import Maestro.Model.Table

/-!
# 表の親（`Model.singleTableParents`、`TablesParents`、`tablesAsMap`）

Go の map は、キーから値を引く関数で表す。`singleTableParents` の結果は map を回る順（決まらない）に
並ぶので、モデルでは最初に見つかった順に並べ、定理では要素だけを述べる。カタログを読む呼び出しの結果は
引数で与え、誤りは `Except`、nil のポインタを引いて止まるところは `none` とする。
-/

namespace Maestro.Model

open Bq

/-- `importDbsAsMap`：データベースを id で引く map。 -/
def importDbsAsMap (dbs : List Db) : Nat → Option Db :=
  dbs.foldl (fun m d => Function.update m d.id (some d)) fun _ => none

/-- 表のキー `dataset.name`。import の表のデータセットは、import 先のデータベースのもの。その
データベースが見つからなければ、nil の `*Db` の `Dataset` を引いて止まる（`none`）。 -/
def tableKey (idbs : Nat → Option Db) (t : Table) : Option String :=
  if t.isImport then (idbs t.importDbId).map fun d => d.dataset ++ "." ++ t.name
  else some (t.dataset ++ "." ++ t.name)

/-- `tablesAsMap`：生きている表（`Tables("id", "ASC", "")` の順）を、キーで引く map。
キーが重なれば、後の表が残る。 -/
def tablesAsMap (tables : Except String (List Table)) (dbs : Except String (List Db)) :
    Option (Except String (String → Option Table)) :=
  match tables, dbs with
  | .error e, _ => some (.error e)
  | .ok _, .error e => some (.error e)
  | .ok tables, .ok dbs =>
    (tables.foldlM (fun m t => (tableKey (importDbsAsMap dbs) t).map fun k =>
      Function.update m k (some t)) fun _ => none).map .ok

/-- `singleTableParents`：問い合わせに現れる名前のうち、このプロジェクトの（またはプロジェクトを
書かない）、自分でない、カタログにある表。 -/
def singleTableParents (projectId : String) (child : Table) (all : String → Option Table) :
    Option (List Table) := do
  let specs ← child.parentNames.mapM parseTableSpec
  let dsNames := specs.filterMap fun (proj, ds, name) =>
    if proj ≠ "" ∧ proj ≠ projectId then none
    else if child.dataset = ds ∧ child.name = name then none
    else some (ds ++ "." ++ name)
  pure (dsNames.dedup.filterMap all)

/-- `TablesParents`：子の名前（データセットを含まない）から、その親への map。 -/
def tablesParents (projectId : String) (tables : Except String (List Table))
    (dbs : Except String (List Db)) (children : List Table) :
    Option (Except String (String → Option (List Table))) := do
  match ← tablesAsMap tables dbs with
  | .error e => pure (.error e)
  | .ok all =>
    let result ← children.foldlM (fun result child =>
      (singleTableParents projectId child all).map fun parents =>
        Function.update result child.name (some parents)) fun _ => none
    pure (.ok result)

end Maestro.Model
