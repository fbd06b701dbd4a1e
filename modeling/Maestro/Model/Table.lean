import Maestro.Model.Sql

/-!
# 表の記録（`model.Table`）

カタログの表の記録のうち、モデルにした関数が読み書きする欄。種類（要約、import、外部）は欄から決まる。
-/

namespace Maestro.Model

/-- 表（`Table`）。時刻は秒の数で、`0` が Go の零の時刻（カタログでは NULL）である。 -/
structure Table where
  id : Nat
  name : String
  dataset : String
  query : String := ""
  disposition : String := ""
  error : String := ""
  running : Bool := false
  extract : Bool := false
  exportDbId : Nat := 0
  externalTmout : Nat := 0
  importDbId : Nat := 0
  importedAt : Nat := 0
  idColumn : String := ""
  lastId : String := ""
  deletedAt : Nat := 0
  lastOkRunEndAt : Nat := 0
  deriving DecidableEq, Repr

/-- import 先のデータベース（`Db`）。 -/
structure Db where
  id : Nat
  dataset : String
  deriving DecidableEq, Repr

namespace Table

/-- `IsImport`。 -/
def isImport (t : Table) : Bool := t.importDbId ≠ 0

/-- `IsExternal`。 -/
def isExternal (t : Table) : Bool := t.externalTmout ≠ 0

/-- 利用者が書く欄：id、名前、データセット、問い合わせ、書き出しと import と外部の設定、id の列、消した時刻。 -/
def userFields (t : Table) : Nat × String × String × String × Bool × Nat × Nat × Nat × String × Nat :=
  (t.id, t.name, t.dataset, t.query, t.extract, t.exportDbId, t.externalTmout, t.importDbId, t.idColumn,
    t.deletedAt)

/-- `parentNames`：import の表には親がない。 -/
def parentNames (t : Table) : List String :=
  if t.isImport then [] else tablesInQuery t.query

end Table

end Maestro.Model
