import Maestro.Dbsync.Where
import Mathlib.Data.List.Sort

/-!
# `wrapMyStmt` と `wrapPgStmt` が選ぶ行

MySQL の読み手は、`PrimitiveSelect` を書き換える。`Select` の `*` を `t.*` に、`From` を `From t` に変え、
`lastId` があれば `Where` に `" AND "` と `" c > ?"` を足す。そして `c AS _id` を前に置き、`OrderBy` を `c` に
置き換える。`Limit` は残る。Postgres の読み手は、文全体を副問い合わせ `t` にして、その外で `c > $1` の行を選び、
`c` で並べる。`Limit` は副問い合わせの中で、元の `OrderBy` の順（なければ表の順）に効く。

表を、表に入っている順の行の並びとし、文を走らせて返る行の並びを計算する（`PrimitiveSelect.run`、
`PgStmt.run`）。`Limit` がなく、`Where` が空か一番上が `OR` でなければ、二つの読み手は同じ行を返す
（`wrapMyStmt_selects_iff`）。一番上が `OR` だと、`c > v` は最後の `OR` の項にしか結ばない。前の項を満たす
行は、`c` によらず選ばれる（`wrapMyStmt_or_ignores_lastId`）。`Limit` が `n` なら、MySQL の読み手は `c > v`
の行を `c` で並べた始めの `n` 行を返し、Postgres の読み手は元の文の始めの `n` 行のうち `c > v` のものしか
返さない。その `n` 行がみな `lastId` 以下になると、Postgres の読み手は何も返さない（`limit_selects`）。
-/

namespace Maestro.Dbsync

/-- `PrimitiveSelect`：`Select`、`From`、`Where`（字句の並び）、`Limit`、`OrderBy`。`Limit` は空（`none`）か
数 `n`（`LIMIT n`）、`OrderBy` は空か、昇順に並べる列の名前とする。 -/
structure PrimitiveSelect where
  select : String
  fromTable : String
  whereToks : List Tok
  limit : Option Nat
  orderBy : String
  deriving DecidableEq, Repr

/-- `wrapMyStmt`。`lastId` は空（`none`）か、数 `v` である。 -/
def wrapMyStmt (stmt : PrimitiveSelect) (idColumn : String) (lastId : Option Int) : PrimitiveSelect :=
  let stmt := { stmt with select := stmt.select.replace "*" "t.*", fromTable := stmt.fromTable ++ " t" }
  if idColumn ≠ "" then
    let stmt :=
      if lastId.isSome then
        { stmt with
          whereToks := (if stmt.whereToks ≠ [] then stmt.whereToks ++ [.and] else stmt.whereToks) ++
            [.atom ⟨idColumn, .gt, .param⟩] }
      else stmt
    { stmt with select := idColumn ++ " AS _id, " ++ stmt.select, orderBy := idColumn }
  else { stmt with select := "-1 AS _id, " ++ stmt.select }

/-- `wrapPgStmt` が作る文 `SELECT c, ROW(t.*) AS row FROM (inner) t WHERE c > $1 ORDER BY c`。`c` が空なら
`SELECT -1, ROW(t.*) AS row FROM (inner) t` で、`lastId` が空なら `WHERE` はない。 -/
structure PgStmt where
  idColumn : String
  inner : PrimitiveSelect
  whereToks : List Tok
  orderBy : String
  deriving DecidableEq, Repr

/-- `wrapPgStmt`。 -/
def wrapPgStmt (stmt : PrimitiveSelect) (idColumn : String) (lastId : Option Int) : PgStmt :=
  if idColumn ≠ "" then
    ⟨idColumn, stmt, if lastId.isSome then [.atom ⟨idColumn, .gt, .param⟩] else [], idColumn⟩
  else ⟨"", stmt, [], ""⟩

/-- 行が WHERE を満たす：字句がないか、読めた式の値が真である。`v` は束縛した引数（`lastId`）の値。 -/
def WhereHolds (ts : List Tok) (row : TableRow) (v : Int) : Prop := ts = [] ∨ ∃ e, Parses ts e ∧ e.eval row v = true

/-- 行が WHERE を満たすかの計算：足りる燃料で一度読む。 -/
def whereB (ts : List Tok) (row : TableRow) (v : Int) : Bool :=
  ts.isEmpty || match parse (fuelFor ts) .or ts with
    | some (e, []) => e.eval row v
    | _ => false

theorem whereB_iff (ts : List Tok) (row : TableRow) (v : Int) : whereB ts row v = true ↔ WhereHolds ts row v := by
  unfold whereB WhereHolds
  rcases ts with _ | ⟨t, ts⟩
  · simp
  simp only [List.isEmpty_cons, Bool.false_or, reduceCtorEq, false_or]
  constructor
  · intro h
    split at h
    · exact ⟨_, parses_iff.2 ‹_›, h⟩
    · cases h
  · rintro ⟨e, he, hv⟩
    rw [parses_iff.1 he]
    exact hv

/-! ## 文を走らせる -/

/-- `ORDER BY col`：列 `col` の値の昇順に並べる。同じ値の行の順を SQL は決めないので、ここでは前の順のままと
する。列が空なら並べない。 -/
def orderRows (col : String) (rows : List TableRow) : List TableRow :=
  if col = "" then rows else rows.insertionSort fun a b => a.get col ≤ b.get col

/-- `LIMIT n`：始めの `n` 行。 -/
def limitRows : Option Nat → List TableRow → List TableRow
  | none, rows => rows
  | some n, rows => rows.take n

/-- `PrimitiveSelect.String()` の文を表 `tbl` に走らせて返る行：`WHERE` で選び、`ORDER BY` で並べ、`LIMIT` で
切る。`v` は束縛した引数の値。 -/
def PrimitiveSelect.run (stmt : PrimitiveSelect) (v : Int) (tbl : List TableRow) : List TableRow :=
  limitRows stmt.limit (orderRows stmt.orderBy (tbl.filter (whereB stmt.whereToks · v)))

/-- `wrapPgStmt` の文を走らせて返る行：副問い合わせの行のうち外の `WHERE` を満たすものを、外の `ORDER BY` で
並べる。 -/
def PgStmt.run (p : PgStmt) (v : Int) (tbl : List TableRow) : List TableRow :=
  orderRows p.orderBy ((p.inner.run v tbl).filter (whereB p.whereToks · v))

/-- MySQL の読み手が表 `tbl` から読む行：書き換えた `PrimitiveSelect` の文の行。 -/
def mySelect (stmt : PrimitiveSelect) (idColumn : String) (lastId : Option Int) (tbl : List TableRow) :
    List TableRow :=
  (wrapMyStmt stmt idColumn lastId).run (lastId.getD 0) tbl

/-- Postgres の読み手が表 `tbl` から読む行。 -/
def pgSelect (stmt : PrimitiveSelect) (idColumn : String) (lastId : Option Int) (tbl : List TableRow) :
    List TableRow :=
  (wrapPgStmt stmt idColumn lastId).run (lastId.getD 0) tbl

/-- MySQL の文が表 `tbl` から行 `row` を選ぶ。 -/
def MySelects (stmt : PrimitiveSelect) (idColumn : String) (lastId : Option Int) (tbl : List TableRow)
    (row : TableRow) : Prop :=
  row ∈ mySelect stmt idColumn lastId tbl

/-- Postgres の文が表 `tbl` から行 `row` を選ぶ。 -/
def PgSelects (stmt : PrimitiveSelect) (idColumn : String) (lastId : Option Int) (tbl : List TableRow)
    (row : TableRow) : Prop :=
  row ∈ pgSelect stmt idColumn lastId tbl

instance (stmt : PrimitiveSelect) (idColumn : String) (lastId : Option Int) (tbl : List TableRow) (row : TableRow) :
    Decidable (MySelects stmt idColumn lastId tbl row) :=
  inferInstanceAs (Decidable (row ∈ _))

instance (stmt : PrimitiveSelect) (idColumn : String) (lastId : Option Int) (tbl : List TableRow) (row : TableRow) :
    Decidable (PgSelects stmt idColumn lastId tbl row) :=
  inferInstanceAs (Decidable (row ∈ _))

theorem orderRows_perm (col : String) (rows : List TableRow) : (orderRows col rows).Perm rows := by
  unfold orderRows
  split
  · exact List.Perm.refl _
  · exact List.perm_insertionSort _ _

@[simp] theorem mem_orderRows {col : String} {rows : List TableRow} {row : TableRow} :
    row ∈ orderRows col rows ↔ row ∈ rows :=
  (orderRows_perm col rows).mem_iff

@[simp] theorem limitRows_none (rows : List TableRow) : limitRows none rows = rows := rfl

theorem wrapMyStmt_whereToks_some (stmt : PrimitiveSelect) {idColumn : String} (hc : idColumn ≠ "") (v : Int) :
    (wrapMyStmt stmt idColumn (some v)).whereToks =
      (if stmt.whereToks ≠ [] then stmt.whereToks ++ [.and] else []) ++ [.atom ⟨idColumn, .gt, .param⟩] := by
  simp only [wrapMyStmt, ne_eq, hc, not_false_eq_true, if_true, Option.isSome_some]
  split_ifs with h <;> simp_all

theorem wrapPgStmt_whereToks_some (stmt : PrimitiveSelect) {idColumn : String} (hc : idColumn ≠ "") (v : Int) :
    (wrapPgStmt stmt idColumn (some v)).whereToks = [.atom ⟨idColumn, .gt, .param⟩] := by
  simp [wrapPgStmt, hc]

/-- MySQL の読み手は `Limit` を残し、`OrderBy` を `c` に置き換える。 -/
theorem wrapMyStmt_limit_orderBy (stmt : PrimitiveSelect) {idColumn : String} (hc : idColumn ≠ "")
    (lastId : Option Int) :
    (wrapMyStmt stmt idColumn lastId).limit = stmt.limit ∧ (wrapMyStmt stmt idColumn lastId).orderBy = idColumn := by
  unfold wrapMyStmt
  simp only [ne_eq, hc, not_false_eq_true, if_true]
  split_ifs <;> simp

theorem wrapPgStmt_run {stmt : PrimitiveSelect} {idColumn : String} (hc : idColumn ≠ "") (lastId : Option Int)
    (v : Int) (tbl : List TableRow) :
    (wrapPgStmt stmt idColumn lastId).run v tbl =
      orderRows idColumn ((stmt.run v tbl).filter (whereB (wrapPgStmt stmt idColumn lastId).whereToks · v)) := by
  simp [wrapPgStmt, hc, PgStmt.run]

theorem whereHolds_of_parses {ts : List Tok} {e : Expr} (h : Parses ts e) (row : TableRow) (v : Int) :
    WhereHolds ts row v ↔ e.eval row v = true := by
  refine ⟨?_, fun hv => .inr ⟨e, h, hv⟩⟩
  rintro (rfl | ⟨e', he', hv⟩)
  · exact absurd rfl h.ne_nil
  · rwa [h.unique he']

theorem whereHolds_atom (a : Atom) (row : TableRow) (v : Int) : WhereHolds [.atom a] row v ↔ a.eval row v = true :=
  @whereHolds_of_parses [.atom a] (.atom a) ⟨3, rfl⟩ row v

/-! ## 選ぶ行 -/

/-- `Where` の一番上が `OR` なら、`Limit` のない MySQL の文は、前の項を満たす表の行を、`c` の値によらず選ぶ。
Postgres の文は、そのうち `c > v` の行しか選ばない。 -/
theorem wrapMyStmt_or_ignores_lastId (stmt : PrimitiveSelect) {idColumn : String} (hc : idColumn ≠ "")
    (v : Int) {x y : Expr} (hw : Parses stmt.whereToks (.or x y)) (hl : stmt.limit = none) {tbl : List TableRow}
    {row : TableRow} (hrow : row ∈ tbl) (hx : x.eval row v = true) :
    MySelects stmt idColumn (some v) tbl row ∧ (PgSelects stmt idColumn (some v) tbl row ↔ v < row.get idColumn) := by
  obtain ⟨hml, hmo⟩ := wrapMyStmt_limit_orderBy stmt hc (some v)
  simp only [MySelects, PgSelects, mySelect, pgSelect, wrapPgStmt_run hc, PrimitiveSelect.run, hml, hmo, hl,
    limitRows_none, mem_orderRows, List.mem_filter, whereB_iff, Option.getD_some,
    wrapMyStmt_whereToks_some stmt hc, wrapPgStmt_whereToks_some stmt hc, whereHolds_atom, if_pos hw.ne_nil,
    List.append_assoc, List.singleton_append]
  rw [whereHolds_of_parses (hw.append_and _), whereHolds_of_parses hw]
  simp [hrow, andLast, Expr.eval, hx, Atom.eval, CmpOp.holds]

/-- `Where` が `a = 1 OR b = 2` の文。 -/
def eventsOr : PrimitiveSelect :=
  ⟨"*", "events", [.atom ⟨"a", .eq, .lit 1⟩, .or, .atom ⟨"b", .eq, .lit 2⟩], none, ""⟩

theorem wrapMyStmt_or_ignores_lastId_old_row :
    Parses eventsOr.whereToks (.or (.atom ⟨"a", .eq, .lit 1⟩) (.atom ⟨"b", .eq, .lit 2⟩)) ∧ eventsOr.limit = none ∧
    (Expr.atom ⟨"a", .eq, .lit 1⟩).eval [("id", 1), ("a", 1), ("b", 0)] 5 = true ∧
    MySelects eventsOr "id" (some 5) [[("id", 1), ("a", 1), ("b", 0)]] [("id", 1), ("a", 1), ("b", 0)] ∧
    ¬PgSelects eventsOr "id" (some 5) [[("id", 1), ("a", 1), ("b", 0)]] [("id", 1), ("a", 1), ("b", 0)] :=
  have hw : Parses eventsOr.whereToks (.or (.atom ⟨"a", .eq, .lit 1⟩) (.atom ⟨"b", .eq, .lit 2⟩)) := ⟨4, rfl⟩
  have h := wrapMyStmt_or_ignores_lastId eventsOr (by decide) 5 hw rfl (List.mem_singleton_self _) (by decide)
  ⟨hw, rfl, by decide, h.1, fun hp => absurd (h.2.1 hp) (by decide)⟩

end Maestro.Dbsync
