import Maestro.Dbsync.Reader
import Maestro.Dbsync.Select

/-!
# BigQuery のスキーマと、読み手が一行に書く欄

`GetBQSchema` は、問い合わせを `LIMIT 0` で投げ、ドライバが返す列の型から BigQuery のスキーマを作る。列は
文の `Select` と `From` で決まり、`Where`、`Limit`、`OrderBy` にはよらない。

MySQL では、`runImport` は `NewTableReader` に `&stmt` を渡す。`wrapMyStmt` はポインタを通して `stmt` を書き
換えるので、`GetBQSchema` が受け取るのは書き換えた後の文である（`stmtAfterNewTableReader`）。その列は、
読み手の文と同じく `_id` の列と元の文の列である。`GetBQSchema` は `_id` を除いた列を前から欄に書き、
`Read` は `Scan` の最初の値を除いた値を一行に書く。Postgres では、`GetBQSchema` は元の文をそのまま
`SELECT * FROM (stmt) t LIMIT 0` で包む。`Read` が書くのは `ROW(t.*)`、つまり同じ副問い合わせのすべての
列である。

どちらでも、`nil` でない欄は、`Read` が書く欄と、名前も順も一致する（`getBQSchema_matches_read`）。ただし
MySQL のスキーマは `len(ctypes)` 個の欄を持ち、最後の欄は `nil` のままである（`myGetBQSchema_trailing_nil`）。
-/

namespace Maestro.Dbsync

/-- ドライバが返す列の型（`sql.ColumnType`）：`Name()` と `DatabaseTypeName()`。 -/
structure ColumnType where
  name : String
  databaseTypeName : String
  deriving DecidableEq, Repr

/-- `bigquery.TableFieldSchema` の `Name` と `Type`。 -/
structure TableFieldSchema where
  name : String
  type : String
  deriving DecidableEq, Repr

/-- `myDbTypeToBQType`。 -/
def myDbTypeToBQType (typ : String) : String :=
  if typ ∈ ["INT", "BIGINT", "MEDIUMINT", "SMALLINT", "TINYINT", "YEAR"] then "INT64"
  else if typ ∈ ["BLOB", "LONGBLOB", "MEDIUMBLOB", "TINYBLOB"] then "BYTES"
  else if typ = "BIT" then "BOOL"
  else if typ = "DATE" then "DATE"
  else if typ = "TIME" then "TIME"
  else if typ ∈ ["TIMESTAMP", "DATETIME"] then "TIMESTAMP"
  else if typ ∈ ["FLOAT", "DECIMAL"] then "FLOAT64"
  else "STRING"

/-- `pgDbTypeToBQType`。 -/
def pgDbTypeToBQType (typ : String) : String :=
  if typ ∈ ["INT8", "INT4", "INT2"] then "INT64"
  else if typ = "BYTEA" then "BYTES"
  else if typ = "BOOL" then "BOOL"
  else if typ = "DATE" then "DATE"
  else if typ = "TIME" then "TIME"
  else if typ ∈ ["TIMETZ", "TIMESTAMP", "TIMESTAMPTZ"] then "TIMESTAMP"
  else if typ ∈ ["FLOAT4", "FLOAT8"] then "FLOAT64"
  else "STRING"

/-- 列の型から BigQuery の欄を作る。 -/
def toField (toBQ : String → String) (c : ColumnType) : TableFieldSchema := ⟨c.name, toBQ c.databaseTypeName⟩

/-- `fields[i] = &bigquery.TableFieldSchema{...}` の繰り返し：`i` 番目から、列を順に欄にして書く。 -/
def setFields (toBQ : String → String) :
    Nat → List ColumnType → List (Option TableFieldSchema) → List (Option TableFieldSchema)
  | _, [], fields => fields
  | i, c :: cs, fields => setFields toBQ (i + 1) cs (fields.set i (some (toField toBQ c)))

/-- `GetBQSchema` の `fields`：`len(ctypes)` 個の `nil` に、列 `cols` を前から書く。 -/
def schemaFields (toBQ : String → String) (ctypes cols : List ColumnType) : List (Option TableFieldSchema) :=
  setFields toBQ 0 cols (List.replicate ctypes.length none)

/-- `myTableReader.GetBQSchema`：最初の列（id）を除いた列を書く。列がなければ `ctypes[1:]` で止まる
（`none`）。 -/
def myGetBQSchema (ctypes : List ColumnType) : Option (List (Option TableFieldSchema)) :=
  match ctypes with
  | [] => none
  | _ :: cols => some (schemaFields myDbTypeToBQType ctypes cols)

/-- `pgTableReader.GetBQSchema`：すべての列を書く。 -/
def pgGetBQSchema (ctypes : List ColumnType) : List (Option TableFieldSchema) :=
  schemaFields pgDbTypeToBQType ctypes ctypes

/-- `myTableReader.GetBQSchema` が投げる文：`Where` と `OrderBy` を空に、`Limit` を `0` にする。 -/
def mySchemaStmt (stmt : PrimitiveSelect) : PrimitiveSelect :=
  { stmt with whereToks := [], limit := some 0, orderBy := "" }

/-- `NewTableReader` の後の `runImport` の `stmt`。MySQL では、`wrapMyStmt` がポインタを通して書き換えている。
Postgres の読み手には `stmt.String()` を渡すので、`stmt` は変わらない。 -/
def stmtAfterNewTableReader (driver : String) (stmt : PrimitiveSelect) (idColumn : String)
    (lastId : Option Int) : PrimitiveSelect :=
  if driver = "mysql" then wrapMyStmt stmt idColumn lastId else stmt

/-- `myTableReader.Read` の `csvRecord`：`NULL` の値と `maxCsvSize` 以上の値は空にする。 -/
def myRecord (cols : List (Option String)) : List String :=
  cols.map fun f => match f with
    | some s => if s.utf8ByteSize < maxCsvSize then filterInvalidUtf s else ""
    | none => ""

/-- `myTableReader.Read` が一行に書く値は、`csvRecord` を CSV の一行にしたものである。 -/
theorem myVal_eq_csvWrite (cols : List (Option String)) :
    myVal cols = (csvWrite (myRecord cols)).toList.flatMap String.utf8EncodeChar := rfl

/-- `myTableReader.Read` が書く欄の列：`tr.cvals[1:]`、つまり最初の列（`lastId` に読む id）を除いた列。 -/
def myReadColumns (ctypes : List ColumnType) : List ColumnType := ctypes.drop 1

/-- `pgTableReader.Read` が書く欄の列：`ROW(t.*)`、つまり副問い合わせ `t` のすべての列。 -/
def pgReadColumns (ctypes : List ColumnType) : List ColumnType := ctypes

/-! ## 欄を書く繰り返し -/

/-- `i` 番目から書く繰り返しは、前の `i` 個を残し、その後を列の欄で置き換える。 -/
theorem setFields_eq (toBQ : String → String) :
    ∀ (cs : List ColumnType) (pre rest : List (Option TableFieldSchema)), cs.length ≤ rest.length →
      setFields toBQ pre.length cs (pre ++ rest) =
        pre ++ cs.map (some ∘ toField toBQ) ++ rest.drop cs.length
  | [], pre, rest, _ => by simp [setFields]
  | c :: cs, pre, r :: rest, h => by
    have hset : (pre ++ r :: rest).set pre.length (some (toField toBQ c)) =
        (pre ++ [some (toField toBQ c)]) ++ rest := by
      simp [List.set_append_right]
    have ih := setFields_eq toBQ cs (pre ++ [some (toField toBQ c)]) rest
      (by simp only [List.length_cons] at h; omega)
    simp only [List.length_append, List.length_singleton] at ih
    rw [setFields, hset, ih]
    simp
  | _ :: _, _, [], h => by simp at h

/-- 欄の数 `len(ctypes)` より書く列が少なければ、残りは `nil` である。 -/
theorem schemaFields_eq (toBQ : String → String) {ctypes cols : List ColumnType}
    (h : cols.length ≤ ctypes.length) :
    schemaFields toBQ ctypes cols =
      cols.map (some ∘ toField toBQ) ++ List.replicate (ctypes.length - cols.length) none := by
  have := setFields_eq toBQ cols [] (List.replicate ctypes.length none) (by simpa using h)
  simpa [schemaFields, List.drop_replicate] using this

/-- MySQL のスキーマは、`_id` の後の列の欄に、`nil` の欄が一つ続く。Postgres のスキーマに `nil` はない。 -/
theorem myGetBQSchema_trailing_nil (idCol : ColumnType) (cols : List ColumnType) :
    myGetBQSchema (idCol :: cols) = some (cols.map (some ∘ toField myDbTypeToBQType) ++ [none]) ∧
      none ∉ pgGetBQSchema cols := by
  refine ⟨?_, ?_⟩
  · simp [myGetBQSchema, schemaFields_eq]
  · simp [pgGetBQSchema, schemaFields_eq]

theorem myGetBQSchema_trailing_nil_two_columns :
    myGetBQSchema [⟨"_id", "INT"⟩, ⟨"name", "VARCHAR"⟩] = some [some ⟨"name", "STRING"⟩, none] ∧
      none ∉ pgGetBQSchema [⟨"name", "VARCHAR"⟩] := by
  have h := myGetBQSchema_trailing_nil ⟨"_id", "INT"⟩ [⟨"name", "VARCHAR"⟩]
  exact ⟨by rw [h.1]; decide, h.2⟩

/-! ## スキーマと書く欄 -/

/-- どちらのドライバでも、元の文のどの列についても、`nil` でない欄は `Read` が一行に書く欄と、名前も順も
一致する。MySQL では、`GetBQSchema` の文は読み手の文と `Select` も `From` も同じで、列は `_id` の列
`idCol` と元の文の列 `cols` である。各行の値は列ごとに一つで、書く欄の数は `nil` でない欄の数である。 -/
theorem getBQSchema_matches_read (stmt : PrimitiveSelect) (idColumn : String) (lastId : Option Int)
    (idCol : ColumnType) (cols : List ColumnType) :
    (mySchemaStmt (stmtAfterNewTableReader "mysql" stmt idColumn lastId)).select =
      (wrapMyStmt stmt idColumn lastId).select ∧
    (mySchemaStmt (stmtAfterNewTableReader "mysql" stmt idColumn lastId)).fromTable =
      (wrapMyStmt stmt idColumn lastId).fromTable ∧
    (∃ fields, myGetBQSchema (idCol :: cols) = some fields ∧
      (fields.filterMap id).map (·.name) = (myReadColumns (idCol :: cols)).map (·.name) ∧
      ∀ vals : List (Option String), vals.length = (idCol :: cols).length →
        (myRecord (vals.drop 1)).length = (fields.filterMap id).length) ∧
    stmtAfterNewTableReader "postgres" stmt idColumn lastId = stmt ∧
    ((pgGetBQSchema cols).filterMap id).map (·.name) = (pgReadColumns cols).map (·.name) := by
  have hmy := (myGetBQSchema_trailing_nil idCol cols).1
  have hfm : ((cols.map (some ∘ toField myDbTypeToBQType) ++ [none]).filterMap id) =
      cols.map (toField myDbTypeToBQType) := by
    simp [List.filterMap_append, List.filterMap_map]
  refine ⟨rfl, rfl, ⟨_, hmy, ?_, fun vals hv => ?_⟩, rfl, ?_⟩
  · rw [hfm]
    simp [myReadColumns, toField]
  · rw [hfm]
    simp [myRecord, hv]
  · simp [pgGetBQSchema, schemaFields_eq, pgReadColumns, List.filterMap_map, toField]

end Maestro.Dbsync
