import Maestro.Go

/-!
# BigQuery の仕事の記録（`model.BQJob`）

カタログの仕事の記録のうち、走りと監視が読み書きする欄。`Status` の JSON は解いた形で持ち、
`cacheStatus` が作る `state` と `error` はそこから決まる。`Parents` の JSON は、`Assemble` が
`json.Marshal` で書いた表の id の並びとして持つ。
-/

namespace Maestro.Model

open Go

/-- 仕事の種類（`Type`）。 -/
inductive JobType
  | query
  | extract
  | load
  deriving DecidableEq, Repr

/-- 仕事の状態（`bigquery.JobStatus`）。`errorResult` は `ErrorResult.Message`、`errors` はほかの誤りの文。 -/
structure JobStatus where
  state : String
  errorResult : Option String := none
  errors : List String := []
  deriving DecidableEq, Repr

/-- 仕事（`BQJob`）。時刻は秒の数で、`none` は NULL。 -/
structure BQJob where
  id : Nat
  tableId : Nat
  runId : Option Nat := none
  parents : List Nat := []
  bqJobId : String := ""
  type : JobType
  status : Option JobStatus := none
  startTime : Option Nat := none
  endTime : Option Nat := none
  deriving DecidableEq, Repr

/-- スキーマの不一致の誤りの印（`bqSchemaErr`）。 -/
def bqSchemaErr : String := "Provided Schema does not match Table"

/-- 出し直せば通る誤りの印（`bqRetryingErr`）。 -/
def bqRetryingErr : String := "Retrying may solve the problem"

namespace BQJob

/-- `cacheStatus` の後の `state`。 -/
def state (j : BQJob) : String :=
  match j.status with
  | some s => s.state
  | none => ""

/-- `cacheStatus` の後の `error`。 -/
def error (j : BQJob) : String :=
  match j.status with
  | some { errorResult := some e, .. } => e
  | _ => ""

/-- `GetName`：表の id の十進の文字列。 -/
def name (j : BQJob) : String := toString j.tableId

/-- `Status` の JSON が印の文を含む。 -/
def statusMentions (j : BQJob) (marker : String) : Bool :=
  match j.status with
  | some s => s.errorResult.any (contains · marker) || s.errors.any (contains · marker)
  | none => false

end BQJob

end Maestro.Model
