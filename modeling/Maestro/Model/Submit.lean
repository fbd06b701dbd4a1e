import Maestro.Model.Job

/-!
# 仕事を出す（`submitJob`、`updateJobWithBQData`）

`submitJob` を、外の呼び出しの結果の関数として書く。外の呼び出しは、`getConfig`、一回目の `StartJob`、
一時的な誤りのときに十秒待って呼ぶ二回目の `StartJob`、`UpdateBQJob` である。結果は、返す誤り、呼び出し元の
`*BQJob`（`updateJobWithBQData` がその場で書き換える）、`UpdateBQJob` が書いた行、出した BigQuery の仕事。

一回目の `StartJob` が一時的な誤りで二回目が通ると、`return err` の `err` は nil なので、`submitJob` は
nil を返す。このとき `updateJobWithBQData` も `UpdateBQJob` も呼ばれず、仕事には BigQuery の id がない。
-/

namespace Maestro.Model

open Go

/-- `StartJob` の返す `bigquery.Job` のうち、`updateJobWithBQData` が仕事に写す欄：id（`project:job_id` の
形でもよい）、状態、始めと終わりの時刻（`Statistics.StartTime` と `Statistics.EndTime`、`0` はなし）。 -/
structure BQResponse where
  id : String
  status : Option JobStatus := none
  startTime : Nat := 0
  endTime : Nat := 0
  deriving DecidableEq, Repr

/-- `StartJob` の一回の結果。 -/
inductive StartResult
  | ok (r : BQResponse)
  | err (msg : String)
  deriving DecidableEq, Repr

/-- 一時的な誤りの印。 -/
def tempErr : String := "server encountered a temporary error"

/-- `updateJobWithBQData` の id の取り出し：`:` があれば最後の `:` の後、さらに `.` があれば最後の `.` の後。 -/
def jobIdOf (id : String) : String :=
  let jid := if contains id ":" then lastField id ':' else id
  if contains jid "." then lastField jid '.' else jid

/-- `updateJobWithBQData`：BigQuery の id を書き、状態と始めと終わりの時刻は、返ってきたものがあれば写す。 -/
def updateJobWithBQData (job : BQJob) (r : BQResponse) : BQJob :=
  { job with
    bqJobId := jobIdOf r.id
    status := r.status <|> job.status
    startTime := if r.startTime ≠ 0 then some r.startTime else job.startTime
    endTime := if r.endTime ≠ 0 then some r.endTime else job.endTime }

/-- `submitJob` の後。`err` は返す誤り（nil は `none`）、`job` は呼び出し元の `*BQJob`、`row` は
`UpdateBQJob` が書いた行、`started` は出した BigQuery の仕事。 -/
structure Submitted where
  err : Option String
  job : BQJob
  row : Option BQJob
  started : Option BQResponse
  deriving DecidableEq, Repr

/-- `submitJob`。`configErr` は `getConfig` の誤り、`update` は `UpdateBQJob` の誤り。 -/
def submitJob (configErr : Option String) (first second : StartResult) (update : Option String)
    (job : BQJob) : Submitted :=
  match configErr with
  | some e => ⟨some e, job, none, none⟩
  | none =>
    match first with
    | .ok r =>
      let job := updateJobWithBQData job r
      match update with
      | some e => ⟨some e, job, none, some r⟩
      | none => ⟨none, job, some job, some r⟩
    | .err msg =>
      if contains msg tempErr then
        match second with
        | .ok r => ⟨none, job, none, some r⟩
        | .err msg' => ⟨some msg', job, none, none⟩
      else ⟨some msg, job, none, none⟩

/-! ## `submitJob` が nil を返すとき -/

variable {configErr update : Option String} {first second : StartResult} {job : BQJob}

/-- `submitJob` が nil を返すのは、一回目の `StartJob` と `UpdateBQJob` が通ったときと、一回目が一時的な
誤りで二回目が通ったときである。 -/
theorem submitJob_err_eq_none_iff :
    (submitJob configErr first second update job).err = none ↔ configErr = none ∧
      ((∃ r, first = .ok r ∧ update = none) ∨
        ∃ msg r, first = .err msg ∧ contains msg tempErr = true ∧ second = .ok r) := by
  unfold submitJob
  rcases configErr with _ | e
  · rcases first with r | msg
    · rcases update with _ | e <;> simp
    · by_cases hm : contains msg tempErr = true
      · rcases second with r | msg' <;> simp [hm]
      · simp [hm]
  · simp

/-- 一回目の `StartJob` と `UpdateBQJob` が通れば、仕事と書いた行は、出した仕事の id を持つ。 -/
theorem submitJob_of_ok (r : BQResponse) :
    submitJob none (.ok r) second none job =
      ⟨none, updateJobWithBQData job r, some (updateJobWithBQData job r), some r⟩ := rfl

/-- 一回目の `StartJob` が一時的な誤りで二回目が通ると、`submitJob` は nil を返し、BigQuery の仕事は出て
いるのに、呼び出し元の仕事にはその id がなく、`UpdateBQJob` も呼ばれない。 -/
theorem submitJob_retry_drops_id (msg : String) (hmsg : contains msg tempErr = true) (r : BQResponse)
    (hid : job.bqJobId ≠ jobIdOf r.id) :
    (submitJob none (.err msg) (.ok r) update job).err = none ∧
      (submitJob none (.err msg) (.ok r) update job).started = some r ∧
      (submitJob none (.err msg) (.ok r) update job).job.bqJobId ≠ jobIdOf r.id ∧
      (submitJob none (.err msg) (.ok r) update job).row = none := by
  simp [submitJob, hmsg, hid]

theorem submitJob_retry_drops_id_fresh :
    (submitJob none (.err "Error 503: server encountered a temporary error") (.ok { id := "proj:job_1" }) none
      { id := 1, tableId := 1, type := .query }).err = none ∧
    (submitJob none (.err "Error 503: server encountered a temporary error") (.ok { id := "proj:job_1" }) none
      { id := 1, tableId := 1, type := .query }).started = some { id := "proj:job_1" } ∧
    (submitJob none (.err "Error 503: server encountered a temporary error") (.ok { id := "proj:job_1" }) none
      { id := 1, tableId := 1, type := .query }).job.bqJobId ≠ jobIdOf "proj:job_1" ∧
    (submitJob none (.err "Error 503: server encountered a temporary error") (.ok { id := "proj:job_1" }) none
      { id := 1, tableId := 1, type := .query }).row = none :=
  submitJob_retry_drops_id _ (by decide) _ (by decide)

end Maestro.Model
