import Maestro.System.State

/-!
# goroutine の一歩

`threadStep s pc ch` は、プログラムカウンタ `pc` の goroutine の一歩：共有の状態を一回読むか書き、次の
プログラムカウンタへ進む。`ch` は外の呼び出し（`StartJob`、外部のデータベースからの読み出しと GCS への
書き込み）の結果と、時計の goroutine の `select` が選ぶ枝である。進めない goroutine（空の channel を
待つ、終わっていない BigQuery の仕事を待つ）の一歩は `none`。

プロセスの外からは、BigQuery の仕事の終わり、時の流れ、HTTP の要求が来る。`step` はそれらと goroutine の
一歩をまとめる。モデルにしないもの：カタログへの問い合わせの失敗、Slack と git、シートへの書き出し、
再 import の条件、import で読む行と `LastId` の値（これは `Maestro.Import` のモデルで扱う）。`processCycle` が
nil の表を引いて止まるところ（プロセスが落ちる）は、その goroutine が進めないこととする。HTTP の handler の
中の nil の表は、`net/http` が panic を拾うので、handler が終わることとする。
-/

namespace Maestro.System

open Go Model

/-- 外の呼び出しの結果と、`select` の選ぶ枝。`StartJob` が通れば、返す仕事はふつう `RUNNING` の状態に
ある（`ok`）が、状態 `st` の仕事を返すこともある（`started st`：すぐに終わった仕事）。一回目の `StartJob` が
一時的な誤り（`tempErr`）で、十秒後の二回目が状態 `st` の仕事を返すのが `retried st` である。 -/
inductive Choice
  | ok
  | started (st : JobStatus)
  | retried (st : JobStatus)
  | fail (msg : String)
  | timeout
  deriving DecidableEq, Repr

/-- HTTP の要求。 -/
inductive Request
  /-- `tablePutHandler`：利用者の書いた表。 -/
  | put (t : Table)
  /-- `tableDeleteHandler`。 -/
  | delete (id : Nat)
  /-- `tableRunHandler`。 -/
  | runTable (id : Nat)
  /-- `tableLoadExternalHandler`。 -/
  | externalLoad (id : Nat)
  /-- `runResumeGetHandler`。 -/
  | resume (runId : Nat)
  deriving DecidableEq, Repr

/-- 一歩。 -/
inductive Event
  /-- goroutine `tid` の一歩。 -/
  | thread (tid : Nat) (ch : Choice)
  /-- BigQuery の `n` 番目（0 から）の仕事が、状態 `st` で終わる。 -/
  | whEnd (n : Nat) (st : JobStatus)
  /-- 時が `d` 秒進む。 -/
  | tick (d : Nat)
  | request (req : Request)
  deriving Repr

/-! ## 誤りの文と仕事の作り方 -/

/-- `time.Duration` の `String`（整数の秒）。 -/
def durationString (secs : Nat) : String :=
  if 3600 ≤ secs then
    toString (secs / 3600) ++ "h" ++ toString (secs % 3600 / 60) ++ "m" ++ toString (secs % 60) ++ "s"
  else if 60 ≤ secs then toString (secs / 60) ++ "m" ++ toString (secs % 60) ++ "s"
  else toString secs ++ "s"

def errorInTable (j : BQJob) : String := "Error in table " ++ toString j.tableId ++ ": " ++ j.error

def importErrors (j : BQJob) : String :=
  "Errors encountered during import of table " ++ toString j.tableId ++ "."

def alreadyRunning : String := "Table already running."

def waitTimedOut (tmout : Nat) : String := "External wait timed out after " ++ durationString tmout

def loadWithoutImport : String := "Load started without prior successful import."

/-- `newBQQueryJob`。 -/
def newBQQueryJob (t : Table) (runId : Option Nat) : BQJob :=
  { id := 0, tableId := t.id, runId := runId, type := .query }

/-- `newBQExtractJob`。 -/
def newBQExtractJob (t : Table) (runId : Option Nat) : BQJob :=
  { id := 0, tableId := t.id, runId := runId, type := .extract }

/-- `newBQLoadJob`。 -/
def newBQLoadJob (t : Table) (runId : Option Nat) : BQJob :=
  { id := 0, tableId := t.id, runId := runId, type := .load }

/-! ## 呼び出し元へ戻る -/

/-- `queueImport` から戻る。`ok` は順番に入ったこと。 -/
def QCont.ret : QCont → Bool → Pc
  | .cycle r rest, _ => .item r rest
  | .reimport t job, true => .setError t job.error .done
  | .reimport _ _, false => .done
  | .handler, _ => .done

/-- `startExternalWait` から戻る（呼び出し元は結果を見ない）。 -/
def ECont.ret : ECont → Pc
  | .cycle r rest => .item r rest
  | .handler => .done

/-- `submitJob` が出した仕事を返す。 -/
def SCont.ok (s : Sys) (job : BQJob) : SCont → Sys × Pc
  | .cycle r _ rest => (s.spawn (.monitor job), .item r rest)
  | .runTable t => (s, .runTableSetRunning t job)
  | .resubmit => (s, .done)
  | .extract t => (s, .extractSetRunning t job)
  | .load _ => (s.spawn (.monitor job), .worker)
  | .externalLoad => (s.spawn (.monitor job), .done)

/-- `submitJob` が誤り `msg` を返す。 -/
def SCont.err (msg : String) : SCont → Pc
  | .cycle r t _ => .setError t msg (.runFail r msg)
  | .runTable t => .setError t msg .done
  | .resubmit => .done
  | .extract t => .setError t msg .done
  | .load task => .markError task msg
  | .externalLoad => .done

/-! ## 一歩 -/

/-- `processCycle` の項目の一歩。 -/
def itemStep (s : Sys) (r : RunMem) (j : BQJob) (rest : List BQJob) : Option (Sys × Pc) :=
  if j.error ≠ "" then some (s, .runFail r (errorInTable j))
  else if j.bqJobId ≠ "" then some (s, .item r rest)
  else if j.type = .load then
    match s.imports j.tableId with
    | .error => some (s, .runFail r (importErrors j))
    | .none => some (s, .loadSelect r j rest)
    | _ => some (s, .item r rest)
  else
    match s.selectTable j.tableId with
    | some t => some (s, .querySelected r j { t with error := "" } rest)
    | none => none

/-- `processJobDone` の、仕事の誤りで分けるところ。 -/
def doneBranch (s : Sys) (job : BQJob) (t : Table) : Sys × Pc :=
  if job.error ≠ "" then
    if job.type = .load ∧ contains job.error bqSchemaErr = true ∧ t.error = "" ∧ job.runId.getD 0 ≠ 0 then
      (s, .reimportDelete t job)
    else (s, .setError t job.error .done)
  else (s, .doneSetRunning job (if contains t.error bqSchemaErr then { t with error := "" } else t))

/-- `postCompletionQuery`、`postCompletionExtract`、`postCompletionLoad`。 -/
def postCompletionStep (s : Sys) (job : BQJob) (t : Table) : Sys × Pc :=
  match job.type with
  | .query =>
    if t.extract ∨ t.exportDbId ≠ 0 then
      if t.running then (s, .setError t alreadyRunning .done)
      else
        let ej := newBQExtractJob t job.runId
        (s.insertBQJob ej, .submitStart (s.insertJob ej) (.extract t))
    else (s, .done)
  | .extract => (s, .done)
  | .load =>
    let t := if t.idColumn ≠ "" ∧ t.disposition = "WRITE_TRUNCATE" then
      { t with disposition := "WRITE_APPEND" } else t
    (s.saveTable { t with importedAt := s.clock }, .done)

/-- `StartJob` が状態 `st` の仕事を返す：BigQuery の側に、次の id の仕事ができる。始めの時刻は出した時刻で、
終わった仕事なら終わりの時刻も同じである。 -/
def bqStart (s : Sys) (job : BQJob) (st : JobStatus) : WhJob :=
  { bqJobId := toString (s.wh.length + 1), jobId := job.id, status := st, startTime := some s.clock
    endTime := if st.state = "DONE" then some s.clock else none }

/-- `StartJob` が状態 `st` の仕事を返した後：`updateJobWithBQData` が id と状態と時刻を写す。 -/
def startJob (s : Sys) (job : BQJob) (k : SCont) (st : JobStatus) : Sys × Pc :=
  let w := bqStart s job st
  ({ s with wh := s.wh ++ [w] },
    .submitUpdate
      { job with
        bqJobId := w.bqJobId, status := some st, startTime := w.startTime <|> job.startTime
        endTime := w.endTime <|> job.endTime } k)

/-- 一回目の `StartJob` が一時的な誤りで、二回目が状態 `st` の仕事を返した後：BigQuery の側に仕事ができるが、
`submitJob` は `return err`（nil）で戻るので、`updateJobWithBQData` も `UpdateBQJob` も通らず、呼び出し元は
書き換わっていない仕事で続ける。 -/
def retryJob (s : Sys) (job : BQJob) (k : SCont) (st : JobStatus) : Sys × Pc :=
  k.ok { s with wh := s.wh ++ [bqStart s job st] } job

/-- goroutine の一歩。 -/
def threadStep (s : Sys) (ch : Choice) : Pc → Option (Sys × Pc)
  | .done => none
  | .monitorRun r =>
    some (s, .cycle (if r.ignoreErrors then { r with maxErrCnt := countErrors (s.jobsOfRun r.id) } else r))
  | .cycle r =>
    match processCyclePlan r (s.jobsOfRun r.id) with
    | some .finish => some (s.updateRun r.id none, .done)
    | some (.fail e) => some (s, .runFail r e)
    | some (.items ready) => some (s, .item r ready)
    | none => none
  | .item r ready =>
    match ready with
    | [] => some (s, .cycle r)
    | j :: rest => itemStep s r j rest
  | .querySelected r j t rest =>
    some (s.saveTable { t with running := true }, .submitStart j (.cycle r { t with running := true } rest))
  | .loadSelect r j rest =>
    match s.selectTable j.tableId with
    | some t =>
      if t.isImport then some (s, .importSetRunning r j t rest)
      else if t.isExternal then some (s, .externalCheck r j t rest)
      else some (s, .item r rest)
    | none => none
  | .importSetRunning r j t rest =>
    some (s.saveTable { t with running := true }, .qiCheck ⟨{ t with running := true }, some j⟩ (.cycle r rest))
  | .externalCheck r j t rest =>
    if (s.waits t.id).isSome then some (s, .item r rest) else some (s, .ewCheck t (some j) (.cycle r rest))
  | .runFail r msg => some (s.updateRun r.id (some msg), .done)
  | .qiCheck task k =>
    if s.imports task.table.id ≠ .none then some (s, k.ret false) else some (s, .qiSend task k)
  | .qiSend task k =>
    if s.queue.length < 1024 then some ({ s with queue := s.queue ++ [task] }, .qiSet task k) else none
  | .qiSet task k => some (s.setImport task.table.id .queued, k.ret true)
  | .ewCheck t job k =>
    if t.isExternal ∧ (s.waits t.id).isNone then some (s, .ewSetRunning t job k) else some (s, k.ret)
  | .ewSetRunning t job k => some (s.saveTable { t with running := true }, .ewRegister { t with running := true } job k)
  | .ewRegister t job k =>
    some (({ s with nextCh := s.nextCh + 1 }.setWait t.id (some ⟨s.nextCh, job⟩)).spawn
      (.ewTimer s.nextCh t (s.clock + t.externalTmout)), k.ret)
  | .ewTimer c t deadline =>
    match ch with
    | .ok => if c ∈ s.closed then some (s, .done) else none
    | .timeout =>
      if deadline ≤ s.clock then
        some ({ s.saveTable { t with running := false, error := waitTimedOut t.externalTmout } with
          expired := s.expired ++ [c] }, .done)
      else none
    | _ => none
  | .submitStart job k =>
    match ch with
    | .ok => some (startJob s job k { state := "RUNNING" })
    | .started st => some (startJob s job k st)
    | .retried st => some (retryJob s job k st)
    | .fail msg => some (s, k.err msg)
    | .timeout => none
  | .submitUpdate job k => some (k.ok (s.updateBQJob job) job)
  | .monitor job =>
    match s.whJob job.bqJobId with
    | some w =>
      if w.endTime.isSome then
        let job := { job with status := some w.status, startTime := w.startTime <|> job.startTime, endTime := w.endTime }
        if job.statusMentions bqRetryingErr then some (s, .resubmitClear job) else some (s, .doneUpdate job)
      else none
    | none => none
  | .resubmitClear job =>
    let job := { job with status := none, endTime := none }
    some ({ s.updateBQJob job with resubmitted := s.resubmitted ++ [job.id] }, .submitStart job .resubmit)
  | .doneUpdate job => some (s.updateBQJob job, .doneSelect job)
  | .doneSelect job =>
    match s.selectTable job.tableId with
    | some t => some (s, .doneDeleteImport job t)
    | none => some (s, .done)
  | .doneDeleteImport job t => some (doneBranch (s.setImport t.id .none) job t)
  | .reimportDelete t job =>
    some (s.setImport t.id .none, if t.isImport then .reimportSave t job else .done)
  | .reimportSave t job =>
    let t := { t with disposition := "WRITE_TRUNCATE", lastId := "" }
    some (s.saveTable t, .reimportInsert t job)
  | .reimportInsert t job =>
    let nj := newBQLoadJob t job.runId
    some (s.insertBQJob nj, .qiCheck ⟨t, some (s.insertJob nj)⟩ (.reimport t job))
  | .doneSetRunning job t =>
    let t := { t with running := false }
    if t.error = "" ∧ (job.type = .query ∧ t.extract = false ∨ job.type ≠ .query) then
      some (s.saveTable t, .doneLastOk job t)
    else some (s.saveTable t, .postCompletion job t)
  | .doneLastOk job t =>
    some (s.saveTable { t with lastOkRunEndAt := s.clock }, .postCompletion job { t with lastOkRunEndAt := s.clock })
  | .postCompletion job t => some (postCompletionStep s job t)
  | .extractSetRunning t job => some ((s.saveTable { t with running := true }).spawn (.monitor job), .done)
  | .setError t msg k => some (s.saveTable { t with running := false, error := msg }, k)
  | .worker =>
    match s.queue with
    | task :: rest => some ({ s with queue := rest }, .importStatusRunning task)
    | [] => none
  | .importStatusRunning task => some (s.setImport task.table.id .running, .importSaveRunning task)
  | .importSaveRunning task =>
    some (s.saveTable { task.table with running := true },
      .importUpload { task with table := { task.table with running := true } })
  | .importUpload task =>
    match ch with
    | .ok => some (s, .importSetLastId task)
    | .fail msg => some (s, .markError task msg)
    | _ => none
  | .importSetLastId task => some (s.saveTable task.table, .importStatusDone task)
  | .importStatusDone task => some (s.setImport task.table.id .done, .loadCheck task)
  | .loadCheck task =>
    if s.imports task.table.id ≠ .done then some (s, .markError task loadWithoutImport)
    else
      match task.job with
      | none => some (s, .loadInsert task)
      | some j => some (s, .loadUpdate task j)
  | .loadInsert task =>
    let nj := s.insertJob (newBQLoadJob task.table none)
    some (s.insertBQJob (newBQLoadJob task.table none), .submitStart nj (.load { task with job := some nj }))
  | .loadUpdate task j => some (s.updateBQJob j, .submitStart j (.load task))
  | .markError task msg => some (s.setImport task.table.id .error, .setError task.table msg .worker)
  | .putCheck t => some (s, if s.imports t.id = .error then .putDelete t else .putSave t)
  | .putDelete t => some (s.setImport t.id .none, .putSave t)
  | .putSave t => some (s.saveTable { t with error := "" }, .done)
  | .deleteSelect id =>
    match s.selectTable id with
    | some t => some (s, .deleteSave t)
    | none => some (s, .done)
  | .deleteSave t => some (s.saveTable { t with deletedAt := s.clock }, .done)
  | .runTableSelect id =>
    match s.selectTable id with
    | none => some (s, .done)
    | some t =>
      if t.isImport then some (s, .qiCheck ⟨t, none⟩ .handler)
      else if t.isExternal then some (s, .ewCheck t none .handler)
      else if t.running then some (s, .done)
      else some (s, .runTableInsert t)
  | .runTableInsert t =>
    some (s.insertBQJob (newBQQueryJob t none), .submitStart (s.insertJob (newBQQueryJob t none)) (.runTable t))
  | .runTableSetRunning t job => some ((s.saveTable { t with running := true }).spawn (.monitor job), .done)
  | .externalLoadSelect id =>
    match s.selectTable id with
    | some t => some (s, .externalLoadSave { t with error := "" })
    | none => some (s, .done)
  | .externalLoadSave t => some (s.saveTable t, .externalLoadCancel t)
  | .externalLoadCancel t =>
    match s.waits t.id with
    | some w =>
      let s := { s.setWait t.id none with closed := s.closed ++ [w.ch] }
      match w.job with
      | some j => some (s, .submitStart j .externalLoad)
      | none => some (s, .externalLoadInsert t)
    | none => some (s, .externalLoadInsert t)
  | .externalLoadInsert t =>
    some (s.insertBQJob (newBQLoadJob t none), .submitStart (s.insertJob (newBQLoadJob t none)) .externalLoad)

/-- HTTP の要求が始める goroutine。 -/
def Request.entry : Request → Pc
  | .put t => .putCheck t
  | .delete id => .deleteSelect id
  | .runTable id => .runTableSelect id
  | .externalLoad id => .externalLoadSelect id
  | .resume runId => .monitorRun { id := runId, ignoreErrors := true }

/-- 一歩。`Resume` は走りの記録の終わりと誤りを消してから `monitorRun` を始める。 -/
def step (s : Sys) : Event → Option Sys
  | .thread tid ch => do
    let pc ← s.threads[tid]?
    let (s', pc') ← threadStep s ch pc
    pure { s' with threads := s'.threads.set tid pc' }
  | .whEnd n st =>
    match s.wh[n]? with
    | some w =>
      if w.endTime.isNone ∧ st.state = "DONE" then
        some { s with wh := s.wh.set n { w with status := st, endTime := some s.clock } }
      else none
    | none => none
  | .tick d => some { s with clock := s.clock + d }
  | .request (.resume runId) =>
    (s.runs runId).map fun r =>
      { s with runs := Function.update s.runs runId (some { r with endTime := none, error := none }) }.spawn
        (Request.entry (.resume runId))
  | .request req => some (s.spawn req.entry)

/-- 列の一歩ずつを順に。 -/
def run (s : Sys) : List Event → Option Sys
  | [] => some s
  | e :: es => (step s e).bind (run · es)

/-- `s₀` から届く状態。 -/
inductive Reachable (s₀ : Sys) : Sys → Prop
  | init : Reachable s₀ s₀
  | step {s s' : Sys} {e : Event} : Reachable s₀ s → step s e = some s' → Reachable s₀ s'

theorem reachable_of_run {s₀ : Sys} : ∀ {s s' : Sys} {es : List Event},
    Reachable s₀ s → run s es = some s' → Reachable s₀ s'
  | _, _, [], hs, h => by cases h; exact hs
  | s, _, e :: es, hs, h => by
    simp only [run, Option.bind_eq_some] at h
    obtain ⟨s1, h1, h⟩ := h
    exact reachable_of_run (hs.step h1) h

/-- 列を最後まで進めて `p` が成り立てば、`p` の成り立つ届く状態がある。 -/
theorem reach_of_run {s₀ : Sys} {es : List Event} {p : Sys → Bool} (h : (run s₀ es).map p = some true) :
    ∃ s, Reachable s₀ s ∧ p s = true := by
  cases hr : run s₀ es with
  | none => simp [hr] at h
  | some s => exact ⟨s, reachable_of_run .init hr, by simpa [hr] using h⟩

/-- 列を進めた後の一歩 `e` の前後で `p` が成り立てば、その一歩は届く状態からの一歩である。 -/
theorem reach_step_of_run {s₀ : Sys} {es : List Event} {e : Event} {p : Sys → Sys → Bool}
    (h : (run s₀ es).bind (fun s => (step s e).map (p s)) = some true) :
    ∃ s s', Reachable s₀ s ∧ step s e = some s' ∧ p s s' = true := by
  obtain ⟨s, hr, h⟩ := Option.bind_eq_some.1 h
  obtain ⟨s', he, hp⟩ := Option.map_eq_some'.1 h
  exact ⟨s, s', reachable_of_run .init hr, he, hp⟩

/-- `RunningBQJobs` の WHERE 句 `bq_job_id != '' AND end_time IS NULL OR end_time < start_time`。`AND` が `OR`
より先に結ぶので、終わりの時刻が始めの時刻より前の行は、BigQuery の id がなくても、終わっていても選ばれる。
NULL との比べは真にならない。 -/
def runningBQJob (j : BQJob) : Bool :=
  (j.bqJobId != "" && j.endTime.isNone) ||
    match j.endTime, j.startTime with
    | some e, some st => decide (e < st)
    | _, _ => false

/-- BigQuery に出して終わっていない行は、`RunningBQJobs` が返す。 -/
theorem runningBQJob_of_unended {j : BQJob} (hb : j.bqJobId ≠ "") (he : j.endTime = none) : runningBQJob j = true := by
  simp [runningBQJob, hb, he]

/-- `Model.New` の後のプロセス：`monitorUnfinishedJobs` が `RunningBQJobs` の行ごとに、
`monitorUnfinishedRuns` が終わっていない走りごとに goroutine を起こし、import の worker が六つある。 -/
def startup (tables : Nat → Option Table) (jobs : List BQJob) (runs : List Run) (wh : List WhJob)
    (clock : Nat) : Sys where
  tables := tables
  jobs := jobs
  runs := fun id => runs.find? (·.id = id)
  wh := wh
  imports := fun _ => .none
  queue := []
  waits := fun _ => none
  closed := []
  nextCh := 0
  clock := clock
  expired := []
  resubmitted := []
  threads :=
    (jobs.filter runningBQJob).map .monitor ++
    (runs.filter (·.endTime = none)).map (fun r => .monitorRun { id := r.id }) ++
    List.replicate 6 .worker

/-- id で引く表の map：起動の時のカタログの表を、行の並びから作る。 -/
def tablesOf (ts : List Table) : Nat → Option Table := fun id => ts.find? (·.id = id)

end Maestro.System
