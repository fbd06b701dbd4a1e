import Maestro.System.Watch
import Maestro.System.ImportJob
import Maestro.Model.Cycle

/-!
# 走り（`monitorRun`、`processCycle`）

起動の後に届くどの状態でも、走りの goroutine が仕事を出す（`submitJob`、`queueImport`、`startExternalWait`）
のは、同じ goroutine が前に `processCycle` の始めにいた状態で読んだカタログの `ReadyItems` の仕事であり、
許しのない走りなら、そのカタログで親の表の走りの仕事がみな片付いていた。走りを終えるのは、読んだカタログで
走りの仕事がみな片付いているときだけである（`run_submits_only_settled`）。

片付いたとみなすのは、誤りなく DONE の仕事と、スキーマの不一致の誤りの仕事である。後者は、再 import が同じ
走りに新しい load の仕事を入れることを見込む。しかし表に前の誤りの文があると `processJobDone` は再 import
せず、`processCycle` の load の枝は表の誤りを消さないので、子の仕事が、誤りで終わった親の後に出る
（`run_submits_after_schema_mismatch`）。

走りの goroutine は一つとは限らず（`Resume`、`runBQTable`）、許しは起こし直すと失われ、すぐに終わった
出し直しの誤りはカタログに残り、消した表の仕事は nil の表を引く。それぞれを、起動からの列で確かめる。
-/

namespace Maestro.System

open Go Model

variable {s s' : Sys}

/-! ## 走りの goroutine が持つ仕事 -/

/-- 走りの goroutine が持つ仕事は、前に届いた状態 `s₁` で、同じ番号の goroutine が `processCycle` の始めに
いて読んだカタログの `ReadyItems` の仕事である。 -/
def RunInv (s₀ s : Sys) : Prop :=
  ∀ (tid : Nat) (pc : Pc), s.threads[tid]? = some pc → ∀ r L, pc.runItems = some (r, L) →
    ∃ s₁ L₀, Reachable s₀ s₁ ∧ Reachable s₁ s ∧ s₁.threads[tid]? = some (.cycle r) ∧
      processCyclePlan r (s₁.jobsOfRun r.id) = some (.items L₀) ∧ ∀ j ∈ L, j ∈ L₀

/-- 一歩が加える goroutine は走りの仕事を持たない。 -/
theorem threadStep_new_runItems {ch : Choice} {pc pc' : Pc} (h : threadStep s ch pc = some (s', pc')) :
    ∃ new, s'.threads = s.threads ++ new ∧ ∀ y ∈ new, y.runItems = none := by
  rcases threadStep_threads h with ht | ⟨y, ht, hy⟩
  · exact ⟨[], by rw [ht, List.append_nil], List.forall_mem_nil _⟩
  · refine ⟨[y], ht, List.forall_mem_singleton.2 ?_⟩
    rcases hy with ⟨job, rfl⟩ | ⟨t, job, k, -, rfl⟩ <;> rfl

theorem RunInv.step {s₀ : Sys} (hs : Reachable s₀ s) (hi : RunInv s₀ s) {e : Event}
    (h : step s e = some s') : RunInv s₀ s' := by
  -- 前からいる goroutine の読んだ状態は、一歩の後の状態にも届く
  have hold : ∀ (i : Nat) (x : Pc), s.threads[i]? = some x → ∀ r L, x.runItems = some (r, L) →
      ∃ s₁ L₀, Reachable s₀ s₁ ∧ Reachable s₁ s' ∧ s₁.threads[i]? = some (.cycle r) ∧
        processCyclePlan r (s₁.jobsOfRun r.id) = some (.items L₀) ∧ ∀ j ∈ L, j ∈ L₀ := by
    intro i x hx r L hL
    obtain ⟨s₁, L₀, h₀, h₁, hc, hp, hsub⟩ := hi i x hx r L hL
    exact ⟨s₁, L₀, h₀, h₁.step h, hc, hp, hsub⟩
  by_cases he : ∃ tid ch, e = .thread tid ch
  · obtain ⟨tid, ch, rfl⟩ := he
    obtain ⟨pc, s'', pc', hpc, h1, rfl⟩ := step_thread h
    obtain ⟨new, hnew, hnone⟩ := threadStep_new_runItems h1
    intro i x hx r L hL
    have hx : ((s.threads ++ new).set tid pc')[i]? = some x := by rw [← hnew]; exact hx
    rcases getElem?_set_append (List.getElem?_eq_some_iff.1 hpc).1 hx with ⟨rfl, rfl⟩ | hx | hx
    · -- 進んだ goroutine：前の仕事の一部か、いま読んだカタログの仕事
      rcases threadStep_runItems h1 hL with ⟨L₁, h₁, hsub⟩ | ⟨rfl, hplan⟩
      · obtain ⟨s₁, L₀, h₀, h₁', hc, hp, hsub₀⟩ := hold i pc hpc r L₁ h₁
        exact ⟨s₁, L₀, h₀, h₁', hc, hp, fun j hj => hsub₀ j (hsub j hj)⟩
      · exact ⟨s, L, hs, .step .init h, hpc, hplan, fun _ hj => hj⟩
    · exact hold i x hx r L hL
    · rw [hnone x hx] at hL
      cases hL
  · push_neg at he
    obtain ⟨-, -, -, -, -, -, -, -, new, hthr, hnew⟩ := step_other h he
    intro i x hx r L hL
    rw [hthr] at hx
    rcases getElem?_append_cases hx with hx | hx
    · exact hold i x hx r L hL
    · rw [(hnew x hx).1] at hL
      cases hL

theorem RunInv.reachable {s₀ : Sys} (h₀ : ∀ pc ∈ s₀.threads, pc.runItems = none) (h : Reachable s₀ s) :
    RunInv s₀ s := by
  induction h with
  | init =>
    intro i pc hpc r L hL
    rw [h₀ pc (List.mem_iff_getElem?.2 ⟨i, hpc⟩)] at hL
    cases hL
  | step hs hst ih => exact ih.step hs hst

theorem startup_runItems (tables : Nat → Option Table) (jobs : List BQJob) (runs : List Run)
    (wh : List WhJob) (clock : Nat) : ∀ pc ∈ (startup tables jobs runs wh clock).threads, pc.runItems = none := by
  intro pc hpc
  simp only [startup, List.mem_append, List.mem_map, List.mem_replicate] at hpc
  rcases hpc with (⟨j, -, rfl⟩ | ⟨r, -, rfl⟩) | ⟨-, rfl⟩ <;> rfl

theorem cycle_done {r : RunMem} {ch : Choice} (h : threadStep s ch (.cycle r) = some (s', .done)) :
    processCyclePlan r (s.jobsOfRun r.id) = some .finish := by
  simp only [threadStep] at h
  split at h <;> first | assumption | cases h


/-- 許しのない走りの goroutine が仕事を出すのは、同じ goroutine が前に `processCycle` の始めにいた届く状態
`s₁`（いまの状態は `s₁` から届く）で読んだカタログの `ReadyItems` の仕事であり、そのカタログで、その仕事の親の
表の走りの仕事がみな片付いていた（誤りなく DONE か、スキーマの不一致の誤りがある）ときだけである。走りを
終えるのは、読んだカタログで走りの仕事がみな片付いているときだけである。 -/
theorem run_submits_only_settled {tables : Nat → Option Table} {jobs : List BQJob} {runs : List Run}
    {wh : List WhJob} {clock : Nat} (h : Reachable (startup tables jobs runs wh clock) s) :
    (∀ (tid : Nat) (pc : Pc), s.threads[tid]? = some pc → ∀ r j, pc.submits = some (r, j) → r.maxErrCnt = 0 →
      ∃ s₁, Reachable (startup tables jobs runs wh clock) s₁ ∧ Reachable s₁ s ∧
        s₁.threads[tid]? = some (.cycle r) ∧
        (∃ L₀, processCyclePlan r (s₁.jobsOfRun r.id) = some (.items L₀) ∧ j ∈ L₀) ∧
        ∀ p ∈ j.parents, ∀ k ∈ s₁.jobsOfRun r.id, k.tableId = p → Settled k) ∧
    (∀ r ch s', r.maxErrCnt = 0 → threadStep s ch (.cycle r) = some (s', .done) →
      ∀ k ∈ s.jobsOfRun r.id, Settled k) := by
  constructor
  · intro tid pc hpc r j hsub hr
    obtain ⟨L, hL, hj⟩ := Pc.runItems_of_submits hsub
    obtain ⟨s₁, L₀, hs₁, h₁, hc, hplan, hLL₀⟩ :=
      RunInv.reachable (startup_runItems tables jobs runs wh clock) h tid pc hpc r L hL
    exact ⟨s₁, hs₁, h₁, hc, ⟨L₀, hplan, hLL₀ j hj⟩, (processCyclePlan_settled r _ hr).1 L₀ hplan j (hLL₀ j hj)⟩
  · intro r ch s' hr hstep
    exact (processCyclePlan_settled r _ hr).2 (cycle_done hstep)

/-- それを読む要約の表。 -/
def report : Table := { id := 2, name := "report", dataset := "rep", query := "SELECT * FROM [app.users]" }

def usersLoad : BQJob := { id := 1, tableId := 1, runId := some 1, type := .load }

def reportQuery : BQJob := { id := 2, tableId := 2, runId := some 1, parents := [1], type := .query }

/-- 走り 1 の親の load の仕事は誤りなく DONE で、子の要約の仕事はまだ出していない。 -/
def parentDoneStart : Sys :=
  startup (tablesOf [users, report])
    [{ usersLoad with bqJobId := "1", status := some { state := "DONE" }, startTime := some 1, endTime := some 2 },
      reportQuery] [{ id := 1 }] [] 3

theorem run_submits_only_settled_report :
    ∃ s, Reachable parentDoneStart s ∧ s.threads[0]?.bind Pc.submits = some ({ id := 1 }, reportQuery) ∧
      (∀ (tid : Nat) (pc : Pc), s.threads[tid]? = some pc → ∀ r j, pc.submits = some (r, j) → r.maxErrCnt = 0 →
        ∃ s₁, Reachable parentDoneStart s₁ ∧ Reachable s₁ s ∧ s₁.threads[tid]? = some (.cycle r) ∧
          (∃ L₀, processCyclePlan r (s₁.jobsOfRun r.id) = some (.items L₀) ∧ j ∈ L₀) ∧
          ∀ p ∈ j.parents, ∀ k ∈ s₁.jobsOfRun r.id, k.tableId = p → Settled k) ∧
      (∀ r ch s', r.maxErrCnt = 0 → threadStep s ch (.cycle r) = some (s', .done) →
        ∀ k ∈ s.jobsOfRun r.id, Settled k) := by
  obtain ⟨s, hs, hp⟩ := @reach_of_run parentDoneStart (List.replicate 4 (.thread 0 .ok))
    (fun s => s.threads[0]?.bind Pc.submits == some ({ id := 1 }, reportQuery)) (by decide)
  exact ⟨s, hs, by simpa using hp, run_submits_only_settled hs⟩

/-! ## スキーマの不一致の後の子 -/

/-- 前の誤りの文がある import の表。 -/
def usersFailed : Table := { users with error := "connection refused" }

def schemaStart : Sys := startup (tablesOf [usersFailed, report]) [usersLoad, reportQuery] [{ id := 1 }] [] 1

/-- スキーマの不一致で終わった状態。 -/
def schemaMismatchStatus : JobStatus :=
  { state := "DONE", errorResult := some "Provided Schema does not match Table app.users" }

/-- 走りが親の import を順番待ちに入れ、worker 1 が load を出し、それがスキーマの不一致で終わる。表にもう誤りの文が
あるので、監視の goroutine 7 は import をやり直さずに誤りを書く。走りの次の一回りは、子の仕事を出すところへ進む。 -/
def schemaMismatchRun : List Event :=
  [.thread 0 .ok, .thread 0 .ok, .thread 0 .ok, .thread 0 .ok, .thread 0 .ok, .thread 0 .ok, .thread 0 .ok,
   .thread 0 .ok,
   .thread 1 .ok, .thread 1 .ok, .thread 1 .ok, .thread 1 .ok, .thread 1 .ok, .thread 1 .ok, .thread 1 .ok,
   .thread 1 .ok, .thread 1 .ok, .thread 1 .ok,
   .whEnd 0 schemaMismatchStatus, .thread 7 .ok, .thread 7 .ok, .thread 7 .ok, .thread 7 .ok, .thread 7 .ok,
   .thread 0 .ok, .thread 0 .ok, .thread 0 .ok, .thread 0 .ok]

/-- 走りの goroutine 0 が子の仕事 2 を `StartJob` する一歩：その時のカタログで、親の表の走りの仕事はただ一つで、
スキーマの不一致の誤りで DONE である。 -/
theorem run_submits_after_schema_mismatch :
    ∃ s s', Reachable schemaStart s ∧ s.threads[0]?.bind Pc.submits = some ({ id := 1 }, reportQuery) ∧
      ((s.jobsOfRun 1).filter (·.tableId ∈ reportQuery.parents)).map (fun j => (j.state, j.error)) =
        [("DONE", "Provided Schema does not match Table app.users")] ∧
      step s (.thread 0 .ok) = some s' ∧ ∃ w ∈ s'.wh, w.jobId = reportQuery.id := by
  obtain ⟨s, s', hs, hst, hp⟩ := @reach_step_of_run schemaStart schemaMismatchRun (.thread 0 .ok)
    (fun s s' => s.threads[0]?.bind Pc.submits == some ({ id := 1 }, reportQuery) &&
      ((s.jobsOfRun 1).filter (·.tableId ∈ reportQuery.parents)).map (fun j => (j.state, j.error)) ==
        [("DONE", "Provided Schema does not match Table app.users")] &&
      s'.wh.any (·.jobId == reportQuery.id)) (by decide)
  simp only [Bool.and_eq_true, beq_iff_eq, List.any_eq_true] at hp
  exact ⟨s, s', hs, hp.1.1, hp.1.2, hst, hp.2⟩

/-! ## 再開と起こし直し -/

/-- 仕事がみな DONE で、数えた誤りがある走りでは、`Resume` が始めた `monitorRun`（許しは誤りの数）の一回りは
走りを終えるが、起こし直した後に `monitorUnfinishedRuns` が始めた `monitorRun`（許しは `0`）の一回りは終えない。 -/
theorem restart_forgets_allowance (s : Sys) (id : Nat) (ch : Choice)
    (hdone : ∀ j ∈ s.jobsOfRun id, j.state = "DONE") (herr : 0 < countErrors (s.jobsOfRun id)) :
    (∃ r, threadStep s ch (.monitorRun { id := id, ignoreErrors := true }) = some (s, .cycle r) ∧
      threadStep s ch (.cycle r) = some (s.updateRun id none, .done)) ∧
    ∃ r, threadStep s ch (.monitorRun { id := id }) = some (s, .cycle r) ∧
      ∀ s', threadStep s ch (.cycle r) ≠ some (s', .done) := by
  obtain ⟨hfin, -⟩ := processCyclePlan_restart { id := id, ignoreErrors := true } _ hdone herr
  obtain ⟨-, hnot⟩ := processCyclePlan_restart { id := id } _ hdone herr
  refine ⟨⟨{ id := id, ignoreErrors := true, maxErrCnt := countErrors (s.jobsOfRun id) }, rfl, ?_⟩,
    { id := id }, rfl, fun s' h => hnot (cycle_done h)⟩
  simp only [threadStep]
  rw [hfin]

/-- 誤りで終わった、走り 7 の仕事。 -/
def failedQuery : BQJob :=
  { id := 20, tableId := 3, runId := some 7, type := .query, bqJobId := "job_3",
    status := some { state := "DONE", errorResult := some "Syntax error" }, endTime := some 9 }

/-- 走り 7 が誤りで終わった後に起こし直したプロセス。 -/
def failedStart : Sys := startup (tablesOf []) [failedQuery] [{ id := 7 }] [] 10

theorem restart_forgets_allowance_failed :
    (∀ j ∈ failedStart.jobsOfRun 7, j.state = "DONE") ∧ 0 < countErrors (failedStart.jobsOfRun 7) ∧
    (∃ r, threadStep failedStart .ok (.monitorRun { id := 7, ignoreErrors := true }) = some (failedStart, .cycle r) ∧
      threadStep failedStart .ok (.cycle r) = some (failedStart.updateRun 7 none, .done)) ∧
    ∃ r, threadStep failedStart .ok (.monitorRun { id := 7 }) = some (failedStart, .cycle r) ∧
      ∀ s', threadStep failedStart .ok (.cycle r) ≠ some (s', .done) :=
  ⟨by decide, by decide, restart_forgets_allowance failedStart 7 .ok (by decide) (by decide)⟩


/-! ## 走りの中の仕事を二度出す -/

/-- 走り 1 の、まだ出していない要約の仕事。 -/
def dailyJob : BQJob := { id := 1, tableId := 1, runId := some 1, type := .query }

def runStart : Sys := startup (tablesOf [daily]) [dailyJob] [{ id := 1 }] [] 1

/-- 走りの goroutine 0 が回っている間に走りを再開し（`Resume`）、二つの `processCycle` が同じ仕事を読んで出す。 -/
def resumeWhileRunning : List Event :=
  [.thread 0 .ok, .request (.resume 1), .thread 7 .ok, .thread 0 .ok, .thread 7 .ok, .thread 0 .ok,
   .thread 7 .ok, .thread 0 .ok, .thread 7 .ok, .thread 0 .ok, .thread 7 .ok]

/-- カタログの仕事 1 が二度 `StartJob` され、どちらの BigQuery の仕事も終わっていない（出し直しでない）。 -/
theorem resume_submits_job_twice :
    ∃ s, Reachable runStart s ∧ 2 ≤ (s.wh.filter (·.jobId = 1)).length ∧ ∀ w ∈ s.wh, w.endTime = none := by
  obtain ⟨s, hs, hp⟩ := @reach_of_run runStart resumeWhileRunning
    (fun s => 2 ≤ (s.wh.filter (·.jobId = 1)).length && s.wh.all (·.endTime == none)) (by decide)
  simp only [Bool.and_eq_true, decide_eq_true_eq, List.all_eq_true, beq_iff_eq] at hp
  exact ⟨s, hs, hp⟩

/-- BigQuery の仕事を出したカタログの仕事の表。 -/
def Sys.whTable (s : Sys) (w : WhJob) : Option Nat := (s.jobs.find? (·.id = w.jobId)).map (·.tableId)

/-- 走り 1 が回っている間に、利用者が同じ表を走らせる（`runBQTable`）。 -/
def runTableDuringRun : List Event :=
  [.request (.runTable 1), .thread 7 .ok, .thread 7 .ok, .thread 7 .ok, .thread 7 .ok,
   .thread 0 .ok, .thread 0 .ok, .thread 0 .ok, .thread 0 .ok, .thread 0 .ok]

/-- 表 1 を書く BigQuery の仕事が二つ、同時に終わらずにある：`runBQTable` の仕事と、`t.Running` を見ない
`processCycle` の仕事。 -/
theorem table_submitted_twice :
    ∃ s, Reachable runStart s ∧ 2 ≤ (s.wh.filter fun w => w.endTime = none ∧ s.whTable w = some 1).length := by
  obtain ⟨s, hs, hp⟩ := @reach_of_run runStart runTableDuringRun
    (fun s => 2 ≤ (s.wh.filter fun w => w.endTime = none ∧ s.whTable w = some 1).length) (by decide)
  exact ⟨s, hs, by simpa using hp⟩

/-! ## すぐに終わった仕事 -/

/-- 走りの goroutine 0 が要約の仕事を出し、`StartJob` がすぐに、出し直せば通る誤りで終わった仕事を返す。
`submitJob` がそれを書き、監視の goroutine が出し直す前に、goroutine 0 が次の `processCycle` を回す。 -/
def startedRetrying : List Event :=
  [.thread 0 .ok, .thread 0 .ok, .thread 0 .ok, .thread 0 .ok, .thread 0 (.started retryingStatus),
   .thread 0 .ok, .thread 0 .ok, .thread 0 .ok, .thread 0 .ok, .thread 0 .ok]

/-- カタログの仕事が、出し直せば通る誤りの DONE の状態を持ち、`countErrors` はその誤りを数え、走りはその誤りで
失敗する。 -/
theorem started_retrying_fails_run :
    ∃ s, Reachable runStart s ∧ (∃ j ∈ s.jobs, j.state = "DONE" ∧ contains j.error bqRetryingErr = true) ∧
      countErrors (s.jobsOfRun 1) = 1 ∧
      ∃ e, (s.runs 1).bind (·.error) = some e ∧ contains e bqRetryingErr = true := by
  obtain ⟨s, hs, hp⟩ := @reach_of_run runStart startedRetrying
    (fun s => s.jobs.any (fun j => j.state == "DONE" && contains j.error bqRetryingErr) &&
      countErrors (s.jobsOfRun 1) == 1 &&
      ((s.runs 1).bind (·.error)).map (contains · bqRetryingErr) == some true) (by decide)
  simp only [Bool.and_eq_true, List.any_eq_true, beq_iff_eq] at hp
  obtain ⟨⟨⟨j, hj, hdone, hret⟩, hcount⟩, hrun⟩ := hp
  obtain ⟨e, he, hc⟩ := Option.map_eq_some'.1 hrun
  exact ⟨s, hs, ⟨j, hj, hdone, hret⟩, hcount, e, he, hc⟩

/-! ## 消した表の仕事 -/

/-- `processCycle` の次の一歩が nil の表を使う：要約の仕事の表、または import の状態が `ImpNone` の load の仕事の
表を、`SelectTable` が返さない（消した表）。 -/
def Pc.derefsDeleted (s : Sys) : Pc → Bool
  | .item _ (j :: _) => j.error = "" ∧ j.bqJobId = "" ∧ j.type ≠ .load ∧ (s.selectTable j.tableId).isNone
  | .loadSelect _ j _ => (s.selectTable j.tableId).isNone
  | _ => false

/-- nil の表を使う一歩は、プロセスを落とす：モデルではその goroutine が進めない。 -/
theorem threadStep_of_derefsDeleted {s : Sys} {pc : Pc} (h : pc.derefsDeleted s = true) (ch : Choice) :
    threadStep s ch pc = none := by
  unfold Pc.derefsDeleted at h
  split at h
  · simp only [decide_eq_true_eq, Bool.and_eq_true, Option.isNone_iff_eq_none] at h
    obtain ⟨he, hb, ht, hsel⟩ := h
    show itemStep s _ _ _ = none
    unfold itemStep
    rw [if_neg (not_not.2 he), if_neg (not_not.2 hb), if_neg ht, hsel]
  · show (match s.selectTable _ with | some t => _ | none => none) = none
    rw [Option.isNone_iff_eq_none.1 h]
  · exact absurd h Bool.false_ne_true

/-- 走り 1 の要約の仕事が待っている間に、利用者がその表を消す（`tableDeleteHandler`）。 -/
def deleteBeforeCycle : List Event :=
  [.request (.delete 1), .thread 7 .ok, .thread 7 .ok, .thread 0 .ok, .thread 0 .ok]

/-- 起こし直したプロセス：走り 1 は終わっておらず、その要約の仕事の表 1 は消してある。 -/
def restartDeleted : Sys := startup (tablesOf [{ daily with deletedAt := 5 }]) [dailyJob] [{ id := 1 }] [] 10

/-- 走りの goroutine が、消した表の仕事を扱う一歩で nil の表を使い、プロセスが落ちる。起こし直すと、
`monitorUnfinishedRuns` が始めた走りの goroutine が、同じ一歩でまた落ちる。 -/
theorem processCycle_derefs_deleted_table :
    (∃ s pc, Reachable runStart s ∧ s.threads[0]? = some pc ∧ pc.derefsDeleted s = true ∧
      ∀ ch, threadStep s ch pc = none) ∧
    ∃ s pc, Reachable restartDeleted s ∧ s.threads[0]? = some pc ∧ pc.derefsDeleted s = true ∧
      ∀ ch, threadStep s ch pc = none := by
  obtain ⟨s, hs, hp⟩ := @reach_of_run runStart deleteBeforeCycle
    (fun s => (s.threads[0]?).map (·.derefsDeleted s) == some true) (by decide)
  obtain ⟨s', hs', hp'⟩ := @reach_of_run restartDeleted [.thread 0 .ok, .thread 0 .ok]
    (fun s => (s.threads[0]?).map (·.derefsDeleted s) == some true) (by decide)
  obtain ⟨pc, hpc, hd⟩ := Option.map_eq_some'.1 (beq_iff_eq.1 hp)
  obtain ⟨pc', hpc', hd'⟩ := Option.map_eq_some'.1 (beq_iff_eq.1 hp')
  exact ⟨⟨s, pc, hs, hpc, hd, threadStep_of_derefsDeleted hd⟩, s', pc', hs', hpc', hd',
    threadStep_of_derefsDeleted hd'⟩

end Maestro.System
