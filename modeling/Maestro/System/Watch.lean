import Maestro.System.Lemmas.Events

/-!
# 終わっていない仕事を見る goroutine

起動の後に届くどの状態でも、BigQuery に出して終わっていない仕事の行には、その行の id と BigQuery の id を
見る goroutine があるか、その行は `resubmit` が状態を消したものである（`unended_job_watched`）。
`monitorJob` は `resubmit` の後に戻るので、出し直した BigQuery の仕事を見る goroutine はない
（`resubmit_leaves_job_unwatched`）。
-/

namespace Maestro.System

open Go Model

variable {s s' : Sys}

/-- 仕事の監視の不変条件：BigQuery に出して終わっていない仕事の行には、その行の id と BigQuery の id を見る
goroutine があるか、その行は `resubmit` が状態を消したものである。 -/
structure WatchInv (s : Sys) : Prop where
  fresh : ∀ pc ∈ s.threads, pc.Fresh s.resubmitted
  queue : ∀ task ∈ s.queue, task.fresh
  watched : ∀ j ∈ s.jobs, j.bqJobId ≠ "" → j.endTime = none →
    (∃ pc ∈ s.threads, pc.watching = some (j.id, j.bqJobId)) ∨ j.id ∈ s.resubmitted

/-- 起動の `monitorUnfinishedJobs` が、`RunningBQJobs` の行のそれぞれに `monitorJob` を起こす。 -/
theorem watchInv_startup (tables : Nat → Option Table) (jobs : List BQJob) (runs : List Run)
    (wh : List WhJob) (clock : Nat) : WatchInv (startup tables jobs runs wh clock) where
  fresh pc hpc := by
    simp only [startup, List.mem_append, List.mem_map, List.mem_replicate] at hpc
    rcases hpc with (⟨j, -, rfl⟩ | ⟨r, -, rfl⟩) | ⟨-, rfl⟩ <;> trivial
  queue := by simp [startup]
  watched j hj hb he := .inl ⟨.monitor j,
    List.mem_append_left _ (List.mem_append_left _
      (List.mem_map_of_mem _ (List.mem_filter.2 ⟨hj, runningBQJob_of_unended hb he⟩))), rfl⟩

/-- 行を見ている goroutine は、一歩の後も残るか、その行を、終わったものか出し直しを始めたものとして書く。 -/
theorem watcher_thread_step {tid : Nat} {pc pc' : Pc} {s'' : Sys} {ch : Choice} (hpc : s.threads[tid]? = some pc)
    (h1 : threadStep s ch pc = some (s'', pc')) (hf : pc.Fresh s.resubmitted) {w : Nat × String}
    (hw : ∃ x ∈ s.threads, x.watching = some w) :
    (∃ x ∈ s''.threads.set tid pc', x.watching = some w) ∨
      ∃ j, s''.jobs = (s.updateBQJob j).jobs ∧ j.id = w.1 ∧ (j.endTime.isSome ∨ j.id ∈ s''.resubmitted) := by
  obtain ⟨x, hx, hxw⟩ := hw
  obtain ⟨new, hnew, -⟩ := threadStep_spawned h1
  have hlt : tid < s.threads.length := (List.getElem?_eq_some_iff.1 hpc).1
  by_cases hne : pc = x
  · subst hne
    rcases threadStep_watching h1 hf hxw with hw' | ⟨y, hy, hyw⟩ | hw'
    · exact .inl ⟨pc', List.mem_set _ _ (by rw [hnew, List.length_append]; omega) _, hw'⟩
    · exact .inl ⟨y, by rw [hy]; exact mem_set_append_right hlt (List.mem_singleton_self _), hyw⟩
    · exact .inr hw'
  · exact .inl ⟨x, hnew ▸ mem_set_of_ne (List.mem_append_left _ hx) hpc hne, hxw⟩

theorem WatchInv.thread_step (hi : WatchInv s) {tid : Nat} {ch : Choice}
    (h : step s (.thread tid ch) = some s') : WatchInv s' := by
  obtain ⟨pc, s'', pc', hpc, h1, rfl⟩ := step_thread h
  obtain ⟨new, hnew, hfnew⟩ := threadStep_spawned h1
  have hlt : tid < s.threads.length := (List.getElem?_eq_some_iff.1 hpc).1
  have hf := hi.fresh pc (List.mem_iff_getElem?.2 ⟨tid, hpc⟩)
  have hr := threadStep_resubmitted h1
  obtain ⟨hf', hq'⟩ := threadStep_fresh h1 hf hi.queue
  -- 前からある行は、一歩の後も見られているか、出し直しを始めたものである
  have hold : ∀ j ∈ s.jobs, j ∈ s''.jobs → j.bqJobId ≠ "" → j.endTime = none →
      (∃ x ∈ s''.threads.set tid pc', x.watching = some (j.id, j.bqJobId)) ∨ j.id ∈ s''.resubmitted := by
    intro j hj hj' hb he
    rcases hi.watched j hj hb he with hw | hres
    · rcases watcher_thread_step hpc h1 hf hw with hw' | ⟨k, hk, hid, hend⟩
      · exact .inl hw'
      · rcases mem_updateBQJob (hk ▸ hj') with rfl | ⟨-, hne⟩
        · exact hend.elim (fun h => by simp [he] at h) .inr
        · exact absurd hid.symm hne
    · exact .inr (hr hres)
  refine ⟨fun x (hx : x ∈ s''.threads.set tid pc') => ?_, hq', fun j (hj : j ∈ s''.jobs) hb he => ?_⟩
  · rcases List.mem_or_eq_of_mem_set hx with hx | rfl
    · rcases List.mem_append.1 (hnew ▸ hx) with hx | hx
      · exact (hi.fresh x hx).mono hr
      · exact hfnew x hx _
    · exact hf'
  · rcases threadStep_jobs h1 hf with hjobs | ⟨k, hk, hjobs⟩ | ⟨k, hjobs, hw⟩
    · exact hold j (hjobs ▸ hj) hj hb he
    · rcases List.mem_append.1 (hjobs ▸ hj : j ∈ (s.insertBQJob k).jobs) with hj' | hj'
      · exact hold j hj' hj hb he
      · exact absurd (List.mem_singleton.1 hj' ▸ hk) hb
    · rcases mem_updateBQJob (hjobs ▸ hj) with rfl | ⟨hj', -⟩
      · rcases hw with hk | hk | hk | hk | ⟨y, hy, hyw⟩
        · exact absurd hk hb
        · simp [he] at hk
        · exact .inr hk
        · exact .inl ⟨pc', List.mem_set _ _ (by rw [hnew, List.length_append]; omega) _, hk⟩
        · exact .inl ⟨y, by rw [hy]; exact mem_set_append_right hlt (List.mem_singleton_self _), hyw⟩
      · exact hold j hj' hj hb he

theorem WatchInv.step (hi : WatchInv s) {e : Event} (h : step s e = some s') : WatchInv s' := by
  by_cases he : ∃ tid ch, e = .thread tid ch
  · obtain ⟨tid, ch, rfl⟩ := he
    exact hi.thread_step h
  · push_neg at he
    obtain ⟨-, -, -, -, -, hjobs, hq, hr, new, hthr, hnew⟩ := step_other h he
    refine ⟨fun x hx => ?_, hq ▸ hi.queue, fun j hj hb hend => ?_⟩
    · rcases List.mem_append.1 (hthr ▸ hx) with hx | hx
      · exact hr ▸ hi.fresh x hx
      · exact (hnew x hx).2
    · rcases hi.watched j (hjobs ▸ hj) hb hend with ⟨x, hx, hxw⟩ | hres
      · exact .inl ⟨x, hthr ▸ List.mem_append_left _ hx, hxw⟩
      · exact .inr (hr ▸ hres)

theorem WatchInv.reachable {tables : Nat → Option Table} {jobs : List BQJob} {runs : List Run}
    {wh : List WhJob} {clock : Nat} (h : Reachable (startup tables jobs runs wh clock) s) : WatchInv s := by
  induction h with
  | init => exact watchInv_startup tables jobs runs wh clock
  | step _ hst ih => exact ih.step hst

/-- 要約の表。 -/
def daily : Table := { id := 1, name := "daily", dataset := "rep", query := "SELECT 1" }

def runTableStart : Sys := startup (tablesOf [daily]) [] [] [] 1

/-- 出し直せば通る誤りで終わった状態。 -/
def retryingStatus : JobStatus :=
  { state := "DONE", errorResult := some "Backend error. Retrying may solve the problem." }

/-- 表を走らせ（`runBQTable`）、その仕事が出し直せば通る誤りで終わり、監視の goroutine 7 が出し直す。 -/
def resubmitOnce : List Event :=
  [.request (.runTable 1), .thread 6 .ok, .thread 6 .ok, .thread 6 .ok, .thread 6 .ok, .thread 6 .ok,
   .whEnd 0 retryingStatus, .thread 7 .ok, .thread 7 .ok, .thread 7 .ok, .thread 7 .ok]

/-- `monitorJob` が見ている BigQuery の id。 -/
def Pc.monitored : Pc → Option String
  | .monitor job => some job.bqJobId
  | _ => none

/-- 出し直した仕事には新しい BigQuery の id があり、終わっていないのに、それを見る `monitorJob` はない。 -/
theorem resubmit_leaves_job_unwatched :
    ∃ s, Reachable runTableStart s ∧ ∃ j ∈ s.jobs, j.bqJobId ≠ "" ∧ j.endTime = none ∧
      ∀ pc ∈ s.threads, pc.monitored ≠ some j.bqJobId := by
  obtain ⟨s, hs, hp⟩ := @reach_of_run runTableStart resubmitOnce
    (fun s => s.jobs.any fun j => j.bqJobId != "" && j.endTime == none &&
      s.threads.all fun pc => pc.monitored != some j.bqJobId) (by decide)
  simp only [List.any_eq_true, Bool.and_eq_true, bne_iff_ne, ne_eq, beq_iff_eq, List.all_eq_true] at hp
  obtain ⟨j, hj, ⟨h1, h2⟩, h3⟩ := hp
  exact ⟨s, hs, j, hj, h1, h2, h3⟩

end Maestro.System
