import Maestro.System.Lemmas.Frame

/-!
# 仕事の行と、それを見る goroutine

`BQJob` の行を書く一歩と、BigQuery の仕事を見ている goroutine を、プログラムカウンタごとに一度だけ調べる。
行を書くのは `InsertBQJob`（まだ出していない仕事）と `UpdateBQJob` だけで、`UpdateBQJob` が書く行は、
まだ出していないか、終わっているか、出し直しを始めたか、書いた goroutine か起こした goroutine がその行を
見ている。行を見ている goroutine がそれをやめるのは、その行を書くときだけである。
-/

namespace Maestro.System

open Go Model

variable {s s' : Sys} {pc pc' : Pc} {ch : Choice}

/-- goroutine が見ている仕事の行（行の id と BigQuery の id）：`monitorJob` と、終わりを見た後の
`processJobDone` の最初の一歩、`resubmit` の最初の一歩、`monitorJob` を起こす前の `setRunning`。 -/
def Pc.watching : Pc → Option (Nat × String)
  | .monitor job | .doneUpdate job | .resubmitClear job => some (job.id, job.bqJobId)
  | .runTableSetRunning _ job | .extractSetRunning _ job => some (job.id, job.bqJobId)
  | _ => none

/-- import の仕事が運ぶ走りの load の仕事は、まだ出していない。 -/
def ImportTask.fresh (task : ImportTask) : Prop := task.job.all (·.bqJobId = "") = true

/-- goroutine のローカルな値についての事実：走りの load の仕事はまだ出しておらず、`processJobDone` が書く
仕事は終わっており、出し直しの仕事は `resubmitted` にある。`setError` の後の値も同じである。 -/
def Pc.Fresh (resubmitted : List Nat) : Pc → Prop
  | .loadSelect _ j _ | .importSetRunning _ j _ _ | .loadUpdate _ j => j.bqJobId = ""
  | .qiCheck task _ | .qiSend task _ | .qiSet task _ | .importStatusRunning task | .importSaveRunning task
  | .importUpload task | .importSetLastId task | .importStatusDone task | .loadCheck task => task.fresh
  | .doneUpdate job => job.endTime.isSome
  | .submitStart job .resubmit | .submitUpdate job .resubmit => job.id ∈ resubmitted
  | .setError _ _ k => k.Fresh resubmitted
  | _ => True

theorem Pc.Fresh.mono {r r' : List Nat} (h : pc.Fresh r) (hr : r ⊆ r') : pc.Fresh r' := by
  induction pc <;> (try cases ‹SCont›) <;> first | exact hr h | exact h | exact ‹Pc.Fresh _ _ → Pc.Fresh _ _› h

/-- 一歩が加える goroutine（`monitorJob` か時計の goroutine）は、列の終わりに並び、ローカルな値の事実を持つ。 -/
theorem threadStep_spawned (h : threadStep s ch pc = some (s', pc')) :
    ∃ new, s'.threads = s.threads ++ new ∧ ∀ x ∈ new, ∀ r, x.Fresh r := by
  rcases threadStep_threads h with h | ⟨x, h, hx⟩
  · exact ⟨[], by simpa using h, List.forall_mem_nil _⟩
  · refine ⟨[x], h, List.forall_mem_singleton.2 fun r => ?_⟩
    rcases hx with ⟨job, rfl⟩ | ⟨t, job, k, -, rfl⟩ <;> trivial

/-! ## 行を書く一歩 -/

theorem mem_updateBQJob {j r : BQJob} (h : r ∈ (s.updateBQJob j).jobs) : r = j ∨ (r ∈ s.jobs ∧ r.id ≠ j.id) := by
  obtain ⟨r₀, hr₀, rfl⟩ := List.mem_map.1 h
  by_cases he : r₀.id = j.id
  · exact .inl (if_pos he)
  · exact .inr ⟨by rwa [if_neg he], by rwa [if_neg he]⟩

theorem SCont.ok_rows {k : SCont} {s₀ : Sys} {job : BQJob} (h : k.ok s₀ job = (s', pc')) :
    s'.jobs = s₀.jobs ∧ s'.resubmitted = s₀.resubmitted := by
  cases k <;> obtain ⟨rfl, rfl⟩ := Prod.mk.inj h <;> exact ⟨rfl, rfl⟩

/-- 一歩が出し直しの記録と仕事の行をどう変えるか。二つとも、プログラムカウンタの場合分け一度で調べる。 -/
theorem threadStep_rows (h : threadStep s ch pc = some (s', pc')) :
    s.resubmitted ⊆ s'.resubmitted ∧ (pc.Fresh s.resubmitted →
      s'.jobs = s.jobs ∨ (∃ j, j.bqJobId = "" ∧ s'.jobs = (s.insertBQJob j).jobs) ∨
      ∃ j, s'.jobs = (s.updateBQJob j).jobs ∧ (j.bqJobId = "" ∨ j.endTime.isSome ∨ j.id ∈ s'.resubmitted ∨
        pc'.watching = some (j.id, j.bqJobId) ∨
        ∃ x, s'.threads = s.threads ++ [x] ∧ x.watching = some (j.id, j.bqJobId))) := by
  cases pc
  case submitStart job k =>
    -- もう一回で通った後は、行を書かずに `k.ok` へ戻る
    simp only [threadStep] at h
    split at h <;> first
      | (obtain ⟨rfl, rfl⟩ := Prod.mk.inj (Option.some.inj h)
         exact ⟨List.Subset.refl _, fun _ => .inl rfl⟩)
      | (have h := SCont.ok_rows (Option.some.inj h)
         exact ⟨by rw [h.2]; exact List.Subset.refl _, fun _ => .inl h.1⟩)
      | cases h
  case submitUpdate job k =>
    cases k <;> obtain ⟨rfl, rfl⟩ := Prod.mk.inj (Option.some.inj h) <;>
      refine ⟨List.Subset.refl _, fun hpc => ?_⟩
    case resubmit => exact .inr (.inr ⟨job, rfl, .inr (.inr (.inl hpc))⟩)
    all_goals first
      | exact .inr (.inr ⟨job, rfl, .inr (.inr (.inr (.inl rfl)))⟩)
      | exact .inr (.inr ⟨job, rfl, .inr (.inr (.inr (.inr ⟨_, rfl, rfl⟩)))⟩)
  case resubmitClear job =>
    obtain ⟨rfl, rfl⟩ := Prod.mk.inj (Option.some.inj h)
    have hmem := List.mem_append_right s.resubmitted (List.mem_singleton_self job.id)
    exact ⟨List.subset_append_left _ _, fun _ => .inr (.inr ⟨_, rfl, .inr (.inr (.inl hmem))⟩)⟩
  case doneUpdate job =>
    obtain ⟨rfl, rfl⟩ := Prod.mk.inj (Option.some.inj h)
    exact ⟨List.Subset.refl _, fun hpc => .inr (.inr ⟨job, rfl, .inr (.inl hpc)⟩)⟩
  case loadUpdate task j =>
    obtain ⟨rfl, rfl⟩ := Prod.mk.inj (Option.some.inj h)
    exact ⟨List.Subset.refl _, fun hpc => .inr (.inr ⟨j, rfl, .inl hpc⟩)⟩
  all_goals simp only [threadStep, itemStep, doneBranch, postCompletionStep] at h
  all_goals (repeat' split at h) <;>
    first
    | (obtain ⟨rfl, rfl⟩ := Prod.mk.inj (Option.some.inj h)
       refine ⟨List.Subset.refl _, fun _ => ?_⟩
       first
       | exact .inl rfl
       | exact .inr (.inl ⟨_, rfl, rfl⟩))
    | cases h

theorem threadStep_resubmitted (h : threadStep s ch pc = some (s', pc')) : s.resubmitted ⊆ s'.resubmitted :=
  (threadStep_rows h).1

/-- 一歩が仕事の行を変えるところ。書く行は、まだ出していないか、終わっているか、出し直しを始めたか、
その行を見る goroutine がある。 -/
theorem threadStep_jobs (h : threadStep s ch pc = some (s', pc')) (hpc : pc.Fresh s.resubmitted) :
    s'.jobs = s.jobs ∨ (∃ j, j.bqJobId = "" ∧ s'.jobs = (s.insertBQJob j).jobs) ∨
    ∃ j, s'.jobs = (s.updateBQJob j).jobs ∧ (j.bqJobId = "" ∨ j.endTime.isSome ∨ j.id ∈ s'.resubmitted ∨
      pc'.watching = some (j.id, j.bqJobId) ∨
      ∃ x, s'.threads = s.threads ++ [x] ∧ x.watching = some (j.id, j.bqJobId)) :=
  (threadStep_rows h).2 hpc

/-- 行を見ている goroutine は、一歩の後も見ているか、見る goroutine を起こすか、その行を、終わったものか
出し直しを始めたものとして書く。 -/
theorem threadStep_watching (h : threadStep s ch pc = some (s', pc')) (hpc : pc.Fresh s.resubmitted)
    {w : Nat × String} (hw : pc.watching = some w) :
    pc'.watching = some w ∨ (∃ x, s'.threads = s.threads ++ [x] ∧ x.watching = some w) ∨
      ∃ j, s'.jobs = (s.updateBQJob j).jobs ∧ j.id = w.1 ∧ (j.endTime.isSome ∨ j.id ∈ s'.resubmitted) := by
  cases pc <;> cases hw
  case monitor job =>
    simp only [threadStep] at h
    split at h
    · split at h
      · split at h <;> obtain ⟨rfl, rfl⟩ := Prod.mk.inj (Option.some.inj h) <;> exact .inl rfl
      · cases h
    · cases h
  case doneUpdate job =>
    obtain ⟨rfl, rfl⟩ := Prod.mk.inj (Option.some.inj h)
    exact .inr (.inr ⟨job, rfl, rfl, .inl hpc⟩)
  case resubmitClear job =>
    obtain ⟨rfl, rfl⟩ := Prod.mk.inj (Option.some.inj h)
    exact .inr (.inr ⟨_, rfl, rfl, .inr (List.mem_append_right _ (List.mem_singleton_self _))⟩)
  all_goals obtain ⟨rfl, rfl⟩ := Prod.mk.inj (Option.some.inj h)
  all_goals exact .inr (.inl ⟨_, rfl, rfl⟩)

/-- 一歩の後のローカルな値と順番待ちの import の仕事。 -/
theorem threadStep_fresh (h : threadStep s ch pc = some (s', pc')) (hpc : pc.Fresh s.resubmitted)
    (hq : ∀ task ∈ s.queue, task.fresh) : pc'.Fresh s'.resubmitted ∧ ∀ task ∈ s'.queue, task.fresh := by
  cases pc <;> (try cases ‹QCont›) <;> (try cases ‹ECont›) <;> (try cases ‹SCont›)
  case resubmitClear job =>
    obtain ⟨rfl, rfl⟩ := Prod.mk.inj (Option.some.inj h)
    exact ⟨List.mem_append_right _ (List.mem_singleton_self _), hq⟩
  case worker =>
    simp only [threadStep] at h
    split at h
    · obtain ⟨rfl, rfl⟩ := Prod.mk.inj (Option.some.inj h)
      rename_i task rest hqueue
      rw [hqueue] at hq
      exact ⟨hq task (List.mem_cons_self _ _), fun t ht => hq t (List.mem_cons_of_mem _ ht)⟩
    · cases h
  all_goals simp only [threadStep, itemStep, doneBranch, postCompletionStep, SCont.ok, SCont.err, QCont.ret,
    ECont.ret] at h
  all_goals (repeat' split at h) <;>
    first
    | (obtain ⟨rfl, rfl⟩ := Prod.mk.inj (Option.some.inj h)
       first
       | exact ⟨trivial, hq⟩
       | exact ⟨hpc, hq⟩
       | exact ⟨decide_eq_true hpc, hq⟩
       | exact ⟨rfl, hq⟩
       | exact ⟨not_not.1 ‹¬(_ : String) ≠ _›, hq⟩
       | exact ⟨‹_›, hq⟩
       | exact ⟨by have hp : ImportTask.fresh _ := hpc; simpa [ImportTask.fresh, ‹(_ : Option BQJob) = some _›] using hp, hq⟩
       | exact ⟨hpc, fun t ht => (List.mem_append.1 ht).elim (hq t) fun h => List.mem_singleton.1 h ▸ hpc⟩)
    | cases h

end Maestro.System
