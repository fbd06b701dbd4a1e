import Maestro.Model.Lemmas.Run

/-!
# 走りの一回りの決定の定理

許しのない走り（`maxErrCnt = 0`）の `processCycle` は、親の表の仕事がみな片付いた（スキーマの不一致の
誤りがあるか、誤りなく DONE である）仕事だけを扱い、走りの仕事がみな片付いたときにだけ走りを終える。
片付いたことには、スキーマの不一致の誤りが含まれる。その誤りの後に import をやり直さない場合
（表にもう誤りの文があるとき）も、走りはその表を終わったものとして進む。

再開した走りの許しの数は、走りの記録の欄でなくメモリの中にだけある。プロセスを起こし直すと許しは `0` に
戻り、同じカタログの状態で、再開した走りが終える場面で、起こし直した走りは終えない。
-/

namespace Maestro.Model

open Go Scheduler

variable {r : RunMem} {jobs : List BQJob}

/-! ## `processCyclePlan` の形 -/

theorem processCyclePlan_finish (h : processCyclePlan r jobs = some .finish) :
    unfinishedById r.maxErrCnt 0 [] jobs = [] := by
  dsimp only [processCyclePlan] at h
  split at h
  · exact keys_graphFromJobsById_eq_nil.1 ‹_›
  · obtain ⟨⟨g', ready, err⟩, -, h⟩ := Option.map_eq_some'.1 h
    cases err <;> cases h

theorem processCyclePlan_of_nil (h : unfinishedById r.maxErrCnt 0 [] jobs = []) :
    processCyclePlan r jobs = some .finish := by
  simp only [processCyclePlan, h]
  rfl

theorem processCyclePlan_items {L : List BQJob} (h : processCyclePlan r jobs = some (.items L)) :
    ∃ g' ready, (graphFromJobsById (unfinishedById r.maxErrCnt 0 [] jobs)).readyItems =
      some (g', ready, none) ∧ L = ready.filterMap (itemOf (unfinishedById r.maxErrCnt 0 [] jobs)) := by
  dsimp only [processCyclePlan] at h
  split at h
  · cases h
  · obtain ⟨⟨g', ready, err⟩, hr, h⟩ := Option.map_eq_some'.1 h
    cases err with
    | none => exact ⟨g', ready, hr, (CycleStep.items.inj h).symm⟩
    | some e => cases h

/-! ## 許しのない走り -/

/-- 許しのない走りの一回りは、親の表の仕事がみな片付いた仕事だけを扱い、走りの仕事がみな片付いたときに
だけ走りを終える。 -/
theorem processCyclePlan_settled (r : RunMem) (jobs : List BQJob) (hr : r.maxErrCnt = 0) :
    (∀ L, processCyclePlan r jobs = some (.items L) →
      ∀ j ∈ L, ∀ p ∈ j.parents, ∀ k ∈ jobs, k.tableId = p → Settled k) ∧
    (processCyclePlan r jobs = some .finish → ∀ k ∈ jobs, Settled k) := by
  have hkey : ∀ t, (∃ j', (t, j') ∈ unfinishedById r.maxErrCnt 0 [] jobs) ↔
      ∃ j ∈ jobs, j.tableId = t ∧ ¬Settled j := fun t => by
    simp [hr, key_unfinishedById_zero]
  constructor
  · intro L h j hj p hp k hk hkp
    obtain ⟨g', ready, hready, rfl⟩ := processCyclePlan_items h
    obtain ⟨x, hx, hjx⟩ := List.mem_filterMap.1 hj
    obtain ⟨-, -, hnil⟩ := Graph.readyItems_sound hready hx
    obtain ⟨t, hmem, hname⟩ := itemOf_spec hjx
    by_contra hns
    have hp' := (hkey p).2 ⟨k, hk, hkp, hns⟩
    have : toString p ∈ ((graphFromJobsById _).get x).parents :=
      ((Graph.builtBy_build _).parents x _).2 (edge_relateCalls.2 ⟨(t, j), hmem, hname, p, hp, hp', rfl⟩)
    simp [hnil] at this
  · intro h k hk
    by_contra hns
    obtain ⟨j', hj'⟩ := (hkey k.tableId).2 ⟨k, hk, rfl, hns⟩
    simp [processCyclePlan_finish h] at hj'

/-! ## 再開と起こし直し -/

/-- 誤りの数が許しに収まれば、一回りは DONE でない仕事だけを待つ。 -/
theorem unfinishedById_eq_nil_of_le {k : Nat} (hk : countErrors jobs ≤ k)
    (hdone : ∀ j ∈ jobs, j.state = "DONE") : unfinishedById k 0 [] jobs = [] := by
  refine List.eq_nil_iff_forall_not_mem.2 fun ⟨t, j⟩ hj => ?_
  obtain ⟨j, hj, -, -, hnd⟩ :=
    ((key_unfinishedById_of_le 0 [] jobs (by omega) t).1 ⟨j, hj⟩).resolve_left (by simp)
  exact hnd (hdone j hj)

/-- 仕事がみな DONE で、数えた誤りがある走りでは、再開した走り（許しは誤りの数）は終わるが、
起こし直した走り（許しは `0`）は終わらない。 -/
theorem processCyclePlan_restart (r : RunMem) (jobs : List BQJob)
    (hdone : ∀ j ∈ jobs, j.state = "DONE") (herr : 0 < countErrors jobs) :
    processCyclePlan { r with maxErrCnt := countErrors jobs } jobs = some .finish ∧
      processCyclePlan { r with maxErrCnt := 0 } jobs ≠ some .finish := by
  refine ⟨processCyclePlan_of_nil (unfinishedById_eq_nil_of_le le_rfl hdone), fun h => ?_⟩
  obtain ⟨j, hj, he⟩ : ∃ j ∈ jobs, contains j.error bqSchemaErr = false ∧ j.error ≠ "" := by
    simpa [countErrors, List.length_pos, List.filter_eq_nil_iff] using herr
  obtain ⟨j', hj'⟩ := (key_unfinishedById_zero 0 [] jobs j.tableId).2
    (.inr ⟨j, hj, rfl, by simp [Settled, he.1, he.2]⟩)
  simp [processCyclePlan_finish h] at hj'

end Maestro.Model
