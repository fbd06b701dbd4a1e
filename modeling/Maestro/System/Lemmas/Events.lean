import Maestro.System.Lemmas.Jobs

/-!
# 一歩の形

`step` の一歩は、ある goroutine の `threadStep` か、外からの一歩（BigQuery の仕事の終わり、時の流れ、HTTP の
要求）である。goroutine の並びは後ろに伸びるだけで、番号 `tid` の goroutine は一歩の後も同じ番号にいる。
外からの一歩は共有の状態のうち BigQuery の側、時計、走りの記録だけを変え、起こす goroutine は走りの仕事を
持たない。
-/

namespace Maestro.System

open Go Model

variable {s s' : Sys}

theorem step_thread {tid : Nat} {ch : Choice} (h : step s (.thread tid ch) = some s') :
    ∃ pc s'' pc', s.threads[tid]? = some pc ∧ threadStep s ch pc = some (s'', pc') ∧
      s' = { s'' with threads := s''.threads.set tid pc' } := by
  simp only [step] at h
  cases hpc : s.threads[tid]? with
  | none => simp [hpc] at h
  | some pc =>
    cases h1 : threadStep s ch pc with
    | none => simp [hpc, h1] at h
    | some r =>
      obtain ⟨s'', pc'⟩ := r
      simp [hpc, h1] at h
      exact ⟨pc, s'', pc', rfl, h1, h.symm⟩

/-- goroutine の一歩でない一歩は、登録簿、表の行、仕事の行、順番待ちを変えず、goroutine を一つ加えるかもしれない。 -/
theorem step_other {e : Event} (h : step s e = some s') (he : ∀ tid ch, e ≠ .thread tid ch) :
    s'.waits = s.waits ∧ s'.closed = s.closed ∧ s'.nextCh = s.nextCh ∧ s'.expired = s.expired ∧
      s'.tables = s.tables ∧ s'.jobs = s.jobs ∧ s'.queue = s.queue ∧ s'.resubmitted = s.resubmitted ∧
      ∃ new, s'.threads = s.threads ++ new ∧
        ∀ x ∈ new, x.runItems = none ∧ x.Fresh s'.resubmitted := by
  cases e with
  | thread tid ch => exact absurd rfl (he tid ch)
  | whEnd n st =>
    simp only [step] at h
    split at h
    · split at h
      · cases h
        exact ⟨rfl, rfl, rfl, rfl, rfl, rfl, rfl, rfl, [], (List.append_nil _).symm, List.forall_mem_nil _⟩
      · cases h
    · cases h
  | tick d =>
    cases h
    exact ⟨rfl, rfl, rfl, rfl, rfl, rfl, rfl, rfl, [], (List.append_nil _).symm, List.forall_mem_nil _⟩
  | request req =>
    cases req <;> simp only [step, Request.entry, Option.map_eq_some'] at h
    case resume runId =>
      obtain ⟨r, -, rfl⟩ := h
      exact ⟨rfl, rfl, rfl, rfl, rfl, rfl, rfl, rfl, _, rfl, List.forall_mem_singleton.2 ⟨rfl, trivial⟩⟩
    all_goals cases h
    all_goals exact ⟨rfl, rfl, rfl, rfl, rfl, rfl, rfl, rfl, _, rfl, List.forall_mem_singleton.2 ⟨rfl, trivial⟩⟩

/-! ## goroutine の番号 -/

/-- 列に goroutine を加えた後の番号 `i` の goroutine は、前から同じ番号にいたものか、加えたものである。 -/
theorem getElem?_append_cases {l new : List Pc} {i : Nat} {x : Pc} (h : (l ++ new)[i]? = some x) :
    l[i]? = some x ∨ x ∈ new := by
  by_cases hl : i < l.length
  · exact .inl (by rwa [List.getElem?_append_left hl] at h)
  · rw [List.getElem?_append_right (by omega)] at h
    exact .inr (List.mem_iff_getElem?.2 ⟨_, h⟩)

/-- 列に goroutine を加えて一つを書き換えた後の番号 `i` の goroutine は、書き換えたものか、前から同じ番号に
いたものか、加えたものである。 -/
theorem getElem?_set_append {l new : List Pc} {tid i : Nat} {x y : Pc} (hlt : tid < l.length)
    (h : ((l ++ new).set tid y)[i]? = some x) : (i = tid ∧ x = y) ∨ l[i]? = some x ∨ x ∈ new := by
  by_cases hi : tid = i
  · subst hi
    rw [List.getElem?_set_self (by rw [List.length_append]; omega)] at h
    exact .inl ⟨rfl, (Option.some.inj h).symm⟩
  · rw [List.getElem?_set_ne hi] at h
    exact .inr (getElem?_append_cases h)

/-- goroutine の列に加えて一つを書き換えても、書き換えた goroutine でないものは残る。 -/
theorem mem_set_of_ne {l new : List Pc} {tid : Nat} {x y a : Pc} (hx : x ∈ l ++ new)
    (ha : l[tid]? = some a) (hne : a ≠ x) : x ∈ (l ++ new).set tid y := by
  obtain ⟨i, hi⟩ := List.mem_iff_getElem?.1 hx
  have hit : tid ≠ i := by
    rintro rfl
    rw [List.getElem?_append_left (List.getElem?_eq_some_iff.1 ha).1, ha] at hi
    exact hne (Option.some.inj hi)
  exact List.mem_iff_getElem?.2 ⟨i, by rw [List.getElem?_set_ne hit, hi]⟩

/-- goroutine の列に加えた goroutine は、前からある goroutine を書き換えても残る。 -/
theorem mem_set_append_right {l new : List Pc} {tid : Nat} {x y : Pc} (hlt : tid < l.length) (hx : x ∈ new) :
    x ∈ (l ++ new).set tid y := by
  obtain ⟨i, hi⟩ := List.mem_iff_getElem?.1 hx
  refine List.mem_iff_getElem?.2 ⟨l.length + i, ?_⟩
  rw [List.getElem?_set_ne (by omega), List.getElem?_append_right (by omega), Nat.add_sub_cancel_left, hi]

end Maestro.System
