import Maestro.Model.Run
import Maestro.Scheduler.Theorems

/-!
# 一回りの決定の補題

`loadRunUnfinishedJobGraph` が残す表は、その表の仕事のどれかが片付いていない表であり、
`graphFromJobsById` のグラフの辺は、残った仕事と、残った親の表の間にだけある。
-/

namespace Maestro.Model

open Go Scheduler

/-- 片付いた仕事：スキーマの不一致の誤りがあるか、誤りなく DONE である。 -/
def Settled (j : BQJob) : Prop :=
  contains j.error bqSchemaErr = true ∨ (j.state = "DONE" ∧ j.error = "")

instance : DecidablePred Settled := fun _ => inferInstanceAs (Decidable (_ ∨ _))

/-- 待つ仕事：スキーマの不一致の誤りがなく、DONE でない。 -/
def Pending (j : BQJob) : Prop :=
  contains j.error bqSchemaErr = false ∧ j.state ≠ "DONE"

instance : DecidablePred Pending := fun _ => inferInstanceAs (Decidable (_ ∧ _))

/-! ## map -/

theorem mem_mapInsert {m : List (Nat × BQJob)} {k : Nat} {j : BQJob} {e : Nat × BQJob}
    (he : e ∈ mapInsert m k j) : e = (k, j) ∨ e ∈ m := by
  unfold mapInsert at he
  split at he
  · obtain ⟨e', he', rfl⟩ := List.mem_map.1 he
    split
    · exact .inl rfl
    · exact .inr he'
  · simpa [or_comm] using he

theorem mem_ite_mapInsert {b : Bool} {m : List (Nat × BQJob)} {k : Nat} {j : BQJob} {e : Nat × BQJob}
    (he : e ∈ if b then mapInsert m k j else m) : e = (k, j) ∨ e ∈ m := by
  split at he
  · exact mem_mapInsert he
  · exact .inr he

/-- 入れたキーはキーになり、ほかのキーは残る。 -/
theorem key_mapInsert {m : List (Nat × BQJob)} {k k' : Nat} {j : BQJob} :
    (∃ j', (k', j') ∈ mapInsert m k j) ↔ k' = k ∨ ∃ j', (k', j') ∈ m := by
  unfold mapInsert
  split
  case isTrue h =>
    obtain ⟨e, he, hek⟩ := List.any_eq_true.1 h
    simp only [decide_eq_true_eq] at hek
    simp only [List.mem_map]
    constructor
    · rintro ⟨j', e', he', h'⟩
      split at h'
      · exact .inl (Prod.mk.inj h').1.symm
      · exact .inr ⟨e'.2, h' ▸ he'⟩
    · rintro (rfl | ⟨j', hj'⟩)
      · exact ⟨j, e, he, by simp [hek]⟩
      · by_cases hk : k' = k
        · exact ⟨j, e, he, by simp [hek, hk]⟩
        · exact ⟨j', _, hj', by simp [hk]⟩
  case isFalse h =>
    simp only [List.mem_append, List.mem_singleton, Prod.mk.injEq, exists_or, exists_eq_right, or_comm]

theorem key_ite_mapInsert {b : Bool} {m : List (Nat × BQJob)} {k k' : Nat} {j : BQJob} :
    (∃ j', (k', j') ∈ if b then mapInsert m k j else m) ↔ (b = true ∧ k' = k) ∨ ∃ j', (k', j') ∈ m := by
  cases b <;> simp [key_mapInsert]

/-! ## `loadRunUnfinishedJobGraph` -/

/-- 残した仕事は、表の id のキーの下にある、読んだ仕事である。 -/
theorem mem_unfinishedById {m : Nat} : ∀ (errCnt : Nat) (byId : List (Nat × BQJob)) (js : List BQJob)
    (e : Nat × BQJob), e ∈ unfinishedById m errCnt byId js → e ∈ byId ∨ (e.2 ∈ js ∧ e.1 = e.2.tableId)
  | _, _, [], e, he => .inl he
  | errCnt, byId, j :: js, e, he => by
    unfold unfinishedById at he
    split at he
    · exact (mem_unfinishedById _ _ js e he).imp_right fun h => ⟨List.mem_cons_of_mem _ h.1, h.2⟩
    · rcases mem_unfinishedById _ _ js e he with h | h
      · rcases mem_ite_mapInsert h with rfl | h
        · exact .inr ⟨List.mem_cons_self _ _, rfl⟩
        · exact .inl h
      · exact .inr ⟨List.mem_cons_of_mem _ h.1, h.2⟩

theorem keepJob_zero {c : Nat} {j : BQJob} (hs : ¬contains j.error bqSchemaErr = true) :
    keepJob 0 c j = true ↔ ¬Settled j := by
  simp only [keepJob, Settled, hs, Bool.or_eq_true, decide_eq_true_eq, Bool.and_eq_true,
    decide_eq_true_eq, Bool.false_eq_true, false_or, true_or, and_true, not_and_or]

/-- 許しのない走り（`maxErrCnt = 0`）では、表が残るのは、その表の仕事のどれかが片付いていないときである。 -/
theorem key_unfinishedById_zero : ∀ (errCnt : Nat) (byId : List (Nat × BQJob)) (js : List BQJob)
    (k : Nat), (∃ j', (k, j') ∈ unfinishedById 0 errCnt byId js) ↔
      (∃ j', (k, j') ∈ byId) ∨ ∃ j ∈ js, j.tableId = k ∧ ¬Settled j
  | _, _, [], k => by simp [unfinishedById]
  | errCnt, byId, j :: js, k => by
    unfold unfinishedById
    split
    case isTrue hs =>
      simp only [key_unfinishedById_zero, List.mem_cons, exists_eq_or_imp, Settled, hs, true_or,
        not_true_eq_false, and_false, false_or]
    case isFalse hs =>
      simp only [key_unfinishedById_zero, key_ite_mapInsert]
      simp only [keepJob_zero hs, List.mem_cons, exists_eq_or_imp, @eq_comm _ k, or_assoc, or_left_comm,
        and_comm]

theorem countErrors_cons {j : BQJob} {js : List BQJob} :
    countErrors (j :: js) =
      countErrors js + if contains j.error bqSchemaErr = false ∧ j.error ≠ "" then 1 else 0 := by
  unfold countErrors
  by_cases h : contains j.error bqSchemaErr = false ∧ j.error ≠ ""
  · simp [List.filter_cons, h.1, h.2]
  · rw [if_neg h, List.filter_cons, if_neg (by simpa using h)]
    rfl

/-- 数えた誤りが許しを越えなければ、残すのは DONE でない仕事だけである。 -/
theorem keepJob_of_le {k c : Nat} {j : BQJob} (hc : j.error ≠ "" → 0 < c ∧ c ≤ k) :
    keepJob k c j = true ↔ j.state ≠ "DONE" := by
  by_cases he : j.error = ""
  · simp [keepJob, he]
  · obtain ⟨h0, hle⟩ := hc he
    simp only [keepJob, he, Bool.or_eq_true, decide_eq_true_eq, Bool.and_eq_true, ne_eq,
      not_false_eq_true, true_and]
    constructor
    · rintro (h | h | ⟨-, h⟩)
      · exact h
      · omega
      · omega
    · exact .inl

/-- 誤りの数が許しに収まる走り（再開した走りの最初の一回り）では、表が残るのは、その表に待つ仕事が
あるときである。 -/
theorem key_unfinishedById_of_le {k : Nat} : ∀ (errCnt : Nat) (byId : List (Nat × BQJob))
    (js : List BQJob), errCnt + countErrors js ≤ k → ∀ t : Nat,
      ((∃ j', (t, j') ∈ unfinishedById k errCnt byId js) ↔
        (∃ j', (t, j') ∈ byId) ∨ ∃ j ∈ js, j.tableId = t ∧ Pending j)
  | _, _, [], _, t => by simp [unfinishedById]
  | errCnt, byId, j :: js, hk, t => by
    rw [countErrors_cons] at hk
    unfold unfinishedById
    split
    case isTrue hs =>
      rw [key_unfinishedById_of_le _ _ _ (by omega)]
      simp [Pending, hs]
    case isFalse hs =>
      have hs' : contains j.error bqSchemaErr = false := by simpa using hs
      simp only [hs', true_and] at hk
      rw [key_unfinishedById_of_le _ _ _ (by split_ifs at hk ⊢ <;> omega), key_ite_mapInsert,
        keepJob_of_le fun he => by simp only [if_pos he] at hk ⊢; omega]
      simp only [List.mem_cons, exists_eq_or_imp, Pending, hs', @eq_comm _ t, true_and, or_assoc,
        or_left_comm, and_comm]

/-- 数えられる誤りがなければ、許しの数は残す仕事を変えない。 -/
theorem unfinishedById_of_no_errors {m : Nat} : ∀ (errCnt : Nat) (byId : List (Nat × BQJob))
    (js : List BQJob), (∀ j ∈ js, contains j.error bqSchemaErr = true ∨ j.error = "") →
      unfinishedById m errCnt byId js = unfinishedById 0 errCnt byId js
  | _, _, [], _ => rfl
  | errCnt, byId, j :: js, h => by
    have ih c b := @unfinishedById_of_no_errors m c b js fun j hj => h j (List.mem_cons_of_mem _ hj)
    unfold unfinishedById
    split
    · exact ih _ _
    case isFalse hs =>
      have he : j.error = "" := (h j (List.mem_cons_self _ _)).resolve_left hs
      have hkeep : ∀ c, keepJob m c j = keepJob 0 c j := fun c => by simp [keepJob, he]
      simp only [hkeep]
      exact ih _ _

/-! ## `graphFromJobsById` -/

/-- グラフの辺は、残った仕事から、その仕事の親のうち残った表へ向かう。 -/
theorem edge_relateCalls {byId : List (Nat × BQJob)} {y x : String} :
    Edge (relateCalls byId) y x ↔
      ∃ e ∈ byId, e.2.name = x ∧ ∃ pid ∈ e.2.parents, (∃ j', (pid, j') ∈ byId) ∧ toString pid = y := by
  simp only [Edge, relateCalls, List.mem_flatMap, List.mem_append, List.mem_map, List.mem_filter,
    List.any_eq_true, decide_eq_true_eq, Prod.mk.injEq, Option.some.injEq]
  constructor
  · rintro ⟨e, he, ⟨pid, ⟨hpid, e', he', rfl⟩, rfl, rfl⟩ | hc⟩
    · exact ⟨e, he, rfl, e'.1, hpid, ⟨e'.2, he'⟩, rfl⟩
    · split at hc <;> simp at hc
  · rintro ⟨e, he, rfl, pid, hpid, ⟨j', hj'⟩, rfl⟩
    exact ⟨e, he, .inl ⟨pid, ⟨hpid, _, hj', rfl⟩, rfl, rfl⟩⟩

/-- map のどの仕事も、`Relate` の子としてグラフに入る。 -/
theorem exists_relateCalls {byId : List (Nat × BQJob)} {e : Nat × BQJob} (he : e ∈ byId) :
    ∃ c ∈ relateCalls byId, c.2 = e.2.name := by
  have key : ∀ ps : List Nat, ∃ c ∈ ps.map (fun pid => (some (toString pid), e.2.name)) ++
      (if ps = [] then [(none, e.2.name)] else []), c.2 = e.2.name := by
    intro ps
    cases ps <;> simp
  obtain ⟨c, hc, h⟩ := key (e.2.parents.filter fun pid => byId.any (·.1 = pid))
  exact ⟨c, List.mem_flatMap.2 ⟨e, he, hc⟩, h⟩

/-- グラフが空になるのは、map が空のときに限る。 -/
theorem keys_graphFromJobsById_eq_nil {byId : List (Nat × BQJob)} :
    (graphFromJobsById byId).keys = [] ↔ byId = [] := by
  constructor
  · intro h
    cases byId with
    | nil => rfl
    | cons e es =>
      have : e.2.name ∈ (graphFromJobsById (e :: es)).keys := ((Graph.builtBy_build _).keys _).2
        ((exists_relateCalls (List.mem_cons_self e es)).imp fun c hc => ⟨hc.1, .inl hc.2⟩)
      simp [h] at this
  · rintro rfl
    rfl

/-- 項目は、その名前を持つ、map の仕事である。 -/
theorem itemOf_spec {byId : List (Nat × BQJob)} {x : String} {j : BQJob} (h : itemOf byId x = some j) :
    ∃ k, (k, j) ∈ byId ∧ j.name = x := by
  obtain ⟨e, he, rfl⟩ := Option.map_eq_some'.1 h
  exact ⟨e.1, List.mem_of_find?_eq_some he, by simpa using List.find?_some he⟩

end Maestro.Model
