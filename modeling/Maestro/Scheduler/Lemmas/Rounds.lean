import Maestro.Scheduler.Lemmas.Basic
import Maestro.Scheduler.Lemmas.Traversal
import Mathlib.Data.Fintype.Card
import Mathlib.Order.WellFounded

/-!
# 閉路のないグラフの繰り返し

辺 `E` から作って番兵を加えたグラフから、名前をいくつか取り除いた形を、不変条件 `SchedInv` で述べる。
番兵は残った各ノードから子をたどって届くので、`bftUp` は残りをすべて訪れ、`ReadyItems` は親がすべて
取り除かれた名前をちょうど返す。それらを取り除いても不変条件は保たれ、残りは回りごとに減る。
-/

namespace Maestro.Scheduler

open Relation

/-- 有限個の名前の間の、閉路のない関係は整礎である。 -/
theorem wellFounded_of_acyclic {r : String → String → Prop} {V : List String}
    (hV : ∀ a b, r a b → a ∈ V ∧ b ∈ V) (hr : ∀ x, ¬TransGen r x x) : WellFounded r := by
  let s : {x // x ∈ V} → {x // x ∈ V} → Prop := fun a b => TransGen r a.1 b.1
  haveI : IsTrans _ s := ⟨fun _ _ _ h₁ h₂ => h₁.trans h₂⟩
  haveI : IsIrrefl _ s := ⟨fun a h => hr a.1 h⟩
  have hacc : ∀ b : {x // x ∈ V}, Acc r b.1 := fun b =>
    @WellFounded.induction _ _ (Finite.wellFounded_of_trans_of_irrefl s) (fun b => Acc r b.1) b
      fun b ih => ⟨_, fun c hc => ih ⟨c, (hV c b.1 hc).1⟩ (.single hc)⟩
  exact ⟨fun a => if ha : a ∈ V then hacc ⟨a, ha⟩ else ⟨_, fun c hc => absurd (hV c a hc).2 ha⟩⟩

/-- どのグラフでも、`ReadyItems` の返す名前は、番兵でなく、親のないキーである。 -/
theorem Graph.readyItems_sound {g g' : Graph} {r : List String} {e : Option String}
    (h : g.readyItems = some (g', r, e)) {x : String} (hx : x ∈ r) :
    x ∈ g.keys ∧ x ≠ csName ∧ (g.get x).parents = [] := by
  unfold readyItems scores at h
  rcases hcs : g.childSentinel with ⟨gs, cs⟩
  rcases hb : gs.bftUp cs with _ | ups
  · simp [hcs, hb] at h
  rcases hsc : gs.scoreAll ups with _ | rs
  · simp [hcs, hb, hsc] at h
  simp only [hcs, hb, hsc, Option.bind_eq_bind, Option.some_bind, Option.pure_def,
    Option.some.injEq, Prod.mk.injEq] at h
  obtain ⟨rfl, rfl, -⟩ := h
  simp only [List.mem_map, List.mem_filter, List.mem_insertionSort, decide_eq_true_eq] at hx
  obtain ⟨sn, ⟨hsn, hpar⟩, rfl⟩ := hx
  obtain ⟨hups, hcs', -⟩ := mem_scoreAll ups rs hsc sn hsn
  have hxk : sn.name ∈ gs.keys := (bft_subset _ _ _ _ hb _ hups).resolve_left (List.not_mem_nil _)
  unfold childSentinel at hcs
  by_cases hc : csName ∈ g.keys
  · simp only [if_pos hc, Prod.mk.injEq] at hcs
    obtain ⟨rfl, -⟩ := hcs
    exact ⟨hxk, hcs', by rw [get_of_mem hxk]; exact hpar⟩
  · simp only [if_neg hc, Prod.mk.injEq] at hcs
    obtain ⟨rfl, -⟩ := hcs
    obtain ⟨hk, hp, -, -⟩ := foldl_relate_sentinel g.leaves g
    have hxg : sn.name ∈ g.keys := by
      rcases (hk _).1 hxk with h | h | ⟨-, h⟩
      · exact h
      · exact List.mem_of_mem_filter h
      · exact absurd h hcs'
    refine ⟨hxg, hcs', List.eq_nil_iff_forall_not_mem.2 fun y hy => ?_⟩
    have := (hp sn.name y).2 (.inl hy)
    rw [get_of_mem hxk, hpar] at this
    exact List.not_mem_nil _ this
/-- 番兵の名前を含まない、有限個の名前の間の閉路のない辺。親の向きにも子の向きにも整礎である。 -/
structure Dag (E : String → String → Prop) : Prop where
  real : ∀ p c, E p c → p ≠ csName ∧ c ≠ csName
  wf_parent : WellFounded E
  wf_child : WellFounded (flip E)

namespace Graph

variable {E : String → String → Prop} {g : Graph}

/-- 辺 `E` のグラフから、名前をいくつか取り除いた後の形。残った名前の親は残った `E` の親、子は `E` の子と
（子のない名前では）番兵で、番兵の親は残った葉である。 -/
structure SchedInv (E : String → String → Prop) (g : Graph) : Prop where
  cs_mem : csName ∈ g.keys
  parents : ∀ x ∈ g.keys, x ≠ csName → ∀ p, p ∈ (g.node x).parents ↔ E p x ∧ p ∈ g.keys
  children : ∀ x ∈ g.keys, x ≠ csName →
    ∀ c, c ∈ (g.node x).children ↔ E x c ∨ (c = csName ∧ ∀ c', ¬E x c')
  down : ∀ x ∈ g.keys, ∀ c, E x c → c ∈ g.keys
  cs_parents : ∀ p, p ∈ (g.node csName).parents ↔ p ∈ g.keys ∧ p ≠ csName ∧ ∀ c, ¬E p c
  cs_children : (g.node csName).children = []
  nodup : ∀ x ∈ g.keys, (g.node x).parents.Nodup

namespace SchedInv

theorem closed_parents (hi : SchedInv E g) : g.Closed Node.parents := by
  intro x hx y hy
  by_cases hxc : x = csName
  · subst hxc; exact ((hi.cs_parents y).1 hy).1
  · exact ((hi.parents x hx hxc y).1 hy).2

theorem closed_children (hi : SchedInv E g) : g.Closed Node.children := by
  intro x hx y hy
  by_cases hxc : x = csName
  · subst hxc; simp [hi.cs_children] at hy
  · rcases (hi.children x hx hxc y).1 hy with h | ⟨rfl, -⟩
    · exact hi.down x hx y h
    · exact hi.cs_mem

/-- 残った名前に親がないのは、その `E` の親がすべて取り除かれたときである。 -/
theorem parents_eq_nil (hi : SchedInv E g) {x : String} (hx : x ∈ g.keys) (hxc : x ≠ csName) :
    (g.node x).parents = [] ↔ ∀ p, E p x → p ∉ g.keys := by
  rw [List.eq_nil_iff_forall_not_mem]
  exact forall_congr' fun p => by rw [hi.parents x hx hxc p]; tauto

/-- 残った各名前は、番兵から親をたどって届く。子のない名前は番兵の親で、ほかの名前は残った子の親である。 -/
theorem reach (hd : Dag E) (hi : SchedInv E g) :
    ∀ x ∈ g.keys, ReflTransGen (g.Adj Node.parents) csName x := by
  intro x
  induction x using hd.wf_child.induction with
  | _ x ih =>
    intro hx
    by_cases hxc : x = csName
    · subst hxc; exact .refl
    by_cases hleaf : ∀ c, ¬E x c
    · exact .single ((hi.cs_parents x).2 ⟨hx, hxc, hleaf⟩)
    · push_neg at hleaf
      obtain ⟨c, hc⟩ := hleaf
      have hck := hi.down x hx c hc
      exact (ih c hc hck).tail ((hi.parents c hck (hd.real x c hc).2 x).2 ⟨hc, hx⟩)

/-- 番兵のほかに名前が残っていれば、親がすべて取り除かれた名前がある。 -/
theorem ready_exists (hd : Dag E) {g : Graph} (h : ∃ x ∈ g.keys, x ≠ csName) :
    ∃ x, x ∈ g.keys ∧ x ≠ csName ∧ ∀ p, E p x → p ∉ g.keys := by
  obtain ⟨x0, hx0, hx0c⟩ := h
  obtain ⟨m, ⟨hm, hmc⟩, hmin⟩ :=
    hd.wf_parent.has_min {x | x ∈ g.keys ∧ x ≠ csName} ⟨x0, hx0, hx0c⟩
  exact ⟨m, hm, hmc, fun p hp hpk => hmin p ⟨hpk, (hd.real p m hp).1⟩ hp⟩

/-- 番兵から親へたどる走査は、残った名前をすべて一度ずつ訪れる。 -/
theorem bftUp_cs (hd : Dag E) (hi : SchedInv E g) :
    ∃ ups, g.bftUp (some csName) = some ups ∧ ups.Nodup ∧ ∀ y, y ∈ ups ↔ y ∈ g.keys := by
  obtain ⟨ups, hups, hnd, hmem⟩ := bftUp_reach (some csName) hi.closed_parents
    (fun s hs => by cases hs; exact hi.cs_mem)
  refine ⟨ups, hups, hnd, fun y => ?_⟩
  rw [hmem]
  constructor
  · rintro ⟨s, hs, h⟩
    cases hs
    exact mem_keys_of_reach hi.closed_parents hi.cs_mem h
  · exact fun hy => ⟨_, rfl, hi.reach hd y hy⟩

/-- `ReadyItems` は、グラフを変えずに、親がすべて取り除かれた名前を一度ずつ返し、誤りを返さない。 -/
theorem readyItems_eq (hd : Dag E) (hi : SchedInv E g) :
    ∃ r, g.readyItems = some (g, r, none) ∧ r.Nodup ∧
      ∀ x, x ∈ r ↔ x ∈ g.keys ∧ x ≠ csName ∧ ∀ p, E p x → p ∉ g.keys := by
  obtain ⟨ups, hups, hnd, hups_keys⟩ := hi.bftUp_cs hd
  obtain ⟨rs, hrs, hnames⟩ :=
    scoreAll_names hi.closed_children ups fun y hy => (hups_keys y).1 hy
  let sorted := rs.insertionSort fun a b => b.score ≤ a.score
  let r := (sorted.filter fun sn => (g.node sn.name).parents = []).map (·.name)
  have hperm : (sorted.map ScoreName.name).Perm (ups.filter (· ≠ csName)) :=
    hnames ▸ (List.perm_insertionSort _ _).map _
  have hr_mem : ∀ x, x ∈ r ↔ x ∈ g.keys ∧ x ≠ csName ∧ ∀ p, E p x → p ∉ g.keys := fun x => by
    have hs : x ∈ sorted.map ScoreName.name ↔ x ∈ g.keys ∧ x ≠ csName := by
      rw [hperm.mem_iff, List.mem_filter, hups_keys]; simp
    simp only [r, List.mem_map, List.mem_filter, decide_eq_true_eq]
    constructor
    · rintro ⟨sn, ⟨hsn, hp⟩, rfl⟩
      have hk := hs.1 (List.mem_map_of_mem _ hsn)
      exact ⟨hk.1, hk.2, (hi.parents_eq_nil hk.1 hk.2).1 hp⟩
    · rintro ⟨hk, hkc, hp⟩
      obtain ⟨sn, hsn, rfl⟩ := List.mem_map.1 (hs.2 ⟨hk, hkc⟩)
      exact ⟨sn, ⟨hsn, (hi.parents_eq_nil hk hkc).2 hp⟩, rfl⟩
  have hr_nodup : r.Nodup :=
    (((List.filter_sublist _).map _).nodup (hperm.nodup_iff.2 (hnd.filter _)))
  have herr : ¬(1 < g.keys.length ∧ r = []) := by
    rintro ⟨hlen, hr⟩
    have hall : ∀ x ∈ g.keys, x = csName := fun x hx => by
      by_contra hxc
      obtain ⟨y, hy⟩ := ready_exists hd ⟨x, hx, hxc⟩
      simp [← hr_mem y, hr] at hy
    have := (g.nodup.subperm fun x hx => List.mem_singleton.2 (hall x hx)).length_le
    simp at this; omega
  refine ⟨r, ?_, hr_nodup, hr_mem⟩
  simp only [readyItems, scores, childSentinel_of_mem hi.cs_mem, hups, hrs, Option.bind_eq_bind,
    Option.some_bind, Option.pure_def]
  show some (g, r, if 1 < g.keys.length ∧ r = [] then some "Cycle detected." else none) = _
  rw [if_neg herr]

/-- 親がすべて取り除かれた名前を取り除いても、不変条件は保たれる。 -/
theorem remove (hi : SchedInv E g) {x : String} (hx : x ∈ g.keys) (hxc : x ≠ csName)
    (hr : ∀ p, E p x → p ∉ g.keys) :
    ∃ g', g.removeItem x = .ok g' ∧ SchedInv E g' ∧ g'.keys = g.keys.erase x := by
  obtain ⟨g', hrem, hkeys, hnode⟩ := removeItem_spec hx ((hi.parents_eq_nil hx hxc).2 hr)
  have hmem : ∀ y, y ∈ g'.keys ↔ y ≠ x ∧ y ∈ g.keys := fun y => by
    rw [hkeys, g.nodup.mem_erase_iff]
  have hch : ∀ k, (g'.node k).children = (g.node k).children := fun k => by
    rw [hnode]; split <;> rfl
  have hpar : ∀ k, (g'.node k).parents = if k ∈ (g.node x).children
      then (g.node k).parents.erase x else (g.node k).parents := fun k => by
    rw [hnode]; split <;> rfl
  refine ⟨g', hrem, ⟨(hmem _).2 ⟨Ne.symm hxc, hi.cs_mem⟩, ?_, ?_, ?_, ?_, ?_, ?_⟩, hkeys⟩
  · intro y hy hyc p
    have hy' := ((hmem y).1 hy).2
    rw [hpar, hmem p]
    split
    · rw [(hi.nodup y hy').mem_erase_iff, hi.parents y hy' hyc]; tauto
    · rename_i hyx
      rw [hi.parents y hy' hyc]
      constructor
      · rintro ⟨hp, hpk⟩
        refine ⟨hp, ?_, hpk⟩
        rintro rfl
        exact hyx ((hi.children p hx hxc y).2 (.inl hp))
      · rintro ⟨hp, -, hpk⟩
        exact ⟨hp, hpk⟩
  · intro y hy hyc c
    rw [hch]
    exact hi.children y ((hmem y).1 hy).2 hyc c
  · intro y hy c hc
    have hy' := ((hmem y).1 hy).2
    refine (hmem c).2 ⟨?_, hi.down y hy' c hc⟩
    rintro rfl
    exact hr y hc hy'
  · intro p
    rw [hpar, hmem p]
    split
    · rw [(hi.nodup _ hi.cs_mem).mem_erase_iff, hi.cs_parents]; tauto
    · rename_i hcs
      rw [hi.cs_parents]
      constructor
      · rintro ⟨hpk, hpc, hleaf⟩
        refine ⟨⟨?_, hpk⟩, hpc, hleaf⟩
        rintro rfl
        exact hcs ((hi.children p hx hxc _).2 (.inr ⟨rfl, hleaf⟩))
      · rintro ⟨⟨-, hpk⟩, hpc, hleaf⟩
        exact ⟨hpk, hpc, hleaf⟩
  · rw [hch]; exact hi.cs_children
  · intro y hy
    have hy' := ((hmem y).1 hy).2
    rw [hpar]
    split
    · exact (hi.nodup y hy').erase x
    · exact hi.nodup y hy'

/-- 準備のできた名前を順に取り除くと、どれも取り除け、不変条件は保たれ、ちょうどそれらが消える。 -/
theorem removeAll : ∀ (r : List String) {g : Graph}, SchedInv E g → r.Nodup →
    (∀ x ∈ r, x ∈ g.keys ∧ x ≠ csName ∧ ∀ p, E p x → p ∉ g.keys) →
    ∃ g', r.foldlM Graph.removeItem g = .ok g' ∧ SchedInv E g' ∧
      (∀ y, y ∈ g'.keys ↔ y ∈ g.keys ∧ y ∉ r) ∧ g'.keys.length + r.length = g.keys.length
  | [], g, hi, _, _ => ⟨g, rfl, hi, by simp, rfl⟩
  | x :: r, g, hi, hnd, hr => by
    obtain ⟨hx, hxc, hxr⟩ := hr x (List.mem_cons_self _ _)
    obtain ⟨g1, h1, hi1, hk1⟩ := hi.remove hx hxc hxr
    have hmem1 : ∀ y, y ∈ g1.keys ↔ y ≠ x ∧ y ∈ g.keys := fun y => by
      rw [hk1, g.nodup.mem_erase_iff]
    obtain ⟨hxr', hnd'⟩ := List.nodup_cons.1 hnd
    obtain ⟨g', h', hi', hk', hlen'⟩ := removeAll r hi1 hnd' fun y hyr0 => by
      obtain ⟨hy, hyc, hyr⟩ := hr y (List.mem_cons_of_mem _ hyr0)
      exact ⟨(hmem1 y).2 ⟨fun h => hxr' (h ▸ hyr0), hy⟩, hyc,
        fun p hp hpk => hyr p hp ((hmem1 p).1 hpk).2⟩
    refine ⟨g', by simp only [List.foldlM_cons, h1]; exact h', hi', fun y => ?_, ?_⟩
    · rw [hk', hmem1, List.mem_cons]; tauto
    · rw [hk1, List.length_erase_of_mem hx] at hlen'
      have := List.length_pos_of_mem hx
      simp only [List.length_cons]; omega

/-- 一回りは誤りなく終わり、準備のできた名前をちょうど取り除く。 -/
theorem round_eq (hd : Dag E) (hi : SchedInv E g) :
    ∃ g' r, g.round = some (g', r) ∧ SchedInv E g' ∧ r.Nodup ∧
      (∀ x, x ∈ r ↔ x ∈ g.keys ∧ x ≠ csName ∧ ∀ p, E p x → p ∉ g.keys) ∧
      (∀ y, y ∈ g'.keys ↔ y ∈ g.keys ∧ y ∉ r) ∧ g'.keys.length + r.length = g.keys.length := by
  obtain ⟨r, hr, hnd, hmem⟩ := hi.readyItems_eq hd
  obtain ⟨g', h', hi', hk', hlen'⟩ := removeAll r hi hnd fun x hx => (hmem x).1 hx
  exact ⟨g', r, by simp [round, hr, h'], hi', hnd, hmem, hk', hlen'⟩

/-- 番兵のほかに `n` 個以下の名前が残っていれば、`n` 回りで番兵だけが残る。各名前は、その `E` の親が
すべて前の回りで取り除かれた後に取り除かれる。 -/
theorem rounds_eq (hd : Dag E) : ∀ (n : Nat) {g : Graph}, SchedInv E g → g.keys.length ≤ n + 1 →
    ∃ (gf : Graph) (rs : List (List String)), g.rounds n = some (gf, rs) ∧ SchedInv E gf ∧
      (∀ x ∈ gf.keys, x = csName) ∧ (rs.flatten ++ gf.keys).Perm g.keys ∧
      ∀ (i : Nat) (x p : String) (r : List String), rs[i]? = some r → x ∈ r → E p x →
        p ∈ g.keys → ∃ j < i, ∃ r', rs[j]? = some r' ∧ p ∈ r'
  | 0, g, hi, hlen => by
    refine ⟨g, [], rfl, hi, fun x hx => ?_, by simp, by simp⟩
    by_contra hxc
    have h2 : [x, csName].Nodup := by simp [hxc]
    have := (h2.subperm (show [x, csName] ⊆ g.keys by simp [hx, hi.cs_mem])).length_le
    simp at this; omega
  | n + 1, g, hi, hlen => by
    obtain ⟨g1, r, hround, hi1, hnd, hmem, hk1, hlen1⟩ := hi.round_eq hd
    have hlen1' : g1.keys.length ≤ n + 1 := by
      by_cases hre : ∃ x ∈ g.keys, x ≠ csName
      · obtain ⟨x, hx⟩ := ready_exists hd hre
        have := List.length_pos_of_mem ((hmem x).2 hx)
        omega
      · push_neg at hre
        have := (g1.nodup.subperm fun y hy =>
          List.mem_singleton.2 (hre y ((hk1 y).1 hy).1)).length_le
        simp at this; omega
    obtain ⟨gf, rs, hrs, hif, hall, hperm, hord⟩ := rounds_eq hd n hi1 hlen1'
    refine ⟨gf, r :: rs, by simp [rounds, hround, hrs], hif, hall, ?_, ?_⟩
    · have hdisj : ∀ a ∈ r, ∀ b ∈ g1.keys, a ≠ b := fun a ha b hb hab =>
        ((hk1 b).1 hb).2 (hab ▸ ha)
      have h1 : (r ++ g1.keys).Perm g.keys :=
        (List.perm_ext_iff_of_nodup (hnd.append g1.nodup (List.disjoint_left.2 fun a ha hb =>
          hdisj a ha a hb rfl)) g.nodup).2 fun y => by
          rw [List.mem_append, hk1, hmem]; tauto
      simpa [List.append_assoc] using (hperm.append_left r).trans h1
    · rintro (_ | i) x p r' hr' hx hp hpk
      · simp only [List.getElem?_cons_zero, Option.some.injEq] at hr'
        subst hr'
        exact absurd hpk (((hmem x).1 hx).2.2 p hp)
      · simp only [List.getElem?_cons_succ] at hr'
        by_cases hp1 : p ∈ g1.keys
        · obtain ⟨j, hj, r'', hr'', hpr⟩ := hord i x p r' hr' hx hp hp1
          exact ⟨j + 1, by omega, r'', by simpa using hr'', hpr⟩
        · exact ⟨0, by omega, r, by simp, by by_contra hpr; exact hp1 ((hk1 p).2 ⟨hpk, hpr⟩)⟩

end SchedInv

end Graph

end Maestro.Scheduler
