import Maestro.Scheduler.Lemmas.Scores

/-!
# グラフの表現の不変条件

Go のグラフのノードは、`parents` と `children` の map に、同じグラフのノードへのポインタを持つ。名前で
表すこの形では、それは次のことになる。親や子の map にある名前はグラフのキーである。`b` が `a` の子で
あるのは、`a` が `b` の親であるときに限る。map のキーは重複しない（`ReprInv`）。ノードがその名前の下に
あることは、名前で表すので言うまでもない。

`NewGraph` から `Relate`、`RemoveItem`、`childSentinel`、`Scores`、`ReadyItems` をどの順に呼んでも、
閉路があっても、この不変条件は保たれる（`Built.reprInv`）。不変条件を満たすグラフでは、`Scores` と
`ReadyItems` は止まる。`bftUp` と `bftDown` は、始点から辺をたどって届くノードをそれぞれちょうど一度
訪れる（`bft_visits_reachable_once`）。
-/

namespace Maestro.Scheduler

open Relation

namespace Graph

variable {g g' : Graph} {n x : String}

/-- グラフの表現の不変条件。`get` はキーでない名前に空のノードを返すので、すべての名前について述べる。 -/
structure ReprInv (g : Graph) : Prop where
  parents_keys : ∀ x y, y ∈ (g.get x).parents → y ∈ g.keys
  children_keys : ∀ x y, y ∈ (g.get x).children → y ∈ g.keys
  symm : ∀ x y, y ∈ (g.get x).children ↔ x ∈ (g.get y).parents
  nodup : ∀ x, (g.get x).parents.Nodup ∧ (g.get x).children.Nodup

/-- `NewGraph` から、`Relate`、`RemoveItem`、`childSentinel`、`Scores`、`ReadyItems` を任意の順に呼んで
得るグラフ。`RemoveItem` が断れば、グラフはそのままである。 -/
inductive Built : Graph → Prop
  | newGraph : Built Graph.empty
  | relate {g : Graph} (p : Option String) (c : String) : Built g → Built (g.relate p c)
  | removeItem {g : Graph} (x : String) : Built g → Built ((g.removeItem x).toOption.getD g)
  | childSentinel {g : Graph} : Built g → Built g.childSentinel.1
  | scores {g g' : Graph} {rs : List ScoreName} : Built g → g.scores = some (g', rs) → Built g'
  | readyItems {g g' : Graph} {r : List String} {e : Option String} :
      Built g → g.readyItems = some (g', r, e) → Built g'

theorem nodup_children_relate (q : Option String) {c : String} (h : (g.get x).children.Nodup) :
    ((g.relate q c).get x).children.Nodup := by
  cases q with
  | none => simpa using h
  | some p =>
    rw [get_relate_some]
    by_cases hxp : x = p
    · subst hxp; simpa using h.insert
    · simpa [hxp] using h

/-- 親のないノード `n` を取り除いた後のキーとノード。 -/
theorem removeItem_ok (hn : n ∈ g.keys) (hp : (g.node n).parents = []) (h : g.removeItem n = .ok g') :
    (∀ y, y ∈ g'.keys ↔ y ≠ n ∧ y ∈ g.keys) ∧
    ∀ k, g'.get k = if k = n then Node.empty else if k ∈ (g.get n).children
      then ⟨(g.get k).parents.erase n, (g.get k).children⟩ else g.get k := by
  obtain ⟨g'', h'', hkeys, hnode⟩ := removeItem_spec hn hp
  obtain rfl : g' = g'' := Except.ok.inj (h.symm.trans h'')
  have hmem : ∀ y, y ∈ g'.keys ↔ y ≠ n ∧ y ∈ g.keys := fun y => by rw [hkeys, g.nodup.mem_erase_iff]
  refine ⟨hmem, fun k => ?_⟩
  by_cases hkn : k = n
  · simp [get, hmem, hkn]
  · by_cases hk : k ∈ g.keys
    · simp [get, hmem, hkn, hk, hn, hnode]
    · simp [get, hmem, hk, Node.empty]

namespace ReprInv

theorem empty : ReprInv Graph.empty where
  parents_keys x y h := by simp [get, Graph.empty, Node.empty] at h
  children_keys x y h := by simp [get, Graph.empty, Node.empty] at h
  symm x y := by simp [get, Graph.empty, Node.empty]
  nodup x := by simp [get, Graph.empty, Node.empty]

theorem closed_parents (hi : ReprInv g) : g.Closed Node.parents :=
  fun x hx y hy => hi.parents_keys x y (by rwa [get_of_mem hx])

theorem closed_children (hi : ReprInv g) : g.Closed Node.children :=
  fun x hx y hy => hi.children_keys x y (by rwa [get_of_mem hx])

theorem relate (hi : ReprInv g) (q : Option String) (c : String) : ReprInv (g.relate q c) := by
  have hkeys : ∀ y, y ∈ g.keys → y ∈ (g.relate q c).keys := fun y hy => mem_keys_relate.2 (.inr (.inr hy))
  cases q with
  | none =>
    exact ⟨fun x y h => hkeys y (hi.parents_keys x y (by simpa using h)),
      fun x y h => hkeys y (hi.children_keys x y (by simpa using h)), by simpa using hi.symm,
      by simpa using hi.nodup⟩
  | some p =>
    refine ⟨fun x y h => ?_, fun x y h => ?_, fun x y => ?_, fun x => ?_⟩
    · rcases mem_parents_relate_some.1 h with ⟨-, rfl⟩ | h
      · simp
      · exact hkeys y (hi.parents_keys x y h)
    · rcases mem_children_relate_some.1 h with ⟨-, rfl⟩ | h
      · simp
      · exact hkeys y (hi.children_keys x y h)
    · rw [mem_children_relate_some, mem_parents_relate_some, hi.symm x y]
      tauto
    · exact ⟨nodup_parents_relate _ (hi.nodup x).1, nodup_children_relate _ (hi.nodup x).2⟩

theorem removeItem (hi : ReprInv g) (h : g.removeItem n = .ok g') : ReprInv g' := by
  by_cases hn : n ∈ g.keys
  · by_cases hp : (g.node n).parents = []
    · obtain ⟨hkeys, hget⟩ := removeItem_ok hn hp h
      have hpn : (g.get n).parents = [] := by rwa [get_of_mem hn]
      -- 取り除くノードは誰の子でもなく、それを親に持つのはその子だけである。
      have hnc : ∀ k, n ∉ (g.get k).children := fun k hk => by simpa [hpn] using (hi.symm k n).1 hk
      have hnp : ∀ k, n ∈ (g.get k).parents ↔ k ∈ (g.get n).children := fun k => (hi.symm n k).symm
      have herase : ∀ k y, y ∈ (g.get k).parents.erase n ↔ y ≠ n ∧ y ∈ (g.get k).parents :=
        fun k y => (hi.nodup k).1.mem_erase_iff
      refine ⟨fun k y hy => ?_, fun k y hy => ?_, fun k y => ?_, fun k => ?_⟩
      · rw [hget] at hy
        split_ifs at hy with h1 h2
        · simp [Node.empty] at hy
        · exact (hkeys y).2 ⟨((herase k y).1 hy).1, hi.parents_keys k y ((herase k y).1 hy).2⟩
        · exact (hkeys y).2 ⟨fun hyn => h2 ((hnp k).1 (hyn ▸ hy)), hi.parents_keys k y hy⟩
      · rw [hget] at hy
        split_ifs at hy with h1
        · simp [Node.empty] at hy
        all_goals exact (hkeys y).2 ⟨fun hyn => hnc k (hyn ▸ hy), hi.children_keys k y hy⟩
      · rw [hget k, hget y]
        by_cases hkn : k = n
        · subst hkn
          split_ifs <;> simp_all [Node.empty]
        · have := hi.symm k y
          split_ifs <;> simp_all [Node.empty]
      · rw [hget]
        split_ifs
        · simp [Node.empty]
        · exact ⟨(hi.nodup k).1.erase n, (hi.nodup k).2⟩
        · exact hi.nodup k
    · rw [removeItem_of_parents hn hp] at h
      cases h
  · rw [removeItem_of_not_mem hn] at h
    cases h
    exact hi

theorem foldl_relate (L : List String) (hi : ReprInv g) :
    ReprInv (L.foldl (fun g k => g.relate (some k) csName) g) := by
  induction L generalizing g with
  | nil => exact hi
  | cons k L ih => exact ih (hi.relate _ _)

theorem childSentinel (hi : ReprInv g) : ReprInv g.childSentinel.1 := by
  by_cases h : csName ∈ g.keys
  · rwa [childSentinel_of_mem h]
  · simpa [Graph.childSentinel, h] using hi.foldl_relate g.leaves

/-- 番兵へのポインタは、グラフのノードか `nil` である。 -/
theorem childSentinel_start (g : Graph) :
    ∀ s, g.childSentinel.2 = some s → s ∈ g.childSentinel.1.keys := by
  intro s hs
  have h2 : g.childSentinel.2 = if csName ∈ g.childSentinel.1.keys then some csName else none := rfl
  rw [h2] at hs
  split_ifs at hs with h
  cases hs
  exact h

/-- 不変条件を満たすグラフでは、`Scores` は止まり、`nil` を引かない。 -/
theorem scores_isSome (hi : ReprInv g) : g.scores.isSome := by
  have hc := hi.childSentinel
  obtain ⟨ups, hups, -, hmem⟩ := bftUp_reach g.childSentinel.2 hc.closed_parents (childSentinel_start g)
  obtain ⟨rs, hrs, -⟩ := scoreAll_names hc.closed_children ups fun t ht => by
    obtain ⟨s, hs, hst⟩ := (hmem t).1 ht
    exact mem_keys_of_reach hc.closed_parents (childSentinel_start g s hs) hst
  simp [scores, hups, hrs]

theorem readyItems_isSome (hi : ReprInv g) : g.readyItems.isSome := by
  obtain ⟨⟨g', rs⟩, hs⟩ := Option.isSome_iff_exists.1 hi.scores_isSome
  simp [readyItems, hs]

end ReprInv

/-- どの順に操作を呼んでも、閉路があっても、グラフの表現の不変条件は保たれる。 -/
theorem Built.reprInv (h : Built g) : ReprInv g := by
  induction h with
  | newGraph => exact .empty
  | relate p c _ ih => exact ih.relate p c
  | @removeItem g x _ ih =>
    rcases hx : g.removeItem x with e | g'
    · exact ih
    · exact ih.removeItem hx
  | childSentinel _ ih => exact ih.childSentinel
  | scores _ hs ih => rw [scores_graph hs]; exact ih.childSentinel
  | readyItems _ hr ih => rw [readyItems_graph hr]; exact ih.childSentinel

theorem built_cycle_reprInv :
    ReprInv ((Graph.empty.relate (some "a") "b").relate (some "b") "a") :=
  Built.reprInv (.relate _ _ (.relate _ _ .newGraph))

/-- 不変条件を満たすグラフでは、閉路があっても、`bftUp` と `bftDown` は止まる。始点がグラフのノードか
`nil` なら、始点から親（`bftUp`）か子（`bftDown`）をたどって届くノードで、`action` をそれぞれちょうど
一度呼び、ほかのノードでは呼ばない。 -/
theorem bft_visits_reachable_once (hi : ReprInv g) (start : Option String)
    (hs : ∀ s, start = some s → s ∈ g.keys) :
    (∃ vis, g.bftUp start = some vis ∧ vis.Nodup ∧
      ∀ y, y ∈ vis ↔ ∃ s, start = some s ∧ ReflTransGen (g.Adj Node.parents) s y) ∧
    (∃ vis, g.bftDown start = some vis ∧ vis.Nodup ∧
      ∀ y, y ∈ vis ↔ ∃ s, start = some s ∧ ReflTransGen (g.Adj Node.children) s y) :=
  ⟨bftUp_reach start hi.closed_parents hs, bftDown_reach start hi.closed_children hs⟩

theorem bft_visits_reachable_once_cycle :
    ReprInv ((Graph.empty.relate (some "a") "b").relate (some "b") "a") ∧
    (∀ s, some "a" = some s → s ∈ ((Graph.empty.relate (some "a") "b").relate (some "b") "a").keys) ∧
    ((∃ vis, ((Graph.empty.relate (some "a") "b").relate (some "b") "a").bftUp (some "a") = some vis ∧
      vis.Nodup ∧ ∀ y, y ∈ vis ↔ ∃ s, some "a" = some s ∧
        ReflTransGen (((Graph.empty.relate (some "a") "b").relate (some "b") "a").Adj Node.parents) s y) ∧
    (∃ vis, ((Graph.empty.relate (some "a") "b").relate (some "b") "a").bftDown (some "a") = some vis ∧
      vis.Nodup ∧ ∀ y, y ∈ vis ↔ ∃ s, some "a" = some s ∧
        ReflTransGen (((Graph.empty.relate (some "a") "b").relate (some "b") "a").Adj Node.children) s y)) :=
  have hi := (ReprInv.empty.relate (some "a") "b").relate (some "b") "a"
  have hs : ∀ s, some "a" = some s → s ∈ ((Graph.empty.relate (some "a") "b").relate (some "b") "a").keys :=
    fun s h => by cases h; simp
  ⟨hi, hs, bft_visits_reachable_once hi (some "a") hs⟩

end Graph

end Maestro.Scheduler
