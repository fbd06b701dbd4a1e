import Maestro.Scheduler.Lemmas.Rounds

/-!
# 番兵を加える前のグラフと `Scores`

`Relate` の後、最初の `ReadyItems` より前に `RemoveItem` を呼ぶこともできるので、番兵を加える前のグラフの
形を `PreInv` で述べる。`childSentinel` はそれを `SchedInv` の形にし、`RemoveItem` はどちらの形も保つ。
`SchedInv` の形のグラフでは、`Scores` は残った実ノードをそれぞれ一度ずつ返す。各ノードの得点は、その
ノードから辺 `E` をたどって届く名前の数で、得点の大きい順に並ぶ。
-/

namespace Maestro.Scheduler

open Relation

namespace Graph

variable {E : String → String → Prop} {g g' : Graph}

theorem mem_leaves {x : String} :
    x ∈ g.leaves ↔ x ∈ g.keys ∧ x ≠ csName ∧ (g.node x).children = [] := by
  simp [leaves]

/-- 番兵も葉もなければ、`childSentinel` は何もしない。 -/
theorem childSentinel_of_leaves_nil (hcs : csName ∉ g.keys) (hL : g.leaves = []) :
    g.childSentinel = (g, none) := by
  simp [childSentinel, hcs, hL]

theorem scores_graph {rs : List ScoreName} (h : g.scores = some (g', rs)) : g' = g.childSentinel.1 := by
  simp only [scores, Option.bind_eq_bind, Option.bind_eq_some, Option.pure_def, Option.some.injEq] at h
  obtain ⟨_, -, _, -, h⟩ := h
  exact (Prod.mk.inj h).1.symm

/-- `ReadyItems` の後のグラフは、`childSentinel` の後のグラフである。 -/
theorem readyItems_graph {r : List String} {e : Option String} (h : g.readyItems = some (g', r, e)) :
    g' = g.childSentinel.1 := by
  simp only [readyItems, Option.bind_eq_bind, Option.bind_eq_some, Option.pure_def, Option.some.injEq] at h
  obtain ⟨⟨g₁, rs⟩, hs, h⟩ := h
  rw [← (Prod.mk.inj h).1]
  exact scores_graph hs

/-! ## 番兵を加える前の形 -/

/-- 辺 `E` のグラフから、番兵を加える前に名前をいくつか取り除いた形。残った名前の親は残った `E` の親、
子は `E` の子で、子はすべて残っている。 -/
structure PreInv (E : String → String → Prop) (g : Graph) : Prop where
  cs_not : csName ∉ g.keys
  parents : ∀ x ∈ g.keys, ∀ p, p ∈ (g.node x).parents ↔ E p x ∧ p ∈ g.keys
  children : ∀ x ∈ g.keys, ∀ c, c ∈ (g.node x).children ↔ E x c
  down : ∀ x ∈ g.keys, ∀ c, E x c → c ∈ g.keys
  nodup : ∀ x ∈ g.keys, (g.node x).parents.Nodup

/-- 名前のないグラフは、番兵を加える前の形をしている。 -/
theorem PreInv.of_forall_not_mem (h : ∀ x, x ∉ g.keys) : PreInv E g where
  cs_not := h csName
  parents x hx := absurd hx (h x)
  children x hx := absurd hx (h x)
  down x hx := absurd hx (h x)
  nodup x hx := absurd hx (h x)

namespace PreInv

/-- 空でないグラフに `childSentinel` で番兵を加えると、`SchedInv` の形になる。 -/
theorem schedInv_childSentinel (hd : Dag E) (hi : PreInv E g) (hne : g.keys ≠ []) :
    SchedInv E g.childSentinel.1 ∧ ∀ x, x ∈ g.childSentinel.1.keys ↔ x = csName ∨ x ∈ g.keys := by
  have hleaf : ∀ x ∈ g.keys, ((g.node x).children = [] ↔ ∀ c, ¬E x c) := fun x hx => by
    rw [List.eq_nil_iff_forall_not_mem]
    exact forall_congr' fun c => not_congr (hi.children x hx c)
  have hL : g.leaves ≠ [] := by
    obtain ⟨x0, hx0⟩ := List.exists_mem_of_ne_nil _ hne
    obtain ⟨m, hm, hmin⟩ := hd.wf_child.has_min {x | x ∈ g.keys} ⟨x0, hx0⟩
    refine List.ne_nil_of_mem (mem_leaves.2 ⟨hm, fun h => hi.cs_not (h ▸ hm), (hleaf m hm).2 ?_⟩)
    exact fun c hc => hmin c (hi.down m hm c hc) hc
  obtain ⟨hk, hp, hc, hn⟩ := foldl_relate_sentinel g.leaves g
  simp only [childSentinel, if_neg hi.cs_not]
  set g' := g.leaves.foldl (fun g k => g.relate (some k) csName) g
  have hk' : ∀ x, x ∈ g'.keys ↔ x = csName ∨ x ∈ g.keys := fun x => by
    rw [hk]
    constructor
    · rintro (h | h | ⟨-, h⟩)
      · exact .inr h
      · exact .inr (mem_leaves.1 h).1
      · exact .inl h
    · rintro (h | h)
      · exact .inr (.inr ⟨hL, h⟩)
      · exact .inl h
  have hreal : ∀ x ∈ g'.keys, x ≠ csName → x ∈ g.keys := fun x hx hxc =>
    ((hk' x).1 hx).resolve_left hxc
  refine ⟨⟨(hk' _).2 (.inl rfl), ?_, ?_, ?_, ?_, ?_, ?_⟩, hk'⟩
  · intro x hx hxc p
    have hxg := hreal x hx hxc
    rw [← get_of_mem hx, hp, get_of_mem hxg, hi.parents x hxg, hk']
    constructor
    · rintro (⟨hpx, hpk⟩ | ⟨rfl, -⟩)
      · exact ⟨hpx, .inr hpk⟩
      · exact absurd rfl hxc
    · rintro ⟨hpx, hpk⟩
      exact .inl ⟨hpx, hpk.resolve_left (hd.real p x hpx).1⟩
  · intro x hx hxc c
    have hxg := hreal x hx hxc
    rw [← get_of_mem hx, hc, get_of_mem hxg, hi.children x hxg, mem_leaves, hleaf x hxg]
    constructor
    · rintro (h | ⟨⟨-, -, hl⟩, rfl⟩)
      · exact .inl h
      · exact .inr ⟨rfl, hl⟩
    · rintro (h | ⟨rfl, hl⟩)
      · exact .inl h
      · exact .inr ⟨⟨hxg, hxc, hl⟩, rfl⟩
  · exact fun x hx c hxc => (hk' c).2 (.inr (hi.down x (hreal x hx (hd.real x c hxc).1) c hxc))
  · intro p
    rw [← get_of_mem ((hk' _).2 (.inl rfl)), hp, get_of_not_mem hi.cs_not, mem_leaves]
    simp only [Node.empty, List.not_mem_nil, true_and, false_or]
    constructor
    · rintro ⟨hpk, hpc, hl⟩
      exact ⟨(hk' p).2 (.inr hpk), hpc, (hleaf p hpk).1 hl⟩
    · rintro ⟨hpk, hpc, hl⟩
      have hpk' := hreal p hpk hpc
      exact ⟨hpk', hpc, (hleaf p hpk').2 hl⟩
  · rw [← get_of_mem ((hk' _).2 (.inl rfl)), List.eq_nil_iff_forall_not_mem]
    intro y hy
    rcases (hc _ _).1 hy with hy | ⟨hl, -⟩
    · simp [get_of_not_mem hi.cs_not, Node.empty] at hy
    · exact hi.cs_not (mem_leaves.1 hl).1
  · intro x hx
    rw [← get_of_mem hx]
    refine hn x ?_
    by_cases hxg : x ∈ g.keys
    · rw [get_of_mem hxg]; exact hi.nodup x hxg
    · rw [get_of_not_mem hxg]; exact List.nodup_nil

/-- `RemoveItem` は、番兵を加える前の形を保つ。 -/
theorem removeItem (hi : PreInv E g) {x : String} (h : g.removeItem x = .ok g') : PreInv E g' := by
  by_cases hx : x ∈ g.keys
  · by_cases hp : (g.node x).parents = []
    · obtain ⟨g'', hrem, hkeys, hnode⟩ := removeItem_spec hx hp
      rw [hrem, Except.ok.injEq] at h
      subst h
      have hxr : ∀ p, E p x → p ∉ g.keys := fun p hpx hpk =>
        List.not_mem_nil p (hp ▸ (hi.parents x hx p).2 ⟨hpx, hpk⟩)
      have hmem : ∀ y, y ∈ g''.keys ↔ y ≠ x ∧ y ∈ g.keys := fun y => by
        rw [hkeys, g.nodup.mem_erase_iff]
      have hch : ∀ k, (g''.node k).children = (g.node k).children := fun k => by
        rw [hnode]; split <;> rfl
      have hpar : ∀ k, (g''.node k).parents = if k ∈ (g.node x).children
          then (g.node k).parents.erase x else (g.node k).parents := fun k => by
        rw [hnode]; split <;> rfl
      refine ⟨fun h => hi.cs_not ((hmem _).1 h).2, ?_, ?_, ?_, ?_⟩
      · intro y hy p
        have hy' := ((hmem y).1 hy).2
        rw [hpar, hmem p]
        split
        · rw [(hi.nodup y hy').mem_erase_iff, hi.parents y hy' p]; tauto
        · rename_i hyx
          rw [hi.parents y hy' p]
          constructor
          · rintro ⟨hpy, hpk⟩
            refine ⟨hpy, ?_, hpk⟩
            rintro rfl
            exact hyx ((hi.children p hx y).2 hpy)
          · rintro ⟨hpy, -, hpk⟩
            exact ⟨hpy, hpk⟩
      · intro y hy c
        rw [hch]
        exact hi.children y ((hmem y).1 hy).2 c
      · intro y hy c hc
        have hy' := ((hmem y).1 hy).2
        refine (hmem c).2 ⟨?_, hi.down y hy' c hc⟩
        rintro rfl
        exact hxr y hc hy'
      · intro y hy
        have hy' := ((hmem y).1 hy).2
        rw [hpar]
        split
        · exact (hi.nodup y hy').erase x
        · exact hi.nodup y hy'
    · rw [removeItem_of_parents hx hp] at h; cases h
  · rw [removeItem_of_not_mem hx, Except.ok.injEq] at h
    exact h ▸ hi

end PreInv

namespace SchedInv

/-- 番兵に親がなければ、残っているのは番兵だけである。 -/
theorem eq_csName_of_cs_parents (hd : Dag E) (hi : SchedInv E g) (hp : (g.node csName).parents = [])
    {x : String} (hx : x ∈ g.keys) : x = csName := by
  rcases (hi.reach hd x hx).cases_head with h | ⟨y, hy, -⟩
  · exact h.symm
  · exact absurd (hp ▸ hy : y ∈ ([] : List String)) (List.not_mem_nil y)

/-- `RemoveItem` の後も、`SchedInv` の形か、番兵まで取り除いた空のグラフである。 -/
theorem removeItem (hd : Dag E) (hi : SchedInv E g) {x : String} (h : g.removeItem x = .ok g') :
    SchedInv E g' ∨ PreInv E g' := by
  by_cases hx : x ∈ g.keys
  · by_cases hp : (g.node x).parents = []
    · by_cases hxc : x = csName
      · obtain ⟨g'', hrem, hkeys, -⟩ := removeItem_spec hx hp
        rw [hrem, Except.ok.injEq] at h
        subst h
        refine .inr (PreInv.of_forall_not_mem fun y hy => ?_)
        rw [hkeys, g.nodup.mem_erase_iff] at hy
        exact hy.1 (hxc ▸ hi.eq_csName_of_cs_parents hd (hxc ▸ hp) hy.2)
      · obtain ⟨g'', hrem, hi', -⟩ := hi.remove hx hxc ((hi.parents_eq_nil hx hxc).1 hp)
        rw [hrem, Except.ok.injEq] at h
        exact .inl (h ▸ hi')
    · rw [removeItem_of_parents hx hp] at h; cases h
  · rw [removeItem_of_not_mem hx, Except.ok.injEq] at h
    exact .inl (h ▸ hi)

/-! ## 子へたどって届く名前 -/

theorem mem_keys_of_transGen (hi : SchedInv E g) {t y : String} (ht : t ∈ g.keys) (h : TransGen E t y) :
    y ∈ g.keys := by
  induction h with
  | single hty => exact hi.down t ht _ hty
  | tail _ hby ih => exact hi.down _ ih _ hby

/-- 残った各名前から、子をたどって番兵に届く。 -/
theorem reach_cs (hd : Dag E) (hi : SchedInv E g) :
    ∀ x ∈ g.keys, ReflTransGen (g.Adj Node.children) x csName := by
  intro x
  induction x using hd.wf_child.induction with
  | _ x ih =>
    intro hx
    by_cases hxc : x = csName
    · exact hxc ▸ .refl
    by_cases hleaf : ∀ c, ¬E x c
    · exact .single ((hi.children x hx hxc csName).2 (.inr ⟨rfl, hleaf⟩))
    · push_neg at hleaf
      obtain ⟨c, hc⟩ := hleaf
      exact .head ((hi.children x hx hxc c).2 (.inl hc)) (ih c hc (hi.down x hx c hc))

/-- 実ノード `t` から子をたどって届くのは、`t` 自身と番兵と、`E` をたどって届く名前である。 -/
theorem reflTransGen_children_iff (hd : Dag E) (hi : SchedInv E g) {t y : String} (ht : t ∈ g.keys)
    (htc : t ≠ csName) : ReflTransGen (g.Adj Node.children) t y ↔ y = t ∨ y = csName ∨ TransGen E t y := by
  constructor
  · intro h
    induction h with
    | refl => exact .inl rfl
    | @tail b c hab hbc ih =>
      have hbk := mem_keys_of_reach hi.closed_children ht hab
      by_cases hbcs : b = csName
      · rw [hbcs, Adj, hi.cs_children] at hbc
        exact absurd hbc (List.not_mem_nil c)
      rcases (hi.children b hbk hbcs c).1 hbc with hE | ⟨rfl, -⟩
      · rcases ih with rfl | hb | hb
        · exact .inr (.inr (.single hE))
        · exact absurd hb hbcs
        · exact .inr (.inr (hb.tail hE))
      · exact .inr (.inl rfl)
  · rintro (rfl | rfl | h)
    · exact .refl
    · exact hi.reach_cs hd t ht
    · induction h with
      | single hty => exact .single ((hi.children t ht htc _).2 (.inl hty))
      | @tail b c htb hbc ih =>
        exact ih.tail ((hi.children b (hi.mem_keys_of_transGen ht htb) (hd.real b c hbc).1 c).2 (.inl hbc))

/-- 実ノード `t` から子へたどる走査は、`t` 自身と番兵と、`E` をたどって届く名前を一度ずつ訪れる。 -/
theorem bftDown_length (hd : Dag E) (hi : SchedInv E g) {t : String} (ht : t ∈ g.keys) (htc : t ≠ csName) :
    ∃ downs, g.bftDown (some t) = some downs ∧ ∃ D : List String, D.Nodup ∧
      (∀ y, y ∈ D ↔ TransGen E t y) ∧ downs.length = D.length + 2 := by
  obtain ⟨downs, hb, hnd, hmem⟩ := bftDown_reach (some t) hi.closed_children (by rintro s ⟨⟩; exact ht)
  have hmem' : ∀ y, y ∈ downs ↔ y = t ∨ y = csName ∨ TransGen E t y := fun y => by
    rw [hmem, ← hi.reflTransGen_children_iff hd ht htc]
    exact ⟨fun ⟨s, hs, h⟩ => Option.some.inj hs ▸ h, fun h => ⟨t, rfl, h⟩⟩
  have hirr : ¬TransGen E t t := fun h => hd.wf_parent.transGen.asymmetric t t h h
  have hD : ∀ y, y ∈ downs.filter (fun y => y ≠ t ∧ y ≠ csName) ↔ TransGen E t y := fun y => by
    simp only [List.mem_filter, hmem', decide_eq_true_eq]
    constructor
    · rintro ⟨h | h | h, hyt, hyc⟩
      · exact absurd h hyt
      · exact absurd h hyc
      · exact h
    · intro h
      refine ⟨.inr (.inr h), fun hyt => hirr (hyt ▸ h), fun hyc => ?_⟩
      cases h with
      | single h => exact (hd.real _ _ h).2 hyc
      | tail _ h => exact (hd.real _ _ h).2 hyc
  refine ⟨downs, hb, _, hnd.filter _, hD, ?_⟩
  have h2 : (downs.filter fun y => !decide (y ≠ t ∧ y ≠ csName)).Perm [t, csName] :=
    (List.perm_ext_iff_of_nodup (hnd.filter _) (by simp [htc])).2 fun y => by
      simp only [List.mem_filter, hmem', Bool.not_eq_true', decide_eq_false_iff_not, List.mem_cons,
        List.mem_singleton, List.not_mem_nil, or_false]
      tauto
  have := @List.length_eq_length_filter_add _ downs fun y => decide (y ≠ t ∧ y ≠ csName)
  rw [h2.length_eq] at this
  simpa using this

/-- `Scores` は、グラフを変えずに、残った実ノードをそれぞれ一度ずつ、そこから `E` をたどって届く名前の数を
得点として、得点の大きい順に返す。 -/
theorem scores_eq (hd : Dag E) (hi : SchedInv E g) :
    ∃ rs, g.scores = some (g, rs) ∧ (rs.map ScoreName.name).Perm (g.keys.filter (· ≠ csName)) ∧
      (∀ sn ∈ rs, ∃ D : List String, D.Nodup ∧ (∀ y, y ∈ D ↔ TransGen E sn.name y) ∧ sn.score = D.length) ∧
      rs.Sorted (fun a b => b.score ≤ a.score) := by
  haveI : IsTotal ScoreName (fun a b => b.score ≤ a.score) := ⟨fun a b => le_total b.score a.score⟩
  haveI : IsTrans ScoreName (fun a b => b.score ≤ a.score) := ⟨fun _ _ _ hab hbc => le_trans hbc hab⟩
  obtain ⟨ups, hups, hnd, hups_keys⟩ := hi.bftUp_cs hd
  obtain ⟨rs, hrs, hnames⟩ := scoreAll_names hi.closed_children ups fun y hy => (hups_keys y).1 hy
  refine ⟨rs.insertionSort fun a b => b.score ≤ a.score, ?_, ?_, ?_, List.sorted_insertionSort _ _⟩
  · simp only [scores, childSentinel_of_mem hi.cs_mem, hups, hrs, Option.bind_eq_bind, Option.some_bind,
      Option.pure_def]
  · have hperm : ups.Perm g.keys := (List.perm_ext_iff_of_nodup hnd g.nodup).2 hups_keys
    exact ((List.perm_insertionSort _ _).map _).trans (hnames ▸ hperm.filter _)
  · intro sn hsn
    obtain ⟨hup, hsnc, downs, hdowns, hscore⟩ :=
      mem_scoreAll ups rs hrs sn ((List.mem_insertionSort _).1 hsn)
    obtain ⟨downs', hdowns', D, hD, hmem, hlen⟩ := hi.bftDown_length hd ((hups_keys _).1 hup) hsnc
    obtain rfl : downs = downs' := Option.some.inj (hdowns.symm.trans hdowns')
    exact ⟨D, hD, hmem, by rw [hscore, hlen]; omega⟩

end SchedInv

/-! ## `ReadyItems` と `Scores` の後 -/

theorem childSentinel_idem : g.childSentinel.1.childSentinel = g.childSentinel := by
  by_cases h : csName ∈ g.keys
  · simp [childSentinel_of_mem h]
  · by_cases h1 : csName ∈ (g.leaves.foldl (fun g k => g.relate (some k) csName) g).keys
    · simp [childSentinel, h, h1]
    · have hL : g.leaves = [] := by
        by_contra hL
        exact h1 (((foldl_relate_sentinel g.leaves g).1 _).2 (.inr (.inr ⟨hL, rfl⟩)))
      simp [childSentinel, h, hL]

theorem scores_childSentinel : g.childSentinel.1.scores = g.scores := by
  simp only [scores, childSentinel_idem]

/-- `ReadyItems` の後のグラフも、番兵を加えた後か前の形をしている。 -/
theorem inv_readyItems (hd : Dag E) (hi : SchedInv E g ∨ PreInv E g) {r : List String} {e : Option String}
    (h : g.readyItems = some (g', r, e)) : SchedInv E g' ∨ PreInv E g' := by
  rw [readyItems_graph h]
  rcases hi with hi | hi
  · rw [childSentinel_of_mem hi.cs_mem]; exact .inl hi
  · by_cases hne : g.keys = []
    · rw [childSentinel_of_leaves_nil hi.cs_not (by simp [leaves, hne])]; exact .inr hi
    · exact .inl (hi.schedInv_childSentinel hd hne).1

/-- どちらの形のグラフでも、`Scores` は残った実ノードをそれぞれ一度ずつ、そこから `E` をたどって届く名前の
数を得点として、得点の大きい順に返す。 -/
theorem scores_of_inv (hd : Dag E) (hi : SchedInv E g ∨ PreInv E g) :
    ∃ g' rs, g.scores = some (g', rs) ∧ (rs.map ScoreName.name).Perm (g.keys.filter (· ≠ csName)) ∧
      (∀ sn ∈ rs, ∃ D : List String, D.Nodup ∧ (∀ y, y ∈ D ↔ TransGen E sn.name y) ∧ sn.score = D.length) ∧
      rs.Sorted (fun a b => b.score ≤ a.score) := by
  rcases hi with hi | hi
  · obtain ⟨rs, h, hrs⟩ := hi.scores_eq hd
    exact ⟨g, rs, h, hrs⟩
  by_cases hne : g.keys = []
  · refine ⟨g, [], ?_, by simp [hne], by simp, List.sorted_nil⟩
    simp [scores, childSentinel_of_leaves_nil hi.cs_not (by simp [leaves, hne]), bftUp, bft, fuel, scoreAll]
  obtain ⟨hi', hk'⟩ := hi.schedInv_childSentinel hd hne
  obtain ⟨rs, h, hperm, hrs⟩ := hi'.scores_eq hd
  refine ⟨g.childSentinel.1, rs, scores_childSentinel ▸ h, hperm.trans ?_, hrs⟩
  refine (List.perm_ext_iff_of_nodup (List.Nodup.filter _ (Graph.nodup _)) (g.nodup.filter _)).2 fun y => ?_
  simp only [List.mem_filter, hk', decide_eq_true_eq]
  tauto

end Graph

end Maestro.Scheduler
