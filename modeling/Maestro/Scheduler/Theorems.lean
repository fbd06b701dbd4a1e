import Maestro.Scheduler.Lemmas.Scores

/-!
# スケジューラの定理

閉路のないグラフを `Relate` の並びで作り、`ReadyItems` の返した名前を `RemoveItem` で取り除く繰り返しを
回す。繰り返しは誤りを返さず、実ノードをそれぞれちょうど一度、その親がすべて前の回りで取り除かれた後に
取り除き、実ノードの数の回りで番兵だけを残す。
-/

namespace Maestro.Scheduler

open Relation

namespace Graph

variable {pre : List (Option String × String)} {g : Graph}

/-- `g` は、呼び出しの並び `pre` で作ったグラフの形をしている：キーは現れた名前で、親と子は辺のとおり。 -/
structure BuiltBy (pre : List (Option String × String)) (g : Graph) : Prop where
  keys : ∀ x, x ∈ g.keys ↔ ∃ c ∈ pre, c.2 = x ∨ c.1 = some x
  parents : ∀ x y, y ∈ (g.get x).parents ↔ Edge pre y x
  children : ∀ x y, y ∈ (g.get x).children ↔ Edge pre x y
  nodup : ∀ x, (g.get x).parents.Nodup

theorem edge_append_singleton {p c : String} {d : Option String × String} :
    Edge (pre ++ [d]) p c ↔ Edge pre p c ∨ (some p, c) = d := by
  simp [Edge]

theorem BuiltBy.relate (h : BuiltBy pre g) (q : Option String) (c : String) :
    BuiltBy (pre ++ [(q, c)]) (g.relate q c) where
  keys x := by
    simp only [mem_keys_relate, h.keys, List.mem_append, List.mem_singleton]
    constructor
    · rintro (rfl | hq | ⟨d, hd, hx⟩)
      · exact ⟨_, .inr rfl, .inl rfl⟩
      · exact ⟨_, .inr rfl, .inr hq⟩
      · exact ⟨d, .inl hd, hx⟩
    · rintro ⟨d, hd | rfl, hx⟩
      · exact .inr (.inr ⟨d, hd, hx⟩)
      · rcases hx with hx | hx
        · exact .inl hx.symm
        · exact .inr (.inl hx)
  parents x y := by
    rw [edge_append_singleton, ← h.parents]
    cases q with
    | none => simp
    | some p => rw [mem_parents_relate_some]; simp; tauto
  children x y := by
    rw [edge_append_singleton, ← h.children]
    cases q with
    | none => simp
    | some p => rw [mem_children_relate_some]; simp; tauto
  nodup x := nodup_parents_relate q (h.nodup x)

theorem BuiltBy.foldl (h : BuiltBy pre g) :
    ∀ rest, BuiltBy (pre ++ rest) (rest.foldl (fun g c => g.relate c.1 c.2) g) := by
  intro rest
  induction rest generalizing pre g with
  | nil => simpa using h
  | cons d rest ih => simpa using ih (h.relate d.1 d.2)

theorem builtBy_build (calls : List (Option String × String)) : BuiltBy calls (build calls) := by
  have h0 : BuiltBy [] Graph.empty :=
    { keys := by simp [Graph.empty]
      parents := by simp [Edge, get, Graph.empty, Node.empty]
      children := by simp [Edge, get, Graph.empty, Node.empty]
      nodup := by simp [get, Graph.empty, Node.empty] }
  simpa using h0.foldl calls

/-- 呼び出しの並びで作ったグラフは、番兵を加える前の形をしている。 -/
theorem BuiltBy.preInv (h : BuiltBy pre g) (hcs : csName ∉ g.keys) : PreInv (Edge pre) g where
  cs_not := hcs
  parents x hx p := by
    rw [← get_of_mem hx, h.parents]
    exact ⟨fun hpx => ⟨hpx, (h.keys p).2 ⟨_, hpx, .inr rfl⟩⟩, And.left⟩
  children x hx c := by rw [← get_of_mem hx, h.children]
  down _ _ c hxc := (h.keys c).2 ⟨_, hxc, .inl rfl⟩
  nodup x hx := by rw [← get_of_mem hx]; exact h.nodup x

/-- 番兵の名前を含まない辺で作った空でないグラフに `childSentinel` で番兵を加えると、不変条件が成り立つ。 -/
theorem BuiltBy.schedInv_childSentinel (hd : Dag (Edge pre)) (h : BuiltBy pre g)
    (hne : g.keys ≠ []) (hcs : csName ∉ g.keys) :
    SchedInv (Edge pre) g.childSentinel.1 ∧ ∀ x, x ∈ g.childSentinel.1.keys ↔ x = csName ∨ x ∈ g.keys :=
  (h.preInv hcs).schedInv_childSentinel hd hne

theorem round_childSentinel : g.childSentinel.1.round = g.round := by
  simp only [round, readyItems, scores, childSentinel_idem]

end Graph

open Graph

/-- `Relate` の並びで作ったグラフに `ReadyItems` と `RemoveItem` を呼んだ後のグラフは、番兵を加えた後か
前の形をしている。 -/
theorem Reached.inv {calls : List (Option String × String)} (hd : Dag (Edge calls))
    (hcs : csName ∉ (Scheduler.build calls).keys) {g : Graph} (hg : Reached calls g) :
    SchedInv (Edge calls) g ∨ PreInv (Edge calls) g := by
  induction hg with
  | build => exact .inr ((builtBy_build calls).preInv hcs)
  | readyItems _ h ih => exact inv_readyItems hd ih h
  | removeItem _ h ih => exact ih.elim (fun hi => hi.removeItem hd h) fun hi => .inr (hi.removeItem h)


/-- 名前に番号を付けて、どの辺でも番号が増えるなら、閉路はない。 -/
theorem not_transGen_self_of_rank {r : String → String → Prop} (f : String → Nat)
    (h : ∀ p c, r p c → f p < f c) (x : String) : ¬TransGen r x x := by
  suffices ∀ y, TransGen r x y → f x < f y from fun hx => lt_irrefl _ (this x hx)
  intro y hy
  induction hy with
  | single hxy => exact h _ _ hxy
  | tail _ hyz ih => exact ih.trans (h _ _ hyz)

section Calls

variable {calls : List (Option String × String)}
  (hnames : ∀ c ∈ calls, c.2 ≠ csName ∧ c.1 ≠ some csName)

include hnames in
theorem csName_not_mem_build : csName ∉ (build calls).keys := by
  rw [(builtBy_build calls).keys]
  rintro ⟨c, hc, h | h⟩
  · exact (hnames c hc).1 h
  · exact (hnames c hc).2 h

include hnames in
/-- 番兵の名前を使わない、閉路のない呼び出しの並びの辺。 -/
theorem dag_of_calls (hacyclic : ∀ x, ¬TransGen (Edge calls) x x) : Dag (Edge calls) := by
  have hb := builtBy_build calls
  have hmentioned : ∀ p c, Edge calls p c → p ∈ (build calls).keys ∧ c ∈ (build calls).keys :=
    fun p c hpc => ⟨(hb.keys p).2 ⟨_, hpc, .inr rfl⟩, (hb.keys c).2 ⟨_, hpc, .inl rfl⟩⟩
  exact { real := fun p c hpc => ⟨fun h => (hnames _ hpc).2 (by rw [h]), (hnames _ hpc).1⟩
          wf_parent := wellFounded_of_acyclic hmentioned hacyclic
          wf_child := wellFounded_of_acyclic (fun a b h => (hmentioned b a h).symm)
            fun x h => hacyclic x (transGen_swap.1 h) }

end Calls

/-- 閉路のないグラフを `Relate` の並びで作り、`ReadyItems` の返した名前をすべて `RemoveItem` で取り除く
繰り返しを実ノードの数だけ回すと、どの回りでも誤りは返らない。各実ノードはちょうど一度、その親が
すべて前の回りで取り除かれた後に取り除かれ、最後には番兵だけが残り、`ReadyItems` は何も返さない。 -/
theorem acyclic_ready_remove_loop (calls : List (Option String × String))
    (hnames : ∀ c ∈ calls, c.2 ≠ csName ∧ c.1 ≠ some csName)
    (hacyclic : ∀ x, ¬TransGen (Edge calls) x x) :
    ∃ (gf : Graph) (rs : List (List String)),
      (build calls).rounds (build calls).keys.length = some (gf, rs) ∧
      rs.flatten.Perm (build calls).keys ∧
      (∀ (i : Nat) (x p : String) (r : List String), rs[i]? = some r → x ∈ r → Edge calls p x →
        ∃ j < i, ∃ r', rs[j]? = some r' ∧ p ∈ r') ∧
      (∀ x ∈ gf.keys, x = csName) ∧ ((build calls).keys ≠ [] → csName ∈ gf.keys) ∧
      gf.readyItems = some (gf, [], none) := by
  have hb := builtBy_build calls
  have hmentioned : ∀ p c, Edge calls p c → p ∈ (build calls).keys ∧ c ∈ (build calls).keys :=
    fun p c hpc => ⟨(hb.keys p).2 ⟨_, hpc, .inr rfl⟩, (hb.keys c).2 ⟨_, hpc, .inl rfl⟩⟩
  have hd := dag_of_calls hnames hacyclic
  have hcs := csName_not_mem_build hnames
  by_cases hne : (build calls).keys = []
  · have hcalls : calls = [] := by
      cases calls with
      | nil => rfl
      | cons c _ => exact absurd ((hb.keys c.2).2 ⟨c, List.mem_cons_self _ _, .inl rfl⟩) (by simp [hne])
    subst hcalls
    exact ⟨build [], [], by simp [hne, rounds], by simp [hne], by simp, by simp [hne],
      fun h => absurd hne h, rfl⟩
  obtain ⟨hi, hk⟩ := hb.schedInv_childSentinel hd hne hcs
  set gs := (build calls).childSentinel.1
  have hperm0 : gs.keys.Perm (csName :: (build calls).keys) :=
    (List.perm_ext_iff_of_nodup gs.nodup (List.nodup_cons.2 ⟨hcs, (build calls).nodup⟩)).2
      fun x => by rw [hk, List.mem_cons]
  obtain ⟨m, hm⟩ : ∃ m, (build calls).keys.length = m + 1 :=
    ⟨_, (Nat.succ_pred_eq_of_pos (List.length_pos.2 hne)).symm⟩
  obtain ⟨gf, rs, hrs, hif, hall, hperm, hord⟩ :=
    hi.rounds_eq hd (m + 1) (by rw [hperm0.length_eq, List.length_cons, hm])
  have hgf : gf.keys.Perm [csName] :=
    (List.perm_ext_iff_of_nodup gf.nodup (List.nodup_singleton _)).2 fun x =>
      ⟨fun hx => List.mem_singleton.2 (hall x hx), fun hx => (List.mem_singleton.1 hx) ▸ hif.cs_mem⟩
  refine ⟨gf, rs, ?_, ?_, ?_, hall, fun _ => hif.cs_mem, ?_⟩
  · rw [hm, ← hrs]
    simp only [rounds, round_childSentinel, gs]
  · rw [← List.perm_append_right_iff [csName]]
    exact ((hgf.append_left _).symm.trans hperm).trans (hperm0.trans (List.perm_append_singleton _ _).symm)
  · intro i x p r hr hx hpx
    exact hord i x p r hr hx hpx ((hk p).2 (.inr (hmentioned p x hpx).1))
  · obtain ⟨r, hr, -, hmem⟩ := hif.readyItems_eq hd
    have : r = [] := List.eq_nil_iff_forall_not_mem.2 fun x hx =>
      ((hmem x).1 hx).2.1 (hall x ((hmem x).1 hx).1)
    rw [hr, this]

/-- 鎖 a → b → c の呼び出しには閉路がない。 -/
theorem chain_acyclic : ∀ x, ¬TransGen (Edge [(none, "a"), (some "a", "b"), (some "b", "c")]) x x :=
  not_transGen_self_of_rank (fun s => if s = "a" then 0 else if s = "b" then 1 else 2) (by
    intro p c h
    simp only [Edge, List.mem_cons, Prod.mk.injEq, Option.some.injEq, reduceCtorEq,
      false_and, false_or, List.mem_nil_iff, or_false] at h
    rcases h with ⟨rfl, rfl⟩ | ⟨rfl, rfl⟩ <;> decide)

theorem acyclic_ready_remove_loop_chain :
    ∃ (gf : Graph) (rs : List (List String)),
      (build [(none, "a"), (some "a", "b"), (some "b", "c")]).rounds 3 = some (gf, rs) ∧
      rs.flatten.Perm ["c", "b", "a"] ∧ gf.readyItems = some (gf, [], none) := by
  obtain ⟨gf, rs, hrs, hperm, -, -, -, hready⟩ :=
    acyclic_ready_remove_loop [(none, "a"), (some "a", "b"), (some "b", "c")] (by decide) chain_acyclic
  exact ⟨gf, rs, hrs, hperm, hready⟩

/-- 閉路のないグラフを `Relate` の並びで作り、`ReadyItems` と `RemoveItem` をどう呼んだ後でも、`Scores` は
残った実ノード（番兵でも空の名前でもない）をそれぞれちょうど一度返す。各ノードの得点は、そのノードから
辺をたどって届く名前の数で、結果は得点の大きい順に並ぶ。 -/
theorem scores_acyclic (calls : List (Option String × String))
    (hnames : ∀ c ∈ calls, c.2 ≠ csName ∧ c.1 ≠ some csName)
    (hacyclic : ∀ x, ¬TransGen (Edge calls) x x) {g : Graph} (hg : Reached calls g) :
    ∃ g' rs, g.scores = some (g', rs) ∧ (rs.map ScoreName.name).Perm (g.keys.filter (· ≠ csName)) ∧
      (∀ sn ∈ rs, sn.name ≠ csName) ∧
      (∀ sn ∈ rs, ∃ D : List String, D.Nodup ∧ (∀ y, y ∈ D ↔ TransGen (Edge calls) sn.name y) ∧
        sn.score = D.length) ∧
      rs.Sorted (fun a b => b.score ≤ a.score) := by
  have hd := dag_of_calls hnames hacyclic
  obtain ⟨g', rs, h, hperm, hrs⟩ := scores_of_inv hd (hg.inv hd (csName_not_mem_build hnames))
  refine ⟨g', rs, h, hperm, fun sn hsn => ?_, hrs⟩
  exact of_decide_eq_true (List.mem_filter.1 (hperm.subset (List.mem_map_of_mem _ hsn))).2

theorem scores_acyclic_chain :
    ∃ g' rs, (build [(none, "a"), (some "a", "b"), (some "b", "c")]).scores = some (g', rs) ∧
      (rs.map ScoreName.name).Perm ((build [(none, "a"), (some "a", "b"), (some "b", "c")]).keys.filter
        (· ≠ csName)) ∧
      (∀ sn ∈ rs, sn.name ≠ csName) ∧
      (∀ sn ∈ rs, ∃ D : List String, D.Nodup ∧
        (∀ y, y ∈ D ↔ TransGen (Edge [(none, "a"), (some "a", "b"), (some "b", "c")]) sn.name y) ∧
        sn.score = D.length) ∧
      rs.Sorted (fun a b => b.score ≤ a.score) :=
  scores_acyclic [(none, "a"), (some "a", "b"), (some "b", "c")] (by decide) chain_acyclic .build

/-! ## 閉路のあるグラフ -/

/-- 番兵がなく、どの名前にも子がある（葉がない）グラフでは、`childSentinel` は番兵を加えず、`Scores` は
何も返さない。`ReadyItems` は、親のない名前があっても何も返さず、閉路の誤りは名前が二つ以上あるときだけ
返す。 -/
theorem readyItems_of_no_leaf {g : Graph} (hcs : csName ∉ g.keys) (hL : g.leaves = []) :
    g.readyItems = some (g, [], if 1 < g.keys.length then some "Cycle detected." else none) := by
  simp [readyItems, scores, childSentinel_of_leaves_nil hcs hL, bftUp, bft, fuel, scoreAll]

/-- `Relate(a, a)` だけのグラフでは、実ノード a が残り親もあるのに、誤りは返らない。
r → a ⇄ b のグラフでは、親のない r があるのに、何も返さずに閉路の誤りを返す。 -/
theorem readyItems_of_no_leaf_cycles :
    (build [(some "a", "a")]).readyItems = some (build [(some "a", "a")], [], none) ∧
      "a" ∈ (build [(some "a", "a")]).keys ∧ ((build [(some "a", "a")]).get "a").parents = ["a"] ∧
    (build [(some "r", "a"), (some "a", "b"), (some "b", "a")]).readyItems =
      some (build [(some "r", "a"), (some "a", "b"), (some "b", "a")], [], some "Cycle detected.") ∧
      "r" ∈ (build [(some "r", "a"), (some "a", "b"), (some "b", "a")]).keys ∧
      ((build [(some "r", "a"), (some "a", "b"), (some "b", "a")]).get "r").parents = [] :=
  ⟨readyItems_of_no_leaf (by decide) (by decide), by decide, by decide,
    readyItems_of_no_leaf (by decide) (by decide), by decide, by decide⟩

end Maestro.Scheduler
