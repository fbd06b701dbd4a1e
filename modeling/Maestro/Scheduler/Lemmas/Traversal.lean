import Maestro.Scheduler.Graph
import Mathlib.Algebra.Order.BigOperators.Group.List
import Mathlib.Algebra.Order.Ring.Nat
import Mathlib.Data.List.Perm.Subperm
import Mathlib.Logic.Relation

/-!
# 幅優先の走査（`bftUp`、`bftDown`）

グラフのキーの外を指す名前がなければ、走査は燃料の尽きる前に終わり、始点から辺をたどって届く名前を、
それぞれちょうど一度ずつ訪れる。
-/

namespace Maestro.Scheduler

theorem mem_sortedNodes {m : List String} {y : String} : some y ∈ sortedNodes m ↔ y ∈ m := by
  simp only [sortedNodes, List.mem_append, List.mem_replicate, List.mem_map,
    List.mem_insertionSort]
  constructor
  · rintro (⟨-, h⟩ | ⟨n, -, hn⟩)
    · cases h
    · split at hn <;> simp_all
  · exact fun hy => Or.inr ⟨y, Or.inr hy, if_pos hy⟩

theorem length_sortedNodes (m : List String) : (sortedNodes m).length = 4 * m.length := by
  simp only [sortedNodes, List.length_append, List.length_replicate, List.length_map,
    List.length_insertionSort]
  omega

namespace Graph

variable {g : Graph} {dir : Node → List String} {R : String → Prop}

/-- `dir` の向きの辺：`y` は `x` のノードの `dir` にある。 -/
def Adj (g : Graph) (dir : Node → List String) (x y : String) : Prop := y ∈ dir (g.node x)

/-- `dir` の向きに指す名前が、すべてグラフのキーである。 -/
def Closed (g : Graph) (dir : Node → List String) : Prop :=
  ∀ x ∈ g.keys, ∀ y ∈ dir (g.node x), y ∈ g.keys

theorem length_le_width {x : String} (hx : x ∈ g.keys) :
    (sortedNodes (dir (g.node x))).length ≤ g.width dir :=
  List.le_sum_of_mem (List.mem_map_of_mem (fun k => (sortedNodes (dir (g.node k))).length) hx)

/-- 走査の不変条件。`R` は、始点から届く名前の性質である。 -/
structure BftInv (g : Graph) (dir : Node → List String) (R : String → Prop)
    (q : List (Option String)) (vis : List String) : Prop where
  nodup : vis.Nodup
  vis_keys : ∀ x ∈ vis, x ∈ g.keys
  vis_R : ∀ x ∈ vis, R x
  queue : ∀ z, some z ∈ q → z ∈ g.keys ∧ R z
  closed : ∀ x ∈ vis, ∀ y, g.Adj dir x y → y ∈ vis ∨ some y ∈ q

namespace BftInv

variable {q : List (Option String)} {vis : List String} {x : String}

theorem length_le (hi : BftInv g dir R q vis) : vis.length ≤ g.keys.length :=
  (hi.nodup.subperm hi.vis_keys).length_le

theorem pop_none (hi : BftInv g dir R (none :: q) vis) : BftInv g dir R q vis where
  nodup := hi.nodup
  vis_keys := hi.vis_keys
  vis_R := hi.vis_R
  queue z hz := hi.queue z (List.mem_cons_of_mem _ hz)
  closed v hv y hy := by simpa using hi.closed v hv y hy

theorem pop_seen (hx : x ∈ vis) (hi : BftInv g dir R (some x :: q) vis) : BftInv g dir R q vis where
  nodup := hi.nodup
  vis_keys := hi.vis_keys
  vis_R := hi.vis_R
  queue z hz := hi.queue z (List.mem_cons_of_mem _ hz)
  closed v hv y hy := by
    rcases hi.closed v hv y hy with h | h
    · exact .inl h
    · rcases List.mem_cons.1 h with h | h
      · cases h; exact .inl hx
      · exact .inr h

theorem expand (hcl : g.Closed dir) (hR : ∀ x y, R x → g.Adj dir x y → R y) (hx : x ∉ vis)
    (hi : BftInv g dir R (some x :: q) vis) :
    BftInv g dir R (q ++ sortedNodes (dir (g.node x))) (vis ++ [x]) where
  nodup := hi.nodup.append (List.nodup_singleton x) (by simpa using hx)
  vis_keys v hv := by
    rcases List.mem_append.1 hv with hv | hv
    · exact hi.vis_keys v hv
    · cases List.mem_singleton.1 hv; exact (hi.queue x (List.mem_cons_self _ _)).1
  vis_R v hv := by
    rcases List.mem_append.1 hv with hv | hv
    · exact hi.vis_R v hv
    · cases List.mem_singleton.1 hv; exact (hi.queue x (List.mem_cons_self _ _)).2
  queue z hz := by
    have hxq := hi.queue x (List.mem_cons_self _ _)
    rcases List.mem_append.1 hz with hz | hz
    · exact hi.queue z (List.mem_cons_of_mem _ hz)
    · have hzx : z ∈ dir (g.node x) := mem_sortedNodes.1 hz
      exact ⟨hcl x hxq.1 z hzx, hR x z hxq.2 hzx⟩
  closed v hv y hy := by
    rcases List.mem_append.1 hv with hv | hv
    · rcases hi.closed v hv y hy with h | h
      · exact .inl (List.mem_append_left _ h)
      · rcases List.mem_cons.1 h with h | h
        · cases h; exact .inl (List.mem_append_right _ (List.mem_singleton_self _))
        · exact .inr (List.mem_append_left _ h)
    · cases List.mem_singleton.1 hv
      exact .inr (List.mem_append_right _ (mem_sortedNodes.2 hy))

end BftInv

/-- 繰り返しの仕様：燃料が残りの仕事より多ければ、走査は止まらずに終わり、訪れた並びを延ばし、
キューにあった名前をすべて訪れ、不変条件を空のキューで保つ。 -/
theorem bft_spec (hcl : g.Closed dir) (hR : ∀ x y, R x → g.Adj dir x y → R y) :
    ∀ fuel q vis, BftInv g dir R q vis →
      q.length + g.width dir * (g.keys.length - vis.length) < fuel →
      ∃ vis', g.bft dir fuel q vis = some vis' ∧ vis <+: vis' ∧
        (∀ z, some z ∈ q → z ∈ vis') ∧ BftInv g dir R [] vis'
  | 0, _, _, _, hf => absurd hf (Nat.not_lt_zero _)
  | fuel + 1, [], vis, hi, _ => ⟨vis, rfl, List.prefix_refl _, by simp, hi⟩
  | fuel + 1, none :: q, vis, hi, hf => by
    obtain ⟨vis', h, hp, hq, hi'⟩ :=
      bft_spec hcl hR fuel q vis hi.pop_none (by simp only [List.length_cons] at hf; omega)
    exact ⟨vis', h, hp, by simpa using hq, hi'⟩
  | fuel + 1, some x :: q, vis, hi, hf => by
    simp only [List.length_cons] at hf
    by_cases hx : x ∈ vis
    · obtain ⟨vis', h, hp, hq, hi'⟩ := bft_spec hcl hR fuel q vis (hi.pop_seen hx) (by omega)
      refine ⟨vis', by simp only [bft, if_pos hx, h], hp, ?_, hi'⟩
      intro z hz
      rcases List.mem_cons.1 hz with hz | hz
      · cases hz; exact hp.subset hx
      · exact hq z hz
    · have hxk := (hi.queue x (List.mem_cons_self _ _)).1
      have hi' := hi.expand hcl hR hx
      have hw : (sortedNodes (dir (g.node x))).length ≤ g.width dir := length_le_width hxk
      have hlen := hi'.length_le
      simp only [List.length_append, List.length_singleton] at hlen
      obtain ⟨d, hd⟩ : ∃ d, g.keys.length - vis.length = d + 1 :=
        ⟨g.keys.length - vis.length - 1, by omega⟩
      have hd' : g.keys.length - (vis ++ [x]).length = d := by simp; omega
      rw [hd, Nat.mul_succ] at hf
      obtain ⟨vis', h, hp, hq, hi''⟩ :=
        bft_spec hcl hR fuel (q ++ sortedNodes (dir (g.node x))) (vis ++ [x]) hi'
          (by rw [hd', List.length_append]; omega)
      refine ⟨vis', by simp only [bft, if_neg hx, if_pos hxk, h], (List.prefix_append _ _).trans hp,
        ?_, hi''⟩
      intro z hz
      rcases List.mem_cons.1 hz with hz | hz
      · cases hz; exact hp.subset (List.mem_append_right _ (List.mem_singleton_self _))
      · exact hq z (List.mem_append_left _ hz)

/-- 走査は止まらずに終わり、始点から辺をたどって届く名前を、それぞれ一度ずつ訪れる。 -/
theorem bft_reach {start : Option String} (hcl : g.Closed dir)
    (hs : ∀ s, start = some s → s ∈ g.keys) :
    ∃ vis, g.bft dir (g.fuel dir) [start] [] = some vis ∧ vis.Nodup ∧
      ∀ y, y ∈ vis ↔ ∃ s, start = some s ∧ Relation.ReflTransGen (g.Adj dir) s y := by
  let R y := ∃ s, start = some s ∧ Relation.ReflTransGen (g.Adj dir) s y
  have hR : ∀ x y, R x → g.Adj dir x y → R y := fun _ _ ⟨s, hs, h⟩ hxy => ⟨s, hs, h.tail hxy⟩
  have h0 : BftInv g dir R [start] [] :=
    { nodup := List.nodup_nil
      vis_keys := by simp
      vis_R := by simp
      queue := fun z hz => by
        cases List.mem_singleton.1 hz
        exact ⟨hs z rfl, z, rfl, .refl⟩
      closed := by simp }
  obtain ⟨vis, h, -, hq, hi⟩ := bft_spec hcl hR (g.fuel dir) [start] [] h0
    (by simp only [fuel, List.length_singleton, List.length_nil, Nat.sub_zero]; omega)
  refine ⟨vis, h, hi.nodup, fun y => ⟨hi.vis_R y, ?_⟩⟩
  rintro ⟨s, rfl, hsy⟩
  induction hsy with
  | refl => exact hq s (List.mem_singleton_self _)
  | tail _ hab ih => simpa using hi.closed _ ih _ hab

theorem bftUp_reach (start : Option String) (hcl : g.Closed Node.parents)
    (hs : ∀ s, start = some s → s ∈ g.keys) :
    ∃ vis, g.bftUp start = some vis ∧ vis.Nodup ∧
      ∀ y, y ∈ vis ↔ ∃ s, start = some s ∧ Relation.ReflTransGen (g.Adj Node.parents) s y :=
  bft_reach hcl hs

theorem bftDown_reach (start : Option String) (hcl : g.Closed Node.children)
    (hs : ∀ s, start = some s → s ∈ g.keys) :
    ∃ vis, g.bftDown start = some vis ∧ vis.Nodup ∧
      ∀ y, y ∈ vis ↔ ∃ s, start = some s ∧ Relation.ReflTransGen (g.Adj Node.children) s y :=
  bft_reach hcl hs

theorem mem_keys_of_reach (hcl : g.Closed dir) {x y : String} (hx : x ∈ g.keys)
    (h : Relation.ReflTransGen (g.Adj dir) x y) : y ∈ g.keys := by
  induction h with
  | refl => exact hx
  | tail _ hab ih => exact hcl _ ih _ hab

/-- 子へたどる走査が止まらなければ、`Scores` の `action` は、番兵を除いた訪問の順に得点を並べる。 -/
theorem scoreAll_names (hcl : g.Closed Node.children) :
    ∀ ts : List String, (∀ t ∈ ts, t ∈ g.keys) →
      ∃ rs, g.scoreAll ts = some rs ∧ rs.map ScoreName.name = ts.filter (· ≠ csName)
  | [], _ => ⟨[], rfl, rfl⟩
  | t :: ts, h => by
    obtain ⟨downs, hdowns, -⟩ := bftDown_reach (some t) hcl
      (fun s hs => by cases hs; exact h t (List.mem_cons_self _ _))
    obtain ⟨rs, hrs, hnames⟩ := scoreAll_names hcl ts fun t' ht' => h t' (List.mem_cons_of_mem _ ht')
    refine ⟨if t = csName then rs else ⟨(downs.length : Int) - 2, t⟩ :: rs, ?_, ?_⟩
    · simp [scoreAll, hdowns, hrs]
    · by_cases ht : t = csName <;> simp [ht, hnames, List.filter_cons]

/-! ## どのグラフでも -/

/-- 走査が訪れる名前は、はじめに訪れた名前か、グラフのキーである。 -/
theorem bft_subset {g : Graph} {dir : Node → List String} :
    ∀ (fuel : Nat) (q : List (Option String)) (vis vis' : List String),
      g.bft dir fuel q vis = some vis' → ∀ y ∈ vis', y ∈ vis ∨ y ∈ g.keys
  | 0, _, _, _, h => by simp [bft] at h
  | _ + 1, [], vis, vis', h => by simp only [bft, Option.some.injEq] at h; subst h; exact fun y hy => .inl hy
  | fuel + 1, none :: q, vis, vis', h => bft_subset fuel q vis vis' h
  | fuel + 1, some x :: q, vis, vis', h => by
    simp only [bft] at h
    split_ifs at h with h1 h2
    · exact bft_subset fuel q vis vis' h
    · intro y hy
      rcases bft_subset fuel _ _ vis' h y hy with hy | hy
      · rcases List.mem_append.1 hy with hy | hy
        · exact .inl hy
        · rw [List.mem_singleton.1 hy]; exact .inr h2
      · exact .inr hy

/-- `Scores` の `action` は、訪れた名前のうち番兵でないものに、そこから子へたどって訪れた数より 2 少ない
得点を付ける。 -/
theorem mem_scoreAll {g : Graph} : ∀ (ts : List String) (rs : List ScoreName),
    g.scoreAll ts = some rs → ∀ sn ∈ rs, sn.name ∈ ts ∧ sn.name ≠ csName ∧
      ∃ downs, g.bftDown (some sn.name) = some downs ∧ sn.score = downs.length - 2
  | [], rs, h => by simp only [scoreAll, Option.some.injEq] at h; subst h; simp
  | t :: ts, rs, h => by
    simp only [scoreAll, Option.bind_eq_bind] at h
    rcases hd : g.bftDown (some t) with _ | downs
    · simp [hd] at h
    rcases hr : g.scoreAll ts with _ | rest
    · simp [hd, hr] at h
    simp only [hd, hr, Option.some_bind, Option.pure_def, Option.some.injEq] at h
    subst h
    intro sn hsn
    have ih := mem_scoreAll ts rest hr
    split at hsn
    · exact ⟨List.mem_cons_of_mem _ (ih sn hsn).1, (ih sn hsn).2⟩
    · rcases List.mem_cons.1 hsn with rfl | hsn
      · exact ⟨List.mem_cons_self _ _, ‹_›, downs, hd, rfl⟩
      · exact ⟨List.mem_cons_of_mem _ (ih sn hsn).1, (ih sn hsn).2⟩

end Graph

end Maestro.Scheduler
