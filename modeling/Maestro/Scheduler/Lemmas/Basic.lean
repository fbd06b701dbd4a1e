import Maestro.Scheduler.Graph
import Mathlib.Logic.Function.Basic

/-!
# グラフの操作の基本の補題

`addItem`、`Relate`、`RemoveItem`、`childSentinel` の後のノードを述べる。ノードは `get`
（キーになければ、`addItem` が作るはずの空のノード）で引くと、キーかどうかで場合を分けずに済む。
-/

namespace Maestro.Scheduler.Graph

variable {g : Graph} {n k x p c : String} {f : Node → Node}

/-- ノードを引く。キーになければ空のノードとする。 -/
def get (g : Graph) (x : String) : Node := if x ∈ g.keys then g.node x else Node.empty

theorem get_of_mem (hx : x ∈ g.keys) : g.get x = g.node x := if_pos hx

theorem get_of_not_mem (hx : x ∉ g.keys) : g.get x = Node.empty := if_neg hx

/-! ## `addItem` と `Relate` -/

@[simp] theorem keys_modify : (g.modify k f).keys = g.keys := rfl

theorem node_modify : (g.modify k f).node x = if x = k then f (g.node k) else g.node x := by
  simp only [modify, Function.update_apply]

theorem get_modify (hk : k ∈ g.keys) :
    (g.modify k f).get x = if x = k then f (g.get k) else g.get x := by
  by_cases hx : x = k
  · subst hx; simp [get, hk, node_modify]
  · simp [get, node_modify, hx]

@[simp] theorem mem_keys_addItem : x ∈ (g.addItem n).keys ↔ x = n ∨ x ∈ g.keys := by
  unfold addItem; split <;> simp_all

@[simp] theorem get_addItem : (g.addItem n).get x = g.get x := by
  unfold addItem get
  split
  · rfl
  · by_cases hx : x = n <;> simp_all [Function.update_apply]

@[simp] theorem mem_keys_relate {q : Option String} :
    x ∈ (g.relate q c).keys ↔ x = c ∨ q = some x ∨ x ∈ g.keys := by
  cases q <;> simp [relate, eq_comm]
  tauto

@[simp] theorem get_relate_none : (g.relate none c).get x = g.get x := by simp [relate]

/-- `Relate(p, c)` は、`c` の親に `p` を、`p` の子に `c` を加える（`p = c` でも両方）。 -/
theorem get_relate_some : (g.relate (some p) c).get x =
    ⟨if x = c then (g.get x).parents.insert p else (g.get x).parents,
     if x = p then (g.get x).children.insert c else (g.get x).children⟩ := by
  simp only [relate, get_modify, mem_keys_addItem, keys_modify, get_addItem, true_or, or_true]
  by_cases hxp : x = p <;> by_cases hxc : x = c <;> simp_all

theorem mem_parents_relate_some {y : String} :
    y ∈ ((g.relate (some p) c).get x).parents ↔ (x = c ∧ y = p) ∨ y ∈ (g.get x).parents := by
  rw [get_relate_some]; by_cases h : x = c <;> simp [h]

theorem mem_children_relate_some {y : String} :
    y ∈ ((g.relate (some p) c).get x).children ↔ (x = p ∧ y = c) ∨ y ∈ (g.get x).children := by
  rw [get_relate_some]; by_cases h : x = p <;> simp [h]

theorem nodup_parents_relate (q : Option String) (h : (g.get x).parents.Nodup) :
    ((g.relate q c).get x).parents.Nodup := by
  cases q with
  | none => simpa using h
  | some p => rw [get_relate_some]; split <;> simp_all [List.Nodup.insert]

/-! ## `RemoveItem` -/

theorem removeItem_of_not_mem (h : n ∉ g.keys) : g.removeItem n = .ok g := by
  simp [removeItem, h]

theorem removeItem_of_parents (h : n ∈ g.keys) (hp : (g.node n).parents ≠ []) :
    g.removeItem n = .error "Node has parents, cannot be removed." := by
  simp [removeItem, h, hp]

/-- 親のないノードは取り除ける。子の親の並びから、その名前が消える。 -/
theorem removeItem_spec (h : n ∈ g.keys) (hp : (g.node n).parents = []) :
    ∃ g', g.removeItem n = .ok g' ∧ g'.keys = g.keys.erase n ∧
      ∀ k, g'.node k = if k ∈ (g.node n).children
        then { g.node k with parents := (g.node k).parents.erase n } else g.node k :=
  ⟨⟨g.keys.erase n, fun k => if k ∈ (g.node n).children
      then { g.node k with parents := (g.node k).parents.erase n } else g.node k, g.nodup.erase n⟩,
    by simp [removeItem, h, hp], rfl, fun _ => rfl⟩

/-! ## `childSentinel` -/

theorem childSentinel_of_mem (h : csName ∈ g.keys) : g.childSentinel = (g, some csName) := by
  simp [childSentinel, h]

/-- 葉の並びに番兵を子として加えると、番兵の親が葉に、葉の子が番兵になる。 -/
theorem foldl_relate_sentinel (L : List String) (g : Graph) :
    let g' := L.foldl (fun g k => g.relate (some k) csName) g
    (∀ x, x ∈ g'.keys ↔ x ∈ g.keys ∨ x ∈ L ∨ (L ≠ [] ∧ x = csName)) ∧
    (∀ x y, y ∈ (g'.get x).parents ↔ y ∈ (g.get x).parents ∨ (x = csName ∧ y ∈ L)) ∧
    (∀ x y, y ∈ (g'.get x).children ↔ y ∈ (g.get x).children ∨ (x ∈ L ∧ y = csName)) ∧
    (∀ x, (g.get x).parents.Nodup → (g'.get x).parents.Nodup) := by
  induction L generalizing g with
  | nil => simp
  | cons k L ih =>
    obtain ⟨hk, hp, hc, hn⟩ := ih (g.relate (some k) csName)
    refine ⟨fun x => ?_, fun x y => ?_, fun x y => ?_, fun x h => hn x (nodup_parents_relate _ h)⟩
    · simp only [List.foldl_cons, hk, mem_keys_relate, Option.some.injEq, List.mem_cons]
      by_cases hxk : x = k
      · subst hxk; simp
      · simp only [hxk, Ne.symm hxk, false_or, ne_eq, reduceCtorEq, not_false_eq_true, true_and]
        tauto
    · simp only [List.foldl_cons, hp, mem_parents_relate_some, List.mem_cons]
      tauto
    · simp only [List.foldl_cons, hc, mem_children_relate_some, List.mem_cons]
      tauto

end Maestro.Scheduler.Graph
