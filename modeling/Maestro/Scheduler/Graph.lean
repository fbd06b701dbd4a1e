import Maestro.Go
import Mathlib.Data.List.Sort
import Mathlib.Data.List.Nodup
import Mathlib.Algebra.Order.Ring.Nat

/-!
# 依存グラフ（`scheduler/graph.go`）

Go の `node` は、`parents` と `children` の map に、グラフの中で同じ名前を持つノードへのポインタを入れる。
`addItem` は必ず `g[t.GetName()]` を返し、走査も取り出したポインタの名前で `g` を引き直すので、
ポインタの代わりに名前を持つ。map のキーの集合は重複のない並びで表し、グラフは、キーの並びと、
名前からノードへの関数の組とする。`Item` は名前しか使われないので、項目は名前そのものとする。
走査のキューに入るポインタは `Option String` で、`none` が `nil` である。
-/

namespace Maestro.Scheduler

/-- 子の番兵の名前（`csName`）。 -/
def csName : String := ""

/-- ノードの親と子の名前（`node.parents`、`node.children` のキー）。 -/
structure Node where
  parents : List String
  children : List String

/-- 親も子もないノード（`newNode`）。 -/
def Node.empty : Node := ⟨[], []⟩

/-- グラフ（`Graph`）。`keys` が map のキー、`node k` がキー `k` のノードである。 -/
structure Graph where
  keys : List String
  node : String → Node
  nodup : keys.Nodup

/-- 得点と名前（`scoreName`）。 -/
structure ScoreName where
  score : Int
  name : String
  deriving DecidableEq, Repr

namespace Graph

/-- `NewGraph`。 -/
def empty : Graph := ⟨[], fun _ => Node.empty, List.nodup_nil⟩

/-- ノード `k` を `f` で書き換える。 -/
def modify (g : Graph) (k : String) (f : Node → Node) : Graph :=
  { g with node := Function.update g.node k (f (g.node k)) }

/-- `addItem`：名前がまだなければ、親も子もないノードを加える。 -/
def addItem (g : Graph) (n : String) : Graph :=
  if h : n ∈ g.keys then g
  else ⟨n :: g.keys, Function.update g.node n Node.empty, List.nodup_cons.2 ⟨h, g.nodup⟩⟩

/-- `Relate`：`parent` が `none`（Go の `nil`）なら、子を加えるだけである。 -/
def relate (g : Graph) (parent : Option String) (child : String) : Graph :=
  match parent with
  | none => g.addItem child
  | some p =>
    ((g.addItem child).addItem p
      |>.modify child fun c => { c with parents := c.parents.insert p })
      |>.modify p fun q => { q with children := q.children.insert child }

/-- `RemoveItem`。親のあるノードは取り除けない。子からは親としての自分を消す。 -/
def removeItem (g : Graph) (name : String) : Except String Graph :=
  if name ∈ g.keys then
    if (g.node name).parents ≠ [] then .error "Node has parents, cannot be removed."
    else .ok ⟨g.keys.erase name,
      fun k => if k ∈ (g.node name).children
        then { g.node k with parents := (g.node k).parents.erase name } else g.node k,
      g.nodup.erase name⟩
  else .ok g

/-- 番兵でない、子のないノード。 -/
def leaves (g : Graph) : List String :=
  g.keys.filter fun k => k ≠ csName ∧ (g.node k).children = []

/-- `childSentinel`：番兵がなければ、子のない各ノードの子として番兵を加える。
番兵へのポインタを返す（子のないノードがなければ `nil`）。各ノードの子は、そのノード自身の回でしか
変わらないので、map をたどる順によらず、最初の葉の並びに対する `Relate` の繰り返しと同じである。 -/
def childSentinel (g : Graph) : Graph × Option String :=
  let g := if csName ∈ g.keys then g else g.leaves.foldl (fun g k => g.relate (some k) csName) g
  (g, if csName ∈ g.keys then some csName else none)

end Graph

/-- `sortedNodes`。前もって長さを取った slice に `append` するので、名前の前に `len(nmap)` 個の空の名前が、
結果の前に名前の数だけの `nil` が並ぶ。空の名前は `nmap[""]` を引く。 -/
def sortedNodes (m : List String) : List (Option String) :=
  let names := (List.replicate m.length "" ++ m).insertionSort Go.StringLe
  List.replicate names.length none ++ names.map fun n => if n ∈ m then some n else none

namespace Graph

/-- `bftUp`、`bftDown` の繰り返し。`visited` は `action` を呼んだ順の名前で、`seen` と同じ集合である。
取り出したポインタの名前がグラフになければ、`nil` の参照で止まる（`none`）。燃料が尽きても `none`。 -/
def bft (g : Graph) (dir : Node → List String) :
    Nat → List (Option String) → List String → Option (List String)
  | 0, _, _ => none
  | _ + 1, [], visited => some visited
  | fuel + 1, none :: q, visited => bft g dir fuel q visited
  | fuel + 1, some x :: q, visited =>
    if x ∈ visited then bft g dir fuel q visited
    else if x ∈ g.keys then bft g dir fuel (q ++ sortedNodes (dir (g.node x))) (visited ++ [x])
    else none

/-- 一つのノードを広げたときにキューに入る要素の数の上限。 -/
def width (g : Graph) (dir : Node → List String) : Nat :=
  (g.keys.map fun k => (sortedNodes (dir (g.node k))).length).sum

/-- 繰り返しの回数の上限。取り出す要素は、始点と、各ノードを一度だけ広げて入れた要素である。 -/
def fuel (g : Graph) (dir : Node → List String) : Nat :=
  g.width dir * g.keys.length + 2

/-- 親へたどる幅優先の走査（`bftUp`）。 -/
def bftUp (g : Graph) (start : Option String) : Option (List String) :=
  g.bft Node.parents (g.fuel Node.parents) [start] []

/-- 子へたどる幅優先の走査（`bftDown`）。 -/
def bftDown (g : Graph) (start : Option String) : Option (List String) :=
  g.bft Node.children (g.fuel Node.children) [start] []

/-- `Scores` の `action`：訪れた各ノードから子へたどって数え、自分と番兵の 2 を引く。番兵は報告しない。 -/
def scoreAll (g : Graph) : List String → Option (List ScoreName)
  | [] => some []
  | t :: ts => do
    let downs ← g.bftDown (some t)
    let rest ← g.scoreAll ts
    pure (if t = csName then rest else ⟨(downs.length : Int) - 2, t⟩ :: rest)

/-- `Scores`：番兵から親へたどり、得点の大きい順に安定に並べる。番兵を加えたグラフも返す。 -/
def scores (g : Graph) : Option (Graph × List ScoreName) := do
  let (g, cs) := g.childSentinel
  let ups ← g.bftUp cs
  let rs ← g.scoreAll ups
  pure (g, rs.insertionSort fun a b => b.score ≤ a.score)

/-- `ReadyItems`：得点の順に、親のないノードの名前を返す。番兵のほかにノードがあるのに一つも返せなければ、
閉路の誤りを返す。 -/
def readyItems (g : Graph) : Option (Graph × List String × Option String) := do
  let (g, sns) ← g.scores
  let result := (sns.filter fun sn => (g.node sn.name).parents = []).map (·.name)
  pure (g, result, if 1 < g.keys.length ∧ result = [] then some "Cycle detected." else none)

/-! ## 準備ができたものを取り除く繰り返し（`Test_graph_cycle` のループ） -/

/-- 一回り：`ReadyItems` の返した名前を、順に `RemoveItem` で取り除く。
止まるか誤りが返れば `none`。 -/
def round (g : Graph) : Option (Graph × List String) :=
  match g.readyItems with
  | some (g, ready, none) =>
    match ready.foldlM Graph.removeItem g with
    | .ok g => some (g, ready)
    | .error _ => none
  | _ => none

/-- `n` 回りの繰り返し。各回りで取り除いた名前の並びを返す。 -/
def rounds : Nat → Graph → Option (Graph × List (List String))
  | 0, g => some (g, [])
  | n + 1, g => do
    let (g, r) ← g.round
    let (g, rs) ← rounds n g
    pure (g, r :: rs)

end Graph

/-- `Relate` の呼び出しの並びで作ったグラフ。 -/
def build (calls : List (Option String × String)) : Graph :=
  calls.foldl (fun g c => g.relate c.1 c.2) Graph.empty

/-- 呼び出しの並びの辺：`p` は `c` の親である。 -/
def Edge (calls : List (Option String × String)) (p c : String) : Prop := (some p, c) ∈ calls

/-- `Relate` の並び `calls` で作ったグラフに、`ReadyItems` と `RemoveItem` を何回か呼んだ後のグラフ。
`RemoveItem` が誤りを返したときは、グラフは変わらない。 -/
inductive Reached (calls : List (Option String × String)) : Graph → Prop
  | build : Reached calls (build calls)
  | readyItems {g g' : Graph} {r : List String} {e : Option String} :
      Reached calls g → g.readyItems = some (g', r, e) → Reached calls g'
  | removeItem {g g' : Graph} {x : String} : Reached calls g → g.removeItem x = .ok g' → Reached calls g'

end Maestro.Scheduler
