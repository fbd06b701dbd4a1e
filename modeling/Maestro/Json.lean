import Mathlib.Data.List.Sort
import Mathlib.Algebra.Group.Int
import Maestro.Go

/-!
# `encoding/json` のうち、モデルが使う部分

JSON は、バイト列ではなく値の木（`JValue`）で表す。`json.Marshal` が書いたバイト列を `json.Unmarshal` が
読めば、同じ木が得られる。モデルは、この一対を木の上の恒等写像とみる。数は整数だけを表す。

`json.Unmarshal` は、型の合わない値を飛ばして読み続け、最初の誤り（`*json.UnmarshalTypeError`）を最後に返す。
誤りのあとで読んだ値を呼び出し側は使わないので、モデルは最初の誤りで止める。
-/

namespace Maestro.Json

/-- JSON の値。object の members は、書かれた順に並べる。 -/
inductive JValue where
  | null
  | bool (b : Bool)
  | num (n : Int)
  | str (s : String)
  | arr (vs : List JValue)
  | obj (kvs : List (String × JValue))
  deriving Repr

/-- `*json.UnmarshalTypeError` の `Value`（JSON の値の種類）、`Type`（Go の型）、`Field`（欄の道筋）。 -/
structure UnmarshalTypeError where
  value : String
  type : String
  field : String
  deriving DecidableEq, Repr

/-- Go の `int`（64 ビット）の値。 -/
@[ext]
structure GoInt where
  val : Int
  inRange : -2 ^ 63 ≤ val ∧ val < 2 ^ 63
  deriving DecidableEq

/-- `literalStore` が JSON の値を `int` の種類の変数に読む。`null` は何もしないので、slice の要素は零のまま
残る。数は `strconv.ParseInt(s, 10, 64)` で読み、`int` に入らなければ誤りにする。 -/
def decodeInt (field type : String) : JValue → Except UnmarshalTypeError GoInt
  | .null => .ok ⟨0, by decide⟩
  | .num n => if h : -2 ^ 63 ≤ n ∧ n < 2 ^ 63 then .ok ⟨n, h⟩ else .error ⟨"number " ++ toString n, type, field⟩
  | .bool _ => .error ⟨"bool", type, field⟩
  | .str _ => .error ⟨"string", type, field⟩
  | .arr _ => .error ⟨"array", type, field⟩
  | .obj _ => .error ⟨"object", type, field⟩

/-- JSON の値を `[]T`（`T` は `int` の種類）に読む。`null` は `nil`（`none`）、配列は要素ごとに読む。 -/
def decodeInts (field elemType : String) : JValue → Except UnmarshalTypeError (Option (List GoInt))
  | .null => .ok none
  | .arr vs => (vs.mapM (decodeInt field elemType)).map some
  | .num _ => .error ⟨"number", "[]" ++ elemType, field⟩
  | .bool _ => .error ⟨"bool", "[]" ++ elemType, field⟩
  | .str _ => .error ⟨"string", "[]" ++ elemType, field⟩
  | .obj _ => .error ⟨"object", "[]" ++ elemType, field⟩

/-- `json.Marshal` が `map[string][]int` を書く：鍵を `sort.Strings` の順に並べた object。slice はどれも
`nil` でない。 -/
def marshalIntsMap (data : List (String × List Int)) : JValue :=
  .obj ((data.insertionSort fun a b => Go.StringLe a.1 b.1).map fun kv => (kv.1, .arr (kv.2.map .num)))

/-- `foldName` の一文字：ASCII の小文字を大文字に、`ſ`（U+017F）を `S` に、`K`（U+212A）を `K` にする。
Go は畳みの組のうち一番小さい文字を選ぶ。ASCII でない文字のうち、それが ASCII になるのはこの二つだけ
なので、ASCII の欄の名前と比べる限り、ほかの文字はそのままでよい。 -/
def foldRune (c : Char) : Char :=
  if 'a' ≤ c ∧ c ≤ 'z' then Char.ofNat (c.toNat - 32)
  else if c = 'ſ' then 'S'
  else if c = 'K' then 'K'
  else c

/-- `foldName`：object の鍵と struct の欄の名前は、これで畳んで等しければ一致する。 -/
def foldName (s : String) : String := ⟨s.toList.map foldRune⟩

/-! ## 整数の読み書き -/

theorem decodeInt_num (field type : String) (g : GoInt) : decodeInt field type (.num g.val) = .ok g := by
  rw [decodeInt, dif_pos g.inRange]

theorem mapM_decodeInt_num (field type : String) :
    ∀ gs : List GoInt, (gs.map fun g => JValue.num g.val).mapM (decodeInt field type) = .ok gs
  | [] => rfl
  | g :: gs => by
    rw [List.map_cons, List.mapM_cons, decodeInt_num, mapM_decodeInt_num field type gs]
    rfl

/-- `int` に入る数の配列は、その数の slice に読める。 -/
theorem decodeInts_arr (field elemType : String) (gs : List GoInt) :
    decodeInts field elemType (.arr (gs.map fun g => .num g.val)) = .ok (some gs) := by
  rw [decodeInts, mapM_decodeInt_num]
  rfl

/-- 数の配列は、数がどれも `int` に入れば、それを値とする `int` の slice に読める。 -/
theorem decodeInts_ints (field elemType : String) {ns : List Int}
    (h : ∀ n ∈ ns, -2 ^ 63 ≤ n ∧ n < 2 ^ 63) :
    ∃ gs : List GoInt, gs.map GoInt.val = ns ∧ decodeInts field elemType (.arr (ns.map .num)) = .ok (some gs) := by
  refine ⟨ns.attach.map fun n => ⟨n.1, h n.1 n.2⟩, by simp, ?_⟩
  have := decodeInts_arr field elemType (ns.attach.map fun n => ⟨n.1, h n.1 n.2⟩)
  simpa [Function.comp_def] using this

/-- `json.Marshal` が書く object の members は、`data` の組を並べ替えたものである。 -/
theorem marshalIntsMap_perm (data : List (String × List Int)) :
    ∃ kvs, marshalIntsMap data = .obj kvs ∧ kvs.Perm (data.map fun kv => (kv.1, .arr (kv.2.map .num))) :=
  ⟨_, rfl, (List.perm_insertionSort _ data).map _⟩

end Maestro.Json
