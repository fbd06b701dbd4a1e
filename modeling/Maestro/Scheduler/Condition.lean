import Mathlib.Data.Option.Basic
import Maestro.Json

/-!
# 時刻の条件（`Condition`）と、その JSON

`Condition` は、月、曜日、日、時の四つの map を持つ。`Satisfied(now)` は、空でない map のどれもが `now` の
値を鍵に持つとき真である。`MarshalJSON` は、`nil` でない map の鍵を `int` にして並べた配列を、属性の名前を
鍵とする object に書く。`UnmarshalJSON` は、それを `aux` の四つの slice に読み、値を真として map に入れる。

`UnmarshalJSON` が作る map の値は、真だけである。その形の条件を JSON にして読み戻すと、どの属性の map も
`nil` でなくなり（`nil` は空の map になる）、鍵は元の map と同じで、`Satisfied` はどの時刻でも同じ答えを返す
（`unmarshalJSON_marshalJSON`）。`MarshalJSON` が書く配列は、どれも狭義の昇順である
（`marshalJSON_ascending`）。

仕様は、条件を四つの集合とし、空でない集合のどれにも時刻の値が入るとき成り立つとする（`Condition.Holds`）。
値が真だけの条件では、`Satisfied` はこれと一致し（`satisfied_eq_true_iff`）、`UnmarshalJSON` はどの JSON からも
その形の条件を作る（`unmarshalJSON_onlyTrue`）。
-/

namespace Maestro.Scheduler

open Maestro.Json

/-- `Condition` の属性：`Months`、`Weekdays`、`Days`、`Hours`。 -/
inductive Attr where
  | months
  | weekdays
  | days
  | hours
  deriving DecidableEq, Repr

namespace Attr

/-- 四つの属性。`Satisfied` も `MarshalJSON` も、この順に見る。 -/
def all : List Attr := [.months, .weekdays, .days, .hours]

/-- `aux` の欄の名前。 -/
def goName : Attr → String
  | .months => "Months"
  | .weekdays => "Weekdays"
  | .days => "Days"
  | .hours => "Hours"

/-- `aux` の欄の要素の型。 -/
def elemType : Attr → String
  | .months => "time.Month"
  | .weekdays => "time.Weekday"
  | .days => "int"
  | .hours => "int"

/-- `MarshalJSON` が `data` に書く鍵。 -/
def key : Attr → String
  | .months => "months"
  | .weekdays => "weekdays"
  | .days => "days"
  | .hours => "hours"

theorem mem_all (a : Attr) : a ∈ all := by cases a <;> decide

theorem nodup_all : all.Nodup := by decide

end Attr

/-- Go の `map[K]bool`（`K` は `int` の種類）：鍵の重ならない組の並び。並びの順は `range` の順である。 -/
structure BoolMap where
  entries : List (GoInt × Bool)
  nodup : (entries.map Prod.fst).Nodup

namespace BoolMap

/-- `make(map[K]bool)`。 -/
def empty : BoolMap := ⟨[], List.nodup_nil⟩

/-- `m[k] = b`：鍵 `k` の組を置き換える。 -/
def insert (m : BoolMap) (k : GoInt) (b : Bool) : BoolMap where
  entries := (k, b) :: m.entries.filter (·.1 != k)
  nodup := by
    rw [List.map_cons, List.nodup_cons]
    refine ⟨by simp, ?_⟩
    exact m.nodup.sublist ((List.filter_sublist _).map _)

/-- `for _, k := range ks { m[k] = true }` を、`make` した map に行う。 -/
def ofKeys (ks : List GoInt) : BoolMap := ks.foldl (fun m k => m.insert k true) empty

/-! `nil` にもなる map（`nil` は `none`）の読み方。 -/

/-- map の組。`nil` の map には組がない。 -/
def entriesOf : Option BoolMap → List (GoInt × Bool)
  | none => []
  | some m => m.entries

/-- map の鍵。 -/
def keys (m : Option BoolMap) : List GoInt := (entriesOf m).map Prod.fst

/-- `m[k]`：鍵がなければ `false`。 -/
def get (m : Option BoolMap) (k : GoInt) : Bool := ((entriesOf m).lookup k).getD false

/-- `len(m)`。 -/
def len (m : Option BoolMap) : Nat := (entriesOf m).length

/-- map の値がどれも真である。 -/
def OnlyTrue (m : Option BoolMap) : Prop := ∀ kv ∈ entriesOf m, kv.2 = true

instance (m : Option BoolMap) : Decidable (OnlyTrue m) := inferInstanceAs (Decidable (∀ kv ∈ _, _))

end BoolMap

/-- `Condition`。`nil` の map は `none`。 -/
structure Condition where
  months : Option BoolMap
  weekdays : Option BoolMap
  days : Option BoolMap
  hours : Option BoolMap

/-- `Satisfied` が読む時刻の値：`now.Month()`、`now.Weekday()`、`now.Day()`、`now.Hour()`。 -/
structure Instant where
  month : GoInt
  weekday : GoInt
  day : GoInt
  hour : GoInt

/-- 属性の map。 -/
def Condition.get (c : Condition) : Attr → Option BoolMap
  | .months => c.months
  | .weekdays => c.weekdays
  | .days => c.days
  | .hours => c.hours

/-- 属性の時刻の値。 -/
def Instant.get (now : Instant) : Attr → GoInt
  | .months => now.month
  | .weekdays => now.weekday
  | .days => now.day
  | .hours => now.hour

/-- 条件の map の値がどれも真である（`UnmarshalJSON` が作る形）。 -/
def Condition.OnlyTrue (c : Condition) : Prop := ∀ a, BoolMap.OnlyTrue (c.get a)

instance (c : Condition) : Decidable c.OnlyTrue :=
  decidable_of_iff (∀ a ∈ Attr.all, BoolMap.OnlyTrue (c.get a)) (by simp [Attr.mem_all, Condition.OnlyTrue])

/-! ## `Satisfied` -/

/-- `Satisfied` の一つの `if`：map が空でなく、時刻の値 `v` を鍵に持たなければ、満たさない。 -/
def attrSatisfied (m : Option BoolMap) (v : GoInt) : Bool := !(0 < BoolMap.len m && !BoolMap.get m v)

/-- `Satisfied`：四つの `if` を属性の順に見る。 -/
def Condition.satisfied (c : Condition) (now : Instant) : Bool :=
  Attr.all.all fun a => attrSatisfied (c.get a) (now.get a)

/-- 仕様の言葉での条件：空でない集合のどれでも、時刻の値がその集合に入る。 -/
def Condition.Holds (c : Condition) (now : Instant) : Prop :=
  ∀ a, BoolMap.keys (c.get a) ≠ [] → now.get a ∈ BoolMap.keys (c.get a)

instance (c : Condition) (now : Instant) : Decidable (c.Holds now) :=
  decidable_of_iff (∀ a ∈ Attr.all, BoolMap.keys (c.get a) ≠ [] → now.get a ∈ BoolMap.keys (c.get a))
    (by simp [Attr.mem_all, Condition.Holds])

/-! ## `MarshalJSON` と `UnmarshalJSON` -/

/-- `MarshalJSON` が map `m` から作る slice：鍵を `int` にして `sort.Ints` で並べる。 -/
def sortedKeys (m : BoolMap) : List Int := (m.entries.map fun kv => kv.1.val).insertionSort (· ≤ ·)

/-- `MarshalJSON` の `data`：`nil` でない map ごとに、属性の鍵と `sortedKeys`。 -/
def Condition.marshalData (c : Condition) : List (String × List Int) :=
  Attr.all.filterMap fun a => (c.get a).map fun m => (a.key, sortedKeys m)

/-- `MarshalJSON`。 -/
def Condition.marshalJSON (c : Condition) : JValue := marshalIntsMap c.marshalData

/-- `aux`：欄ごとの slice（`nil` は `none`）。 -/
abbrev Aux := Attr → Option (List GoInt)

/-- `aux` の欄のうち、名前が鍵 `k` と畳んで等しいもの。 -/
def fieldOf (k : String) : Option Attr := Attr.all.find? fun a => foldName k = foldName a.goName

/-- object の member を一つ読む：欄があれば、その slice を読んだ値で置き換える。なければ飛ばす。 -/
def decodeMember (aux : Aux) (kv : String × JValue) : Except UnmarshalTypeError Aux :=
  match fieldOf kv.1 with
  | none => .ok aux
  | some a => (decodeInts a.goName a.elemType kv.2).map (Function.update aux a)

/-- `aux` の型（誤りの `Type`）。 -/
def auxType : String := "struct \x7b Months []time.Month; Weekdays []time.Weekday; Days []int; Hours []int \x7d"

/-- `json.Unmarshal(data, &aux)`：`aux` はポインタなので、`null` は `aux` を `nil`（`none`）にする。 -/
def decodeAux : JValue → Except UnmarshalTypeError (Option Aux)
  | .null => .ok none
  | .obj kvs => (kvs.foldlM decodeMember fun _ => none).map some
  | .bool _ => .error ⟨"bool", auxType, ""⟩
  | .num _ => .error ⟨"number", auxType, ""⟩
  | .str _ => .error ⟨"string", auxType, ""⟩
  | .arr _ => .error ⟨"array", auxType, ""⟩

/-- `UnmarshalJSON` の四つの `for`：`make` した map に、slice の値を真として入れる。 -/
def Condition.ofAux (aux : Aux) : Condition where
  months := some (.ofKeys ((aux .months).getD []))
  weekdays := some (.ofKeys ((aux .weekdays).getD []))
  days := some (.ofKeys ((aux .days).getD []))
  hours := some (.ofKeys ((aux .hours).getD []))

/-- `UnmarshalJSON`。`null` を読むと `aux` が `nil` になり、次の `aux.Months` で止まる（`none`）。 -/
def Condition.unmarshalJSON (data : JValue) : Option (Except UnmarshalTypeError Condition) :=
  match decodeAux data with
  | .error e => some (.error e)
  | .ok none => none
  | .ok (some aux) => some (.ok (.ofAux aux))

/-- `c'` は、`c` を JSON にして読み戻した条件として正しい：値は真だけで、どの属性の map も `nil` でなく、
`c` の map と同じ鍵を持ち、どの時刻でも `Satisfied` が同じ答えを返す。 -/
structure RoundTrip (c c' : Condition) : Prop where
  onlyTrue : c'.OnlyTrue
  nonNil : ∀ a, (c'.get a).isSome
  keys : ∀ a k, k ∈ BoolMap.keys (c'.get a) ↔ k ∈ BoolMap.keys (c.get a)
  satisfied : ∀ now, c'.satisfied now = c.satisfied now

/-! ## map -/

namespace BoolMap

theorem keys_nodup (m : Option BoolMap) : (keys m).Nodup := by
  cases m with
  | none => exact List.nodup_nil
  | some m => exact m.nodup

theorem mem_keys_insert (m : BoolMap) (k k' : GoInt) (b : Bool) :
    k' ∈ keys (some (m.insert k b)) ↔ k' = k ∨ k' ∈ keys (some m) := by
  by_cases h : k' = k <;> simp [keys, entriesOf, insert, h]

theorem onlyTrue_insert {m : BoolMap} (hm : OnlyTrue (some m)) (k : GoInt) :
    OnlyTrue (some (m.insert k true)) := by
  simp only [OnlyTrue, entriesOf, insert, List.mem_cons, List.mem_filter]
  rintro kv (rfl | ⟨hkv, -⟩)
  exacts [rfl, hm kv hkv]

/-- 鍵を真として入れていく繰り返しは、値を真のまま保ち、鍵を足していく。 -/
theorem foldl_insert (ks : List GoInt) :
    ∀ m : BoolMap, OnlyTrue (some m) →
      OnlyTrue (some (ks.foldl (fun m k => m.insert k true) m)) ∧
        ∀ k, k ∈ keys (some (ks.foldl (fun m k => m.insert k true) m)) ↔ k ∈ ks ∨ k ∈ keys (some m) := by
  induction ks with
  | nil => simp
  | cons k ks ih =>
    intro m hm
    obtain ⟨h1, h2⟩ := ih (m.insert k true) (onlyTrue_insert hm k)
    refine ⟨h1, fun k' => ?_⟩
    rw [List.foldl_cons, h2, mem_keys_insert, List.mem_cons]
    tauto

theorem onlyTrue_ofKeys (ks : List GoInt) : OnlyTrue (some (ofKeys ks)) :=
  (foldl_insert ks empty (by simp [OnlyTrue, entriesOf, empty])).1

theorem mem_keys_ofKeys (ks : List GoInt) (k : GoInt) : k ∈ keys (some (ofKeys ks)) ↔ k ∈ ks := by
  have := (foldl_insert ks empty (by simp [OnlyTrue, entriesOf, empty])).2 k
  simpa [keys, entriesOf, empty] using this

theorem lookup_getD_of_onlyTrue (k : GoInt) :
    ∀ {es : List (GoInt × Bool)}, (∀ kv ∈ es, kv.2 = true) → ((es.lookup k).getD false = true ↔ k ∈ es.map Prod.fst)
  | [], _ => by simp
  | (k', b) :: es, h => by
    have hb : b = true := h _ (List.mem_cons_self _ _)
    have ih := lookup_getD_of_onlyTrue k fun kv hkv => h kv (List.mem_cons_of_mem _ hkv)
    by_cases hk : k = k'
    · subst hk
      simp [List.lookup_cons, hb]
    · have hne : (k == k') = false := beq_eq_false_iff_ne.2 hk
      simp only [List.lookup_cons, hne, List.map_cons, List.mem_cons, hk, false_or, ih]

/-- 値が真だけの map では、`m[k]` が真であることは、`k` が鍵であることである。 -/
theorem get_of_onlyTrue {m : Option BoolMap} (hm : OnlyTrue m) (k : GoInt) : get m k = true ↔ k ∈ keys m :=
  lookup_getD_of_onlyTrue k hm

/-- 同じ鍵を持つ二つの map は、同じ数の組を持つ。 -/
theorem len_eq_of_keys {m m' : Option BoolMap} (h : ∀ k, k ∈ keys m ↔ k ∈ keys m') : len m = len m' := by
  have := ((List.perm_ext_iff_of_nodup (keys_nodup m) (keys_nodup m')).2 h).length_eq
  simpa [keys, len] using this

end BoolMap

/-- 値が真だけで、同じ鍵を持つ二つの map では、`Satisfied` の `if` は同じ答えを返す。 -/
theorem attrSatisfied_congr {m m' : Option BoolMap} (hm : BoolMap.OnlyTrue m) (hm' : BoolMap.OnlyTrue m')
    (h : ∀ k, k ∈ BoolMap.keys m ↔ k ∈ BoolMap.keys m') (v : GoInt) :
    attrSatisfied m v = attrSatisfied m' v := by
  have hget : BoolMap.get m v = BoolMap.get m' v :=
    Bool.eq_iff_iff.2 ((BoolMap.get_of_onlyTrue hm v).trans ((h v).trans (BoolMap.get_of_onlyTrue hm' v).symm))
  simp only [attrSatisfied, BoolMap.len_eq_of_keys h, hget]

/-! ## 書いて読み戻す -/

theorem ofAux_get (aux : Aux) (a : Attr) : (Condition.ofAux aux).get a = some (.ofKeys ((aux a).getD [])) := by
  cases a <;> rfl

theorem fieldOf_key (a : Attr) : fieldOf a.key = some a := by cases a <;> decide

theorem mem_sortedKeys (m : BoolMap) (n : Int) : n ∈ sortedKeys m ↔ ∃ k ∈ BoolMap.keys (some m), k.val = n := by
  simp [sortedKeys, (List.perm_insertionSort _ _).mem_iff, BoolMap.keys, BoolMap.entriesOf]

theorem sortedKeys_ascending (m : BoolMap) : (sortedKeys m).Sorted (· < ·) := by
  refine (List.sorted_insertionSort _ _).lt_of_le ((List.perm_insertionSort _ _).nodup_iff.2 ?_)
  have := m.nodup.map (f := GoInt.val) fun _ _ => GoInt.ext
  simpa [Function.comp_def] using this

/-- members がどれも欄の slice に読めて、欄が重ならなければ、読んだ `aux` は、member が指す欄ではその
member を読んだ値、ほかの欄では元の値である。 -/
theorem foldlM_decodeMember :
    ∀ (kvs : List (String × JValue)), (kvs.map fun kv => fieldOf kv.1).Nodup →
      (∀ kv ∈ kvs, ∃ a, fieldOf kv.1 = some a ∧ ∃ gs, decodeInts a.goName a.elemType kv.2 = .ok gs) →
      ∀ aux : Aux, ∃ aux', kvs.foldlM decodeMember aux = .ok aux' ∧
        (∀ a, ∀ kv ∈ kvs, fieldOf kv.1 = some a → decodeInts a.goName a.elemType kv.2 = .ok (aux' a)) ∧
        ∀ a, (∀ kv ∈ kvs, fieldOf kv.1 ≠ some a) → aux' a = aux a
  | [], _, _, aux => ⟨aux, rfl, by simp, fun _ _ => rfl⟩
  | kv :: kvs, hnd, hdec, aux => by
    obtain ⟨a₀, ha₀, gs₀, hgs₀⟩ := hdec kv (List.mem_cons_self _ _)
    rw [List.map_cons, List.nodup_cons] at hnd
    obtain ⟨aux', hfold, hset, hkeep⟩ :=
      foldlM_decodeMember kvs hnd.2 (fun kv' h => hdec kv' (List.mem_cons_of_mem _ h)) (Function.update aux a₀ gs₀)
    have hstep : decodeMember aux kv = .ok (Function.update aux a₀ gs₀) := by
      simp [decodeMember, ha₀, hgs₀, Except.map]
    refine ⟨aux', by rw [List.foldlM_cons, hstep]; exact hfold, fun a kv' hkv' ha => ?_, fun a ha => ?_⟩
    · rcases List.mem_cons.1 hkv' with rfl | hkv'
      · have hnone : ∀ kv'' ∈ kvs, fieldOf kv''.1 ≠ some a := fun kv'' h he =>
          hnd.1 (List.mem_map.2 ⟨kv'', h, by rw [he, ← ha]⟩)
        rw [hkeep a hnone, ← Option.some_inj.1 (ha.symm.trans ha₀), Function.update_same, ← hgs₀,
          Option.some_inj.1 (ha.symm.trans ha₀)]
      · exact hset a kv' hkv' ha
    · have hne : a ≠ a₀ := fun he => ha kv (List.mem_cons_self _ _) (he ▸ ha₀)
      rw [hkeep a fun kv' h => ha kv' (List.mem_cons_of_mem _ h), Function.update_noteq hne]

/-- 値が真だけで、どの属性でも同じ鍵を持つ二つの条件は、どの時刻でも `Satisfied` が同じ答えを返す。 -/
theorem satisfied_congr {c c' : Condition} (hc : c.OnlyTrue) (hc' : c'.OnlyTrue)
    (h : ∀ a k, k ∈ BoolMap.keys (c.get a) ↔ k ∈ BoolMap.keys (c'.get a)) (now : Instant) :
    c.satisfied now = c'.satisfied now := by
  unfold Condition.satisfied
  congr 1
  funext a
  exact attrSatisfied_congr (hc a) (hc' a) (h a) _

/-- 値が真だけの map では、`Satisfied` の `if` を通るのは、map が空か、時刻の値を鍵に持つときである。 -/
theorem attrSatisfied_eq_true_iff {m : Option BoolMap} (hm : BoolMap.OnlyTrue m) (v : GoInt) :
    attrSatisfied m v = true ↔ (BoolMap.keys m ≠ [] → v ∈ BoolMap.keys m) := by
  have hlen : 0 < BoolMap.len m ↔ BoolMap.keys m ≠ [] := by
    simp [BoolMap.len, BoolMap.keys, List.length_pos]
  rw [← BoolMap.get_of_onlyTrue hm v, ← hlen, Nat.pos_iff_ne_zero, imp_iff_not_or, not_not]
  simp [attrSatisfied]

/-- 値が真だけの条件では、`Satisfied` は仕様の言葉での意味と一致する。 -/
theorem satisfied_eq_true_iff {c : Condition} (hc : c.OnlyTrue) (now : Instant) :
    c.satisfied now = true ↔ c.Holds now := by
  rw [Condition.satisfied, List.all_eq_true]
  exact ⟨fun h a => (attrSatisfied_eq_true_iff (hc a) _).1 (h a (Attr.mem_all a)),
    fun h a _ => (attrSatisfied_eq_true_iff (hc a) _).2 (h a)⟩

theorem mem_marshalData {c : Condition} {kv : String × List Int} :
    kv ∈ c.marshalData ↔ ∃ a m, c.get a = some m ∧ (a.key, sortedKeys m) = kv := by
  simp [Condition.marshalData, Attr.mem_all]

/-- `data` の鍵は、どれも違う欄を指す。 -/
theorem marshalData_fields_nodup (c : Condition) : (c.marshalData.map fun kv => fieldOf kv.1).Nodup := by
  rw [Condition.marshalData, List.map_filterMap]
  refine Attr.nodup_all.filterMap fun a a' b hb hb' => ?_
  simp only [Option.mem_def, Option.map_map, Function.comp_def, fieldOf_key, Option.map_eq_some'] at hb hb'
  obtain ⟨_, -, rfl⟩ := hb
  obtain ⟨_, -, h⟩ := hb'
  exact (Option.some_inj.1 h).symm

/-- `MarshalJSON` が書く配列は、どれも狭義の昇順である。 -/
theorem marshalJSON_ascending (c : Condition) :
    ∃ kvs, c.marshalJSON = .obj kvs ∧ ∀ kv ∈ kvs, ∃ ns : List Int, kv.2 = .arr (ns.map .num) ∧ ns.Sorted (· < ·) := by
  obtain ⟨kvs, he, hp⟩ := marshalIntsMap_perm c.marshalData
  refine ⟨kvs, he, fun kv hkv => ?_⟩
  obtain ⟨_, hd, rfl⟩ := List.mem_map.1 (hp.mem_iff.1 hkv)
  obtain ⟨a, m, -, rfl⟩ := mem_marshalData.1 hd
  exact ⟨_, rfl, sortedKeys_ascending m⟩

/-- `MarshalJSON` が書いたものを `decodeAux` で読むと、`nil` でない属性には、その map の鍵を昇順に並べた値が、
`nil` の属性には何も入らない。 -/
theorem decodeAux_marshalJSON (c : Condition) :
    ∃ aux, decodeAux c.marshalJSON = .ok (some aux) ∧
      ∀ a, (aux a).map (·.map GoInt.val) = (c.get a).map sortedKeys := by
  obtain ⟨kvs, he, hp⟩ := marshalIntsMap_perm c.marshalData
  have hmem : ∀ kv ∈ kvs, ∃ a m, c.get a = some m ∧ kv = (a.key, .arr ((sortedKeys m).map .num)) := by
    intro kv hkv
    obtain ⟨_, hd, rfl⟩ := List.mem_map.1 (hp.mem_iff.1 hkv)
    obtain ⟨a, m, hm, rfl⟩ := mem_marshalData.1 hd
    exact ⟨a, m, hm, rfl⟩
  have hrange : ∀ m : BoolMap, ∀ n ∈ sortedKeys m, -2 ^ 63 ≤ n ∧ n < 2 ^ 63 := by
    intro m n hn
    obtain ⟨k, -, rfl⟩ := (mem_sortedKeys m n).1 hn
    exact k.inRange
  have hnd : (kvs.map fun kv => fieldOf kv.1).Nodup := by
    refine ((hp.map _).nodup_iff.2 ?_)
    simpa [List.map_map, Function.comp_def] using marshalData_fields_nodup c
  have hdec : ∀ kv ∈ kvs, ∃ a, fieldOf kv.1 = some a ∧ ∃ gs, decodeInts a.goName a.elemType kv.2 = .ok gs := by
    intro kv hkv
    obtain ⟨a, m, -, rfl⟩ := hmem kv hkv
    obtain ⟨gs, -, h⟩ := decodeInts_ints a.goName a.elemType (hrange m)
    exact ⟨a, fieldOf_key a, _, h⟩
  obtain ⟨aux, hfold, hset, hkeep⟩ := foldlM_decodeMember kvs hnd hdec fun _ => none
  refine ⟨aux, by rw [Condition.marshalJSON, he, decodeAux, hfold]; rfl, fun a => ?_⟩
  cases hca : c.get a with
  | none =>
    have hno : ∀ kv ∈ kvs, fieldOf kv.1 ≠ some a := by
      intro kv hkv hf
      obtain ⟨a', m, hm, rfl⟩ := hmem kv hkv
      rw [fieldOf_key, Option.some_inj] at hf
      rw [hf, hca] at hm
      cases hm
    rw [hkeep a hno]
    rfl
  | some m =>
    have hkv : (a.key, JValue.arr ((sortedKeys m).map .num)) ∈ kvs :=
      hp.mem_iff.2 (List.mem_map.2 ⟨_, mem_marshalData.2 ⟨a, m, hca, rfl⟩, rfl⟩)
    obtain ⟨gs, hgs, h⟩ := decodeInts_ints a.goName a.elemType (hrange m)
    have haux : aux a = some gs := by
      have := (hset a _ hkv (fieldOf_key a)).symm.trans h
      injection this
    rw [haux, Option.map_some', hgs, Option.map_some']

/-- 条件を JSON にして読み戻すと、どの属性の map も `nil` でなくなり、鍵は元の map と同じで、値は真だけである。 -/
theorem unmarshalJSON_marshalJSON_keys (c : Condition) :
    ∃ c', Condition.unmarshalJSON c.marshalJSON = some (.ok c') ∧ c'.OnlyTrue ∧
      ∀ a, (c'.get a).isSome ∧ ∀ k, k ∈ BoolMap.keys (c'.get a) ↔ k ∈ BoolMap.keys (c.get a) := by
  obtain ⟨aux, hdecode, haux⟩ := decodeAux_marshalJSON c
  refine ⟨.ofAux aux, by simp [Condition.unmarshalJSON, hdecode], fun a => ?_, fun a => ⟨by simp [ofAux_get], fun k => ?_⟩⟩
  · rw [ofAux_get]
    exact BoolMap.onlyTrue_ofKeys _
  rw [ofAux_get, BoolMap.mem_keys_ofKeys]
  have ha := haux a
  cases hca : c.get a with
  | none =>
    rw [hca, Option.map_none', Option.map_eq_none'] at ha
    simp [ha, BoolMap.keys, BoolMap.entriesOf]
  | some m =>
    rw [hca, Option.map_some', Option.map_eq_some'] at ha
    obtain ⟨gs, hgs, hval⟩ := ha
    rw [hgs, Option.getD_some, ← List.mem_map_of_injective (fun _ _ => GoInt.ext), hval, mem_sortedKeys]
    exact ⟨fun ⟨k', hk', hv⟩ => GoInt.ext hv ▸ hk', fun hk => ⟨k, hk, rfl⟩⟩

/-- 値が真だけの条件は、JSON にして読み戻しても、鍵も `Satisfied` の答えも変わらない。 -/
theorem unmarshalJSON_marshalJSON {c : Condition} (hc : c.OnlyTrue) :
    ∃ c', Condition.unmarshalJSON c.marshalJSON = some (.ok c') ∧ RoundTrip c c' := by
  obtain ⟨c', h, hc', hkeys⟩ := unmarshalJSON_marshalJSON_keys c
  exact ⟨c', h, hc', fun a => (hkeys a).1, fun a => (hkeys a).2,
    satisfied_congr hc' hc fun a => (hkeys a).2⟩

/-- `UnmarshalJSON` が読む条件は、どの JSON からでも、値が真だけである。 -/
theorem unmarshalJSON_onlyTrue {v : JValue} {c : Condition} (h : Condition.unmarshalJSON v = some (.ok c)) :
    c.OnlyTrue := by
  unfold Condition.unmarshalJSON at h
  split at h <;> cases h
  intro a
  rw [ofAux_get]
  exact BoolMap.onlyTrue_ofKeys _

end Maestro.Scheduler
