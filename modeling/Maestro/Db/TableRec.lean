import Maestro.Scheduler.Condition

/-!
# カタログに保存する条件（`tableRecFromTable` と `tableFromTableRec`）

`tableRecFromTable` は、表の `Conditions` と `ReimportCond`（`[]*Condition`）を `json.Marshal` で JSON に
する。長さ 0 の slice は空の slice に置き換えるので、`null` ではなく `[]` を書く。`tableFromTableRec` は、
空でない JSON を `json.Unmarshal` で `[]*Condition` に読む。`null` の要素は `nil` のポインタに、ほかの要素は
新しい `Condition` の `UnmarshalJSON` で読む。

ほかの欄は、二つの関数が一つずつ写すだけなので、モデルは条件の二つの欄だけを持つ。slice は並びで表し、
`nil` と空を区別しない。

値が真だけの条件を並べた表は、保存して読み戻しても、`nil` の条件は `nil` のまま、ほかの条件は鍵も
`Satisfied` の答えも変わらない（`tableFromTableRec_tableRecFromTable`）。

表の `conditionsSatisfied` と `reimportCondSatisfied` は、条件の並びを `range` で回して `Satisfied` を呼ぶ。`nil` の
条件に来ると、`c.Months` を読んで止まる（`none`）。カタログから読んだ条件は、どの記録からでも値が真だけなので、
`nil` がなければ、二つは仕様の言葉どおりに答える：条件がないか、どれかが成り立てば走らせ、どれかが今成り立ち、
どれも `ImportedAt` で成り立たなければ再び import する（`tableFromTableRec_conditions_hold`）。
-/

namespace Maestro.Db

open Maestro.Json Maestro.Scheduler

/-- `json.Marshal` が `[]*Condition` を書く：`nil` のポインタは `null`、ほかは `MarshalJSON` が書くもの。 -/
def marshalConditions (cs : List (Option Condition)) : JValue :=
  .arr (cs.map fun o => o.elim .null Condition.marshalJSON)

/-- `json.Unmarshal` が配列の要素を `*Condition` に読む：`null` は `nil`、ほかは `UnmarshalJSON`。最初の誤り
で止まる。 -/
def unmarshalConditionList : List JValue → Option (Except UnmarshalTypeError (List (Option Condition)))
  | [] => some (.ok [])
  | .null :: vs => (unmarshalConditionList vs).map (·.map (none :: ·))
  | v :: vs =>
    match Condition.unmarshalJSON v with
    | none => none
    | some (.error e) => some (.error e)
    | some (.ok c) => (unmarshalConditionList vs).map (·.map (some c :: ·))

/-- `[]*Condition` の型（誤りの `Type`）。 -/
def conditionsType : String := "[]*scheduler.Condition"

/-- `json.Unmarshal(raw, &conditions)`：`null` は `nil` の slice、配列は要素ごとに読む。 -/
def unmarshalConditions : JValue → Option (Except UnmarshalTypeError (List (Option Condition)))
  | .null => some (.ok [])
  | .arr vs => unmarshalConditionList vs
  | .bool _ => some (.error ⟨"bool", conditionsType, ""⟩)
  | .num _ => some (.error ⟨"number", conditionsType, ""⟩)
  | .str _ => some (.error ⟨"string", conditionsType, ""⟩)
  | .obj _ => some (.error ⟨"object", conditionsType, ""⟩)

/-- `tableRec` の、条件の二つの欄：カタログから読んだ JSON。空のバイト列は `none`。 -/
structure TableRec where
  rawConditions : Option JValue
  rawReimportCond : Option JValue

/-- `model.Table` の、条件の二つの欄。 -/
structure TableConditions where
  conditions : List (Option Condition)
  reimportCond : List (Option Condition)

/-- `tableRecFromTable`。`MarshalJSON` は誤りを返さないので、`json.Marshal` も返さない。 -/
def tableRecFromTable (t : TableConditions) : TableRec :=
  ⟨some (marshalConditions t.conditions), some (marshalConditions t.reimportCond)⟩

/-- `if len(raw) > 0 { json.Unmarshal(raw, &cs) }`：空なら `nil` の slice。 -/
def readConditions : Option JValue → Option (Except UnmarshalTypeError (List (Option Condition)))
  | none => some (.ok [])
  | some v => unmarshalConditions v

/-- `tableFromTableRec`：二つの欄を順に読み、最初の誤りを返す。 -/
def tableFromTableRec (r : TableRec) : Option (Except UnmarshalTypeError TableConditions) :=
  match readConditions r.rawConditions with
  | none => none
  | some (.error e) => some (.error e)
  | some (.ok cs) =>
    match readConditions r.rawReimportCond with
    | none => none
    | some (.error e) => some (.error e)
    | some (.ok rs) => some (.ok ⟨cs, rs⟩)

/-- `c.Satisfied(now)` を `*Condition` に呼ぶ。`nil` のポインタでは `c.Months` を読んで止まる（`none`）。 -/
def satisfiedPtr (o : Option Condition) (now : Instant) : Option Bool := o.map (·.satisfied now)

/-- `for _, c := range cs { if c.Satisfied(now) { return true } }` と、回りきったときの `false`。 -/
def anySatisfied : List (Option Condition) → Instant → Option Bool
  | [], _ => some false
  | o :: os, now =>
    match satisfiedPtr o now with
    | none => none
    | some true => some true
    | some false => anySatisfied os now

/-- `conditionsSatisfied(now)`：条件がなければ満たす。 -/
def conditionsSatisfied (t : TableConditions) (now : Instant) : Option Bool :=
  if t.conditions.length = 0 then some true else anySatisfied t.conditions now

/-- `reimportCondSatisfied(now)`：どれかの条件を `now` が満たし、どの条件も `ImportedAt` が満たさないとき。
条件がなければ満たさない。 -/
def reimportCondSatisfied (t : TableConditions) (now importedAt : Instant) : Option Bool :=
  match anySatisfied t.reimportCond now with
  | none => none
  | some false => some false
  | some true => (anySatisfied t.reimportCond importedAt).map (!·)

/-! ## 保存して読み戻す -/

/-- 値が真だけの条件の並びは、JSON の配列にして読み戻すと、`nil` は `nil` のまま、ほかは `RoundTrip` の
関係にある条件になる。 -/
theorem unmarshalConditionList_marshal :
    ∀ cs : List (Option Condition), (∀ o ∈ cs, ∀ c ∈ o, c.OnlyTrue) →
      ∃ cs', unmarshalConditionList (cs.map fun o => o.elim .null Condition.marshalJSON) = some (.ok cs') ∧
        List.Forall₂ (Option.Rel RoundTrip) cs cs'
  | [], _ => ⟨[], rfl, .nil⟩
  | o :: cs, h => by
    obtain ⟨cs', hcs, hrel⟩ := unmarshalConditionList_marshal cs fun o ho => h o (List.mem_cons_of_mem _ ho)
    cases o with
    | none => exact ⟨none :: cs', by simp [unmarshalConditionList, hcs, Except.map], .cons .none hrel⟩
    | some c =>
      obtain ⟨c', hc', hrt⟩ := unmarshalJSON_marshalJSON (h _ (List.mem_cons_self _ _) c rfl)
      obtain ⟨kvs, he, -⟩ := marshalJSON_ascending c
      refine ⟨some c' :: cs', ?_, .cons (.some hrt) hrel⟩
      have hobj : Condition.unmarshalJSON (.obj kvs) = some (.ok c') := he ▸ hc'
      show unmarshalConditionList (c.marshalJSON :: _) = _
      rw [he]
      simp only [unmarshalConditionList, hobj, hcs]
      rfl

/-- 値が真だけの条件を並べた表は、保存して読み戻しても、どちらの欄でも、`nil` の条件は `nil` のまま、
ほかの条件は鍵も `Satisfied` の答えも変わらない。 -/
theorem tableFromTableRec_tableRecFromTable (t : TableConditions)
    (h : ∀ o ∈ t.conditions ++ t.reimportCond, ∀ c ∈ o, c.OnlyTrue) :
    ∃ t', tableFromTableRec (tableRecFromTable t) = some (.ok t') ∧
      List.Forall₂ (Option.Rel RoundTrip) t.conditions t'.conditions ∧
      List.Forall₂ (Option.Rel RoundTrip) t.reimportCond t'.reimportCond := by
  obtain ⟨cs, hcs, hrel⟩ := unmarshalConditionList_marshal t.conditions fun o ho => h o (List.mem_append_left _ ho)
  obtain ⟨rs, hrs, hrel'⟩ :=
    unmarshalConditionList_marshal t.reimportCond fun o ho => h o (List.mem_append_right _ ho)
  refine ⟨⟨cs, rs⟩, ?_, hrel, hrel'⟩
  simp [tableFromTableRec, tableRecFromTable, readConditions, unmarshalConditions, marshalConditions, hcs, hrs]

/-- 値が真だけの条件は、JSON にして読み戻しても、鍵も `Satisfied` の答えも変わらず、`MarshalJSON` が書く配列は
狭義の昇順である。値が真だけの条件を並べた表も、保存して読み戻して、同じことが条件ごとに成り立つ。 -/
theorem condition_json_roundtrip (c : Condition) (hc : c.OnlyTrue) (t : TableConditions)
    (ht : ∀ o ∈ t.conditions ++ t.reimportCond, ∀ c ∈ o, c.OnlyTrue) :
    (∃ c', Condition.unmarshalJSON c.marshalJSON = some (.ok c') ∧ RoundTrip c c') ∧
    (∃ kvs, c.marshalJSON = .obj kvs ∧
      ∀ kv ∈ kvs, ∃ ns : List Int, kv.2 = .arr (ns.map .num) ∧ ns.Sorted (· < ·)) ∧
    ∃ t', tableFromTableRec (tableRecFromTable t) = some (.ok t') ∧
      List.Forall₂ (Option.Rel RoundTrip) t.conditions t'.conditions ∧
      List.Forall₂ (Option.Rel RoundTrip) t.reimportCond t'.reimportCond :=
  ⟨unmarshalJSON_marshalJSON hc, marshalJSON_ascending c, tableFromTableRec_tableRecFromTable t ht⟩

/-- `TestCondition_MarshalJSON` の条件：曜日 `1` と時 `9`。 -/
def mondayAtNine : Condition where
  months := none
  weekdays := some ⟨[(⟨1, by decide⟩, true)], by decide⟩
  days := none
  hours := some ⟨[(⟨9, by decide⟩, true)], by decide⟩

theorem condition_json_roundtrip_monday_nine :
    mondayAtNine.OnlyTrue ∧ (∀ o ∈ [some mondayAtNine, none] ++ [], ∀ c ∈ o, Condition.OnlyTrue c) ∧
    (∃ c', Condition.unmarshalJSON mondayAtNine.marshalJSON = some (.ok c') ∧ RoundTrip mondayAtNine c') ∧
    (∃ kvs, mondayAtNine.marshalJSON = .obj kvs ∧
      ∀ kv ∈ kvs, ∃ ns : List Int, kv.2 = .arr (ns.map .num) ∧ ns.Sorted (· < ·)) ∧
    ∃ t', tableFromTableRec (tableRecFromTable ⟨[some mondayAtNine, none], []⟩) = some (.ok t') ∧
      List.Forall₂ (Option.Rel RoundTrip) [some mondayAtNine, none] t'.conditions ∧
      List.Forall₂ (Option.Rel RoundTrip) [] t'.reimportCond :=
  have hc : mondayAtNine.OnlyTrue := by decide
  have ht : ∀ o ∈ [some mondayAtNine, none] ++ [], ∀ c ∈ o, Condition.OnlyTrue c := by decide
  ⟨hc, ht, condition_json_roundtrip mondayAtNine hc ⟨[some mondayAtNine, none], []⟩ ht⟩

/-! ## 読んだ条件の意味 -/

theorem map_cons_eq_ok {x : Option (Except UnmarshalTypeError (List (Option Condition)))} {o : Option Condition}
    {cs : List (Option Condition)} (h : x.map (·.map (o :: ·)) = some (.ok cs)) :
    ∃ cs', x = some (.ok cs') ∧ cs = o :: cs' := by
  match x, h with
  | some (.ok cs'), h => exact ⟨cs', rfl, by cases h; rfl⟩
  | some (.error _), h => cases h

/-- JSON の配列から読んだ条件は、どれも値が真だけである。 -/
theorem unmarshalConditionList_onlyTrue (vs : List JValue) :
    ∀ {cs : List (Option Condition)}, unmarshalConditionList vs = some (.ok cs) → ∀ o ∈ cs, ∀ c ∈ o, c.OnlyTrue := by
  induction vs with
  | nil => rintro cs ⟨⟩; simp
  | cons v vs ih =>
    intro cs h
    unfold unmarshalConditionList at h
    split at h <;> rename_i heq <;> cases heq
    · obtain ⟨cs', hcs', rfl⟩ := map_cons_eq_ok h
      exact List.forall_mem_cons.2 ⟨fun c hc => (Option.not_mem_none c hc).elim, ih hcs'⟩
    · split at h
      · cases h
      · cases h
      · rename_i c' hc'
        obtain ⟨cs', hcs', rfl⟩ := map_cons_eq_ok h
        exact List.forall_mem_cons.2 ⟨fun c hc => Option.some_inj.1 hc ▸ unmarshalJSON_onlyTrue hc', ih hcs'⟩

theorem readConditions_onlyTrue {raw : Option JValue} {cs : List (Option Condition)}
    (h : readConditions raw = some (.ok cs)) : ∀ o ∈ cs, ∀ c ∈ o, c.OnlyTrue := by
  unfold readConditions at h
  split at h
  · cases h; simp
  · unfold unmarshalConditions at h
    split at h <;> try cases h
    · simp
    · exact unmarshalConditionList_onlyTrue _ h

/-- カタログから読んだ表の条件は、どれも値が真だけである。 -/
theorem tableFromTableRec_onlyTrue {r : TableRec} {t : TableConditions} (h : tableFromTableRec r = some (.ok t)) :
    ∀ o ∈ t.conditions ++ t.reimportCond, ∀ c ∈ o, c.OnlyTrue := by
  unfold tableFromTableRec at h
  split at h <;> try cases h
  split at h <;> try cases h
  rename_i cs hcs _ rs hrs
  intro o ho
  rcases List.mem_append.1 ho with ho | ho
  exacts [readConditions_onlyTrue hcs o ho, readConditions_onlyTrue hrs o ho]

/-- `nil` のない、値が真だけの条件の並びでは、`range` の繰り返しは止まらず、どれかの条件が成り立つときに
真を返す。 -/
theorem anySatisfied_spec (now : Instant) :
    ∀ {os : List (Option Condition)}, (∀ o ∈ os, ∀ c ∈ o, c.OnlyTrue) → none ∉ os →
      ∃ b, anySatisfied os now = some b ∧ (b = true ↔ ∃ c, some c ∈ os ∧ c.Holds now)
  | [], _, _ => ⟨false, rfl, by simp⟩
  | none :: _, _, hn => absurd (List.mem_cons_self _ _) hn
  | some c :: os, h, hn => by
    have hc := satisfied_eq_true_iff (h _ (List.mem_cons_self _ _) c rfl) now
    obtain ⟨b, hb, hiff⟩ := anySatisfied_spec now (fun o ho => h o (List.mem_cons_of_mem _ ho))
      (fun h' => hn (List.mem_cons_of_mem _ h'))
    cases hs : c.satisfied now
    · refine ⟨b, by simp [anySatisfied, satisfiedPtr, hs, hb], hiff.trans ?_⟩
      constructor
      · rintro ⟨c', hc', hh⟩
        exact ⟨c', List.mem_cons_of_mem _ hc', hh⟩
      · rintro ⟨c', hc', hh⟩
        rcases List.mem_cons.1 hc' with hc' | hc'
        · cases hc'
          exact absurd (hc.2 hh) (by simp [hs])
        · exact ⟨c', hc', hh⟩
    · exact ⟨true, by simp [anySatisfied, satisfiedPtr, hs], iff_of_true rfl ⟨c, List.mem_cons_self _ _, hc.1 hs⟩⟩

theorem conditionsSatisfied_spec {t : TableConditions} (ht : ∀ o ∈ t.conditions, ∀ c ∈ o, c.OnlyTrue)
    (hn : none ∉ t.conditions) (now : Instant) :
    ∃ b, conditionsSatisfied t now = some b ∧
      (b = true ↔ t.conditions = [] ∨ ∃ c, some c ∈ t.conditions ∧ c.Holds now) := by
  obtain ⟨b, hb, hiff⟩ := anySatisfied_spec now ht hn
  unfold conditionsSatisfied
  by_cases he : t.conditions = []
  · exact ⟨true, by simp [he], iff_of_true rfl (.inl he)⟩
  · exact ⟨b, by simp [he, hb], by simp [he, hiff]⟩

theorem reimportCondSatisfied_spec {t : TableConditions} (ht : ∀ o ∈ t.reimportCond, ∀ c ∈ o, c.OnlyTrue)
    (hn : none ∉ t.reimportCond) (now importedAt : Instant) :
    ∃ b, reimportCondSatisfied t now importedAt = some b ∧
      (b = true ↔ (∃ c, some c ∈ t.reimportCond ∧ c.Holds now) ∧
        ∀ c, some c ∈ t.reimportCond → ¬c.Holds importedAt) := by
  obtain ⟨b₁, hb₁, hiff₁⟩ := anySatisfied_spec now ht hn
  obtain ⟨b₂, hb₂, hiff₂⟩ := anySatisfied_spec importedAt ht hn
  unfold reimportCondSatisfied
  rw [hb₁]
  cases b₁
  · exact ⟨false, rfl, iff_of_false (by simp) fun ⟨h, _⟩ => absurd (hiff₁.2 h) (by simp)⟩
  · refine ⟨!b₂, by rw [hb₂]; rfl, ?_⟩
    rw [Bool.not_eq_true', ← Bool.not_eq_true, hiff₂]
    simp only [not_exists, not_and]
    exact ⟨fun h => ⟨hiff₁.1 rfl, h⟩, fun h => h.2⟩

/-- カタログから読んだ表の条件では、`Satisfied` は仕様の言葉での意味（`Condition.Holds`）と一致する。`nil` の
条件がなければ、`conditionsSatisfied` は止まらず、条件がないか、どれかが成り立つときに真を返す。
`reimportCondSatisfied` も止まらず、どれかが `now` で成り立ち、どれも `ImportedAt` で成り立たないときに真を
返す。 -/
theorem tableFromTableRec_conditions_hold {r : TableRec} {t : TableConditions}
    (h : tableFromTableRec r = some (.ok t)) (now importedAt : Instant) :
    (∀ o ∈ t.conditions ++ t.reimportCond, ∀ c ∈ o, (c.satisfied now = true ↔ c.Holds now)) ∧
    (none ∉ t.conditions → ∃ b, conditionsSatisfied t now = some b ∧
      (b = true ↔ t.conditions = [] ∨ ∃ c, some c ∈ t.conditions ∧ c.Holds now)) ∧
    (none ∉ t.reimportCond → ∃ b, reimportCondSatisfied t now importedAt = some b ∧
      (b = true ↔ (∃ c, some c ∈ t.reimportCond ∧ c.Holds now) ∧
        ∀ c, some c ∈ t.reimportCond → ¬c.Holds importedAt)) := by
  have ht := tableFromTableRec_onlyTrue h
  exact ⟨fun o ho c hc => satisfied_eq_true_iff (ht o ho c hc) now,
    fun hn => conditionsSatisfied_spec (fun o ho => ht o (List.mem_append_left _ ho)) hn now,
    fun hn => reimportCondSatisfied_spec (fun o ho => ht o (List.mem_append_right _ ho)) hn now importedAt⟩

/-- 条件の欄に、曜日 `1` と時 `9` の条件を一つ持つ記録。 -/
def weekdayHourRec : TableRec :=
  ⟨some (.arr [.obj [("weekdays", .arr [.num 1]), ("hours", .arr [.num 9])]]), none⟩

/-- `weekdayHourRec` から読む条件：`nil` だった map は空になる。 -/
def weekdayHourRead : Condition :=
  ⟨some (.ofKeys []), some (.ofKeys [⟨1, by decide⟩]), some (.ofKeys []), some (.ofKeys [⟨9, by decide⟩])⟩

/-- 5 月 4 日、月曜の 9 時。 -/
def mayFourthNine : Instant := ⟨⟨5, by decide⟩, ⟨1, by decide⟩, ⟨4, by decide⟩, ⟨9, by decide⟩⟩

theorem tableFromTableRec_conditions_hold_weekday_hour :
    tableFromTableRec weekdayHourRec = some (.ok ⟨[some weekdayHourRead], []⟩) ∧
    (∀ o ∈ [some weekdayHourRead] ++ [], ∀ c ∈ o,
      (c.satisfied mayFourthNine = true ↔ c.Holds mayFourthNine)) ∧
    (none ∉ [some weekdayHourRead] → ∃ b, conditionsSatisfied ⟨[some weekdayHourRead], []⟩ mayFourthNine = some b ∧
      (b = true ↔ [some weekdayHourRead] = [] ∨ ∃ c, some c ∈ [some weekdayHourRead] ∧ c.Holds mayFourthNine)) ∧
    (none ∉ ([] : List (Option Condition)) → ∃ b,
      reimportCondSatisfied ⟨[some weekdayHourRead], []⟩ mayFourthNine mayFourthNine = some b ∧
      (b = true ↔ (∃ c, some c ∈ ([] : List (Option Condition)) ∧ c.Holds mayFourthNine) ∧
        ∀ c, some c ∈ ([] : List (Option Condition)) → ¬c.Holds mayFourthNine)) :=
  have h : tableFromTableRec weekdayHourRec = some (.ok ⟨[some weekdayHourRead], []⟩) := rfl
  ⟨h, tableFromTableRec_conditions_hold h mayFourthNine mayFourthNine⟩

end Maestro.Db
