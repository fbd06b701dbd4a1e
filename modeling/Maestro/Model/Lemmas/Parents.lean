import Maestro.Model.Parents

/-!
# 親の表を拾う関数の補題

`tablesInQuery` が拾う名前は、注釈を除いた字句の並びで、`FROM`、`JOIN`、`TABLE_DATE_RANGE` の直後にある
字句である。`ParseTableSpec` は引用された四つの形を正しく分け、引用されていない名前を三つの空の文字列にする。
`tablesAsMap` と `singleTableParents` は、それぞれ一つの補題で述べる。
-/

namespace Maestro.Model

open Go Bq

/-! ## 字句 -/

theorem pair_infix_cons {kw tok t : String} {ts : List String} :
    [kw, tok] <:+: t :: ts ↔ (kw = t ∧ ts.head? = some tok) ∨ [kw, tok] <:+: ts := by
  rw [List.infix_cons_iff, List.cons_prefix_cons]
  cases ts with
  | nil => simp
  | cons u us => simp only [List.cons_prefix_cons, List.nil_prefix, and_true, List.head?_cons, Option.some.injEq, @eq_comm _ tok]

theorem mem_collectNames {tok : String} : ∀ (getNext : Bool) (toks : List String),
    tok ∈ collectNames getNext toks ↔
      (getNext ∧ toks.head? = some tok ∧ accepted (toLower tok)) ∨
      ∃ kw, [kw, tok] <:+: toks ∧ isKeyword (toLower kw) ∧ accepted (toLower tok)
  | _, [] => by simp [collectNames]
  | getNext, t :: ts => by
    have ih := @mem_collectNames tok (isKeyword (toLower t)) ts
    simp only [collectNames, pair_infix_cons, or_and_right, exists_or, and_assoc, exists_eq_left,
      List.head?_cons, Option.some.injEq]
    split
    case isTrue h =>
      simp only [Bool.and_eq_true] at h
      rw [List.mem_cons, ih]
      constructor
      · rintro (rfl | ⟨hk, hh, ha⟩ | hx)
        · exact .inl ⟨h.1, rfl, h.2⟩
        · exact .inr (.inl ⟨hh, hk, ha⟩)
        · exact .inr (.inr hx)
      · rintro (⟨-, rfl, -⟩ | ⟨hh, hk, ha⟩ | hx)
        · exact .inl rfl
        · exact .inr (.inl ⟨hk, hh, ha⟩)
        · exact .inr (.inr hx)
    case isFalse h =>
      rw [ih]
      constructor
      · rintro (⟨hk, hh, ha⟩ | hx)
        · exact .inr (.inl ⟨hh, hk, ha⟩)
        · exact .inr (.inr hx)
      · rintro (⟨hg, rfl, ha⟩ | ⟨hh, hk, ha⟩ | hx)
        · simp [hg, ha] at h
        · exact .inl ⟨hk, hh, ha⟩
        · exact .inr hx

/-- `tablesInQuery` が返す名前は、注釈を除いた字句の並びで、次の字句を拾わせる語の直後にある、拾ってよい字句である。 -/
theorem mem_tablesInQuery {q tok : String} :
    tok ∈ tablesInQuery q ↔ ∃ kw, [kw, tok] <:+: tokens (removeSQLComments q) ∧
      isKeyword (toLower kw) ∧ accepted (toLower tok) := by
  simp [tablesInQuery, List.mem_insertionSort, List.mem_dedup, mem_collectNames]

/-- 引用の記号で始まる字句は、拾ってよい。 -/
theorem accepted_of_head {tok : String} {c : Char} (hc : c = '`' ∨ c = '[')
    (h : tok.toList.head? = some c) : accepted (toLower tok) := by
  have hh : (toLower tok).toList.head? = some c := by
    obtain ⟨_ | ⟨c', cs⟩⟩ := tok
    · cases h
    · cases h
      rcases hc with rfl | rfl <;> rfl
  simp only [accepted, Bool.and_eq_true, decide_eq_true_eq]
  refine ⟨⟨?_, ?_⟩, ?_⟩ <;> intro he <;> rw [he] at hh <;> rcases hc with rfl | rfl <;> revert hh <;> decide

/-! ## `ParseTableSpec` -/

theorem span_append_sep {sep : Char} {a b : List Char} (ha : sep ∉ a) :
    (a ++ sep :: b).span (· ≠ sep) = (a, sep :: b) := by
  have hp : ∀ x ∈ a, decide (x ≠ sep) = true := fun x hx => decide_eq_true fun h => ha (h ▸ hx)
  rw [List.span_eq_take_drop, List.takeWhile_append_of_pos hp, List.dropWhile_append_of_pos hp]
  simp

theorem splitN_of_not_mem {sep : Char} {s : List Char} (h : sep ∉ s) :
    ∀ n, splitN sep (n + 1) s = [s]
  | 0 => rfl
  | n + 1 => by
    have hp : ∀ x ∈ s, decide (x ≠ sep) = true := fun x hx => decide_eq_true fun h' => h (h' ▸ hx)
    have : s.span (· ≠ sep) = (s, []) := by
      rw [List.span_eq_take_drop, List.takeWhile_eq_self_iff.2 hp, List.dropWhile_eq_nil_iff.2 hp]
    rw [splitN, this]

@[simp] theorem splitN_one {sep : Char} {s : List Char} : splitN sep 1 s = [s] := rfl

theorem splitN_append_sep {sep : Char} {a b : List Char} (ha : sep ∉ a) (n : Nat) :
    splitN sep (n + 2) (a ++ sep :: b) = a :: splitN sep (n + 1) b := by
  rw [splitN, span_append_sep ha]

theorem toList_append (a b : String) : (a ++ b).toList = a.toList ++ b.toList :=
  String.data_append a b

theorem getLast?_cons_concat {a b : Char} {s : List Char} : (a :: (s ++ [b])).getLast? = some b := by
  rw [← List.cons_append, List.getLast?_concat]

theorem parseTableSpec_brackets (s : List Char) :
    parseTableSpec ⟨'[' :: (s ++ [']'])⟩ = some (parseLegacy s) := by
  simp [parseTableSpec, getLast?_cons_concat]

theorem parseTableSpec_backquotes (s : List Char) :
    parseTableSpec ⟨'`' :: (s ++ ['`'])⟩ = some (parseStandard s) := by
  have h2 : ¬(s.length + 1 + 1 < 2) := by omega
  simp [parseTableSpec, getLast?_cons_concat, h2]

theorem parseTableSpec_backquoted {d n : String} (hd : '.' ∉ d.toList) (hn : '.' ∉ n.toList) :
    parseTableSpec ("`" ++ d ++ "." ++ n ++ "`") = some ("", d, n) := by
  have : "`" ++ d ++ "." ++ n ++ "`" = ⟨'`' :: ((d.toList ++ '.' :: n.toList) ++ ['`'])⟩ := by
    simp [String.ext_iff, toList_append]
  rw [this, parseTableSpec_backquotes]
  simp only [parseStandard, splitN_append_sep hd, splitN_of_not_mem hn]
  rfl

theorem parseTableSpec_backquoted_project {p d n : String} (hp : '.' ∉ p.toList) (hd : '.' ∉ d.toList) :
    parseTableSpec ("`" ++ p ++ "." ++ d ++ "." ++ n ++ "`") = some (p, d, n) := by
  have : "`" ++ p ++ "." ++ d ++ "." ++ n ++ "`" =
      ⟨'`' :: ((p.toList ++ '.' :: (d.toList ++ '.' :: n.toList)) ++ ['`'])⟩ := by
    simp [String.ext_iff, toList_append]
  rw [this, parseTableSpec_backquotes]
  simp only [parseStandard, splitN_append_sep hp, splitN_append_sep hd]
  rfl

theorem parseTableSpec_bracketed {d n : String} (hd : '.' ∉ d.toList) (hcd : ':' ∉ d.toList)
    (hcn : ':' ∉ n.toList) :
    parseTableSpec ("[" ++ d ++ "." ++ n ++ "]") = some ("", d, n) := by
  have : "[" ++ d ++ "." ++ n ++ "]" = ⟨'[' :: ((d.toList ++ '.' :: n.toList) ++ [']'])⟩ := by
    simp [String.ext_iff, toList_append]
  have hc : ':' ∉ d.toList ++ '.' :: n.toList := by simp_all
  rw [this, parseTableSpec_brackets]
  simp only [parseLegacy, splitN_of_not_mem hc, splitN_append_sep hd]
  rfl

theorem parseTableSpec_bracketed_project {p d n : String} (hp : ':' ∉ p.toList) (hd : '.' ∉ d.toList) :
    parseTableSpec ("[" ++ p ++ ":" ++ d ++ "." ++ n ++ "]") = some (p, d, n) := by
  have : "[" ++ p ++ ":" ++ d ++ "." ++ n ++ "]" =
      ⟨'[' :: ((p.toList ++ ':' :: (d.toList ++ '.' :: n.toList)) ++ [']'])⟩ := by
    simp [String.ext_iff, toList_append]
  rw [this, parseTableSpec_brackets]
  simp only [parseLegacy, splitN_append_sep hp, splitN_append_sep hd, Nat.zero_add, splitN_one]
  rfl

/-- 名前が `[…]` でも `` `…` `` でもない。 -/
def Unquoted (s : String) : Prop :=
  ¬(s.toList.head? = some '[' ∧ s.toList.getLast? = some ']') ∧
  ¬(s.toList.head? = some '`' ∧ s.toList.getLast? = some '`')

instance : DecidablePred Unquoted := fun _ =>
  inferInstanceAs (Decidable (¬(_ ∧ _) ∧ ¬(_ ∧ _)))

/-- 引用されていない名前（`ds.table` や `proj.ds.table` も）は、三つの空の文字列になる。 -/
theorem parseTableSpec_of_unquoted {s : String} (h : Unquoted s) :
    parseTableSpec s = some ("", "", "") := by
  simp only [parseTableSpec, if_neg h.1, if_neg h.2]

/-- `ParseTableSpec` が止まるのは、`` ` `` 一文字のときだけである。 -/
theorem parseTableSpec_isSome {s : String} (h : s ≠ "`") : (parseTableSpec s).isSome := by
  obtain ⟨l⟩ := s
  simp only [parseTableSpec]
  split_ifs with h1 h2 h3
  · rfl
  · rcases l with _ | ⟨c, _ | ⟨c', cs⟩⟩
    · simp at h2
    · obtain rfl : c = '`' := Option.some.inj h2.1
      exact absurd rfl h
    · simp only [String.toList, List.length_cons] at h3
      omega
  · rfl
  · rfl

/-! ## 表の map と親 -/

theorem mapM_parseTableSpec : ∀ l : List String, (∀ s ∈ l, s ≠ "`") →
    ∃ specs, l.mapM parseTableSpec = some specs ∧
      ∀ r, r ∈ specs ↔ ∃ s ∈ l, parseTableSpec s = some r
  | [], _ => ⟨[], rfl, by simp⟩
  | s :: l, h => by
    obtain ⟨r, hr⟩ := Option.isSome_iff_exists.1 (parseTableSpec_isSome (h s (List.mem_cons_self _ _)))
    obtain ⟨specs, hs, hmem⟩ := mapM_parseTableSpec l fun s' hs' => h s' (List.mem_cons_of_mem _ hs')
    refine ⟨r :: specs, by rw [List.mapM_cons, hr, hs]; rfl, fun r' => ?_⟩
    simp only [List.mem_cons, hmem, or_and_right, exists_or, exists_eq_left, hr, Option.some_inj]
    exact or_congr_left eq_comm

/-- 止まらなければ、`singleTableParents` は、名前から分けたプロジェクトが空かこのプロジェクトで、
自分でなく、キーで引ける表を返す。 -/
theorem mem_singleTableParents {projectId : String} {child : Table} {all : String → Option Table}
    (h : ∀ s ∈ child.parentNames, s ≠ "`") :
    ∃ ps, singleTableParents projectId child all = some ps ∧
      ∀ t, t ∈ ps ↔ ∃ s ∈ child.parentNames, ∃ proj ds name,
        parseTableSpec s = some (proj, ds, name) ∧ (proj = "" ∨ proj = projectId) ∧
        ¬(child.dataset = ds ∧ child.name = name) ∧ all (ds ++ "." ++ name) = some t := by
  obtain ⟨specs, hs, hmem⟩ := mapM_parseTableSpec _ h
  refine ⟨_, by simp only [singleTableParents, hs]; rfl, fun t => ?_⟩
  simp only [List.mem_filterMap, List.mem_dedup, Prod.exists, hmem]
  constructor
  · rintro ⟨k, ⟨proj, ds, name, ⟨s, hs, hp⟩, hk⟩, ht⟩
    split_ifs at hk with h1 h2
    cases hk
    exact ⟨s, hs, proj, ds, name, hp, by tauto, h2, ht⟩
  · rintro ⟨s, hs, proj, ds, name, hp, hproj, hself, ht⟩
    refine ⟨_, ⟨proj, ds, name, ⟨s, hs, hp⟩, ?_⟩, ht⟩
    rw [if_neg (by tauto), if_neg hself]

theorem importDbsAsMap_isSome {dbs : List Db} {i : Nat} (h : ∃ d ∈ dbs, d.id = i) :
    (importDbsAsMap dbs i).isSome := by
  suffices ∀ (m : Nat → Option Db), ((m i).isSome ∨ ∃ d ∈ dbs, d.id = i) →
      (dbs.foldl (fun (m : Nat → Option Db) d => Function.update m d.id (some d)) m i).isSome from
    this _ (.inr h)
  clear h
  induction dbs with
  | nil => simp
  | cons d ds ih =>
    intro m hm
    refine ih _ ?_
    by_cases hd : d.id = i
    · subst hd
      exact .inl (by simp only [Function.update_same]; rfl)
    · rcases hm with hm | ⟨d', hd', rfl⟩
      · exact .inl (by simpa [Function.update_noteq (Ne.symm hd)] using hm)
      · rcases List.mem_cons.1 hd' with rfl | hd'
        · exact absurd rfl hd
        · exact .inr ⟨d', hd', rfl⟩

/-- キーで表を並べて入れていく繰り返し。どの表もキーを持たない名前は変わらず、キーを持つ表がただ一つなら、
その表が入る。 -/
theorem foldlM_update_spec {key : Table → Option String} :
    ∀ (ts : List Table) (m : String → Option Table), (∀ t ∈ ts, (key t).isSome) →
      ∃ m', ts.foldlM (fun m t => (key t).map fun k => Function.update m k (some t)) m = some m' ∧
        (∀ k, (∀ t ∈ ts, key t ≠ some k) → m' k = m k) ∧
        (∀ k t, t ∈ ts → key t = some k → (∀ t' ∈ ts, key t' = some k → t' = t) → m' k = some t)
  | [], m, _ => ⟨m, rfl, fun _ _ => rfl, by simp⟩
  | t0 :: ts, m, h => by
    obtain ⟨k0, hk0⟩ := Option.isSome_iff_exists.1 (h t0 (List.mem_cons_self _ _))
    obtain ⟨m', hm', hsame, hone⟩ := foldlM_update_spec ts (Function.update m k0 (some t0))
      fun t ht => h t (List.mem_cons_of_mem _ ht)
    refine ⟨m', by simp [List.foldlM_cons, hk0, hm'], fun k hk => ?_, fun k t ht hkt huniq => ?_⟩
    · rw [hsame k fun t ht => hk t (List.mem_cons_of_mem _ ht),
        Function.update_noteq fun h => hk t0 (List.mem_cons_self _ _) (by rw [hk0, h])]
    · by_cases hts : t ∈ ts
      · exact hone k t hts hkt fun t' ht' => huniq t' (List.mem_cons_of_mem _ ht')
      · obtain rfl : t = t0 := (List.mem_cons.1 ht).resolve_right hts
        rw [hsame k fun t' ht' hk' => hts (huniq t' (List.mem_cons_of_mem _ ht') hk' ▸ ht'),
          ← Option.some_inj.1 (hk0.symm.trans hkt), Function.update_same]

/-- import 先がそろっていれば、`tablesAsMap` は止まらない。どの表のキーでもない名前は引けず、
キーを持つ表がただ一つなら、その表が引ける。 -/
theorem tablesAsMap_spec {tables : List Table} {dbs : List Db}
    (hdb : ∀ t ∈ tables, t.isImport → ∃ d ∈ dbs, d.id = t.importDbId) :
    ∃ all, tablesAsMap (.ok tables) (.ok dbs) = some (.ok all) ∧
      (∀ k, (∀ t ∈ tables, tableKey (importDbsAsMap dbs) t ≠ some k) → all k = none) ∧
      (∀ k t, t ∈ tables → tableKey (importDbsAsMap dbs) t = some k →
        (∀ t' ∈ tables, tableKey (importDbsAsMap dbs) t' = some k → t' = t) → all k = some t) := by
  have hkey : ∀ t ∈ tables, (tableKey (importDbsAsMap dbs) t).isSome := fun t ht => by
    unfold tableKey
    split
    · rw [Option.isSome_map']
      exact importDbsAsMap_isSome (hdb t ht ‹_›)
    · rfl
  obtain ⟨all, hall, hsame, hone⟩ := foldlM_update_spec tables (fun _ => none) hkey
  exact ⟨all, by simp [tablesAsMap, hall], hsame, hone⟩

theorem tablesParents_single {projectId : String} {tables : Except String (List Table)}
    {dbs : Except String (List Db)} {c : Table} {all : String → Option Table} {ps : List Table}
    (hall : tablesAsMap tables dbs = some (.ok all)) (hc : singleTableParents projectId c all = some ps) :
    ∃ r, tablesParents projectId tables dbs [c] = some (.ok r) ∧ r c.name = some ps :=
  ⟨_, by simp [tablesParents, hall, hc]; rfl, by simp⟩

end Maestro.Model
