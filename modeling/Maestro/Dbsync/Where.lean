import Mathlib.Data.List.Basic

/-!
# WHERE の式と SQL の優先順位

`PrimitiveSelect` の `Where` は文字列で、`wrapMyStmt` はそれに `" AND "` と `" c > ?"` を足す。データベースは
文字列を空白で区切った字句の並びとして読み、足した文字列の字句は、元の字句の後に足した字句が続いたもの
になる。そこで `Where` を字句の並びで表し、SQL の文法で式に読む。`NOT` は `AND` より、`AND` は `OR`
より強く結ぶ。括弧は式に残す（`paren`）。`AND` と `OR` は右に結ぶとして読む。どちらも結合的なので、
式の値は左に結ぶ読み方と同じである。

読み方は燃料を持つ再帰下降である。燃料を増やしても結果は変わらない（`parse_mono`）ので、字句の並びが
読める式は一つに決まる（`Parses.unique`）。読めるなら、字句の数の三倍ほどの燃料で読める（`parse_fuel`）ので、
読めるかどうかは計算で決まる（`parses_iff`）。並びの後に `AND g` を足すと、`g` は最後の `OR` の項に
結ぶ（`Parses.append_and`）。
-/

namespace Maestro.Dbsync

/-- 比べ方。 -/
inductive CmpOp
  | eq | ne | lt | le | gt | ge
  deriving DecidableEq, Repr

/-- 比べる値：数か、束縛した引数（`?`、`$1`）。 -/
inductive Operand
  | lit (v : Int)
  | param
  deriving DecidableEq, Repr

/-- 比べる式 `col op rhs`。 -/
structure Atom where
  col : String
  op : CmpOp
  rhs : Operand
  deriving DecidableEq, Repr

/-- SQL の字句。 -/
inductive Tok
  | atom (a : Atom)
  | and | or | not | lp | rp
  deriving DecidableEq, Repr

/-- WHERE の式。括弧で囲んだ式は `paren` として残す。 -/
inductive Expr
  | atom (a : Atom)
  | not (e : Expr)
  | and (e e' : Expr)
  | or (e e' : Expr)
  | paren (e : Expr)
  deriving DecidableEq, Repr

/-- 式を読む段：`OR` の並び、`AND` の並び、一つの項。 -/
inductive Level
  | or | and | unary
  deriving DecidableEq, Repr

/-- `AND` や `OR` の並びの一歩：読んだ項の次が区切り `sep` なら、続きを `rest` で読んで `mk` で結ぶ。 -/
def chain (sep : Tok) (mk : Expr → Expr → Expr) (rest : List Tok → Option (Expr × List Tok)) :
    Option (Expr × List Tok) → Option (Expr × List Tok)
  | some (e, t :: r) => if t = sep then (rest r).map fun p => (mk e p.1, p.2) else some (e, t :: r)
  | res => res

/-- 閉じ括弧を読む。 -/
def closeParen : Option (Expr × List Tok) → Option (Expr × List Tok)
  | some (e, .rp :: r) => some (.paren e, r)
  | _ => none

/-- 再帰下降で読む。返すのは読んだ式と残りの字句で、燃料が尽きるか読めなければ `none`。 -/
def parse : Nat → Level → List Tok → Option (Expr × List Tok)
  | 0, _, _ => none
  | n + 1, .or, ts => chain .or .or (parse n .or) (parse n .and ts)
  | n + 1, .and, ts => chain .and .and (parse n .and) (parse n .unary ts)
  | n + 1, .unary, .not :: ts => (parse n .unary ts).map fun p => (.not p.1, p.2)
  | _ + 1, .unary, .atom a :: ts => some (.atom a, ts)
  | n + 1, .unary, .lp :: ts => closeParen (parse n .or ts)
  | _ + 1, .unary, _ => none

/-- 字句の並び全体が式 `e` と読める。 -/
def Parses (ts : List Tok) (e : Expr) : Prop := ∃ n, parse n .or ts = some (e, [])

/-- 行：列の名前と値。 -/
abbrev TableRow := List (String × Int)

/-- 行の列の値（ない列は 0）。 -/
def TableRow.get (row : TableRow) (c : String) : Int := (row.lookup c).getD 0

/-- 比べ方の意味。 -/
def CmpOp.holds : CmpOp → Int → Int → Bool
  | .eq, a, b => a = b
  | .ne, a, b => a ≠ b
  | .lt, a, b => a < b
  | .le, a, b => a ≤ b
  | .gt, a, b => b < a
  | .ge, a, b => b ≤ a

/-- 比べる式の値。`v` は束縛した引数の値。 -/
def Atom.eval (a : Atom) (row : TableRow) (v : Int) : Bool :=
  a.op.holds (row.get a.col) (match a.rhs with | .lit x => x | .param => v)

/-- 式の値。 -/
def Expr.eval (row : TableRow) (v : Int) : Expr → Bool
  | .atom a => a.eval row v
  | .not e => !e.eval row v
  | .and e e' => e.eval row v && e'.eval row v
  | .or e e' => e.eval row v || e'.eval row v
  | .paren e => e.eval row v

/-- 字句の後に `AND g` を足した並びが読める式：`g` は右の端の `AND` の並びに結ぶ。 -/
def andLast (g : Expr) : Expr → Expr
  | .or e e' => .or e (andLast g e')
  | .and e e' => .and e (andLast g e')
  | e => .and e g

/-! ## 一歩ずつの読み方 -/

theorem parse_or (n : Nat) (ts : List Tok) :
    parse (n + 1) .or ts = chain .or .or (parse n .or) (parse n .and ts) := rfl

theorem parse_and (n : Nat) (ts : List Tok) :
    parse (n + 1) .and ts = chain .and .and (parse n .and) (parse n .unary ts) := rfl

theorem parse_not (n : Nat) (ts : List Tok) :
    parse (n + 1) .unary (.not :: ts) = (parse n .unary ts).map fun p => (.not p.1, p.2) := rfl

theorem parse_lp (n : Nat) (ts : List Tok) : parse (n + 1) .unary (.lp :: ts) = closeParen (parse n .or ts) := rfl

theorem chain_eq_some {sep : Tok} {mk : Expr → Expr → Expr} {rest : List Tok → Option (Expr × List Tok)}
    {x : Option (Expr × List Tok)} {p : Expr × List Tok} :
    chain sep mk rest x = some p ↔ ∃ e r, x = some (e, r) ∧
      ((∃ r', r = sep :: r' ∧ ∃ q, rest r' = some q ∧ p = (mk e q.1, q.2)) ∨
        (r.head? ≠ some sep ∧ p = (e, r))) := by
  constructor
  · intro h
    rcases x with _ | ⟨e, r⟩
    · cases h
    refine ⟨e, r, rfl, ?_⟩
    rcases r with _ | ⟨t, r⟩
    · exact .inr ⟨by simp, (Option.some.inj h).symm⟩
    · simp only [chain] at h
      by_cases ht : t = sep
      · subst ht
        rw [if_pos rfl] at h
        obtain ⟨q, hq, rfl⟩ := Option.map_eq_some'.1 h
        exact .inl ⟨r, rfl, q, hq, rfl⟩
      · rw [if_neg ht] at h
        exact .inr ⟨by simpa using ht, (Option.some.inj h).symm⟩
  · rintro ⟨e, r, rfl, ⟨r', rfl, q, hq, rfl⟩ | ⟨hhead, rfl⟩⟩
    · simp only [chain, if_pos rfl, hq]
      rfl
    · rcases r with _ | ⟨t, r⟩
      · rfl
      · have ht : t ≠ sep := fun h => hhead (by simp [h])
        simp only [chain, if_neg ht]

theorem closeParen_eq_some {x : Option (Expr × List Tok)} {p : Expr × List Tok} :
    closeParen x = some p ↔ ∃ e r, x = some (e, .rp :: r) ∧ p = (.paren e, r) := by
  constructor
  · intro h
    rcases x with _ | ⟨e, _ | ⟨t, r⟩⟩
    · cases h
    · cases h
    · cases t <;> first | exact ⟨e, r, rfl, (Option.some.inj h).symm⟩ | cases h
  · rintro ⟨e, r, rfl, rfl⟩
    rfl

/-- 一つの項は、原子、`NOT`、括弧のどれかである。 -/
theorem andLast_of_unary {n : Nat} {ts : List Tok} {e : Expr} {r : List Tok} (g : Expr)
    (h : parse n .unary ts = some (e, r)) : andLast g e = .and e g := by
  rcases n with _ | n
  · cases h
  rcases ts with _ | ⟨t, ts⟩
  · cases h
  cases t with
  | atom a => cases h; rfl
  | not =>
    obtain ⟨q, -, hq⟩ := Option.map_eq_some'.1 ((parse_not n ts).symm.trans h)
    cases hq; rfl
  | lp =>
    obtain ⟨e', r', -, hp⟩ := closeParen_eq_some.1 ((parse_lp n ts).symm.trans h)
    cases hp; rfl
  | _ => cases h

/-- 空の並びは読めない。 -/
theorem parse_nil : ∀ (n : Nat) (L : Level), parse n L [] = none
  | 0, _ => rfl
  | n + 1, .or => by rw [parse_or, parse_nil n .and]; rfl
  | n + 1, .and => by rw [parse_and, parse_nil n .unary]; rfl
  | _ + 1, .unary => rfl

theorem Parses.ne_nil {ts : List Tok} {e : Expr} (h : Parses ts e) : ts ≠ [] := by
  rintro rfl
  obtain ⟨n, hn⟩ := h
  rw [parse_nil] at hn
  cases hn

/-! ## 燃料 -/

/-- 項と続きの読み方が、読めたところで同じ結果を返せば、一歩の結果も同じである。 -/
theorem chain_congr {sep : Tok} {mk : Expr → Expr → Expr} {rest rest' : List Tok → Option (Expr × List Tok)}
    {x x' : Option (Expr × List Tok)} {p : Expr × List Tok}
    (hx : ∀ y, x = some y → x' = some y) (hr : ∀ r q, rest r = some q → rest' r = some q)
    (h : chain sep mk rest x = some p) : chain sep mk rest' x' = some p := by
  obtain ⟨e, r, hxe, h⟩ := chain_eq_some.1 h
  refine chain_eq_some.2 ⟨e, r, hx _ hxe, ?_⟩
  rcases h with ⟨r', rfl, q, hq, rfl⟩ | h
  · exact .inl ⟨r', rfl, q, hr _ _ hq, rfl⟩
  · exact .inr h

/-- 燃料を増やしても、読めた結果は変わらない。 -/
theorem parse_mono : ∀ {n : Nat} {L : Level} {ts : List Tok} {p : Expr × List Tok},
    parse n L ts = some p → parse (n + 1) L ts = some p
  | 0, _, _, _, h => by simp [parse] at h
  | n + 1, .or, ts, _, h => by
    rw [parse_or] at h ⊢
    exact chain_congr (fun _ => parse_mono) (fun _ _ => parse_mono) h
  | n + 1, .and, ts, _, h => by
    rw [parse_and] at h ⊢
    exact chain_congr (fun _ => parse_mono) (fun _ _ => parse_mono) h
  | n + 1, .unary, [], _, h => by simp [parse] at h
  | n + 1, .unary, .atom a :: ts, _, h => h
  | n + 1, .unary, .not :: ts, _, h => by
    rw [parse_not] at h ⊢
    obtain ⟨q, hq, rfl⟩ := Option.map_eq_some'.1 h
    rw [parse_mono hq]
    rfl
  | n + 1, .unary, .lp :: ts, _, h => by
    rw [parse_lp] at h ⊢
    obtain ⟨e, r, he, rfl⟩ := closeParen_eq_some.1 h
    rw [parse_mono he]
    rfl
  | n + 1, .unary, .and :: _, _, h | n + 1, .unary, .or :: _, _, h | n + 1, .unary, .rp :: _, _, h => by
    simp [parse] at h

theorem parse_le {n m : Nat} {L : Level} {ts : List Tok} {p : Expr × List Tok} (h : parse n L ts = some p)
    (hnm : n ≤ m) : parse m L ts = some p := by
  induction hnm with
  | refl => exact h
  | step _ ih => exact parse_mono ih

/-- 段の重み：`OR` の並びは `AND` の並びを、`AND` の並びは項を読むので、その分の燃料が要る。 -/
def Level.rank : Level → Nat
  | .or => 2
  | .and => 1
  | .unary => 0

/-- 読めた並びは字句を一つは読み、読んだ字句の数の三倍に段の重みを足した燃料で足りる。 -/
theorem parse_fuel : ∀ {n : Nat} {L : Level} {ts : List Tok} {p : Expr × List Tok},
    parse n L ts = some p →
      p.2.length < ts.length ∧ parse (3 * (ts.length - p.2.length) + L.rank) L ts = some p
  | 0, _, _, _, h => by simp [parse] at h
  | n + 1, .or, ts, p, h => by
    rw [parse_or] at h
    obtain ⟨e, r, hx, hr⟩ := chain_eq_some.1 h
    obtain ⟨hl₁, hf₁⟩ := parse_fuel hx
    rcases hr with ⟨r', rfl, q, hq, rfl⟩ | ⟨hhead, rfl⟩
    · -- `e OR q`
      obtain ⟨hl₂, hf₂⟩ := parse_fuel hq
      simp only [List.length_cons, Level.rank] at hl₁ hf₁ hf₂ ⊢
      have key : parse (3 * (ts.length - (r'.length + 1)) + 1 + (3 * (r'.length - q.2.length) + 2) + 1) .or ts =
          some (.or e q.1, q.2) := by
        rw [parse_or]
        exact chain_eq_some.2 ⟨e, _, parse_le hf₁ (by omega), .inl ⟨r', rfl, q, parse_le hf₂ (by omega), rfl⟩⟩
      exact ⟨by omega, parse_le key (by omega)⟩
    · -- `e` だけ
      refine ⟨hl₁, ?_⟩
      rw [show 3 * (ts.length - r.length) + Level.rank .or = 3 * (ts.length - r.length) + 1 + 1 from rfl, parse_or]
      exact chain_eq_some.2 ⟨e, r, hf₁, .inr ⟨hhead, rfl⟩⟩
  | n + 1, .and, ts, p, h => by
    rw [parse_and] at h
    obtain ⟨e, r, hx, hr⟩ := chain_eq_some.1 h
    obtain ⟨hl₁, hf₁⟩ := parse_fuel hx
    rcases hr with ⟨r', rfl, q, hq, rfl⟩ | ⟨hhead, rfl⟩
    · obtain ⟨hl₂, hf₂⟩ := parse_fuel hq
      simp only [List.length_cons, Level.rank] at hl₁ hf₁ hf₂ ⊢
      have key : parse (3 * (ts.length - (r'.length + 1)) + (3 * (r'.length - q.2.length) + 1) + 1) .and ts =
          some (.and e q.1, q.2) := by
        rw [parse_and]
        exact chain_eq_some.2 ⟨e, _, parse_le hf₁ (by omega), .inl ⟨r', rfl, q, parse_le hf₂ (by omega), rfl⟩⟩
      exact ⟨by omega, parse_le key (by omega)⟩
    · refine ⟨hl₁, ?_⟩
      rw [show 3 * (ts.length - r.length) + Level.rank .and = 3 * (ts.length - r.length) + 0 + 1 from rfl, parse_and]
      exact chain_eq_some.2 ⟨e, r, hf₁, .inr ⟨hhead, rfl⟩⟩
  | n + 1, .unary, [], _, h => by simp [parse] at h
  | n + 1, .unary, .atom a :: ts, p, h => by
    cases h
    exact ⟨by simp, parse_le (n := 1) rfl (by simp [Level.rank])⟩
  | n + 1, .unary, .not :: ts, p, h => by
    rw [parse_not] at h
    obtain ⟨q, hq, rfl⟩ := Option.map_eq_some'.1 h
    obtain ⟨hl, hf⟩ := parse_fuel hq
    simp only [Level.rank, List.length_cons, Nat.add_zero] at hl hf ⊢
    have key : parse (3 * (ts.length - q.2.length) + 1) .unary (.not :: ts) = some (.not q.1, q.2) := by
      rw [parse_not, hf]
      rfl
    exact ⟨by omega, parse_le key (by omega)⟩
  | n + 1, .unary, .lp :: ts, p, h => by
    rw [parse_lp] at h
    obtain ⟨e, r, he, rfl⟩ := closeParen_eq_some.1 h
    obtain ⟨hl, hf⟩ := parse_fuel he
    simp only [Level.rank, List.length_cons, Nat.add_zero] at hl hf ⊢
    have key : parse (3 * (ts.length - (r.length + 1)) + 2 + 1) .unary (.lp :: ts) = some (.paren e, r) := by
      rw [parse_lp, hf]
      rfl
    exact ⟨by omega, parse_le key (by omega)⟩
  | n + 1, .unary, .and :: _, _, h | n + 1, .unary, .or :: _, _, h | n + 1, .unary, .rp :: _, _, h => by
    simp [parse] at h

/-- 字句の並び `ts` を読むのに足りる燃料。 -/
def fuelFor (ts : List Tok) : Nat := 3 * ts.length + 2

/-- 並び全体が読めるかは、足りる燃料で一度読めば決まる。 -/
theorem parses_iff {ts : List Tok} {e : Expr} : Parses ts e ↔ parse (fuelFor ts) .or ts = some (e, []) :=
  ⟨fun ⟨_, h⟩ => by simpa [fuelFor, Level.rank] using (parse_fuel h).2, fun h => ⟨_, h⟩⟩

/-- 字句の並びが読める式は一つに決まる。 -/
theorem Parses.unique {ts : List Tok} {e e' : Expr} (h : Parses ts e) (h' : Parses ts e') : e = e' := by
  obtain ⟨n, hn⟩ := h
  obtain ⟨m, hm⟩ := h'
  have := (parse_le hn (Nat.le_max_left n m)).symm.trans (parse_le hm (Nat.le_max_right n m))
  simpa using this

/-! ## 後に字句を足す -/

/-- 一歩の後に字句を足す：読み残しがあれば、項と続きの読み方と同じく、足した字句はそのまま残る。 -/
theorem chain_append {sep : Tok} {mk : Expr → Expr → Expr} {rest rest' : List Tok → Option (Expr × List Tok)}
    {x x' : Option (Expr × List Tok)} {e : Expr} {r : List Tok} (s : List Tok)
    (hx : ∀ e₁ r₁, x = some (e₁, r₁) → r₁ ≠ [] → x' = some (e₁, r₁ ++ s))
    (hrest : ∀ r' e₂ r₂, rest r' = some (e₂, r₂) → r₂ ≠ [] → rest' (r' ++ s) = some (e₂, r₂ ++ s))
    (h : chain sep mk rest x = some (e, r)) (hr : r ≠ []) : chain sep mk rest' x' = some (e, r ++ s) := by
  obtain ⟨e₁, r₁, h₁, h⟩ := chain_eq_some.1 h
  rcases h with ⟨r', rfl, ⟨e₂, r₂⟩, hq, hp⟩ | ⟨hhead, hp⟩
  · obtain ⟨rfl, rfl⟩ := Prod.mk.inj hp
    exact chain_eq_some.2 ⟨e₁, _, hx _ _ h₁ (List.cons_ne_nil _ _), .inl ⟨r' ++ s, rfl, _, hrest _ _ _ hq hr, rfl⟩⟩
  · obtain ⟨rfl, rfl⟩ := Prod.mk.inj hp
    refine chain_eq_some.2 ⟨_, _, hx _ _ h₁ hr, .inr ⟨?_, rfl⟩⟩
    rwa [List.head?_append_of_ne_nil _ hr]

/-- 一つの項を読んだか、読み残しがあれば、その後に字句を足しても読み方は変わらず、足した字句は残る。 -/
theorem parse_append : ∀ {n : Nat} {L : Level} {ts : List Tok} {e : Expr} {r : List Tok} (s : List Tok),
    parse n L ts = some (e, r) → L = .unary ∨ r ≠ [] → parse n L (ts ++ s) = some (e, r ++ s)
  | 0, _, _, _, _, _, h, _ => by simp [parse] at h
  | n + 1, .or, ts, _, _, s, h, hr => by
    rw [parse_or] at h ⊢
    exact chain_append s (fun _ _ h₁ hne => parse_append s h₁ (.inr hne))
      (fun _ _ _ hq hne => parse_append s hq (.inr hne)) h (hr.resolve_left (by simp))
  | n + 1, .and, ts, _, _, s, h, hr => by
    rw [parse_and] at h ⊢
    exact chain_append s (fun _ _ h₁ _ => parse_append s h₁ (.inl rfl))
      (fun _ _ _ hq hne => parse_append s hq (.inr hne)) h (hr.resolve_left (by simp))
  | n + 1, .unary, [], _, _, _, h, _ => by simp [parse] at h
  | n + 1, .unary, .atom a :: ts, _, _, s, h, _ => by
    obtain ⟨rfl, rfl⟩ := Prod.mk.inj (Option.some.inj h)
    rfl
  | n + 1, .unary, .not :: ts, _, _, s, h, _ => by
    rw [List.cons_append, parse_not]
    rw [parse_not] at h
    obtain ⟨⟨e₁, r₁⟩, hq, hp⟩ := Option.map_eq_some'.1 h
    obtain ⟨rfl, rfl⟩ := Prod.mk.inj hp
    rw [parse_append s hq (.inl rfl)]
    rfl
  | n + 1, .unary, .lp :: ts, _, _, s, h, _ => by
    rw [List.cons_append, parse_lp]
    rw [parse_lp] at h
    obtain ⟨e₁, r₁, he, hp⟩ := closeParen_eq_some.1 h
    obtain ⟨rfl, rfl⟩ := Prod.mk.inj hp
    rw [parse_append s he (.inr (List.cons_ne_nil _ _))]
    rfl
  | n + 1, .unary, .and :: _, _, _, _, h, _ | n + 1, .unary, .or :: _, _, _, _, h, _
  | n + 1, .unary, .rp :: _, _, _, _, h, _ => by simp [parse] at h

/-- `AND` の並びの後に `AND g` を足すと、`g` はその並びの右の端に結ぶ。 -/
theorem parse_and_append_and (a : Atom) : ∀ {n : Nat} {ts : List Tok} {e : Expr},
    parse n .and ts = some (e, []) → parse (n + 1) .and (ts ++ [.and, .atom a]) = some (andLast (.atom a) e, [])
  | 0, _, _, h => by simp [parse] at h
  | n + 1, ts, e, h => by
    rw [parse_and] at h ⊢
    obtain ⟨e₁, r₁, h₁, h⟩ := chain_eq_some.1 h
    have hu := parse_mono (parse_append [.and, .atom a] h₁ (.inl rfl))
    rcases h with ⟨r', rfl, ⟨e₂, r₂⟩, hq, hp⟩ | ⟨-, hp⟩
    · obtain ⟨rfl, rfl⟩ := Prod.mk.inj hp
      exact chain_eq_some.2 ⟨e₁, _, hu, .inl ⟨_, rfl, _, parse_and_append_and a hq, rfl⟩⟩
    · obtain ⟨rfl, rfl⟩ := Prod.mk.inj hp
      rcases n with _ | n
      · cases h₁
      have hg : parse (n + 1 + 1) .and [.atom a] = some (.atom a, []) := rfl
      refine chain_eq_some.2 ⟨_, _, hu, .inl ⟨_, rfl, _, hg, ?_⟩⟩
      rw [andLast_of_unary _ h₁]

/-- `OR` の並びの後に `AND g` を足すと、`g` は最後の `OR` の項の右の端に結ぶ。 -/
theorem parse_or_append_and (a : Atom) : ∀ {n : Nat} {ts : List Tok} {e : Expr},
    parse n .or ts = some (e, []) → parse (n + 1) .or (ts ++ [.and, .atom a]) = some (andLast (.atom a) e, [])
  | 0, _, _, h => by simp [parse] at h
  | n + 1, ts, e, h => by
    rw [parse_or] at h ⊢
    obtain ⟨e₁, r₁, h₁, h⟩ := chain_eq_some.1 h
    rcases h with ⟨r', rfl, ⟨e₂, r₂⟩, hq, hp⟩ | ⟨-, hp⟩
    · obtain ⟨rfl, rfl⟩ := Prod.mk.inj hp
      have h₁' := parse_mono (parse_append [.and, .atom a] h₁ (.inr (List.cons_ne_nil _ _)))
      exact chain_eq_some.2 ⟨e₁, _, h₁', .inl ⟨_, rfl, _, parse_or_append_and a hq, rfl⟩⟩
    · obtain ⟨rfl, rfl⟩ := Prod.mk.inj hp
      exact chain_eq_some.2 ⟨_, [], parse_and_append_and a h₁, .inr ⟨by simp, rfl⟩⟩

/-- 読める並びの後に `AND g` を足した並びは、`andLast g` の式と読める。 -/
theorem Parses.append_and {ts : List Tok} {e : Expr} (h : Parses ts e) (a : Atom) :
    Parses (ts ++ [.and, .atom a]) (andLast (.atom a) e) :=
  let ⟨n, hn⟩ := h
  ⟨n + 1, parse_or_append_and a hn⟩

/-! ## 式の値 -/

end Maestro.Dbsync
