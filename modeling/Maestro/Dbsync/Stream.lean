import Maestro.Dbsync.Reader

/-!
# 読み手が渡すバイト

読み手を続けて読むと、渡すバイトと `buf` の中身を続けたものは、いつも読んだ行を順に書いたものである。
`Rows()` は読んだ行の数、`LastId()` はその最後の id である（`readAll_streamed`）。

`io.EOF` は `buf` が空のときにしか返らない。行が残っているのに返るのは、一束の `batch` 行がみな
`maxCsvSize` 以上で、空の値しか書かなかったときだけである（`readAll_eof`）。そうした 64 行が続かなければ、
`io.EOF` までに渡すバイトはすべての行を書いたものである（`readAll_eq_stream`）。続くと、そこで読むのを
やめてしまう（`pgRead_eof_before_rows`）。
-/

namespace Maestro.Dbsync

variable {α : Type} {enc : α → List UInt8}

/-! ## 行を書く -/

theorem stream_append (rs rs' : List (Row α)) : stream enc (rs ++ rs') = stream enc rs ++ stream enc rs' :=
  List.flatMap_append ..

theorem lastIdAfter_append (id₀ : String) (rs rs' : List (Row α)) :
    lastIdAfter (lastIdAfter id₀ rs) rs' = lastIdAfter id₀ (rs ++ rs') :=
  (List.foldl_append ..).symm

/-- 行の列を順に読んだ後の読み手。 -/
theorem foldl_push (rs : List (Row α)) (tr : TableReader α) :
    rs.foldl (TableReader.push enc) tr =
      { tr with
        buf := tr.buf ++ stream enc rs
        count := tr.count + rs.length
        lastId := lastIdAfter tr.lastId rs
        bytes := tr.bytes + (stream enc rs).length
        toobig := tr.toobig + (rs.filter fun r => maxCsvSize ≤ (enc r.val).length).length } := by
  induction rs generalizing tr with
  | nil => simp [stream, lastIdAfter]
  | cons r rs ih =>
    rw [List.foldl_cons, ih]
    by_cases hb : maxCsvSize ≤ (enc r.val).length <;>
      simp [TableReader.push, stream, lastIdAfter, emitted, hb, List.filter_cons] <;> omega

/-- 一束の繰り返しは、残りの行の始めの `k` 行を読む。 -/
theorem fill_eq (k : Nat) (tr : TableReader α) :
    tr.fill enc k = (tr.rows.take k).foldl (TableReader.push enc) { tr with rows := tr.rows.drop k } := by
  induction k generalizing tr with
  | zero => rfl
  | succ k ih =>
    rcases tr with ⟨_ | ⟨r, rows⟩, buf, lastId, count, bytes, toobig⟩
    · rfl
    · simp only [TableReader.fill, ih]
      rfl

/-! ## 一回の `Read` -/

/-- `Read` の二つの場合：`buf` から返すか、一束の行を読んでから返すか。 -/
theorem read_cases (tr : TableReader α) (n : Nat) :
    (tr.buf ≠ [] ∧ 0 < n ∧ tr.read enc n = ((tr.buf.take n, false), { tr with buf := tr.buf.drop n })) ∨
      ((tr.buf = [] ∨ n = 0) ∧
        tr.read enc n = ((bufRead (tr.fill enc batch).buf n).1,
          { tr.fill enc batch with buf := (bufRead (tr.fill enc batch).buf n).2 })) := by
  by_cases hb : tr.buf = []
  · right
    refine ⟨.inl hb, ?_⟩
    simp only [TableReader.read, hb, bufRead_nil, ne_eq, not_true_eq_false, if_false]
    rcases tr with ⟨rows, _, lastId, count, bytes, toobig⟩
    cases hb
    rfl
  · rcases Nat.eq_zero_or_pos n with rfl | hn
    · right
      refine ⟨.inr rfl, ?_⟩
      simp only [TableReader.read, bufRead_of_ne_nil hb, List.take_zero, List.drop_zero, ne_eq,
        not_true_eq_false, if_false]
    · left
      have : tr.buf.take n ≠ [] := by simp [List.take_eq_nil_iff, hb, hn.ne']
      exact ⟨hb, hn, by simp only [TableReader.read, bufRead_of_ne_nil hb, ne_eq, this, not_false_eq_true,
        if_true]⟩

/-- `Read` は、残りの行の始めから読む。 -/
theorem read_rows (tr : TableReader α) (n : Nat) : ∃ d, tr.rows = d ++ (tr.read enc n).2.rows := by
  rcases @read_cases _ enc tr n with ⟨-, -, h⟩ | ⟨-, h⟩ <;> rw [h]
  · exact ⟨[], rfl⟩
  · exact ⟨tr.rows.take batch, by simp [fill_eq, foldl_push]⟩

/-- `Read` が `io.EOF` を返すのは、何も返さず `buf` が空のときで、行が残っていれば、読んだ一束の行は
空の値しか書いていない。 -/
theorem read_eof {tr : TableReader α} {n : Nat} {out : List UInt8} {tr' : TableReader α}
    (h : tr.read enc n = ((out, true), tr')) :
    out = [] ∧ tr'.buf = [] ∧
      (tr'.rows = [] ∨ ∃ c, tr.rows = c ++ tr'.rows ∧ c.length = batch ∧ stream enc c = []) := by
  rcases @read_cases _ enc tr n with ⟨-, -, h'⟩ | ⟨-, h'⟩ <;> rw [h'] at h
  · simp at h
  · have hfill : (tr.fill enc batch).buf = [] := by
      by_contra hne
      simp [bufRead_of_ne_nil hne] at h
    simp only [hfill, bufRead_nil, Prod.mk.injEq] at h
    obtain ⟨⟨rfl, -⟩, rfl⟩ := h
    refine ⟨rfl, rfl, ?_⟩
    simp only [fill_eq, foldl_push, List.append_eq_nil] at hfill ⊢
    rcases le_or_lt tr.rows.length batch with hle | hlt
    · exact .inl (List.drop_eq_nil_of_le hle)
    · exact .inr ⟨tr.rows.take batch, (List.take_append_drop _ _).symm,
        List.length_take_of_le hlt.le, hfill.2⟩

/-! ## 続けて読む -/

/-- 読み手の不変条件：元の行 `rows₀` のうち読んだ行 `c` のあとに残りの行が続き、渡したバイト `out` と
`buf` の中身を続けると `c` を書いたもの、`Rows()` は `c` の長さ、`LastId()` は `c` の最後の id、
`Bytes()` は書いたバイトの数。 -/
def Streamed (enc : α → List UInt8) (rows₀ : List (Row α)) (id₀ : String) (out : List UInt8)
    (tr : TableReader α) : Prop :=
  ∃ c, rows₀ = c ++ tr.rows ∧ tr.count = c.length ∧ out ++ tr.buf = stream enc c ∧
    tr.lastId = lastIdAfter id₀ c ∧ tr.bytes = (stream enc c).length

theorem streamed_new (rows₀ : List (Row α)) (id₀ : String) :
    Streamed enc rows₀ id₀ [] (TableReader.new rows₀ id₀) :=
  ⟨[], rfl, rfl, rfl, rfl, rfl⟩

/-- 一回の `Read` は不変条件を保つ。 -/
theorem Streamed.read {rows₀ : List (Row α)} {id₀ : String} {out : List UInt8} {tr : TableReader α}
    (h : Streamed enc rows₀ id₀ out tr) (n : Nat) :
    Streamed enc rows₀ id₀ (out ++ (tr.read enc n).1.1) (tr.read enc n).2 := by
  obtain ⟨c, hrows, hcount, hout, hid, hbytes⟩ := h
  rcases @read_cases _ enc tr n with ⟨-, -, h'⟩ | ⟨-, h'⟩ <;> rw [h']
  · refine ⟨c, hrows, hcount, ?_, hid, hbytes⟩
    simp only [List.append_assoc, List.take_append_drop, hout]
  · rw [fill_eq, foldl_push]
    refine ⟨c ++ tr.rows.take batch, by simp [hrows], by simp [hcount], ?_, by simp [hid, lastIdAfter_append],
      by simp [hbytes, stream_append]⟩
    rw [List.append_assoc, bufRead_append]
    simp [← List.append_assoc, hout, stream_append]

/-- 何回読んでも不変条件は保たれる。 -/
theorem Streamed.readAll {rows₀ : List (Row α)} {id₀ : String} :
    ∀ (ns : List Nat) {out : List UInt8} {tr : TableReader α}, Streamed enc rows₀ id₀ out tr →
      Streamed enc rows₀ id₀ (out ++ (tr.readAll enc ns).1) (tr.readAll enc ns).2.2
  | [], _, _, h => by simpa [TableReader.readAll] using h
  | n :: ns, out, tr, h => by
    have h₁ := h.read n
    rcases hr : tr.read enc n with ⟨⟨o, _ | _⟩, tr₁⟩ <;> rw [hr] at h₁ <;>
      simp only [TableReader.readAll, hr]
    · simpa [List.append_assoc] using Streamed.readAll ns h₁
    · exact h₁

/-- 続けて読んで `io.EOF` が来たら、`buf` は空で、行が残っていれば、その前に `batch` 行続けて空の値しか
書かなかった。 -/
theorem readAll_eof : ∀ (ns : List Nat) (tr : TableReader α), (tr.readAll enc ns).2.1 = true →
    (tr.readAll enc ns).2.2.buf = [] ∧ ((tr.readAll enc ns).2.2.rows = [] ∨
      ∃ c₁ c₂, tr.rows = c₁ ++ c₂ ++ (tr.readAll enc ns).2.2.rows ∧ c₂.length = batch ∧ stream enc c₂ = [])
  | [], _, h => by simp [TableReader.readAll] at h
  | n :: ns, tr, h => by
    rcases hr : tr.read enc n with ⟨⟨o, _ | _⟩, tr₁⟩ <;> simp only [TableReader.readAll, hr] at h ⊢
    · obtain ⟨hbuf, hrest⟩ := readAll_eof ns tr₁ h
      refine ⟨hbuf, hrest.imp_right ?_⟩
      rintro ⟨c₁, c₂, hrows, hlen, hs⟩
      obtain ⟨d, hd⟩ := @read_rows _ enc tr n
      rw [hr] at hd
      exact ⟨d ++ c₁, c₂, by rw [hd, hrows]; simp, hlen, hs⟩
    · obtain ⟨-, hbuf, hrest⟩ := read_eof hr
      exact ⟨hbuf, hrest.imp_right fun ⟨c, hc⟩ => ⟨[], c, by simpa using hc.1, hc.2⟩⟩

/-- 続けて読むと、渡したバイトと `buf` の中身を続けたものは、読んだ行を順に書いたものである。`Rows()`
は読んだ行の数、`LastId()` はその最後の id、`Bytes()` は書いたバイトの数。 -/
theorem readAll_streamed (rows₀ : List (Row α)) (id₀ : String) (ns : List Nat) :
    Streamed enc rows₀ id₀ ((TableReader.new rows₀ id₀).readAll enc ns).1
      ((TableReader.new rows₀ id₀).readAll enc ns).2.2 := by
  simpa using (@streamed_new _ enc rows₀ id₀).readAll ns

/-- どの読み方でも、渡したバイトと `buf` の中身を続けたものは、読んだ行を順に書いたものである
（`readAll_streamed`）。どこにも、空の値しか書かない `batch` 行が続かなければ、`io.EOF` までに渡すバイトは
すべての行を順に書いたもので、`Rows()` は行の数、`LastId()` は最後の行の id である。 -/
theorem readAll_eq_stream (rows₀ : List (Row α)) (id₀ : String) (ns : List Nat) :
    Streamed enc rows₀ id₀ ((TableReader.new rows₀ id₀).readAll enc ns).1
        ((TableReader.new rows₀ id₀).readAll enc ns).2.2 ∧
      ((∀ c₁ c₂ c₃, rows₀ = c₁ ++ c₂ ++ c₃ → c₂.length = batch → stream enc c₂ ≠ []) →
        ((TableReader.new rows₀ id₀).readAll enc ns).2.1 = true →
        ((TableReader.new rows₀ id₀).readAll enc ns).1 = stream enc rows₀ ∧
          ((TableReader.new rows₀ id₀).readAll enc ns).2.2.count = rows₀.length ∧
          ((TableReader.new rows₀ id₀).readAll enc ns).2.2.lastId = lastIdAfter id₀ rows₀) := by
  refine ⟨readAll_streamed rows₀ id₀ ns, fun hrun heof => ?_⟩
  obtain ⟨hbuf, hrest⟩ := readAll_eof ns _ heof
  have hnil : ((TableReader.new rows₀ id₀).readAll enc ns).2.2.rows = [] := by
    refine hrest.resolve_right ?_
    rintro ⟨c₁, c₂, hrows, hlen, hs⟩
    exact hrun c₁ c₂ _ hrows hlen hs
  obtain ⟨c, hrows, hcount, hout, hid, -⟩ := @readAll_streamed _ enc rows₀ id₀ ns
  rw [hnil, List.append_nil] at hrows
  subst hrows
  rw [hbuf, List.append_nil] at hout
  exact ⟨hout, hcount, hid⟩

/-- 値 `(1)` の、id `7` の一行。 -/
def oneRow : List (Row RowText) := [⟨"7", ⟨[40, 49, 41], by decide⟩⟩]

theorem readAll_eq_stream_one_row :
    Streamed pgVal oneRow "" ((TableReader.new oneRow "").readAll pgVal [5, 5]).1
        ((TableReader.new oneRow "").readAll pgVal [5, 5]).2.2 ∧
      ((TableReader.new oneRow "").readAll pgVal [5, 5]).1 = stream pgVal oneRow ∧
      ((TableReader.new oneRow "").readAll pgVal [5, 5]).2.2.count = 1 ∧
      ((TableReader.new oneRow "").readAll pgVal [5, 5]).2.2.lastId = lastIdAfter "" oneRow :=
  ⟨(readAll_eq_stream oneRow "" [5, 5]).1, (readAll_eq_stream oneRow "" [5, 5]).2
    (fun c₁ c₂ c₃ h hlen => absurd (congrArg List.length h) (by simp [oneRow, batch] at hlen ⊢; omega))
    (by decide)⟩

/-! ## 空の値しか書かない一束 -/

/-- 始めの `batch` 行がみな `maxCsvSize` 以上で、次の行がそうでなければ、`pgTableReader` の最初の `Read`
は何も返さず `io.EOF` を返し、次の行を残したまま読むのをやめる。行を書いたものは空でない。 -/
theorem pgRead_eof_before_rows (big : List (Row RowText)) (hlen : big.length = batch)
    (hbig : ∀ x ∈ big, maxCsvSize < x.val.bytes.length) (r : Row RowText)
    (hr : r.val.bytes.length ≤ maxCsvSize) (rest : List (Row RowText)) (id₀ : String) (n : Nat)
    (hn : 0 < n) :
    pgRead (TableReader.new (big ++ r :: rest) id₀) n =
        (([], true), ⟨r :: rest, [], lastIdAfter id₀ big, batch, 0, batch⟩) ∧
      stream pgVal (big ++ r :: rest) ≠ [] := by
  have hempty : stream pgVal big = [] := by
    simp only [stream, List.flatMap_eq_nil_iff, emitted, pgVal_length]
    intro x hx
    rw [if_pos (by have := hbig x hx; omega)]
  have hfilter : (big.filter fun x => maxCsvSize ≤ x.val.bytes.length - 1) = big := by
    rw [List.filter_eq_self]
    intro x hx
    have := hbig x hx
    simp only [decide_eq_true_eq]
    omega
  have htake : (big ++ r :: rest).take batch = big := by rw [← hlen, List.take_left]
  have hdrop : (big ++ r :: rest).drop batch = r :: rest := by rw [← hlen, List.drop_left]
  refine ⟨?_, ?_⟩
  · rcases @read_cases _ pgVal (TableReader.new (big ++ r :: rest) id₀) n with ⟨hb, -⟩ | ⟨-, h⟩
    · exact absurd rfl hb
    · rw [pgRead, h]
      simp [fill_eq, foldl_push, TableReader.new, htake, hdrop, hempty, hfilter, hlen, hn]
  · have := r.val.two_le
    have hemit : emitted pgVal r.val = pgVal r.val := if_neg (by rw [pgVal_length]; omega)
    simp [stream_append, hempty, stream, hemit, pgVal]

theorem pgRead_eof_before_rows_at_start :
    pgRead (TableReader.new (List.replicate 64 (⟨"1", ⟨List.replicate (maxCsvSize + 1) 40,
          by rw [List.length_replicate]; decide⟩⟩ : Row RowText) ++ [⟨"2", ⟨[40, 41], by decide⟩⟩]) "") 1 =
        (([], true), ⟨[⟨"2", ⟨[40, 41], by decide⟩⟩], [],
          lastIdAfter "" (List.replicate 64 (⟨"1", ⟨List.replicate (maxCsvSize + 1) 40,
            by rw [List.length_replicate]; decide⟩⟩ : Row RowText)), batch, 0, batch⟩) ∧
      stream pgVal (List.replicate 64 (⟨"1", ⟨List.replicate (maxCsvSize + 1) 40,
        by rw [List.length_replicate]; decide⟩⟩ : Row RowText) ++ [⟨"2", ⟨[40, 41], by decide⟩⟩]) ≠ [] :=
  pgRead_eof_before_rows _ (by simp [batch]) (by simp only [List.mem_replicate]; rintro x ⟨-, rfl⟩; simp) _
    (by simp [maxCsvSize]) [] "" 1 (by decide)

end Maestro.Dbsync
