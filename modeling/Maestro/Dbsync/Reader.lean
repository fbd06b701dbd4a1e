import Mathlib.Data.List.Basic

/-!
# 表の読み手（`pgTableReader.Read`、`myTableReader.Read`）

二つの読み手の `Read` は、行の書き方のほかは同じ形をしている。中の `bytes.Buffer` に何か残っていれば
それを返す。空なら、行を `batch`（64）行まで読んで、一行ずつ書いた値を `buf` に足し（`maxCsvSize`
以上の値は空にする）、そのあと `buf` から返す。`runImport` は `compress` を `false` で渡すので、gzip の
枝はない。`cntReport` は数を報せるだけで、返すものを変えない。

行は `rows.Next` が返す順の列とし、`Scan` は失敗しないとする。Postgres の行は `ROW(t.*)` の文字で、
`(` と `)` に囲まれているので二バイト以上ある。MySQL の行は id の他の列の `sql.NullString` で、
`csv.Writer`（区切り `,`、`UseCRLF` なし）で一行にする。
-/

namespace Maestro.Dbsync

/-! ## `bytes.Buffer` -/

/-- `bytes.Buffer.Read(p)`（`len(p)` が `n`）：中が空なら何も返さず、`p` が空でなければ `io.EOF`。
そうでなければ `p` に入るだけ返す。返すのは、読んだバイトと `io.EOF` か、と残り。 -/
def bufRead (buf : List UInt8) (n : Nat) : (List UInt8 × Bool) × List UInt8 :=
  if buf = [] then (([], decide (0 < n)), []) else ((buf.take n, false), buf.drop n)

@[simp] theorem bufRead_nil (n : Nat) : bufRead [] n = (([], decide (0 < n)), []) := rfl

theorem bufRead_of_ne_nil {buf : List UInt8} (h : buf ≠ []) (n : Nat) :
    bufRead buf n = ((buf.take n, false), buf.drop n) := if_neg h

/-- 読んだバイトと残りを続けると、読む前の中身である。 -/
theorem bufRead_append (buf : List UInt8) (n : Nat) :
    (bufRead buf n).1.1 ++ (bufRead buf n).2 = buf := by
  by_cases h : buf = []
  · simp [h]
  · simp [bufRead_of_ne_nil h]

/-! ## 読み手 -/

/-- `maxCsvSize`：10 MiB。 -/
def maxCsvSize : Nat := 1024 * 1024 * 10

/-- 一度に読む行の数（`batch: 64`）。 -/
def batch : Nat := 64

/-- `rows.Next` と `Scan` が返す一行：最初の列（id の列、なければ `-1`）と、残りの値。 -/
structure Row (α : Type) where
  id : String
  val : α
  deriving DecidableEq, Repr

/-- 読み手の状態：まだ読んでいない行、`buf` の中身、`lastId`、`count`、`bytes`、`toobig`。 -/
structure TableReader (α : Type) where
  rows : List (Row α)
  buf : List UInt8
  lastId : String
  count : Nat
  bytes : Nat
  toobig : Nat
  deriving DecidableEq, Repr

/-- `newPgTableReader` と `newMysqlTableReader` が作る読み手：`lastId` は表の `LastId`。 -/
def TableReader.new {α : Type} (rows : List (Row α)) (lastId : String) : TableReader α :=
  ⟨rows, [], lastId, 0, 0, 0⟩

section Read

variable {α : Type} (enc : α → List UInt8)

/-- 一行が `buf` に書く値：`maxCsvSize` 以上なら空。 -/
def emitted (v : α) : List UInt8 := if maxCsvSize ≤ (enc v).length then [] else enc v

/-- 読んだ一行を数え、id を覚え、値を `buf` に書く。 -/
def TableReader.push (tr : TableReader α) (r : Row α) : TableReader α :=
  { tr with
    count := tr.count + 1
    lastId := r.id
    toobig := if maxCsvSize ≤ (enc r.val).length then tr.toobig + 1 else tr.toobig
    bytes := tr.bytes + (emitted enc r.val).length
    buf := tr.buf ++ emitted enc r.val }

/-- `for i := 0; i < tr.batch; i++` の繰り返し：`k` 回まで、行があれば読んで書く。 -/
def TableReader.fill : Nat → TableReader α → TableReader α
  | 0, tr => tr
  | k + 1, tr =>
    match tr.rows with
    | [] => tr
    | r :: rows => fill k ({ tr with rows }.push enc r)

/-- `Read(p)`（`len(p)` が `n`）：返したバイトと `io.EOF` か、と読み手。`buf` から何か返せればそれで
終わり、そうでなければ一束の行を読んでから `buf` から返す。 -/
def TableReader.read (tr : TableReader α) (n : Nat) : (List UInt8 × Bool) × TableReader α :=
  let ((out, eof), buf) := bufRead tr.buf n
  if out ≠ [] then ((out, eof), { tr with buf })
  else
    let tr := fill enc batch { tr with buf }
    let (res, buf) := bufRead tr.buf n
    (res, { tr with buf })

/-- 読み手を続けて読む（`gcs.Insert` が読むように）：`ns` は呼ぶたびの `len(p)`。最初の `io.EOF` で
止まる。返すのは、渡したバイト、`io.EOF` が来たか、読み手。 -/
def TableReader.readAll : List Nat → TableReader α → List UInt8 × Bool × TableReader α
  | [], tr => ([], false, tr)
  | n :: ns, tr =>
    match tr.read enc n with
    | ((out, true), tr) => (out, true, tr)
    | ((out, false), tr) =>
      let (rest, eof, tr) := readAll ns tr
      (out ++ rest, eof, tr)

/-- 行の列を順に書いたもの。 -/
def stream (rs : List (Row α)) : List UInt8 := rs.flatMap fun r => emitted enc r.val

/-- 行の列を読んだ後の最後の id。 -/
def lastIdAfter (id₀ : String) (rs : List (Row α)) : String := rs.foldl (fun _ r => r.id) id₀

end Read

/-! ## Postgres の読み手 -/

/-- `ROW(t.*)` の文字：`(` と `)` に囲まれているので、二バイト以上ある。 -/
structure RowText where
  bytes : List UInt8
  two_le : 2 ≤ bytes.length
  deriving DecidableEq, Repr

/-- `pgTableReader.Read` の一行の値：始めの `(` を除き、終わりの `)` を改行にする。 -/
def pgVal (v : RowText) : List UInt8 := (v.bytes.drop 1).dropLast ++ [10]

/-- `pgTableReader.Read`。 -/
def pgRead (tr : TableReader RowText) (n : Nat) : (List UInt8 × Bool) × TableReader RowText :=
  tr.read pgVal n

@[simp] theorem pgVal_length (v : RowText) : (pgVal v).length = v.bytes.length - 1 := by
  have := v.two_le
  simp only [pgVal, List.length_append, List.length_dropLast, List.length_drop, List.length_singleton]
  omega

/-! ## MySQL の読み手 -/

/-- `unicode.IsSpace`。 -/
def isSpace (c : Char) : Bool :=
  c = '\t' || c = '\n' || c = '\u000b' || c = '\u000c' || c = '\r' || c = ' ' || c = '\u0085' ||
    c = '\u00a0' || c = '\u1680' || ('\u2000' ≤ c && c ≤ '\u200a') || c = '\u2028' || c = '\u2029' ||
    c = '\u202f' || c = '\u205f' || c = '\u3000'

/-- `csv.Writer.fieldNeedsQuotes`（区切り `,`）。 -/
def fieldNeedsQuotes (field : String) : Bool :=
  if field = "" then false
  else if field = "\\." then true
  else field.any (fun c => c = '\n' || c = '\r' || c = '"' || c = ',') || isSpace field.front

/-- 引用符で囲んだ欄：中の `"` は二つにする（`UseCRLF` なしなので改行はそのまま）。 -/
def quoteField (field : String) : String :=
  "\"" ++ String.join (field.toList.map fun c => if c = '"' then "\"\"" else c.toString) ++ "\""

/-- `csv.Writer.Write`：欄を `,` でつなぎ、改行で終える。 -/
def csvWrite (record : List String) : String :=
  ",".intercalate (record.map fun f => if fieldNeedsQuotes f then quoteField f else f) ++ "\n"

/-- `filterInvalidUtf`：`utf8.RuneError` と NUL を除く（何もなければ元のまま、と同じ）。 -/
def filterInvalidUtf (s : String) : String := ⟨s.toList.filter fun c => c ≠ '\ufffd' && c ≠ '\u0000'⟩

/-- `myTableReader.Read` の一行の値：NULL の欄と `maxCsvSize` 以上の欄は空にして、CSV の一行の
UTF-8 のバイトにする。 -/
def myVal (cols : List (Option String)) : List UInt8 :=
  (csvWrite (cols.map fun f => match f with
    | some s => if s.utf8ByteSize < maxCsvSize then filterInvalidUtf s else ""
    | none => "")).toList.flatMap String.utf8EncodeChar

/-- `myTableReader.Read`。 -/
def myRead (tr : TableReader (List (Option String))) (n : Nat) :
    (List UInt8 × Bool) × TableReader (List (Option String)) :=
  tr.read myVal n

end Maestro.Dbsync
