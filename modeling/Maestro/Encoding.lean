import Mathlib.Data.List.Basic
import Mathlib.Algebra.Group.Int
import Mathlib.Algebra.Group.Nat.Basic

/-!
# `encoding/base64`、`encoding/hex`、`encoding/binary` のうち、モデルが使う部分

バイトの並びは `List UInt8` で表す。Go の文字列も、そのバイトの並びで表す。

`base64.URLEncoding` は、記号 `A-Z a-z 0-9 - _` と詰め物 `=` を使う。`Encode` は 3 バイトごとに 4 つの記号を
書き、残りの 1 か 2 バイトは記号と `=` で 4 つにする。`Decode` は `decodeQuantum` を繰り返す。モデルは、その
繰り返しを、記号を一つずつ読む状態機械（`decodeFrom`）として書く。速い道（`assemble64` と `assemble32`）は、
記号が八つか四つ続くときに同じバイトを書くだけなので、モデルには現れない。

`Decode` は厳密でない。改行（CR と LF）はどこにあっても飛ばし、最後の記号の使わない下位のビットは見ない
（`decodeString_last_bits`）。そのため、同じバイトに読める文字列は一つではない。
-/

namespace Maestro.Encoding

/-- `[]byte(s)`：Go の文字列のバイト（UTF-8）。 -/
def utf8 (s : String) : List UInt8 := s.toList.flatMap String.utf8EncodeChar

/-- `byte(n)`：下位の 8 ビット。 -/
theorem toNat_toUInt8 (n : Nat) : n.toUInt8.toNat = n % 256 := by
  simp [Nat.toUInt8, UInt8.toNat, UInt8.ofNat, BitVec.toNat_ofNat]

theorem toUInt8_toNat (a : UInt8) : a.toNat.toUInt8 = a :=
  UInt8.toNat.inj (by rw [toNat_toUInt8]; exact Nat.mod_eq_of_lt a.toNat_lt_size)

namespace Base64

/-- `encodeURL` の `i` 番目の記号（`i < 64`）。 -/
def encodeSym (i : Nat) : UInt8 :=
  if i < 26 then (65 + i).toUInt8
  else if i < 52 then (97 + (i - 26)).toUInt8
  else if i < 62 then (48 + (i - 52)).toUInt8
  else if i = 62 then 45
  else 95

/-- `decodeMap`：記号の値。記号でないバイト（`0xFF`）は `none`。 -/
def decodeSym (c : UInt8) : Option Nat :=
  if 65 ≤ c.toNat ∧ c.toNat ≤ 90 then some (c.toNat - 65)
  else if 97 ≤ c.toNat ∧ c.toNat ≤ 122 then some (c.toNat - 71)
  else if 48 ≤ c.toNat ∧ c.toNat ≤ 57 then some (c.toNat + 4)
  else if c.toNat = 45 then some 62
  else if c.toNat = 95 then some 63
  else none

/-- 詰め物 `=`。 -/
def padChar : UInt8 := 61

/-- `'\n'` か `'\r'`。 -/
def isNewline (c : UInt8) : Bool := c = 10 || c = 13

/-- `Encode`。`val >> 18 & 0x3F` などは、`/` と `%` で書く。 -/
def encodeToString : List UInt8 → List UInt8
  | a :: b :: c :: rest =>
    let v := a.toNat * 65536 + b.toNat * 256 + c.toNat
    encodeSym (v / 262144 % 64) :: encodeSym (v / 4096 % 64) :: encodeSym (v / 64 % 64) :: encodeSym (v % 64) ::
      encodeToString rest
  | [a, b] =>
    let v := a.toNat * 65536 + b.toNat * 256
    [encodeSym (v / 262144 % 64), encodeSym (v / 4096 % 64), encodeSym (v / 64 % 64), padChar]
  | [a] =>
    let v := a.toNat * 65536
    [encodeSym (v / 262144 % 64), encodeSym (v / 4096 % 64), padChar, padChar]
  | [] => []

/-- `decodeQuantum` の終わり：読んだ記号の値 `dbuf`（まだ読まない所は `0`）から、`dlen - 1` 個のバイトを作る。
厳密でないので、使わない下位のビットは見ない。 -/
def quantumBytes (vals : List Nat) : List UInt8 :=
  let v := vals.getD 0 0 * 262144 + vals.getD 1 0 * 4096 + vals.getD 2 0 * 64 + vals.getD 3 0
  [(v / 65536).toUInt8, (v / 256).toUInt8, v.toUInt8].take (vals.length - 1)

/-- `Decode` の読み手の状態。`body` は一つの quantum の記号を読んでいるところ、`needPad` は `xx=` の後で
二つ目の `=` を待つところ、`trailer` は詰め物の後で、改行のほかは何も来てはいけないところ。 -/
inductive DecodeState where
  | body (vals : List Nat)
  | needPad (vals : List Nat)
  | trailer (vals : List Nat)

/-- `Decode`：`i` 番目のバイトから読む。誤りは `CorruptInputError` の位置。 -/
def decodeFrom : DecodeState → Nat → List UInt8 → Except Nat (List UInt8)
  | .body vals, i, [] => if vals = [] then .ok [] else .error (i - vals.length)
  | .needPad _, i, [] => .error i
  | .trailer vals, _, [] => .ok (quantumBytes vals)
  | .body vals, i, c :: rest =>
    match decodeSym c with
    | some v =>
      if vals.length = 3 then (decodeFrom (.body []) (i + 1) rest).map (quantumBytes (vals ++ [v]) ++ ·)
      else decodeFrom (.body (vals ++ [v])) (i + 1) rest
    | none =>
      if isNewline c then decodeFrom (.body vals) (i + 1) rest
      else if c ≠ padChar then .error i
      else if vals.length = 2 then decodeFrom (.needPad vals) (i + 1) rest
      else if vals.length = 3 then decodeFrom (.trailer vals) (i + 1) rest
      else .error i
  | .needPad vals, i, c :: rest =>
    if isNewline c then decodeFrom (.needPad vals) (i + 1) rest
    else if c = padChar then decodeFrom (.trailer vals) (i + 1) rest
    else .error (i - 1)
  | .trailer vals, i, c :: rest =>
    if isNewline c then decodeFrom (.trailer vals) (i + 1) rest else .error i

/-- `DecodeString`。誤りのときに読めたバイトは、呼び出し側が使わないので捨てる。 -/
def decodeString (s : List UInt8) : Except Nat (List UInt8) := decodeFrom (.body []) 0 s

/-- `CorruptInputError.Error()`。 -/
def corruptInputError (offset : Nat) : String := "illegal base64 data at input byte " ++ toString offset

/-! ## 書いて読む -/

/-- 記号の値を書いて読むと戻る。表の 64 通りを一つずつ確かめる。 -/
theorem decodeSym_encodeSym {k : Nat} (h : k < 64) : decodeSym (encodeSym k) = some k :=
  (by decide : ∀ k < 64, decodeSym (encodeSym k) = some k) k h

/-- 4 つの記号の値から、もとの 3 バイトが戻る。 -/
theorem quantumBytes_three (a b c : UInt8) :
    let v := a.toNat * 65536 + b.toNat * 256 + c.toNat
    quantumBytes [v / 262144 % 64, v / 4096 % 64, v / 64 % 64, v % 64] = [a, b, c] := by
  intro v
  have ha : a.toNat < 256 := a.toNat_lt_size
  have hb : b.toNat < 256 := b.toNat_lt_size
  have hc : c.toNat < 256 := c.toNat_lt_size
  have hv : v / 262144 % 64 * 262144 + v / 4096 % 64 * 4096 + v / 64 % 64 * 64 + v % 64 = v := by omega
  have h0 : (v / 65536).toUInt8 = a := UInt8.toNat.inj (by rw [toNat_toUInt8]; omega)
  have h1 : (v / 256).toUInt8 = b := UInt8.toNat.inj (by rw [toNat_toUInt8]; omega)
  have h2 : v.toUInt8 = c := UInt8.toNat.inj (by rw [toNat_toUInt8]; omega)
  simp only [quantumBytes, List.getD_cons_succ, List.getD_cons_zero, List.length_cons, List.length_nil, hv, h0,
    h1, h2]
  rfl

/-- 3 つの記号の値から、もとの 2 バイトが戻る。 -/
theorem quantumBytes_two (a b : UInt8) :
    let v := a.toNat * 65536 + b.toNat * 256
    quantumBytes [v / 262144 % 64, v / 4096 % 64, v / 64 % 64] = [a, b] := by
  intro v
  have ha : a.toNat < 256 := a.toNat_lt_size
  have hb : b.toNat < 256 := b.toNat_lt_size
  have h0 : ((v / 262144 % 64 * 262144 + v / 4096 % 64 * 4096 + v / 64 % 64 * 64 + 0) / 65536).toUInt8 = a :=
    UInt8.toNat.inj (by rw [toNat_toUInt8]; omega)
  have h1 : ((v / 262144 % 64 * 262144 + v / 4096 % 64 * 4096 + v / 64 % 64 * 64 + 0) / 256).toUInt8 = b :=
    UInt8.toNat.inj (by rw [toNat_toUInt8]; omega)
  simp only [quantumBytes, List.getD_cons_succ, List.getD_cons_zero, List.getD_nil, List.length_cons,
    List.length_nil, h0, h1]
  rfl

/-- 2 つの記号の値から、もとの 1 バイトが戻る。二つ目の記号の、使わない下位の 4 ビットはどうでもよい。 -/
theorem quantumBytes_one (a : UInt8) {k : Nat} (hk : k < 16) :
    quantumBytes [a.toNat * 65536 / 262144 % 64, a.toNat * 65536 / 4096 % 64 + k] = [a] := by
  have ha : a.toNat < 256 := a.toNat_lt_size
  have h0 : ((a.toNat * 65536 / 262144 % 64 * 262144 + (a.toNat * 65536 / 4096 % 64 + k) * 4096 + 0 * 64 + 0) /
      65536).toUInt8 = a := UInt8.toNat.inj (by rw [toNat_toUInt8]; omega)
  simp only [quantumBytes, List.getD_cons_succ, List.getD_cons_zero, List.getD_nil, List.length_cons,
    List.length_nil, h0]
  rfl

theorem decodeSym_padChar : decodeSym padChar = none := rfl

theorem isNewline_padChar : isNewline padChar = false := rfl

theorem decodeSym_encodeSym_mod (n : Nat) : decodeSym (encodeSym (n % 64)) = some (n % 64) :=
  decodeSym_encodeSym (Nat.mod_lt _ (by decide))

/-- 4 つの記号を読むと、その 3 バイトを書いて、次の quantum に進む。 -/
theorem decodeFrom_quantum (x0 x1 x2 x3 i : Nat) (rest : List UInt8) :
    decodeFrom (.body []) i
        (encodeSym (x0 % 64) :: encodeSym (x1 % 64) :: encodeSym (x2 % 64) :: encodeSym (x3 % 64) :: rest) =
      (decodeFrom (.body []) (i + 4) rest).map (quantumBytes [x0 % 64, x1 % 64, x2 % 64, x3 % 64] ++ ·) := by
  simp [decodeFrom, decodeSym_encodeSym_mod]

/-- 書いた記号の並びの後に `t` が続けば、`Decode` は書いたバイトを読み、`t` を読み続ける。 -/
theorem decodeFrom_encodeToString_append (t : List UInt8) :
    ∀ (bs : List UInt8) (i : Nat), bs.length % 3 = 0 →
      decodeFrom (.body []) i (encodeToString bs ++ t) =
        (decodeFrom (.body []) (i + (encodeToString bs).length) t).map (bs ++ ·)
  | [], i, _ => by
    show decodeFrom (.body []) i t = (decodeFrom (.body []) i t).map ([] ++ ·)
    cases decodeFrom (.body []) i t <;> rfl
  | a :: b :: c :: rest, i, h => by
    have ih := decodeFrom_encodeToString_append t rest (i + 4) (by simp at h; omega)
    have hlen : i + (encodeToString (a :: b :: c :: rest)).length = i + 4 + (encodeToString rest).length := by
      simp [encodeToString]
      omega
    rw [hlen, encodeToString, List.cons_append, List.cons_append, List.cons_append, List.cons_append,
      decodeFrom_quantum, ih, quantumBytes_three]
    cases decodeFrom (.body []) (i + 4 + (encodeToString rest).length) t <;> rfl
  | [_], _, h => by simp at h
  | [_, _], _, h => by simp at h

/-- 書いたものを読むと、もとのバイトが戻る。 -/
theorem decodeFrom_encodeToString : ∀ (bs : List UInt8) (i : Nat), decodeFrom (.body []) i (encodeToString bs) = .ok bs
  | [], _ => rfl
  | a :: b :: c :: rest, i => by
    rw [encodeToString, decodeFrom_quantum, decodeFrom_encodeToString rest, quantumBytes_three]
    rfl
  | [a, b], i => by
    simp [encodeToString, decodeFrom, decodeSym_encodeSym_mod, decodeSym_padChar, isNewline_padChar,
      quantumBytes_two]
  | [a], i => by
    have hbyte := @quantumBytes_one a 0 (by decide)
    rw [Nat.add_zero] at hbyte
    simp [encodeToString, decodeFrom, decodeSym_encodeSym_mod, decodeSym_padChar, isNewline_padChar, hbyte]

theorem decodeString_encodeToString (bs : List UInt8) : decodeString (encodeToString bs) = .ok bs :=
  decodeFrom_encodeToString bs 0

/-- 3 の倍数のバイトの後に続くバイトは、続けて書かれる。 -/
theorem encodeToString_append (t : List UInt8) :
    ∀ bs : List UInt8, bs.length % 3 = 0 → encodeToString (bs ++ t) = encodeToString bs ++ encodeToString t
  | [], _ => rfl
  | a :: b :: c :: rest, h => by
    rw [List.cons_append, List.cons_append, List.cons_append, encodeToString, encodeToString,
      encodeToString_append t rest (by simp at h; omega)]
    rfl
  | [_], h | [_, _], h => by simp at h

/-- 1 バイトの quantum の二つ目の記号は、使わない下位の 4 ビットを変えても、同じバイトに読める。 -/
theorem decodeString_last_bits {bs : List UInt8} (h : bs.length % 3 = 0) (a : UInt8) {k : Nat} (hk : k < 16) :
    decodeString (encodeToString bs ++
        [encodeSym (a.toNat * 65536 / 262144 % 64), encodeSym (a.toNat * 65536 / 4096 % 64 + k), padChar, padChar]) =
      .ok (bs ++ [a]) := by
  have ha : a.toNat < 256 := a.toNat_lt_size
  have hsym : decodeSym (encodeSym (a.toNat * 65536 / 4096 % 64 + k)) = some (a.toNat * 65536 / 4096 % 64 + k) :=
    decodeSym_encodeSym (by omega)
  rw [decodeString, decodeFrom_encodeToString_append _ bs 0 h]
  simp [decodeFrom, decodeSym_encodeSym_mod, hsym, decodeSym_padChar, isNewline_padChar, quantumBytes_one a hk,
    Except.map]

end Base64

namespace Hex

/-- `%x` の記号：`0-9` と小文字の `a-f`。 -/
def hexDigit (n : Nat) : UInt8 := if n < 10 then (48 + n).toUInt8 else (87 + n).toUInt8

/-- `fmt.Sprintf("%x", b)`：バイトごとに、上の 4 ビット、下の 4 ビットの順に記号を書く。 -/
def encodeToString (bs : List UInt8) : List UInt8 :=
  bs.flatMap fun b => [hexDigit (b.toNat / 16), hexDigit (b.toNat % 16)]

/-- `fromHexChar`：`0-9`、`a-f`、`A-F` の値。 -/
def fromHexChar (c : UInt8) : Option Nat :=
  if 48 ≤ c.toNat ∧ c.toNat ≤ 57 then some (c.toNat - 48)
  else if 97 ≤ c.toNat ∧ c.toNat ≤ 102 then some (c.toNat - 87)
  else if 65 ≤ c.toNat ∧ c.toNat ≤ 70 then some (c.toNat - 55)
  else none

/-- `hex.DecodeString` の誤り：`InvalidByteError` と `ErrLength`。 -/
inductive DecodeError where
  | invalidByte (b : UInt8)
  | length
  deriving DecidableEq, Repr

/-- `%#U`：`U+` と 4 桁の大文字の 16 進、文字が印字できれば（`strconv.IsPrint`）引用符で囲んだ文字も。 -/
def formatRune (b : UInt8) : String :=
  let digit (n : Nat) : Char := if n < 10 then Char.ofNat (48 + n) else Char.ofNat (55 + n)
  let u := "U+00" ++ String.mk [digit (b.toNat / 16), digit (b.toNat % 16)]
  if (32 ≤ b.toNat ∧ b.toNat ≤ 126) ∨ (161 ≤ b.toNat ∧ b.toNat ≠ 173) then
    u ++ " '" ++ String.mk [Char.ofNat b.toNat] ++ "'"
  else u

/-- 誤りの文（`Error()`）。 -/
def DecodeError.error : DecodeError → String
  | .invalidByte b => "encoding/hex: invalid byte: " ++ formatRune b
  | .length => "encoding/hex: odd length hex string"

/-- `hex.DecodeString`：二つずつ読む。奇数個なら、最後の記号を確かめてから `ErrLength`。 -/
def decodeString : List UInt8 → Except DecodeError (List UInt8)
  | [] => .ok []
  | [p] =>
    match fromHexChar p with
    | none => .error (.invalidByte p)
    | some _ => .error .length
  | p :: q :: rest =>
    match fromHexChar p, fromHexChar q with
    | none, _ => .error (.invalidByte p)
    | some _, none => .error (.invalidByte q)
    | some a, some b => (decodeString rest).map ((a * 16 + b).toUInt8 :: ·)

/-- 16 進の記号を書いて読むと戻る。表の 16 通りを一つずつ確かめる。 -/
theorem fromHexChar_hexDigit {n : Nat} (h : n < 16) : fromHexChar (hexDigit n) = some n :=
  (by decide : ∀ n < 16, fromHexChar (hexDigit n) = some n) n h

/-- `%x` で書いたものを読むと、もとのバイトが戻る。 -/
theorem decodeString_encodeToString : ∀ bs : List UInt8, decodeString (encodeToString bs) = .ok bs
  | [] => rfl
  | b :: bs => by
    have hb : b.toNat < 256 := b.toNat_lt_size
    have hbyte : (b.toNat / 16 * 16 + b.toNat % 16).toUInt8 = b :=
      UInt8.toNat.inj (by rw [toNat_toUInt8]; omega)
    have ih := decodeString_encodeToString bs
    simp only [encodeToString, List.flatMap_cons, List.cons_append, List.nil_append] at ih ⊢
    simp [decodeString, fromHexChar_hexDigit (Nat.div_lt_of_lt_mul (by omega : b.toNat < 16 * 16)),
      fromHexChar_hexDigit (Nat.mod_lt _ (by decide : 16 > 0)), ih, hbyte, Except.map]

end Hex

namespace BigEndian

/-- `binary.BigEndian.PutUint32`：上のバイトから 4 バイト。 -/
def putUint32 (v : Nat) : List UInt8 := [(v / 16777216).toUInt8, (v / 65536).toUInt8, (v / 256).toUInt8, v.toUInt8]

/-- `binary.BigEndian.Uint32`。 -/
def uint32 (b0 b1 b2 b3 : UInt8) : Nat := b0.toNat * 16777216 + b1.toNat * 65536 + b2.toNat * 256 + b3.toNat

theorem uint32_putUint32 {v : Nat} (h : v < 2 ^ 32) :
    uint32 ((v / 16777216).toUInt8) ((v / 65536).toUInt8) ((v / 256).toUInt8) v.toUInt8 = v := by
  simp only [uint32, toNat_toUInt8]
  omega

end BigEndian

end Maestro.Encoding
