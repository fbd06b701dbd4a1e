import Mathlib.Data.List.Lex
import Mathlib.Data.Char
import Mathlib.Order.Basic

/-!
# Go の標準ライブラリのうち、モデルが使う部分

文字列は Unicode の文字の並び（`List Char`）で表す。Go の文字列はバイト列だが、モデルが扱う区切りや
記号はどれも ASCII の一バイトなので、バイトで数える添字と文字で数える添字は、区切りの前後で食い違わない。
-/

namespace Maestro.Go

/-- `sort.Strings` の順。UTF-8 のバイト列の辞書順は、文字の辞書順と同じである。 -/
def StringLe (a b : String) : Prop := a.toList ≤ b.toList

instance : DecidableRel StringLe := fun a b => inferInstanceAs (Decidable (a.toList ≤ b.toList))

/-- `strings.SplitN(s, sep, n)`（`n > 0`）：最初の `n - 1` 個の `sep` で切る。最後の部分は残り全部。 -/
def splitN (sep : Char) : Nat → List Char → List (List Char)
  | 0, _ => []
  | 1, s => [s]
  | n + 2, s =>
    match s.span (· ≠ sep) with
    | (before, _ :: after) => before :: splitN sep (n + 1) after
    | _ => [s]

/-- `unicode.ToLower` のうち、モデルが比べる ASCII の語に関わる部分：ASCII の大文字と、小文字が ASCII に
なる二文字（U+0130 と U+212A）。ほかの文字の小文字は ASCII でないので、比べた結果は変わらない。 -/
def toLowerRune (c : Char) : Char :=
  if 'A' ≤ c ∧ c ≤ 'Z' then Char.ofNat (c.toNat + 32)
  else if c = 'İ' then 'i'
  else if c = 'K' then 'k'
  else c

/-- `strings.ToLower`。 -/
def toLower (s : String) : String := ⟨s.toList.map toLowerRune⟩

/-- `strings.Contains`。 -/
def contains (s sub : String) : Bool := s.toList.tails.any (sub.toList.isPrefixOf ·)

/-- `strings.HasSuffix`。 -/
def hasSuffix (s suffix : String) : Bool := suffix.toList.isSuffixOf s.toList

/-- `strings.Split(s, sep)` の最後の部分：最後の `sep` の後（`sep` がなければ全体）。 -/
def lastField (s : String) (sep : Char) : String := ⟨(s.toList.reverse.takeWhile (· ≠ sep)).reverse⟩

/-- UTF-8 で数えたバイト数（`len(s)`）。 -/
def byteLen (s : List Char) : Nat := (String.mk s).utf8ByteSize

end Maestro.Go
