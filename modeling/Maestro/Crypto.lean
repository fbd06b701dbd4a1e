import Maestro.Encoding

/-!
# 暗号（`crypto` パッケージ）

`EncryptString(text, secret)` は、`secret` を `keyPad` で 32 バイトに伸ばした鍵で、AES-GCM の暗号を作る。乱数
から nonce を読み、`nonce ++ Seal(nonce, text)` を URL の base64 で書く。`DecryptString` は、同じ鍵を作り、
base64 を読み、最初の `NonceSize` バイトを nonce として `Open` する。

AES-GCM の中身は扱わない。同じ鍵と nonce で `Seal` したものを `Open` すれば元に戻ること（`Aead`）だけを
使う。乱数は、読み手が返すバイトの並びとして引数に取る。

`padRight` の `for` は、`p` が空でなければ必ず終わり、ちょうど `l` バイトを返す（`padRight_spec`）。`p` が
空なら終わらない（`padRightLoop_nil`）。8 バイト以上の `secret` なら、どの平文もどの nonce でも、暗号にして
戻すと元の平文になる（`decryptString_encryptString`）。
-/

namespace Maestro.Crypto

open Maestro.Encoding

/-- `keyPad`。 -/
def keyPad : List UInt8 := utf8 "l@te f33 app13z @f+r"

/-- `padRight` の `for` を、多くとも `fuel` 回まわす。回りきれば `none`。 -/
def padRightLoop (p : List UInt8) (l : Nat) : Nat → List UInt8 → Option (List UInt8)
  | 0, _ => none
  | fuel + 1, s => if (s ++ p).length > l then some ((s ++ p).take l) else padRightLoop p l fuel (s ++ p)

/-- `padRight(s, p, l)`。`l + 1` 回で終わらなければ、`p` は空で、Go の `for` は終わらない
（`padRightLoop_nil`）。 -/
def padRight (s p : List UInt8) (l : Nat) : Option (List UInt8) := padRightLoop p l (l + 1) s

/-- `aes.NewCipher(key)`：鍵は 16、24、32 バイトのどれか。 -/
def newCipher (key : List UInt8) : Except String Unit :=
  if key.length = 16 ∨ key.length = 24 ∨ key.length = 32 then .ok ()
  else .error ("crypto/aes: invalid key size " ++ toString key.length)

/-- AES-GCM（`cipher.NewGCM`）。`sealed key nonce p` は `Seal` が足す暗号文と印、`opened` は `Open`。 -/
structure Aead where
  sealed : List UInt8 → List UInt8 → List UInt8 → List UInt8
  opened : List UInt8 → List UInt8 → List UInt8 → Option (List UInt8)
  opened_sealed : ∀ key nonce p, opened key nonce (sealed key nonce p) = some p

/-- `NonceSize()`：GCM の標準の 12 バイト。 -/
def nonceSize : Nat := 12

/-- `io.ReadFull(r, buf)`：読み手 `r` の最初の `n` バイト。足りなければ誤り。 -/
def readFull (n : Nat) (r : List UInt8) : Except String (List UInt8) :=
  if n ≤ r.length then .ok (r.take n) else if r = [] then .error "EOF" else .error "unexpected EOF"

/-- `EncryptString`。`rand` は `rand.Reader` が返すバイト。`padRight` が終わらなければ `none`。 -/
def encryptString (aead : Aead) (text secret rand : List UInt8) : Option (Except String (List UInt8)) :=
  if secret.length < 8 then some (.error "secret too short")
  else (padRight secret keyPad 32).map fun padded =>
    let key := padded.take 32
    match newCipher key, readFull nonceSize rand with
    | .error e, _ => .error e
    | .ok (), .error e => .error e
    | .ok (), .ok nonce => .ok (Base64.encodeToString (nonce ++ aead.sealed key nonce text))

/-- `DecryptString`。 -/
def decryptString (aead : Aead) (text secret : List UInt8) : Option (Except String (List UInt8)) :=
  (padRight secret keyPad 32).map fun padded =>
    let key := padded.take 32
    match Base64.decodeString text, newCipher key with
    | .error off, _ => .error (Base64.corruptInputError off)
    | .ok _, .error e => .error e
    | .ok ct, .ok () =>
      if ct.length < nonceSize then .error ("Ciphertext too short: " ++ toString ct.length)
      else match aead.opened key (ct.take nonceSize) (ct.drop nonceSize) with
        | none => .error "cipher: message authentication failed"
        | some p => .ok p

/-- `GenerateToken`：乱数の 32 バイト。 -/
def generateToken (rand : List UInt8) : Except String (List UInt8) := readFull 32 rand

/-! ## `padRight` -/

/-- `p` が空で、`s` が `l` バイトを超えなければ、`for` はいつまでも終わらない。 -/
theorem padRightLoop_nil {l : Nat} : ∀ (fuel : Nat) (s : List UInt8), s.length ≤ l → padRightLoop [] l fuel s = none
  | 0, _, _ => rfl
  | fuel + 1, s, h => by
    simp only [padRightLoop, List.append_nil, gt_iff_lt, Nat.not_lt.2 h, if_false]
    exact padRightLoop_nil fuel s h

theorem length_flatten_replicate (p : List UInt8) : ∀ n, ((List.replicate n p).flatten).length = n * p.length
  | 0 => (Nat.zero_mul _).symm
  | n + 1 => by
    rw [List.replicate_succ, List.flatten_cons, List.length_append, length_flatten_replicate p n, Nat.succ_mul,
      Nat.add_comm]

/-- `p` が空でなく、残りの回数が足りれば、`for` は `s` に `p` を足していった並びの、最初の `l` バイトを返す。 -/
theorem padRightLoop_spec {p : List UInt8} (hp : p ≠ []) {l : Nat} :
    ∀ (fuel : Nat) (s : List UInt8), 0 < fuel → l + 1 ≤ s.length + fuel →
      padRightLoop p l fuel s = some ((s ++ (List.replicate fuel p).flatten).take l)
  | fuel + 1, s, _, h => by
    have hlen : 1 ≤ p.length := List.length_pos.2 hp
    simp only [padRightLoop, List.replicate_succ, List.flatten_cons, ← List.append_assoc]
    split_ifs with hl
    · rw [@List.take_append_of_le_length _ (s ++ p) _ _ (by omega)]
    · simp only [List.length_append, gt_iff_lt, Nat.not_lt] at hl
      exact padRightLoop_spec hp fuel (s ++ p) (by omega) (by simp only [List.length_append]; omega)

/-- `p` が空でなければ、`padRight` は終わり、ちょうど `l` バイトを返す。 -/
theorem padRight_spec (s : List UInt8) {p : List UInt8} (hp : p ≠ []) (l : Nat) :
    ∃ r, padRight s p l = some r ∧ r.length = l := by
  refine ⟨_, padRightLoop_spec hp (l + 1) s (by omega) (by omega), ?_⟩
  have : l + 1 ≤ ((List.replicate (l + 1) p).flatten).length := by
    rw [length_flatten_replicate]
    exact Nat.le_mul_of_pos_right _ (List.length_pos.2 hp)
  simp only [List.length_take, List.length_append]
  omega

theorem keyPad_ne_nil : keyPad ≠ [] := by decide

/-- どの `secret` からも、鍵は 32 バイトになる。 -/
theorem padRight_keyPad (secret : List UInt8) : ∃ key, padRight secret keyPad 32 = some key ∧ key.length = 32 :=
  padRight_spec secret keyPad_ne_nil 32

theorem newCipher_of_length {key : List UInt8} (h : key.length = 32) : newCipher key = .ok () := by
  simp [newCipher, h]

theorem readFull_of_le {n : Nat} {r : List UInt8} (h : n ≤ r.length) : readFull n r = .ok (r.take n) := by
  simp [readFull, h]

theorem encodeToString_ne_nil {bs : List UInt8} (h : bs ≠ []) : Base64.encodeToString bs ≠ [] := by
  match bs, h with
  | [_], _ | [_, _], _ | _ :: _ :: _ :: _, _ => simp [Base64.encodeToString]

/-- 8 バイト以上の `secret` なら、どの平文もどの nonce でも、暗号にして戻すと元の平文になる。暗号の文字列は
空でない。 -/
theorem decryptString_encryptString_ok (aead : Aead) (text : List UInt8) {secret rand : List UInt8}
    (hs : 8 ≤ secret.length) (hr : nonceSize ≤ rand.length) :
    ∃ ct, ct ≠ [] ∧ encryptString aead text secret rand = some (.ok ct) ∧
      decryptString aead ct secret = some (.ok text) := by
  obtain ⟨padded, hpad, hlen⟩ := padRight_keyPad secret
  have hkey : newCipher (padded.take 32) = .ok () := newCipher_of_length (by simp [hlen])
  have hnonce : (rand.take nonceSize).length = nonceSize := by simp [hr]
  refine ⟨Base64.encodeToString (rand.take nonceSize ++ aead.sealed (padded.take 32) (rand.take nonceSize) text),
    encodeToString_ne_nil ?_, ?_, ?_⟩
  · rw [ne_eq, List.append_eq_nil, ← List.length_eq_zero, hnonce]
    simp [nonceSize]
  · simp only [encryptString, Nat.not_lt.2 hs, if_false, hpad, Option.map_some', hkey, readFull_of_le hr]
  · simp only [decryptString, hpad, Option.map_some', Base64.decodeString_encodeToString, hkey, List.length_append,
      hnonce, List.take_left' hnonce, List.drop_left' hnonce, aead.opened_sealed]
    simp

/-- 8 バイト以上の `secret` なら、どの平文もどの nonce でも、暗号にして戻すと元の平文になる。鍵を作る `padRight`
は、空でない詰め物ならいつも終わってちょうど `l` バイトを返し、どの `secret` からも 32 バイトの鍵を作る。 -/
theorem decryptString_encryptString (aead : Aead) (text secret rand : List UInt8)
    (hs : 8 ≤ secret.length) (hr : nonceSize ≤ rand.length) :
    (∀ (s p : List UInt8) (l : Nat), p ≠ [] → ∃ r, padRight s p l = some r ∧ r.length = l) ∧
    (∃ key, padRight secret keyPad 32 = some key ∧ key.length = 32) ∧
    ∃ ct, encryptString aead text secret rand = some (.ok ct) ∧ decryptString aead ct secret = some (.ok text) :=
  have ⟨ct, _, henc, hdec⟩ := decryptString_encryptString_ok aead text hs hr
  ⟨fun s _ l hp => padRight_spec s hp l, padRight_keyPad secret, ct, henc, hdec⟩

/-- 例：暗号にしない `Aead`。 -/
def Aead.identity : Aead := ⟨fun _ _ p => p, fun _ _ c => some c, fun _ _ _ => rfl⟩

theorem decryptString_encryptString_test_crypt :
    8 ≤ (utf8 "foobarbaz weijr woeijfoisjd foij").length ∧ nonceSize ≤ (List.replicate 12 (0 : UInt8)).length ∧
    (∀ (s p : List UInt8) (l : Nat), p ≠ [] → ∃ r, padRight s p l = some r ∧ r.length = l) ∧
    (∃ key, padRight (utf8 "foobarbaz weijr woeijfoisjd foij") keyPad 32 = some key ∧ key.length = 32) ∧
    ∃ ct, encryptString .identity (utf8 "Hello there this is a test\n") (utf8 "foobarbaz weijr woeijfoisjd foij")
        (List.replicate 12 0) = some (.ok ct) ∧
      decryptString .identity ct (utf8 "foobarbaz weijr woeijfoisjd foij") =
        some (.ok (utf8 "Hello there this is a test\n")) :=
  have hs : 8 ≤ (utf8 "foobarbaz weijr woeijfoisjd foij").length := by decide
  have hr : nonceSize ≤ (List.replicate 12 (0 : UInt8)).length := by decide
  ⟨hs, hr, decryptString_encryptString .identity _ _ _ hs hr⟩

end Maestro.Crypto
