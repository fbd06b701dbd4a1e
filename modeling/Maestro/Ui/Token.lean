import Maestro.Db.Users

/-!
# API の token（`encodeToken`、`decodeToken`、`getTokenChecker`、`userTokenGetHandler`）

token は 37 バイト：版 `0x01`、利用者の id（`uint32` の big endian）、32 バイトの秘密。それを URL の base64 で
書く。`getTokenChecker` は、`X-Api-Token` の token を読み、その id の利用者を `SelectUser` で読んで、保存した
秘密と比べる。`userTokenGetHandler` は、利用者に token がなければ `GenerateAndSaveToken` で作り、`encodeToken`
で書いて返す。

`0 < u < 2^32` の id と 32 バイトの秘密の token は、読むと元に戻る（`decodeToken_encodeToken`）。作って保存した
token を、`getTokenChecker` は受け取り、その利用者の id を返す（`userTokenGetHandler_tokenChecker`）。発行した
後は、`userTokenGetHandler` はどの乱数でも同じ token を返して表を変えず、`getTokenChecker` がその利用者の id を
返すのは、発行した token と同じものに読む文字列のときに限る（`userTokenGetHandler_stable`）。
`decodeToken` が受け取るのは、`DecodeString` が版 `0x01` の 37 バイトに読む文字列であり、その中には、37 バイト
の base64 の書き方でないものもある（`decodeToken_noncanonical`）。
-/

namespace Maestro.Ui

open Maestro.Encoding Maestro.Crypto Maestro.Db

/-- `token`：版、利用者の id、秘密。 -/
structure Token where
  version : UInt8
  userId : Int
  secret : List UInt8
  deriving DecidableEq, Repr

/-- `decodeToken`。 -/
def decodeToken (s : List UInt8) : Except String Token :=
  match Base64.decodeString s with
  | .error off => .error (Base64.corruptInputError off)
  | .ok bt =>
    if bt.length ≠ 37 then .error ("Invalid token length: " ++ toString bt.length)
    else if bt.getD 0 0 ≠ 1 then .error ("Invalid version: " ++ toString (bt.getD 0 0))
    else .ok ⟨bt.getD 0 0, BigEndian.uint32 (bt.getD 1 0) (bt.getD 2 0) (bt.getD 3 0) (bt.getD 4 0), bt.drop 5⟩

/-- `copy(result[5:], tok)`：`tok` の最初の 32 バイトまでを写し、残りは `0` のまま。 -/
def copy32 (tok : List UInt8) : List UInt8 := tok.take 32 ++ List.replicate (32 - tok.length) 0

/-- `encodeToken` が書く 37 バイト：`uint32(userId)` は、`2^32` で割った余り。 -/
def tokenBytes (userId : Int) (tok : List UInt8) : List UInt8 :=
  1 :: BigEndian.putUint32 (userId % 2 ^ 32).toNat ++ copy32 tok

/-- `encodeToken`。 -/
def encodeToken (userId : Int) (tok : List UInt8) : List UInt8 := Base64.encodeToString (tokenBytes userId tok)

/-- `getTokenChecker` の関数：`X-Api-Token` の値 `s` から利用者の id。だめなら `0`。`SelectUser` が止まれば
`none`。行のない id では `SelectUser` が止まるので、`user == nil` の枝には来ない。 -/
def tokenChecker (env : CryptEnv) (db : Users) (s : List UInt8) : Option Int :=
  if s = [] then some 0
  else
    match decodeToken s with
    | .error _ => some 0
    | .ok tok =>
      match selectUser env db tok.userId with
      | none => none
      | some (.error _) => some 0
      | some (.ok user) => if user.plainToken = tok.secret then some user.id else some 0

/-- `userTokenGetHandler`：session の利用者 `userId` に、`{"api_token":...}` で返す token（`.ok`）か、応答の文
（`.error`）。`rand₁` は token の乱数、`rand₂` は nonce の乱数。書き換えた表も返す。 -/
def userTokenGetHandler (env : CryptEnv) (db : Users) (userId : Int) (rand₁ rand₂ : List UInt8) :
    Option (Except String (List UInt8 × Users)) :=
  if userId = 0 then some (.error "No user information.")
  else
    match selectUser env db userId with
    | none => none
    | some (.error _) => some (.error "This is an error")
    | some (.ok user) =>
      if user.plainToken.length = 0 then
        match generateAndSaveToken env rand₁ rand₂ user db with
        | none => none
        | some (.error _) => some (.error "This is an error")
        | some (.ok (user, db')) => some (.ok (encodeToken user.id user.plainToken, db'))
      else some (.ok (encodeToken user.id user.plainToken, db))

/-! ## token の形 -/

/-- `decodeToken` は、`DecodeString` が読んだバイトだけを見る。 -/
theorem decodeToken_congr {s s' : List UInt8} (h : Base64.decodeString s = Base64.decodeString s') :
    decodeToken s = decodeToken s' := by
  simp only [decodeToken, h]

/-- `decodeToken` が受け取るのは、`DecodeString` が版 `0x01` の 37 バイトに読む文字列である。 -/
theorem decodeToken_ok_iff (s : List UInt8) :
    (∃ tok, decodeToken s = .ok tok) ↔
      ∃ bt, Base64.decodeString s = .ok bt ∧ bt.length = 37 ∧ bt.head? = some 1 := by
  unfold decodeToken
  cases Base64.decodeString s with
  | error off => simp
  | ok bt =>
    by_cases hl : bt.length = 37
    · cases bt with
      | nil => simp at hl
      | cons b bs =>
        have hbs : bs.length = 36 := by simpa using hl
        by_cases hb : b = 1 <;> simp [hbs, hb]
    · simp [hl]

theorem decodeToken_version {s : List UInt8} {tok : Token} (h : decodeToken s = .ok tok) : tok.version = 1 := by
  unfold decodeToken at h
  split at h
  · cases h
  · split_ifs at h with h1 h2
    cases h
    simpa using h2

theorem tokenBytes_length (userId : Int) {tok : List UInt8} (h : tok.length = 32) :
    (tokenBytes userId tok).length = 37 := by
  simp [tokenBytes, copy32, BigEndian.putUint32, h]

/-- `0 < u < 2^32` の id と 32 バイトの秘密の token は、読むと、版 `1`、同じ id、同じ秘密に戻る。 -/
theorem decodeToken_encodeToken {u : Int} (hu : 0 < u) (hu' : u < 2 ^ 32) {tok : List UInt8} (h : tok.length = 32) :
    decodeToken (encodeToken u tok) = .ok ⟨1, u, tok⟩ := by
  have hmod : (u % 2 ^ 32).toNat = u.toNat := by rw [Int.emod_eq_of_lt (Int.le_of_lt hu) hu']
  have hlt : u.toNat < 2 ^ 32 := by omega
  have hcopy : copy32 tok = tok := by simp [copy32, h]
  simp only [decodeToken, encodeToken, Base64.decodeString_encodeToString, tokenBytes_length u h, ne_eq,
    not_true_eq_false, if_false]
  simp only [tokenBytes, hmod, hcopy, BigEndian.putUint32, List.cons_append, List.nil_append, List.getD_cons_zero,
    List.getD_cons_succ, List.drop_succ_cons, List.drop_zero, BigEndian.uint32_putUint32 hlt]
  simp [Int.toNat_of_nonneg (Int.le_of_lt hu)]

theorem encodeToken_ne_nil (u : Int) (tok : List UInt8) : encodeToken u tok ≠ [] := by
  simp [encodeToken, tokenBytes, BigEndian.putUint32, Base64.encodeToString]

/-- 版 `0x01` の 37 バイトは、その base64 の書き方のほかに、最後の quantum の二つ目の記号の下位の 4 ビットを
変えた文字列でも、同じ token に読まれる。 -/
theorem decodeToken_noncanonical {bt : List UInt8} (hl : bt.length = 37) :
    ∃ s, s ≠ Base64.encodeToString bt ∧ decodeToken s = decodeToken (Base64.encodeToString bt) := by
  obtain ⟨pre, a, rfl⟩ : ∃ pre a, bt = pre ++ [a] :=
    ⟨bt.dropLast, bt.getLast (by rintro rfl; simp at hl), (List.dropLast_append_getLast _).symm⟩
  have hpre : pre.length % 3 = 0 := by simp at hl; omega
  have ha : a.toNat < 256 := a.toNat_lt_size
  have hsym : Base64.decodeSym (Base64.encodeSym (a.toNat * 65536 / 4096 % 64 + 1)) =
      some (a.toNat * 65536 / 4096 % 64 + 1) := Base64.decodeSym_encodeSym (by omega)
  refine ⟨_, fun h => ?_, decodeToken_congr ((Base64.decodeString_last_bits hpre a (by decide : 1 < 16)).trans
    (Base64.decodeString_encodeToString _).symm)⟩
  rw [Base64.encodeToString_append _ _ hpre, List.append_cancel_left_eq] at h
  have h1 := congrArg (fun l => Base64.decodeSym (l.getD 1 0)) h
  simp [Base64.encodeToString, hsym, Base64.decodeSym_encodeSym_mod] at h1

/-- 利用者 `1` と 0 の秘密の token の書き方 `AQAA…AA==` の最後の `A` を `B` に変えた文字列を、`decodeToken` は
同じ token として受け取る。それは、どのバイトの並びの base64 の書き方でもない。 -/
theorem decodeToken_accepts_non_encoding :
    decodeToken (utf8 "AQAAAAEAAAAAAAAAAAAAAAAAAAAAAAAAAAAAAAAAAAAAAAAAAB==") = .ok ⟨1, 1, List.replicate 32 0⟩ ∧
    ∀ bt : List UInt8, Base64.encodeToString bt ≠ utf8 "AQAAAAEAAAAAAAAAAAAAAAAAAAAAAAAAAAAAAAAAAAAAAAAAAB==" := by
  have hdec : Base64.decodeString (utf8 "AQAAAAEAAAAAAAAAAAAAAAAAAAAAAAAAAAAAAAAAAAAAAAAAAB==") =
      .ok ([1, 0, 0, 0, 1] ++ List.replicate 32 0) := rfl
  refine ⟨by rw [decodeToken, hdec]; rfl, fun bt h => ?_⟩
  have hbt := Base64.decodeString_encodeToString bt
  rw [h, hdec] at hbt
  injection hbt with hbt
  subst hbt
  exact absurd h (by decide)

/-! ## 保存した token を確かめる -/

/-- 行があり、token のまだない利用者には、`userTokenGetHandler` は乱数の最初の 32 バイトを token にして保存し、
それを書いた文字列を返す。書き換えた表から読むと、その利用者の token はそれである。 -/
theorem userTokenGetHandler_issue (env : CryptEnv) {db : Users} {u : Int} {rand₁ rand₂ : List UInt8}
    (hs : 8 ≤ env.secret.length) (hr₁ : 32 ≤ rand₁.length) (hr₂ : nonceSize ≤ rand₂.length) (hu : 0 < u)
    (hrow : db u = some []) :
    ∃ u' db', userTokenGetHandler env db u rand₁ rand₂ = some (.ok (encodeToken u (rand₁.take 32), db')) ∧
      selectUser env db' u = some (.ok u') ∧ u'.id = u ∧ u'.plainToken = rand₁.take 32 := by
  have htok : (rand₁.take 32).length = 32 := by simp [hr₁]
  obtain ⟨u', db', hsave, hid, hplain, hsel⟩ :=
    @selectUser_saveUser env rand₂ ⟨u, rand₁.take 32, []⟩ db hs hr₂
      (by rw [← List.length_pos, htok]; decide) (by simp [hrow])
  refine ⟨u', db', ?_, hsel, hid, hplain⟩
  simp [userTokenGetHandler, Int.ne_of_gt hu, selectUser, hrow, userFromRow, generateAndSaveToken, generateToken,
    readFull_of_le hr₁, hsave, hid, hplain]

/-- 表から読んだ利用者 `u` について、`getTokenChecker` が `u` を返すのは、`decodeToken` が版 `1`、id `u`、その
利用者の token に読む文字列のときに限る。 -/
theorem tokenChecker_eq_some_iff (env : CryptEnv) {db : Users} {u : Int} {u' : User} (hu : u ≠ 0)
    (hsel : selectUser env db u = some (.ok u')) (hid : u'.id = u) (s : List UInt8) :
    tokenChecker env db s = some u ↔ decodeToken s = .ok ⟨1, u, u'.plainToken⟩ := by
  constructor
  · intro h
    unfold tokenChecker at h
    split_ifs at h with hs
    · exact absurd (Option.some_inj.1 h).symm hu
    split at h
    · exact absurd (Option.some_inj.1 h).symm hu
    rename_i tok htok
    split at h
    · cases h
    · exact absurd (Option.some_inj.1 h).symm hu
    rename_i user huser
    split_ifs at h with hp
    · obtain rfl : user.id = u := Option.some_inj.1 h
      have hui := selectUser_id huser
      rw [hui] at hsel
      rw [hsel] at huser
      cases huser
      rw [htok, hui, hp, ← decodeToken_version htok]
    · exact absurd (Option.some_inj.1 h).symm hu
  · intro h
    have hs : s ≠ [] := by rintro rfl; cases h
    simp [tokenChecker, hs, h, hsel, hid]

/-- 行があり、token のまだない利用者には、`userTokenGetHandler` が token を作って保存して返し、
`getTokenChecker` は、その token を受け取ってその利用者の id を返す。 -/
theorem userTokenGetHandler_tokenChecker (env : CryptEnv) {db : Users} {u : Int} {rand₁ rand₂ : List UInt8}
    (hs : 8 ≤ env.secret.length) (hr₁ : 32 ≤ rand₁.length) (hr₂ : nonceSize ≤ rand₂.length) (hu : 0 < u)
    (hu' : u < 2 ^ 32) (hrow : db u = some []) :
    ∃ tok db', userTokenGetHandler env db u rand₁ rand₂ = some (.ok (tok, db')) ∧ tokenChecker env db' tok = some u := by
  obtain ⟨u', db', hh, hsel, hid, hplain⟩ := userTokenGetHandler_issue env hs hr₁ hr₂ hu hrow
  refine ⟨_, db', hh, (tokenChecker_eq_some_iff env (Int.ne_of_gt hu) hsel hid _).2 ?_⟩
  rw [hplain, decodeToken_encodeToken hu hu' (by simp [hr₁])]

/-- token を発行した後は、同じ利用者の `userTokenGetHandler` は、どの乱数でも同じ token を返して表を変えない。
`getTokenChecker` がその利用者の id を返すのは、`decodeToken` が発行した token と同じものに読む文字列のときに
限る。 -/
theorem userTokenGetHandler_stable (env : CryptEnv) {db : Users} {u : Int} {rand₁ rand₂ : List UInt8}
    (hs : 8 ≤ env.secret.length) (hr₁ : 32 ≤ rand₁.length) (hr₂ : nonceSize ≤ rand₂.length) (hu : 0 < u)
    (hu' : u < 2 ^ 32) (hrow : db u = some []) :
    ∃ tok db', userTokenGetHandler env db u rand₁ rand₂ = some (.ok (tok, db')) ∧
      (∀ rand₁' rand₂', userTokenGetHandler env db' u rand₁' rand₂' = some (.ok (tok, db'))) ∧
      ∀ s, tokenChecker env db' s = some u ↔ decodeToken s = decodeToken tok := by
  obtain ⟨u', db', hh, hsel, hid, hplain⟩ := userTokenGetHandler_issue env hs hr₁ hr₂ hu hrow
  have htok : (rand₁.take 32).length = 32 := by simp [hr₁]
  refine ⟨_, db', hh, fun _ _ => ?_, fun s => ?_⟩
  · simp [userTokenGetHandler, Int.ne_of_gt hu, hsel, hplain, htok, hid]
  · rw [tokenChecker_eq_some_iff env (Int.ne_of_gt hu) hsel hid, decodeToken_encodeToken hu hu' htok, hplain]

theorem userTokenGetHandler_stable_fresh_user :
    8 ≤ (utf8 "foobarbaz weijr woeijfoisjd foij").length ∧ 32 ≤ (List.replicate 32 (7 : UInt8)).length ∧
    nonceSize ≤ (List.replicate 12 (0 : UInt8)).length ∧ (0 : Int) < 1 ∧ (1 : Int) < 2 ^ 32 ∧
    (fun i : Int => if i = 1 then some ([] : List UInt8) else none) 1 = some [] ∧
    ∃ tok db', userTokenGetHandler ⟨.identity, utf8 "foobarbaz weijr woeijfoisjd foij"⟩
        (fun i => if i = 1 then some [] else none) 1 (List.replicate 32 7) (List.replicate 12 0) =
        some (.ok (tok, db')) ∧
      (∀ rand₁' rand₂', userTokenGetHandler ⟨.identity, utf8 "foobarbaz weijr woeijfoisjd foij"⟩ db' 1 rand₁' rand₂' =
        some (.ok (tok, db'))) ∧
      ∀ s, tokenChecker ⟨.identity, utf8 "foobarbaz weijr woeijfoisjd foij"⟩ db' s = some 1 ↔
        decodeToken s = decodeToken tok :=
  have hs : 8 ≤ (utf8 "foobarbaz weijr woeijfoisjd foij").length := by decide
  have hr₁ : 32 ≤ (List.replicate 32 (7 : UInt8)).length := by decide
  have hr₂ : nonceSize ≤ (List.replicate 12 (0 : UInt8)).length := by decide
  have hu : (0 : Int) < 1 := by decide
  have hu' : (1 : Int) < 2 ^ 32 := by decide
  have hrow : (fun i : Int => if i = 1 then some ([] : List UInt8) else none) 1 = some [] := by decide
  ⟨hs, hr₁, hr₂, hu, hu', hrow, userTokenGetHandler_stable _ hs hr₁ hr₂ hu hu' hrow⟩

/-- `0 < u < 2^32` の id と 32 バイトの秘密の token は、読むと元に戻る。`decodeToken` が受け取るのは、
`DecodeString` が版 `0x01` の 37 バイトに読む文字列で、その 37 バイトの base64 の書き方はどれも受け取るが、
ほかの文字列も同じ token として受け取る。token のまだない利用者には、`userTokenGetHandler` が作って保存した
token を返し、`getTokenChecker` はそれを受け取ってその利用者の id を返す。 -/
theorem apiToken_roundtrip (u : Int) (secret : List UInt8) (hu : 0 < u) (hu' : u < 2 ^ 32)
    (hsec : secret.length = 32) (env : CryptEnv) (db : Users) (rand₁ rand₂ : List UInt8)
    (hs : 8 ≤ env.secret.length) (hr₁ : 32 ≤ rand₁.length) (hr₂ : nonceSize ≤ rand₂.length)
    (hrow : db u = some []) :
    decodeToken (encodeToken u secret) = .ok ⟨1, u, secret⟩ ∧
    (∀ s, (∃ tok, decodeToken s = .ok tok) ↔
      ∃ bt, Base64.decodeString s = .ok bt ∧ bt.length = 37 ∧ bt.head? = some 1) ∧
    (∀ bt : List UInt8, bt.length = 37 → bt.head? = some 1 →
      (∃ tok, decodeToken (Base64.encodeToString bt) = .ok tok) ∧
      ∃ s, s ≠ Base64.encodeToString bt ∧ decodeToken s = decodeToken (Base64.encodeToString bt)) ∧
    ∃ tok db', userTokenGetHandler env db u rand₁ rand₂ = some (.ok (tok, db')) ∧ tokenChecker env db' tok = some u :=
  ⟨decodeToken_encodeToken hu hu' hsec, decodeToken_ok_iff,
    fun bt hl hv => ⟨(decodeToken_ok_iff _).2 ⟨bt, Base64.decodeString_encodeToString bt, hl, hv⟩,
      decodeToken_noncanonical hl⟩,
    userTokenGetHandler_tokenChecker env hs hr₁ hr₂ hu hu' hrow⟩

theorem apiToken_roundtrip_fresh_user :
    (0 : Int) < 1 ∧ (1 : Int) < 2 ^ 32 ∧ (List.replicate 32 (0 : UInt8)).length = 32 ∧
    8 ≤ (utf8 "foobarbaz weijr woeijfoisjd foij").length ∧ 32 ≤ (List.replicate 32 (7 : UInt8)).length ∧
    nonceSize ≤ (List.replicate 12 (0 : UInt8)).length ∧
    (fun i : Int => if i = 1 then some ([] : List UInt8) else none) 1 = some [] ∧
    decodeToken (encodeToken 1 (List.replicate 32 0)) = .ok ⟨1, 1, List.replicate 32 0⟩ ∧
    (∀ s, (∃ tok, decodeToken s = .ok tok) ↔
      ∃ bt, Base64.decodeString s = .ok bt ∧ bt.length = 37 ∧ bt.head? = some 1) ∧
    (∀ bt : List UInt8, bt.length = 37 → bt.head? = some 1 →
      (∃ tok, decodeToken (Base64.encodeToString bt) = .ok tok) ∧
      ∃ s, s ≠ Base64.encodeToString bt ∧ decodeToken s = decodeToken (Base64.encodeToString bt)) ∧
    ∃ tok db', userTokenGetHandler ⟨.identity, utf8 "foobarbaz weijr woeijfoisjd foij"⟩
        (fun i => if i = 1 then some [] else none) 1 (List.replicate 32 7) (List.replicate 12 0) =
        some (.ok (tok, db')) ∧
      tokenChecker ⟨.identity, utf8 "foobarbaz weijr woeijfoisjd foij"⟩ db' tok = some 1 :=
  have hu : (0 : Int) < 1 := by decide
  have hu' : (1 : Int) < 2 ^ 32 := by decide
  have hsec : (List.replicate 32 (0 : UInt8)).length = 32 := by decide
  have hs : 8 ≤ (utf8 "foobarbaz weijr woeijfoisjd foij").length := by decide
  have hr₁ : 32 ≤ (List.replicate 32 (7 : UInt8)).length := by decide
  have hr₂ : nonceSize ≤ (List.replicate 12 (0 : UInt8)).length := by decide
  have hrow : (fun i : Int => if i = 1 then some ([] : List UInt8) else none) 1 = some [] := by decide
  ⟨hu, hu', hsec, hs, hr₁, hr₂, hrow, apiToken_roundtrip 1 _ hu hu' hsec
    ⟨.identity, utf8 "foobarbaz weijr woeijfoisjd foij"⟩ _ _ _ hs hr₁ hr₂ hrow⟩

end Maestro.Ui
