import Maestro.Crypto

/-!
# 利用者の API token の保存（`SaveUser`、`userFromRow`、`SelectUser`、`GenerateAndSaveToken`）

`SaveUser` は、平文の token（`PlainToken`）があれば、`%x` の 16 進にしてから `EncryptString` で暗号にし、
`users` の `api_token` の欄に書く。`userFromRow` は、`api_token` が空でなければ `DecryptString` で戻し、16 進を
読んで `PlainToken` にする。`GenerateAndSaveToken` は、乱数の 32 バイトを token にして `SaveUser` を呼ぶ。

モデルは、`users` の表を、id から `api_token` への関数で表す。ほかの欄と、利用者の group の書き直しは
扱わない。`p.secret` が 8 バイト以上なら、保存した token は、読み戻すと元の token になる
（`selectUser_saveUser`）。
-/

namespace Maestro.Db

open Maestro.Encoding Maestro.Crypto

/-- `model.User` のうち、token に関わる欄。 -/
structure User where
  id : Int
  plainToken : List UInt8
  cryptToken : List UInt8
  deriving DecidableEq, Repr

/-- `users` の表：id から `api_token`。行がなければ `none`。 -/
abbrev Users := Int → Option (List UInt8)

/-- `pgDb` の、暗号に使うもの：AES-GCM と `p.secret`。 -/
structure CryptEnv where
  aead : Aead
  secret : List UInt8

/-- `UPDATE users SET ... api_token = :api_token WHERE id = :id`。行がなければ何も変わらない。 -/
def updateApiToken (db : Users) (u : User) : Users :=
  fun i => if i = u.id then (db i).map fun _ => u.cryptToken else db i

/-- `SaveUser`。`rand` は nonce を読む乱数。 -/
def saveUser (env : CryptEnv) (rand : List UInt8) (u : User) (db : Users) : Option (Except String (User × Users)) :=
  if 0 < u.plainToken.length then
    (encryptString env.aead (Hex.encodeToString u.plainToken) env.secret rand).map fun r =>
      r.map fun ct => ({ u with cryptToken := ct }, updateApiToken db { u with cryptToken := ct })
  else some (.ok (u, updateApiToken db u))

/-- `userFromRow`：行の id と `api_token` から利用者を作る。 -/
def userFromRow (env : CryptEnv) (id : Int) (ct : List UInt8) : Option (Except String User) :=
  if ct ≠ [] then
    (decryptString env.aead ct env.secret).map fun r =>
      match r with
      | .error e => .error e
      | .ok hexTok =>
        match Hex.decodeString hexTok with
        | .error e => .error e.error
        | .ok tok => .ok ⟨id, tok, ct⟩
  else some (.ok ⟨id, [], ct⟩)

/-- `SelectUser(id)`：行があれば `userFromRow`。なければ `user` は `nil` のままで、次の `user.Admin` で止まる
（`none`）。 -/
def selectUser (env : CryptEnv) (db : Users) (id : Int) : Option (Except String User) :=
  match db id with
  | none => none
  | some ct => userFromRow env id ct

/-- `GenerateAndSaveToken`：乱数 `rand₁` の 32 バイトを token にして、`SaveUser`（nonce の乱数は `rand₂`）。 -/
def generateAndSaveToken (env : CryptEnv) (rand₁ rand₂ : List UInt8) (u : User) (db : Users) :
    Option (Except String (User × Users)) :=
  match generateToken rand₁ with
  | .error e => some (.error e)
  | .ok tok => saveUser env rand₂ { u with plainToken := tok } db

/-! ## いつも返る -/

/-- `SelectUser(id)` が返す利用者の id は、引いた id である。 -/
theorem selectUser_id {env : CryptEnv} {db : Users} {i : Int} {user : User}
    (h : selectUser env db i = some (.ok user)) : user.id = i := by
  unfold selectUser userFromRow at h
  split at h
  · cases h
  · split_ifs at h
    · obtain ⟨r, -, hr⟩ := Option.map_eq_some'.1 h
      split at hr
      · cases hr
      · split at hr
        · cases hr
        · cases hr; rfl
    · cases h; rfl

/-- 空でない token を保存すると、行のある利用者では、`api_token` は token を暗号にしたものになり、読み戻すと
元の token になる。 -/
theorem selectUser_saveUser (env : CryptEnv) {rand : List UInt8} {u : User} {db : Users}
    (hs : 8 ≤ env.secret.length) (hr : nonceSize ≤ rand.length) (ht : u.plainToken ≠ [])
    (hrow : (db u.id).isSome) :
    ∃ u' db', saveUser env rand u db = some (.ok (u', db')) ∧ u'.id = u.id ∧ u'.plainToken = u.plainToken ∧
      selectUser env db' u.id = some (.ok u') := by
  obtain ⟨ct, hne, henc, hdec⟩ := decryptString_encryptString_ok env.aead (Hex.encodeToString u.plainToken) hs hr
  obtain ⟨row, hrow⟩ := Option.isSome_iff_exists.1 hrow
  refine ⟨{ u with cryptToken := ct }, updateApiToken db { u with cryptToken := ct }, ?_, rfl, rfl, ?_⟩
  · simp [saveUser, List.length_pos.2 ht, henc, Except.map]
  · simp [selectUser, updateApiToken, hrow, userFromRow, hne, hdec, Hex.decodeString_encodeToString]

end Maestro.Db
