import Maestro.Ui.Token

/-!
# 利用者と group の表（`users`、`groups`、`user_groups`）

カタログのうち、ログインと管理者の操作が読み書きする三つの表。`users` の `id` と `groups` の `id` は `SERIAL`
で、`users.oauth_id` には一意の索引がある。`user_groups` は二つの表への外部キーと、組 `(user_id, group_id)`
の一意の索引を持つ。利用者の行は消されない。

SQL の文一つを一つの操作とする。`SaveUser` は、`UPDATE users` の後に、別の transaction で `user_groups` を
書き直す。その transaction が外部キーか一意の索引に当たって戻っても、`UPDATE` は戻らない。
`SelectUser` も二つの問い合わせで、二つ目は、一つ目で読んだ `admin` によって、すべての group か、
`user_groups` で結んだ group を読む。

`tables` の行は、持ち主の利用者と group と、消した印だけを見る。`SelectTable` は消していない行だけを読み、
`DeleteGroup` は消した行も数える。

`api_token` の欄だけを見た表は、`Db.Users` である（`Store.tokens`）。`selectUserRow` は、それに対する
`Db.selectUser` と同じ token を読む（`selectUserRow_token`）。
-/

namespace Maestro.Auth

open Maestro.Encoding Maestro.Crypto Maestro.Db

/-- `users` の行。`apiToken` は暗号にした token の文字列で、空なら token はまだない。 -/
structure UserRow where
  id : Int
  oauthId : String
  email : String
  apiToken : List UInt8
  admin : Bool
  disabled : Bool
  deriving DecidableEq, Repr

/-- `groups` の行。 -/
structure GroupRow where
  id : Int
  name : String
  adminUserId : Int
  deriving DecidableEq, Repr

/-- `model.User`：行の欄、復号した token、group の id。 -/
structure User where
  id : Int
  oauthId : String
  email : String
  disabled : Bool
  admin : Bool
  cryptToken : List UInt8
  plainToken : List UInt8
  groups : List Int
  deriving DecidableEq, Repr

/-- `userFromRow`：行の欄と、`api_token` を復号した token。group はまだない。 -/
def userOfRow (env : CryptEnv) (r : UserRow) : Option (Except String User) :=
  (userFromRow env r.id r.apiToken).map
    (·.map fun u => ⟨r.id, r.oauthId, r.email, r.disabled, r.admin, r.apiToken, u.plainToken, []⟩)

/-- `tables` の行のうち、持ち主（`user_id`）、`group_id`、消した印（`deleted_at` が NULL でない）。 -/
structure TableRow where
  id : Int
  userId : Int
  groupId : Int
  deleted : Bool
  deriving DecidableEq, Repr

/-- 四つの表と、三つの `SERIAL` の次の値。 -/
structure Store where
  users : List UserRow
  nextUserId : Int
  groups : List GroupRow
  nextGroupId : Int
  userGroups : List (Int × Int)
  tables : List TableRow
  nextTableId : Int
  deriving DecidableEq, Repr

/-- 空のカタログ。 -/
def Store.empty : Store := ⟨[], 1, [], 1, [], [], 1⟩

namespace Store

variable (st : Store)

/-- `WHERE id = $1`。 -/
def userById (id : Int) : Option UserRow := st.users.find? (·.id = id)

/-- `WHERE oauth_id = $1`。 -/
def userByOAuth (oid : String) : Option UserRow := st.users.find? (·.oauthId = oid)

/-- `api_token` の欄だけを見た表。 -/
def tokens : Users := fun i => (st.userById i).map (·.apiToken)

/-- `INSERT INTO users (oauth_id, email, disabled) VALUES ($1, $2, true) ON CONFLICT (oauth_id) DO UPDATE
SET oauth_id = $1 RETURNING ...`：`SERIAL` の値は、衝突しても使われる。 -/
def insertUser (oid email : String) : Store × UserRow :=
  let st' := { st with nextUserId := st.nextUserId + 1 }
  match st.userByOAuth oid with
  | some r => (st', r)
  | none =>
    let r : UserRow := ⟨st.nextUserId, oid, email, [], false, true⟩
    ({ st' with users := st.users ++ [r] }, r)

/-- `SaveUser` が書く行。 -/
def rowOf (u : User) : UserRow := ⟨u.id, u.oauthId, u.email, u.cryptToken, u.admin, u.disabled⟩

/-- `UPDATE users SET oauth_id = :oauth_id, email = :email, admin = :admin, disabled = :disabled,
api_token = :api_token WHERE id = :id`。ほかの行の `oauth_id` に当たれば、一意の索引の誤り。 -/
def updateUser (u : User) : Except String Store :=
  if st.users.any (fun r => r.id ≠ u.id ∧ r.oauthId = u.oauthId) then
    .error "pq: duplicate key value violates unique constraint \"users_oauth_id_idx\""
  else .ok { st with users := st.users.map fun r => if r.id = u.id then rowOf u else r }

/-- `SaveUser` の transaction：利用者の `user_groups` を消し、`Groups` の group ごとに行を入れる。外部キーか
一意の索引に当たれば、全体を戻す。 -/
def setUserGroups (uid : Int) (gids : List Int) : Except String Store :=
  if gids.all (fun g => st.users.any (·.id = uid) && st.groups.any (·.id = g)) && decide gids.Nodup then
    .ok { st with userGroups := st.userGroups.filter (·.1 ≠ uid) ++ gids.map (uid, ·) }
  else .error "pq: insert or update on table \"user_groups\" violates a constraint"

/-- `SelectUser` の二つ目の問い合わせ：管理者にはすべての group、ほかの利用者には `user_groups` で結んだ
group。 -/
def groupIdsOf (uid : Int) (admin : Bool) : List Int :=
  if admin then st.groups.map (·.id)
  else (st.userGroups.filter (·.1 = uid)).filterMap fun ug => (st.groups.find? (·.id = ug.2)).map (·.id)

/-- `InsertGroup(name, adminId)`。`admin_user_id` の外部キーに当たれば誤り。`SERIAL` の値は、誤りでも使われる。 -/
def insertGroup (name : String) (adminUserId : Int) : Store × Except String Unit :=
  let st' := { st with nextGroupId := st.nextGroupId + 1 }
  if st.users.any (·.id = adminUserId) then
    ({ st' with groups := st.groups ++ [⟨st.nextGroupId, name, adminUserId⟩] }, .ok ())
  else (st', .error "pq: insert or update on table \"groups\" violates foreign key constraint")

/-- `SaveGroup(g)`：`UPDATE groups SET name = $1, admin_user_id = $2 WHERE id = $3`。 -/
def saveGroup (g : GroupRow) : Except String Store :=
  if st.users.any (·.id = g.adminUserId) then
    .ok { st with groups := st.groups.map fun h => if h.id = g.id then g else h }
  else .error "pq: insert or update on table \"groups\" violates foreign key constraint"

/-- `DeleteGroup` の一つ目の問い合わせ `SELECT COUNT(*) ... WHERE group_id = $1` の答えが `0` でない。消した表も
数える。 -/
def groupInUse (id : Int) : Bool := st.tables.any (·.groupId = id)

/-- `DeleteGroup` の transaction：`user_groups` と `groups` から消す。表が属していれば、外部キーで戻る。 -/
def deleteGroup (id : Int) : Except String Store :=
  if st.groupInUse id then .error "pq: update or delete on table \"groups\" violates foreign key constraint"
  else .ok { st with userGroups := st.userGroups.filter (·.2 ≠ id), groups := st.groups.filter (·.id ≠ id) }

/-- `SelectTable(id)`：`WHERE id = $1 AND deleted_at IS NULL`。なければ `nil`（`none`）。 -/
def selectTable (id : Int) : Option TableRow := st.tables.find? fun t => t.id = id ∧ t.deleted = false

/-- `InsertTable(t)`：持ち主と group の外部キーに当たれば誤り。`SERIAL` の値は、誤りでも使われる。 -/
def insertTable (userId groupId : Int) : Store × Except String Int :=
  let st' := { st with nextTableId := st.nextTableId + 1 }
  if st.users.any (·.id = userId) && st.groups.any (·.id = groupId) then
    ({ st' with tables := st.tables ++ [⟨st.nextTableId, userId, groupId, false⟩] }, .ok st.nextTableId)
  else (st', .error "pq: insert or update on table \"tables\" violates foreign key constraint")

/-- `SaveTable(t)`：`UPDATE tables SET user_id = ..., group_id = ..., deleted_at = ... WHERE id = :id`。消した行も
書く。 -/
def saveTable (t : TableRow) : Except String Store :=
  if st.users.any (·.id = t.userId) && st.groups.any (·.id = t.groupId) then
    .ok { st with tables := st.tables.map fun r => if r.id = t.id then t else r }
  else .error "pq: insert or update on table \"tables\" violates foreign key constraint"

/-- `SelectUser(id)` の一つ目の問い合わせと `userFromRow`。行がなければ、`nil` の利用者の `user.Admin` で
止まる（`none`）。group は二つ目の問い合わせで読む。 -/
def selectUserRow (env : CryptEnv) (id : Int) : Option (Except String User) :=
  match st.userById id with
  | none => none
  | some r => userOfRow env r

end Store

/-- `DeleteGroup` の誤り。 -/
def tablesBelong : String := "This group cannot be deleted because tables belong to it."

/-! ## 基本の性質 -/

namespace Store

variable {st : Store}

@[simp] theorem tokens_apply (i : Int) : st.tokens i = (st.userById i).map (·.apiToken) := rfl

theorem userById_mem {id : Int} {r : UserRow} (h : st.userById id = some r) : r ∈ st.users ∧ r.id = id := by
  have := List.find?_some h
  exact ⟨List.mem_of_find?_eq_some h, by simpa using this⟩

theorem userByOAuth_mem {oid : String} {r : UserRow} (h : st.userByOAuth oid = some r) :
    r ∈ st.users ∧ r.oauthId = oid := by
  have := List.find?_some h
  exact ⟨List.mem_of_find?_eq_some h, by simpa using this⟩

end Store

end Maestro.Auth
