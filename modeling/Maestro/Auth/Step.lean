import Maestro.Go
import Maestro.Auth.Store

/-!
# ログインと API の要求を、goroutine の一歩ずつに

HTTP の要求ごとに goroutine が走り、その goroutine の一歩は、カタログへの一つの文か、mutex の内側の一回の
操作である。ローカルな計算は、その前後の一歩にまとめる。goroutine の間に順番はない。

ログイン（`issueSession`）は `ValidUser(googleUser.Id, googleUser.Email)` を呼び、`0` でなければ、利用者の id
と Google の id を入れた session の cookie を出す。cookie は `securecookie` で暗号にされて署名されるので、
要求が出せるのは、出された cookie だけである。`Destroy` は手元の cookie を消させるだけなので、出された
cookie は出したままとする（`cookies` は増えるだけ）。

`RequireLogin(h, allowToken)` は、`allowToken` なら `X-Api-Token` の token を `getTokenChecker` の関数で調べ、
通らなければ cookie を調べる。前の確かめから一秒を超えていれば、mutex の内側で `ValidUser(oauthId, "")` を
呼んで時刻を書く。`email` が空の `ValidUser` は `users` を一度読むだけなので、mutex の内側は一歩にまとめる。
前の確かめの時刻 `lastCheck` は、すべての利用者に一つである。

表を書く handler のうち、`POST /table/` は利用者の group に新しい表の group があるかを、`PUT`、`DELETE`、`run`、
`reimport` は `tableWriteAccessAllowed` で今の表の group を調べる（管理者は調べない）。`load_external` は調べずに
表を書く。

`grants` と `members` は、モデルだけが持つ記録：`users` の `admin` と `disabled` を、最初の利用者の
`ValidUser` か、`requireAdmin` を通った `userPutHandler` が書くたびに、書いた者と書いた値を `grants` に足す。
`SaveUser` が `user_groups` に行を書くたびに、書いた者と書いた組を `members` に足す。
-/

namespace Maestro.Auth

open Maestro.Encoding Maestro.Crypto Maestro.Db Maestro.Ui

/-- `userPutHandler` が読む利用者のうち、写す欄：`Disabled`、`Admin`、`Groups`。 -/
structure UserEdit where
  id : Int
  disabled : Bool
  admin : Bool
  groups : List Int
  deriving DecidableEq, Repr

/-- session の cookie の値：利用者の id（`"id"`）と Google の id（`"oid"`）。 -/
structure Cookie where
  uid : Int
  oid : String
  deriving DecidableEq, Repr

/-- 要求の資格：`X-Api-Token` の値と、session の cookie。 -/
structure Cred where
  token : List UInt8
  cookie : Option Cookie
  deriving DecidableEq, Repr

/-- `RequireLogin` の後ろの handler。 -/
inductive Route
  /-- `PUT /admin/user`（`userPutHandler`）。 -/
  | userPut (e : UserEdit)
  /-- `POST /admin/group`（`groupPostHandler`）。 -/
  | groupPost (name : String) (adminUserId : Int)
  /-- `PUT /admin/group`（`groupPutHandler`）。 -/
  | groupPut (g : GroupRow)
  /-- `DELETE /admin/group/{id}`（`groupDeleteHandler`）。 -/
  | groupDelete (id : Int)
  /-- ほかの `/admin/` の handler と、`/run/{id}/start`、`/run/{id}/resume`：`requireAdmin` の後ろで、四つの表を
  書かない。 -/
  | adminOther
  /-- `GET /user/token`（`userTokenGetHandler`）。 -/
  | userToken
  /-- `POST /table/`（`tablePostHandler`）：新しい表の group。 -/
  | tablePost (groupId : Int)
  /-- `PUT /table/{id}`（`tablePutHandler`）：要求の本体の表。 -/
  | tablePut (t : TableRow)
  /-- `DELETE /table/{id}`（`tableDeleteHandler`）。 -/
  | tableDelete (id : Int)
  /-- `GET /table/{id}/run` と `GET /table/{id}/reimport`：表を読み、`tableWriteAccessAllowed` の後で走らせる。 -/
  | tableRun (id : Int)
  /-- `POST /table/{id}/load_external`（`tableLoadExternalHandler`）。 -/
  | tableLoadExternal (id : Int)
  /-- 四つの表を書かない handler。`allowToken` は `RequireLogin` の二つ目の引数。 -/
  | other (allowToken : Bool)
  deriving DecidableEq, Repr

/-- `RequireLogin` の `allowToken`：token を受け取るのは、表の API の一部だけ。 -/
def Route.allowToken : Route → Bool
  | .tableLoadExternal _ => true
  | .other b => b
  | _ => false

/-- `/admin/` の下の handler と、run の開始と再開は `requireAdmin` で包まれる。 -/
def Route.adminOnly : Route → Bool
  | .userPut _ | .groupPost .. | .groupPut _ | .groupDelete _ | .adminOther => true
  | _ => false

/-- `tableWriteAccessAllowed` の後にすること。 -/
inductive TableOp
  /-- `tablePutHandler` の `SaveTable(&t)`。 -/
  | put (t : TableRow)
  /-- `tableDeleteHandler` の `SaveTable(t)`（`DeletedAt` を付けて）。`t` は、その前に `SelectTable` で読んだ行。 -/
  | delete (t : TableRow)
  /-- `RunTable`、`ReimportTable`。 -/
  | run
  deriving DecidableEq, Repr

/-- 要求の goroutine のプログラムカウンタ。`uid` は、`RequireLogin` が要求に付けた利用者の id
（`GetHttpRequestUserId`）。 -/
inductive Pc
  | done
  /-- `ValidUser` の `SELECT ... WHERE oauth_id = $1`。`email` は小文字にした後。 -/
  | loginSelect (oid email : String)
  /-- 行がなかった：`INSERT ... ON CONFLICT`。 -/
  | loginInsert (oid email : String)
  /-- 最初の利用者：`InsertGroup("default", 1)`。 -/
  | loginGroup (oid : String) (u : User)
  /-- 最初の利用者の `SaveUser`：`UPDATE users`。 -/
  | loginSave (oid : String) (u : User)
  /-- その `SaveUser` の `user_groups` の transaction。 -/
  | loginSaveGroups (oid : String) (u : User)
  /-- `RequireLogin`：token を調べる。 -/
  | admitToken (cred : Cred) (r : Route)
  /-- `RequireLogin`：cookie を調べ、一秒を超えていれば確かめる。 -/
  | admitCookie (c : Option Cookie) (r : Route)
  /-- `requireAdmin`：`SelectUser(userId)` の `Admin`。 -/
  | adminCheck (uid : Int) (r : Route)
  /-- `userPutHandler`：`SelectUser(u.Id)`。 -/
  | putSelect (uid : Int) (e : UserEdit)
  /-- `userPutHandler` の `SaveUser`：`UPDATE users`。 -/
  | putSave (uid : Int) (u : User)
  /-- その `SaveUser` の `user_groups` の transaction。 -/
  | putSaveGroups (uid : Int) (u : User)
  /-- `userTokenGetHandler`：`SelectUser(userId)` の一つ目の問い合わせ。 -/
  | tokenSelect (uid : Int)
  /-- `SelectUser` の二つ目の問い合わせと、token がなければ `GenerateToken`。 -/
  | tokenGroups (uid : Int) (u : User)
  /-- `GenerateAndSaveToken` の `SaveUser`：暗号にして `UPDATE users`。 -/
  | tokenSave (uid : Int) (u : User)
  /-- その `SaveUser` の `user_groups` の transaction。 -/
  | tokenSaveGroups (uid : Int) (u : User)
  /-- `groupPostHandler`：`InsertGroup`。 -/
  | groupInsert (uid : Int) (name : String) (adminUserId : Int)
  /-- `groupPutHandler`：`SaveGroup`。 -/
  | groupSave (uid : Int) (g : GroupRow)
  /-- `DeleteGroup`：属する表を数える。 -/
  | groupCount (uid : Int) (id : Int)
  /-- `DeleteGroup` の transaction。 -/
  | groupDrop (uid : Int) (id : Int)
  /-- `tablePostHandler`：`SelectUser(t.UserId)` の一つ目の問い合わせ。 -/
  | tpSelect (uid : Int) (groupId : Int)
  /-- `SelectUser` の二つ目の問い合わせと、group の確かめ。 -/
  | tpGroups (uid : Int) (groupId : Int) (u : User)
  /-- `InsertTable`。 -/
  | tpInsert (uid : Int) (groupId : Int)
  /-- `tableDeleteHandler`（`run` でなければ）、`tableRunHandler` と `tableReimportHandler`（`run` なら）の最初の
  `SelectTable(id)`。 -/
  | fetchTable (uid : Int) (id : Int) (run : Bool)
  /-- `tableWriteAccessAllowed`：`SelectTable(tid)`。 -/
  | accessTable (uid : Int) (tid : Int) (op : TableOp)
  /-- `SelectUser(uid)` の一つ目の問い合わせ。`tbl` は読んだ表。 -/
  | accessUser (uid : Int) (tbl : Option TableRow) (op : TableOp)
  /-- `SelectUser` の二つ目の問い合わせと、確かめ。 -/
  | accessGroups (uid : Int) (tbl : Option TableRow) (u : User) (op : TableOp)
  /-- 確かめを通った `SaveTable`。`checked` は、確かめで読んだ表の group。 -/
  | tableSave (uid : Int) (checked : Option Int) (t : TableRow)
  /-- `tableLoadExternalHandler`：`SelectTable(id)`。 -/
  | tleSelect (uid : Int) (id : Int)
  /-- `tableLoadExternalHandler` の `SaveTable(t)`：読んだ行を、誤りを消して書き戻す。 -/
  | tleSave (uid : Int) (t : TableRow)
  /-- 四つの表を書かない handler。 -/
  | serve (uid : Int)
  deriving DecidableEq, Repr

/-- `users` の `admin` と `disabled` を書いた記録：書いた者（最初の利用者の `ValidUser` は `0`）と、書いた行と値。 -/
structure Grant where
  granter : Int
  id : Int
  admin : Bool
  disabled : Bool
  deriving DecidableEq, Repr

/-- `user_groups` に書いた行の記録：書いた者（最初の利用者の `ValidUser` は `0`、`GenerateAndSaveToken` は利用者
自身）と、書いた組。 -/
structure Member where
  granter : Int
  user : Int
  group : Int
  deriving DecidableEq, Repr

/-- ログインと API の要求が共有する状態。`env` と `allowedDomain` は起動のときに決まる。 -/
structure Site where
  store : Store
  env : CryptEnv
  allowedDomain : String
  lastCheck : Option Int
  cookies : List Cookie
  threads : List Pc
  grants : List Grant
  members : List Member

/-- 一歩。 -/
inductive Event
  /-- Google から戻った `issueSession`：Google の利用者の id と email。 -/
  | login (gid email : String)
  /-- 資格 `cred` を持つ、`r` への要求。 -/
  | request (cred : Cred) (r : Route)
  /-- goroutine `tid` の一歩：時刻 `now`（ナノ秒）と、乱数の読み手が返すバイト `rand`。 -/
  | thread (tid : Nat) (now : Int) (rand : List UInt8)

/-! ## 一つの handler の中の計算 -/

/-- `ValidUser` の終わり：止められた利用者でなく、表の `email` が domain で終われば `user.Id`、ほかは `0`。 -/
def validId (domain : String) (u : User) : Int :=
  if u.disabled then 0 else if Go.hasSuffix u.email domain then u.id else 0

/-- `ValidUser` の、表を読む前の部分：domain が空なら `0`。`email` を小文字にし、空でなく domain で終わら
なければ `0`。 -/
def loginEntry (domain gid email : String) : Pc :=
  if domain = "" then .done
  else if Go.toLower email ≠ "" ∧ Go.hasSuffix (Go.toLower email) domain = false then .done
  else .loginSelect gid (Go.toLower email)

/-- `RequireLogin` の確かめ `ValidUser(oauthId, "")`。`email` が空なので、行がなければ挿入せずに `0`。
`userFromRow` が誤りなら `0`。 -/
def recheck (env : CryptEnv) (domain : String) (st : Store) (oid : String) : Int :=
  if domain = "" then 0
  else match st.userByOAuth oid with
    | none => 0
    | some r =>
      match userOfRow env r with
      | some (.ok u) => validId domain u
      | _ => 0

/-- `time.Now().Sub(g.lastCheck) > time.Second`。零の時刻からは、いつも一秒を超える。 -/
def expired (lastCheck : Option Int) (now : Int) : Bool :=
  match lastCheck with
  | none => true
  | some t => now - t > 1000000000

/-- `SaveUser` の一つ目の文：token があれば暗号にして（nonce は `rand`）、`UPDATE users`。`Db.saveUser` と同じ
暗号の計算。 -/
def saveRow (st : Store) (env : CryptEnv) (rand : List UInt8) (u : User) : Option (Except String (Store × User)) :=
  let enc : Option (Except String User) :=
    if 0 < u.plainToken.length then
      (encryptString env.aead (Hex.encodeToString u.plainToken) env.secret rand).map
        (·.map fun ct => { u with cryptToken := ct })
    else some (.ok u)
  enc.map fun r => r.bind fun u => (st.updateUser u).map (·, u)

/-- `requireAdmin` を通った後の handler。 -/
def Route.handler (uid : Int) : Route → Pc
  | .userPut e => .putSelect uid e
  | .groupPost name a => .groupInsert uid name a
  | .groupPut g => .groupSave uid g
  | .groupDelete id => .groupCount uid id
  | .adminOther => .serve uid
  | .userToken => .tokenSelect uid
  | .tablePost g => .tpSelect uid g
  | .tablePut t => .accessTable uid t.id (.put t)
  | .tableDelete id => .fetchTable uid id false
  | .tableRun id => .fetchTable uid id true
  | .tableLoadExternal id => .tleSelect uid id
  | .other _ => .serve uid

/-- `tableWriteAccessAllowed` を通った後。`checked` は確かめで読んだ表の group。 -/
def TableOp.next (uid : Int) (checked : Option Int) : TableOp → Pc
  | .put t => .tableSave uid checked t
  | .delete t => .tableSave uid checked { t with deleted := true }
  | .run => .serve uid

/-- `RequireLogin` が `uid` として通した後。`/admin/` の下は `requireAdmin` から。 -/
def Route.admitted (uid : Int) (r : Route) : Pc := if r.adminOnly then .adminCheck uid r else r.handler uid

namespace Site

variable (s : Site)

def spawn (pc : Pc) : Site := { s with threads := s.threads ++ [pc] }

def setStore (st : Store) : Site := { s with store := st }

/-- `issueSession`：`ValidUser` の値が `0` でなければ、cookie を出す。 -/
def issue (oid : String) (u : User) : Site :=
  if validId s.allowedDomain u ≠ 0 then { s with cookies := s.cookies ++ [⟨validId s.allowedDomain u, oid⟩] }
  else s

/-- `userFromRow` の後の `ValidUser`：作った最初の利用者は `InsertGroup` へ。ほかは `issue`。 -/
def afterRow (oid : String) (created : Bool) : Option (Except String User) → Site × Pc
  | some (.ok u) => if created ∧ u.id = 1 then (s, .loginGroup oid u) else (s.issue oid u, .done)
  | _ => (s, .done)

/-- 記録を足して `SaveUser` の一つ目の文。 -/
def saveWith (rand : List UInt8) (u : User) (granter : Option Int) (k : User → Pc) : Option (Site × Pc) :=
  match saveRow s.store s.env rand u with
  | none => none
  | some (.error _) => some (s, .done)
  | some (.ok (st, u')) =>
    some ({ s with
        store := st
        grants := match granter with
          | some g => s.grants ++ [⟨g, u'.id, u'.admin, u'.disabled⟩]
          | none => s.grants }, k u')

/-- `SaveUser` の `user_groups` の transaction。書いた組を、書いた者 `granter` とともに記録する。誤りなら何も
変えない。 -/
def saveGroups (granter : Int) (u : User) (k : Site → Site) : Site × Pc :=
  match s.store.setUserGroups u.id u.groups with
  | .error _ => (s, .done)
  | .ok st => (k { s with store := st, members := s.members ++ u.groups.map (⟨granter, u.id, ·⟩) }, .done)

/-- `SaveTable(t)`。誤りなら何も変えない。 -/
def saveTable (t : TableRow) : Site × Pc :=
  match s.store.saveTable t with
  | .error _ => (s, .done)
  | .ok st => (s.setStore st, .done)

end Site

/-! ## goroutine の一歩 -/

/-- goroutine の一歩。`SelectUser` の行がなく、`nil` の利用者で止まる handler は、`net/http` が止まりを拾って
要求を終える（`.done`）。`padRight` が終わらなければ一歩はない（`none`）。 -/
def threadStep (s : Site) (now : Int) (rand : List UInt8) : Pc → Option (Site × Pc)
  | .done => none
  | .loginSelect oid email =>
    match s.store.userByOAuth oid with
    | some r => some (s.afterRow oid false (userOfRow s.env r))
    | none => if email = "" then some (s, .done) else some (s, .loginInsert oid email)
  | .loginInsert oid email =>
    let (st, r) := s.store.insertUser oid email
    some ((s.setStore st).afterRow oid true (userOfRow s.env r))
  | .loginGroup oid u =>
    match s.store.insertGroup "default" 1 with
    | (st, .error _) => some (s.setStore st, .done)
    | (st, .ok ()) =>
      some (s.setStore st, .loginSave oid { u with admin := true, disabled := false, groups := u.groups ++ [1] })
  | .loginSave oid u => s.saveWith rand u (some 0) (.loginSaveGroups oid)
  | .loginSaveGroups oid u => some (s.saveGroups 0 u (·.issue oid u))
  | .admitToken cred r =>
    if r.allowToken then
      match tokenChecker s.env s.store.tokens cred.token with
      | none => some (s, .done)
      | some uid => if uid ≠ 0 then some (s, r.admitted uid) else some (s, .admitCookie cred.cookie r)
    else some (s, .admitCookie cred.cookie r)
  | .admitCookie none _ => some (s, .done)
  | .admitCookie (some c) r =>
    if c.uid = 0 then some (s, .done)
    else if expired s.lastCheck now then
      let s' := { s with lastCheck := some now }
      if recheck s.env s.allowedDomain s.store c.oid ≠ 0 then some (s', r.admitted c.uid) else some (s', .done)
    else some (s, r.admitted c.uid)
  | .adminCheck uid r =>
    match s.store.selectUserRow s.env uid with
    | some (.ok u) => if u.admin then some (s, r.handler uid) else some (s, .done)
    | _ => some (s, .done)
  | .putSelect uid e =>
    match s.store.selectUserRow s.env e.id with
    | some (.ok u) =>
      some (s, .putSave uid { u with disabled := e.disabled, admin := e.admin, groups := e.groups, plainToken := [] })
    | _ => some (s, .done)
  | .putSave uid u => s.saveWith rand u (some uid) (.putSaveGroups uid)
  | .putSaveGroups uid u => some (s.saveGroups uid u id)
  | .tokenSelect uid =>
    match s.store.selectUserRow s.env uid with
    | some (.ok u) => some (s, .tokenGroups uid u)
    | _ => some (s, .done)
  | .tokenGroups uid u =>
    if u.plainToken.length = 0 then
      match generateToken rand with
      | .error _ => some (s, .done)
      | .ok tok => some (s, .tokenSave uid { u with groups := s.store.groupIdsOf uid u.admin, plainToken := tok })
    else some (s, .done)
  | .tokenSave uid u => s.saveWith rand u none (.tokenSaveGroups uid)
  | .tokenSaveGroups uid u => some (s.saveGroups uid u id)
  | .groupInsert _ name a => some (s.setStore (s.store.insertGroup name a).1, .done)
  | .groupSave _ g =>
    match s.store.saveGroup g with
    | .error _ => some (s, .done)
    | .ok st => some (s.setStore st, .done)
  | .groupCount uid id => if s.store.groupInUse id then some (s, .done) else some (s, .groupDrop uid id)
  | .groupDrop _ id =>
    match s.store.deleteGroup id with
    | .error _ => some (s, .done)
    | .ok st => some (s.setStore st, .done)
  | .tpSelect uid g =>
    match s.store.selectUserRow s.env uid with
    | some (.ok u) => some (s, .tpGroups uid g u)
    | _ => some (s, .done)
  | .tpGroups uid g u =>
    if u.admin || (s.store.groupIdsOf uid u.admin).contains g then some (s, .tpInsert uid g) else some (s, .done)
  | .tpInsert uid g => some (s.setStore (s.store.insertTable uid g).1, .done)
  | .fetchTable uid id run =>
    match s.store.selectTable id with
    | none => some (s, .done)
    | some t => some (s, .accessTable uid t.id (if run then .run else .delete t))
  | .accessTable uid tid op => some (s, .accessUser uid (s.store.selectTable tid) op)
  | .accessUser uid tbl op =>
    match s.store.selectUserRow s.env uid with
    | some (.ok u) => some (s, .accessGroups uid tbl u op)
    | _ => some (s, .done)
  | .accessGroups uid tbl u op =>
    if u.admin then some (s, op.next uid (tbl.map (·.groupId)))
    else
      match tbl with
      | none => some (s, .done)
      | some t =>
        if (s.store.groupIdsOf uid u.admin).contains t.groupId then some (s, op.next uid (some t.groupId))
        else some (s, .done)
  | .tableSave _ _ t => some (s.saveTable t)
  | .tleSelect uid id =>
    match s.store.selectTable id with
    | none => some (s, .done)
    | some t => some (s, .tleSave uid t)
  | .tleSave _ t => some (s.saveTable t)
  | .serve _ => some (s, .done)

/-- 一歩。要求が出せる cookie は、出された cookie だけで、ほかの cookie は `securecookie` が退けて、cookie の
ない要求になる。 -/
def step (s : Site) : Event → Option Site
  | .login gid email => some (s.spawn (loginEntry s.allowedDomain gid email))
  | .request cred r =>
    some (s.spawn (.admitToken { cred with cookie := cred.cookie.filter fun c => decide (c ∈ s.cookies) } r))
  | .thread tid now rand => do
    let pc ← s.threads[tid]?
    let (s', pc') ← threadStep s now rand pc
    pure { s' with threads := s'.threads.set tid pc' }

/-- 起動したばかりのカタログ：利用者も group もない。 -/
def Site.init (env : CryptEnv) (domain : String) : Site :=
  ⟨Store.empty, env, domain, none, [], [], [], []⟩

/-- `s₀` から届く状態。 -/
inductive Reachable (s₀ : Site) : Site → Prop
  | init : Reachable s₀ s₀
  | step {s s' : Site} {e : Event} : Reachable s₀ s → step s e = some s' → Reachable s₀ s'

/-- 列の一歩ずつを順に。 -/
def run (s : Site) : List Event → Option Site
  | [] => some s
  | e :: es => (step s e).bind (run · es)

theorem reachable_of_run {s₀ : Site} : ∀ {s s' : Site} {es : List Event},
    Reachable s₀ s → run s es = some s' → Reachable s₀ s'
  | _, _, [], hs, h => by cases h; exact hs
  | s, _, e :: es, hs, h => by
    simp only [run, Option.bind_eq_some] at h
    obtain ⟨s₁, h₁, h⟩ := h
    exact reachable_of_run (hs.step h₁) h

/-- 列を最後まで進めて `p` が成り立てば、`p` の成り立つ届く状態がある。 -/
theorem reach_of_run {s₀ : Site} {es : List Event} {p : Site → Bool} (h : (run s₀ es).map p = some true) :
    ∃ s, Reachable s₀ s ∧ p s = true := by
  cases hr : run s₀ es with
  | none => simp [hr] at h
  | some s => exact ⟨s, reachable_of_run .init hr, by simpa [hr] using h⟩

end Maestro.Auth
