import Maestro.Auth.Invariant

/-!
# ログインと API の要求の定理

起動から届くどの状態でも成り立つこと：

* session の cookie の二つの値（利用者の id と Google の id）は、いつも同じ一つの行を指す
  （`session_cookie_bound`）。`RequireLogin` の確かめは Google の id で行を引くが、それは要求に付ける id の行である。
* 行の `admin` と `disabled` には記録の出どころがあり、記録はどれも、最初の利用者の初めてのログインか、前に管理者に
  なった者が書いたもの（`admin_rights_rooted`）。
* `RequireLogin` を通った goroutine の利用者には行があり、`requireAdmin` を通った goroutine の利用者は、記録で
  管理者になった者（`handlers_authorized`）。
* cookie の要求が通るのは、前の確かめ（だれの要求のものでも）から一秒以内か、cookie の利用者の行が止められておらず、
  email が domain で終わるとき（`admitCookie_iff`）。

証明は `Invariant.lean` の `Inv` から導く。
-/

namespace Maestro.Auth

open Maestro.Encoding Maestro.Crypto Maestro.Db Maestro.Ui

variable {env : CryptEnv} {domain : String} {s : Site}

/-! ## 例 -/

/-- 例の起動：暗号にしない `Aead`、domain は `example.com`、表はない。 -/
def exampleStart : Site := Site.init ⟨.identity, utf8 "12345678"⟩ "example.com"

/-- 最初の利用者が `Ann@example.com` でログインし（goroutine 0）、その cookie で `/user/token` を要求して
（goroutine 1）、`RequireLogin` を通る。 -/
def firstUserToken : List Event :=
  [.login "g1" "Ann@example.com", .thread 0 0 [], .thread 0 0 [], .thread 0 0 [], .thread 0 0 [], .thread 0 0 [],
   .request ⟨[], some ⟨1, "g1"⟩⟩ .userToken, .thread 1 0 [], .thread 1 0 []]

/-- 出した cookie の二つの値は、同じ一つの行を指す：`WHERE id = $1` と `WHERE oauth_id = $1` は同じ行を返し、
id は正。 -/
theorem session_cookie_bound (h : Reachable (Site.init env domain) s) {c : Cookie} (hc : c ∈ s.cookies) :
    0 < c.uid ∧ ∃ r, s.store.userById c.uid = some r ∧ s.store.userByOAuth c.oid = some r := by
  have hs := h.inv.1.1
  have hi := hs.cookies c hc
  obtain ⟨r, hr, hid, -⟩ := Store.mem_idents.1 hi
  obtain ⟨r', hr', hid'⟩ := Store.userByOAuth_of_mem hs.wf hi
  refine ⟨(hs.wf.id_pos _ hi).1, r, hid ▸ Store.userById_of_mem hs.wf hr, ?_⟩
  rw [hr', hs.wf.row_unique (Store.userByOAuth_mem hr').1 hr (hid'.trans hid.symm)]

theorem session_cookie_bound_first_user :
    ∃ s, Reachable exampleStart s ∧ ⟨1, "g1"⟩ ∈ s.cookies ∧
      0 < (1 : Int) ∧ ∃ r, s.store.userById 1 = some r ∧ s.store.userByOAuth "g1" = some r := by
  obtain ⟨s, hs, hp⟩ := @reach_of_run exampleStart firstUserToken (fun s => decide (⟨1, "g1"⟩ ∈ s.cookies))
    (by decide)
  exact ⟨s, hs, of_decide_eq_true hp, session_cookie_bound hs (of_decide_eq_true hp)⟩

/-! ## 管理者の権限の出どころ -/

/-- 記録で管理者になった者があれば、最初の利用者の初めてのログインの記録がある。 -/
theorem Rooted.root {gs : List Grant} (h : Rooted gs) {uid : Int} (ha : IsAdmin gs uid) :
    ∃ g ∈ gs, g.granter = 0 ∧ g.id = 1 ∧ g.admin = true := by
  induction h generalizing uid with
  | nil => obtain ⟨g, hg, -⟩ := ha; cases hg
  | @snoc gs g _ ho ih =>
    obtain ⟨g', hg', hid, had⟩ := ha
    rcases List.mem_append.1 hg' with hg' | hg'
    · obtain ⟨g₀, hg₀, h₀⟩ := ih ⟨g', hg', hid, had⟩
      exact ⟨g₀, List.mem_append_left _ hg₀, h₀⟩
    · obtain rfl := List.mem_singleton.1 hg'
      rcases ho with ⟨h₁, h₂, h₃, -⟩ | ho
      · exact ⟨g', List.mem_append_right _ (List.mem_singleton_self _), h₁, h₂, h₃⟩
      · obtain ⟨g₀, hg₀, h₀⟩ := ih ho
        exact ⟨g₀, List.mem_append_left _ hg₀, h₀⟩

/-- 行の `admin` と `disabled` は、挿入したときの値か、記録が書いた値で、記録はどれも、最初の利用者の初めての
ログインか、前の記録で管理者になった者が書いたもの。だから、管理者の行があれば、最初の利用者の初めてのログインの
記録がある。 -/
theorem admin_rights_rooted (h : Reachable (Site.init env domain) s) :
    Rooted s.grants ∧ (∀ r ∈ s.store.users, Flagged s.grants r.id r.admin r.disabled) ∧
      ∀ r ∈ s.store.users, r.admin = true → ∃ g ∈ s.grants, g.granter = 0 ∧ g.id = 1 ∧ g.admin = true := by
  have hs := h.inv.1.1
  refine ⟨hs.rooted, hs.flags, fun r hr ha => ?_⟩
  have hf := hs.flags r hr
  rw [ha] at hf
  exact hs.rooted.root hf.isAdmin

theorem admin_rights_rooted_first_user :
    ∃ s, Reachable exampleStart s ∧ s.grants = [⟨0, 1, true, false⟩] ∧
      Rooted s.grants ∧ (∀ r ∈ s.store.users, Flagged s.grants r.id r.admin r.disabled) ∧
        ∀ r ∈ s.store.users, r.admin = true → ∃ g ∈ s.grants, g.granter = 0 ∧ g.id = 1 ∧ g.admin = true := by
  obtain ⟨s, hs, hp⟩ := @reach_of_run exampleStart firstUserToken (fun s => s.grants = [⟨0, 1, true, false⟩])
    (by decide)
  exact ⟨s, hs, of_decide_eq_true hp, admin_rights_rooted hs⟩

/-- `RequireLogin` が要求に付けた利用者の id。 -/
def Pc.user : Pc → Option Int
  | .adminCheck uid _ | .putSelect uid _ | .putSave uid _ | .putSaveGroups uid _ | .tokenSelect uid
  | .tokenGroups uid _ | .tokenSave uid _ | .tokenSaveGroups uid _ | .groupInsert uid .. | .groupSave uid _
  | .groupCount uid _ | .groupDrop uid _ | .serve uid | .tpSelect uid _ | .tpGroups uid .. | .tpInsert uid _
  | .fetchTable uid .. | .accessTable uid .. | .accessUser uid .. | .accessGroups uid .. | .tableSave uid ..
  | .tleSelect uid _ | .tleSave uid _ => some uid
  | .done | .loginSelect .. | .loginInsert .. | .loginGroup .. | .loginSave .. | .loginSaveGroups ..
  | .admitToken .. | .admitCookie .. => none

/-- `requireAdmin` を通った後の handler。 -/
def Pc.pastAdmin : Pc → Bool
  | .putSelect .. | .putSave .. | .putSaveGroups .. | .groupInsert .. | .groupSave .. | .groupCount ..
  | .groupDrop .. => true
  | _ => false

/-- `RequireLogin` を通った goroutine の利用者には行があり、`requireAdmin` を通った goroutine の利用者は、記録で
管理者になった者。 -/
theorem handlers_authorized (h : Reachable (Site.init env domain) s) {pc : Pc} (hpc : pc ∈ s.threads)
    {uid : Int} (hu : pc.user = some uid) : s.store.HasId uid ∧ (pc.pastAdmin = true → IsAdmin s.grants uid) := by
  obtain ⟨hs, ht⟩ := h.inv.1
  have hp := ht pc hpc
  have hadm : IsAdmin s.grants uid → s.store.HasId uid := fun ⟨g, hg, hid, _⟩ => hid ▸ hs.granted g hg
  cases pc <;> simp only [Pc.user, Option.some.injEq, reduceCtorEq] at hu <;> subst hu
  all_goals first
    | exact ⟨hp, fun h => nomatch h⟩
    | exact ⟨hadm hp, fun _ => hp⟩
    | exact ⟨hadm hp.1, fun _ => hp.1⟩
    | exact ⟨hp.1, fun h => nomatch h⟩
    | exact ⟨⟨_, hp.1 ▸ hp.2.1⟩, fun h => nomatch h⟩

theorem handlers_authorized_first_user :
    ∃ s, Reachable exampleStart s ∧ Pc.tokenSelect 1 ∈ s.threads ∧ (Pc.tokenSelect 1).user = some 1 ∧
      s.store.HasId 1 ∧ ((Pc.tokenSelect 1).pastAdmin = true → IsAdmin s.grants 1) := by
  obtain ⟨s, hs, hp⟩ := @reach_of_run exampleStart firstUserToken (fun s => decide (Pc.tokenSelect 1 ∈ s.threads))
    (by decide)
  exact ⟨s, hs, of_decide_eq_true hp, rfl, handlers_authorized hs (of_decide_eq_true hp) rfl⟩

/-! ## cookie の確かめ -/

theorem validId_ne_zero_iff {d : String} {u : User} :
    validId d u ≠ 0 ↔ u.disabled = false ∧ Go.hasSuffix u.email d = true ∧ u.id ≠ 0 := by
  unfold validId
  split_ifs <;> simp_all

/-- `ValidUser(oauthId, "")` が `0` でないのは、行が読めて、止められておらず、email が domain で終わるとき。 -/
theorem recheck_ne_zero_iff {st : Store} {oid : String} {row : UserRow} (h : st.userByOAuth oid = some row) :
    recheck env domain st oid ≠ 0 ↔ (∃ u, userOfRow env row = some (.ok u)) ∧ domain ≠ "" ∧
      row.disabled = false ∧ Go.hasSuffix row.email domain = true ∧ row.id ≠ 0 := by
  unfold recheck
  rw [h]
  by_cases hd : domain = ""
  · simp [hd]
  · simp only [hd, if_false]
    cases hu : userOfRow env row with
    | none => simp
    | some e =>
      cases e with
      | error => simp
      | ok u =>
        obtain ⟨p, rfl⟩ := userOfRow_ok hu
        simp [validId_ne_zero_iff, hd]

theorem Route.admitted_ne_done (r : Route) (uid : Int) : r.admitted uid ≠ .done := by
  unfold Route.admitted
  split
  · exact nofun
  · cases r <;> exact nofun

/-- 出した cookie の要求を `RequireLogin` が通すのは、前の確かめ（だれの要求のものでも）から一秒を超えていない
ときか、超えていて、cookie の利用者の行が読めて、止められておらず、email が domain で終わるとき。 -/
theorem admitCookie_iff (h : Reachable (Site.init env domain) s) {c : Cookie} (hc : c ∈ s.cookies)
    (r : Route) (now : Int) (rand : List UInt8) :
    (∃ s', threadStep s now rand (.admitCookie (some c) r) = some (s', r.admitted c.uid)) ↔
      expired s.lastCheck now = false ∨
        ∃ row ∈ s.store.users, row.id = c.uid ∧ (∃ u, userOfRow env row = some (.ok u)) ∧ domain ≠ "" ∧
          row.disabled = false ∧ Go.hasSuffix row.email domain = true := by
  obtain ⟨⟨hs, -⟩, hg⟩ := h.inv
  have he : s.env = env := hg.env
  have hd : s.allowedDomain = domain := hg.domain
  subst he hd
  have hi := hs.cookies c hc
  have hpos : 0 < c.uid := (hs.wf.id_pos _ hi).1
  obtain ⟨row, hrow, hid⟩ := Store.userByOAuth_of_mem hs.wf hi
  have hmem := (Store.userByOAuth_mem hrow).1
  have hchk : recheck s.env s.allowedDomain s.store c.oid ≠ 0 ↔ _ := recheck_ne_zero_iff hrow
  have hne := Route.admitted_ne_done r c.uid
  simp only [threadStep, hpos.ne', if_false]
  cases hexp : expired s.lastCheck now
  · simp
  · simp only [if_true, Bool.true_eq_false, false_or]
    by_cases hr : recheck s.env s.allowedDomain s.store c.oid ≠ 0
    · rw [if_pos hr]
      obtain ⟨hu, hd, hdis, hsuf, -⟩ := hchk.1 hr
      exact iff_of_true ⟨_, rfl⟩ ⟨row, hmem, hid, hu, hd, hdis, hsuf⟩
    · rw [if_neg hr]
      refine iff_of_false (fun ⟨_, h'⟩ => hne (Prod.mk.inj (Option.some.inj h')).2.symm) ?_
      rintro ⟨row', h', hid', hu, hd, hdis, hsuf⟩
      obtain rfl := hs.wf.row_unique h' hmem (hid'.trans hid.symm)
      exact hr (hchk.2 ⟨hu, hd, hdis, hsuf, hid ▸ hpos.ne'⟩)

theorem admitCookie_iff_first_user :
    ∃ s, Reachable exampleStart s ∧ ⟨1, "g1"⟩ ∈ s.cookies ∧
      ((∃ s', threadStep s 0 [] (.admitCookie (some ⟨1, "g1"⟩) .userToken) = some (s', Route.userToken.admitted 1)) ↔
        expired s.lastCheck 0 = false ∨
          ∃ row ∈ s.store.users, row.id = 1 ∧ (∃ u, userOfRow exampleStart.env row = some (.ok u)) ∧
            "example.com" ≠ "" ∧ row.disabled = false ∧ Go.hasSuffix row.email "example.com" = true) := by
  obtain ⟨s, hs, hp⟩ := @reach_of_run exampleStart firstUserToken (fun s => decide (⟨1, "g1"⟩ ∈ s.cookies))
    (by decide)
  exact ⟨s, hs, of_decide_eq_true hp, admitCookie_iff hs (of_decide_eq_true hp) .userToken 0 []⟩

/-! ## `/user/token` の goroutine と `Ui.userTokenGetHandler` -/

end Maestro.Auth
