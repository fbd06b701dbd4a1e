import Mathlib.Data.List.Nodup
import Maestro.Auth.Step

/-!
# 利用者の表と session の不変条件

`users` の行の `(id, oauth_id)` の組は、挿入で増えるだけで、書き換えでは変わらない：`SaveUser` が書くのは、
`SelectUser` で読んだ行の写しだからである（`idents_updateUser`）。二つの一意の索引と `SERIAL` は、その組の並びの
性質である（`Store.Wf`）。

管理者の権限の出どころは、記録 `grants` で言う。行の `admin` と `disabled` は、挿入したときの値か、記録のどれかが
書いた値であり（`Flagged`）、記録のどれも、最初の利用者の `ValidUser` か、それより前の記録で管理者になった者が
書いたものである（`Rooted`）。`GenerateAndSaveToken` の `SaveUser` は、読んだときの `admin` と `disabled` を
書き戻すが、それも前に記録が書いた値である。

group の組も、記録 `members` で言う。`user_groups` の組はどれも記録にあり、記録のどれも、最初の利用者のログインか、
管理者が書いたものか、前の記録にある組を書き戻したものである（`MOrigin`）。表を書く goroutine の利用者は、管理者
か、確かめた group に記録で結ばれた者である（`PcOk` の `tpInsert` と `tableSave`）。
-/

namespace Maestro.Auth

open Maestro.Encoding Maestro.Crypto Maestro.Db Maestro.Ui

/-! ## 行の写し -/

/-- `userFromRow` の利用者は、行の欄の写しで、group はまだない。 -/
theorem userOfRow_ok {env : CryptEnv} {r : UserRow} {u : User} (h : userOfRow env r = some (.ok u)) :
    ∃ p, u = ⟨r.id, r.oauthId, r.email, r.disabled, r.admin, r.apiToken, p, []⟩ := by
  obtain ⟨e, -, he⟩ := Option.map_eq_some'.1 h
  cases e with
  | error => cases he
  | ok v => exact ⟨v.plainToken, (Except.ok.inj he).symm⟩

namespace Store

variable {st st' : Store}

/-- 行の id と Google の id の組。 -/
def idents (st : Store) : List (Int × String) := st.users.map fun r => (r.id, r.oauthId)

/-- 利用者 `uid` の行があること。 -/
def HasId (st : Store) (uid : Int) : Prop := ∃ o, (uid, o) ∈ st.idents

@[simp] theorem mem_idents {i : Int} {o : String} : (i, o) ∈ st.idents ↔ ∃ r ∈ st.users, r.id = i ∧ r.oauthId = o := by
  simp [idents]

theorem mem_idents_of_mem {r : UserRow} (h : r ∈ st.users) : (r.id, r.oauthId) ∈ st.idents :=
  mem_idents.2 ⟨r, h, rfl, rfl⟩

/-- 一意の索引と `SERIAL`：id は正で、次の値より小さい。id も Google の id も重ならない。 -/
structure Wf (st : Store) : Prop where
  next_pos : 0 < st.nextUserId
  id_pos : ∀ p ∈ st.idents, 0 < p.1 ∧ p.1 < st.nextUserId
  ids_nodup : (st.idents.map Prod.fst).Nodup
  oids_nodup : (st.idents.map Prod.snd).Nodup

/-- 同じ id の組は同じ組。 -/
theorem Wf.oid_unique (hw : st.Wf) {i : Int} {o o' : String} (h : (i, o) ∈ st.idents) (h' : (i, o') ∈ st.idents) :
    o = o' := by
  simpa using List.inj_on_of_nodup_map hw.ids_nodup h h' rfl

/-- 同じ Google の id の組は同じ組。 -/
theorem Wf.id_unique (hw : st.Wf) {i i' : Int} {o : String} (h : (i, o) ∈ st.idents) (h' : (i', o) ∈ st.idents) :
    i = i' := by
  simpa using List.inj_on_of_nodup_map hw.oids_nodup h h' rfl

/-- 二つの表で行の組と `SERIAL` が同じなら、一意の索引の条件も同じ。 -/
theorem Wf.of_idents (hw : st.Wf) (h : st'.idents = st.idents) (hn : st'.nextUserId = st.nextUserId) : st'.Wf :=
  ⟨hn ▸ hw.next_pos, by rw [h, hn]; exact hw.id_pos, by rw [h]; exact hw.ids_nodup, by rw [h]; exact hw.oids_nodup⟩

/-- 行があれば、`WHERE oauth_id = $1` はその行の組を返す。 -/
theorem userByOAuth_of_mem (hw : st.Wf) {i : Int} {o : String} (h : (i, o) ∈ st.idents) :
    ∃ r, st.userByOAuth o = some r ∧ r.id = i := by
  obtain ⟨r₀, hr₀, -, rfl⟩ := mem_idents.1 h
  obtain ⟨r, hr⟩ : ∃ r, st.userByOAuth r₀.oauthId = some r :=
    Option.isSome_iff_exists.1 (List.find?_isSome.2 ⟨r₀, hr₀, by simp⟩)
  obtain ⟨hmem, ho⟩ := userByOAuth_mem hr
  refine ⟨r, hr, hw.id_unique (mem_idents_of_mem hmem) ?_⟩
  rw [ho]; exact h

/-! ### 表の操作ごとに -/

/-- 行の組と `SERIAL` を変えず、`user_groups` に組を足さない操作。 -/
def SameUsers (st st' : Store) : Prop :=
  st'.users = st.users ∧ st'.nextUserId = st.nextUserId ∧ st'.userGroups ⊆ st.userGroups

/-- `user_groups` の transaction は、利用者 `uid` の組だけを書く。 -/
theorem setUserGroups_ok {uid : Int} {gids : List Int} (h : st.setUserGroups uid gids = .ok st') :
    st'.users = st.users ∧ st'.nextUserId = st.nextUserId ∧
      ∀ p ∈ st'.userGroups, p ∈ st.userGroups ∨ p.1 = uid ∧ p.2 ∈ gids := by
  unfold setUserGroups at h
  split at h <;> cases h
  refine ⟨rfl, rfl, fun p hp => ?_⟩
  rcases List.mem_append.1 hp with hp | hp
  · exact .inl (List.mem_of_mem_filter hp)
  · obtain ⟨g, hg, rfl⟩ := List.mem_map.1 hp
    exact .inr ⟨rfl, hg⟩

theorem insertGroup_same (st : Store) (name : String) (a : Int) : SameUsers st (st.insertGroup name a).1 := by
  unfold insertGroup
  split <;> exact ⟨rfl, rfl, fun _ h => h⟩

theorem saveGroup_same {g : GroupRow} (h : st.saveGroup g = .ok st') : SameUsers st st' := by
  unfold saveGroup at h
  split at h <;> cases h
  exact ⟨rfl, rfl, fun _ h => h⟩

theorem deleteGroup_same {id : Int} (h : st.deleteGroup id = .ok st') : SameUsers st st' := by
  unfold deleteGroup at h
  split at h <;> cases h
  exact ⟨rfl, rfl, List.filter_subset' _⟩

theorem insertTable_same (st : Store) (uid g : Int) : SameUsers st (st.insertTable uid g).1 := by
  unfold insertTable
  split <;> exact ⟨rfl, rfl, fun _ h => h⟩

theorem saveTable_same {t : TableRow} (h : st.saveTable t = .ok st') : SameUsers st st' := by
  unfold saveTable at h
  split at h <;> cases h
  exact ⟨rfl, rfl, fun _ h => h⟩

/-- 管理者でない利用者の `SelectUser` が読む group は、`user_groups` で結んだ group。 -/
theorem mem_groupIdsOf_false {uid g : Int} (h : g ∈ st.groupIdsOf uid false) : (uid, g) ∈ st.userGroups := by
  simp only [groupIdsOf, Bool.false_eq_true, if_false, List.mem_filterMap, List.mem_filter, Option.map_eq_some'] at h
  obtain ⟨ug, ⟨hug, hu⟩, gr, hgr, rfl⟩ := h
  have hid : gr.id = ug.2 := by simpa using List.find?_some hgr
  have hu' : ug.1 = uid := by simpa using hu
  rw [hid, ← hu']
  exact hug

/-- `INSERT ... ON CONFLICT` が返す行は、表にあって、Google の id が `oid` である。 -/
theorem insertUser_row (st : Store) (oid email : String) :
    (st.insertUser oid email).2 ∈ (st.insertUser oid email).1.users ∧ (st.insertUser oid email).2.oauthId = oid := by
  unfold insertUser
  split
  · rename_i r hr
    exact userByOAuth_mem hr
  · simp

/-- 挿入の後の行は、前からの行か、管理者でなく止められた新しい行。 -/
theorem mem_insertUser {oid email : String} {r : UserRow} (h : r ∈ (st.insertUser oid email).1.users) :
    r ∈ st.users ∨ (r.admin = false ∧ r.disabled = true) := by
  unfold insertUser at h
  split at h
  · exact .inl h
  · simp only [List.mem_append, List.mem_singleton] at h
    rcases h with h | rfl
    · exact .inl h
    · exact .inr ⟨rfl, rfl⟩

theorem idents_insertUser_subset (st : Store) (oid email : String) :
    st.idents ⊆ (st.insertUser oid email).1.idents := by
  unfold insertUser
  split
  · exact fun _ h => h
  · simp [idents]

/-- 挿入は、一意の索引と `SERIAL` の条件を保つ。 -/
theorem Wf.insertUser (hw : st.Wf) (oid email : String) : (st.insertUser oid email).1.Wf := by
  have hlt : ∀ p ∈ st.idents, 0 < p.1 ∧ p.1 < st.nextUserId + 1 := fun p hp =>
    ⟨(hw.id_pos p hp).1, by have := (hw.id_pos p hp).2; omega⟩
  unfold Store.insertUser
  split
  · exact ⟨by have := hw.next_pos; simp only; omega, hlt, hw.ids_nodup, hw.oids_nodup⟩
  · rename_i hnone
    have hfresh : oid ∉ st.idents.map Prod.snd := by
      simp only [idents, List.map_map, List.mem_map, Function.comp_def, not_exists, not_and]
      intro r hr ho
      simpa [ho] using List.find?_eq_none.1 hnone r hr
    have hnew : st.nextUserId ∉ st.idents.map Prod.fst := by
      simp only [List.mem_map, not_exists, not_and]
      exact fun p hp he => by have := (hw.id_pos p hp).2; omega
    have hi : idents { st with
        nextUserId := st.nextUserId + 1
        users := st.users ++ [⟨st.nextUserId, oid, email, [], false, true⟩] } =
        st.idents ++ [(st.nextUserId, oid)] := by simp [idents]
    refine ⟨by have := hw.next_pos; simp only; omega, ?_, ?_, ?_⟩ <;> rw [hi]
    · simp only [List.mem_append, List.mem_singleton]
      rintro p (hp | rfl)
      · exact hlt p hp
      · exact ⟨hw.next_pos, by dsimp only; omega⟩
    · simp only [List.map_append, List.map_singleton, List.nodup_append, List.nodup_singleton,
        List.disjoint_singleton, true_and]
      exact ⟨hw.ids_nodup, hnew⟩
    · simp only [List.map_append, List.map_singleton, List.nodup_append, List.nodup_singleton,
        List.disjoint_singleton, true_and]
      exact ⟨hw.oids_nodup, hfresh⟩

/-- `UPDATE` の後の行は、前からの行か、書いた行。 -/
theorem mem_updateUser {u : User} (h : st.updateUser u = .ok st') {r : UserRow} (hr : r ∈ st'.users) :
    r ∈ st.users ∨ r = rowOf u := by
  unfold updateUser at h
  split at h <;> cases h
  obtain ⟨r₀, hr₀, rfl⟩ := List.mem_map.1 hr
  by_cases hid : r₀.id = u.id <;> simp [hid, hr₀]

theorem updateUser_nextUserId {u : User} (h : st.updateUser u = .ok st') :
    st'.nextUserId = st.nextUserId ∧ st'.userGroups = st.userGroups := by
  unfold updateUser at h
  split at h <;> cases h
  exact ⟨rfl, rfl⟩

/-- 読んだ行の写しを書けば、行の組は変わらない。 -/
theorem idents_updateUser (hw : st.Wf) {u : User} (hu : (u.id, u.oauthId) ∈ st.idents)
    (h : st.updateUser u = .ok st') : st'.idents = st.idents := by
  unfold updateUser at h
  split at h <;> cases h
  simp only [idents, List.map_map]
  refine List.map_congr_left fun r hr => ?_
  by_cases hid : r.id = u.id
  · have ho := hw.oid_unique hu (hid ▸ mem_idents_of_mem hr)
    simp [hid, rowOf, ho]
  · simp [hid]

theorem HasId.mono {uid : Int} (h : st.idents ⊆ st'.idents) : st.HasId uid → st'.HasId uid
  | ⟨o, ho⟩ => ⟨o, h ho⟩

/-- 行のある id は正。 -/
theorem Wf.pos_of_hasId (hw : st.Wf) {uid : Int} : st.HasId uid → 0 < uid
  | ⟨_, h⟩ => (hw.id_pos _ h).1

/-- id が同じ行は同じ行。 -/
theorem Wf.row_unique (hw : st.Wf) {r r' : UserRow} (hr : r ∈ st.users) (hr' : r' ∈ st.users) (h : r.id = r'.id) :
    r = r' := by
  have hn : (st.users.map (·.id)).Nodup := by simpa [idents, List.map_map, Function.comp_def] using hw.ids_nodup
  exact List.inj_on_of_nodup_map hn hr hr' h

/-- 行があれば、`WHERE id = $1` はその行を返す。 -/
theorem userById_of_mem (hw : st.Wf) {r : UserRow} (hr : r ∈ st.users) : st.userById r.id = some r := by
  obtain ⟨r', hr'⟩ : ∃ r', st.userById r.id = some r' :=
    Option.isSome_iff_exists.1 (List.find?_isSome.2 ⟨r, hr, by simp⟩)
  obtain ⟨hmem, hid⟩ := userById_mem hr'
  rw [hr', hw.row_unique hmem hr hid]

end Store

/-! ## 記録 -/

/-- 行 `id` の `admin` と `disabled` は、挿入したときのまま（管理者でなく、止められている）か、記録のどれかが
書いた値である。 -/
def Flagged (gs : List Grant) (id : Int) (admin disabled : Bool) : Prop :=
  (admin = false ∧ disabled = true) ∨ ∃ g ∈ gs, g.id = id ∧ g.admin = admin ∧ g.disabled = disabled

/-- 記録のどれかが、利用者 `uid` を管理者にした。 -/
def IsAdmin (gs : List Grant) (uid : Int) : Prop := ∃ g ∈ gs, g.id = uid ∧ g.admin = true

/-- 記録 `g` の出どころ：最初の利用者の `ValidUser` が行 `1` を管理者にして止めを外したものか、前の記録 `gs`
で管理者になった者が書いたもの。 -/
def Origin (gs : List Grant) (g : Grant) : Prop :=
  (g.granter = 0 ∧ g.id = 1 ∧ g.admin = true ∧ g.disabled = false) ∨ IsAdmin gs g.granter

/-- 記録のどれにも、それより前の記録に出どころ `origin` がある。 -/
inductive Logged {α : Type} (origin : List α → α → Prop) : List α → Prop
  | nil : Logged origin []
  | snoc {l : List α} {a : α} : Logged origin l → origin l a → Logged origin (l ++ [a])

/-- `grants` のどれにも、それより前の記録に出どころがある。 -/
abbrev Rooted : List Grant → Prop := Logged Origin

/-- 記録 `ms` のどれかが、利用者 `uid` を group `g` に結んだ。 -/
def Joined (ms : List Member) (uid g : Int) : Prop := ∃ m ∈ ms, m.user = uid ∧ m.group = g

/-- 利用者 `uid` は group `g` に入っている：記録で管理者になった者（`SelectUser` はすべての group を読む）か、
記録が `g` に結んだ者。 -/
def InGroup (gs : List Grant) (ms : List Member) (uid g : Int) : Prop := IsAdmin gs uid ∨ Joined ms uid g

/-- `members` の記録 `m` の出どころ：最初の利用者の `ValidUser` が利用者 `1` を group `1` に結んだものか、記録 `gs`
で管理者になった者が書いたものか、前の記録 `ms` にある組を書き戻したもの。 -/
def MOrigin (gs : List Grant) (ms : List Member) (m : Member) : Prop :=
  (m.granter = 0 ∧ m.user = 1 ∧ m.group = 1) ∨ IsAdmin gs m.granter ∨ Joined ms m.user m.group

instance (gs : List Grant) (uid : Int) : Decidable (IsAdmin gs uid) :=
  inferInstanceAs (Decidable (∃ g ∈ gs, g.id = uid ∧ g.admin = true))

instance (ms : List Member) (uid g : Int) : Decidable (Joined ms uid g) :=
  inferInstanceAs (Decidable (∃ m ∈ ms, m.user = uid ∧ m.group = g))

instance (gs : List Grant) (ms : List Member) (uid g : Int) : Decidable (InGroup gs ms uid g) :=
  inferInstanceAs (Decidable (IsAdmin gs uid ∨ Joined ms uid g))

section Logged

variable {α : Type} {origin origin' : List α → α → Prop}

theorem Logged.mono (h : ∀ l a, origin l a → origin' l a) {l : List α} (hl : Logged origin l) : Logged origin' l := by
  induction hl with
  | nil => exact .nil
  | snoc _ ho ih => exact ih.snoc (h _ _ ho)

/-- 出どころが、記録が増えても出どころであり続けるなら、前の記録に出どころのあるものは、いくつ足しても。 -/
theorem Logged.append (hmono : ∀ l l' a, origin l a → origin (l ++ l') a) {as : List α} :
    ∀ {l : List α}, Logged origin l → (∀ a ∈ as, origin l a) → Logged origin (l ++ as) := by
  induction as with
  | nil => intro l hl _; simpa using hl
  | cons a as ih =>
    intro l hl h
    rw [← List.singleton_append, ← List.append_assoc]
    exact ih (hl.snoc (h a (List.mem_cons_self _ _))) fun b hb => hmono _ _ _ (h b (List.mem_cons_of_mem _ hb))

end Logged

section Grants

variable {gs gs' : List Grant} {id : Int} {admin disabled : Bool}

theorem Flagged.mono (h : gs ⊆ gs') : Flagged gs id admin disabled → Flagged gs' id admin disabled
  | .inl hd => .inl hd
  | .inr ⟨g, hg, he⟩ => .inr ⟨g, h hg, he⟩

theorem IsAdmin.mono (h : gs ⊆ gs') : IsAdmin gs id → IsAdmin gs' id
  | ⟨g, hg, he⟩ => ⟨g, h hg, he⟩

/-- 記録にある値は、書いた行について `Flagged`。 -/
theorem Flagged.of_mem {g : Grant} (h : g ∈ gs) : Flagged gs g.id g.admin g.disabled := .inr ⟨g, h, rfl, rfl, rfl⟩

/-- 管理者である行は、記録のどれかが管理者にした。 -/
theorem Flagged.isAdmin : Flagged gs id true disabled → IsAdmin gs id
  | .inr ⟨g, hg, hid, ha, _⟩ => ⟨g, hg, hid, ha⟩

variable {ms ms' : List Member} {uid g : Int}

theorem Joined.mono (h : ms ⊆ ms') : Joined ms uid g → Joined ms' uid g
  | ⟨m, hm, he⟩ => ⟨m, h hm, he⟩

theorem InGroup.mono (hg : gs ⊆ gs') (hm : ms ⊆ ms') : InGroup gs ms uid g → InGroup gs' ms' uid g
  | .inl h => .inl (h.mono hg)
  | .inr h => .inr (h.mono hm)

theorem MOrigin.mono (hg : gs ⊆ gs') (hm : ms ⊆ ms') {m : Member} : MOrigin gs ms m → MOrigin gs' ms' m
  | .inl h => .inl h
  | .inr h => .inr (h.imp (IsAdmin.mono hg) (Joined.mono hm))

end Grants

/-! ## 状態の不変条件 -/

namespace Site

/-- `s'` は `s` より後：行の組、記録、出した cookie は増えるだけで、`env` と domain は変わらない。 -/
structure Grows (s s' : Site) : Prop where
  idents : s.store.idents ⊆ s'.store.idents
  grants : s.grants ⊆ s'.grants
  cookies : s.cookies ⊆ s'.cookies
  members : s.members ⊆ s'.members
  env : s'.env = s.env
  domain : s'.allowedDomain = s.allowedDomain

theorem Grows.refl (s : Site) : s.Grows s := ⟨fun _ h => h, fun _ h => h, fun _ h => h, fun _ h => h, rfl, rfl⟩

theorem Grows.trans {s s' s'' : Site} (h₁ : s.Grows s') (h₂ : s'.Grows s'') : s.Grows s'' :=
  ⟨fun _ h => h₂.idents (h₁.idents h), fun _ h => h₂.grants (h₁.grants h), fun _ h => h₂.cookies (h₁.cookies h),
    fun _ h => h₂.members (h₁.members h), h₂.env.trans h₁.env, h₂.domain.trans h₁.domain⟩

/-- 表、cookie、記録の不変条件。cookie の二つの値は一つの行の組で、行の `admin` と `disabled` には記録の出どころが
あり、記録は行のある利用者についてのもの。`user_groups` の組は記録にあり、記録には出どころがある。 -/
structure Safe (s : Site) : Prop where
  wf : s.store.Wf
  cookies : ∀ c ∈ s.cookies, (c.uid, c.oid) ∈ s.store.idents
  flags : ∀ r ∈ s.store.users, Flagged s.grants r.id r.admin r.disabled
  granted : ∀ g ∈ s.grants, s.store.HasId g.id
  rooted : Rooted s.grants
  userGroups : ∀ p ∈ s.store.userGroups, Joined s.members p.1 p.2
  joined : Logged (MOrigin s.grants) s.members

end Site

/-- goroutine が持つ値の条件。ログインの goroutine が持つ利用者は、その Google の id の行の写しで、`RequireLogin`
を通った goroutine の利用者には行があり、`requireAdmin` を通った goroutine の利用者は、記録で管理者になった者。
`userTokenGetHandler` が読んだ利用者の `admin` と `disabled` には記録の出どころがあり、書く group には入っている。
表を書く goroutine の利用者は、管理者か、確かめた group に記録で結ばれた者。 -/
def PcOk (s : Site) : Pc → Prop
  | .loginGroup oid u => u.id = 1 ∧ u.oauthId = oid ∧ (1, oid) ∈ s.store.idents ∧ u.groups = []
  | .loginSave oid u =>
    u.id = 1 ∧ u.oauthId = oid ∧ (1, oid) ∈ s.store.idents ∧ u.admin = true ∧ u.disabled = false ∧ u.groups = [1]
  | .loginSaveGroups oid u => (u.id, oid) ∈ s.store.idents ∧ u.id = 1 ∧ u.groups = [1]
  | .admitToken cred _ => ∀ c ∈ cred.cookie, c ∈ s.cookies
  | .admitCookie c _ => ∀ c' ∈ c, c' ∈ s.cookies
  | .adminCheck uid _ | .tokenSelect uid | .serve uid | .tpSelect uid _ | .fetchTable uid .. | .accessTable uid ..
  | .accessUser uid .. | .tleSelect uid _ | .tleSave uid _ => s.store.HasId uid
  | .putSelect uid _ | .putSaveGroups uid _ | .groupInsert uid .. | .groupSave uid _ | .groupCount uid _
  | .groupDrop uid _ => IsAdmin s.grants uid
  | .putSave uid u => IsAdmin s.grants uid ∧ (u.id, u.oauthId) ∈ s.store.idents
  | .tokenGroups uid u =>
    u.id = uid ∧ (u.id, u.oauthId) ∈ s.store.idents ∧ Flagged s.grants u.id u.admin u.disabled
  | .tokenSave uid u =>
    u.id = uid ∧ (u.id, u.oauthId) ∈ s.store.idents ∧ Flagged s.grants u.id u.admin u.disabled ∧
      ∀ g ∈ u.groups, InGroup s.grants s.members uid g
  | .tokenSaveGroups uid u => s.store.HasId uid ∧ u.id = uid ∧ ∀ g ∈ u.groups, InGroup s.grants s.members uid g
  | .tpGroups uid _ u | .accessGroups uid _ u _ => s.store.HasId uid ∧ (u.admin = true → IsAdmin s.grants uid)
  | .tpInsert uid g => s.store.HasId uid ∧ InGroup s.grants s.members uid g
  | .tableSave uid c _ => s.store.HasId uid ∧ (IsAdmin s.grants uid ∨ ∃ g, c = some g ∧ Joined s.members uid g)
  | .done | .loginSelect .. | .loginInsert .. => True

/-- 後の状態でも、goroutine の条件は成り立つ。 -/
theorem PcOk.mono {s s' : Site} (h : s.Grows s') : ∀ {pc : Pc}, PcOk s pc → PcOk s' pc
  | .loginGroup .., ⟨h₁, h₂, h₃, h₄⟩ => ⟨h₁, h₂, h.idents h₃, h₄⟩
  | .loginSave .., ⟨h₁, h₂, h₃, h₄, h₅, h₆⟩ => ⟨h₁, h₂, h.idents h₃, h₄, h₅, h₆⟩
  | .loginSaveGroups .., ⟨h₁, h₂⟩ => ⟨h.idents h₁, h₂⟩
  | .admitToken .., hp | .admitCookie .., hp => fun c hc => h.cookies (hp c hc)
  | .adminCheck .., hp | .tokenSelect _, hp | .serve _, hp | .tpSelect .., hp | .fetchTable .., hp
  | .accessTable .., hp | .accessUser .., hp | .tleSelect .., hp | .tleSave .., hp => Store.HasId.mono h.idents hp
  | .putSelect .., hp | .putSaveGroups .., hp | .groupInsert .., hp | .groupSave .., hp | .groupCount .., hp
  | .groupDrop .., hp => IsAdmin.mono h.grants hp
  | .putSave .., ⟨ha, hi⟩ => ⟨IsAdmin.mono h.grants ha, h.idents hi⟩
  | .tokenGroups .., ⟨h₁, h₂, h₃⟩ => ⟨h₁, h.idents h₂, Flagged.mono h.grants h₃⟩
  | .tokenSave .., ⟨h₁, h₂, h₃, h₄⟩ =>
    ⟨h₁, h.idents h₂, Flagged.mono h.grants h₃, fun g hg => (h₄ g hg).mono h.grants h.members⟩
  | .tokenSaveGroups .., ⟨h₁, h₂, h₃⟩ =>
    ⟨Store.HasId.mono h.idents h₁, h₂, fun g hg => (h₃ g hg).mono h.grants h.members⟩
  | .tpGroups .., ⟨h₁, h₂⟩ | .accessGroups .., ⟨h₁, h₂⟩ =>
    ⟨Store.HasId.mono h.idents h₁, fun ha => (h₂ ha).mono h.grants⟩
  | .tpInsert .., ⟨h₁, h₂⟩ => ⟨Store.HasId.mono h.idents h₁, h₂.mono h.grants h.members⟩
  | .tableSave .., ⟨h₁, h₂⟩ =>
    ⟨Store.HasId.mono h.idents h₁, h₂.imp (IsAdmin.mono h.grants) fun ⟨g, hc, hj⟩ => ⟨g, hc, hj.mono h.members⟩⟩
  | .done, _ | .loginSelect .., _ | .loginInsert .., _ => trivial

/-- goroutine の一歩の後で成り立つこと。goroutine の並びは変わらない。 -/
structure StepOk (s s' : Site) (pc' : Pc) : Prop where
  safe : s'.Safe
  grows : s.Grows s'
  pc : PcOk s' pc'
  threads : s'.threads = s.threads

theorem StepOk.stay {s : Site} {pc : Pc} (hs : s.Safe) (hp : PcOk s pc) : StepOk s s pc := ⟨hs, .refl s, hp, rfl⟩

/-- 前に `Grows` の一歩をつなぐ。 -/
theorem StepOk.after {s s₁ s' : Site} {pc : Pc} (hg : s.Grows s₁) (ht : s₁.threads = s.threads)
    (h : StepOk s₁ s' pc) : StepOk s s' pc :=
  ⟨h.safe, hg.trans h.grows, h.pc, h.threads.trans ht⟩

/-! ## 一歩の部品 -/

section Parts

variable {s s' : Site} {pc pc' : Pc}

/-- 行、`SERIAL`、cookie、記録、`env`、domain が同じで、`user_groups` に組を足さない一歩。 -/
theorem StepOk.same (hs : s.Safe) (hp : PcOk s pc) (hu : s.store.SameUsers s'.store) (hc : s'.cookies = s.cookies)
    (hg : s'.grants = s.grants) (hm : s'.members = s.members) (he : s'.env = s.env)
    (hd : s'.allowedDomain = s.allowedDomain) (ht : s'.threads = s.threads) : StepOk s s' pc := by
  have hi : s'.store.idents = s.store.idents := by simp only [Store.idents, hu.1]
  have hgr : s.Grows s' := ⟨hi ▸ fun _ h => h, hg ▸ fun _ h => h, hc ▸ fun _ h => h, hm ▸ fun _ h => h, he, hd⟩
  refine ⟨⟨hs.wf.of_idents hi hu.2.1, ?_, ?_, ?_, hg ▸ hs.rooted, ?_, hg ▸ hm ▸ hs.joined⟩, hgr, hp.mono hgr, ht⟩
  · rw [hc, hi]; exact hs.cookies
  · rw [hu.1, hg]; exact hs.flags
  · rw [hg]; exact fun g h => (hs.granted g h).mono (hi ▸ fun _ h => h)
  · rw [hm]; exact fun p h => hs.userGroups p (hu.2.2 h)

theorem StepOk.setStore (hs : s.Safe) (hp : PcOk s pc) {st : Store} (h : s.store.SameUsers st) :
    StepOk s (s.setStore st) pc :=
  .same hs hp h rfl rfl rfl rfl rfl rfl

theorem validId_ne_zero {d : String} {u : User} (h : validId d u ≠ 0) : validId d u = u.id := by
  unfold validId at h ⊢
  split_ifs at h ⊢ <;> first | rfl | exact absurd rfl h

/-- `issueSession` の cookie は、行の組の二つの値を持つ。 -/
theorem StepOk.issue (hs : s.Safe) {u : User} {oid : String} (h : (u.id, oid) ∈ s.store.idents) :
    StepOk s (s.issue oid u) .done := by
  unfold Site.issue
  split
  · rename_i hv
    refine ⟨⟨hs.wf, ?_, hs.flags, hs.granted, hs.rooted, hs.userGroups, hs.joined⟩,
      ⟨fun _ h => h, fun _ h => h, List.subset_append_left _ _, fun _ h => h, rfl, rfl⟩, trivial, rfl⟩
    simp only [List.mem_append, List.mem_singleton]
    rintro c (hc | rfl)
    · exact hs.cookies c hc
    · rw [validId_ne_zero hv]; exact h
  · exact .stay hs trivial

/-- `userFromRow` の後：作った最初の利用者は `InsertGroup` へ、ほかは `issueSession`。 -/
theorem StepOk.afterRow (hs : s.Safe) {r : UserRow} {oid : String} (hr : r ∈ s.store.users) (ho : r.oauthId = oid)
    {created : Bool} (h : s.afterRow oid created (userOfRow s.env r) = (s', pc')) : StepOk s s' pc' := by
  unfold Site.afterRow at h
  have hi : (r.id, oid) ∈ s.store.idents := ho ▸ Store.mem_idents_of_mem hr
  split at h
  · rename_i u hu
    obtain ⟨p, rfl⟩ := userOfRow_ok hu
    split at h <;> cases h
    · rename_i hc; exact .stay hs ⟨hc.2, ho, hc.2 ▸ hi, rfl⟩
    · exact .issue hs hi
  · cases h; exact .stay hs trivial

/-- `INSERT ... ON CONFLICT` の一歩。 -/
theorem Site.Safe.insertUser (hs : s.Safe) (oid email : String) :
    (s.setStore (s.store.insertUser oid email).1).Safe ∧ s.Grows (s.setStore (s.store.insertUser oid email).1) := by
  have hsub := Store.idents_insertUser_subset s.store oid email
  have hug : (s.store.insertUser oid email).1.userGroups = s.store.userGroups := by
    unfold Store.insertUser; split <;> rfl
  refine ⟨⟨hs.wf.insertUser oid email, fun c hc => hsub (hs.cookies c hc), fun r hr => ?_,
    fun g hg => (hs.granted g hg).mono hsub, hs.rooted, hug ▸ hs.userGroups, hs.joined⟩,
    ⟨hsub, fun _ h => h, fun _ h => h, fun _ h => h, rfl, rfl⟩⟩
  rcases Store.mem_insertUser hr with hr | hd
  · exact hs.flags r hr
  · exact .inl hd

/-- `SaveUser` の一つ目の文が書いたのは、`u` の token の欄だけを変えた写し。 -/
theorem saveRow_ok {st st' : Store} {env : CryptEnv} {rand : List UInt8} {u u' : User}
    (h : saveRow st env rand u = some (.ok (st', u'))) :
    u' = { u with cryptToken := u'.cryptToken } ∧ st.updateUser u' = .ok st' := by
  unfold saveRow at h
  split_ifs at h
  · cases he : encryptString env.aead (Hex.encodeToString u.plainToken) env.secret rand with
    | none => simp [he] at h
    | some e =>
      cases e <;> simp only [he, Option.map_some', Option.some.injEq, Except.map, Except.bind] at h
      · cases h
      · split at h <;> cases h
        rename_i hu; exact ⟨rfl, hu⟩
  · simp only [Option.map_some', Option.some.injEq, Except.bind, Except.map] at h
    split at h <;> cases h
    rename_i hu; exact ⟨rfl, hu⟩

/-- `SaveUser` の一つ目の文の一歩：何もしないか、token の欄だけを変えた写しを書いて記録を足す。 -/
theorem saveWith_cases {rand : List UInt8} {u : User} {granter : Option Int} {k : User → Pc}
    (h : s.saveWith rand u granter k = some (s', pc')) :
    (s' = s ∧ pc' = .done) ∨ ∃ st ct, s.store.updateUser { u with cryptToken := ct } = .ok st ∧
      s' = { s with
        store := st
        grants := s.grants ++ (granter.map fun g => (⟨g, u.id, u.admin, u.disabled⟩ : Grant)).toList } ∧
      pc' = k { u with cryptToken := ct } := by
  unfold Site.saveWith at h
  split at h
  · cases h
  · cases h; exact .inl ⟨rfl, rfl⟩
  · rename_i st u' hsave
    cases h
    obtain ⟨hu', hup⟩ := saveRow_ok hsave
    rw [hu'] at hup ⊢
    refine .inr ⟨st, u'.cryptToken, hup, ?_, rfl⟩
    cases granter <;> simp

/-- 読んだ行の写しを書いて記録 `gs` を足す一歩。写しの `admin` と `disabled` に足した後の記録の出どころがあれば、
不変条件は保たれる。 -/
theorem Site.Safe.update (hs : s.Safe) {u : User} (hu : (u.id, u.oauthId) ∈ s.store.idents) {st : Store}
    (h : s.store.updateUser u = .ok st) (gs : List Grant) (hgs : Rooted (s.grants ++ gs))
    (hgid : ∀ g ∈ gs, g.id = u.id) (hf : Flagged (s.grants ++ gs) u.id u.admin u.disabled) :
    ({ s with store := st, grants := s.grants ++ gs } : Site).Safe ∧
      s.Grows { s with store := st, grants := s.grants ++ gs } := by
  have hi := Store.idents_updateUser hs.wf hu h
  have hsub : s.store.idents ⊆ st.idents := hi ▸ fun _ h => h
  have hn := Store.updateUser_nextUserId h
  have hgsub : s.grants ⊆ s.grants ++ gs := List.subset_append_left _ _
  refine ⟨⟨hs.wf.of_idents hi hn.1, fun c hc => hsub (hs.cookies c hc), ?_, ?_, hgs, hn.2 ▸ hs.userGroups,
    hs.joined.mono fun _ _ h => h.mono hgsub fun _ h => h⟩, ⟨hsub, hgsub, fun _ h => h, fun _ h => h, rfl, rfl⟩⟩
  · intro r hr
    rcases Store.mem_updateUser h hr with hr | rfl
    · exact (hs.flags r hr).mono hgsub
    · exact hf
  · intro g hg
    rcases List.mem_append.1 hg with hg | hg
    · exact (hs.granted g hg).mono hsub
    · exact ⟨u.oauthId, hsub (hgid g hg ▸ hu)⟩

/-- `SaveUser` の `user_groups` の transaction の一歩。 -/
theorem saveGroups_cases {granter : Int} {u : User} {k : Site → Site} (h : s.saveGroups granter u k = (s', pc')) :
    pc' = .done ∧ (s' = s ∨ ∃ st, s.store.setUserGroups u.id u.groups = .ok st ∧
      s' = k { s with store := st, members := s.members ++ u.groups.map (⟨granter, u.id, ·⟩) }) := by
  unfold Site.saveGroups at h
  split at h <;> cases h
  · exact ⟨rfl, .inl rfl⟩
  · rename_i st hst
    exact ⟨rfl, .inr ⟨st, hst, rfl⟩⟩

/-- `user_groups` を書いて記録を足す一歩。書く組のどれにも出どころがあれば、不変条件は保たれる。 -/
theorem StepOk.joinGroups (hs : s.Safe) {granter : Int} {u : User} {st : Store}
    (h : s.store.setUserGroups u.id u.groups = .ok st)
    (ho : ∀ g ∈ u.groups, MOrigin s.grants s.members ⟨granter, u.id, g⟩) :
    StepOk s { s with store := st, members := s.members ++ u.groups.map (⟨granter, u.id, ·⟩) } .done := by
  obtain ⟨hu, hn, hug⟩ := Store.setUserGroups_ok h
  have hi : st.idents = s.store.idents := by simp only [Store.idents, hu]
  have hsub : s.members ⊆ s.members ++ u.groups.map (⟨granter, u.id, ·⟩) := List.subset_append_left _ _
  refine ⟨⟨hs.wf.of_idents hi hn, hi ▸ hs.cookies, hu ▸ hs.flags, fun g h => (hs.granted g h).mono (hi ▸ fun _ h => h),
    hs.rooted, fun p hp => ?_,
    hs.joined.append (fun _ _ _ h => h.mono (fun _ h => h) (List.subset_append_left _ _)) ?_⟩,
    ⟨hi ▸ fun _ h => h, fun _ h => h, fun _ h => h, hsub, rfl, rfl⟩, trivial, rfl⟩
  · rcases hug p hp with hp | ⟨h₁, h₂⟩
    · exact (hs.userGroups p hp).mono hsub
    · exact ⟨⟨granter, u.id, p.2⟩, List.mem_append_right _ (List.mem_map.2 ⟨p.2, h₂, rfl⟩), h₁.symm, rfl⟩
  · intro m hm
    obtain ⟨g, hg, rfl⟩ := List.mem_map.1 hm
    exact ho g hg

/-- `SelectUser` の一つ目の問い合わせが読んだ利用者は、id の行の写し。 -/
theorem Store.selectUserRow_ok {st : Store} {env : CryptEnv} {id : Int} {u : User}
    (h : st.selectUserRow env id = some (.ok u)) :
    ∃ r ∈ st.users, r.id = id ∧ ∃ p, u = ⟨r.id, r.oauthId, r.email, r.disabled, r.admin, r.apiToken, p, []⟩ := by
  unfold Store.selectUserRow at h
  split at h
  · cases h
  · rename_i r hr
    obtain ⟨hmem, hid⟩ := Store.userById_mem hr
    exact ⟨r, hmem, hid, userOfRow_ok h⟩

/-- `getTokenChecker` が `0` でない id を返せば、その id の行がある。 -/
theorem Store.hasId_of_tokenChecker {st : Store} {env : CryptEnv} {tok : List UInt8} {uid : Int}
    (h : tokenChecker env st.tokens tok = some uid) (hu : uid ≠ 0) : st.HasId uid := by
  unfold tokenChecker at h
  split_ifs at h
  · exact absurd (Option.some_inj.1 h).symm hu
  split at h
  · exact absurd (Option.some_inj.1 h).symm hu
  split at h
  · cases h
  · exact absurd (Option.some_inj.1 h).symm hu
  rename_i user hsel
  split_ifs at h
  · obtain rfl := Option.some_inj.1 h
    have hid := selectUser_id hsel
    unfold selectUser at hsel
    split at hsel
    · cases hsel
    · rename_i hct
      obtain ⟨r, hr, -⟩ := Option.map_eq_some'.1 hct
      obtain ⟨hmem, hrid⟩ := Store.userById_mem hr
      exact ⟨r.oauthId, hid ▸ hrid ▸ Store.mem_idents_of_mem hmem⟩
  · exact absurd (Option.some_inj.1 h).symm hu

/-- `requireAdmin` が読んだ利用者が管理者なら、記録がその利用者を管理者にした。 -/
theorem Site.Safe.isAdmin_of_select (hs : s.Safe) {uid : Int} {u : User}
    (h : s.store.selectUserRow s.env uid = some (.ok u)) (ha : u.admin = true) : IsAdmin s.grants uid := by
  obtain ⟨r, hr, rfl, p, rfl⟩ := Store.selectUserRow_ok h
  have hf := hs.flags r hr
  rw [show r.admin = true from ha] at hf
  exact hf.isAdmin

/-- `requireAdmin` を通った後の handler の条件。 -/
theorem PcOk.handler {uid : Int} (hh : s.store.HasId uid) (ha : IsAdmin s.grants uid) (r : Route) :
    PcOk s (r.handler uid) := by
  cases r <;> first | exact hh | exact ha

/-- `RequireLogin` を通った後の条件：`/admin/` の下は `requireAdmin` から。 -/
theorem PcOk.admitted {uid : Int} (hh : s.store.HasId uid) (r : Route) : PcOk s (r.admitted uid) := by
  unfold Route.admitted
  split
  · exact hh
  · rename_i hr
    cases r <;> first | exact hh | exact absurd rfl hr

/-- `SelectUser` の二つ目の問い合わせが読む group には、利用者が入っている。 -/
theorem Site.Safe.inGroup_of_groupIdsOf (hs : s.Safe) {uid g : Int} {admin : Bool}
    (ha : admin = true → IsAdmin s.grants uid) (hg : g ∈ s.store.groupIdsOf uid admin) :
    InGroup s.grants s.members uid g := by
  cases admin with
  | true => exact .inl (ha rfl)
  | false => exact .inr (hs.userGroups _ (Store.mem_groupIdsOf_false hg))

/-- `tableWriteAccessAllowed` を通った後の条件。 -/
theorem PcOk.next {uid : Int} {c : Option Int} (hh : s.store.HasId uid)
    (h : IsAdmin s.grants uid ∨ ∃ g, c = some g ∧ Joined s.members uid g) : ∀ op : TableOp, PcOk s (op.next uid c)
  | .put _ | .delete _ => ⟨hh, h⟩
  | .run => hh

end Parts

/-! ## goroutine の一歩 -/

/-- goroutine の一歩は、不変条件を保ち、状態を `Grows` で進め、次の `pc` の条件を成り立たせる。 -/
theorem threadStep_ok {s s' : Site} {now : Int} {rand : List UInt8} {pc pc' : Pc} (hs : s.Safe) (hp : PcOk s pc)
    (h : threadStep s now rand pc = some (s', pc')) : StepOk s s' pc' := by
  cases pc with
  | done => cases h
  | loginSelect oid email =>
    simp only [threadStep] at h
    split at h
    · rename_i r hr
      obtain ⟨hmem, ho⟩ := Store.userByOAuth_mem hr
      exact .afterRow hs hmem ho (Option.some.inj h)
    · split at h <;> cases h <;> exact .stay hs trivial
  | loginInsert oid email =>
    rcases hins : s.store.insertUser oid email with ⟨st, r⟩
    simp only [threadStep, hins] at h
    have hrow := Store.insertUser_row s.store oid email
    have hsafe := hs.insertUser oid email
    rw [hins] at hrow hsafe
    exact .after hsafe.2 rfl (.afterRow hsafe.1 hrow.1 hrow.2 (Option.some.inj h))
  | loginGroup oid u =>
    obtain ⟨h₁, h₂, h₃, h₄⟩ := hp
    simp only [threadStep] at h
    have hsame := Store.insertGroup_same s.store "default" 1
    split at h <;> rename_i st _ heq <;> rw [heq] at hsame <;> cases h
    · exact .setStore hs (by trivial) hsame
    · exact .setStore hs (by exact ⟨h₁, h₂, h₃, rfl, rfl, by simp [h₄]⟩) hsame
  | loginSave oid u =>
    obtain ⟨h₁, h₂, h₃, h₄, h₅, h₆⟩ := hp
    simp only [threadStep] at h
    rcases saveWith_cases h with ⟨rfl, rfl⟩ | ⟨st, ct, hup, rfl, rfl⟩
    · exact .stay hs trivial
    · have hid : (u.id, u.oauthId) ∈ s.store.idents := by rw [h₁, h₂]; exact h₃
      obtain ⟨hs', hg⟩ := hs.update (u := { u with cryptToken := ct }) hid hup [⟨0, u.id, u.admin, u.disabled⟩]
        (.snoc hs.rooted (.inl ⟨rfl, h₁, h₄, h₅⟩)) (by simp)
        (.of_mem (List.mem_append_right _ (List.mem_singleton_self _)))
      exact ⟨hs', hg, ⟨hg.idents (by rw [h₁]; exact h₃), h₁, h₆⟩, rfl⟩
  | loginSaveGroups oid u =>
    obtain ⟨hi, h₁, h₂⟩ := hp
    obtain ⟨rfl, rfl | ⟨st, hst, rfl⟩⟩ := saveGroups_cases (Option.some.inj h)
    · exact .stay hs trivial
    · have hj := StepOk.joinGroups hs hst fun g hg => .inl ⟨rfl, h₁, by rw [h₂] at hg; exact List.mem_singleton.1 hg⟩
      exact .after hj.grows rfl (.issue hj.safe (hj.grows.idents hi))
  | admitToken cred r =>
    simp only [threadStep] at h
    split at h
    · split at h
      · cases h; exact .stay hs trivial
      · rename_i uid huid
        split at h <;> cases h
        · rename_i hne; exact .stay hs (.admitted (Store.hasId_of_tokenChecker huid hne) r)
        · exact .stay hs hp
    · cases h; exact .stay hs hp
  | admitCookie c r =>
    cases c with
    | none => cases h; exact .stay hs trivial
    | some c =>
      have hadm : PcOk s (r.admitted c.uid) := .admitted ⟨c.oid, hs.cookies c (hp c rfl)⟩ r
      simp only [threadStep] at h
      split at h
      · cases h; exact .stay hs trivial
      split at h
      · split at h <;> cases h
        · exact .same hs hadm ⟨rfl, rfl, fun _ h => h⟩ rfl rfl rfl rfl rfl rfl
        · exact .same hs trivial ⟨rfl, rfl, fun _ h => h⟩ rfl rfl rfl rfl rfl rfl
      · cases h; exact .stay hs hadm
  | adminCheck uid r =>
    simp only [threadStep] at h
    split at h
    · rename_i u hu
      split at h <;> cases h
      · rename_i ha; exact .stay hs (.handler hp (hs.isAdmin_of_select hu ha) r)
      · exact .stay hs trivial
    · cases h; exact .stay hs trivial
  | putSelect uid e =>
    simp only [threadStep] at h
    split at h
    · rename_i u hu
      cases h
      obtain ⟨r, hr, -, p, rfl⟩ := Store.selectUserRow_ok hu
      exact .stay hs ⟨hp, Store.mem_idents_of_mem hr⟩
    · cases h; exact .stay hs trivial
  | putSave uid u =>
    obtain ⟨ha, hid⟩ := hp
    simp only [threadStep] at h
    rcases saveWith_cases h with ⟨rfl, rfl⟩ | ⟨st, ct, hup, rfl, rfl⟩
    · exact .stay hs trivial
    · obtain ⟨hs', hg⟩ := hs.update (u := { u with cryptToken := ct }) hid hup [⟨uid, u.id, u.admin, u.disabled⟩]
        (.snoc hs.rooted (.inr ha)) (by simp) (.of_mem (List.mem_append_right _ (List.mem_singleton_self _)))
      exact ⟨hs', hg, ha.mono hg.grants, rfl⟩
  | putSaveGroups uid u =>
    obtain ⟨rfl, rfl | ⟨st, hst, rfl⟩⟩ := saveGroups_cases (Option.some.inj h)
    · exact .stay hs trivial
    · exact .joinGroups hs hst fun _ _ => .inr (.inl hp)
  | tokenSelect uid =>
    simp only [threadStep] at h
    split at h
    · rename_i u hu
      cases h
      obtain ⟨r, hr, hid, p, rfl⟩ := Store.selectUserRow_ok hu
      exact .stay hs ⟨hid, Store.mem_idents_of_mem hr, hs.flags r hr⟩
    · cases h; exact .stay hs trivial
  | tokenGroups uid u =>
    obtain ⟨h₁, h₂, h₃⟩ := hp
    have ha : u.admin = true → IsAdmin s.grants uid := fun ha => by rw [ha] at h₃; exact h₁ ▸ h₃.isAdmin
    simp only [threadStep] at h
    split at h
    · split at h <;> cases h
      · exact .stay hs trivial
      · exact .stay hs ⟨h₁, h₂, h₃, fun g hg => hs.inGroup_of_groupIdsOf ha hg⟩
    · cases h; exact .stay hs trivial
  | tokenSave uid u =>
    obtain ⟨h₁, hid, hf, hgr⟩ := hp
    simp only [threadStep] at h
    rcases saveWith_cases h with ⟨rfl, rfl⟩ | ⟨st, ct, hup, rfl, rfl⟩
    · exact .stay hs trivial
    · obtain ⟨hs', hg⟩ := hs.update (u := { u with cryptToken := ct }) hid hup []
        (by simpa using hs.rooted) (by simp) (by simpa using hf)
      exact ⟨by simpa using hs', by simpa using hg,
        ⟨Store.HasId.mono hg.idents ⟨_, h₁ ▸ hid⟩, h₁, fun g hm => (hgr g hm).mono hg.grants hg.members⟩, rfl⟩
  | tokenSaveGroups uid u =>
    obtain ⟨-, rfl, h₂⟩ := hp
    obtain ⟨rfl, rfl | ⟨st, hst, rfl⟩⟩ := saveGroups_cases (Option.some.inj h)
    · exact .stay hs trivial
    · exact .joinGroups hs hst fun g hg => .inr (h₂ g hg)
  | groupInsert uid name a =>
    cases h; exact .setStore hs (by trivial) (Store.insertGroup_same _ _ _)
  | groupSave uid g =>
    simp only [threadStep] at h
    split at h <;> cases h
    · exact .stay hs trivial
    · rename_i st hst; exact .setStore hs (by trivial) (Store.saveGroup_same hst)
  | groupCount uid id =>
    simp only [threadStep] at h
    split at h <;> cases h
    · exact .stay hs trivial
    · exact .stay hs hp
  | groupDrop uid id =>
    simp only [threadStep] at h
    split at h <;> cases h
    · exact .stay hs trivial
    · rename_i st hst; exact .setStore hs (by trivial) (Store.deleteGroup_same hst)
  | tpSelect uid g | accessUser uid tbl op =>
    simp only [threadStep] at h
    split at h
    · rename_i u hu
      cases h; exact .stay hs ⟨hp, hs.isAdmin_of_select hu⟩
    · cases h; exact .stay hs trivial
  | tpGroups uid g u =>
    obtain ⟨hh, ha⟩ := hp
    simp only [threadStep] at h
    split at h <;> cases h
    · rename_i hc
      rcases Bool.or_eq_true_iff.1 hc with hc | hc
      · exact .stay hs ⟨hh, .inl (ha hc)⟩
      · exact .stay hs ⟨hh, hs.inGroup_of_groupIdsOf ha (by simpa using hc)⟩
    · exact .stay hs trivial
  | tpInsert uid g => cases h; exact .setStore hs (by trivial) (Store.insertTable_same _ _ _)
  | fetchTable uid id run | tleSelect uid id =>
    simp only [threadStep] at h
    split at h <;> cases h
    · exact .stay hs trivial
    · exact .stay hs hp
  | accessTable uid tid op => cases h; exact .stay hs hp
  | accessGroups uid tbl u op =>
    obtain ⟨hh, ha⟩ := hp
    simp only [threadStep] at h
    split at h
    · rename_i hu; cases h; exact .stay hs (.next hh (.inl (ha hu)) op)
    split at h
    · cases h; exact .stay hs trivial
    split at h <;> cases h
    · rename_i hc
      rcases hs.inGroup_of_groupIdsOf ha (by simpa using hc) with hj | hj
      · exact .stay hs (.next hh (.inl hj) op)
      · exact .stay hs (.next hh (.inr ⟨_, rfl, hj⟩) op)
    · exact .stay hs trivial
  | tableSave _ _ t | tleSave _ t =>
    simp only [threadStep, Site.saveTable] at h
    split at h <;> cases h
    · exact .stay hs trivial
    · rename_i st hst; exact .setStore hs (by trivial) (Store.saveTable_same hst)
  | serve uid => cases h; exact .stay hs trivial

/-! ## 一歩と、届く状態 -/

/-- 状態の不変条件：表、cookie、記録と、どの goroutine の値も。 -/
def Inv (s : Site) : Prop := s.Safe ∧ ∀ pc ∈ s.threads, PcOk s pc

theorem step_thread {s s' : Site} {tid : Nat} {now : Int} {rand : List UInt8}
    (h : step s (.thread tid now rand) = some s') :
    ∃ pc s'' pc', s.threads[tid]? = some pc ∧ threadStep s now rand pc = some (s'', pc') ∧
      s' = { s'' with threads := s''.threads.set tid pc' } := by
  simp only [step] at h
  cases hpc : s.threads[tid]? with
  | none => simp [hpc] at h
  | some pc =>
    cases h₁ : threadStep s now rand pc with
    | none => simp [hpc, h₁] at h
    | some r =>
      obtain ⟨s'', pc'⟩ := r
      simp [hpc, h₁] at h
      exact ⟨pc, s'', pc', rfl, h₁, h.symm⟩

/-- goroutine の並びだけを変えても、不変条件は同じで、`Grows`。 -/
theorem Site.Safe.withThreads {s : Site} (hs : s.Safe) (ts : List Pc) :
    ({ s with threads := ts } : Site).Safe ∧ s.Grows { s with threads := ts } :=
  ⟨⟨hs.wf, hs.cookies, hs.flags, hs.granted, hs.rooted, hs.userGroups, hs.joined⟩,
    ⟨fun _ h => h, fun _ h => h, fun _ h => h, fun _ h => h, rfl, rfl⟩⟩

/-- 新しい goroutine を加える一歩。 -/
theorem Inv.spawn {s : Site} (hi : Inv s) {pc : Pc} (hp : PcOk s pc) : Inv (s.spawn pc) ∧ s.Grows (s.spawn pc) := by
  obtain ⟨hs', hg⟩ := hi.1.withThreads (s.threads ++ [pc])
  refine ⟨⟨hs', fun q hq => ?_⟩, hg⟩
  rcases List.mem_append.1 hq with hq | hq
  · exact (hi.2 q hq).mono hg
  · exact List.mem_singleton.1 hq ▸ hp.mono hg

/-- 一歩は不変条件を保ち、状態を `Grows` で進める。 -/
theorem Inv.step {s s' : Site} {e : Event} (hi : Inv s) (h : step s e = some s') : Inv s' ∧ s.Grows s' := by
  cases e with
  | login gid email =>
    cases h
    exact hi.spawn (by unfold loginEntry; split_ifs <;> trivial)
  | request cred r =>
    cases h
    refine hi.spawn fun c hc => ?_
    cases h' : cred.cookie with
    | none => simp [h'] at hc
    | some c' =>
      simp only [h', Option.mem_def, Option.filter] at hc
      split at hc <;> cases hc
      exact of_decide_eq_true ‹_›
  | thread tid now rand =>
    obtain ⟨pc, s'', pc', hpc, h₁, rfl⟩ := step_thread h
    have hk := threadStep_ok hi.1 (hi.2 pc (List.getElem?_mem hpc)) h₁
    obtain ⟨hs', hg⟩ := hk.safe.withThreads (s''.threads.set tid pc')
    refine ⟨⟨hs', fun q hq => ?_⟩, hk.grows.trans hg⟩
    rcases List.mem_or_eq_of_mem_set hq with hq | rfl
    · exact (hi.2 q (hk.threads ▸ hq)).mono (hk.grows.trans hg)
    · exact hk.pc.mono hg

/-- 起動したばかりの状態は、不変条件を満たす。 -/
theorem Inv.init (env : CryptEnv) (domain : String) : Inv (Site.init env domain) :=
  ⟨⟨⟨Int.one_pos, by simp [Site.init, Store.empty, Store.idents], by simp [Site.init, Store.empty, Store.idents],
    by simp [Site.init, Store.empty, Store.idents]⟩, by simp [Site.init], by simp [Site.init, Store.empty],
    by simp [Site.init], .nil, by simp [Site.init, Store.empty], .nil⟩, by simp [Site.init]⟩

/-- 起動から届く状態は、不変条件を満たし、起動の `env` と domain のまま。 -/
theorem Reachable.inv {env : CryptEnv} {domain : String} {s : Site}
    (h : Reachable (Site.init env domain) s) : Inv s ∧ (Site.init env domain).Grows s := by
  induction h with
  | init => exact ⟨.init env domain, .refl _⟩
  | step _ hs ih =>
    obtain ⟨hi, hg⟩ := ih.1.step hs
    exact ⟨hi, ih.2.trans hg⟩

end Maestro.Auth
