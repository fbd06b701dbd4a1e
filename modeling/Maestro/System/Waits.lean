import Maestro.System.Lemmas.Events

/-!
# 外部の待ちの登録簿と、表の行

起動の後に届くどの状態でも、またどの一歩でも成り立つこと。

* 外部の待ちの登録簿：登録があれば、その channel は閉じておらず、その表の時計の goroutine がその channel を
  待っているか、その時計はもう期限で終わった（`waits_pending_or_expired`）。登録を消すのは
  `cancelExternalWait` だけなので、期限で終わった待ちの登録は残る（`externalWait_outlives_timeout`）。
* 表の行：行を書く一歩は、その goroutine が持つ表の写しの、利用者が書く欄を行に書く（`tableDeleteHandler` は
  消した時刻を付けて書く、`step_tables`）。写しが古ければ、その間の利用者の変更は戻る
  （`timeout_restores_deleted_table`）。

反例は、起動の直後の状態から goroutine の一歩と外からの一歩を並べた列をたどり、その終わりの状態で性質が
破れることを、カーネルの計算で確かめる。goroutine の番号は起動の順：起動の時の監視と走り、六つの import の
worker、その後に起きた goroutine の順である。
-/

namespace Maestro.System

open Go Model

variable {s s' : Sys}

/-! ## 外部の待ちの登録簿 -/

/-- 登録の時計：channel `c` を待つ、表 `id` の時計の goroutine。 -/
def TimerOn (s : Sys) (c id : Nat) : Prop := ∃ t d, Pc.ewTimer c t d ∈ s.threads ∧ t.id = id

/-- 登録簿の不変条件。 -/
structure WaitsInv (s : Sys) : Prop where
  closed_lt : ∀ c ∈ s.closed, c < s.nextCh
  entry_lt : ∀ id w, s.waits id = some w → w.ch < s.nextCh
  entry_open : ∀ id w, s.waits id = some w → w.ch ∉ s.closed
  entry_timer : ∀ id w, s.waits id = some w → TimerOn s w.ch id ∨ w.ch ∈ s.expired
  inj : ∀ id₁ id₂ w₁ w₂, s.waits id₁ = some w₁ → s.waits id₂ = some w₂ → w₁.ch = w₂.ch → id₁ = id₂

theorem waitsInv_startup (tables : Nat → Option Table) (jobs : List BQJob) (runs : List Run)
    (wh : List WhJob) (clock : Nat) : WaitsInv (startup tables jobs runs wh clock) where
  closed_lt := by simp [startup]
  entry_lt := by simp [startup]
  entry_open := by simp [startup]
  entry_timer := by simp [startup]
  inj := by simp [startup]

/-- 登録簿が変わらない一歩：goroutine は加わるか、時計でない一つが進むだけである。 -/
theorem WaitsInv.of_frame (hi : WaitsInv s) (hw : s'.waits = s.waits) (hc : s'.closed = s.closed)
    (hn : s'.nextCh = s.nextCh) (he : s.expired ⊆ s'.expired)
    (ht : ∀ c id, TimerOn s c id → TimerOn s' c id) : WaitsInv s' where
  closed_lt := hc ▸ hn ▸ hi.closed_lt
  entry_lt id w h := hn ▸ hi.entry_lt id w (hw ▸ h)
  entry_open id w h := hc ▸ hi.entry_open id w (hw ▸ h)
  entry_timer id w h := (hi.entry_timer id w (hw ▸ h)).imp (ht _ _) (@he _)
  inj id₁ id₂ w₁ w₂ h₁ h₂ := hi.inj id₁ id₂ w₁ w₂ (hw ▸ h₁) (hw ▸ h₂)

theorem TimerOn.set {tid c id : Nat} {pc pc' : Pc} (h : TimerOn s c id)
    (hpc : s.threads[tid]? = some pc) (hne : ∀ t d, pc ≠ .ewTimer c t d) (new : List Pc)
    (hs : s'.threads = (s.threads ++ new).set tid pc') : TimerOn s' c id := by
  obtain ⟨t, d, hm, rfl⟩ := h
  exact ⟨t, d, hs ▸ mem_set_of_ne (List.mem_append_left _ hm) hpc (hne t d), rfl⟩

/-- 待ちの登録：新しい channel の登録と、それを待つ時計。 -/
theorem WaitsInv.register (hi : WaitsInv s) {id : Nat} {job : Option BQJob}
    (hw : s'.waits = Function.update s.waits id (some ⟨s.nextCh, job⟩)) (hc : s'.closed = s.closed)
    (hn : s'.nextCh = s.nextCh + 1) (he : s'.expired = s.expired)
    (ht : ∀ c id, TimerOn s c id → TimerOn s' c id) (hnew : TimerOn s' s.nextCh id) : WaitsInv s' := by
  have hentry : ∀ id' w, s'.waits id' = some w →
      (id' = id ∧ w = ⟨s.nextCh, job⟩) ∨ (id' ≠ id ∧ s.waits id' = some w) := by
    intro id' w h
    rw [hw, Function.update_apply] at h
    split at h
    · exact .inl ⟨‹_›, (Option.some.inj h).symm⟩
    · exact .inr ⟨‹_›, h⟩
  constructor
  · intro c hc'
    rw [hc] at hc'
    exact hn ▸ Nat.lt_succ_of_lt (hi.closed_lt c hc')
  · intro id' w h
    rcases hentry id' w h with ⟨-, rfl⟩ | ⟨-, h⟩
    · exact hn ▸ Nat.lt_succ_self _
    · exact hn ▸ Nat.lt_succ_of_lt (hi.entry_lt id' w h)
  · intro id' w h
    rw [hc]
    rcases hentry id' w h with ⟨-, rfl⟩ | ⟨-, h⟩
    · exact fun hc' => Nat.lt_irrefl _ (hi.closed_lt _ hc')
    · exact hi.entry_open id' w h
  · intro id' w h
    rcases hentry id' w h with ⟨rfl, rfl⟩ | ⟨-, h⟩
    · exact .inl hnew
    · exact (hi.entry_timer id' w h).imp (ht _ _) fun hx => he ▸ hx
  · intro id₁ id₂ w₁ w₂ h₁ h₂ hch
    rcases hentry id₁ w₁ h₁ with ⟨rfl, rfl⟩ | ⟨-, h₁⟩ <;> rcases hentry id₂ w₂ h₂ with ⟨rfl, rfl⟩ | ⟨-, h₂⟩
    · rfl
    · exact absurd hch (Nat.ne_of_gt (hi.entry_lt _ _ h₂))
    · exact absurd hch (Nat.ne_of_lt (hi.entry_lt _ _ h₁))
    · exact hi.inj _ _ _ _ h₁ h₂ hch

/-- 取り消し：登録を消して、その channel を閉じる。 -/
theorem WaitsInv.cancel (hi : WaitsInv s) {id : Nat} {w : ExternalWait} (hw0 : s.waits id = some w)
    (hw : s'.waits = Function.update s.waits id none) (hc : s'.closed = s.closed ++ [w.ch])
    (hn : s'.nextCh = s.nextCh) (he : s'.expired = s.expired)
    (ht : ∀ c id, TimerOn s c id → TimerOn s' c id) : WaitsInv s' := by
  have hentry : ∀ id' w', s'.waits id' = some w' → id' ≠ id ∧ s.waits id' = some w' := by
    intro id' w' h
    rw [hw, Function.update_apply] at h
    split at h
    · cases h
    · exact ⟨‹_›, h⟩
  constructor
  · intro c hc'
    rw [hc, List.mem_append, List.mem_singleton] at hc'
    rcases hc' with hc' | rfl
    · exact hn ▸ hi.closed_lt c hc'
    · exact hn ▸ hi.entry_lt id w hw0
  · intro id' w' h
    exact hn ▸ hi.entry_lt id' w' (hentry id' w' h).2
  · intro id' w' h
    obtain ⟨hne, h⟩ := hentry id' w' h
    rw [hc, List.mem_append, List.mem_singleton, not_or]
    exact ⟨hi.entry_open id' w' h, fun hch => hne (hi.inj _ _ _ _ h hw0 hch)⟩
  · intro id' w' h
    exact (hi.entry_timer id' w' (hentry id' w' h).2).imp (ht _ _) fun hx => he ▸ hx
  · intro id₁ id₂ w₁ w₂ h₁ h₂
    exact hi.inj id₁ id₂ w₁ w₂ (hentry _ _ h₁).2 (hentry _ _ h₂).2

/-- 時計の goroutine が終わる：channel が閉じていたか、期限を記録する。 -/
theorem WaitsInv.timer (hi : WaitsInv s) {tid c d : Nat} {t : Table} {new : List Pc}
    (hpc : s.threads[tid]? = some (.ewTimer c t d)) (hw : s'.waits = s.waits) (hc : s'.closed = s.closed)
    (hn : s'.nextCh = s.nextCh)
    (hexp : c ∈ s.closed ∧ s'.expired = s.expired ∨ s'.expired = s.expired ++ [c])
    (hs : s'.threads = (s.threads ++ new).set tid .done) : WaitsInv s' := by
  have hsub : s.expired ⊆ s'.expired := by
    rcases hexp with ⟨-, he⟩ | he <;> rw [he]
    · exact List.Subset.refl _
    · exact List.subset_append_left _ _
  refine ⟨hc ▸ hn ▸ hi.closed_lt, fun id w h => hn ▸ hi.entry_lt id w (hw ▸ h),
    fun id w h => hc ▸ hi.entry_open id w (hw ▸ h), ?_,
    fun id₁ id₂ w₁ w₂ h₁ h₂ => hi.inj id₁ id₂ w₁ w₂ (hw ▸ h₁) (hw ▸ h₂)⟩
  intro id w h
  rw [hw] at h
  rcases hi.entry_timer id w h with ⟨t', d', hm, rfl⟩ | hx
  · by_cases hx : Pc.ewTimer c t d = Pc.ewTimer w.ch t' d'
    · cases hx
      rcases hexp with ⟨hcl, -⟩ | he
      · exact absurd hcl (hi.entry_open _ w h)
      · exact .inr (he ▸ List.mem_append_right _ (List.mem_singleton_self _))
    · exact .inl ⟨t', d', hs ▸ mem_set_of_ne (List.mem_append_left _ hm) hpc hx, rfl⟩
  · exact .inr (hsub hx)

/-- goroutine の一歩は登録簿の不変条件を保つ。 -/
theorem WaitsInv.thread_step (hi : WaitsInv s) {tid : Nat} {ch : Choice}
    (h : step s (.thread tid ch) = some s') : WaitsInv s' := by
  obtain ⟨pc, s'', pc', hpc, h1, rfl⟩ := step_thread h
  obtain ⟨new, hnew, -⟩ := threadStep_spawned h1
  have ht : ∀ c, (∀ t d, pc ≠ .ewTimer c t d) →
      ∀ id, TimerOn s c id → TimerOn { s'' with threads := s''.threads.set tid pc' } c id :=
    fun c hne id hto => hto.set hpc hne new (by rw [← hnew])
  rcases threadStep_registry h1 with ⟨hop, hw, hc, hn, he⟩ | ⟨t, job, k, rfl, rfl⟩ |
    ⟨t, rfl, ⟨-, hw, hc, hn, he⟩ | ⟨w, hw0, hw, hc, hn, he⟩⟩ | ⟨c, t, d, rfl, rfl, hw, hc, hn, hexp⟩
  · -- 登録簿に触れない一歩
    refine hi.of_frame hw hc hn (he ▸ List.Subset.refl _) fun c id => ht c ?_ id
    rintro t d rfl
    simp [Pc.registryOp] at hop
  · -- 待ちの登録
    exact hi.register rfl rfl rfl rfl (fun c id => ht c (fun _ _ h => nomatch h) id)
      ⟨t, _, mem_set_of_ne (List.mem_append_right _ (List.mem_singleton_self _)) hpc nofun, rfl⟩
  · -- 登録がない取り消し
    exact hi.of_frame hw hc hn (he ▸ List.Subset.refl _) fun c id => ht c (fun _ _ h => nomatch h) id
  · -- 取り消し
    exact hi.cancel hw0 hw hc hn he fun c id => ht c (fun _ _ h => nomatch h) id
  · -- 時計の goroutine
    exact hi.timer hpc hw hc hn hexp (by rw [← hnew])

theorem WaitsInv.step (hi : WaitsInv s) {e : Event} (h : step s e = some s') : WaitsInv s' := by
  by_cases he : ∃ tid ch, e = .thread tid ch
  · obtain ⟨tid, ch, rfl⟩ := he
    exact hi.thread_step h
  · push_neg at he
    obtain ⟨hw, hc, hn, hexp, -, -, -, -, new, hthr, -⟩ := step_other h he
    exact hi.of_frame hw hc hn (hexp ▸ List.Subset.refl _) fun c id ⟨t, d, hm, hid⟩ =>
      ⟨t, d, hthr ▸ List.mem_append_left _ hm, hid⟩

theorem WaitsInv.reachable {tables : Nat → Option Table} {jobs : List BQJob} {runs : List Run}
    {wh : List WhJob} {clock : Nat} (h : Reachable (startup tables jobs runs wh clock) s) : WaitsInv s := by
  induction h with
  | init => exact waitsInv_startup tables jobs runs wh clock
  | step _ hst ih => exact ih.step hst

/-- 起動の後に届くどの状態でも、外部の待ちの登録の channel は閉じておらず、その表の時計の goroutine が
その channel を待っているか、その時計はもう期限で終わっている。 -/
theorem waits_pending_or_expired {tables : Nat → Option Table} {jobs : List BQJob} {runs : List Run}
    {wh : List WhJob} {clock : Nat} (h : Reachable (startup tables jobs runs wh clock) s)
    {id : Nat} {w : ExternalWait} (hw : s.waits id = some w) :
    w.ch ∉ s.closed ∧ (TimerOn s w.ch id ∨ w.ch ∈ s.expired) := by
  have hi := WaitsInv.reachable h
  exact ⟨hi.entry_open id w hw, hi.entry_timer id w hw⟩


/-- 外部の表：一分待つ。 -/
def clicks : Table := { id := 1, name := "clicks", dataset := "web", externalTmout := 60 }

def waitStart : Sys := startup (tablesOf [clicks]) [] [] [] 1

/-- 表を走らせ（`runExternalTable`）、待ちを登録した時計の goroutine 7 が一分後に期限で終わる。 -/
def waitTimesOut : List Event :=
  [.request (.runTable 1), .thread 6 .ok, .thread 6 .ok, .thread 6 .ok, .thread 6 .ok,
   .tick 60, .thread 7 .timeout]

theorem waits_pending_or_expired_timeout :
    ∃ s w, Reachable waitStart s ∧ s.waits 1 = some w ∧
      (w.ch ∉ s.closed ∧ (TimerOn s w.ch 1 ∨ w.ch ∈ s.expired)) := by
  obtain ⟨s, hs, hp⟩ := @reach_of_run waitStart waitTimesOut (fun s => (s.waits 1).isSome) (by decide)
  obtain ⟨w, hw⟩ := Option.isSome_iff_exists.1 hp
  exact ⟨s, w, hs, hw, waits_pending_or_expired hs hw⟩
/-- 時計の goroutine が待つ表の id。 -/
def Pc.timerTable : Pc → Option Nat
  | .ewTimer _ t _ => some t.id
  | _ => none

/-- 期限で終わった待ちの登録が残る：表 1 の登録があるのに、表 1 を待つ時計の goroutine はない。 -/
theorem externalWait_outlives_timeout :
    ∃ s, Reachable waitStart s ∧ (s.waits 1).isSome ∧ ∀ pc ∈ s.threads, pc.timerTable ≠ some 1 := by
  obtain ⟨s, hs, hp⟩ := @reach_of_run waitStart waitTimesOut
    (fun s => (s.waits 1).isSome && s.threads.all fun pc => pc.timerTable != some 1) (by decide)
  simp only [Bool.and_eq_true, List.all_eq_true, bne_iff_ne, ne_eq] at hp
  exact ⟨s, hs, hp⟩

/-! ## 表の行 -/

/-- 表の行を変える一歩は、ある goroutine の一歩であり、その goroutine が持つ表の写しの、利用者が書く欄を
書く（`tableDeleteHandler` の最後は消した時刻を付けて書く）。 -/
theorem step_tables {e : Event} (h : step s e = some s') :
    s'.tables = s.tables ∨ ∃ (tid : Nat) (pc : Pc), s.threads[tid]? = some pc ∧
      ((∃ t ∈ pc.copies, ∃ t', s'.tables = (s.saveTable t').tables ∧ t'.userFields = t.userFields) ∨
        ∃ t, pc = .deleteSave t ∧ s'.tables = (s.saveTable { t with deletedAt := s.clock }).tables) := by
  by_cases he : ∃ tid ch, e = .thread tid ch
  · obtain ⟨tid, ch, rfl⟩ := he
    obtain ⟨pc, s'', pc', hpc, h1, rfl⟩ := step_thread h
    rcases threadStep_tables h1 with ht | ht
    · exact .inl ht
    · exact .inr ⟨tid, pc, hpc, ht⟩
  · push_neg at he
    exact .inl (step_other h he).2.2.2.2.1


/-- 待ちの間に利用者が表を消し（`tableDeleteHandler`）、一分が過ぎる。 -/
def deleteDuringWait : List Event :=
  [.request (.runTable 1), .thread 6 .ok, .thread 6 .ok, .thread 6 .ok, .thread 6 .ok,
   .request (.delete 1), .thread 8 .ok, .thread 8 .ok, .tick 60]

theorem step_tables_timeout :
    ∃ s s', Reachable waitStart s ∧ step s (.thread 7 .timeout) = some s' ∧
      (s'.tables = s.tables ∨ ∃ (tid : Nat) (pc : Pc), s.threads[tid]? = some pc ∧
        ((∃ t ∈ pc.copies, ∃ t', s'.tables = (s.saveTable t').tables ∧ t'.userFields = t.userFields) ∨
          ∃ t, pc = .deleteSave t ∧ s'.tables = (s.saveTable { t with deletedAt := s.clock }).tables)) := by
  obtain ⟨s, s', hs, hst, -⟩ := @reach_step_of_run waitStart deleteDuringWait (.thread 7 .timeout)
    (fun _ _ => true) (by decide)
  exact ⟨s, s', hs, hst, step_tables hst⟩

/-- 期限の `setError` は待ちを始めた時の写しで行を書き、消した表の `deleted_at` を NULL に戻す。 -/
theorem timeout_restores_deleted_table :
    ∃ s s', Reachable waitStart s ∧ s.threads[7]?.bind Pc.timerTable = some 1 ∧
      (s.tables 1).map (·.deletedAt) ≠ some 0 ∧ step s (.thread 7 .timeout) = some s' ∧
      (s'.tables 1).map (·.deletedAt) = some 0 := by
  obtain ⟨s, s', hs, hst, hp⟩ := @reach_step_of_run waitStart deleteDuringWait (.thread 7 .timeout)
    (fun s s' => s.threads[7]?.bind Pc.timerTable == some 1 &&
      (s.tables 1).map (·.deletedAt) != some 0 && (s'.tables 1).map (·.deletedAt) == some 0) (by decide)
  simp only [Bool.and_eq_true, beq_iff_eq, bne_iff_ne, ne_eq] at hp
  exact ⟨s, s', hs, hp.1.1, hp.1.2, hst, hp.2⟩

end Maestro.System
