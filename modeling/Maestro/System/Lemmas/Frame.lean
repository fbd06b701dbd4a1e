import Maestro.System.Step

/-!
# 一歩が変えるところ

`threadStep` の一歩が、共有の状態のどこを変えうるかを、プログラムカウンタごとに一度だけ調べる。
goroutine の並びは、起きた goroutine が後ろに一つ加わるだけで、起きるのは `monitorJob` か、登録した待ちの
時計の goroutine である。登録簿と閉じた channel と期限の記録を変えるのは、待ちの登録、取り消し、時計の
goroutine だけである。表の行を書く一歩は、その goroutine が持つ表の写しを、利用者が書く欄を変えずに書く。
ただし `tableDeleteHandler` は消した時刻を付けて書く。走りの goroutine がこれから扱う仕事は、前の一歩で
扱うはずだった仕事か、`processCycle` の決めた仕事である。
-/

namespace Maestro.System

open Go Model

variable {s s' : Sys} {pc pc' : Pc} {ch : Choice}


/-! ## goroutine の並び、登録簿、表の行 -/

theorem SCont.ok_threads {k : SCont} {s₀ : Sys} {job : BQJob} (h : k.ok s₀ job = (s', pc')) :
    s'.threads = s₀.threads ∨ ∃ j, s'.threads = s₀.threads ++ [.monitor j] := by
  cases k <;> obtain ⟨rfl, rfl⟩ := Prod.mk.inj h <;> first | exact .inl rfl | exact .inr ⟨_, rfl⟩

/-- 登録簿を読み書きするプログラムカウンタ。 -/
def Pc.registryOp : Pc → Bool
  | .ewRegister .. | .externalLoadCancel _ | .ewTimer .. => true
  | _ => false

theorem SCont.ok_registry {k : SCont} {s₀ : Sys} {job : BQJob} (h : k.ok s₀ job = (s', pc')) :
    s'.waits = s₀.waits ∧ s'.closed = s₀.closed ∧ s'.nextCh = s₀.nextCh ∧ s'.expired = s₀.expired := by
  cases k <;> obtain ⟨rfl, rfl⟩ := Prod.mk.inj h <;> exact ⟨rfl, rfl, rfl, rfl⟩

def QCont.copies : QCont → List Table
  | .reimport t _ => [t]
  | _ => []

def SCont.copies : SCont → List Table
  | .cycle _ t _ | .runTable t | .extract t => [t]
  | .load task => [task.table]
  | _ => []

/-- goroutine が持つ表の写し：ローカルな値と、戻り先が持つ値。 -/
def Pc.copies : Pc → List Table
  | .querySelected _ _ t _ | .importSetRunning _ _ t _ | .externalCheck _ _ t _ => [t]
  | .qiCheck task k | .qiSend task k | .qiSet task k => task.table :: k.copies
  | .ewCheck t _ _ | .ewSetRunning t _ _ | .ewRegister t _ _ | .ewTimer _ t _ => [t]
  | .submitStart _ k | .submitUpdate _ k => k.copies
  | .doneDeleteImport _ t | .reimportDelete t _ | .reimportSave t _ | .reimportInsert t _ => [t]
  | .doneSetRunning _ t | .doneLastOk _ t | .postCompletion _ t | .extractSetRunning t _ => [t]
  | .setError t _ k => t :: k.copies
  | .importStatusRunning task | .importSaveRunning task | .importUpload task | .importSetLastId task
  | .importStatusDone task | .loadCheck task | .loadInsert task | .loadUpdate task _ | .markError task _ => [task.table]
  | .putCheck t | .putDelete t | .putSave t | .deleteSave t => [t]
  | .runTableInsert t | .runTableSetRunning t _ | .externalLoadSave t | .externalLoadCancel t
  | .externalLoadInsert t => [t]
  | _ => []

theorem SCont.ok_tables {k : SCont} {s₀ : Sys} {job : BQJob} (h : k.ok s₀ job = (s', pc')) :
    s'.tables = s₀.tables := by
  cases k <;> obtain ⟨rfl, rfl⟩ := Prod.mk.inj h <;> rfl

/-- 一歩が goroutine の並び、登録簿、表の行をどう変えるか。三つとも、プログラムカウンタの場合分け一度で
調べる。 -/
theorem threadStep_shared (h : threadStep s ch pc = some (s', pc')) :
    (s'.threads = s.threads ∨ ∃ x, s'.threads = s.threads ++ [x] ∧ ((∃ job, x = .monitor job) ∨
      ∃ t job k, pc = .ewRegister t job k ∧ x = .ewTimer s.nextCh t (s.clock + t.externalTmout))) ∧
    ((pc.registryOp = false ∧
      s'.waits = s.waits ∧ s'.closed = s.closed ∧ s'.nextCh = s.nextCh ∧ s'.expired = s.expired) ∨
    (∃ t job k, pc = .ewRegister t job k ∧
      s' = ({ s with nextCh := s.nextCh + 1 }.setWait t.id (some ⟨s.nextCh, job⟩)).spawn
        (.ewTimer s.nextCh t (s.clock + t.externalTmout))) ∨
    (∃ t, pc = .externalLoadCancel t ∧ ((s.waits t.id = none ∧ s'.waits = s.waits ∧ s'.closed = s.closed ∧
        s'.nextCh = s.nextCh ∧ s'.expired = s.expired) ∨
      ∃ w, s.waits t.id = some w ∧ s'.waits = Function.update s.waits t.id none ∧
        s'.closed = s.closed ++ [w.ch] ∧ s'.nextCh = s.nextCh ∧ s'.expired = s.expired)) ∨
    (∃ c t d, pc = .ewTimer c t d ∧ pc' = .done ∧ s'.waits = s.waits ∧ s'.closed = s.closed ∧
      s'.nextCh = s.nextCh ∧ (c ∈ s.closed ∧ s'.expired = s.expired ∨ s'.expired = s.expired ++ [c]))) ∧
    (s'.tables = s.tables ∨
    (∃ t ∈ pc.copies, ∃ t', s'.tables = (s.saveTable t').tables ∧ t'.userFields = t.userFields) ∨
    ∃ t, pc = .deleteSave t ∧ s'.tables = (s.saveTable { t with deletedAt := s.clock }).tables) := by
  cases pc
  case submitStart job k | submitUpdate job k =>
    -- `StartJob` の後か、`k.ok` で呼び出し元へ戻る（`UpdateBQJob` の後と、もう一回で通った後）
    simp only [threadStep] at h
    (try split at h) <;> first
      | (obtain ⟨rfl, rfl⟩ := Prod.mk.inj (Option.some.inj h)
         exact ⟨.inl rfl, .inl ⟨rfl, rfl, rfl, rfl, rfl⟩, .inl rfl⟩)
      | (have h := Option.some.inj h
         have hr := SCont.ok_registry h
         have ht := SCont.ok_tables h
         exact ⟨(SCont.ok_threads h).imp_right fun ⟨j, hj⟩ => ⟨_, hj, .inl ⟨j, rfl⟩⟩, .inl ⟨rfl, hr⟩, .inl ht⟩)
      | cases h
  case ewRegister t job k =>
    obtain ⟨rfl, rfl⟩ := Prod.mk.inj (Option.some.inj h)
    exact ⟨.inr ⟨_, rfl, .inr ⟨t, job, k, rfl, rfl⟩⟩, .inr (.inl ⟨t, job, k, rfl, rfl⟩), .inl rfl⟩
  case externalLoadCancel t =>
    simp only [threadStep] at h
    split at h
    · rename_i w hw
      split at h <;> obtain ⟨rfl, rfl⟩ := Prod.mk.inj (Option.some.inj h) <;>
        exact ⟨.inl rfl, .inr (.inr (.inl ⟨t, rfl, .inr ⟨w, hw, rfl, rfl, rfl, rfl⟩⟩)), .inl rfl⟩
    · obtain ⟨rfl, rfl⟩ := Prod.mk.inj (Option.some.inj h)
      exact ⟨.inl rfl, .inr (.inr (.inl ⟨t, rfl, .inl ⟨‹_›, rfl, rfl, rfl, rfl⟩⟩)), .inl rfl⟩
  case ewTimer c t d =>
    simp only [threadStep] at h
    split at h
    · split at h
      · obtain ⟨rfl, rfl⟩ := Prod.mk.inj (Option.some.inj h)
        exact ⟨.inl rfl, .inr (.inr (.inr ⟨c, t, d, rfl, rfl, rfl, rfl, rfl, .inl ⟨‹_›, rfl⟩⟩)), .inl rfl⟩
      · cases h
    · split at h
      · obtain ⟨rfl, rfl⟩ := Prod.mk.inj (Option.some.inj h)
        exact ⟨.inl rfl, .inr (.inr (.inr ⟨c, t, d, rfl, rfl, rfl, rfl, rfl, .inr rfl⟩)),
          .inr (.inl ⟨t, List.mem_cons_self _ _, _, rfl, rfl⟩)⟩
      · cases h
    · cases h
  case deleteSave t =>
    obtain ⟨rfl, rfl⟩ := Prod.mk.inj (Option.some.inj h)
    exact ⟨.inl rfl, .inl ⟨rfl, rfl, rfl, rfl, rfl⟩, .inr (.inr ⟨t, rfl, rfl⟩)⟩
  all_goals simp only [threadStep, itemStep, doneBranch, postCompletionStep] at h
  all_goals (repeat' split at h) <;>
    first
    | (obtain ⟨rfl, rfl⟩ := Prod.mk.inj (Option.some.inj h)
       refine ⟨?_, .inl ⟨rfl, rfl, rfl, rfl, rfl⟩, ?_⟩
       · first
         | exact .inl rfl
         | exact .inr ⟨_, rfl, .inl ⟨_, rfl⟩⟩
       · first
         | exact .inl rfl
         | exact .inr (.inl ⟨_, List.mem_cons_self _ _, _, rfl, rfl⟩))
    | cases h

theorem threadStep_threads (h : threadStep s ch pc = some (s', pc')) :
    s'.threads = s.threads ∨ ∃ x, s'.threads = s.threads ++ [x] ∧ ((∃ job, x = .monitor job) ∨
      ∃ t job k, pc = .ewRegister t job k ∧ x = .ewTimer s.nextCh t (s.clock + t.externalTmout)) :=
  (threadStep_shared h).1

theorem threadStep_registry (h : threadStep s ch pc = some (s', pc')) :
    (pc.registryOp = false ∧
      s'.waits = s.waits ∧ s'.closed = s.closed ∧ s'.nextCh = s.nextCh ∧ s'.expired = s.expired) ∨
    (∃ t job k, pc = .ewRegister t job k ∧
      s' = ({ s with nextCh := s.nextCh + 1 }.setWait t.id (some ⟨s.nextCh, job⟩)).spawn
        (.ewTimer s.nextCh t (s.clock + t.externalTmout))) ∨
    (∃ t, pc = .externalLoadCancel t ∧ ((s.waits t.id = none ∧ s'.waits = s.waits ∧ s'.closed = s.closed ∧
        s'.nextCh = s.nextCh ∧ s'.expired = s.expired) ∨
      ∃ w, s.waits t.id = some w ∧ s'.waits = Function.update s.waits t.id none ∧
        s'.closed = s.closed ++ [w.ch] ∧ s'.nextCh = s.nextCh ∧ s'.expired = s.expired)) ∨
    (∃ c t d, pc = .ewTimer c t d ∧ pc' = .done ∧ s'.waits = s.waits ∧ s'.closed = s.closed ∧
      s'.nextCh = s.nextCh ∧ (c ∈ s.closed ∧ s'.expired = s.expired ∨ s'.expired = s.expired ++ [c])) :=
  (threadStep_shared h).2.1

theorem threadStep_tables (h : threadStep s ch pc = some (s', pc')) :
    s'.tables = s.tables ∨
    (∃ t ∈ pc.copies, ∃ t', s'.tables = (s.saveTable t').tables ∧ t'.userFields = t.userFields) ∨
    ∃ t, pc = .deleteSave t ∧ s'.tables = (s.saveTable { t with deletedAt := s.clock }).tables :=
  (threadStep_shared h).2.2


/-! ## 走りの仕事 -/

/-- 走りの goroutine が、これから扱う `ReadyItems` の仕事。 -/
def Pc.runItems : Pc → Option (RunMem × List BQJob)
  | .item r ready => some (r, ready)
  | .querySelected r j _ rest | .loadSelect r j rest | .importSetRunning r j _ rest
  | .externalCheck r j _ rest => some (r, j :: rest)
  | .submitStart j (.cycle r _ rest) => some (r, j :: rest)
  | .submitUpdate _ (.cycle r _ rest) => some (r, rest)
  | .qiCheck task (.cycle r rest) | .qiSend task (.cycle r rest) | .qiSet task (.cycle r rest) =>
    some (r, task.job.toList ++ rest)
  | .ewCheck _ job (.cycle r rest) | .ewSetRunning _ job (.cycle r rest) | .ewRegister _ job (.cycle r rest) =>
    some (r, job.toList ++ rest)
  | .setError _ _ k => k.runItems
  | _ => none

/-- 走りの goroutine が仕事を出すところ：`submitJob` を呼ぶ、`queueImport` が順番待ちに送る、
`startExternalWait` が待ちを登録する。 -/
def Pc.submits : Pc → Option (RunMem × BQJob)
  | .submitStart j (.cycle r _ _) => some (r, j)
  | .qiSend ⟨_, some j⟩ (.cycle r _) => some (r, j)
  | .ewRegister _ (some j) (.cycle r _) => some (r, j)
  | _ => none

theorem Pc.runItems_of_submits {pc : Pc} {r : RunMem} {j : BQJob} (h : pc.submits = some (r, j)) :
    ∃ L, pc.runItems = some (r, L) ∧ j ∈ L := by
  unfold Pc.submits at h
  split at h <;> cases h <;> exact ⟨_, rfl, List.mem_cons_self _ _⟩

theorem threadStep_runItems (h : threadStep s ch pc = some (s', pc')) {r : RunMem} {L' : List BQJob}
    (h' : pc'.runItems = some (r, L')) :
    (∃ L, pc.runItems = some (r, L) ∧ ∀ j ∈ L', j ∈ L) ∨
      (pc = .cycle r ∧ processCyclePlan r (s.jobsOfRun r.id) = some (.items L')) := by
  cases pc <;> (try cases ‹QCont›) <;> (try cases ‹ECont›) <;> (try cases ‹SCont›)
  all_goals simp only [threadStep, itemStep, doneBranch, postCompletionStep, SCont.ok, SCont.err, QCont.ret, ECont.ret] at h
  all_goals (repeat' split at h) <;>
    first
    | (obtain ⟨rfl, rfl⟩ := Prod.mk.inj (Option.some.inj h)
       first
       | (cases h'; done)
       | exact .inl ⟨_, h', fun _ hj => hj⟩
       | (cases h'
          first
          | exact .inl ⟨_, rfl, fun _ hj => hj⟩
          | exact .inl ⟨_, rfl, fun _ hj => List.mem_cons_of_mem _ hj⟩
          | exact .inl ⟨_, rfl, fun _ hj => List.mem_append_right _ hj⟩
          | exact .inr ⟨rfl, ‹_›⟩))
    | cases h


end Maestro.System
