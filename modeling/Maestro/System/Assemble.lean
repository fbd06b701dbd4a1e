import Maestro.System.Step

/-!
# 走りを作って始める（`Run.Assemble`、`Run.Start`、`triggerRuns`）

`triggerRuns` は、遅すぎない tick ごとに `NewRun` の走りを `Assemble` し、`Start` する。`Assemble` は
`InsertRun` で走りの行を入れ、頻度の表を読み（`TablesByFrequency`）、条件の成り立つ表だけを残し、その親を
求め（`TablesParents`）、表ごとに仕事を作って `InsertBQJob` で入れる。`Start` は `UpdateRun` で始めの時刻を
書き、`monitorRun` の goroutine を始める。誤りは報せるだけで、入れた行は残る。

カタログへの呼び出しの結果は引数で与える。`InsertRun` は、頻度に終わっていない走りがあれば部分一意索引
（`freq_id_end_time_null_idx`）に断られる。行の id は入れた順に `1, 2, …` とする。

`InsertRun` の後の呼び出しが失敗すると、終わっていない走りの行が、`monitorRun` のないまま残る
（`triggerRun_error_strands_run`）。索引は、その頻度の後の `InsertRun` をみな断る。誤りがなければ、
条件の成り立つ表ごとにちょうど一つの仕事が、表の順に入る（`assemble_ok_jobs`）。
-/

namespace Maestro.System

open Go Model

/-- 走りの行（`runs`）のうち、`Assemble` と `Start` が読み書きする欄と、その走りを動かす `monitorRun` の
goroutine があるか（プロセスの状態）。 -/
structure RunRow where
  id : Nat
  freqId : Nat
  startTime : Option Nat := none
  endTime : Option Nat := none
  monitored : Bool := false
  deriving DecidableEq, Repr

/-- 走りの行と仕事の行。 -/
structure RunState where
  runs : List RunRow
  jobs : List BQJob
  deriving DecidableEq, Repr

/-- `Assemble` と `Start` が呼ぶカタログの呼び出しの結果。`insertBQJob k` は `k` 番目（0 から）の
`InsertBQJob` の誤り。 -/
structure AssembleCalls where
  tablesByFrequency : Except String (List Table)
  /-- `conditionsSatisfied(now)`。 -/
  conditionsSatisfied : Table → Bool
  /-- `TablesParents(tables)`：表の名前から親への map。 -/
  tablesParents : Except String (String → Option (List Table))
  importDataset : Table → Option String
  insertBQJob : Nat → Option String
  updateRun : Option String

namespace RunState

/-- 頻度 `freqId` の、終わっていない走りがある。 -/
def unfinished (st : RunState) (freqId : Nat) : Prop := ∃ r ∈ st.runs, r.freqId = freqId ∧ r.endTime = none

instance (st : RunState) (freqId : Nat) : Decidable (st.unfinished freqId) :=
  inferInstanceAs (Decidable (∃ r ∈ st.runs, _))

/-- `InsertRun` が部分一意索引に断られたときの誤り。 -/
def unfinishedRunErr (freqId : Nat) : String :=
  "There already exists an unfinished run for freq_id " ++ toString freqId ++ " (end_time NULL)."

/-- `InsertRun`：次の id で走りの行を入れる。終わっていない走りがあれば断られる。 -/
def insertRun (st : RunState) (freqId : Nat) : Except String (Nat × RunState) :=
  if st.unfinished freqId then .error (unfinishedRunErr freqId)
  else .ok (st.runs.length + 1, { st with runs := st.runs ++ [{ id := st.runs.length + 1, freqId }] })

/-- `InsertBQJob`：次の id で仕事を入れる。 -/
def insertBQJob (st : RunState) (j : BQJob) : RunState :=
  { st with jobs := st.jobs ++ [{ j with id := st.jobs.length + 1 }] }

/-- `UpdateRun` で走り `runId` の始めの時刻を書き、`go monitorRun(r, m)`。 -/
def startRun (st : RunState) (runId now : Nat) : RunState :=
  { st with
    runs := st.runs.map fun r =>
      if r.id = runId then { r with startTime := some now, monitored := true } else r }

end RunState

variable (c : AssembleCalls)

/-- `Assemble` が表 `t` に作る仕事：import の表と外部の表は load の仕事、要約の表は親の表の id を持つ
query の仕事。 -/
def runJob (runId : Nat) (parents : String → Option (List Table)) (t : Table) : BQJob :=
  if t.isImport ∨ t.isExternal then newBQLoadJob t (some runId)
  else { newBQQueryJob t (some runId) with parents := ((parents t.name).getD []).map (·.id) }

/-- 表ごとに仕事を作って入れる繰り返し。import の表では先に `ImportDataset` を呼ぶ。`k` は次の
`InsertBQJob` の番号。 -/
def insertJobs (runId : Nat) (parents : String → Option (List Table)) :
    Nat → List Table → RunState → Option String × RunState
  | _, [], st => (none, st)
  | k, t :: ts, st =>
    match (if t.isImport then c.importDataset t else none) with
    | some e => (some e, st)
    | none =>
      match c.insertBQJob k with
      | some e => (some e, st)
      | none => insertJobs runId parents (k + 1) ts (st.insertBQJob (runJob runId parents t))

/-- `Run.Assemble`：返す誤り、その後、走りの `Id`（`InsertRun` が断れば `0` のまま）。 -/
def assemble (freqId : Nat) (st : RunState) : Option String × RunState × Nat :=
  match st.insertRun freqId with
  | .error e => (some e, st, 0)
  | .ok (runId, st) =>
    match c.tablesByFrequency with
    | .error e => (some e, st, runId)
    | .ok byFreq =>
      let tables := byFreq.filter c.conditionsSatisfied
      match c.tablesParents with
      | .error e => (some e, st, runId)
      | .ok parents =>
        let (err, st) := insertJobs c runId parents 0 tables st
        (err, st, runId)

/-- `Run.Start`：`UpdateRun` で始めの時刻を書き、`monitorRun` を始める。 -/
def start (runId now : Nat) (st : RunState) : Option String × RunState :=
  match c.updateRun with
  | some e => (some e, st)
  | none => (none, st.startRun runId now)

/-- `triggerRuns` の一つの tick：`Assemble` してから `Start` し、誤りを報せる。 -/
def triggerRun (freqId now : Nat) (st : RunState) : Option String × RunState :=
  match assemble c freqId st with
  | (some e, st, _) => (some ("error assembling: " ++ e), st)
  | (none, st, runId) =>
    match start c runId now st with
    | (some e, st) => (some ("error starting: " ++ e), st)
    | (none, st) => (none, st)

/-! ## 仕事を入れる繰り返し -/

theorem insertJobs_runs (runId : Nat) (parents : String → Option (List Table)) :
    ∀ (k : Nat) (ts : List Table) (st : RunState), (insertJobs c runId parents k ts st).2.runs = st.runs
  | _, [], _ => rfl
  | k, t :: ts, st => by
    unfold insertJobs
    split
    · rfl
    · split
      · rfl
      · exact insertJobs_runs runId parents (k + 1) ts _

theorem runJob_id (runId : Nat) (parents : String → Option (List Table)) (t : Table) :
    (runJob runId parents t).id = 0 := by
  unfold runJob; split <;> rfl

/-- 誤りがなければ、表ごとに一つの仕事が、表の順に入る。 -/
theorem insertJobs_ok (runId : Nat) (parents : String → Option (List Table)) :
    ∀ (k : Nat) (ts : List Table) (st : RunState), (insertJobs c runId parents k ts st).1 = none →
      ∃ js, (insertJobs c runId parents k ts st).2.jobs = st.jobs ++ js ∧
        js.map (fun j => { j with id := 0 }) = ts.map (runJob runId parents)
  | _, [], _, _ => ⟨[], by simp [insertJobs]⟩
  | k, t :: ts, st, h => by
    unfold insertJobs at h ⊢
    split at h
    · cases h
    · split at h
      · cases h
      · obtain ⟨js, hjs, hmap⟩ := insertJobs_ok runId parents (k + 1) ts _ h
        refine ⟨{ runJob runId parents t with id := st.jobs.length + 1 } :: js, by
          rw [hjs]; simp [RunState.insertBQJob], ?_⟩
        simp only [List.map_cons, hmap]
        congr 1
        have := runJob_id runId parents t
        generalize runJob runId parents t = j at this ⊢
        cases j; cases this; rfl

/-! ## 走りを作る -/

variable {c}

/-- `InsertRun` が通れば、走りの行は後のどの誤りでも残る。 -/
theorem assemble_runs {freqId : Nat} {st : RunState} (hfree : ¬st.unfinished freqId) :
    (assemble c freqId st).2.1.runs = st.runs ++ [{ id := st.runs.length + 1, freqId }] ∧
      (assemble c freqId st).2.2 = st.runs.length + 1 := by
  unfold assemble
  simp only [RunState.insertRun, if_neg hfree]
  split
  · exact ⟨rfl, rfl⟩
  · split
    · exact ⟨rfl, rfl⟩
    · exact ⟨insertJobs_runs .., rfl⟩


/-- 誤りがなければ、走りの行を一つ入れ、条件の成り立つ頻度の表ごとに一つの仕事を、表の順に入れる。仕事は
`runJob` が作るもので、import の表と外部の表なら load の仕事、要約の表なら `TablesParents` の親の表の id を
持つ query の仕事である。 -/
theorem assemble_ok_jobs (freqId : Nat) (st : RunState) (byFreq : List Table)
    (hby : c.tablesByFrequency = .ok byFreq) (parents : String → Option (List Table))
    (hpar : c.tablesParents = .ok parents) (h : (assemble c freqId st).1 = none) :
    (assemble c freqId st).2.1.runs = st.runs ++ [{ id := st.runs.length + 1, freqId }] ∧
      ∃ js, (assemble c freqId st).2.1.jobs = st.jobs ++ js ∧
        js.map (fun j => { j with id := 0 }) =
          (byFreq.filter c.conditionsSatisfied).map (runJob (st.runs.length + 1) parents) := by
  have hfree : ¬st.unfinished freqId := fun hu => by
    simp [assemble, RunState.insertRun, hu] at h
  refine ⟨(assemble_runs hfree).1, ?_⟩
  simp only [assemble, RunState.insertRun, if_neg hfree, hby, hpar] at h ⊢
  exact insertJobs_ok c _ _ _ _ _ h

theorem assemble_ok_jobs_one_table :
    (assemble
        { tablesByFrequency := .ok ([{ id := 1, name := "a", dataset := "d" }]),
          conditionsSatisfied := (fun _ => true), tablesParents := .ok (fun _ => none),
          importDataset := (fun _ => none), insertBQJob := (fun _ => none), updateRun := none }
        1 ⟨[], []⟩).2.1.runs = [] ++ [{ id := 0 + 1, freqId := 1 }] ∧
      ∃ js, (assemble
          { tablesByFrequency := .ok ([{ id := 1, name := "a", dataset := "d" }]),
            conditionsSatisfied := (fun _ => true), tablesParents := .ok (fun _ => none),
            importDataset := (fun _ => none), insertBQJob := (fun _ => none), updateRun := none }
          1 ⟨[], []⟩).2.1.jobs = [] ++ js ∧
        js.map (fun j => { j with id := 0 }) =
          ([{ id := 1, name := "a", dataset := "d" }].filter fun _ => true).map (runJob (0 + 1) fun _ => none) :=
  assemble_ok_jobs 1 ⟨[], []⟩ _ rfl _ rfl rfl

/-- `triggerRuns` が誤りを報せるとき、走りの行は `Assemble` の後のままである。 -/
theorem triggerRun_error_runs {freqId now : Nat} {st : RunState} {e : String}
    (he : (triggerRun c freqId now st).1 = some e) :
    (triggerRun c freqId now st).2.runs = (assemble c freqId st).2.1.runs := by
  unfold triggerRun at he ⊢
  rcases ha : assemble c freqId st with ⟨_ | e', st', runId⟩ <;> simp only [ha] at he ⊢
  unfold start at he ⊢
  rcases hu : c.updateRun with _ | e'' <;> simp [hu] at he ⊢

/-- `InsertRun` の後のどの呼び出しが失敗しても、`triggerRuns` が誤りを報せるとき、その頻度の終わっていない
走りの行が `monitorRun` のないまま残る。索引は、その頻度の次の `InsertRun` を断る。 -/
theorem triggerRun_error_strands_run (freqId now : Nat) (st : RunState) (hfree : ¬st.unfinished freqId)
    (e : String) (he : (triggerRun c freqId now st).1 = some e) :
    ∃ r ∈ (triggerRun c freqId now st).2.runs, r.freqId = freqId ∧ r.endTime = none ∧ r.monitored = false ∧
      (triggerRun c freqId now st).2.insertRun freqId = .error (RunState.unfinishedRunErr freqId) := by
  have hruns := (triggerRun_error_runs he).trans (assemble_runs hfree).1
  have hmem : { id := st.runs.length + 1, freqId } ∈ (triggerRun c freqId now st).2.runs := by simp [hruns]
  exact ⟨_, hmem, rfl, rfl, rfl, if_pos ⟨_, hmem, rfl, rfl⟩⟩

theorem triggerRun_error_strands_run_second_insert :
    ∃ r ∈ (triggerRun
        { tablesByFrequency := .ok ([{ id := 1, name := "a", dataset := "d" }, { id := 2, name := "b", dataset := "d" }]),
          conditionsSatisfied := (fun _ => true), tablesParents := .ok (fun _ => none),
          importDataset := (fun _ => none), insertBQJob := (fun k => if k = 1 then some "connection reset" else none),
          updateRun := none }
        1 0 ⟨[], []⟩).2.runs, r.freqId = 1 ∧ r.endTime = none ∧ r.monitored = false ∧
      (triggerRun
          { tablesByFrequency := .ok ([{ id := 1, name := "a", dataset := "d" }, { id := 2, name := "b", dataset := "d" }]),
            conditionsSatisfied := (fun _ => true), tablesParents := .ok (fun _ => none),
            importDataset := (fun _ => none), insertBQJob := (fun k => if k = 1 then some "connection reset" else none),
            updateRun := none }
          1 0 ⟨[], []⟩).2.insertRun 1 =
        .error (RunState.unfinishedRunErr 1) :=
  triggerRun_error_strands_run 1 0 ⟨[], []⟩ (by decide) "error assembling: connection reset" rfl

end Maestro.System
