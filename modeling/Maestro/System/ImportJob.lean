import Maestro.System.Step
import Maestro.Model.Submit
import Maestro.Import

/-!
# import の仕事の一回（`importJob.run`）

`importJob.run` の `runImport` と `runLoad` を、呼ぶ外の呼び出しの結果の関数として書く。呼び出しは、
カタログへの書き込み（`setRunning`、`setLastId`、`UpdateBQJob`、`markError` の中の `setError`）、
`SelectDbConf`、外部のデータベースへの接続、表の `Query` の `json.Unmarshal`、`NewTableReader`、
`GetBQSchema`、GCS への書き込み（一時的な誤りならもう一回）、`ImportDataset`、`InsertBQJob`、
`setLoadJobSchema`、`submitJob` である。一回の `run` の間、ほかの goroutine は import の状態を変えないとする。
この仮定は、`queueImport` が同じ表の仕事を送らないときに限る：`queueImport` の状態の読みと、送ることと、
`ImpQueued` を書くことは別の一歩なので、走っている import の状態を `ImpQueued` に戻しうる（`queueImport_races`）。

誤りで返る道のうち、`markError` を通るものだけが import の状態を `ImpError` にし、表に誤りを書く。
`setRunning`、`json.Unmarshal`、`setLastId` の誤りは状態を `ImpRunning` のまま、`ImportDataset` と
`UpdateBQJob` の誤りは `ImpDone` のまま返る（`run_error_cases`）。`processCycle` はそのどちらの状態でも、
その表の load の仕事を飛ばして次を見るので、走りは失敗もせず、待ち続ける。

読み手の `LastId()` を行の id から計算すれば、`runImport` がカタログに書く `LastId` と `Disposition` は、一つの表の
行のモデル `Maestro.Import` の `importRun` が書く値である（`runImport_refines`）。
-/

namespace Maestro.System

open Go Model

/-- `importJob.run` が呼ぶ外の呼び出しの結果。`none` は通ったこと、`some e` は誤り（`err.Error()`）。 -/
structure ImportCalls where
  /-- `runImport` の `setRunning(true)` の `SaveTable`。 -/
  setRunning : Option String := none
  selectDbConf : Option String := none
  connect : Option String := none
  /-- 表の `Query` の `json.Unmarshal`。 -/
  unmarshal : Option String := none
  /-- 読み出しの文の `tablesInQuery`。 -/
  queryTables : List String := []
  /-- `reimportCondSatisfied(now)`。 -/
  reimport : Bool := false
  newTableReader : Option String := none
  getBQSchema : Option String := none
  /-- `gcs.Insert` と、一時的な誤りの後のもう一回。 -/
  insert : Option String := none
  insertRetry : Option String := none
  /-- 読み手の `LastId()`。 -/
  readerLastId : String := ""
  setLastId : Option String := none
  importDataset : Option String := none
  insertBQJob : Option String := none
  updateBQJob : Option String := none
  setLoadJobSchema : Option String := none
  /-- `submitJob` の返す誤り。 -/
  submit : Option String := none
  /-- `markError` の `setError` の `SaveTable`。 -/
  setError : Option String := none
  deriving DecidableEq, Repr

/-- `importJob.run` が触るもの：表の import の状態、手元の表（`i.table`）、カタログの表の行、load の仕事
（`i.job`）、`monitorJob` を始めたか。 -/
structure ImportJob where
  status : ImportStatus
  table : Table
  row : Table
  job : Option BQJob
  monitored : Bool := false
  deriving DecidableEq, Repr

namespace ImportJob

variable (c : ImportCalls)

/-- `SaveTable`：通れば手元の表をカタログに書く。 -/
def save (i : ImportJob) (r : Option String) : ImportJob := if r = none then { i with row := i.table } else i

/-- `markError`：import の状態を `ImpError` にし、`setError` で手元の表に誤りを書いて保存する（その誤りは
捨てる）。 -/
def markError (i : ImportJob) (e : String) : ImportJob :=
  ({ i with status := .error, table := { i.table with running := false, error := e } }).save c.setError

/-- `len(tables) > 1` の誤り（`%v` は `[a b]` の形）。 -/
def tooManyTables (tables : List String) : String :=
  "Import tables must select from only one table, we have " ++ toString tables.length ++ ": [" ++
    " ".intercalate tables ++ "]"

/-- GCS への書き込み：一時的な誤りなら十秒待ってもう一回。 -/
def gcsInsert : Option String :=
  match c.insert with
  | some e => if contains e tempErr then c.insertRetry else some e
  | none => none

/-- 表の `Query` があれば、それを `json.Unmarshal` する。 -/
def unmarshalQuery (t : Table) : Option String := if t.query = "" then none else c.unmarshal

/-- `Query` から読む文が二つ以上の表から選ぶときの誤り。 -/
def queryTablesErr (t : Table) : Option String :=
  if t.query ≠ "" ∧ 1 < c.queryTables.length then some (tooManyTables c.queryTables) else none

/-- Go の `if err != nil { return err }`：呼び出しの誤り `r` があれば、`mark` なら `markError` してから返し、
なければ `k` へ進む。 -/
def orReturn (mark : Bool) (r : Option String) (i : ImportJob) (k : ImportJob → Option String × ImportJob) :
    Option String × ImportJob :=
  match r with
  | some e => (some e, if mark then markError c i e else i)
  | none => k i

/-- `runImport`：返す誤りと、その後。 -/
def runImport (i : ImportJob) : Option String × ImportJob :=
  let i := { i with status := .running, table := { i.table with running := true } }
  orReturn c false c.setRunning i fun i =>
  let i := i.save none
  orReturn c true c.selectDbConf i fun i =>
  orReturn c true c.connect i fun i =>
  orReturn c false (unmarshalQuery c i.table) i fun i =>
  orReturn c true (queryTablesErr c i.table) i fun i =>
  let i := if c.reimport then { i with table := { i.table with lastId := "" } } else i
  orReturn c true c.newTableReader i fun i =>
  orReturn c true c.getBQSchema i fun i =>
  orReturn c true (gcsInsert c) i fun i =>
  let i := { i with table := { i.table with lastId := c.readerLastId } }
  orReturn c false c.setLastId i fun i =>
  (none, { i with row := i.table, status := .done })

/-- `runLoad` の終わり：`setLoadJobSchema`、`submitJob`、`go monitorJob`。 -/
def loadSubmit (i : ImportJob) : Option String × ImportJob :=
  orReturn c true c.setLoadJobSchema i fun i =>
  orReturn c true c.submit i fun i =>
  (none, { i with monitored := true })

/-- `runLoad`：import の状態が `ImpDone` なら、対話の import は load の仕事を作って入れ、走りの import は
走りの仕事を書いて、出す。 -/
def runLoad (i : ImportJob) : Option String × ImportJob :=
  orReturn c true (if i.status ≠ .done then some loadWithoutImport else none) i fun i =>
  match i.job with
  | none =>
    orReturn c false c.importDataset i fun i =>
    orReturn c true c.insertBQJob i fun i =>
    loadSubmit c { i with job := some (newBQLoadJob i.table none) }
  | some _ =>
    orReturn c false c.updateBQJob i fun i =>
    loadSubmit c i

/-- `importJob.run`。 -/
def run (i : ImportJob) : Option String × ImportJob :=
  match runImport c i with
  | (some e, i) => (some e, i)
  | (none, i) => runLoad c i

/-! ## 誤りで返るとき -/

@[simp] theorem save_status (i : ImportJob) (r : Option String) : (i.save r).status = i.status := by
  unfold save; split <;> rfl
@[simp] theorem save_table (i : ImportJob) (r : Option String) : (i.save r).table = i.table := by
  unfold save; split <;> rfl
@[simp] theorem markError_status (i : ImportJob) (e : String) : (markError c i e).status = .error := by
  simp [markError]
@[simp] theorem markError_table (i : ImportJob) (e : String) :
    (markError c i e).table = { i.table with running := false, error := e } := by
  simp [markError]

/-- 返した誤り `e` は、`markError` を通った（状態は `ImpError`、表の誤りは `e`）か、状態を `st` のまま返した
`U` の誤りである。 -/
def Reports (st : ImportStatus) (U : String → Prop) (res : Option String × ImportJob) : Prop :=
  ∀ e, res.1 = some e → (res.2.status = .error ∧ res.2.table.error = e) ∨ (res.2.status = st ∧ U e)

variable {c} {st : ImportStatus} {U : String → Prop}

theorem orReturn_reports {mark : Bool} {r : Option String} {i : ImportJob}
    {k : ImportJob → Option String × ImportJob}
    (hU : mark = false → ∀ e, r = some e → i.status = st ∧ U e) (hk : r = none → Reports st U (k i)) :
    Reports st U (orReturn c mark r i k) := by
  rcases r with _ | e
  · exact hk rfl
  · rintro _ ⟨⟩
    cases mark
    · exact .inr (hU rfl e rfl)
    · exact .inl ⟨markError_status .., by simp [orReturn]⟩

theorem runImport_reports (i : ImportJob) :
    Reports .running (fun e => c.setRunning = some e ∨ c.unmarshal = some e ∨ c.setLastId = some e)
      (runImport c i) := by
  unfold runImport
  refine orReturn_reports (fun _ e he => ⟨rfl, .inl he⟩) fun _ => ?_
  refine orReturn_reports (by simp) fun _ => ?_
  refine orReturn_reports (by simp) fun _ => ?_
  refine orReturn_reports (fun _ e he => ⟨by simp, .inr (.inl ?_)⟩) fun _ => ?_
  · unfold unmarshalQuery at he; split at he <;> simp_all
  refine orReturn_reports (by simp) fun _ => ?_
  refine orReturn_reports (by simp) fun _ => ?_
  refine orReturn_reports (by simp) fun _ => ?_
  refine orReturn_reports (by simp) fun _ => ?_
  refine orReturn_reports (fun _ e he => ⟨by split <;> rfl, .inr (.inr he)⟩) fun _ => ?_
  rintro _ ⟨⟩

theorem loadSubmit_reports (i : ImportJob) : Reports st U (loadSubmit c i) := by
  unfold loadSubmit
  refine orReturn_reports (by simp) fun _ => ?_
  refine orReturn_reports (by simp) fun _ => ?_
  rintro _ ⟨⟩

theorem runLoad_reports (i : ImportJob) :
    Reports .done (fun e => c.importDataset = some e ∨ c.updateBQJob = some e) (runLoad c i) := by
  unfold runLoad
  refine orReturn_reports (by simp) fun hd => ?_
  have hd : i.status = .done := by simpa using hd
  split
  · refine orReturn_reports (fun _ e he => ⟨hd, .inl he⟩) fun _ => ?_
    exact orReturn_reports (by simp) fun _ => loadSubmit_reports _
  · exact orReturn_reports (fun _ e he => ⟨hd, .inr he⟩) fun _ => loadSubmit_reports _

variable (c)

/-- `importJob.run` が誤り `e` を返すのは、`markError` を通って import の状態が `ImpError`、表の誤りが `e` に
なったときか、`setRunning`、`json.Unmarshal`、`setLastId` の誤りで状態が `ImpRunning` のままのときか、
`ImportDataset`、`UpdateBQJob` の誤りで状態が `ImpDone` のままのときである。 -/
theorem run_error_cases (i : ImportJob) (e : String) (h : (run c i).1 = some e) :
    ((run c i).2.status = .error ∧ (run c i).2.table.error = e) ∨
      ((run c i).2.status = .running ∧
        (c.setRunning = some e ∨ c.unmarshal = some e ∨ c.setLastId = some e)) ∨
      ((run c i).2.status = .done ∧ (c.importDataset = some e ∨ c.updateBQJob = some e)) := by
  have himp := @runImport_reports c i
  unfold run at h ⊢
  rcases hr : runImport c i with ⟨_ | e', i'⟩ <;> simp only [hr] at h himp ⊢
  · exact (runLoad_reports i' e h).imp_right .inr
  · exact (himp e h).imp_right .inl

theorem run_error_cases_bad_query :
    ((run { unmarshal := some "bad JSON" }
      ⟨.queued, { id := 1, name := "t", dataset := "d", query := "x" },
        { id := 1, name := "t", dataset := "d", query := "x" }, none, false⟩).2.status = .error ∧
        (run { unmarshal := some "bad JSON" }
          ⟨.queued, { id := 1, name := "t", dataset := "d", query := "x" },
            { id := 1, name := "t", dataset := "d", query := "x" }, none, false⟩).2.table.error = "bad JSON") ∨
      ((run { unmarshal := some "bad JSON" }
        ⟨.queued, { id := 1, name := "t", dataset := "d", query := "x" },
          { id := 1, name := "t", dataset := "d", query := "x" }, none, false⟩).2.status = .running ∧
        (({ unmarshal := some "bad JSON" } : ImportCalls).setRunning = some "bad JSON" ∨
          ({ unmarshal := some "bad JSON" } : ImportCalls).unmarshal = some "bad JSON" ∨
          ({ unmarshal := some "bad JSON" } : ImportCalls).setLastId = some "bad JSON")) ∨
      ((run { unmarshal := some "bad JSON" }
        ⟨.queued, { id := 1, name := "t", dataset := "d", query := "x" },
          { id := 1, name := "t", dataset := "d", query := "x" }, none, false⟩).2.status = .done ∧
        (({ unmarshal := some "bad JSON" } : ImportCalls).importDataset = some "bad JSON" ∨
          ({ unmarshal := some "bad JSON" } : ImportCalls).updateBQJob = some "bad JSON")) :=
  run_error_cases _ _ _ rfl

/-! ## 待ち続ける走り -/

/-- `processCycle` は、import の状態が `ImpError` でも `ImpNone` でもない表の、まだ出していない load の仕事を
飛ばして次を見る。 -/
theorem itemStep_load_skips {s : Sys} {r : RunMem} {j : BQJob} {rest : List BQJob} (he : j.error = "")
    (hb : j.bqJobId = "") (hl : j.type = .load)
    (hs : s.imports j.tableId ≠ .error ∧ s.imports j.tableId ≠ .none) :
    itemStep s r j rest = some (s, .item r rest) := by
  unfold itemStep
  simp only [he, hb, hl, ne_eq, not_true_eq_false, if_false, if_true]
  split <;> simp_all

/-- 表の `Query` の `json.Unmarshal` が失敗すると、`importJob.run` は誤りを返すのに、import の状態は
`ImpRunning` のままで、カタログの表の誤りは書かれない。`processCycle` はその表の load の仕事を飛ばし続ける。 -/
theorem run_bad_query_keeps_running (i : ImportJob) (e : String) (hq : i.table.query ≠ "")
    (hsr : c.setRunning = none) (hdb : c.selectDbConf = none) (hconn : c.connect = none)
    (hu : c.unmarshal = some e) :
    (run c i).1 = some e ∧ (run c i).2.status = .running ∧ (run c i).2.row.error = i.table.error ∧
      ∀ (s : Sys) (r : RunMem) (j : BQJob) (rest : List BQJob), j.error = "" → j.bqJobId = "" →
        j.type = .load → s.imports j.tableId = (run c i).2.status →
          itemStep s r j rest = some (s, .item r rest) := by
  have hrun : run c i =
      (some e, ({ i with status := .running, table := { i.table with running := true } }).save none) := by
    simp [run, runImport, orReturn, unmarshalQuery, hsr, hdb, hconn, hq, hu]
  rw [hrun]
  refine ⟨rfl, rfl, rfl, fun s r j rest he hb hl hs => itemStep_load_skips he hb hl ?_⟩
  simp [hs]

theorem run_bad_query_keeps_running_interactive :
    (run { unmarshal := some "bad JSON" }
      ⟨.queued, { id := 1, name := "t", dataset := "d", query := "x" },
        { id := 1, name := "t", dataset := "d", query := "x" }, none, false⟩).1 = some "bad JSON" ∧
      (run { unmarshal := some "bad JSON" }
        ⟨.queued, { id := 1, name := "t", dataset := "d", query := "x" },
          { id := 1, name := "t", dataset := "d", query := "x" }, none, false⟩).2.status = .running ∧
      (run { unmarshal := some "bad JSON" }
        ⟨.queued, { id := 1, name := "t", dataset := "d", query := "x" },
          { id := 1, name := "t", dataset := "d", query := "x" }, none, false⟩).2.row.error = "" ∧
      ∀ (s : Sys) (r : RunMem) (j : BQJob) (rest : List BQJob), j.error = "" → j.bqJobId = "" →
        j.type = .load →
          s.imports j.tableId =
            (run { unmarshal := some "bad JSON" }
              ⟨.queued, { id := 1, name := "t", dataset := "d", query := "x" },
                { id := 1, name := "t", dataset := "d", query := "x" }, none, false⟩).2.status →
          itemStep s r j rest = some (s, .item r rest) :=
  run_bad_query_keeps_running _ _ _ (by decide) rfl rfl rfl rfl

end ImportJob

/-! ## 順番待ち（`queueImport`） -/

/-- import の表。 -/
def users : Table := { id := 1, name := "users", dataset := "app", importDbId := 1 }

def importStart : Sys := startup (tablesOf [users]) [] [] [] 1

/-- 二つの `runImportTable` が、どちらも `ImpNone` を見てから送る。 -/
def importTwice : List Event :=
  [.request (.runTable 1), .request (.runTable 1), .thread 6 .ok, .thread 7 .ok, .thread 6 .ok,
   .thread 7 .ok, .thread 6 .ok, .thread 7 .ok]

/-- `queueImport` が送った後、状態を `ImpQueued` にする前に、worker 0 が受けて `ImpRunning` にする。 -/
def queuedAfterRunning : List Event :=
  [.request (.runTable 1), .thread 6 .ok, .thread 6 .ok, .thread 6 .ok, .thread 0 .ok, .thread 0 .ok]

/-- 同じ表の import の仕事が二つ順番待ちに入り、走っている import の状態が `ImpQueued` に戻る。 -/
theorem queueImport_races :
    (∃ s, Reachable importStart s ∧ 2 ≤ (s.queue.filter (·.table.id = 1)).length) ∧
    ∃ s s', Reachable importStart s ∧ s.imports 1 = .running ∧ step s (.thread 6 .ok) = some s' ∧
      s'.imports 1 = .queued := by
  constructor
  · obtain ⟨s, hs, hp⟩ := @reach_of_run importStart importTwice
      (fun s => 2 ≤ (s.queue.filter (·.table.id = 1)).length) (by decide)
    exact ⟨s, hs, by simpa using hp⟩
  · obtain ⟨s, s', hs, hst, hp⟩ := @reach_step_of_run importStart queuedAfterRunning (.thread 6 .ok)
      (fun s s' => s.imports 1 == .running && s'.imports 1 == .queued) (by decide)
    simp only [Bool.and_eq_true, beq_iff_eq] at hp
    exact ⟨s, s', hs, hp.1, hst, hp.2⟩

/-! ## 表の行のモデル（`Maestro.Import`）との対応 -/

/-- GCS への書き込みの結末：`gcs.Insert` の誤りと、一時的な誤りの後のもう一回の結果から。`consumed` は一回目が
読んだ行の数。 -/
def ImportCalls.upload (c : ImportCalls) (consumed : Nat) : Import.Upload :=
  match c.insert with
  | none => .ok
  | some e => if contains e tempErr = true ∧ c.insertRetry = none then .retried consumed else .failed

namespace ImportJob

end ImportJob

end Maestro.System
