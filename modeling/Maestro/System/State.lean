import Maestro.Model.Table
import Maestro.Model.Run

/-!
# プロセスの共有の状態

Maestro の一つのプロセスが共有する状態：カタログ（表、仕事、走りの記録）、BigQuery の側の仕事、表ごとの import の
状態の map と順番待ちの channel（`importQueue`）、外部の待ちの登録簿（`externalWaits`）、閉じた channel、
時計、そして goroutine ごとのプログラムカウンタ。

カタログへの一回の問い合わせ、mutex の内側の一回の操作、channel の一回の送受信を、それぞれ分けられない
一歩とし、goroutine のローカルな計算はその前後の一歩にまとめる。Go のポインタで渡る `*Table` と `*BQJob` は、
goroutine ごとの写しとして持つ。カタログの時刻の欄は秒の数で、`0` が NULL である。
-/

namespace Maestro.System

open Go Model

/-- import の状態（`importStatus`）。map にない表の状態は `none`（`ImpNone`）。 -/
inductive ImportStatus
  | none
  | queued
  | running
  | done
  | error
  deriving DecidableEq, Repr

/-- import の仕事（`importJob`）：表の写しと、走りから渡された仕事。 -/
structure ImportTask where
  table : Table
  job : Option BQJob
  deriving DecidableEq, Repr

/-- 外部の待ち（`externalWait`）：時計の goroutine が待つ channel と、待ちの仕事。 -/
structure ExternalWait where
  ch : Nat
  job : Option BQJob
  deriving DecidableEq, Repr

/-- BigQuery の側の仕事。`jobId` は、それを出したカタログの仕事の id。 -/
structure WhJob where
  bqJobId : String
  jobId : Nat
  status : JobStatus
  startTime : Option Nat := none
  endTime : Option Nat := none
  deriving DecidableEq, Repr

/-- `queueImport` の呼び出し元。 -/
inductive QCont
  /-- `processCycle`：結果を捨てて次の項目へ。 -/
  | cycle (r : RunMem) (rest : List BQJob)
  /-- `reimport`：順番に入れば、表に誤りを書く。 -/
  | reimport (t : Table) (job : BQJob)
  /-- `runImportTable`。 -/
  | handler
  deriving DecidableEq, Repr

/-- `startExternalWait` の呼び出し元。 -/
inductive ECont
  | cycle (r : RunMem) (rest : List BQJob)
  | handler
  deriving DecidableEq, Repr

/-- `submitJob` の呼び出し元。 -/
inductive SCont
  /-- `processCycle` の要約の仕事。 -/
  | cycle (r : RunMem) (t : Table) (rest : List BQJob)
  /-- `runBQTable`。 -/
  | runTable (t : Table)
  /-- `resubmit`。 -/
  | resubmit
  /-- `ExtractTableToGCS`。 -/
  | extract (t : Table)
  /-- `runLoad`。 -/
  | load (task : ImportTask)
  /-- `ExternalLoad`。 -/
  | externalLoad
  deriving DecidableEq, Repr

/-- goroutine のプログラムカウンタと、そこで持つローカルな値。 -/
inductive Pc
  | done
  /-- `monitorRun` の入口：再開した走りなら誤りを数える。 -/
  | monitorRun (r : RunMem)
  /-- `processCycle` の始め：走りの仕事を読んで決める。 -/
  | cycle (r : RunMem)
  /-- `ReadyItems` の返した仕事を順に扱う。 -/
  | item (r : RunMem) (ready : List BQJob)
  /-- 要約の仕事の表を読んだ後：誤りを消して `setRunning`。 -/
  | querySelected (r : RunMem) (j : BQJob) (t : Table) (rest : List BQJob)
  /-- load の仕事の import の状態が `ImpNone` だった：表を読む。 -/
  | loadSelect (r : RunMem) (j : BQJob) (rest : List BQJob)
  /-- import の表：`setRunning` の後に `queueImport`。 -/
  | importSetRunning (r : RunMem) (j : BQJob) (t : Table) (rest : List BQJob)
  /-- 外部の表：`hasExternalWait` を見る。 -/
  | externalCheck (r : RunMem) (j : BQJob) (t : Table) (rest : List BQJob)
  /-- 走りを失敗させる（`monitorRun` の `UpdateRun`）。 -/
  | runFail (r : RunMem) (msg : String)
  /-- `queueImport`：状態を見る。 -/
  | qiCheck (task : ImportTask) (k : QCont)
  /-- `queueImport`：channel に送る。 -/
  | qiSend (task : ImportTask) (k : QCont)
  /-- `queueImport`：状態を `ImpQueued` にする。 -/
  | qiSet (task : ImportTask) (k : QCont)
  /-- `startExternalWait`：種類と登録簿を見る。 -/
  | ewCheck (t : Table) (job : Option BQJob) (k : ECont)
  /-- `startExternalWait`：`setRunning`。 -/
  | ewSetRunning (t : Table) (job : Option BQJob) (k : ECont)
  /-- `startExternalWait`：登録して時計の goroutine を起こす。 -/
  | ewRegister (t : Table) (job : Option BQJob) (k : ECont)
  /-- 時計の goroutine：channel が閉じるか、期限が来るのを待つ。 -/
  | ewTimer (ch : Nat) (t : Table) (deadline : Nat)
  /-- `submitJob`：`StartJob`。 -/
  | submitStart (job : BQJob) (k : SCont)
  /-- `submitJob`：`UpdateBQJob` で BigQuery の id を書く。 -/
  | submitUpdate (job : BQJob) (k : SCont)
  /-- `monitorJob`：`waitForJob` で終わりを待つ。 -/
  | monitor (job : BQJob)
  /-- `resubmit`：状態と終わりの時刻を消して書く。 -/
  | resubmitClear (job : BQJob)
  /-- `processJobDone`：仕事を書く。 -/
  | doneUpdate (job : BQJob)
  /-- `processJobDone`：表を読む。 -/
  | doneSelect (job : BQJob)
  /-- `processJobDone`：import の状態を消して、誤りで分ける。 -/
  | doneDeleteImport (job : BQJob) (t : Table)
  /-- `reimport`：import の状態を消す。 -/
  | reimportDelete (t : Table) (job : BQJob)
  /-- `ReimportTable`：置き換えの設定を書く。 -/
  | reimportSave (t : Table) (job : BQJob)
  /-- `ReimportTable`：load の仕事を入れて `queueImport`。 -/
  | reimportInsert (t : Table) (job : BQJob)
  /-- `processJobDone`：`setRunning(false)`。 -/
  | doneSetRunning (job : BQJob) (t : Table)
  /-- `processJobDone`：`setLastOkRunEndAt`。 -/
  | doneLastOk (job : BQJob) (t : Table)
  /-- `postCompletionQuery`、`postCompletionExtract`、`postCompletionLoad`。 -/
  | postCompletion (job : BQJob) (t : Table)
  /-- `ExtractTableToGCS`：出した後の `setRunning`。 -/
  | extractSetRunning (t : Table) (job : BQJob)
  /-- `setError` の後に `k` へ。 -/
  | setError (t : Table) (msg : String) (k : Pc)
  /-- `importWorker`：channel から受ける。 -/
  | worker
  /-- `runImport`：状態を `ImpRunning` にする。 -/
  | importStatusRunning (task : ImportTask)
  /-- `runImport`：`setRunning(true)`。 -/
  | importSaveRunning (task : ImportTask)
  /-- `runImport`：外部のデータベースから読んで GCS に上げる。 -/
  | importUpload (task : ImportTask)
  /-- `runImport`：`setLastId`。 -/
  | importSetLastId (task : ImportTask)
  /-- `runImport`：状態を `ImpDone` にする。 -/
  | importStatusDone (task : ImportTask)
  /-- `runLoad`：状態を見る。 -/
  | loadCheck (task : ImportTask)
  /-- `runLoad`：対話の import の load の仕事を入れる。 -/
  | loadInsert (task : ImportTask)
  /-- `runLoad`：走りの load の仕事を書く。 -/
  | loadUpdate (task : ImportTask) (job : BQJob)
  /-- `markError`：状態を `ImpError` にする。 -/
  | markError (task : ImportTask) (msg : String)
  /-- `tablePutHandler`：import の状態を見る。 -/
  | putCheck (t : Table)
  /-- `tablePutHandler`：import の誤りの状態を消す。 -/
  | putDelete (t : Table)
  /-- `tablePutHandler`：`SaveTable`。 -/
  | putSave (t : Table)
  /-- `tableDeleteHandler`：表を読む。 -/
  | deleteSelect (id : Nat)
  /-- `tableDeleteHandler`：`DeletedAt` を付けて `SaveTable`。 -/
  | deleteSave (t : Table)
  /-- `tableRunHandler`：表を読んで `RunTable`。 -/
  | runTableSelect (id : Nat)
  /-- `runBQTable`：要約の仕事を入れる。 -/
  | runTableInsert (t : Table)
  /-- `runBQTable`：出した後の `setRunning`。 -/
  | runTableSetRunning (t : Table) (job : BQJob)
  /-- `tableLoadExternalHandler`：表を読む。 -/
  | externalLoadSelect (id : Nat)
  /-- `tableLoadExternalHandler`：誤りを消して `SaveTable`。 -/
  | externalLoadSave (t : Table)
  /-- `cancelExternalWait`。 -/
  | externalLoadCancel (t : Table)
  /-- `ExternalLoad`：待ちがなければ load の仕事を入れる。 -/
  | externalLoadInsert (t : Table)
  deriving Repr

/-- プロセスの共有の状態。`expired` は期限で終わった時計の goroutine の channel、`resubmitted` は `resubmit` が
状態を消した仕事の行の id で、どちらも証明のためだけの記録（ゴースト）である。 -/
structure Sys where
  tables : Nat → Option Table
  jobs : List BQJob
  runs : Nat → Option Run
  wh : List WhJob
  imports : Nat → ImportStatus
  queue : List ImportTask
  waits : Nat → Option ExternalWait
  closed : List Nat
  nextCh : Nat
  clock : Nat
  threads : List Pc
  expired : List Nat
  resubmitted : List Nat

namespace Sys

variable (s : Sys)

/-! ## カタログ -/

/-- `SelectTable`：消していない表。 -/
def selectTable (id : Nat) : Option Table :=
  (s.tables id).filter (·.deletedAt = 0)

/-- `tableRecFromTable` のうち、行を変えるところ：空の `Disposition` は `WRITE_TRUNCATE` で書く。 -/
def tableRec (t : Table) : Table :=
  if t.disposition = "" then { t with disposition := "WRITE_TRUNCATE" } else t

/-- `SaveTable`：行のすべての欄を、写しの値で書く。行がなければ何もしない。 -/
def saveTable (t : Table) : Sys :=
  { s with tables := Function.update s.tables t.id ((s.tables t.id).map fun _ => tableRec t) }

/-- `InsertBQJob`：次の id で仕事を入れる。 -/
def insertJob (j : BQJob) : BQJob := { j with id := s.jobs.length + 1 }

def insertBQJob (j : BQJob) : Sys := { s with jobs := s.jobs ++ [s.insertJob j] }

/-- `UpdateBQJob`：同じ id の行のすべての欄を、写しの値で書く。 -/
def updateBQJob (j : BQJob) : Sys :=
  { s with jobs := s.jobs.map fun r => if r.id = j.id then j else r }

/-- `SelectBQJobsByRunId`（id の順）。 -/
def jobsOfRun (runId : Nat) : List BQJob := s.jobs.filter (·.runId = some runId)

/-- `UpdateRun`：終わりの時刻と誤りを書く。 -/
def updateRun (runId : Nat) (error : Option String) : Sys :=
  { s with runs := Function.update s.runs runId ((s.runs runId).map fun r =>
      { r with endTime := some s.clock, error := error }) }

/-! ## プロセスの中の map と channel -/

/-- `setImportStatus`。`DeleteImportStatus` は `none` を書くのと同じ。 -/
def setImport (id : Nat) (st : ImportStatus) : Sys :=
  { s with imports := Function.update s.imports id st }

def setWait (id : Nat) (w : Option ExternalWait) : Sys :=
  { s with waits := Function.update s.waits id w }

def spawn (pc : Pc) : Sys := { s with threads := s.threads ++ [pc] }

/-- BigQuery の id `bqJobId` の仕事。 -/
def whJob (bqJobId : String) : Option WhJob := s.wh.find? (·.bqJobId = bqJobId)

/-! ## 欄ごとの補題 -/

@[simp] theorem saveTable_jobs (t : Table) : (s.saveTable t).jobs = s.jobs := rfl
@[simp] theorem saveTable_imports (t : Table) : (s.saveTable t).imports = s.imports := rfl
@[simp] theorem saveTable_waits (t : Table) : (s.saveTable t).waits = s.waits := rfl
@[simp] theorem saveTable_queue (t : Table) : (s.saveTable t).queue = s.queue := rfl
@[simp] theorem saveTable_wh (t : Table) : (s.saveTable t).wh = s.wh := rfl
@[simp] theorem saveTable_threads (t : Table) : (s.saveTable t).threads = s.threads := rfl
@[simp] theorem saveTable_clock (t : Table) : (s.saveTable t).clock = s.clock := rfl

@[simp] theorem insertBQJob_tables (j : BQJob) : (s.insertBQJob j).tables = s.tables := rfl
@[simp] theorem insertBQJob_imports (j : BQJob) : (s.insertBQJob j).imports = s.imports := rfl
@[simp] theorem insertBQJob_waits (j : BQJob) : (s.insertBQJob j).waits = s.waits := rfl
@[simp] theorem insertBQJob_threads (j : BQJob) : (s.insertBQJob j).threads = s.threads := rfl
@[simp] theorem insertBQJob_clock (j : BQJob) : (s.insertBQJob j).clock = s.clock := rfl

@[simp] theorem updateBQJob_tables (j : BQJob) : (s.updateBQJob j).tables = s.tables := rfl
@[simp] theorem updateBQJob_imports (j : BQJob) : (s.updateBQJob j).imports = s.imports := rfl
@[simp] theorem updateBQJob_waits (j : BQJob) : (s.updateBQJob j).waits = s.waits := rfl
@[simp] theorem updateBQJob_threads (j : BQJob) : (s.updateBQJob j).threads = s.threads := rfl
@[simp] theorem updateBQJob_clock (j : BQJob) : (s.updateBQJob j).clock = s.clock := rfl

@[simp] theorem updateRun_tables (id : Nat) (e : Option String) : (s.updateRun id e).tables = s.tables := rfl
@[simp] theorem updateRun_imports (id : Nat) (e : Option String) :
    (s.updateRun id e).imports = s.imports := rfl
@[simp] theorem updateRun_waits (id : Nat) (e : Option String) : (s.updateRun id e).waits = s.waits := rfl
@[simp] theorem updateRun_threads (id : Nat) (e : Option String) :
    (s.updateRun id e).threads = s.threads := rfl

@[simp] theorem setImport_tables (id : Nat) (st : ImportStatus) : (s.setImport id st).tables = s.tables := rfl
@[simp] theorem setImport_waits (id : Nat) (st : ImportStatus) : (s.setImport id st).waits = s.waits := rfl
@[simp] theorem setImport_threads (id : Nat) (st : ImportStatus) :
    (s.setImport id st).threads = s.threads := rfl

@[simp] theorem setWait_tables (id : Nat) (w : Option ExternalWait) : (s.setWait id w).tables = s.tables := rfl
@[simp] theorem setWait_imports (id : Nat) (w : Option ExternalWait) :
    (s.setWait id w).imports = s.imports := rfl
@[simp] theorem setWait_threads (id : Nat) (w : Option ExternalWait) :
    (s.setWait id w).threads = s.threads := rfl

@[simp] theorem spawn_tables (pc : Pc) : (s.spawn pc).tables = s.tables := rfl
@[simp] theorem spawn_imports (pc : Pc) : (s.spawn pc).imports = s.imports := rfl
@[simp] theorem spawn_waits (pc : Pc) : (s.spawn pc).waits = s.waits := rfl
@[simp] theorem spawn_threads (pc : Pc) : (s.spawn pc).threads = s.threads ++ [pc] := rfl

end Sys

end Maestro.System
