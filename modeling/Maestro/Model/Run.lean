import Maestro.Model.Job
import Maestro.Scheduler.Graph

/-!
# 走りの一回り（`Run.processCycle` の、カタログを読んで決めるところ）

`loadRunUnfinishedJobGraph` は走りの仕事を読み、終わっていない仕事を表の id で集めて、
`graphFromJobsById` でグラフにする。`processCycle` はそのグラフが空なら走りを終え、
そうでなければ `ReadyItems` の返した仕事を順に扱う。ここでは、読んだ仕事の並び（`ORDER BY id`）から
その決定までを関数にする。仕事を扱うところ（提出、import の順番待ち、外部の待ち）は、
ほかの goroutine と交互に進むので、並行のモデルに置く。Go の map は、キーを入れた順の連想の並びとし、
map を回る順（決まらない）はこの順とする。
-/

namespace Maestro.Model

open Go Scheduler

/-- 走り（`Run`）の記録のうち、繰り返しが読み書きする欄。 -/
structure Run where
  id : Nat
  endTime : Option Nat := none
  error : Option String := none
  deriving DecidableEq, Repr

/-- 走っている `Run` の、カタログに書かれない欄（`db:"-"`）。 -/
structure RunMem where
  id : Nat
  ignoreErrors : Bool := false
  maxErrCnt : Nat := 0
  deriving DecidableEq, Repr

/-- `countErrors`：スキーマの不一致を除いた、誤りのある仕事の数。 -/
def countErrors (jobs : List BQJob) : Nat :=
  (jobs.filter fun j => !contains j.error bqSchemaErr && j.error ≠ "").length

/-- `byId[k] = j`：キーがあれば値を替え、なければ後ろに加える。 -/
def mapInsert (m : List (Nat × BQJob)) (k : Nat) (j : BQJob) : List (Nat × BQJob) :=
  if m.any (·.1 = k) then m.map fun e => if e.1 = k then (k, j) else e else m ++ [(k, j)]

/-- `loadRunUnfinishedJobGraph` が map に残す仕事：DONE でないか、数えた誤りが許しを越える。 -/
def keepJob (maxErrCnt errCnt : Nat) (j : BQJob) : Bool :=
  j.state ≠ "DONE" || (j.error ≠ "" && (maxErrCnt = 0 || (0 < maxErrCnt && maxErrCnt < errCnt)))

/-- `loadRunUnfinishedJobGraph` の繰り返し。スキーマの不一致の仕事は飛ばし、誤りを数えながら、
残す仕事を表の id で集める。 -/
def unfinishedById (maxErrCnt : Nat) : Nat → List (Nat × BQJob) → List BQJob → List (Nat × BQJob)
  | _, byId, [] => byId
  | errCnt, byId, j :: js =>
    if contains j.error bqSchemaErr then unfinishedById maxErrCnt errCnt byId js
    else
      let errCnt := if j.error ≠ "" then errCnt + 1 else errCnt
      unfinishedById maxErrCnt errCnt
        (if keepJob maxErrCnt errCnt j then mapInsert byId j.tableId j else byId) js

/-- `graphFromJobsById` の `Relate` の並び。親のうち map にあるものと結び、一つもなければ
（親がみな終わっていれば）親なしで加える。 -/
def relateCalls (byId : List (Nat × BQJob)) : List (Option String × String) :=
  byId.flatMap fun e =>
    let ps := e.2.parents.filter fun pid => byId.any (·.1 = pid)
    ps.map (fun pid => (some (toString pid), e.2.name)) ++ if ps = [] then [(none, e.2.name)] else []

/-- `graphFromJobsById`。 -/
def graphFromJobsById (byId : List (Nat × BQJob)) : Graph :=
  build (relateCalls byId)

/-- グラフのノードの項目：その名前で最初に加えた仕事。 -/
def itemOf (byId : List (Nat × BQJob)) (name : String) : Option BQJob :=
  (byId.find? fun e => e.2.name = name).map (·.2)

/-- `processCycle` の決定：走りを終えるか、失敗させるか、準備のできた仕事を順に扱うか。 -/
inductive CycleStep
  | finish
  | fail (msg : String)
  | items (ready : List BQJob)
  deriving DecidableEq, Repr

/-- 読んだ仕事の並びから `processCycle` が決めること。`ReadyItems` が止まるグラフは作られないが、
そのときは `none`。 -/
def processCyclePlan (r : RunMem) (jobs : List BQJob) : Option CycleStep :=
  let byId := unfinishedById r.maxErrCnt 0 [] jobs
  let g := graphFromJobsById byId
  if g.keys = [] then some .finish
  else
    g.readyItems.map fun (_, ready, err) =>
      match err with
      | some e => .fail e
      | none => .items (ready.filterMap (itemOf byId))

end Maestro.Model
