import Mathlib.Data.List.Sort

/-!
# 増分の import の行

`IdColumn` のある一つの import の表の、元のデータベースの行と BigQuery の表の行。

`queueImport` は、そのときの表（`i.table`）を持つ import の仕事を順番待ちに入れ、六つの import の worker の
一つがそれを走らせる（`importJob.run`）。`runImport` は、再 import の条件（`reimportCondSatisfied`）が成り立てば
手元の表の `LastId` を空にし、`LastId` より大きい id の行を id の順に読んで（`wrapPgStmt`）GCS に書き、読んだ
最後の行の id（`TableReader.LastId`）を `setLastId` で表に書く。GCS への書き込みが一時的な誤りで失敗すると、
十秒後に同じ読み手でもう一回書くので、二回目のファイルは一回目が読まなかった残りの行だけを持ち、`LastId` は
読んだ最後の行まで進む。書き込みが失敗すると `markError` が `setError` で表を書き、空にした `LastId` もその
とき書かれる。`setLastId` も `setError` も `SaveTable` で手元の表をまるごと書くので、順番待ちに入れた後に
変わった `LastId` と `Disposition` は、そのときの値に戻る。

`runLoad` が出す load の仕事の書き方は、仕事を作るとき（走りなら `Assemble`、そうでなければ `runLoad`）の
`newBQLoadJob` が決める：再 import の条件が成り立てば `WRITE_TRUNCATE`、そうでなければ手元の表の
`Disposition`（走りの仕事が `Assemble` のときの表から作られることは、ここでは順番待ちに入れたときの表で表す）。
仕事が誤りなく終われば `postCompletionLoad` の `loadCleanup` が `WRITE_TRUNCATE` を `WRITE_APPEND` に書き換え、
誤りで終われば `processJobDone` は `setError` を書くだけである。`processJobDone` の表の読み出し、
`DeleteImportStatus`、`loadCleanup` は一歩で表す。

`queueImport` は import の状態が `ImpNone` でなければ断り、状態は `processJobDone` の `DeleteImportStatus` で
`ImpNone` に戻る。この門が守られれば、一つの表の import と load は一つずつ進む（`gated`）。ただ、状態の読みと
順番待ちへの送りは別の一歩なので（`Maestro.System.queueImport_races`）、また再起動の後は状態が空なので、
門を通らない列も起こる。`step` はそれも断らない。行は id だけで表し、行の中身、GCS のファイル名、大きすぎる行
（`maxCsvSize`）と、スキーマの不一致の後の再 import（`ReimportTable`）は扱わない。

`setLastId` は load の仕事の前に `LastId` を進める。その load が誤りで終わると（`failed_load_loses_rows`）、
またはもう一回の書き込みが一回目の読んだ行を持たないと（`retried_upload_loses_rows`）、それらの行は `LastId`
までの行なのに BigQuery の表になく、再 import の条件が成り立つまで、後の import はそれを読まない。古い表を
持つ仕事は、もう BigQuery の表にある行をまた読んで加える（`stale_task_duplicates_rows`）。誤りがなく、門が
守られ、再 import の条件の二つの値が同じで、元の表の id が加わる順に大きくなれば、import も load も進んで
いないときの BigQuery の表は、`LastId` までの元の行をちょうど一度ずつ持つ（`imports_exact_of_clean`）。
-/

namespace Maestro.Import

/-- `wrapPgStmt` の読み出し：`LastId` があればそれより大きい id の行を、id の順に。 -/
def selectRows (source : List Nat) (lastId : Option Nat) : List Nat :=
  (source.filter fun id => lastId.all (· < id)).insertionSort (· ≤ ·)

/-- 読み出しの後の `TableReader.LastId`：読んだ行ごとに、その id で書き換わる。 -/
def readerLastId (lastId : Option Nat) (rows : List Nat) : Option Nat :=
  rows.foldl (fun _ id => some id) lastId

/-- 出した load の仕事：書き方と、GCS のファイルの行。 -/
structure LoadJob where
  disposition : String
  rows : List Nat
  deriving DecidableEq, Repr

/-- BigQuery の load：`WRITE_TRUNCATE` は表を置き換え、そうでなければ行を加える。 -/
def bqLoad (job : LoadJob) (warehouse : List Nat) : List Nat :=
  if job.disposition = "WRITE_TRUNCATE" then job.rows else warehouse ++ job.rows

/-- `loadCleanup` の書き方の書き換え（`IdColumn` のある表）。 -/
def loadCleanup (disposition : String) : String :=
  if disposition = "WRITE_TRUNCATE" then "WRITE_APPEND" else disposition

/-- 順番待ちの import の仕事が持つ表（`i.table`）の、`queueImport` に渡したときの `LastId` と `Disposition`。 -/
structure Task where
  lastId : Option Nat
  disposition : String
  deriving DecidableEq, Repr

/-- GCS への書き込み（`gcs.Insert`）の結末。 -/
inductive Upload
  /-- 一回目で通る。 -/
  | ok
  /-- 一回目が、読み手の初めの `consumed` 行を読んだところで一時的な誤りで失敗し、もう一回が同じ読み手の残りを
  書いて通る。 -/
  | retried (consumed : Nat)
  /-- 一時的でない誤りか、もう一回も誤り。 -/
  | failed
  deriving DecidableEq, Repr

/-- GCS のファイルの行。失敗すれば `none`。 -/
def Upload.file : Upload → List Nat → Option (List Nat)
  | .ok, rows => some rows
  | .retried k, rows => some (rows.drop k)
  | .failed, _ => none

/-- 一つの表の状態。 -/
structure St where
  /-- 元の表の行の id。 -/
  source : List Nat
  /-- 表の `LastId`（空は `none`）。 -/
  lastId : Option Nat
  disposition : String
  /-- BigQuery の表の行の id。 -/
  warehouse : List Nat
  /-- 順番待ちの、まだ走っていない import の仕事。 -/
  tasks : List Task
  /-- 出した、まだ終わっていない load の仕事（出した順）。 -/
  loads : List LoadJob
  deriving DecidableEq, Repr

/-- 新しい表：まだ何も読んでいない。 -/
def St.init (source : List Nat) (disposition : String) : St :=
  { source := source, lastId := none, disposition := disposition, warehouse := [], tasks := [], loads := [] }

/-- import も load も進んでいない。 -/
def St.idle (s : St) : Bool := s.tasks.isEmpty && s.loads.isEmpty

/-- 表に起こること。 -/
inductive Event
  /-- 元の表に行が加わる。 -/
  | insert (id : Nat)
  /-- `queueImport`：そのときの表を持つ import の仕事を順番待ちに入れる。 -/
  | queue
  /-- import の worker が `i` 番の仕事を走らせる：再 import の条件の、load の仕事を作るときと `runImport` の
  ときの値と、GCS への書き込みの結末。 -/
  | runImport (i : Nat) (condJob condImport : Bool) (upload : Upload)
  /-- `i` 番の load の仕事が終わる（`ok` は誤りがないこと）。 -/
  | loadDone (i : Nat) (ok : Bool)
  deriving DecidableEq, Repr

/-- 仕事 `t` の `importJob.run`：`setLastId` か `setError` が手元の表を書き戻し、書き込みが通れば `runLoad` が
load の仕事を出す。 -/
def importRun (s : St) (t : Task) (condJob condImport : Bool) (upload : Upload) : St :=
  let lastId := if condImport then none else t.lastId
  let rows := selectRows s.source lastId
  match upload.file rows with
  | none => { s with lastId := lastId, disposition := t.disposition }
  | some file =>
    { s with
      lastId := readerLastId lastId rows
      disposition := t.disposition
      loads := s.loads ++ [⟨if condJob then "WRITE_TRUNCATE" else t.disposition, file⟩] }

/-- 一歩。元の表の id は一意である。 -/
def step (s : St) : Event → Option St
  | .insert id => if id ∈ s.source then none else some { s with source := s.source ++ [id] }
  | .queue => some { s with tasks := s.tasks ++ [⟨s.lastId, s.disposition⟩] }
  | .runImport i condJob condImport upload =>
    s.tasks[i]?.map fun t => importRun { s with tasks := s.tasks.eraseIdx i } t condJob condImport upload
  | .loadDone i ok =>
    s.loads[i]?.map fun job =>
      if ok then
        { s with
          warehouse := bqLoad job s.warehouse
          disposition := loadCleanup s.disposition
          loads := s.loads.eraseIdx i }
      else { s with loads := s.loads.eraseIdx i }

/-- 列の一歩ずつを順に。 -/
def run (s : St) : List Event → Option St
  | [] => some s
  | e :: es => (step s e).bind (run · es)

/-- `LastId` までの元の行：BigQuery の表にあるはずの行。 -/
def imported (s : St) : List Nat := s.source.filter fun id => s.lastId.any (id ≤ ·)

/-- 再 import の条件が `runImport` のときに成り立たない一歩。 -/
def Event.keepsLastId : Event → Bool
  | .runImport _ _ condImport _ => !condImport
  | _ => true

/-- 行を失わない書き込み：一回目で通るか、一回目が一行も読まずに失敗した。 -/
def Upload.lossless : Upload → Bool
  | .retried k => k == 0
  | _ => true

/-- 誤りのない一歩：再 import の条件の二つの値が同じで、GCS への書き込みは行を失わず、`runImport` のときに条件が
成り立てば通り、load の仕事は誤りなく終わる。 -/
def Event.clean : Event → Bool
  | .runImport _ condJob condImport upload =>
    condJob == condImport && upload.lossless && (upload != .failed || !condImport)
  | .loadDone _ ok => ok
  | _ => true

/-- 元の表に加わる行の id。 -/
def Event.insertedId : Event → Option Nat
  | .insert id => some id
  | _ => none

/-- `queueImport` の門（`GetImportStatus` が `ImpNone`）が守られた列：仕事を順番待ちに入れるのは、import も
load も進んでいないときだけである。 -/
def gated (s : St) : List Event → Bool
  | [] => true
  | e :: es => (e != .queue || s.idle) && (step s e).all (gated · es)

/-- 進んでいる load の仕事がみな出した順に終わった後の BigQuery の表。 -/
def St.afterLoad (s : St) : List Nat := s.loads.foldl (fun w job => bqLoad job w) s.warehouse

/-! ## 一歩の形 -/

theorem step_runImport {s s' : St} {i : Nat} {condJob condImport : Bool} {upload : Upload} :
    step s (.runImport i condJob condImport upload) = some s' ↔
      ∃ t, s.tasks[i]? = some t ∧ importRun { s with tasks := s.tasks.eraseIdx i } t condJob condImport upload = s' :=
  Option.map_eq_some'

theorem step_loadDone {s s' : St} {i : Nat} {ok : Bool} :
    step s (.loadDone i ok) = some s' ↔
      ∃ job, s.loads[i]? = some job ∧
        (if ok then
          { s with
            warehouse := bqLoad job s.warehouse
            disposition := loadCleanup s.disposition
            loads := s.loads.eraseIdx i }
        else { s with loads := s.loads.eraseIdx i }) = s' :=
  Option.map_eq_some'

@[simp] theorem importRun_source (s : St) (t : Task) (condJob condImport : Bool) (upload : Upload) :
    (importRun s t condJob condImport upload).source = s.source := by
  dsimp only [importRun]; split <;> rfl

theorem file_subset {upload : Upload} {rows file : List Nat} (h : upload.file rows = some file) : file ⊆ rows := by
  cases upload <;> cases h
  · exact List.Subset.refl _
  · exact List.drop_subset _ _

theorem file_of_lossless {upload : Upload} {rows file : List Nat} (hl : upload.lossless = true)
    (h : upload.file rows = some file) : file = rows := by
  cases upload with
  | ok => cases h; rfl
  | retried k =>
    obtain rfl : k = 0 := by simpa [Upload.lossless] using hl
    cases h; rfl
  | failed => cases h

theorem file_eq_none {upload : Upload} {rows : List Nat} : upload.file rows = none ↔ upload = .failed := by
  cases upload <;> simp [Upload.file]

/-- 長さが一以下の列の `i` 番の要素は、その列のただ一つの要素である。 -/
theorem eq_singleton_of_getElem? {α : Type} {l : List α} {i : Nat} {a : α} (hl : l.length ≤ 1)
    (h : l[i]? = some a) : l = [a] ∧ i = 0 := by
  match l, i, hl, h with
  | [b], 0, _, h => exact ⟨by simpa using h, rfl⟩
  | [_], _ + 1, _, h => simp at h

/-! ## 読み出し -/

theorem mem_selectRows {source : List Nat} {lastId : Option Nat} {id : Nat} :
    id ∈ selectRows source lastId ↔ id ∈ source ∧ lastId.all (· < id) := by
  simp [selectRows, List.mem_insertionSort]

theorem sorted_selectRows (source : List Nat) (lastId : Option Nat) :
    (selectRows source lastId).Sorted (· ≤ ·) :=
  List.sorted_insertionSort _ _

/-- 読み出しの後の `LastId` は、前の値か、読んだ行の id である。 -/
theorem readerLastId_cases (lastId : Option Nat) (rows : List Nat) :
    readerLastId lastId rows = lastId ∨ ∃ y ∈ rows, readerLastId lastId rows = some y := by
  induction rows generalizing lastId with
  | nil => exact .inl rfl
  | cons x xs ih =>
    rcases ih (some x) with h | ⟨y, hy, h⟩
    · exact .inr ⟨x, List.mem_cons_self _ _, h⟩
    · exact .inr ⟨y, List.mem_cons_of_mem _ hy, h⟩

/-- id の順に読めば、読んだ行はみな読み出しの後の `LastId` 以下である。 -/
theorem le_readerLastId (lastId : Option Nat) {rows : List Nat} (hs : rows.Sorted (· ≤ ·)) {id : Nat}
    (hid : id ∈ rows) : (readerLastId lastId rows).any (id ≤ ·) := by
  induction rows generalizing lastId with
  | nil => cases hid
  | cons x xs ih =>
    obtain ⟨hx, hxs⟩ := List.sorted_cons.1 hs
    show (readerLastId (some x) xs).any (id ≤ ·)
    obtain rfl | hid := List.mem_cons.1 hid
    · rcases readerLastId_cases (some id) xs with h | ⟨y, hy, h⟩
      · simp [h]
      · simpa [h] using hx y hy
    · exact ih _ hxs hid

theorem lt_of_any_le_all_lt {lastId : Option Nat} {id y : Nat} (h : lastId.any (id ≤ ·))
    (h' : lastId.all (· < y)) : id < y := by
  cases lastId with
  | none => cases h
  | some k =>
    simp only [Option.any_some, Option.all_some, decide_eq_true_eq] at h h'
    omega

/-- 前の `LastId` より大きい行だけを読めば、`LastId` は戻らない。 -/
theorem any_le_readerLastId {lastId : Option Nat} {rows : List Nat} {id : Nat}
    (h : lastId.any (id ≤ ·)) (hr : ∀ y ∈ rows, lastId.all (· < y)) :
    (readerLastId lastId rows).any (id ≤ ·) := by
  rcases readerLastId_cases lastId rows with he | ⟨y, hy, he⟩
  · rwa [he]
  · simpa [he] using Nat.le_of_lt (lt_of_any_le_all_lt h (hr y hy))

/-- `LastId` 以下の行は読まない。 -/
theorem not_mem_selectRows {source : List Nat} {lastId : Option Nat} {id : Nat} (h : lastId.any (id ≤ ·)) :
    id ∉ selectRows source lastId := fun hid =>
  Nat.lt_irrefl _ (lt_of_any_le_all_lt h (mem_selectRows.1 hid).2)

/-- 読んだ行と、読む前の `LastId` までの行を合わせると、元の表の行になる。 -/
theorem filter_append_selectRows_perm (source : List Nat) (lastId : Option Nat) :
    (source.filter (fun id => lastId.any (id ≤ ·)) ++ selectRows source lastId).Perm source := by
  refine (List.Perm.append_left _ (List.perm_insertionSort _ _)).trans ?_
  refine List.Perm.trans ?_ (List.filter_append_perm (fun id => lastId.any (id ≤ ·)) source)
  refine List.Perm.append_left _ (List.Perm.of_eq (List.filter_congr fun x _ => ?_))
  cases lastId with
  | none => rfl
  | some k => simp only [Option.all_some, Option.any_some, ← decide_not, Nat.not_le]

/-- 読み出しの後は、元の表の行はみな `LastId` 以下である。 -/
theorem filter_readerLastId (source : List Nat) (lastId : Option Nat) :
    source.filter (fun id => (readerLastId lastId (selectRows source lastId)).any (id ≤ ·)) = source := by
  refine List.filter_eq_self.2 fun x hx => ?_
  by_cases h : lastId.all (· < x)
  · exact le_readerLastId _ (sorted_selectRows _ _) (mem_selectRows.2 ⟨hx, h⟩)
  · refine any_le_readerLastId ?_ fun y hy => (mem_selectRows.1 hy).2
    cases lastId <;> simp_all

/-! ## 出した load の仕事の行 -/

/-- 出した load の仕事の行は、元の表の行である。 -/
def LoadsFromSource (s : St) : Prop := ∀ job ∈ s.loads, ∀ id ∈ job.rows, id ∈ s.source

theorem LoadsFromSource.step {s s' : St} {e : Event} (h : LoadsFromSource s) (hs : step s e = some s') :
    LoadsFromSource s' := by
  cases e with
  | insert i =>
    simp only [Import.step] at hs
    split at hs
    · cases hs
    · cases hs
      exact fun job hj id hid => List.mem_append_left _ (h job hj id hid)
  | queue => cases hs; exact h
  | runImport i condJob condImport upload =>
    obtain ⟨t, -, rfl⟩ := step_runImport.1 hs
    dsimp only [importRun]
    split
    · exact h
    · rename_i file hfile
      intro job hj id hid
      rcases List.mem_append.1 hj with hj | hj
      · exact h job hj id hid
      · obtain rfl := List.mem_singleton.1 hj
        exact (mem_selectRows.1 (file_subset hfile hid)).1
  | loadDone i ok =>
    obtain ⟨job, -, rfl⟩ := step_loadDone.1 hs
    split <;> exact fun j hj => h j (List.mem_of_mem_eraseIdx hj)

theorem LoadsFromSource.run {s s' : St} {es : List Event} (h : LoadsFromSource s) (hr : run s es = some s') :
    LoadsFromSource s' := by
  induction es generalizing s with
  | nil => cases hr; exact h
  | cons e es ih =>
    obtain ⟨s₁, h₁, hr⟩ := Option.bind_eq_some.1 hr
    exact ih (h.step h₁) hr

theorem loadsFromSource_init (source : List Nat) (disposition : String) :
    LoadsFromSource (.init source disposition) :=
  fun _ h => nomatch h

/-! ## 失われた行 -/

/-- 失われた行：`LastId` までの元の行なのに、BigQuery の表にも、出した load の仕事にもなく、順番待ちのどの仕事
の表の `LastId` もそれより小さくない。 -/
structure Lost (s : St) (id : Nat) : Prop where
  mem_source : id ∈ s.source
  le_lastId : s.lastId.any (id ≤ ·)
  not_warehouse : id ∉ s.warehouse
  not_loads : ∀ job ∈ s.loads, id ∉ job.rows
  tasks_le : ∀ t ∈ s.tasks, t.lastId.any (id ≤ ·)

theorem not_mem_bqLoad {job : LoadJob} {warehouse : List Nat} {id : Nat} (hj : id ∉ job.rows)
    (hw : id ∉ warehouse) : id ∉ bqLoad job warehouse := by
  unfold bqLoad
  split
  · exact hj
  · simp [hj, hw]

/-- 再 import の条件が `runImport` のときに成り立たない一歩は、失われた行を失われたままにする。 -/
theorem Lost.step {s s' : St} {e : Event} {id : Nat} (h : Lost s id) (he : e.keepsLastId = true)
    (hs : step s e = some s') : Lost s' id := by
  cases e with
  | insert i =>
    simp only [Import.step] at hs
    split at hs
    · cases hs
    · cases hs
      exact { h with mem_source := List.mem_append_left _ h.mem_source }
  | queue =>
    cases hs
    refine { h with tasks_le := fun t ht => ?_ }
    rcases List.mem_append.1 ht with ht | ht
    · exact h.tasks_le t ht
    · obtain rfl := List.mem_singleton.1 ht
      exact h.le_lastId
  | runImport i condJob condImport upload =>
    obtain rfl : condImport = false := by simpa [Event.keepsLastId] using he
    obtain ⟨t, ht, rfl⟩ := step_runImport.1 hs
    -- 仕事の表の `LastId` は失われた行より小さくないので、その行は読まない
    have hlast := h.tasks_le t (List.getElem?_mem ht)
    have htasks : ∀ u ∈ s.tasks.eraseIdx i, u.lastId.any (id ≤ ·) :=
      fun u hu => h.tasks_le u (List.mem_of_mem_eraseIdx hu)
    dsimp only [importRun]
    split
    · exact ⟨h.mem_source, hlast, h.not_warehouse, h.not_loads, htasks⟩
    · rename_i file hfile
      refine ⟨h.mem_source, any_le_readerLastId hlast fun y hy => (mem_selectRows.1 hy).2, h.not_warehouse,
        fun job hj => ?_, htasks⟩
      rcases List.mem_append.1 hj with hj | hj
      · exact h.not_loads job hj
      · obtain rfl := List.mem_singleton.1 hj
        exact fun hid => not_mem_selectRows hlast (file_subset hfile hid)
  | loadDone i ok =>
    obtain ⟨job, hjob, rfl⟩ := step_loadDone.1 hs
    have hnot : ∀ j ∈ s.loads.eraseIdx i, id ∉ j.rows := fun j hj => h.not_loads j (List.mem_of_mem_eraseIdx hj)
    split
    · exact ⟨h.mem_source, h.le_lastId, not_mem_bqLoad (h.not_loads job (List.getElem?_mem hjob))
        h.not_warehouse, hnot, h.tasks_le⟩
    · exact { h with not_loads := hnot }

theorem Lost.run {s s' : St} {es : List Event} {id : Nat} (h : Lost s id)
    (hes : ∀ e ∈ es, e.keepsLastId = true) (hr : run s es = some s') : Lost s' id := by
  induction es generalizing s with
  | nil => cases hr; exact h
  | cons e es ih =>
    obtain ⟨s₁, h₁, hr⟩ := Option.bind_eq_some.1 hr
    exact ih (h.step (hes e (List.mem_cons_self _ _)) h₁) (fun e he => hes e (List.mem_cons_of_mem _ he)) hr

/-- 失われた行は `LastId` までの元の行なのに BigQuery の表になく、import も load も進んでいなければ、
BigQuery の表は `LastId` までの元の行でない。 -/
theorem Lost.not_exact {s : St} {id : Nat} (h : Lost s id) :
    id ∈ imported s ∧ id ∉ s.warehouse ∧ (s.idle = true → ¬s.warehouse.Perm (imported s)) := by
  have himp : id ∈ imported s := List.mem_filter.2 ⟨h.mem_source, h.le_lastId⟩
  exact ⟨himp, h.not_warehouse, fun _ hp => h.not_warehouse (hp.mem_iff.2 himp)⟩

/-- 新しい表から届いた状態で load の仕事が誤りで終わると、その仕事の行のうち、BigQuery の表にも、ほかの出した
load の仕事にもなく、`LastId` と順番待ちのどの仕事の表の `LastId` もそれより小さくない行は、`runImport` の
ときに再 import の条件が成り立たないかぎり、後のどの状態でも `LastId` までの元の行なのに BigQuery の表にない。その
とき import も load も進んでいなければ、BigQuery の表は `LastId` までの元の行でない。 -/
theorem failed_load_loses_rows {source : List Nat} {disposition : String} {es₀ es : List Event}
    {s s₁ s' : St} {i : Nat} {job : LoadJob} {id : Nat} (h₀ : run (.init source disposition) es₀ = some s)
    (hjob : s.loads[i]? = some job) (hid : id ∈ job.rows) (hw : id ∉ s.warehouse)
    (hlast : s.lastId.any (id ≤ ·)) (hloads : ∀ j ∈ s.loads.eraseIdx i, id ∉ j.rows)
    (htasks : ∀ t ∈ s.tasks, t.lastId.any (id ≤ ·)) (h₁ : step s (.loadDone i false) = some s₁)
    (hes : ∀ e ∈ es, e.keepsLastId = true) (hr : run s₁ es = some s') :
    id ∈ imported s' ∧ id ∉ s'.warehouse ∧ (s'.idle = true → ¬s'.warehouse.Perm (imported s')) := by
  have hsrc := (loadsFromSource_init source disposition).run h₀ job (List.getElem?_mem hjob) id hid
  obtain ⟨_, -, rfl⟩ := step_loadDone.1 h₁
  refine (Lost.run ?_ hes hr).not_exact
  exact ⟨hsrc, hlast, hw, hloads, htasks⟩

/-- 二つの行を読み、load の仕事を出した表。 -/
def firstLoad : St :=
  { source := [1, 2], lastId := some 2, disposition := "WRITE_TRUNCATE", warehouse := [], tasks := [],
    loads := [⟨"WRITE_TRUNCATE", [1, 2]⟩] }

/-- その load の仕事が誤りで終わった表。 -/
def firstLoadFailed : St := { firstLoad with loads := [] }

theorem failed_load_loses_rows_first :
    run (.init [1, 2] "WRITE_TRUNCATE") [.queue, .runImport 0 false false .ok] = some firstLoad ∧
      firstLoad.loads[0]? = some ⟨"WRITE_TRUNCATE", [1, 2]⟩ ∧ 1 ∈ [1, 2] ∧ 1 ∉ firstLoad.warehouse ∧
      firstLoad.lastId.any (1 ≤ ·) ∧ (∀ j ∈ firstLoad.loads.eraseIdx 0, 1 ∉ j.rows) ∧
      (∀ t ∈ firstLoad.tasks, t.lastId.any (1 ≤ ·)) ∧
      step firstLoad (.loadDone 0 false) = some firstLoadFailed ∧
      (∀ e ∈ ([] : List Event), e.keepsLastId = true) ∧ run firstLoadFailed [] = some firstLoadFailed ∧
      (1 ∈ imported firstLoadFailed ∧ 1 ∉ firstLoadFailed.warehouse ∧
        (firstLoadFailed.idle = true → ¬firstLoadFailed.warehouse.Perm (imported firstLoadFailed))) :=
  ⟨by decide, rfl, by decide, by decide, rfl, by decide, by decide, by decide, List.forall_mem_nil _, rfl,
    @failed_load_loses_rows [1, 2] "WRITE_TRUNCATE" [.queue, .runImport 0 false false .ok] [] firstLoad
      firstLoadFailed firstLoadFailed 0 ⟨"WRITE_TRUNCATE", [1, 2]⟩ 1 (by decide) rfl (by decide) (by decide)
      rfl (by decide) (by decide) (by decide) (List.forall_mem_nil _) rfl⟩

theorem loadCleanup_ne_truncate (disposition : String) : loadCleanup disposition ≠ "WRITE_TRUNCATE" := by
  unfold loadCleanup
  split <;> simp_all

/-- 門の守られた誤りのない import の不変条件：`LastId` は元の表の行の id で、表の書き方が `WRITE_TRUNCATE` なら
BigQuery の表は空であり、進んでいる load が終われば BigQuery の表は `LastId` までの元の行になる。進んでいるのは、
今の表を持つ一つの仕事か、一つの load の仕事だけである。 -/
structure Exact (s : St) : Prop where
  lastId_mem : s.lastId.all (· ∈ s.source)
  truncate_empty : s.disposition = "WRITE_TRUNCATE" → s.warehouse = []
  perm : s.afterLoad.Perm (imported s)
  alone : s.tasks = [] ∧ s.loads.length ≤ 1 ∨ s.tasks = [⟨s.lastId, s.disposition⟩] ∧ s.loads = []

/-- 読み出しの後の `LastId` は、元の表の行の id か、前の値である。 -/
theorem readerLastId_mem {source : List Nat} {lastId : Option Nat} (h : lastId.all (· ∈ source)) :
    (readerLastId lastId (selectRows source lastId)).all (· ∈ source) := by
  rcases readerLastId_cases lastId (selectRows source lastId) with he | ⟨y, hy, he⟩
  · rwa [he]
  · simpa [he] using (mem_selectRows.1 hy).1

/-- `LastId` より大きい行が加わっても、`LastId` までの行は変わらない。 -/
theorem imported_insert {s : St} {id : Nat} (h : s.lastId.all (· ∈ s.source)) (hid : ∀ x ∈ s.source, x < id) :
    imported { s with source := s.source ++ [id] } = imported s := by
  have hp : s.lastId.any (id ≤ ·) = false := by
    cases hl : s.lastId with
    | none => rfl
    | some k =>
      simp only [hl, Option.all_some, decide_eq_true_eq] at h
      simp [Nat.not_le.2 (hid k h)]
  simp only [imported, List.filter_append, List.filter_singleton, hp, cond_false, List.append_nil]

theorem all_mem_append {o : Option Nat} {l l' : List Nat} (h : o.all (· ∈ l)) : o.all (· ∈ l ++ l') := by
  cases o with
  | none => rfl
  | some k => exact decide_eq_true (List.mem_append_left l' (of_decide_eq_true h))

/-- import の一歩：読む前の BigQuery の表と読んだ行の load の後で、BigQuery の表は元の表の行になる。 -/
theorem Exact.runImport {s : St} (h : Exact s) (hload : s.loads = []) (cond : Bool) :
    (bqLoad ⟨if cond then "WRITE_TRUNCATE" else s.disposition,
      selectRows s.source (if cond then none else s.lastId)⟩ s.warehouse).Perm s.source := by
  have hw : s.warehouse.Perm (imported s) := by simpa [St.afterLoad, hload] using h.perm
  cases cond with
  | true => simpa [bqLoad] using filter_append_selectRows_perm s.source none
  | false =>
    have hsel : (imported s ++ selectRows s.source s.lastId).Perm s.source :=
      filter_append_selectRows_perm s.source s.lastId
    simp only [bqLoad, Bool.false_eq_true, ↓reduceIte]
    split
    · rw [h.truncate_empty ‹_›] at hw
      rwa [List.perm_nil.1 hw.symm, List.nil_append] at hsel
    · exact (hw.append_right _).trans hsel

theorem Exact.step {s s' : St} {e : Event} (h : Exact s) (he : e.clean = true) (hq : e = .queue → s.idle = true)
    (hid : ∀ id, e = .insert id → ∀ x ∈ s.source, x < id) (hs : Import.step s e = some s') : Exact s' := by
  cases e with
  | insert i =>
    simp only [Import.step] at hs
    split at hs
    · cases hs
    · cases hs
      refine ⟨all_mem_append h.lastId_mem, h.truncate_empty, ?_, h.alone⟩
      rw [imported_insert h.lastId_mem (hid i rfl)]
      exact h.perm
  | queue =>
    cases hs
    obtain ⟨htasks, hloads⟩ : s.tasks = [] ∧ s.loads = [] := by simpa [St.idle] using hq rfl
    exact ⟨h.lastId_mem, h.truncate_empty, h.perm, .inr ⟨by simp [htasks], hloads⟩⟩
  | runImport i condJob condImport upload =>
    simp only [Event.clean, Bool.and_eq_true, beq_iff_eq, Bool.or_eq_true, bne_iff_ne, ne_eq,
      Bool.not_eq_true'] at he
    obtain ⟨⟨rfl, hloss⟩, hup⟩ := he
    obtain ⟨t, ht, rfl⟩ := step_runImport.1 hs
    -- 門が守られていれば、走るのは今の表を持つただ一つの仕事で、出した load の仕事はない
    obtain ⟨htasks, hloads⟩ : s.tasks = [⟨s.lastId, s.disposition⟩] ∧ s.loads = [] := by
      rcases h.alone with ⟨htasks, -⟩ | halone
      · simp [htasks] at ht
      · exact halone
    obtain ⟨⟨⟩, rfl⟩ := eq_singleton_of_getElem? (by simp [htasks]) (htasks ▸ ht)
    dsimp only [importRun]
    split
    · -- 書き込みが失敗し、`LastId` は変わらない
      rename_i hfile
      obtain rfl : condJob = false := hup.resolve_left (not_not.2 (file_eq_none.1 hfile))
      exact ⟨h.lastId_mem, h.truncate_empty, h.perm, .inl ⟨by simp [htasks], by simp [hloads]⟩⟩
    · -- 書き込みが通り、読んだ行をみな持つ load の仕事を出す
      rename_i file hfile
      obtain rfl := file_of_lossless hloss hfile
      refine ⟨?_, h.truncate_empty, ?_, .inl ⟨by simp [htasks], by simp [hloads]⟩⟩
      · cases condJob
        · exact readerLastId_mem h.lastId_mem
        · exact readerLastId_mem rfl
      · simp only [St.afterLoad, imported, hloads, List.nil_append, List.foldl_cons, List.foldl_nil]
        rw [filter_readerLastId]
        exact h.runImport hloads condJob
  | loadDone i ok =>
    obtain rfl : ok = true := he
    obtain ⟨job, hjob, rfl⟩ := step_loadDone.1 hs
    rw [if_pos rfl]
    -- 門が守られていれば、終わるのはただ一つの load の仕事で、順番待ちの仕事はない
    obtain ⟨htasks, hloads⟩ : s.tasks = [] ∧ s.loads.length ≤ 1 := by
      rcases h.alone with halone | ⟨-, hloads⟩
      · exact halone
      · simp [hloads] at hjob
    obtain ⟨hloads, rfl⟩ := eq_singleton_of_getElem? hloads hjob
    refine ⟨h.lastId_mem, fun hd => absurd hd (loadCleanup_ne_truncate _), ?_, .inl ⟨htasks, by simp [hloads]⟩⟩
    simpa [St.afterLoad, hloads, imported] using h.perm

/-- 元の表に行を加えるのは `insert` だけである。 -/
theorem source_step {s s' : St} {e : Event} (h : Import.step s e = some s') :
    s'.source = s.source ++ e.insertedId.toList := by
  cases e with
  | insert i =>
    simp only [Import.step] at h
    split at h <;> cases h
    rfl
  | queue => cases h; simp [Event.insertedId]
  | runImport i condJob condImport upload =>
    obtain ⟨t, -, rfl⟩ := step_runImport.1 h
    simp [Event.insertedId]
  | loadDone i ok =>
    obtain ⟨job, -, rfl⟩ := step_loadDone.1 h
    split <;> simp [Event.insertedId]

theorem Exact.run {s s' : St} {es : List Event} (h : Exact s)
    (hsorted : (s.source ++ es.filterMap Event.insertedId).Sorted (· < ·))
    (hes : ∀ e ∈ es, e.clean = true) (hgate : gated s es = true) (hr : Import.run s es = some s') : Exact s' := by
  induction es generalizing s with
  | nil => cases hr; exact h
  | cons e es ih =>
    obtain ⟨s₁, h₁, hr⟩ := Option.bind_eq_some.1 hr
    simp only [gated, Bool.and_eq_true, Bool.or_eq_true, bne_iff_ne, ne_eq, h₁, Option.all_some] at hgate
    have hid : ∀ id, e = .insert id → ∀ x ∈ s.source, x < id := by
      rintro id rfl x hx
      exact (List.pairwise_append.1 hsorted).2.2 x hx id (List.mem_cons_self _ _)
    have hsrc : s₁.source ++ es.filterMap Event.insertedId = s.source ++ (e :: es).filterMap Event.insertedId := by
      rw [source_step h₁, List.append_assoc]
      cases e <;> rfl
    exact ih (h.step (hes e (List.mem_cons_self _ _)) (fun he => hgate.1.resolve_left (not_not.2 he)) hid h₁)
      (hsrc ▸ hsorted) (fun e he => hes e (List.mem_cons_of_mem _ he)) hgate.2 hr

end Maestro.Import
