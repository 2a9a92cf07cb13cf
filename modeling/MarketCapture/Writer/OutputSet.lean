import MarketCapture.Processor.EventProcessor
import MarketCapture.Writer.FileSink

/-! # The output set

The files of every target. A batch goes to the audit file and then to the
order-book file of its target; the first error is kept and ends the writing.
-/

namespace MarketCapture

inductive CsvOutputMode where
  | liveCapture | replay
  deriving DecidableEq, Repr

inductive OutputSetWriteErrorCode where
  | invalidTarget | invalidBatch | closed | fileFailure
  deriving DecidableEq, Repr

structure OutputSetWriteError where
  code : OutputSetWriteErrorCode
  targetIndex : Option Nat := none
  fileKind : CsvFileKind := .marketData
  fileError : Option FileSinkError := none
  deriving DecidableEq, Repr

/-- The files of one target; only live capture has an audit file. -/
structure TargetFiles where
  audit : Option BufferedCsvFileSink
  orderBook : BufferedCsvFileSink
  deriving DecidableEq, Repr

structure CsvOutputSetMetrics where
  auditRowsWritten : Nat := 0
  orderBookRowsWritten : Nat := 0
  auditRowsBuffered : Nat := 0
  orderBookRowsBuffered : Nat := 0
  deriving DecidableEq, Repr

structure CsvOutputSet where
  mode : CsvOutputMode
  targets : List TargetFiles
  closed : Bool := false
  firstError : Option OutputSetWriteError := none
  deriving DecidableEq, Repr

namespace TargetFiles

/-- Files that hold their headers. -/
def opened (mode : CsvOutputMode) : TargetFiles :=
  { audit := if mode = .liveCapture then some { file := marketDataCsvHeader } else none
    orderBook := { file := orderBookCsvHeader } }

def appendAudit (script : List WriteAnswer) (t : TargetFiles) (batch : EventRowBatch) :
    (Option FileSinkError × TargetFiles) × List WriteAnswer :=
  match t.audit with
  | some sink =>
      if batch.hasAuditRow then
        let r := sink.appendRecord script batch.auditRow
        ((r.1.1, { t with audit := some r.1.2 }), r.2)
      else ((none, t), script)
  | none => ((none, t), script)

def appendOrderBook (script : List WriteAnswer) (t : TargetFiles) (batch : EventRowBatch) :
    (Option FileSinkError × TargetFiles) × List WriteAnswer :=
  if batch.hasOrderBookRow then
    let r := t.orderBook.appendRecord script batch.orderBookRow
    ((r.1.1, { t with orderBook := r.1.2 }), r.2)
  else ((none, t), script)

def fileFailure (index : Nat) (kind : CsvFileKind) (error : FileSinkError) : OutputSetWriteError :=
  { code := .fileFailure, targetIndex := some index, fileKind := kind, fileError := some error }

/-- The rows of a batch, the audit row first. -/
def append (script : List WriteAnswer) (index : Nat) (t : TargetFiles) (batch : EventRowBatch) :
    (Option OutputSetWriteError × TargetFiles) × List WriteAnswer :=
  match t.appendAudit script batch with
  | ((some error, t), script) => ((some (fileFailure index .marketData error), t), script)
  | ((none, t), script) =>
      match t.appendOrderBook script batch with
      | ((some error, t), script) => ((some (fileFailure index .orderBook error), t), script)
      | ((none, t), script) => ((none, t), script)

/-- Keep the first error of a loop over files. -/
def firstOf (first : Option OutputSetWriteError) (index : Nat) (kind : CsvFileKind)
    (error : Option FileSinkError) : Option OutputSetWriteError :=
  match first, error with
  | some first, _ => some first
  | none, none => none
  | none, some error => some (fileFailure index kind error)

/-- The body of the loops of `flush_all` and `close_all`: an operation on both files. -/
def both (operation : FileAnswers → BufferedCsvFileSink →
      (Option FileSinkError × BufferedCsvFileSink) × FileAnswers)
    (answers : FileAnswers) (index : Nat) (first : Option OutputSetWriteError) (t : TargetFiles) :
    (Option OutputSetWriteError × TargetFiles) × FileAnswers :=
  let (first, audit, answers) :=
    match t.audit with
    | none => (first, none, answers)
    | some sink =>
        let r := operation answers sink
        (firstOf first index .marketData r.1.1, some r.1.2, r.2)
  let r := operation answers t.orderBook
  ((firstOf first index .orderBook r.1.1, { audit := audit, orderBook := r.1.2 }), r.2)

end TargetFiles

namespace CsvOutputSet

def opened (mode : CsvOutputMode) (targetCount : Nat) : CsvOutputSet :=
  { mode := mode, targets := List.replicate targetCount (.opened mode) }

def latchError (set : CsvOutputSet) (error : OutputSetWriteError) :
    Option OutputSetWriteError × CsvOutputSet :=
  match set.firstError with
  | some first => (some first, set)
  | none => (some error, { set with firstError := some error })

def validBatchContract (mode : CsvOutputMode) (batch : EventRowBatch) : Bool :=
  if batch.hasAuditRow = batch.auditRow.isEmpty ∨
      batch.hasOrderBookRow = batch.orderBookRow.isEmpty then false
  else if mode = .liveCapture then !batch.hasOrderBookRow || batch.hasAuditRow
  else !batch.hasAuditRow

/-- `write_batch`; a target that was never set is beyond every target. -/
def writeBatch (answers : FileAnswers) (set : CsvOutputSet) (targetIndex : Option Nat)
    (batch : EventRowBatch) : Option OutputSetWriteError × CsvOutputSet :=
  match set.firstError with
  | some first => (some first, set)
  | none =>
      if set.closed then set.latchError { code := .closed, targetIndex := targetIndex }
      else
        match targetIndex.bind fun index => (set.targets[index]?).map fun t => (index, t) with
        | none => set.latchError { code := .invalidTarget, targetIndex := targetIndex }
        | some (index, target) =>
            if !validBatchContract set.mode batch then
              set.latchError { code := .invalidBatch, targetIndex := some index }
            else
              let r := target.append answers.writes index batch
              let set := { set with targets := set.targets.set index r.1.2 }
              match r.1.1 with
              | none => (none, set)
              | some error => set.latchError error

/-- A loop over all targets that keeps the first error. -/
def overTargets (operation : FileAnswers → BufferedCsvFileSink →
      (Option FileSinkError × BufferedCsvFileSink) × FileAnswers) :
    FileAnswers → Nat → Option OutputSetWriteError → List TargetFiles →
      Option OutputSetWriteError × List TargetFiles
  | _, _, first, [] => (first, [])
  | answers, index, first, t :: ts =>
      let r := t.both operation answers index first
      let rest := overTargets operation r.2 (index + 1) r.1.1 ts
      (rest.1, r.1.2 :: rest.2)

def flushSink (answers : FileAnswers) (sink : BufferedCsvFileSink) :
    (Option FileSinkError × BufferedCsvFileSink) × FileAnswers :=
  let r := sink.flush answers.writes
  (r.1, { answers with writes := r.2 })

def flushAll (answers : FileAnswers) (set : CsvOutputSet) :
    Option OutputSetWriteError × CsvOutputSet :=
  if set.closed then set.latchError { code := .closed }
  else
    let r := overTargets flushSink answers 0 set.firstError set.targets
    (r.1, { set with targets := r.2, firstError := r.1 })

def closeSink (answers : FileAnswers) (sink : BufferedCsvFileSink) :
    (Option FileSinkError × BufferedCsvFileSink) × FileAnswers := sink.close answers

def closeAll (answers : FileAnswers) (set : CsvOutputSet) :
    Option OutputSetWriteError × CsvOutputSet :=
  if set.closed then (set.firstError, set)
  else
    let r := overTargets closeSink answers 0 set.firstError set.targets
    (r.1, { set with targets := r.2, firstError := r.1, closed := true })

def metrics (set : CsvOutputSet) : CsvOutputSetMetrics :=
  let audits := set.targets.filterMap TargetFiles.audit
  { auditRowsWritten := (audits.map fun s => s.metrics.rowsWritten).sum
    orderBookRowsWritten := (set.targets.map fun t => t.orderBook.metrics.rowsWritten).sum
    auditRowsBuffered := (audits.map fun s => s.bufferedRows).sum
    orderBookRowsBuffered := (set.targets.map fun t => t.orderBook.bufferedRows).sum }

end CsvOutputSet

/-! ## Content and counts -/

def EventRowBatch.auditCount (batch : EventRowBatch) : Nat := if batch.hasAuditRow then 1 else 0

def EventRowBatch.orderBookCount (batch : EventRowBatch) : Nat :=
  if batch.hasOrderBookRow then 1 else 0

namespace TargetFiles

/-- The bytes in the files of a target. -/
def auditFile (t : TargetFiles) : Bytes := (t.audit.map BufferedCsvFileSink.file).getD []
def orderBookFile (t : TargetFiles) : Bytes := t.orderBook.file

/-- The bytes in the files of a target with those still in the buffers. -/
def auditContent (t : TargetFiles) : Bytes := (t.audit.map BufferedCsvFileSink.content).getD []
def orderBookContent (t : TargetFiles) : Bytes := t.orderBook.content
def auditRows (t : TargetFiles) : Nat := (t.audit.map BufferedCsvFileSink.rows).getD 0
def orderBookRows (t : TargetFiles) : Nat := t.orderBook.rows

/-- Open files, with an audit file in live capture. -/
structure Ready (mode : CsvOutputMode) (t : TargetFiles) : Prop where
  audit : ∀ sink, t.audit = some sink → sink.Ok ∧ sink.isOpen = true
  orderBook : t.orderBook.Ok ∧ t.orderBook.isOpen = true
  live : mode = .liveCapture → t.audit ≠ none

/-- The files took the rows of a batch. -/
structure Grew (batch : EventRowBatch) (t t' : TargetFiles) : Prop where
  auditContent : t'.auditContent = t.auditContent ++ batch.auditBytes
  orderBookContent : t'.orderBookContent = t.orderBookContent ++ batch.orderBookBytes
  auditRows : t'.auditRows = t.auditRows + batch.auditCount
  orderBookRows : t'.orderBookRows = t.orderBookRows + batch.orderBookCount

/-- The files took at most the rows of a batch. -/
structure Bounded (batch : EventRowBatch) (t t' : TargetFiles) : Prop where
  auditRows : t'.auditRows ≤ t.auditRows + batch.auditCount
  orderBookRows : t'.orderBookRows ≤ t.orderBookRows + batch.orderBookCount

theorem Grew.bounded {batch : EventRowBatch} {t t' : TargetFiles} (h : Grew batch t t') :
    Bounded batch t t' := ⟨h.auditRows.le, h.orderBookRows.le⟩

theorem opened_ready (mode : CsvOutputMode) : (opened mode).Ready mode := by
  refine ⟨?_, ⟨Nat.le_refl 0, rfl⟩, ?_⟩
  · intro sink hsink
    simp only [opened] at hsink
    split at hsink
    · obtain rfl := Option.some.inj hsink
      exact ⟨Nat.le_refl 0, rfl⟩
    · cases hsink
  · rintro rfl
    simp [opened]

theorem appendAudit_outcome {mode : CsvOutputMode} {t : TargetFiles} (h : t.Ready mode)
    {batch : EventRowBatch} (hbatch : batch.hasAuditRow = true → t.audit ≠ none)
    (script : List WriteAnswer) :
    ∃ t', (t.appendAudit script batch).1.2 = t' ∧ t'.Ready mode ∧ t'.orderBook = t.orderBook ∧
      t'.auditRows ≤ t.auditRows + batch.auditCount ∧
      ((t.appendAudit script batch).1.1 = none →
        t'.auditContent = t.auditContent ++ batch.auditBytes ∧
        t'.auditRows = t.auditRows + batch.auditCount) := by
  unfold appendAudit
  cases haudit : t.audit with
  | none =>
      have hno : batch.hasAuditRow = false := by
        by_contra hyes
        exact hbatch (by simpa using hyes) haudit
      refine ⟨t, rfl, h, rfl, by simp [EventRowBatch.auditCount, hno], fun _ => ?_⟩
      simp [EventRowBatch.auditCount, EventRowBatch.auditBytes, hno]
  | some sink =>
      simp only
      split
      · rename_i hyes
        obtain ⟨hopen, hok, houtcome⟩ :=
          BufferedCsvFileSink.appendRecord_outcome (h.audit sink haudit).1 script batch.auditRow
        refine ⟨_, rfl, ⟨?_, h.orderBook, by simp⟩, rfl, ?_, ?_⟩
        · intro sink' hsink'
          obtain rfl := Option.some.inj hsink'
          exact ⟨hok, hopen.trans (h.audit sink haudit).2⟩
        · rcases houtcome with ⟨-, htook⟩ | ⟨-, -, hfailed⟩
          · simp [auditRows, haudit, htook.rows, EventRowBatch.auditCount, hyes]
          · simp [auditRows, haudit, hfailed.rows]
        · intro hnone
          rcases houtcome with ⟨-, htook⟩ | ⟨hne, -, -⟩
          · simp [auditRows, auditContent, haudit, htook.rows, htook.content,
              EventRowBatch.auditCount, EventRowBatch.auditBytes, hyes]
          · exact absurd hnone hne
      · rename_i hno
        refine ⟨t, rfl, h, rfl, by simp [EventRowBatch.auditCount, hno], fun _ => ?_⟩
        simp [EventRowBatch.auditCount, EventRowBatch.auditBytes, hno]

theorem appendOrderBook_outcome {mode : CsvOutputMode} {t : TargetFiles} (h : t.Ready mode)
    (batch : EventRowBatch) (script : List WriteAnswer) :
    ∃ t', (t.appendOrderBook script batch).1.2 = t' ∧ t'.Ready mode ∧ t'.audit = t.audit ∧
      t'.orderBookRows ≤ t.orderBookRows + batch.orderBookCount ∧
      ((t.appendOrderBook script batch).1.1 = none →
        t'.orderBookContent = t.orderBookContent ++ batch.orderBookBytes ∧
        t'.orderBookRows = t.orderBookRows + batch.orderBookCount) := by
  unfold appendOrderBook
  split
  · rename_i hyes
    obtain ⟨hopen, hok, houtcome⟩ :=
      BufferedCsvFileSink.appendRecord_outcome h.orderBook.1 script batch.orderBookRow
    refine ⟨_, rfl, ⟨h.audit, ⟨hok, hopen.trans h.orderBook.2⟩, h.live⟩, rfl, ?_, ?_⟩
    · rcases houtcome with ⟨-, htook⟩ | ⟨-, -, hfailed⟩
      · simp [orderBookRows, htook.rows, EventRowBatch.orderBookCount, hyes]
      · simp [orderBookRows, hfailed.rows]
    · intro hnone
      rcases houtcome with ⟨-, htook⟩ | ⟨hne, -, -⟩
      · simp [orderBookRows, orderBookContent, htook.rows, htook.content,
          EventRowBatch.orderBookCount, EventRowBatch.orderBookBytes, hyes]
      · exact absurd hnone hne
  · rename_i hno
    refine ⟨t, rfl, h, rfl, by simp [EventRowBatch.orderBookCount, hno], fun _ => ?_⟩
    simp [EventRowBatch.orderBookCount, EventRowBatch.orderBookBytes, hno]

/-- The files take a batch in full, or fail and take at most its rows. -/
theorem append_outcome {mode : CsvOutputMode} {t : TargetFiles} (h : t.Ready mode)
    {batch : EventRowBatch} (hbatch : batch.hasAuditRow = true → t.audit ≠ none)
    (script : List WriteAnswer) (index : Nat) :
    (t.append script index batch).1.2.Ready mode ∧
      Bounded batch t (t.append script index batch).1.2 ∧
      ((t.append script index batch).1.1 = none → Grew batch t (t.append script index batch).1.2) := by
  obtain ⟨t₁, hr₁, hready₁, hbook₁, hbound₁, hdone₁⟩ := appendAudit_outcome h hbatch script
  unfold append
  generalize t.appendAudit script batch = audited at *
  obtain ⟨⟨error₁, t₁'⟩, rest⟩ := audited
  simp only at hr₁ hdone₁
  subst hr₁
  have hrows₁ : t₁'.orderBookRows = t.orderBookRows := congrArg BufferedCsvFileSink.rows hbook₁
  have hcontent₁ : t₁'.orderBookContent = t.orderBookContent :=
    congrArg BufferedCsvFileSink.content hbook₁
  cases error₁ with
  | some error => exact ⟨hready₁, ⟨hbound₁, by rw [hrows₁]; omega⟩, by simp⟩
  | none =>
      obtain ⟨t₂, hr₂, hready₂, haudit₂, hbound₂, hdone₂⟩ :=
        appendOrderBook_outcome hready₁ batch rest
      simp only
      generalize t₁'.appendOrderBook rest batch = booked at *
      obtain ⟨⟨error₂, t₂'⟩, rest₂⟩ := booked
      simp only at hr₂ hdone₂
      subst hr₂
      have hrows₂ : t₂'.auditRows = t₁'.auditRows := by rw [auditRows, auditRows, haudit₂]
      have hcontent₂ : t₂'.auditContent = t₁'.auditContent := by
        rw [auditContent, auditContent, haudit₂]
      cases error₂ with
      | some error =>
          exact ⟨hready₂, ⟨by rw [hrows₂]; exact hbound₁, by rw [← hrows₁]; exact hbound₂⟩,
            by simp⟩
      | none =>
          have hgrew : Grew batch t t₂' := by
            obtain ⟨hc₁, hn₁⟩ := hdone₁ rfl
            obtain ⟨hc₂, hn₂⟩ := hdone₂ rfl
            exact ⟨hcontent₂.trans hc₁, hc₂.trans (by rw [hcontent₁]), hrows₂.trans hn₁,
              hn₂.trans (by rw [hrows₁])⟩
          exact ⟨hready₂, hgrew.bounded, fun _ => hgrew⟩

end TargetFiles

namespace TargetFiles

/-- Files with the same content. -/
structure Same (t t' : TargetFiles) : Prop where
  auditContent : t'.auditContent = t.auditContent
  orderBookContent : t'.orderBookContent = t.orderBookContent

/-- Files with as many rows. -/
structure SameRows (t t' : TargetFiles) : Prop where
  auditRows : t'.auditRows = t.auditRows
  orderBookRows : t'.orderBookRows = t.orderBookRows

/-- A property of each file of a target. -/
structure All (P : BufferedCsvFileSink → Prop) (t : TargetFiles) : Prop where
  audit : ∀ sink, t.audit = some sink → P sink
  orderBook : P t.orderBook

/-- Without buffered bytes the files hold their content. -/
theorem All.files {t : TargetFiles}
    (h : All (fun sink => sink.buffer = [] ∧ sink.bufferedRows = 0) t) :
    t.auditFile = t.auditContent ∧ t.orderBookFile = t.orderBookContent := by
  constructor
  · cases haudit : t.audit with
    | none => simp [auditFile, auditContent, haudit]
    | some sink =>
        simp [auditFile, auditContent, haudit, BufferedCsvFileSink.content, (h.audit sink haudit).1]
  · simp [orderBookFile, orderBookContent, BufferedCsvFileSink.content, h.orderBook.1]

/-- What the loops of `flush_all` and `close_all` need of the operation on one file: it
counts no rows and `P` holds after it, and without an error it keeps the content and `Q`
holds. -/
def Passes (P Q : BufferedCsvFileSink → Prop) (operation : FileAnswers → BufferedCsvFileSink →
    (Option FileSinkError × BufferedCsvFileSink) × FileAnswers) : Prop :=
  ∀ answers sink, sink.Ok → sink.isOpen = true →
    (operation answers sink).1.2.rows = sink.rows ∧ P (operation answers sink).1.2 ∧
    ((operation answers sink).1.1 = none →
      (operation answers sink).1.2.content = sink.content ∧ Q (operation answers sink).1.2)

theorem firstOf_none {first : Option OutputSetWriteError} {index : Nat} {kind : CsvFileKind}
    {error : Option FileSinkError} (h : firstOf first index kind error = none) :
    first = none ∧ error = none := by
  cases first <;> cases error <;> simp_all [firstOf]

@[simp]
theorem firstOf_some (first : OutputSetWriteError) (index : Nat) (kind : CsvFileKind)
    (error : Option FileSinkError) : firstOf (some first) index kind error = some first := by
  cases error <;> rfl

/-- What one round of the loops does to the files of a target. -/
structure Round (P Q : BufferedCsvFileSink → Prop) (t : TargetFiles)
    (first : Option OutputSetWriteError) (r : Option OutputSetWriteError × TargetFiles) : Prop where
  rows : SameRows t r.2
  presence : t.audit ≠ none → r.2.audit ≠ none
  all : All P r.2
  done : r.1 = none → first = none ∧ Same t r.2 ∧ All Q r.2
  first : ∀ e, first = some e → r.1 = some e

theorem both_round {P Q : BufferedCsvFileSink → Prop} {operation : FileAnswers →
      BufferedCsvFileSink → (Option FileSinkError × BufferedCsvFileSink) × FileAnswers}
    (hop : Passes P Q operation) {mode : CsvOutputMode} {t : TargetFiles} (h : t.Ready mode)
    (answers : FileAnswers) (index : Nat) (first : Option OutputSetWriteError) :
    Round P Q t first (t.both operation answers index first).1 := by
  unfold both
  cases haudit : t.audit with
  | none =>
      obtain ⟨hrows, hp, hdone⟩ := hop answers t.orderBook h.orderBook.1 h.orderBook.2
      refine ⟨⟨by simp [auditRows, haudit], hrows⟩, by simp [haudit], ⟨by simp, hp⟩, ?_, ?_⟩
      · intro hnone
        obtain ⟨hfirst, herror⟩ := firstOf_none hnone
        obtain ⟨hcontent, hq⟩ := hdone herror
        exact ⟨hfirst, ⟨by simp [auditContent, haudit], hcontent⟩, ⟨by simp, hq⟩⟩
      · rintro e rfl
        simp only [firstOf_some]
  | some sink =>
      obtain ⟨hok, hopen⟩ := h.audit sink haudit
      obtain ⟨hrowsA, hpA, hdoneA⟩ := hop answers sink hok hopen
      obtain ⟨hrowsB, hpB, hdoneB⟩ :=
        hop (operation answers sink).2 t.orderBook h.orderBook.1 h.orderBook.2
      refine ⟨⟨by simp [auditRows, haudit, hrowsA], hrowsB⟩, by simp, ⟨?_, hpB⟩, ?_, ?_⟩
      · intro sink' hsink'
        obtain rfl := Option.some.inj hsink'
        exact hpA
      · intro hnone
        obtain ⟨hfirst, herrorB⟩ := firstOf_none hnone
        obtain ⟨hfirst, herrorA⟩ := firstOf_none hfirst
        obtain ⟨hcontentA, hqA⟩ := hdoneA herrorA
        obtain ⟨hcontentB, hqB⟩ := hdoneB herrorB
        refine ⟨hfirst, ⟨by simp [auditContent, haudit, hcontentA], hcontentB⟩, ⟨?_, hqB⟩⟩
        intro sink' hsink'
        obtain rfl := Option.some.inj hsink'
        exact hqA
      · rintro e rfl
        simp only [firstOf_some]

end TargetFiles

namespace CsvOutputSet

open TargetFiles

/-- The rows taken by all audit files, and by all order-book files. -/
def auditTotal (set : CsvOutputSet) : Nat := (set.targets.map TargetFiles.auditRows).sum
def orderBookTotal (set : CsvOutputSet) : Nat := (set.targets.map TargetFiles.orderBookRows).sum

structure Ready (set : CsvOutputSet) : Prop where
  isOpen : set.closed = false
  targets : ∀ t ∈ set.targets, t.Ready set.mode

theorem opened_ready (mode : CsvOutputMode) (targetCount : Nat) :
    (opened mode targetCount).Ready := by
  refine ⟨rfl, ?_⟩
  intro t ht
  obtain ⟨-, rfl⟩ := List.mem_replicate.mp ht
  exact TargetFiles.opened_ready mode

/-! ### Writing a batch -/

@[simp]
theorem latchError_error (set : CsvOutputSet) (error : OutputSetWriteError) :
    (set.latchError error).1 = (set.latchError error).2.firstError := by
  cases hfirst : set.firstError <;> simp [latchError, hfirst]

theorem latchError_ne_none (set : CsvOutputSet) (error : OutputSetWriteError) :
    (set.latchError error).1 ≠ none := by
  cases hfirst : set.firstError <;> simp [latchError, hfirst]

theorem latchError_set (set : CsvOutputSet) (error : OutputSetWriteError) :
    (set.latchError error).2 = { set with firstError := (set.latchError error).1 } := by
  cases set with
  | mk mode targets closed firstError => cases firstError <;> rfl

/-- What `write_batch` does to the files: what a failed one takes is bounded, and one that
succeeds took the rows of the batch in its target. -/
structure Wrote (set : CsvOutputSet) (targetIndex : Option Nat) (batch : EventRowBatch)
    (r : Option OutputSetWriteError × CsvOutputSet) : Prop where
  ready : r.2.Ready
  mode : r.2.mode = set.mode
  length : r.2.targets.length = set.targets.length
  error : r.1 = r.2.firstError
  first : ∀ e, set.firstError = some e → r.1 = some e
  auditTotal : r.2.auditTotal ≤ set.auditTotal + batch.auditCount
  orderBookTotal : r.2.orderBookTotal ≤ set.orderBookTotal + batch.orderBookCount
  done : r.1 = none → ∃ index t t', targetIndex = some index ∧ set.targets[index]? = some t ∧
    r.2.targets = set.targets.set index t' ∧ Grew batch t t'

theorem sum_map_set {α : Type} (f : α → Nat) {xs : List α} {i : Nat} {a : α} (h : xs[i]? = some a)
    (b : α) : ((xs.set i b).map f).sum + f a = (xs.map f).sum + f b := by
  induction xs generalizing i with
  | nil => simp at h
  | cons x xs ih =>
      cases i with
      | zero =>
          obtain rfl : x = a := by simpa using h
          simp only [List.set_cons_zero, List.map_cons, List.sum_cons]
          omega
      | succ i =>
          have := ih (i := i) (by simpa using h)
          simp only [List.set_cons_succ, List.map_cons, List.sum_cons]
          omega

theorem Ready.latched {set : CsvOutputSet} (h : set.Ready) (error : OutputSetWriteError)
    (targetIndex : Option Nat) (batch : EventRowBatch) (hclean : set.firstError = none) :
    Wrote set targetIndex batch (set.latchError error) := by
  have hset := latchError_set set error
  refine ⟨?_, ?_, ?_, latchError_error set error, ?_, ?_, ?_, ?_⟩
  · rw [hset]
    exact ⟨h.isOpen, h.targets⟩
  · rw [hset]
  · rw [hset]
  · simp [hclean]
  · rw [hset]
    exact Nat.le_add_right _ _
  · rw [hset]
    exact Nat.le_add_right _ _
  · intro hnone
    exact absurd hnone (latchError_ne_none set error)

theorem hasAudit_of_valid {mode : CsvOutputMode} {batch : EventRowBatch} {t : TargetFiles}
    (hready : t.Ready mode) (h : validBatchContract mode batch = true)
    (haudit : batch.hasAuditRow = true) : t.audit ≠ none := by
  cases mode with
  | liveCapture => exact hready.live rfl
  | replay => simp [validBatchContract, haudit] at h

theorem writeBatch_wrote {set : CsvOutputSet} (h : set.Ready) (answers : FileAnswers)
    (targetIndex : Option Nat) (batch : EventRowBatch) :
    Wrote set targetIndex batch (set.writeBatch answers targetIndex batch) := by
  unfold writeBatch
  cases hclean : set.firstError with
  | some first =>
      exact ⟨h, rfl, rfl, hclean.symm, fun _ he => hclean.symm.trans he, Nat.le_add_right _ _,
        Nat.le_add_right _ _, by simp⟩
  | none =>
      simp only [h.isOpen, Bool.false_eq_true, ↓reduceIte]
      split
      · exact h.latched _ _ _ hclean
      · rename_i index target htarget
        obtain ⟨index', rfl, hget⟩ := Option.bind_eq_some_iff.mp htarget
        obtain ⟨target', hget', heq⟩ := Option.map_eq_some_iff.mp hget
        obtain ⟨rfl, rfl⟩ := Prod.mk.inj heq
        split
        · exact h.latched _ _ _ hclean
        · rename_i hvalid
          have htready := h.targets target' (List.mem_of_getElem? hget')
          obtain ⟨hready, hbounded, hgrew⟩ := append_outcome htready
            (hasAudit_of_valid htready (by simpa using hvalid)) answers.writes index'
          generalize target'.append answers.writes index' batch = r at hready hbounded hgrew ⊢
          obtain ⟨⟨error, t'⟩, rest⟩ := r
          simp only at hready hbounded hgrew ⊢
          generalize hnext : (CsvOutputSet.mk set.mode (set.targets.set index' t') false none) = next
          have hready' : next.Ready := by
            subst hnext
            refine ⟨rfl, fun t ht => ?_⟩
            rcases List.mem_or_eq_of_mem_set ht with hmem | rfl
            · exact h.targets t hmem
            · exact hready
          have htotals : next.auditTotal ≤ set.auditTotal + batch.auditCount ∧
              next.orderBookTotal ≤ set.orderBookTotal + batch.orderBookCount := by
            subst hnext
            have haudit := sum_map_set TargetFiles.auditRows hget' t'
            have hbook := sum_map_set TargetFiles.orderBookRows hget' t'
            have hauditRows := hbounded.auditRows
            have hbookRows := hbounded.orderBookRows
            simp only [CsvOutputSet.auditTotal, CsvOutputSet.orderBookTotal]
            omega
          have hlength : next.targets.length = set.targets.length := by
            subst hnext
            exact List.length_set
          have hmode : next.mode = set.mode := by rw [← hnext]
          cases error with
          | none =>
              refine ⟨hready', hmode, hlength, ?_, by simp [hclean], htotals.1, htotals.2, fun _ => ?_⟩
              · rw [← hnext]
              · exact ⟨index', target', t', rfl, hget', by rw [← hnext], hgrew rfl⟩
          | some error =>
              have hlatched := latchError_set next error
              refine ⟨?_, ?_, ?_, latchError_error _ _, by simp [hclean], ?_, ?_, ?_⟩
              · rw [hlatched]
                exact ⟨hready'.isOpen, hready'.targets⟩
              · rw [hlatched]
                exact hmode
              · rw [hlatched]
                exact hlength
              · rw [hlatched]
                exact htotals.1
              · rw [hlatched]
                exact htotals.2
              · exact fun hnone => absurd hnone (latchError_ne_none _ _)

/-! ### Flushing and closing all files -/

theorem overTargets_rounds {P Q : BufferedCsvFileSink → Prop} {operation : FileAnswers →
      BufferedCsvFileSink → (Option FileSinkError × BufferedCsvFileSink) × FileAnswers}
    (hop : Passes P Q operation) {mode : CsvOutputMode} (targets : List TargetFiles)
    (h : ∀ t ∈ targets, t.Ready mode) (answers : FileAnswers) (index : Nat)
    (first : Option OutputSetWriteError) :
    List.Forall₂ (fun t t' => SameRows t t' ∧ (t.audit ≠ none → t'.audit ≠ none) ∧ All P t')
      targets (overTargets operation answers index first targets).2 ∧
    ((overTargets operation answers index first targets).1 = none → first = none ∧
      List.Forall₂ (fun t t' => Same t t' ∧ All Q t') targets
        (overTargets operation answers index first targets).2) ∧
    (∀ e, first = some e → (overTargets operation answers index first targets).1 = some e) := by
  induction targets generalizing answers index first with
  | nil => exact ⟨.nil, fun hnone => ⟨hnone, .nil⟩, fun _ he => he⟩
  | cons t ts ih =>
      have hround := both_round hop (h t (by simp)) answers index first
      obtain ⟨hrows, hdone, hfirst⟩ := ih (fun t' ht' => h t' (by simp [ht']))
        (t.both operation answers index first).2 (index + 1)
        (t.both operation answers index first).1.1
      refine ⟨.cons ⟨hround.rows, hround.presence, hround.all⟩ hrows, fun hnone => ?_,
        fun e he => hfirst e (hround.first e he)⟩
      obtain ⟨hnone', hrest⟩ := hdone hnone
      obtain ⟨hnone'', hsame⟩ := hround.done hnone'
      exact ⟨hnone'', .cons hsame hrest⟩

theorem flushSink_passes :
    Passes (fun sink => sink.Ok ∧ sink.isOpen = true) (fun _ => True) flushSink := by
  intro answers sink hok hopen
  obtain ⟨hopen', hok', houtcome⟩ := BufferedCsvFileSink.flush_outcome hok answers.writes
  have hkept := And.intro hok' (hopen'.trans hopen)
  rcases houtcome with ⟨-, htook⟩ | ⟨hne, -, hfailed⟩
  · refine ⟨htook.rows, hkept, fun _ => ⟨?_, trivial⟩⟩
    rw [← List.append_nil sink.content]
    exact htook.content
  · exact ⟨hfailed.rows, hkept, fun hnone => absurd hnone hne⟩

theorem closeSink_passes :
    Passes (fun _ => True) (fun sink => sink.buffer = [] ∧ sink.bufferedRows = 0) closeSink := by
  intro answers sink hok hopen
  rcases BufferedCsvFileSink.close_outcome hok hopen answers with
    ⟨-, htook, hbuffer, hrows⟩ | ⟨hne, -, hfailed⟩
  · refine ⟨htook.rows, trivial, fun _ => ⟨?_, hbuffer, hrows⟩⟩
    rw [← List.append_nil sink.content]
    exact htook.content
  · exact ⟨hfailed.rows, trivial, fun hnone => absurd hnone hne⟩

/-- What `flush_all` and `close_all` do to the files of every target. -/
structure Passed (Q : BufferedCsvFileSink → Prop) (set : CsvOutputSet)
    (r : Option OutputSetWriteError × CsvOutputSet) : Prop where
  mode : r.2.mode = set.mode
  length : r.2.targets.length = set.targets.length
  error : r.1 = r.2.firstError
  first : ∀ e, set.firstError = some e → r.1 = some e
  auditTotal : r.2.auditTotal = set.auditTotal
  orderBookTotal : r.2.orderBookTotal = set.orderBookTotal
  done : r.1 = none → List.Forall₂ (fun t t' => Same t t' ∧ All Q t') set.targets r.2.targets

theorem map_eq_of_forall₂ {α β : Type} {R : α → α → Prop} (f : α → β)
    (hf : ∀ a b, R a b → f b = f a) {xs ys : List α} (h : List.Forall₂ R xs ys) :
    ys.map f = xs.map f := by
  induction h with
  | nil => rfl
  | cons hab _ ih => rw [List.map_cons, List.map_cons, hf _ _ hab, ih]

theorem exists_getElem?_of_forall₂ {α : Type} {R : α → α → Prop} {xs ys : List α}
    (h : List.Forall₂ R xs ys) {i : Nat} {b : α} (hb : ys[i]? = some b) :
    ∃ a, xs[i]? = some a ∧ R a b := by
  induction h generalizing i with
  | nil => simp at hb
  | cons hab _ ih =>
      cases i with
      | zero =>
          obtain rfl : _ = b := by simpa using hb
          exact ⟨_, rfl, hab⟩
      | succ i => exact ih (by simpa using hb)

theorem flushAll_passed {set : CsvOutputSet} (h : set.Ready) (answers : FileAnswers) :
    (set.flushAll answers).2.Ready ∧ Passed (fun _ => True) set (set.flushAll answers) := by
  obtain ⟨hrows, hdone, hfirst⟩ :=
    overTargets_rounds flushSink_passes set.targets h.targets answers 0 set.firstError
  simp only [flushAll, h.isOpen, Bool.false_eq_true, ↓reduceIte]
  refine ⟨⟨rfl, ?_⟩,
    ⟨rfl, hrows.length_eq.symm, rfl, hfirst, ?_, ?_, fun hnone => (hdone hnone).2⟩⟩
  · intro t' ht'
    obtain ⟨i, hi⟩ := List.mem_iff_getElem?.mp ht'
    obtain ⟨t, ht, -, hpresence, hall⟩ := exists_getElem?_of_forall₂ hrows hi
    have hready := h.targets t (List.mem_of_getElem? ht)
    exact ⟨hall.audit, hall.orderBook, fun hlive => hpresence (hready.live hlive)⟩
  · exact congrArg List.sum (map_eq_of_forall₂ _ (fun _ _ hab => hab.1.auditRows) hrows)
  · exact congrArg List.sum (map_eq_of_forall₂ _ (fun _ _ hab => hab.1.orderBookRows) hrows)

theorem closeAll_passed {set : CsvOutputSet} (h : set.Ready) (answers : FileAnswers) :
    Passed (fun sink => sink.buffer = [] ∧ sink.bufferedRows = 0) set (set.closeAll answers) := by
  obtain ⟨hrows, hdone, hfirst⟩ :=
    overTargets_rounds closeSink_passes set.targets h.targets answers 0 set.firstError
  simp only [closeAll, h.isOpen, Bool.false_eq_true, ↓reduceIte]
  refine ⟨rfl, hrows.length_eq.symm, rfl, hfirst, ?_, ?_, fun hnone => (hdone hnone).2⟩
  · exact congrArg List.sum (map_eq_of_forall₂ _ (fun _ _ hab => hab.1.auditRows) hrows)
  · exact congrArg List.sum (map_eq_of_forall₂ _ (fun _ _ hab => hab.1.orderBookRows) hrows)

/-! ### Rows in the files -/

private theorem sum_filterMap_audit (f : BufferedCsvFileSink → Nat) (targets : List TargetFiles) :
    ((targets.filterMap TargetFiles.audit).map f).sum =
      (targets.map fun t => (t.audit.map f).getD 0).sum := by
  induction targets with
  | nil => rfl
  | cons t ts ih => cases haudit : t.audit <;> simp [haudit, ih]

/-- No file has more rows written than it took. -/
theorem metrics_le (set : CsvOutputSet) :
    set.metrics.auditRowsWritten ≤ set.auditTotal ∧
      set.metrics.orderBookRowsWritten ≤ set.orderBookTotal := by
  simp only [metrics, auditTotal, orderBookTotal, sum_filterMap_audit]
  constructor
  · apply List.sum_le_sum
    intro t _
    cases haudit : t.audit with
    | none => simp
    | some sink => simp [auditRows, haudit, BufferedCsvFileSink.rows]
  · apply List.sum_le_sum
    intro t _
    exact Nat.le_add_right _ _

/-- With nothing buffered every row taken is written. -/
theorem metrics_eq {set : CsvOutputSet}
    (h : ∀ t ∈ set.targets, All (fun sink => sink.buffer = [] ∧ sink.bufferedRows = 0) t) :
    set.metrics.auditRowsWritten = set.auditTotal ∧
      set.metrics.orderBookRowsWritten = set.orderBookTotal := by
  simp only [metrics, auditTotal, orderBookTotal, sum_filterMap_audit]
  constructor
  · congr 1
    apply List.map_congr_left
    intro t ht
    cases haudit : t.audit with
    | none => simp [auditRows, haudit]
    | some sink => simp [auditRows, haudit, BufferedCsvFileSink.rows, ((h t ht).audit sink haudit).2]
  · congr 1
    apply List.map_congr_left
    intro t ht
    simp [orderBookRows, BufferedCsvFileSink.rows, (h t ht).orderBook.2]

end CsvOutputSet

end MarketCapture
