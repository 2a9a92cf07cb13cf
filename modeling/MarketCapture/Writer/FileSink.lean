import MarketCapture.Csv.Formatter
import Mathlib.Tactic

/-! # The buffered file sink

Records are collected in a buffer and written in full. What the operating system
answers to the calls on a descriptor is a script; a script that is over accepts
everything. The bytes of the file and of the buffer together are the content.
-/

namespace MarketCapture

def csvAggregationBufferBytes : Nat := 256 * 1024

inductive CsvFileKind where
  | marketData | orderBook
  deriving DecidableEq, Repr

def headerFor : CsvFileKind → Bytes
  | .marketData => marketDataCsvHeader
  | .orderBook => orderBookCsvHeader

inductive FileSinkErrorCode where
  | invalidRecord | writeFailed | closeFailed
  deriving DecidableEq, Repr

structure FileSinkError where
  code : FileSinkErrorCode
  nativeError : Int := 0
  deriving DecidableEq, Repr

/-- One answer of `write`: a count of bytes, an interruption, or a failure. -/
inductive WriteAnswer where
  | accepted (count : Nat)
  | interrupted
  | failed (native : Int)
  deriving DecidableEq, Repr

/-- The answers of the calls to come: writes, and closes with their error. -/
structure FileAnswers where
  writes : List WriteAnswer := []
  closes : List (Option Int) := []
  deriving DecidableEq, Repr

structure BufferedFileSinkMetrics where
  rowsWritten : Nat := 0
  bytesWritten : Nat := 0
  bufferFlushes : Nat := 0
  directLargeRecords : Nat := 0
  nativeWriteCalls : Nat := 0
  deriving DecidableEq, Repr

structure BufferedCsvFileSink where
  /-- The bytes delivered to the file. -/
  file : Bytes
  isOpen : Bool := true
  buffer : Bytes := []
  bufferedRows : Nat := 0
  firstError : Option FileSinkError := none
  metrics : BufferedFileSinkMetrics := {}
  deriving DecidableEq, Repr

def inputOutputError : Int := 5
def badDescriptorError : Int := 9

namespace BufferedCsvFileSink

def latchError (s : BufferedCsvFileSink) (code : FileSinkErrorCode) (native : Int) :
    Option FileSinkError × BufferedCsvFileSink :=
  match s.firstError with
  | some first => (some first, s)
  | none => (some ⟨code, native⟩, { s with firstError := some ⟨code, native⟩ })

/-- A native write call is counted. -/
def called (s : BufferedCsvFileSink) : BufferedCsvFileSink :=
  { s with metrics := { s.metrics with nativeWriteCalls := s.metrics.nativeWriteCalls + 1 } }

/-- Bytes the file took. -/
def delivered (s : BufferedCsvFileSink) (bytes : Bytes) : BufferedCsvFileSink :=
  { s with
    file := s.file ++ bytes
    metrics := { s.metrics with bytesWritten := s.metrics.bytesWritten + bytes.length } }

/-- `write_all` from an offset on. -/
def writeAll : List WriteAnswer → Bytes → BufferedCsvFileSink →
    (Option FileSinkError × BufferedCsvFileSink) × List WriteAnswer
  | script, [], s => ((none, s), script)
  | [], bytes, s => ((none, s.called.delivered bytes), [])
  | answer :: script, bytes, s =>
      match answer with
      | .interrupted => writeAll script bytes s.called
      | .failed native => (s.called.latchError .writeFailed native, script)
      | .accepted count =>
          if count = 0 then (s.called.latchError .writeFailed inputOutputError, script)
          else if count > bytes.length then
            (s.called.latchError .writeFailed inputOutputError, script)
          else writeAll script (bytes.drop count) (s.called.delivered (bytes.take count))

def flushBuffer (script : List WriteAnswer) (s : BufferedCsvFileSink) :
    (Option FileSinkError × BufferedCsvFileSink) × List WriteAnswer :=
  if s.buffer.length = 0 then ((none, s), script)
  else
    match writeAll script s.buffer s with
    | ((some error, s), script) => ((some error, s), script)
    | ((none, s), script) =>
        ((none, { s with
          buffer := []
          bufferedRows := 0
          metrics := { s.metrics with rowsWritten := s.metrics.rowsWritten + s.bufferedRows,
                                      bufferFlushes := s.metrics.bufferFlushes + 1 } }), script)

/-- A record larger than the buffer goes to the file directly. -/
def writeDirect (script : List WriteAnswer) (s : BufferedCsvFileSink) (record : Bytes) :
    (Option FileSinkError × BufferedCsvFileSink) × List WriteAnswer :=
  match flushBuffer script s with
  | ((some error, s), script) => ((some error, s), script)
  | ((none, s), script) =>
      match writeAll script record s with
      | ((some error, s), script) => ((some error, s), script)
      | ((none, s), script) =>
          ((none, { s with metrics := { s.metrics with
            rowsWritten := s.metrics.rowsWritten + 1
            directLargeRecords := s.metrics.directLargeRecords + 1 } }), script)

def buffered (s : BufferedCsvFileSink) (record : Bytes) : BufferedCsvFileSink :=
  { s with buffer := s.buffer ++ record, bufferedRows := s.bufferedRows + 1 }

def appendRecord (script : List WriteAnswer) (s : BufferedCsvFileSink) (record : Bytes) :
    (Option FileSinkError × BufferedCsvFileSink) × List WriteAnswer :=
  match s.firstError with
  | some first => ((some first, s), script)
  | none =>
      if !s.isOpen || record.isEmpty || decide (record.length > maxCsvRecordBytes) ||
          decide (record.getLast? ≠ some lineFeed) then
        (s.latchError .invalidRecord 0, script)
      else if record.length > csvAggregationBufferBytes then writeDirect script s record
      else if record.length > csvAggregationBufferBytes - s.buffer.length then
        match flushBuffer script s with
        | ((some error, s), script) => ((some error, s), script)
        | ((none, s), script) => ((none, s.buffered record), script)
      else ((none, s.buffered record), script)

def flush (script : List WriteAnswer) (s : BufferedCsvFileSink) :
    (Option FileSinkError × BufferedCsvFileSink) × List WriteAnswer :=
  match s.firstError with
  | some first => ((some first, s), script)
  | none =>
      if !s.isOpen then (s.latchError .writeFailed badDescriptorError, script)
      else flushBuffer script s

/-- `close`: the descriptor is given up whatever the calls answer. -/
def close (answers : FileAnswers) (s : BufferedCsvFileSink) :
    (Option FileSinkError × BufferedCsvFileSink) × FileAnswers :=
  if !s.isOpen then ((s.firstError, s), answers)
  else
    let (s, writes) :=
      match s.firstError with
      | some _ => (s, answers.writes)
      | none => ((flushBuffer answers.writes s).1.2, (flushBuffer answers.writes s).2)
    let s := { s with isOpen := false }
    let rest : FileAnswers := { writes := writes, closes := answers.closes.tail }
    match answers.closes.head?.join with
    | none => ((s.firstError, s), rest)
    | some native => (s.latchError .closeFailed native, rest)

/-! ## Content and counts -/

/-- The bytes of the file with those still in the buffer. -/
def content (s : BufferedCsvFileSink) : Bytes := s.file ++ s.buffer

/-- The records taken: written ones and those still in the buffer. -/
def rows (s : BufferedCsvFileSink) : Nat := s.metrics.rowsWritten + s.bufferedRows

/-- What an operation that failed keeps: no record is counted, and the error is latched. -/
structure Failed (s s' : BufferedCsvFileSink) : Prop where
  rows : s'.rows = s.rows
  latched : s'.firstError ≠ none

/-- What an operation did that succeeded and took the bytes of some records. -/
structure Took (count : Nat) (bytes : Bytes) (s s' : BufferedCsvFileSink) : Prop where
  content : s'.content = s.content ++ bytes
  rows : s'.rows = s.rows + count
  clean : s'.firstError = none

/-- Every buffered record has a byte in the buffer. -/
def Ok (s : BufferedCsvFileSink) : Prop := s.bufferedRows ≤ s.buffer.length

theorem latchError_some (s : BufferedCsvFileSink) (code : FileSinkErrorCode) (native : Int) :
    ∃ error, s.latchError code native = (some error, { s with firstError := some error }) := by
  cases s with
  | mk file isOpen buffer bufferedRows firstError metrics =>
      cases firstError with
      | none => exact ⟨_, rfl⟩
      | some first => exact ⟨first, rfl⟩

/-- Writing touches the file, the counters of calls and bytes, and the error only. -/
theorem writeAll_spec (script : List WriteAnswer) (bytes : Bytes) (s : BufferedCsvFileSink) :
    ∃ error s' rest, writeAll script bytes s = ((error, s'), rest) ∧
      s'.buffer = s.buffer ∧ s'.bufferedRows = s.bufferedRows ∧ s'.isOpen = s.isOpen ∧
      s'.metrics.rowsWritten = s.metrics.rowsWritten ∧
      (error = none → s'.file = s.file ++ bytes ∧ s'.firstError = s.firstError) ∧
      (error ≠ none → s'.firstError = error) := by
  induction script generalizing bytes s with
  | nil =>
      cases bytes with
      | nil => exact ⟨_, _, _, rfl, rfl, rfl, rfl, rfl, by simp, by simp⟩
      | cons _ _ => exact ⟨_, _, _, rfl, rfl, rfl, rfl, rfl, fun _ => ⟨rfl, rfl⟩, by simp⟩
  | cons answer script ih =>
      cases bytes with
      | nil => exact ⟨_, _, _, rfl, rfl, rfl, rfl, rfl, by simp, by simp⟩
      | cons b bs =>
          have latched : ∀ t : BufferedCsvFileSink, t.buffer = s.buffer →
              t.bufferedRows = s.bufferedRows → t.isOpen = s.isOpen →
              t.metrics.rowsWritten = s.metrics.rowsWritten → ∀ native,
              ∃ error s' rest, (t.latchError .writeFailed native, script) = ((error, s'), rest) ∧
                s'.buffer = s.buffer ∧ s'.bufferedRows = s.bufferedRows ∧ s'.isOpen = s.isOpen ∧
                s'.metrics.rowsWritten = s.metrics.rowsWritten ∧
                (error = none → s'.file = s.file ++ (b :: bs) ∧ s'.firstError = s.firstError) ∧
                (error ≠ none → s'.firstError = error) := by
            intro t h₁ h₂ h₃ h₄ native
            obtain ⟨error, heq⟩ := latchError_some t .writeFailed native
            exact ⟨some error, { t with firstError := some error }, script, by rw [heq], h₁, h₂, h₃,
              h₄, by simp, by simp⟩
          unfold writeAll
          cases answer with
          | interrupted => exact ih _ s.called
          | failed native => exact latched s.called rfl rfl rfl rfl native
          | accepted count =>
              simp only
              split
              · exact latched s.called rfl rfl rfl rfl _
              · split
                · exact latched s.called rfl rfl rfl rfl _
                · obtain ⟨error, s', rest, heq, h₁, h₂, h₃, h₄, h₅, h₆⟩ :=
                    ih ((b :: bs).drop count) (s.called.delivered ((b :: bs).take count))
                  refine ⟨error, s', rest, heq, h₁, h₂, h₃, h₄, fun hnone => ?_, h₆⟩
                  obtain ⟨hfile, hfirst⟩ := h₅ hnone
                  refine ⟨?_, hfirst⟩
                  rw [hfile, delivered, List.append_assoc, List.take_append_drop]
                  rfl

/-- An operation either took these records or failed. -/
def Outcome (count : Nat) (bytes : Bytes) (s : BufferedCsvFileSink)
    (r : (Option FileSinkError × BufferedCsvFileSink)) : Prop :=
  r.2.isOpen = s.isOpen ∧ r.2.Ok ∧
    ((r.1 = none ∧ Took count bytes s r.2) ∨ (r.1 ≠ none ∧ r.1 = r.2.firstError ∧ Failed s r.2))

theorem flushBuffer_outcome {s : BufferedCsvFileSink} (hok : s.Ok) (hclean : s.firstError = none)
    (script : List WriteAnswer) :
    Outcome 0 [] s (flushBuffer script s).1 ∧
      ((flushBuffer script s).1.1 = none → (flushBuffer script s).1.2.buffer = []) := by
  unfold flushBuffer
  split
  · rename_i hempty
    refine ⟨⟨rfl, hok, .inl ⟨rfl, by simp, rfl, hclean⟩⟩, fun _ => List.length_eq_zero_iff.mp hempty⟩
  · obtain ⟨error, s', rest, heq, hbuffer, hrows, hopen, hwritten, hdone, hfailed⟩ :=
      writeAll_spec script s.buffer s
    rw [heq]
    cases error with
    | some error =>
        refine ⟨⟨hopen, ?_, .inr ⟨by simp, (hfailed (by simp)).symm, ?_⟩⟩, by simp⟩
        · rw [Ok, hrows, hbuffer]
          exact hok
        · exact ⟨by rw [rows, hwritten, hrows]; rfl, by simp [hfailed]⟩
    | none =>
        obtain ⟨hfile, hfirst⟩ := hdone rfl
        refine ⟨⟨hopen, Nat.le_refl 0, .inl ⟨rfl, ?_, ?_, hfirst.trans hclean⟩⟩, fun _ => rfl⟩
        · simp [content, hfile]
        · simp [rows, hwritten, hrows]

theorem Took.buffered {count : Nat} {bytes : Bytes} {s s' : BufferedCsvFileSink}
    (h : Took count bytes s s') (record : Bytes) :
    Took (count + 1) (bytes ++ record) s (s'.buffered record) := by
  refine ⟨?_, ?_, h.clean⟩
  · have hcontent := h.content
    simp only [BufferedCsvFileSink.content] at hcontent
    simp only [BufferedCsvFileSink.content, BufferedCsvFileSink.buffered, ← List.append_assoc,
      hcontent]
  · have hrows := h.rows
    simp only [BufferedCsvFileSink.rows] at hrows
    simp only [BufferedCsvFileSink.rows, BufferedCsvFileSink.buffered]
    omega

theorem Ok.buffered {s : BufferedCsvFileSink} (h : s.Ok) {record : Bytes} (hne : record ≠ []) :
    (s.buffered record).Ok := by
  have hpos := List.length_pos_iff.mpr hne
  simp only [Ok, BufferedCsvFileSink.buffered, List.length_append] at h ⊢
  omega

theorem writeDirect_outcome {s : BufferedCsvFileSink} (hok : s.Ok) (hclean : s.firstError = none)
    (script : List WriteAnswer) (record : Bytes) :
    Outcome 1 record s (writeDirect script s record).1 := by
  obtain ⟨⟨hopen, hok₁, houtcome⟩, hempty⟩ := flushBuffer_outcome hok hclean script
  unfold writeDirect
  generalize hflush : flushBuffer script s = flushed at *
  obtain ⟨⟨error, s₁⟩, rest⟩ := flushed
  simp only at hopen hok₁ houtcome hempty
  rcases houtcome with ⟨rfl, htook⟩ | ⟨hne, hlatched, hfailed⟩
  · obtain ⟨error, s₂, rest', heq, hbuffer, hrows, hopen₂, hwritten, hdone, hfailed⟩ :=
      writeAll_spec rest record s₁
    simp only [heq]
    have htook_rows := htook.rows
    cases error with
    | some error =>
        refine ⟨hopen₂.trans hopen, ?_, .inr ⟨by simp, (hfailed (by simp)).symm, ?_, ?_⟩⟩
        · rw [Ok, hrows, hbuffer]
          exact hok₁
        · simp only [rows] at htook_rows ⊢
          omega
        · simp [hfailed]
    | none =>
        obtain ⟨hfile, hfirst⟩ := hdone rfl
        refine ⟨hopen₂.trans hopen, ?_, .inl ⟨rfl, ?_, ?_, ?_⟩⟩
        · simp only [Ok, hrows, hbuffer]
          exact hok₁
        · have hcontent := htook.content
          simp only [content, hempty rfl, List.append_nil] at hcontent
          simp only [content, hfile, hbuffer, hempty rfl, List.append_nil, hcontent]
        · simp only [rows] at htook_rows ⊢
          omega
        · exact hfirst.trans htook.clean
  · cases error with
    | none => exact absurd rfl hne
    | some error => exact ⟨hopen, hok₁, .inr ⟨hne, hlatched, hfailed⟩⟩

/-- A record is taken in full, or the sink fails and counts nothing. -/
theorem appendRecord_outcome {s : BufferedCsvFileSink} (hok : s.Ok) (script : List WriteAnswer)
    (record : Bytes) : Outcome 1 record s (appendRecord script s record).1 := by
  unfold appendRecord
  cases hclean : s.firstError with
  | some first => exact ⟨rfl, hok, .inr ⟨by simp, hclean.symm, rfl, by simp [hclean]⟩⟩
  | none =>
      have hself : Took 0 [] s s := ⟨by simp, rfl, hclean⟩
      simp only
      split
      · obtain ⟨error, heq⟩ := latchError_some s .invalidRecord 0
        rw [heq]
        exact ⟨rfl, hok, .inr ⟨by simp, rfl, rfl, by simp⟩⟩
      · rename_i hvalid
        have hne : record ≠ [] := by
          rintro rfl
          simp at hvalid
        split
        · exact writeDirect_outcome hok hclean script record
        · split
          · obtain ⟨⟨hopen, hok₁, houtcome⟩, -⟩ := flushBuffer_outcome hok hclean script
            generalize flushBuffer script s = flushed at *
            obtain ⟨⟨error, s₁⟩, rest⟩ := flushed
            simp only at hopen hok₁ houtcome
            rcases houtcome with ⟨rfl, htook⟩ | ⟨hne', hlatched, hfailed⟩
            · exact ⟨hopen, hok₁.buffered hne, .inl ⟨rfl, htook.buffered record⟩⟩
            · cases error with
              | none => exact absurd rfl hne'
              | some error => exact ⟨hopen, hok₁, .inr ⟨hne', hlatched, hfailed⟩⟩
          · exact ⟨rfl, hok.buffered hne, .inl ⟨rfl, hself.buffered record⟩⟩

theorem flush_outcome {s : BufferedCsvFileSink} (hok : s.Ok) (script : List WriteAnswer) :
    Outcome 0 [] s (flush script s).1 := by
  unfold flush
  cases hclean : s.firstError with
  | some first => exact ⟨rfl, hok, .inr ⟨by simp, hclean.symm, rfl, by simp [hclean]⟩⟩
  | none =>
      simp only
      split
      · obtain ⟨error, heq⟩ := latchError_some s .writeFailed badDescriptorError
        rw [heq]
        exact ⟨rfl, hok, .inr ⟨by simp, rfl, rfl, by simp⟩⟩
      · exact (flushBuffer_outcome hok hclean script).1

/-- Closing an open sink without an error leaves nothing in the buffer. -/
theorem close_outcome {s : BufferedCsvFileSink} (hok : s.Ok) (hopen : s.isOpen = true)
    (answers : FileAnswers) :
    ((close answers s).1.1 = none ∧ Took 0 [] s (close answers s).1.2 ∧
        (close answers s).1.2.buffer = [] ∧ (close answers s).1.2.bufferedRows = 0) ∨
      ((close answers s).1.1 ≠ none ∧ (close answers s).1.1 = (close answers s).1.2.firstError ∧
        Failed s (close answers s).1.2) := by
  -- what the close call adds to the sink it finds after the flush
  have finish : ∀ (t : BufferedCsvFileSink) (rest : FileAnswers), t.rows = s.rows →
      (t.firstError = none → Took 0 [] s t ∧ t.buffer = [] ∧ t.bufferedRows = 0) →
      ∀ r, (match answers.closes.head?.join with
        | none => ((t.firstError, t), rest)
        | some native => (t.latchError .closeFailed native, rest)) = r →
      (r.1.1 = none ∧ Took 0 [] s r.1.2 ∧ r.1.2.buffer = [] ∧ r.1.2.bufferedRows = 0) ∨
        (r.1.1 ≠ none ∧ r.1.1 = r.1.2.firstError ∧ Failed s r.1.2) := by
    intro t rest hrows hclean r hr
    subst hr
    cases answers.closes.head?.join with
    | none =>
        cases hfirst : t.firstError with
        | none => exact .inl ⟨rfl, hclean hfirst⟩
        | some first => exact .inr ⟨by simp, rfl, hrows, by simp [hfirst]⟩
    | some native =>
        obtain ⟨error, heq⟩ := latchError_some t .closeFailed native
        refine .inr ⟨by simp [heq], by simp [heq], ?_, by simp [heq]⟩
        simp only [heq]
        exact hrows
  cases hfirst : s.firstError with
  | some first =>
      refine finish { s with isOpen := false } ⟨answers.writes, answers.closes.tail⟩ rfl ?_ _ ?_
      · simp [hfirst]
      · simp [close, hopen, hfirst]
  | none =>
      obtain ⟨⟨-, hok₁, houtcome⟩, hempty⟩ := flushBuffer_outcome hok hfirst answers.writes
      refine finish { (flushBuffer answers.writes s).1.2 with isOpen := false }
        ⟨(flushBuffer answers.writes s).2, answers.closes.tail⟩ ?_ ?_ _ ?_
      · rcases houtcome with ⟨-, htook⟩ | ⟨-, -, hfailed⟩
        · exact htook.rows
        · exact hfailed.rows
      · intro hnone
        rcases houtcome with ⟨herror, htook⟩ | ⟨-, -, hfailed⟩
        · have hbuffer := hempty herror
          refine ⟨⟨htook.content, htook.rows, htook.clean⟩, hbuffer, ?_⟩
          rw [Ok, hbuffer] at hok₁
          exact Nat.le_zero.mp hok₁
        · exact absurd hnone hfailed.latched
      · simp [close, hopen, hfirst]

end BufferedCsvFileSink

end MarketCapture
