import MarketCapture.Lib.Transition
import MarketCapture.Writer.FileSink

/-! # Runs of one file sink

Any calls on one opened sink, with any answers of the operating system. What the
file holds is a prefix of the header and the accepted records; only a record larger
than the buffer, which is written directly, can leave a part of itself behind when
its own append fails. The counters stay true after a half-delivered buffer, since
the buffer and its row count are kept until the whole of it is written.
-/

namespace MarketCapture

open Transition

/-- A call on a sink and what it returned. -/
inductive SinkLabel where
  | appended (record : Bytes) (result : Option FileSinkError)
  | flushed (result : Option FileSinkError)
  | closed (result : Option FileSinkError)
  deriving DecidableEq, Repr

namespace SinkLabel

def result : SinkLabel → Option FileSinkError
  | .appended _ result => result
  | .flushed result => result
  | .closed result => result

/-- The record of an append that returned no error. -/
def record? : SinkLabel → Option Bytes
  | .appended record none => some record
  | _ => none

/-- The accepted records, in order. -/
def accepted (labels : List SinkLabel) : List Bytes := labels.filterMap record?

/-- A record that is written directly and whose append did not succeed. -/
def large : SinkLabel → Bytes
  | .appended record (some _) => if csvAggregationBufferBytes < record.length then record else []
  | _ => []

/-- The record of the first call that failed, if it was one that is written directly. -/
def torn (labels : List SinkLabel) : Bytes :=
  ((labels.find? fun l => l.result.isSome).map large).getD []

end SinkLabel

namespace BufferedCsvFileSink

open SinkLabel

/-- A sink as `open_exclusive` returns it, its header written, and the calls on it. -/
def runs (kind : CsvFileKind) : System BufferedCsvFileSink SinkLabel where
  init s := ∃ script rest, writeAll script (headerFor kind) { file := [] } = ((none, s), rest)
  step s label s' :=
    match label with
    | .appended record result =>
        ∃ script rest, appendRecord script s record = ((result, s'), rest)
    | .flushed result => ∃ script rest, flush script s = ((result, s'), rest)
    | .closed result => ∃ answers rest, close answers s = ((result, s'), rest)

/-! ## What one write delivers -/

/-- A write appends a prefix of its bytes and counts them; all of them if it succeeds. -/
theorem writeAll_delivers (script : List WriteAnswer) (bytes : Bytes) (s : BufferedCsvFileSink) :
    ∃ taken, taken <+: bytes ∧ (writeAll script bytes s).1.2.file = s.file ++ taken ∧
      (writeAll script bytes s).1.2.metrics.bytesWritten =
        s.metrics.bytesWritten + taken.length ∧
      ((writeAll script bytes s).1.1 = none → taken = bytes) := by
  induction script generalizing bytes s with
  | nil =>
      cases bytes with
      | nil => exact ⟨[], List.prefix_refl _, by simp [writeAll], by simp [writeAll], fun _ => rfl⟩
      | cons b bs => exact ⟨b :: bs, List.prefix_refl _, rfl, rfl, fun _ => rfl⟩
  | cons answer script ih =>
      cases bytes with
      | nil => exact ⟨[], List.prefix_refl _, by simp [writeAll], by simp [writeAll], fun _ => rfl⟩
      | cons b bs =>
          have hlatched : ∀ native, ∃ taken, taken <+: b :: bs ∧
              (s.called.latchError .writeFailed native).2.file = s.file ++ taken ∧
              (s.called.latchError .writeFailed native).2.metrics.bytesWritten =
                s.metrics.bytesWritten + taken.length ∧
              ((s.called.latchError .writeFailed native).1 = none → taken = b :: bs) := by
            intro native
            obtain ⟨error, heq⟩ := latchError_some s.called .writeFailed native
            rw [heq]
            exact ⟨[], List.nil_prefix, by simp [called], by simp [called], by simp⟩
          unfold writeAll
          cases answer with
          | interrupted => exact ih _ s.called
          | failed native => exact hlatched native
          | accepted count =>
              simp only
              split
              · exact hlatched _
              · split
                · exact hlatched _
                · obtain ⟨taken, ⟨left, hleft⟩, hfile, hbytes, hall⟩ :=
                    ih ((b :: bs).drop count) (s.called.delivered ((b :: bs).take count))
                  refine ⟨(b :: bs).take count ++ taken, ⟨left, ?_⟩, ?_, ?_, fun hnone => ?_⟩
                  · rw [List.append_assoc, hleft, List.take_append_drop]
                  · rw [hfile, delivered, List.append_assoc]
                    rfl
                  · rw [hbytes, delivered, List.length_append, ← Nat.add_assoc]
                    rfl
                  · rw [hall hnone, List.take_append_drop]

/-! ## The file against the accepted records -/

/-- The file and the buffer of a sink that took these records. -/
structure Holds (header : Bytes) (records : List Bytes) (torn : Bytes) (s : BufferedCsvFileSink) :
    Prop where
  ok : s.Ok
  rows : s.metrics.rowsWritten + s.bufferedRows = records.length
  buffer : s.buffer = (records.drop s.metrics.rowsWritten).flatten
  written : header ++ (records.take s.metrics.rowsWritten).flatten <+: s.file
  clean : s.firstError = none → s.file = header ++ (records.take s.metrics.rowsWritten).flatten
  within : s.file <+: header ++ records.flatten ++ torn
  bytes : s.metrics.bytesWritten = s.file.length
  depth : s.buffer.length ≤ csvAggregationBufferBytes

namespace Holds

variable {header torn : Bytes} {records : List Bytes} {s : BufferedCsvFileSink}

theorem flatten_split (h : Holds header records torn s) :
    records.flatten = (records.take s.metrics.rowsWritten).flatten ++ s.buffer := by
  rw [h.buffer, ← List.flatten_append, List.take_append_drop]

/-- While no call failed the file ends before any record that is only begun. -/
theorem retorn (h : Holds header records torn s) (hclean : s.firstError = none) (torn' : Bytes) :
    Holds header records torn' s := by
  refine { h with within := ?_ }
  rw [h.clean hclean, h.flatten_split, ← List.append_assoc, List.append_assoc]
  exact List.prefix_append _ _

/-- A latched error changes no byte. -/
theorem latched (h : Holds header records torn s) (error : FileSinkError) :
    Holds header records torn { s with firstError := some error } :=
  { ok := h.ok, rows := h.rows, buffer := h.buffer, written := h.written, clean := by simp,
    within := h.within, bytes := h.bytes, depth := h.depth }

theorem buffered (h : Holds header records torn s) (hclean : s.firstError = none) {record : Bytes}
    (hne : record ≠ []) (hroom : record.length ≤ csvAggregationBufferBytes - s.buffer.length) :
    Holds header (records ++ [record]) torn (s.buffered record) := by
  have hle : s.metrics.rowsWritten ≤ records.length := by
    have := h.rows
    omega
  have hdepth := h.depth
  refine { ok := h.ok.buffered hne, rows := ?_, buffer := ?_, written := ?_, clean := fun _ => ?_,
           within := ?_, bytes := h.bytes, depth := ?_ }
  · rw [List.length_append, ← h.rows]
    rfl
  · simp only [BufferedCsvFileSink.buffered]
    rw [List.drop_append_of_le_length hle, List.flatten_append, ← h.buffer]
    simp
  · simp only [BufferedCsvFileSink.buffered]
    rw [List.take_append_of_le_length hle]
    exact h.written
  · simp only [BufferedCsvFileSink.buffered]
    rw [List.take_append_of_le_length hle]
    exact h.clean hclean
  · simp only [BufferedCsvFileSink.buffered]
    rw [h.clean hclean, List.flatten_append, h.flatten_split]
    simp only [List.append_assoc]
    rw [← List.append_assoc header]
    exact List.prefix_append _ _
  · simp only [BufferedCsvFileSink.buffered, List.length_append]
    omega

/-- A write that failed: the file has a part of the buffer, or of a record after it. -/
theorem begun (h : Holds header records torn s) (hclean : s.firstError = none)
    {s' : BufferedCsvFileSink} {taken : Bytes} (hbuffer : s'.buffer = s.buffer)
    (hrows : s'.bufferedRows = s.bufferedRows)
    (hwritten : s'.metrics.rowsWritten = s.metrics.rowsWritten)
    (hfile : s'.file = s.file ++ taken)
    (hbytes : s'.metrics.bytesWritten = s.metrics.bytesWritten + taken.length)
    (htaken : taken <+: s.buffer ++ torn) (herror : s'.firstError ≠ none) :
    Holds header records torn s' := by
  refine { ok := ?_, rows := ?_, buffer := ?_, written := ?_, clean := fun h => absurd h herror,
           within := ?_, bytes := ?_, depth := ?_ }
  · rw [Ok, hrows, hbuffer]
    exact h.ok
  · rw [hwritten, hrows]
    exact h.rows
  · rw [hbuffer, hwritten]
    exact h.buffer
  · rw [hwritten, hfile]
    exact h.written.trans (List.prefix_append _ _)
  · rw [hfile, h.clean hclean, h.flatten_split]
    simp only [List.append_assoc]
    exact (List.prefix_append_right_inj _).mpr ((List.prefix_append_right_inj _).mpr htaken)
  · rw [hbytes, hfile, h.bytes, List.length_append]
  · rw [hbuffer]
    exact h.depth

/-- A sink with nothing left to write. -/
theorem whole {s' : BufferedCsvFileSink} (hbuffer : s'.buffer = []) (hrows : s'.bufferedRows = 0)
    (hall : s'.metrics.rowsWritten = records.length) (hfile : s'.file = header ++ records.flatten)
    (hbytes : s'.metrics.bytesWritten = s'.file.length) : Holds header records torn s' := by
  have htake : header ++ (records.take s'.metrics.rowsWritten).flatten = s'.file := by
    rw [hall, List.take_length, hfile]
  refine { ok := ?_, rows := ?_, buffer := ?_, written := ?_, clean := fun _ => htake.symm,
           within := ?_, bytes := hbytes, depth := ?_ }
  · rw [Ok, hrows]
    exact Nat.zero_le _
  · rw [hall, hrows]
    rfl
  · rw [hbuffer, hall, List.drop_length]
    rfl
  · rw [htake]
  · rw [hfile]
    exact List.prefix_append _ _
  · rw [hbuffer]
    exact Nat.zero_le _

/-- With an empty buffer every record is in the file. -/
theorem written_all (h : Holds header records torn s) (hclean : s.firstError = none)
    (hrows : s.bufferedRows = 0) :
    s.metrics.rowsWritten = records.length ∧ s.file = header ++ records.flatten := by
  have hall : s.metrics.rowsWritten = records.length := by
    have := h.rows
    omega
  refine ⟨hall, ?_⟩
  rw [h.clean hclean, hall, List.take_length]

end Holds

/-! ## Every call -/

theorem flushBuffer_holds {header torn : Bytes} {records : List Bytes} {s : BufferedCsvFileSink}
    (h : Holds header records torn s) (hclean : s.firstError = none) (script : List WriteAnswer) :
    Holds header records torn (flushBuffer script s).1.2 ∧
      (flushBuffer script s).1.1 = (flushBuffer script s).1.2.firstError ∧
      ((flushBuffer script s).1.1 = none →
        (flushBuffer script s).1.2.buffer = [] ∧ (flushBuffer script s).1.2.bufferedRows = 0) := by
  unfold flushBuffer
  split
  · rename_i hempty
    have hbuffer := List.length_eq_zero_iff.mp hempty
    refine ⟨h, hclean.symm, fun _ => ⟨hbuffer, ?_⟩⟩
    have hok := h.ok
    rw [Ok, hempty] at hok
    exact Nat.le_zero.mp hok
  · obtain ⟨taken, htaken, hfile, hbytes, hall⟩ := writeAll_delivers script s.buffer s
    obtain ⟨error, s', rest, heq, hbuffer, hrows, -, hwritten, hdone, hfailed⟩ :=
      writeAll_spec script s.buffer s
    rw [heq] at hfile hbytes hall
    rw [heq]
    cases error with
    | some error =>
        have hlatched : s'.firstError = some error := hfailed (by simp)
        refine ⟨?_, hlatched.symm, by simp⟩
        exact h.begun hclean hbuffer hrows hwritten hfile hbytes
          (htaken.trans (List.prefix_append _ _)) (by simp [hlatched])
    | none =>
        obtain rfl := hall rfl
        refine ⟨?_, ((hdone rfl).2.trans hclean).symm, fun _ => ⟨rfl, rfl⟩⟩
        refine Holds.whole rfl rfl ?_ ?_ ?_
        · rw [← h.rows, ← hwritten, ← hrows]
        · rw [hfile, h.clean hclean, h.flatten_split, List.append_assoc]
        · rw [hbytes, hfile, h.bytes, List.length_append]

/-- A record that is written directly: taken whole, or begun. -/
theorem writeDirect_holds {header torn : Bytes} {records : List Bytes} {s : BufferedCsvFileSink}
    (h : Holds header records torn s) (hclean : s.firstError = none) (script : List WriteAnswer)
    (record : Bytes) :
    (writeDirect script s record).1.1 = (writeDirect script s record).1.2.firstError ∧
      ((writeDirect script s record).1.1 = none →
        Holds header (records ++ [record]) torn (writeDirect script s record).1.2) ∧
      ((writeDirect script s record).1.1 ≠ none →
        Holds header records record (writeDirect script s record).1.2) := by
  obtain ⟨hflushed, hanswer, hempty⟩ := flushBuffer_holds (h.retorn hclean record) hclean script
  unfold writeDirect
  generalize flushBuffer script s = flushed at hflushed hanswer hempty
  obtain ⟨⟨error, s₁⟩, rest⟩ := flushed
  cases error with
  | some error => exact ⟨hanswer, by simp, fun _ => hflushed⟩
  | none =>
      obtain ⟨hbuffer₁, hrows₁⟩ := hempty rfl
      have hclean₁ : s₁.firstError = none := hanswer.symm
      obtain ⟨hall₁, hfile₁⟩ := hflushed.written_all hclean₁ hrows₁
      obtain ⟨taken, htaken, hfile, hbytes, hall⟩ := writeAll_delivers rest record s₁
      obtain ⟨error, s₂, rest', heq, hbuffer, hrows, -, hwritten, hdone, hfailed⟩ :=
        writeAll_spec rest record s₁
      rw [heq] at hfile hbytes hall
      simp only [heq]
      cases error with
      | some error =>
          have hlatched : s₂.firstError = some error := hfailed (by simp)
          refine ⟨hlatched.symm, by simp, fun _ => ?_⟩
          refine hflushed.begun hclean₁ hbuffer hrows hwritten hfile hbytes ?_ (by simp [hlatched])
          rw [hbuffer₁]
          exact htaken
      | none =>
          obtain rfl := hall rfl
          refine ⟨((hdone rfl).2.trans hclean₁).symm, fun _ => ?_, by simp⟩
          refine Holds.whole (hbuffer.trans hbuffer₁) (hrows.trans hrows₁) ?_ ?_ ?_
          · rw [List.length_append, ← hall₁, ← hwritten]
            rfl
          · rw [hfile, hfile₁, List.flatten_append, List.append_assoc]
            simp
          · rw [hbytes, hfile, hflushed.bytes, List.length_append]

/-- An append takes its record, or fails and leaves at most a part of a large one. -/
theorem appendRecord_holds {header torn : Bytes} {records : List Bytes} {s : BufferedCsvFileSink}
    (h : Holds header records torn s) (hclean : s.firstError = none) (script : List WriteAnswer)
    (record : Bytes) :
    (appendRecord script s record).1.1 = (appendRecord script s record).1.2.firstError ∧
      ((appendRecord script s record).1.1 = none →
        Holds header (records ++ [record]) torn (appendRecord script s record).1.2) ∧
      ((appendRecord script s record).1.1 ≠ none →
        Holds header records (if csvAggregationBufferBytes < record.length then record else [])
          (appendRecord script s record).1.2) := by
  unfold appendRecord
  simp only [hclean]
  split
  · obtain ⟨error, heq⟩ := latchError_some s .invalidRecord 0
    rw [heq]
    exact ⟨rfl, by simp, fun _ => (h.retorn hclean _).latched error⟩
  · rename_i hvalid
    have hne : record ≠ [] := by
      rintro rfl
      simp at hvalid
    split
    · exact writeDirect_holds h hclean script record
    · rename_i hsmall
      split
      · obtain ⟨hflushed, hanswer, hempty⟩ := flushBuffer_holds (h.retorn hclean []) hclean script
        generalize flushBuffer script s = flushed at hflushed hanswer hempty
        obtain ⟨⟨error, s₁⟩, rest⟩ := flushed
        cases error with
        | some error => exact ⟨hanswer, by simp, fun _ => hflushed⟩
        | none =>
            have hclean₁ : s₁.firstError = none := hanswer.symm
            refine ⟨hanswer, fun _ => ?_, by simp⟩
            refine (hflushed.retorn hclean₁ torn).buffered hclean₁ hne ?_
            rw [(hempty rfl).1]
            simpa using hsmall
      · rename_i hroom
        exact ⟨hclean.symm, fun _ => h.buffered hclean hne (by omega), by simp⟩

/-- A flush takes nothing and loses nothing. -/
theorem flush_holds {header torn : Bytes} {records : List Bytes} {s : BufferedCsvFileSink}
    (h : Holds header records torn s) (hclean : s.firstError = none) (script : List WriteAnswer) :
    (flush script s).1.1 = (flush script s).1.2.firstError ∧
      Holds header records torn (flush script s).1.2 := by
  unfold flush
  simp only [hclean]
  split
  · obtain ⟨error, heq⟩ := latchError_some s .writeFailed badDescriptorError
    rw [heq]
    exact ⟨rfl, h.latched error⟩
  · obtain ⟨hflushed, hanswer, -⟩ := flushBuffer_holds h hclean script
    exact ⟨hanswer, hflushed⟩

theorem appendRecord_open {script rest : List WriteAnswer} {s s' : BufferedCsvFileSink}
    {record : Bytes} {result : Option FileSinkError}
    (h : appendRecord script s record = ((result, s'), rest)) (hnone : result = none) :
    s.isOpen = true := by
  subst hnone
  unfold appendRecord at h
  split at h
  · simp at h
  · split at h
    · obtain ⟨error, heq⟩ := latchError_some s .invalidRecord 0
      simp [heq] at h
    · rename_i hvalid
      by_contra hshut
      simp [hshut] at hvalid

theorem flush_open {script rest : List WriteAnswer} {s s' : BufferedCsvFileSink}
    {result : Option FileSinkError} (h : flush script s = ((result, s'), rest))
    (hnone : result = none) : s.isOpen = true := by
  subst hnone
  unfold flush at h
  split at h
  · simp at h
  · split at h
    · obtain ⟨error, heq⟩ := latchError_some s .writeFailed badDescriptorError
      simp [heq] at h
    · rename_i hopen
      simpa using hopen

/-- A close answers the first error, and none only if everything is in the file. -/
theorem close_holds {header torn : Bytes} {records : List Bytes} {s : BufferedCsvFileSink}
    (h : Holds header records torn s)
    (hshut : s.isOpen = false → s.firstError = none → s.bufferedRows = 0) (answers : FileAnswers) :
    (close answers s).1.1 = (close answers s).1.2.firstError ∧
      Holds header records torn (close answers s).1.2 ∧
      (∀ error, s.firstError = some error → (close answers s).1.2.firstError = some error) ∧
      ((close answers s).1.2.firstError = none → (close answers s).1.2.bufferedRows = 0) := by
  -- what the close call adds to the sink it finds after the flush
  have hfinish : ∀ (t : BufferedCsvFileSink) (rest : FileAnswers), Holds header records torn t →
      (∀ error, s.firstError = some error → t.firstError = some error) →
      (t.firstError = none → t.bufferedRows = 0) →
      ∀ r, answers.closes.head?.join.elim ((t.firstError, t), rest)
        (fun native => (t.latchError .closeFailed native, rest)) = r →
      r.1.1 = r.1.2.firstError ∧ Holds header records torn r.1.2 ∧
        (∀ error, s.firstError = some error → r.1.2.firstError = some error) ∧
        (r.1.2.firstError = none → r.1.2.bufferedRows = 0) := by
    intro t rest ht hsticky hrows r hr
    subst hr
    cases answers.closes.head?.join with
    | none => exact ⟨rfl, ht, hsticky, hrows⟩
    | some native =>
        cases hfirst : t.firstError with
        | some first =>
            have heq : t.latchError .closeFailed native = (some first, t) := by
              simp [latchError, hfirst]
            simp only [Option.elim_some, heq]
            exact ⟨hfirst.symm, ht, hsticky, hrows⟩
        | none =>
            have heq : t.latchError .closeFailed native =
                (some ⟨.closeFailed, native⟩, { t with firstError := some ⟨.closeFailed, native⟩ }) := by
              simp [latchError, hfirst]
            simp only [Option.elim_some, heq]
            refine ⟨trivial, ht.latched _, fun error herror => ?_, by simp⟩
            rw [hsticky error herror] at hfirst
            cases hfirst
  cases hopen : s.isOpen with
  | false =>
      have heq : (close answers s).1 = (s.firstError, s) := by simp [close, hopen]
      rw [heq]
      exact ⟨rfl, h, fun _ herror => herror, hshut hopen⟩
  | true =>
      obtain ⟨first, hfirst⟩ | hfirst : (∃ first, s.firstError = some first) ∨
          s.firstError = none := by
        cases s.firstError with
        | some first => exact .inl ⟨first, rfl⟩
        | none => exact .inr rfl
      · refine hfinish { s with isOpen := false } ⟨answers.writes, answers.closes.tail⟩
          { h with } (fun _ herror => herror) ?_ _ ?_
        · simp [hfirst]
        · cases hclosed : answers.closes.head?.join <;>
            simp only [close, hopen, hfirst, hclosed, Bool.not_true, Bool.false_eq_true, ↓reduceIte,
              Option.elim_none, Option.elim_some]
      · obtain ⟨hflushed, hanswer, hempty⟩ := flushBuffer_holds h hfirst answers.writes
        refine hfinish { (flushBuffer answers.writes s).1.2 with isOpen := false }
          ⟨(flushBuffer answers.writes s).2, answers.closes.tail⟩ { hflushed with } ?_ ?_ _ ?_
        · simp [hfirst]
        · intro hnone
          exact (hempty (hanswer.trans hnone)).2
        · cases hclosed : answers.closes.head?.join <;>
            simp only [close, hopen, hfirst, hclosed, Bool.not_true, Bool.false_eq_true, ↓reduceIte,
              Option.elim_none, Option.elim_some]

/-! ## Runs -/

theorem torn_concat_clean {labels : List SinkLabel} (h : ∀ l ∈ labels, l.result = none)
    (l : SinkLabel) : torn (labels ++ [l]) = l.large := by
  have hnone : labels.find? (fun l => l.result.isSome) = none := by
    rw [List.find?_eq_none]
    intro m hm
    simp [h m hm]
  rw [torn, List.find?_append, hnone]
  cases hl : l.result with
  | some error => simp [hl]
  | none => cases l <;> simp_all [SinkLabel.result, SinkLabel.large]

theorem torn_concat_failed {labels : List SinkLabel} {m : SinkLabel} (hm : m ∈ labels)
    (hfailed : m.result ≠ none) (l : SinkLabel) : torn (labels ++ [l]) = torn labels := by
  have hsome : (labels.find? fun l => l.result.isSome).isSome := by
    rw [List.find?_isSome]
    exact ⟨m, hm, by simpa [Option.isSome_iff_ne_none] using hfailed⟩
  obtain ⟨first, hfirst⟩ := Option.isSome_iff_exists.mp hsome
  rw [torn, torn, List.find?_append, hfirst]
  rfl

theorem accepted_concat (labels : List SinkLabel) (l : SinkLabel) :
    accepted (labels ++ [l]) = accepted labels ++ l.record?.toList := by
  cases h : l.record? <;> simp [accepted, h]

/-- The sink after a run: what its file holds, and the errors its calls returned. -/
structure Ran (header : Bytes) (labels : List SinkLabel) (s : BufferedCsvFileSink) : Prop where
  holds : Holds header (accepted labels) (torn labels) s
  errors : ∀ l ∈ labels, ∀ error, l.result = some error → s.firstError = some error
  source : s.firstError ≠ none → ∃ l ∈ labels, l.result ≠ none
  repeated : labels.Pairwise fun a b => ∀ error, a.result = some error → b.result = some error
  shut : s.isOpen = false → s.firstError = none → s.bufferedRows = 0

theorem Ran.clean {header : Bytes} {labels : List SinkLabel} {s : BufferedCsvFileSink}
    (h : Ran header labels s) (hclean : s.firstError = none) : ∀ l ∈ labels, l.result = none := by
  intro l hl
  cases hresult : l.result with
  | none => rfl
  | some error =>
      rw [h.errors l hl error hresult] at hclean
      cases hclean

/-- A call that answers the first error and keeps the relation between file and records. -/
theorem Ran.call {header : Bytes} {labels : List SinkLabel} {s s' : BufferedCsvFileSink}
    {l : SinkLabel} (h : Ran header labels s) (hanswer : l.result = s'.firstError)
    (hsticky : ∀ error, s.firstError = some error → s'.firstError = some error)
    (hholds : Holds header (accepted (labels ++ [l])) (torn (labels ++ [l])) s')
    (hshut : s'.isOpen = false → s'.firstError = none → s'.bufferedRows = 0) :
    Ran header (labels ++ [l]) s' := by
  refine ⟨hholds, ?_, ?_, ?_, hshut⟩
  · intro m hm error herror
    rcases List.mem_append.mp hm with hm | hm
    · exact hsticky error (h.errors m hm error herror)
    · obtain rfl := List.mem_singleton.mp hm
      rw [← hanswer, herror]
  · intro hfailed
    exact ⟨l, by simp, by rwa [hanswer]⟩
  · rw [List.pairwise_append]
    refine ⟨h.repeated, List.pairwise_singleton _ _, ?_⟩
    intro m hm k hk error herror
    obtain rfl := List.mem_singleton.mp hk
    rw [hanswer]
    exact hsticky error (h.errors m hm error herror)

/-- After a failure a call returns the first error and leaves file and buffer. -/
theorem Ran.failed {header : Bytes} {labels : List SinkLabel} {s s' : BufferedCsvFileSink}
    {l : SinkLabel} (h : Ran header labels s) {error : FileSinkError}
    (hfailed : s.firstError = some error) (hresult : l.result = some error)
    (hholds : Holds header (accepted labels) (torn labels) s')
    (hfirst : s'.firstError = some error) : Ran header (labels ++ [l]) s' := by
  obtain ⟨m, hm, hmfailed⟩ := h.source (by simp [hfailed])
  refine h.call (hresult.trans hfirst.symm) ?_ ?_ (by simp [hfirst])
  · intro e he
    rw [hfirst, ← he, hfailed]
  · have hnone : l.record? = none := by
      cases l with
      | appended record result =>
          obtain rfl : result = some error := hresult
          rfl
      | flushed _ => rfl
      | closed _ => rfl
    rw [accepted_concat, hnone, torn_concat_failed hm hmfailed]
    simpa using hholds

theorem Ran.step {kind : CsvFileKind} {labels : List SinkLabel} {s s' : BufferedCsvFileSink}
    {l : SinkLabel} (h : Ran (headerFor kind) labels s) (hstep : (runs kind).step s l s') :
    Ran (headerFor kind) (labels ++ [l]) s' := by
  obtain ⟨first, hfirst⟩ | hclean : (∃ first, s.firstError = some first) ∨ s.firstError = none := by
    cases s.firstError with
    | some first => exact .inl ⟨first, rfl⟩
    | none => exact .inr rfl
  · cases l with
    | appended record result =>
        obtain ⟨script, rest, hcall⟩ := hstep
        obtain ⟨⟨rfl, rfl⟩, -⟩ : (result = some first ∧ s' = s) ∧ rest = script := by
          simpa [appendRecord, hfirst, eq_comm] using hcall
        exact h.failed hfirst rfl h.holds hfirst
    | flushed result =>
        obtain ⟨script, rest, hcall⟩ := hstep
        obtain ⟨⟨rfl, rfl⟩, -⟩ : (result = some first ∧ s' = s) ∧ rest = script := by
          simpa [flush, hfirst, eq_comm] using hcall
        exact h.failed hfirst rfl h.holds hfirst
    | closed result =>
        obtain ⟨answers, rest, hcall⟩ := hstep
        obtain ⟨hanswer, hholds, hsticky, -⟩ := close_holds h.holds h.shut answers
        rw [hcall] at hanswer hholds hsticky
        exact h.failed hfirst (hanswer.trans (hsticky first hfirst)) hholds (hsticky first hfirst)
  · have htorn : ∀ l, torn (labels ++ [l]) = l.large := torn_concat_clean (h.clean hclean)
    cases l with
    | appended record result =>
        obtain ⟨script, rest, hcall⟩ := hstep
        obtain ⟨hanswer, htook, hfailed⟩ := appendRecord_holds h.holds hclean script record
        have hopen := (appendRecord_outcome h.holds.ok script record).1
        rw [hcall] at hanswer htook hfailed hopen
        refine h.call hanswer (by simp [hclean]) ?_ ?_
        · rw [accepted_concat, htorn]
          cases result with
          | none => exact (htook rfl).retorn hanswer.symm _
          | some error => simpa [SinkLabel.record?, SinkLabel.large] using hfailed (by simp)
        · intro hshut hnone
          have hopened := appendRecord_open hcall (hanswer.trans hnone)
          rw [hopen, hopened] at hshut
          cases hshut
    | flushed result =>
        obtain ⟨script, rest, hcall⟩ := hstep
        obtain ⟨hanswer, hholds⟩ := flush_holds (h.holds.retorn hclean []) hclean script
        have hopen := (flush_outcome h.holds.ok script).1
        rw [hcall] at hanswer hholds hopen
        refine h.call hanswer (by simp [hclean]) ?_ ?_
        · rw [accepted_concat, htorn]
          simpa [SinkLabel.record?, SinkLabel.large] using hholds
        · intro hshut hnone
          have hopened := flush_open hcall (hanswer.trans hnone)
          rw [hopen, hopened] at hshut
          cases hshut
    | closed result =>
        obtain ⟨answers, rest, hcall⟩ := hstep
        obtain ⟨hanswer, hholds, -, hrows⟩ :=
          close_holds (h.holds.retorn hclean []) h.shut answers
        rw [hcall] at hanswer hholds hrows
        refine h.call hanswer (by simp [hclean]) ?_ fun _ => hrows
        rw [accepted_concat, htorn]
        simpa [SinkLabel.record?, SinkLabel.large] using hholds

theorem ran_init {kind : CsvFileKind} {s : BufferedCsvFileSink} (h : (runs kind).init s) :
    Ran (headerFor kind) [] s := by
  obtain ⟨script, rest, hopen⟩ := h
  obtain ⟨taken, -, hfile, hbytes, hall⟩ :=
    writeAll_delivers script (headerFor kind) ({ file := [] } : BufferedCsvFileSink)
  obtain ⟨error, s', rest', heq, hbuffer, hrows, hisOpen, hwritten, hdone, -⟩ :=
    writeAll_spec script (headerFor kind) ({ file := [] } : BufferedCsvFileSink)
  rw [hopen] at heq hfile hbytes hall
  obtain ⟨⟨rfl, rfl⟩, -⟩ : (none = error ∧ s = s') ∧ rest = rest' := by simpa using heq
  obtain rfl := hall rfl
  refine ⟨Holds.whole hbuffer hrows hwritten ?_ ?_, by simp, ?_, List.Pairwise.nil, ?_⟩
  · simpa [accepted] using hfile
  · rw [hbytes, hfile]
    simp
  · simp [(hdone rfl).2]
  · simp [hisOpen]

theorem ran_of_exec {kind : CsvFileKind} {s₀ s : BufferedCsvFileSink} {labels : List SinkLabel}
    (hinit : (runs kind).init s₀) (hrun : Exec (runs kind) s₀ labels s) :
    Ran (headerFor kind) labels s :=
  hrun.history (P := Ran (headerFor kind)) (ran_init hinit) fun _ _ _ _ h hstep => h.step hstep

/-- The prefix law over every run of calls on an opened sink. -/
theorem file_prefix_law {kind : CsvFileKind} {s₀ s : BufferedCsvFileSink} {labels : List SinkLabel}
    (hinit : (runs kind).init s₀) (hrun : Exec (runs kind) s₀ labels s) :
    s.file <+: headerFor kind ++ (accepted labels).flatten ++ torn labels ∧
    (labels.getLast? = some (.closed none) →
      s.file = headerFor kind ++ (accepted labels).flatten) ∧
    s.metrics.rowsWritten + s.bufferedRows = (accepted labels).length ∧
    headerFor kind ++ ((accepted labels).take s.metrics.rowsWritten).flatten <+: s.file ∧
    s.metrics.bytesWritten = s.file.length ∧
    s.buffer.length ≤ csvAggregationBufferBytes ∧
    (labels.Pairwise fun a b => ∀ error, a.result = some error → b.result = some error) := by
  have h := ran_of_exec hinit hrun
  refine ⟨h.holds.within, ?_, h.holds.rows, h.holds.written, h.holds.bytes, h.holds.depth,
    h.repeated⟩
  intro hlast
  obtain ⟨before, rfl⟩ : ∃ before, labels = before ++ [.closed none] := by
    obtain ⟨before, hbefore⟩ := List.getLast?_eq_some_iff.mp hlast
    exact ⟨before, hbefore⟩
  obtain ⟨t, hbefore, answers, rest, hcall⟩ := hrun.concat_inv
  have ht := ran_of_exec hinit hbefore
  obtain ⟨hanswer, -, -, hrows⟩ := close_holds ht.holds ht.shut answers
  rw [hcall] at hanswer hrows
  exact (h.holds.written_all hanswer.symm (hrows hanswer.symm)).2

/-! ### A short write, and a record that is only begun -/

section Sample

/-- A sink whose header was written at once. -/
def openedSink : BufferedCsvFileSink :=
  ({ file := [] } : BufferedCsvFileSink).called.delivered marketDataCsvHeader

theorem openedSink_init : (runs .marketData).init openedSink := by
  have hne : marketDataCsvHeader ≠ [] := by decide +kernel
  obtain ⟨b, bs, hheader⟩ := List.exists_cons_of_ne_nil hne
  refine ⟨[], [], ?_⟩
  rw [openedSink, headerFor, hheader]
  rfl

/-- Two records, a short write and an interruption on the way to the file. -/
theorem file_prefix_law_sample : ∃ labels s,
    Exec (runs .marketData) openedSink labels s ∧
    accepted labels = [ascii "1\n", ascii "23\n"] ∧
    s.file = marketDataCsvHeader ++ [ascii "1\n", ascii "23\n"].flatten := by
  let first := openedSink.buffered (ascii "1\n")
  let second := first.buffered (ascii "23\n")
  let answers : FileAnswers := { writes := [.accepted 1, .interrupted, .accepted 3] }
  have hfirst : (runs .marketData).step openedSink (.appended (ascii "1\n") none)
      first := ⟨[], [], rfl⟩
  have hsecond : (runs .marketData).step first (.appended (ascii "23\n") none) second :=
    ⟨[], [], rfl⟩
  have hclose : (runs .marketData).step second (.closed none) (close answers second).1.2 :=
    ⟨answers, (close answers second).2, rfl⟩
  have hrun := (((Exec.nil openedSink).snoc hfirst).snoc hsecond).snoc hclose
  obtain ⟨-, hclosed, -⟩ := file_prefix_law openedSink_init hrun
  exact ⟨_, _, hrun, rfl, hclosed rfl⟩

/-- The device takes one byte of a large record and is full. -/
theorem appendRecord_begun {s : BufferedCsvFileSink} (hopen : s.isOpen = true)
    (hclean : s.firstError = none) (hbuffer : s.buffer = []) {b c : UInt8} {rest : Bytes}
    (hlarge : csvAggregationBufferBytes < (b :: c :: rest).length)
    (hlimit : (b :: c :: rest).length ≤ maxCsvRecordBytes)
    (hlast : (b :: c :: rest).getLast? = some lineFeed) (native : Int) :
    ∃ t, appendRecord [.accepted 1, .failed native] s (b :: c :: rest) =
        ((some ⟨.writeFailed, native⟩, t), []) ∧ t.file = s.file ++ [b] := by
  have hvalid : ¬ (!s.isOpen || (b :: c :: rest).isEmpty ||
      decide ((b :: c :: rest).length > maxCsvRecordBytes) ||
      decide ((b :: c :: rest).getLast? ≠ some lineFeed)) = true := by
    simp only [hopen, hlast, Bool.not_true, List.isEmpty_cons, Bool.or_eq_true, decide_eq_true_eq,
      not_or]
    exact ⟨⟨⟨by simp, by simp⟩, by omega⟩, by simp⟩
  have hempty : s.buffer.length = 0 := by rw [hbuffer]; rfl
  refine ⟨{ (s.called.delivered [b]).called with firstError := some ⟨.writeFailed, native⟩ }, ?_, rfl⟩
  unfold appendRecord
  simp only [hclean]
  rw [if_neg hvalid, if_pos hlarge, writeDirect, flushBuffer, if_pos hempty]
  have hone : ¬ 1 > (b :: c :: rest).length := by simp
  have hfirst : (s.called.delivered [b]).called.firstError = none := hclean
  simp only [writeAll, Nat.one_ne_zero, ↓reduceIte, if_neg hone, List.drop_one, List.tail_cons,
    List.take_succ_cons, List.take_zero, latchError, hfirst]

/-- A record one byte larger than the buffer. -/
def largeRecord : Bytes :=
  48 :: 48 :: (List.replicate (csvAggregationBufferBytes - 2) 48 ++ [lineFeed])

/-- The first byte of a large record stays in the file though no record was accepted. -/
theorem large_record_begun :
    ¬ ∀ (kind : CsvFileKind) (s₀ s : BufferedCsvFileSink) (labels : List SinkLabel),
      (runs kind).init s₀ → Exec (runs kind) s₀ labels s →
      s.file <+: headerFor kind ++ (accepted labels).flatten := by
  intro h
  have hlength : largeRecord.length = csvAggregationBufferBytes + 1 := by
    rw [largeRecord, List.length_cons, List.length_cons, List.length_append, List.length_replicate]
    rfl
  have hlast : largeRecord.getLast? = some lineFeed := by
    rw [largeRecord, ← List.cons_append, ← List.cons_append, List.getLast?_concat]
  have hlimit : csvAggregationBufferBytes + 1 ≤ maxCsvRecordBytes := by decide
  obtain ⟨t, hcall, hfile⟩ := appendRecord_begun (s := openedSink) rfl rfl rfl
    (by rw [← largeRecord, hlength]; omega) (by rw [← largeRecord, hlength]; exact hlimit) hlast 28
  have hstep : (runs .marketData).step openedSink
      (.appended largeRecord (some ⟨.writeFailed, 28⟩)) t := ⟨_, _, hcall⟩
  have hprefix := (h _ _ _ _ openedSink_init
    ((Exec.nil openedSink).snoc hstep)).length_le
  have hopened : openedSink.file.length = (headerFor .marketData).length := by
    simp [openedSink, delivered, called, headerFor]
  have haccepted : accepted [.appended largeRecord (some ⟨.writeFailed, 28⟩)] = [] := rfl
  rw [List.nil_append, haccepted, hfile, List.length_append, hopened, List.flatten_nil,
    List.append_nil, List.length_singleton] at hprefix
  omega

end Sample

end BufferedCsvFileSink

end MarketCapture
