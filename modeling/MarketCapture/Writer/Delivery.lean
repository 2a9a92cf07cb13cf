import MarketCapture.Writer.Shutdown

/-! # What reaches the files

The writer hands the batches to the output set in the order in which they were
published. As long as nothing fails every file holds its header and the rows of the
batches handed over for its target; a failure is kept as the first error.
-/

namespace MarketCapture

/-- The bytes a published slot adds to the files of a target. -/
def Slot.auditBytesFor (index : Nat) (slot : Slot) : Bytes :=
  if slot.targetIndex = some index then slot.batch.auditBytes else []

def Slot.orderBookBytesFor (index : Nat) (slot : Slot) : Bytes :=
  if slot.targetIndex = some index then slot.batch.orderBookBytes else []

def Slot.auditCount (slot : Slot) : Nat := slot.batch.auditCount
def Slot.orderBookCount (slot : Slot) : Nat := slot.batch.orderBookCount

namespace CsvOutputSet

open TargetFiles

/-- The header of the audit file, which only live capture has. -/
def auditHeader (mode : CsvOutputMode) : Bytes :=
  if mode = .liveCapture then marketDataCsvHeader else []

/-- The files hold their headers and the rows of these slots, and count them. -/
structure Holds (set : CsvOutputSet) (slots : List Slot) : Prop where
  audit : ∀ index t, set.targets[index]? = some t →
    t.auditContent = auditHeader set.mode ++ slots.flatMap (Slot.auditBytesFor index)
  orderBook : ∀ index t, set.targets[index]? = some t →
    t.orderBookContent = orderBookCsvHeader ++ slots.flatMap (Slot.orderBookBytesFor index)
  auditTotal : set.auditTotal = (slots.map Slot.auditCount).sum
  orderBookTotal : set.orderBookTotal = (slots.map Slot.orderBookCount).sum

theorem opened_holds (mode : CsvOutputMode) (targetCount : Nat) :
    (CsvOutputSet.opened mode targetCount).Holds [] := by
  have hopened : ∀ (index : Nat) t, (CsvOutputSet.opened mode targetCount).targets[index]? = some t →
      t = TargetFiles.opened mode := by
    intro index t ht
    exact (List.mem_replicate.mp (List.mem_of_getElem? ht)).2
  refine ⟨?_, ?_, ?_, ?_⟩
  · intro index t ht
    rw [hopened index t ht]
    cases mode <;> simp [CsvOutputSet.opened, TargetFiles.opened, auditContent, auditHeader,
      BufferedCsvFileSink.content]
  · intro index t ht
    rw [hopened index t ht]
    simp [TargetFiles.opened, orderBookContent, BufferedCsvFileSink.content]
  · cases mode <;> simp [CsvOutputSet.auditTotal, CsvOutputSet.opened, TargetFiles.opened, auditRows,
      BufferedCsvFileSink.rows]
  · simp [CsvOutputSet.orderBookTotal, CsvOutputSet.opened, TargetFiles.opened, orderBookRows,
      BufferedCsvFileSink.rows]

/-- A written batch adds its rows at the end of the files of its target. -/
theorem Holds.write {set : CsvOutputSet} {slots : List Slot} (h : set.Holds slots) {slot : Slot}
    {r : Option OutputSetWriteError × CsvOutputSet} (hwrote : Wrote set slot.targetIndex slot.batch r)
    (hnone : r.1 = none) : r.2.Holds (slots ++ [slot]) := by
  obtain ⟨index, t, t', hindex, hget, htargets, hgrew⟩ := hwrote.done hnone
  have hauditSum := sum_map_set TargetFiles.auditRows hget t'
  have hbookSum := sum_map_set TargetFiles.orderBookRows hget t'
  have hauditRows := hgrew.auditRows
  have hbookRows := hgrew.orderBookRows
  have hauditTotal := h.auditTotal
  have hbookTotal := h.orderBookTotal
  simp only [CsvOutputSet.auditTotal, CsvOutputSet.orderBookTotal] at hauditTotal hbookTotal
  refine ⟨?_, ?_, ?_, ?_⟩
  · intro i u hu
    rw [htargets, List.getElem?_set] at hu
    rw [hwrote.mode]
    split at hu
    · rename_i heq
      subst heq
      split at hu
      · obtain rfl := Option.some.inj hu
        simp [hgrew.auditContent, h.audit _ t hget, Slot.auditBytesFor, hindex]
      · cases hu
    · rename_i hne
      simp [h.audit i u hu, Slot.auditBytesFor, hindex, hne]
  · intro i u hu
    rw [htargets, List.getElem?_set] at hu
    split at hu
    · rename_i heq
      subst heq
      split at hu
      · obtain rfl := Option.some.inj hu
        simp [hgrew.orderBookContent, h.orderBook _ t hget, Slot.orderBookBytesFor, hindex]
      · cases hu
    · rename_i hne
      simp [h.orderBook i u hu, Slot.orderBookBytesFor, hindex, hne]
  · simp only [CsvOutputSet.auditTotal, htargets, List.map_append, List.sum_append, List.map_cons,
      List.map_nil, List.sum_cons, List.sum_nil, Slot.auditCount] at hauditTotal ⊢
    omega
  · simp only [CsvOutputSet.orderBookTotal, htargets, List.map_append, List.sum_append, List.map_cons,
      List.map_nil, List.sum_cons, List.sum_nil, Slot.orderBookCount] at hbookTotal ⊢
    omega

/-- Flushing and closing keep what the files hold. -/
theorem Holds.pass {set : CsvOutputSet} {slots : List Slot} (h : set.Holds slots)
    {Q : BufferedCsvFileSink → Prop} {r : Option OutputSetWriteError × CsvOutputSet}
    (hpassed : Passed Q set r) (hnone : r.1 = none) : r.2.Holds slots := by
  have hsame := hpassed.done hnone
  refine ⟨?_, ?_, ?_, ?_⟩
  · intro index t' ht'
    obtain ⟨t, ht, hcontent, -⟩ := exists_getElem?_of_forall₂ hsame ht'
    rw [hcontent.auditContent, hpassed.mode]
    exact h.audit index t ht
  · intro index t' ht'
    obtain ⟨t, ht, hcontent, -⟩ := exists_getElem?_of_forall₂ hsame ht'
    rw [hcontent.orderBookContent]
    exact h.orderBook index t ht
  · rw [hpassed.auditTotal]
    exact h.auditTotal
  · rw [hpassed.orderBookTotal]
    exact h.orderBookTotal

end CsvOutputSet

namespace ReleaseUse

/-- The error of the write that the release belongs to. -/
def pendingError : ReleaseUse → Option OutputSetWriteError
  | written _ error => error
  | discarded _ => none

/-- One for a batch that is handed over and not yet released. -/
def handing : ReleaseUse → Nat
  | written _ _ => 1
  | discarded _ => 0

end ReleaseUse

namespace WriterPc

/-- An error of the output set on its way to `latch_output_failure`. -/
def pendingError : WriterPc → Option OutputSetWriteError
  | releaseBytes use => use.pendingError
  | releaseOverflow use => use.pendingError
  | releaseSequence use => use.pendingError
  | resumePublished use => use.pendingError
  | resumeBytes use _ => use.pendingError
  | resumeExchange use => use.pendingError
  | latchFailed _ error => some error
  | _ => none

def handing : WriterPc → Nat
  | releaseBytes use => use.handing
  | _ => 0

/-- After `close_all`. -/
def filesClosed : WriterPc → Bool
  | latchFailed use _ => use.ended
  | latchNotify use => use.ended
  | latchWait use => use.ended
  | finishing => true
  | done => true
  | _ => false

end WriterPc

namespace CsvWriter

open CsvOutputSet TargetFiles

/-- The number of batches handed to the output set, or discarded. -/
def handed (s : CsvWriter) : Nat := s.consumerSequence + s.writerPc.handing

/-- What is known of errors. -/
structure Errors (s : CsvWriter) : Prop where
  first : s.output.firstError = s.history.errors.head?
  failed : s.writerFailed = true → s.output.firstError ≠ none
  pending : ∀ e, s.writerPc.pendingError = some e → s.output.firstError = some e ∧
    (s.finalResult.outputError = none ∨ s.finalResult.outputError = some e)
  settled : s.writerPc.pendingError = none → s.finalResult.outputError = s.output.firstError
  notified : s.history.failureNotifications = s.failureNotificationSent.toNat

/-- What is known of the files. -/
structure Delivery (s : CsvWriter) : Prop where
  ready : s.writerPc.filesClosed = false → s.output.Ready
  auditTotal : s.output.auditTotal ≤ Ring.total Slot.auditCount s.history.log s.handed
  orderBookTotal : s.output.orderBookTotal ≤ Ring.total Slot.orderBookCount s.history.log s.handed
  holds : s.output.firstError = none → s.output.Holds (s.history.log.take s.handed)
  drained : s.writerPc.filesClosed = true → s.output.firstError = none →
    ∀ t ∈ s.output.targets, All (fun sink => sink.buffer = [] ∧ sink.bufferedRows = 0) t

variable {memory : MemoryAnswers} {s s' : CsvWriter}

/-! ## Errors -/

theorem Errors.of_producer (h : s.Errors) (hframe : ProducerFrame s s') : s'.Errors := by
  refine ⟨?_, ?_, ?_, ?_, ?_⟩
  · rw [hframe.output, hframe.errors]
    exact h.first
  · rw [hframe.writerFailed, hframe.output]
    exact h.failed
  · rw [hframe.writerPc, hframe.output, hframe.finalResult]
    exact h.pending
  · rw [hframe.writerPc, hframe.output, hframe.finalResult]
    exact h.settled
  · rw [hframe.failureNotifications, hframe.failureNotificationSent]
    exact h.notified

theorem afterRelease_pendingError (use : ReleaseUse) :
    (afterRelease use).pendingError = use.pendingError := by
  rcases use with ⟨published, _ | error⟩ | published <;> rfl

theorem afterLatch_pendingError (use : LatchUse) : (afterLatch use).pendingError = none := by
  cases use <;> rfl

/-- A writer step that neither calls the output set nor latches. -/
theorem Errors.of_writer (h : s.Errors) (houtput : s'.output = s.output)
    (herrors : s'.history.errors = s.history.errors) (hfailed : s'.writerFailed = s.writerFailed)
    (hresult : s'.finalResult.outputError = s.finalResult.outputError)
    (hnotified : s'.history.failureNotifications = s'.failureNotificationSent.toNat)
    (hpc : s'.writerPc.pendingError = s.writerPc.pendingError) : s'.Errors := by
  refine ⟨?_, ?_, ?_, ?_, hnotified⟩
  · rw [houtput, herrors]
    exact h.first
  · rw [hfailed, houtput]
    exact h.failed
  · rw [hpc, houtput, hresult]
    exact h.pending
  · rw [hpc, houtput, hresult]
    exact h.settled

/-- A call of the output set: its error is the first one. -/
theorem Errors.of_output (h : s.Errors) (hpc : s.writerPc.pendingError = none)
    {r : Option OutputSetWriteError × CsvOutputSet} (herror : r.1 = r.2.firstError)
    (hfirst : ∀ e, s.output.firstError = some e → r.1 = some e) (houtput : s'.output = r.2)
    (herrors : s'.history.errors = s.history.errors ++ r.1.toList)
    (hfailed : s'.writerFailed = s.writerFailed)
    (hresult : s'.finalResult = s.finalResult)
    (hnotified : s'.history.failureNotifications = s'.failureNotificationSent.toNat)
    (hpc' : s'.writerPc.pendingError = r.1) : s'.Errors := by
  have hsettled := h.settled hpc
  have hhead := h.first
  have hkept : s.finalResult.outputError = none ∨ s.finalResult.outputError = r.1 := by
    cases hold : s.output.firstError with
    | none => exact .inl (hsettled.trans hold)
    | some e => exact .inr ((hsettled.trans hold).trans (hfirst e hold).symm)
  refine ⟨?_, ?_, ?_, ?_, hnotified⟩
  · rw [houtput, herrors, ← herror]
    cases hold : s.output.firstError with
    | none =>
        rw [hold] at hhead
        rw [List.head?_eq_none_iff.mp hhead.symm]
        cases r.1 <;> rfl
    | some e =>
        rw [hold] at hhead
        rw [hfirst e hold, List.head?_append, ← hhead]
        rfl
  · rw [hfailed, houtput, ← herror]
    intro hf hnone
    obtain ⟨e, he⟩ := Option.ne_none_iff_exists'.mp (h.failed hf)
    rw [hfirst e he] at hnone
    cases hnone
  · rw [hpc', houtput, hresult, ← herror]
    intro e he
    rw [he] at hkept
    exact ⟨he, hkept⟩
  · rw [hpc', houtput, hresult, ← herror]
    intro hnone
    rw [hnone] at hkept ⊢
    simpa using hkept

theorem writerStep_errors {input : WriterInput} (hdelivery : s.Delivery) (h : s.Errors)
    (hs : s.writerStep input = some s') : s'.Errors := by
  have hready := hdelivery.ready
  have hnotified := h.notified
  unfold writerStep at hs
  cases hpc : s.writerPc <;> simp only [hpc] at hs hready
  case write published =>
    cases hs
    have hwrote := writeBatch_wrote (hready rfl) input.answers s.consumerSlot.targetIndex
      s.consumerSlot.batch
    exact h.of_output (by rw [hpc]; rfl) hwrote.error hwrote.first rfl rfl rfl rfl hnotified rfl
  case ageFlush =>
    split at hs
    · obtain ⟨-, hpassed⟩ := flushAll_passed (hready rfl) input.answers
      split at hs <;> cases hs <;> rename_i herror
      · exact h.of_output (by rw [hpc]; rfl) hpassed.error hpassed.first rfl (by rw [herror]; rfl) rfl
          rfl hnotified (by rw [herror]; rfl)
      · exact h.of_output (by rw [hpc]; rfl) hpassed.error hpassed.first rfl (by rw [herror]; simp) rfl
          rfl hnotified (by rw [herror]; rfl)
    · cases hs
      exact h.of_writer rfl rfl rfl rfl hnotified (by rw [hpc]; rfl)
  case closing =>
    have hpassed := closeAll_passed (hready rfl) input.answers
    split at hs <;> cases hs <;> rename_i herror
    · exact h.of_output (by rw [hpc]; rfl) hpassed.error hpassed.first rfl (by rw [herror]; rfl) rfl
        rfl hnotified (by rw [herror]; rfl)
    · exact h.of_output (by rw [hpc]; rfl) hpassed.error hpassed.first rfl (by rw [herror]; simp) rfl
        rfl hnotified (by rw [herror]; rfl)
  case latchFailed use error =>
    cases hs
    obtain ⟨hfirst, hresult⟩ := h.pending error (by rw [hpc]; rfl)
    refine ⟨h.first, fun _ => by simp [hfirst], (fun e he => nomatch he), fun _ => ?_, hnotified⟩
    rcases hresult with hnone | hsome
    · simp [hnone, hfirst]
    · simp [hsome, hfirst]
  case latchNotify use =>
    split at hs <;> cases hs
    · refine h.of_writer rfl rfl rfl rfl ?_ (by rw [hpc]; rfl)
      cases hsent : s.failureNotificationSent <;> simp [hnotified, hsent]
    · exact h.of_writer rfl rfl rfl rfl hnotified (by rw [hpc]; rfl)
  case latchWait use =>
    split at hs <;> cases hs
    · exact h
    · exact h.of_writer rfl rfl rfl rfl hnotified (by rw [hpc, afterLatch_pendingError]; rfl)
  case releaseSequence use =>
    cases hs
    refine h.of_writer rfl rfl rfl rfl hnotified ?_
    rw [hpc]
    split
    · rfl
    · exact afterRelease_pendingError use
  case resumeBytes use published =>
    split at hs <;> cases hs
    · exact h.of_writer rfl rfl rfl rfl hnotified (by rw [hpc]; rfl)
    · exact h.of_writer rfl rfl rfl rfl hnotified (by rw [hpc, afterRelease_pendingError]; rfl)
  case resumeExchange use =>
    cases hs
    have hkept : (afterRelease use).pendingError = s.writerPc.pendingError := by
      rw [hpc, afterRelease_pendingError]
      rfl
    split <;> exact h.of_writer rfl rfl rfl rfl hnotified hkept
  case drain =>
    split_ifs at hs <;> cases hs <;> exact h.of_writer rfl rfl rfl rfl hnotified (by rw [hpc]; rfl)
  case closeRequested | closePublished =>
    cases hs
    exact h.of_writer rfl rfl rfl rfl hnotified (by rw [hpc]; split <;> rfl)
  all_goals
    (try split at hs) <;> cases hs
    all_goals exact h.of_writer rfl rfl rfl rfl hnotified (by rw [hpc]; rfl)

/-! ## Files -/

theorem handed_le (hqueue : s.Queue) : s.handed ≤ s.history.log.length := by
  have hproduced : s.producerSequence = s.history.log.length := hqueue.ring.produced
  have hpublished : s.publishedSequence ≤ s.producerSequence := hqueue.ring.published_le
  have hconsumed : s.consumerSequence ≤ s.publishedSequence := hqueue.ring.consumed
  have hloaded := hqueue.control.loaded
  have htaking := hqueue.control.taking
  rw [handed]
  cases hpc : s.writerPc with
  | releaseBytes use =>
      rw [hpc] at hloaded htaking
      have hlt := (htaking _ rfl).trans_le (hloaded _ rfl)
      cases use <;> simp only [WriterPc.handing, ReleaseUse.handing] <;> omega
  | _ => simp only [WriterPc.handing]; omega

/-- A batch that is entered behind those handed over changes nothing. -/
theorem Delivery.of_producer (hqueue : s.Queue) (h : s.Delivery) (hframe : ProducerFrame s s')
    (hlog : s'.history.log = s.history.log ∨ ∃ slot, s'.history.log = s.history.log ++ [slot]) :
    s'.Delivery := by
  have hle := handed_le hqueue
  have hhanded : s'.handed = s.handed := by
    rw [handed, handed, hframe.consumerSequence, hframe.writerPc]
  have hkept : ∀ weight : Slot → Nat, Ring.total weight s'.history.log s.handed =
      Ring.total weight s.history.log s.handed := by
    intro weight
    rcases hlog with hsame | ⟨slot, happend⟩
    · rw [hsame]
    · rw [happend, Ring.total_append hle]
  have htake : s'.history.log.take s.handed = s.history.log.take s.handed := by
    rcases hlog with hsame | ⟨slot, happend⟩
    · rw [hsame]
    · rw [happend, List.take_append_of_le_length hle]
  refine ⟨?_, ?_, ?_, ?_, ?_⟩
  · rw [hframe.writerPc, hframe.output]
    exact h.ready
  · rw [hframe.output, hhanded, hkept]
    exact h.auditTotal
  · rw [hframe.output, hhanded, hkept]
    exact h.orderBookTotal
  · rw [hframe.output, hhanded, htake]
    exact h.holds
  · rw [hframe.writerPc, hframe.output]
    exact h.drained

/-- A writer step that does not call the output set and does not take a batch. -/
theorem Delivery.of_writer (h : s.Delivery) (houtput : s'.output = s.output)
    (hlog : s'.history.log = s.history.log) (hhanded : s'.handed = s.handed)
    (hpc : s'.writerPc.filesClosed = s.writerPc.filesClosed) : s'.Delivery := by
  refine ⟨?_, ?_, ?_, ?_, ?_⟩
  · rw [hpc, houtput]
    exact h.ready
  · rw [houtput, hlog, hhanded]
    exact h.auditTotal
  · rw [houtput, hlog, hhanded]
    exact h.orderBookTotal
  · rw [houtput, hlog, hhanded]
    exact h.holds
  · rw [hpc, houtput]
    exact h.drained

theorem Delivery.of_place (h : s.Delivery) (houtput : s'.output = s.output)
    (hlog : s'.history.log = s.history.log) (hsequence : s'.consumerSequence = s.consumerSequence)
    (hhanding : s'.writerPc.handing = s.writerPc.handing)
    (hclosed : s'.writerPc.filesClosed = s.writerPc.filesClosed) : s'.Delivery :=
  h.of_writer houtput hlog (by rw [handed, handed, hsequence, hhanding]) hclosed

/-- The write of the oldest batch that is out. -/
theorem Delivery.write (hqueue : s.Queue) (h : s.Delivery) {published : Nat}
    (hpc : s.writerPc = .write published) (answers : FileAnswers)
    {r : Option OutputSetWriteError × CsvOutputSet}
    (hr : s.output.writeBatch answers s.consumerSlot.targetIndex s.consumerSlot.batch = r)
    (houtput : s'.output = r.2) (hlog : s'.history.log = s.history.log)
    (hhanded : s'.handed = s.consumerSequence + 1) (hclosed : s'.writerPc.filesClosed = false) :
    s'.Delivery := by
  have hbefore : s.handed = s.consumerSequence := by rw [handed, hpc]; rfl
  have hready := h.ready (by rw [hpc]; rfl)
  have hwrote := writeBatch_wrote hready answers s.consumerSlot.targetIndex s.consumerSlot.batch
  rw [hr] at hwrote
  have hlt : s.consumerSequence < s.publishedSequence :=
    (hqueue.control.taking published (by rw [hpc]; rfl)).trans_le
      (hqueue.control.loaded published (by rw [hpc]; rfl))
  have hentry : s.history.log[s.consumerSequence]? = some s.consumerSlot :=
    hqueue.ring.head_entry hlt
  have haudit := h.auditTotal
  have hbook := h.orderBookTotal
  have hauditWrote := hwrote.auditTotal
  have hbookWrote := hwrote.orderBookTotal
  rw [hbefore] at haudit hbook
  refine ⟨fun _ => houtput ▸ hwrote.ready, ?_, ?_, ?_, ?_⟩
  · rw [houtput, hlog, hhanded, Ring.total_succ hentry, Slot.auditCount]
    omega
  · rw [houtput, hlog, hhanded, Ring.total_succ hentry, Slot.orderBookCount]
    omega
  · rw [houtput, hlog, hhanded, ← hwrote.error]
    intro hnone
    have hclean : s.output.firstError = none := by
      by_contra hfirst
      obtain ⟨e, he⟩ := Option.ne_none_iff_exists'.mp hfirst
      rw [hwrote.first e he] at hnone
      cases hnone
    have hholds := h.holds hclean
    rw [hbefore] at hholds
    rw [List.take_add_one, hentry]
    exact hholds.write hwrote hnone
  · rw [hclosed]
    exact fun htrue => nomatch htrue

/-- A release moves on; one that discards comes after an error. -/
theorem Delivery.release (h : s.Delivery) {use : ReleaseUse} (hpc : s.writerPc = .releaseBytes use)
    (hdiscard : use.discardCount ≠ none → s.output.firstError ≠ none)
    (houtput : s'.output = s.output) (hlog : s'.history.log = s.history.log)
    (hhanded : s'.handed = s.consumerSequence + 1) (hclosed : s'.writerPc.filesClosed = false) :
    s'.Delivery := by
  cases use with
  | written published error =>
      refine h.of_writer houtput hlog ?_ (by rw [hclosed, hpc]; rfl)
      rw [hhanded, handed, hpc]
      rfl
  | discarded published =>
      have hbefore : s.handed = s.consumerSequence := by rw [handed, hpc]; rfl
      have haudit := h.auditTotal
      have hbook := h.orderBookTotal
      rw [hbefore] at haudit hbook
      refine ⟨fun _ => ?_, ?_, ?_, ?_, ?_⟩
      · rw [houtput]
        exact h.ready (by rw [hpc]; rfl)
      · rw [houtput, hlog, hhanded]
        exact haudit.trans (Ring.total_mono (Nat.le_succ _))
      · rw [houtput, hlog, hhanded]
        exact hbook.trans (Ring.total_mono (Nat.le_succ _))
      · rw [houtput]
        exact fun hnone => absurd hnone (hdiscard (by simp [ReleaseUse.discardCount]))
      · rw [hclosed]
        exact fun htrue => nomatch htrue

/-- `flush_all` and `close_all` keep what the files hold. -/
theorem Delivery.pass (h : s.Delivery) {Q : BufferedCsvFileSink → Prop}
    {r : Option OutputSetWriteError × CsvOutputSet} (hpassed : Passed Q s.output r)
    (houtput : s'.output = r.2) (hlog : s'.history.log = s.history.log)
    (hhanded : s'.handed = s.handed) (hready : s'.writerPc.filesClosed = false → r.2.Ready)
    (hdrained : s'.writerPc.filesClosed = true → r.1 = none → ∀ t ∈ r.2.targets,
      All (fun sink => sink.buffer = [] ∧ sink.bufferedRows = 0) t) : s'.Delivery := by
  refine ⟨?_, ?_, ?_, ?_, ?_⟩
  · rw [houtput]
    exact hready
  · rw [houtput, hlog, hhanded, hpassed.auditTotal]
    exact h.auditTotal
  · rw [houtput, hlog, hhanded, hpassed.orderBookTotal]
    exact h.orderBookTotal
  · rw [houtput, hlog, hhanded, ← hpassed.error]
    intro hnone
    have hclean : s.output.firstError = none := by
      by_contra hfirst
      obtain ⟨e, he⟩ := Option.ne_none_iff_exists'.mp hfirst
      rw [hpassed.first e he] at hnone
      cases hnone
    exact (h.holds hclean).pass hpassed hnone
  · rw [houtput, ← hpassed.error]
    exact hdrained

theorem afterRelease_delivery (use : ReleaseUse) :
    (afterRelease use).handing = 0 ∧ (afterRelease use).filesClosed = false := by
  rcases use with ⟨published, _ | error⟩ | published <;> exact ⟨rfl, rfl⟩

theorem afterLatch_delivery (use : LatchUse) :
    (afterLatch use).handing = 0 ∧ (afterLatch use).filesClosed = use.ended := by
  cases use <;> exact ⟨rfl, rfl⟩

theorem writerStep_delivery {input : WriterInput} (hqueue : s.Queue) (hhandshake : s.Handshake)
    (hending : s.Ending) (herrors : s.Errors) (h : s.Delivery)
    (hs : s.writerStep input = some s') : s'.Delivery := by
  have hready := h.ready
  unfold writerStep at hs
  cases hpc : s.writerPc <;> simp only [hpc] at hs hready
  case write published =>
    cases hs
    exact h.write hqueue hpc input.answers rfl rfl rfl rfl rfl
  case releaseBytes use =>
    cases hs
    refine h.release hpc (fun hsome => ?_) rfl rfl rfl rfl
    obtain ⟨published, hcount⟩ := Option.ne_none_iff_exists'.mp hsome
    have hreturned := (hending.discardCount published (by rw [hpc]; exact hcount)).1
    exact herrors.failed (hhandshake.returned hreturned).1
  case ageFlush =>
    have hbefore : s.handed = s.consumerSequence := by rw [handed, hpc]; rfl
    split at hs
    · obtain ⟨hready', hpassed⟩ := flushAll_passed (hready rfl) input.answers
      split at hs <;> cases hs <;>
        exact h.pass hpassed rfl rfl hbefore.symm (fun _ => hready') (fun htrue => nomatch htrue)
    · cases hs
      exact h.of_place rfl rfl rfl (by rw [hpc]; rfl) (by rw [hpc]; rfl)
  case closing =>
    have hbefore : s.handed = s.consumerSequence := by rw [handed, hpc]; rfl
    have hpassed := closeAll_passed (hready rfl) input.answers
    have hdrained : (s.output.closeAll input.answers).1 = none →
        ∀ t ∈ (s.output.closeAll input.answers).2.targets,
          All (fun sink => sink.buffer = [] ∧ sink.bufferedRows = 0) t := by
      intro hnone t' ht'
      obtain ⟨i, hi⟩ := List.mem_iff_getElem?.mp ht'
      obtain ⟨t, -, -, hall⟩ := exists_getElem?_of_forall₂ (hpassed.done hnone) hi
      exact hall
    split at hs <;> cases hs <;>
      exact h.pass hpassed rfl rfl hbefore.symm (fun hfalse => nomatch hfalse) (fun _ => hdrained)
  case latchWait use =>
    split at hs <;> cases hs
    · exact h
    · refine h.of_place rfl rfl rfl ?_ ?_
      · rw [hpc]
        exact (afterLatch_delivery use).1
      · rw [hpc]
        exact (afterLatch_delivery use).2
  case releaseSequence use =>
    cases hs
    refine h.of_place rfl rfl rfl ?_ ?_
    · rw [hpc]
      split
      · rfl
      · exact (afterRelease_delivery use).1
    · rw [hpc]
      split
      · rfl
      · exact (afterRelease_delivery use).2
  case resumeBytes use published =>
    split at hs <;> cases hs
    · exact h.of_place rfl rfl rfl (by rw [hpc]; rfl) (by rw [hpc]; rfl)
    · refine h.of_place rfl rfl rfl ?_ ?_
      · rw [hpc]
        exact (afterRelease_delivery use).1
      · rw [hpc]
        exact (afterRelease_delivery use).2
  case resumeExchange use =>
    cases hs
    have hhanding : (afterRelease use).handing = s.writerPc.handing := by
      rw [hpc]
      exact (afterRelease_delivery use).1
    have hclosed : (afterRelease use).filesClosed = s.writerPc.filesClosed := by
      rw [hpc]
      exact (afterRelease_delivery use).2
    split <;> exact h.of_place rfl rfl rfl hhanding hclosed
  case drain =>
    split_ifs at hs <;> cases hs <;> exact h.of_place rfl rfl rfl (by rw [hpc]; rfl) (by rw [hpc]; rfl)
  case closeRequested | closePublished =>
    cases hs
    exact h.of_place rfl rfl rfl (by rw [hpc]; split <;> rfl) (by rw [hpc]; split <;> rfl)
  all_goals
    (try split at hs) <;> cases hs
    all_goals exact h.of_place rfl rfl rfl (by rw [hpc]; rfl) (by rw [hpc]; rfl)

end CsvWriter

end MarketCapture
