import MarketCapture.Writer.Accounting

/-! # The producer's side of the writer

What the producer knows of the queue: its own counters, the batch in the slot it holds and the
rows it has published. They depend on its calls and on what these returned
(`ProducerView.after`), however the writer thread runs meanwhile; what the writer thread adds is
that more is released. `Answers` says what each answer tells.
-/

namespace MarketCapture

structure ProducerView where
  sequence : Nat := 0
  bytes : Nat := 0
  held : Option EventRowBatch := none
  auditRows : Nat := 0
  orderBookRows : Nat := 0
  closed : Bool := false
  deriving DecidableEq

namespace ProducerView

/-- The view after the slot is given back. -/
def dropped (v : ProducerView) : ProducerView := { v with held := none }

/-- The view after a batch is entered. -/
def entered (v : ProducerView) (batch : EventRowBatch) : ProducerView :=
  { v with
    sequence := v.sequence + 1
    bytes := v.bytes + CsvWriter.batchBytes batch
    held := none
    auditRows := v.auditRows + batch.auditCount
    orderBookRows := v.orderBookRows + batch.orderBookCount }

/-- The view after a call, with what it returned. -/
def after (v : ProducerView) : Call × CallResult → ProducerView
  | (.tryAcquire, .acquired none) => { v with held := some {} }
  | (.fill batch _ _, _) => { v with held := some batch }
  | (.publish _, .published none) => v.entered (v.held.getD {})
  | (.publish _, .published (some _)) => v.dropped
  | (.cancel, _) => v.dropped
  | (.close, _) => { v.dropped with closed := true }
  | (.join, _) => { v.dropped with closed := true }
  | _ => v

end ProducerView

namespace CsvWriter

def view (w : CsvWriter) : ProducerView where
  sequence := w.producerSequence
  bytes := w.producerBytes
  held := if w.slotAcquired then some w.producerSlot.batch else none
  auditRows := w.metrics.auditRowsPublished
  orderBookRows := w.metrics.orderBookRowsPublished
  closed := w.closeRequested

/-- Fewer batches and bytes than this are out. -/
def Within (slots bytes : Nat) (w : CsvWriter) : Prop :=
  w.producerSequence - w.releasedSequence < slots ∧ w.producerBytes - w.bytesReleased < bytes

/-- Why `try_acquire` fails in a state. -/
def AcquireReason (w w' : CsvWriter) : CsvWriterAcquireError → Prop
  | .closed => w.closeRequested = true
  | .failed => w'.writerFailed = true
  | .alreadyAcquired => w.slotAcquired = true
  | .slotCapacity => csvWriterSlotCount ≤ w.producerSequence - w.releasedSequence

/-- Why `publish` fails in a state. -/
def PublishReason (w w' : CsvWriter) (target : Nat) : CsvWriterPublishError → Prop
  | .noAcquiredSlot => w.slotAcquired = false
  | .closed => w.closeRequested = true
  | .failed => w'.writerFailed = true
  | .invalidTarget => w.output.targets.length ≤ target
  | .invalidBatch => validBatch w.producerSlot.batch w.output.mode = false
  | .byteCapacity =>
      csvWriterByteCapacity <
        batchBytes w.producerSlot.batch + (w.producerBytes - w.bytesReleased)
  | .counterOverflow => True

/-- What an answer tells of the states before and after the call. -/
def Answers (w w' : CsvWriter) : Call → CallResult → Prop
  | .tryAcquire, .acquired error => ∀ reason, error = some reason → w.AcquireReason w' reason
  | .fill _ _ _, .filled => w.slotAcquired = true
  | .publish target, .published (some error) => w.PublishReason w' target error
  | .publish _, .published none =>
      w.slotAcquired = true ∧ validBatch w.producerSlot.batch w.output.mode = true
  | .cancel, .cancelled => True
  | .shouldPause, .shouldPause answer => answer = false → w'.Within pauseSlots pauseBytes
  | .belowResumeWatermark, .belowResumeWatermark answer =>
      answer = true → w'.Within resumeSlots resumeBytes
  | .armResumeNotification, .armed => True
  | .failed, .failed answer => answer = true → w'.writerFailed = true
  | .close, .closed => True
  | .join, .joined result => w'.writerPc = .done ∧ result = w'.finalResult
  | _, _ => False

/-! ## The writer thread -/

/-- What any number of steps of the writer thread leave as it was, and what they add. -/
structure Later (w w' : CsvWriter) : Prop where
  view : w'.view = w.view
  slotAcquired : w'.slotAcquired = w.slotAcquired
  outcome : w'.outcome = w.outcome
  producerPc : w'.producerPc = w.producerPc
  released : w.releasedSequence ≤ w'.releasedSequence
  bytesReleased : w.bytesReleased ≤ w'.bytesReleased
  failed : w.writerFailed = true → w'.writerFailed = true
  mode : w'.output.mode = w.output.mode
  targets : w'.output.targets.length = w.output.targets.length
  running : w.writerPc ≠ .done

variable {w w' : CsvWriter} {input : WriterInput}

/-- The only slot that the writer thread writes is the one it takes. -/
theorem writerStep_slots (hcontrol : w.Control) (hs : w.writerStep input = some w') :
    w'.slots = w.slots ∨ w.consumerSequence < w.publishedSequence ∧
      ∃ slot, w'.slots = Function.update w.slots w.consumerIndex slot := by
  have hloaded := hcontrol.loaded
  have htaking := hcontrol.taking
  unfold writerStep at hs
  cases hpc : w.writerPc <;> simp only [hpc] at hs hloaded htaking
  case releaseBytes use =>
    cases hs
    exact .inr ⟨(htaking _ rfl).trans_le (hloaded _ rfl), _, rfl⟩
  case resumeExchange =>
    cases hs
    split <;> exact .inl rfl
  case ageFlush =>
    split at hs
    · split at hs <;> cases hs <;> exact .inl rfl
    · cases hs
      exact .inl rfl
  case drain => split_ifs at hs <;> cases hs <;> exact .inl rfl
  all_goals
    (try split at hs) <;> cases hs
    all_goals exact .inl rfl

theorem writerStep_writerFailed (hs : w.writerStep input = some w') (hfailed : w.writerFailed = true) :
    w'.writerFailed = true := by
  unfold writerStep at hs
  cases hpc : w.writerPc <;> simp only [hpc] at hs
  case resumeExchange =>
    cases hs
    split <;> exact hfailed
  case ageFlush =>
    split at hs
    · split at hs <;> cases hs <;> exact hfailed
    · cases hs
      exact hfailed
  case drain => split_ifs at hs <;> cases hs <;> exact hfailed
  case latchFailed =>
    cases hs
    rfl
  all_goals
    (try split at hs) <;> cases hs
    all_goals exact hfailed

theorem writerStep_output (hinv : w.Inv) (hs : w.writerStep input = some w') :
    w'.output.mode = w.output.mode ∧ w'.output.targets.length = w.output.targets.length := by
  have hready := hinv.delivery.ready
  unfold writerStep at hs
  cases hpc : w.writerPc <;> simp only [hpc] at hs hready
  case write =>
    cases hs
    have hwrote := CsvOutputSet.writeBatch_wrote (hready rfl) input.answers
      w.consumerSlot.targetIndex w.consumerSlot.batch
    exact ⟨hwrote.mode, hwrote.length⟩
  case resumeExchange =>
    cases hs
    split <;> exact ⟨rfl, rfl⟩
  case ageFlush =>
    have hpassed := (CsvOutputSet.flushAll_passed (hready rfl) input.answers).2
    split at hs
    · split at hs <;> cases hs <;> exact ⟨hpassed.mode, hpassed.length⟩
    · cases hs
      exact ⟨rfl, rfl⟩
  case closing =>
    have hpassed := CsvOutputSet.closeAll_passed (hready rfl) input.answers
    split at hs <;> cases hs <;> exact ⟨hpassed.mode, hpassed.length⟩
  case drain => split_ifs at hs <;> cases hs <;> exact ⟨rfl, rfl⟩
  all_goals
    (try split at hs) <;> cases hs
    all_goals exact ⟨rfl, rfl⟩

/-- The slot that the producer holds is not the one that the writer thread takes. -/
theorem Inv.writerStep_held (hinv : w.Inv) (hs : w.writerStep input = some w')
    (hslot : w.slotAcquired = true) : w'.producerSlot = w.producerSlot := by
  have hframe := writerStep_frame hs
  have hindex : w'.producerIndex = w.producerIndex := by
    rw [producerIndex, hframe.producerSequence, producerIndex]
  rw [producerSlot, hindex, producerSlot]
  rcases writerStep_slots hinv.queue.control hs with heq | ⟨hlt, slot, heq⟩
  · rw [heq]
  · rw [heq, Function.update_of_ne]
    intro hsame
    have hreleased : w.releasedSequence ≤ w.consumerSequence := hinv.queue.ring.released_le
    have hproduced : w.producerSequence = w.history.log.length := hinv.queue.ring.produced
    have hpublished : w.publishedSequence ≤ w.producerSequence := hinv.queue.ring.published_le
    have hout := hinv.held_slot hslot w.consumerSequence (by omega) hsame.symm
    omega

theorem Inv.later (hinv : w.Inv) (hs : w.writerStep input = some w') : Later w w' := by
  have hframe := writerStep_frame hs
  have hreleased : w.releasedSequence ≤ w'.releasedSequence ∧ w.bytesReleased ≤ w'.bytesReleased := by
    rcases writerStep_follows hinv.queue.control hs with heq | hstep
    · exact ⟨(congrArg Ring.State.released heq).symm.le,
        (congrArg Ring.State.releasedWeight heq).symm.le⟩
    · exact hinv.queue.ring.released_mono hstep
  obtain ⟨hmode, htargets⟩ := writerStep_output hinv hs
  refine ⟨?_, hframe.slotAcquired, hframe.outcome, hframe.producerPc, hreleased.1, hreleased.2,
    writerStep_writerFailed hs, hmode, htargets, fun hdone => by simp [writerStep, hdone] at hs⟩
  have hheld : (if w'.slotAcquired then some w'.producerSlot.batch else none) =
      if w.slotAcquired then some w.producerSlot.batch else none := by
    rw [hframe.slotAcquired]
    split
    · next hslot => rw [hinv.writerStep_held hs hslot]
    · rfl
  simp only [view, hheld, hframe.producerSequence, hframe.producerBytes, hframe.auditRowsPublished,
    hframe.orderBookRowsPublished, hframe.closeRequested]

theorem Later.within (h : Later w w') {slots bytes : Nat} (hwithin : w.Within slots bytes) :
    w'.Within slots bytes := by
  have hsequence : w'.producerSequence = w.producerSequence := congrArg ProducerView.sequence h.view
  have hbytes : w'.producerBytes = w.producerBytes := congrArg ProducerView.bytes h.view
  have hreleased := h.released
  have hbytesReleased := h.bytesReleased
  obtain ⟨hslots, hsize⟩ := hwithin
  exact ⟨by omega, by omega⟩

/-- What an answer tells stays true while the writer thread runs on. -/
theorem Later.answers {s s' : CsvWriter} (h : Later s s') {c : Call} {result : CallResult}
    (hanswers : w.Answers s c result) : w.Answers s' c result := by
  unfold Answers at hanswers ⊢
  split at hanswers
  · intro reason hreason
    have hold := hanswers reason hreason
    cases reason with
    | failed => exact h.failed hold
    | _ => exact hold
  · exact hanswers
  · next error =>
      cases error with
      | failed => exact h.failed hanswers
      | _ => exact hanswers
  · exact hanswers
  · trivial
  · exact fun hfalse => h.within (hanswers hfalse)
  · exact fun htrue => h.within (hanswers htrue)
  · trivial
  · exact fun htrue => h.failed (hanswers htrue)
  · trivial
  · exact absurd hanswers.1 h.running
  · exact hanswers

/-! ## Calls -/

/-- The batch of `w` is entered in `s`. -/
def Entered (w s : CsvWriter) : Prop :=
  (w.slotAcquired = true ∧ validBatch w.producerSlot.batch w.output.mode = true) ∧
    s.view = w.view.entered w.producerSlot.batch

/-- Where a call of `w` that reads the occupancy has come to. -/
def Reading (w : CsvWriter) (c : Call) (s : CsvWriter) : OccupancyUse → Prop
  | .highWater => ∃ target, c = .publish target ∧ w.Entered s
  | .pause => c = .shouldPause ∧ s.view = w.view
  | .below => c = .belowResumeWatermark ∧ s.view = w.view
  | .resume => c = .armResumeNotification ∧ s.view = w.view

/-- Where a call of `w` has come to when the producer is at a place in `s`. -/
def Reached (w : CsvWriter) (c : Call) (s : CsvWriter) : ProducerPc → Prop
  | .idle => ∀ result, s.outcome = some result →
      s.view = w.view.after (c, result) ∧ w.Answers s c result
  | .acquireClosed | .acquireFailed | .acquireReleased => c = .tryAcquire ∧ s.view = w.view
  | .publishStart target | .publishClosed target | .publishFailed target =>
      c = .publish target ∧ s.view = w.view
  | .publishBytes target =>
      c = .publish target ∧ s.view = w.view ∧ validBatch w.producerSlot.batch w.output.mode = true
  | .publishReject error =>
      ∃ target, c = .publish target ∧ s.view = w.view ∧ w.PublishReason s target error
  | .occupancyReleased use => w.Reading c s use
  | .occupancyBytes use released => w.Reading c s use ∧ released ≤ s.releasedSequence
  | .occupancyOverflow use released releasedBytes =>
      w.Reading c s use ∧ released ≤ s.releasedSequence ∧ releasedBytes ≤ s.bytesReleased
  | .publishStoreBytes | .publishStoreSequence | .publishClear | .publishNotify =>
      ∃ target, c = .publish target ∧ w.Entered s
  | .armClosed | .armFailed | .armStore | .armExchange =>
      c = .armResumeNotification ∧ s.view = w.view
  | .failedLoad => c = .failed ∧ s.view = w.view
  | .closeStore join => c = (if join then .join else .close) ∧ s.view = w.view.dropped
  | .joinWait => c = .join ∧ s.view = { w.view.dropped with closed := true }

/-- The call `c` of `w` is under way, or over, in `s`. -/
structure Serving (w : CsvWriter) (c : Call) (s : CsvWriter) : Prop where
  reached : w.Reached c s s.producerPc
  released : w.releasedSequence ≤ s.releasedSequence
  bytesReleased : w.bytesReleased ≤ s.bytesReleased
  mode : s.output.mode = w.output.mode
  targets : s.output.targets.length = w.output.targets.length

theorem Later.publishReason {s s' : CsvWriter} (h : Later s s') {target : Nat}
    {error : CsvWriterPublishError} (hreason : w.PublishReason s target error) :
    w.PublishReason s' target error := by
  cases error with
  | failed => exact h.failed hreason
  | _ => exact hreason

theorem Later.entered {s s' : CsvWriter} (h : Later s s') (hentered : w.Entered s) :
    w.Entered s' := ⟨hentered.1, h.view.trans hentered.2⟩

theorem Later.reading {s s' : CsvWriter} (h : Later s s') {c : Call} {use : OccupancyUse}
    (hreading : w.Reading c s use) : w.Reading c s' use := by
  cases use with
  | highWater =>
      obtain ⟨target, rfl, hentered⟩ := hreading
      exact ⟨target, rfl, h.entered hentered⟩
  | _ => exact ⟨hreading.1, h.view.trans hreading.2⟩

/-- The writer thread takes nothing from a call under way. -/
theorem Serving.later {s s' : CsvWriter} {c : Call} (h : w.Serving c s) (hlater : Later s s') :
    w.Serving c s' := by
  refine ⟨?_, h.released.trans hlater.released, h.bytesReleased.trans hlater.bytesReleased,
    hlater.mode.trans h.mode, hlater.targets.trans h.targets⟩
  have hreached := h.reached
  rw [hlater.producerPc]
  cases hpc : s.producerPc <;> simp only [hpc] at hreached
  case idle =>
    intro result hresult
    obtain ⟨hview, hanswers⟩ := hreached result (hlater.outcome ▸ hresult)
    exact ⟨hlater.view.trans hview, hlater.answers hanswers⟩
  case publishBytes => exact ⟨hreached.1, hlater.view.trans hreached.2.1, hreached.2.2⟩
  case publishReject =>
    obtain ⟨target, rfl, hview, hreason⟩ := hreached
    exact ⟨target, rfl, hlater.view.trans hview, hlater.publishReason hreason⟩
  case occupancyReleased => exact hlater.reading hreached
  case occupancyBytes => exact ⟨hlater.reading hreached.1, hreached.2.trans hlater.released⟩
  case occupancyOverflow =>
    exact ⟨hlater.reading hreached.1, hreached.2.1.trans hlater.released,
      hreached.2.2.trans hlater.bytesReleased⟩
  case publishStoreBytes | publishStoreSequence | publishClear | publishNotify =>
    obtain ⟨target, rfl, hentered⟩ := hreached
    exact ⟨target, rfl, hlater.entered hentered⟩
  all_goals exact ⟨hreached.1, hlater.view.trans hreached.2⟩

theorem cancel_view (memory : MemoryAnswers) (w : CsvWriter) :
    (w.cancel memory).view = w.view.dropped := by
  unfold cancel
  split
  · rfl
  · next hslot => simp [view, ProducerView.dropped, hslot]

/-- A call that has only begun. -/
theorem call_serving {memory : MemoryAnswers} {c : Call} {s : CsvWriter}
    (hs : w.call memory c = some s) : w.Serving c s := by
  have hframe := call_frame hs
  refine ⟨?_, hframe.releasedSequence.ge, hframe.bytesReleased.ge, by rw [hframe.output],
    by rw [hframe.output]⟩
  have hcancel := cancel_view memory w
  -- the calls that are over at once answer here
  have returned : ∀ {t : CsvWriter} {result : CallResult}, t.view = w.view.after (c, result) →
      w.Answers (t.returns result) c result → w.Reached c (t.returns result) .idle := by
    intro t result hview hanswers result' hresult
    obtain rfl := Option.some.inj hresult
    exact ⟨hview, hanswers⟩
  cases c <;> simp only [call] at hs
  case tryAcquire =>
    split at hs <;> cases hs
    · next hslot =>
        refine returned rfl ?_
        rintro reason ⟨⟩
        exact hslot
    · exact ⟨rfl, rfl⟩
  case fill batch auditExcess orderBookExcess =>
    split at hs <;> cases hs
    next hslot =>
      refine returned ?_ hslot
      simp [view, ProducerView.after, setProducerSlot, producerSlot, producerIndex, hslot]
  case publish target =>
    split at hs <;> cases hs
    · exact ⟨rfl, rfl⟩
    · next hslot =>
        refine returned ?_ (Bool.eq_false_iff.mpr hslot)
        simp [view, ProducerView.after, ProducerView.dropped, hslot]
  case cancel =>
    cases hs
    exact returned hcancel trivial
  case armResumeNotification =>
    split at hs <;> cases hs
    · exact ⟨rfl, rfl⟩
    · exact returned rfl trivial
  case close | join =>
    cases hs
    exact ⟨rfl, hcancel⟩
  all_goals
    cases hs
    exact ⟨rfl, rfl⟩

/-- The same view has the same batch in the slot. -/
theorem view_slot {s : CsvWriter} (hview : s.view = w.view) :
    s.slotAcquired = w.slotAcquired ∧
      (s.slotAcquired = true → s.producerSlot.batch = w.producerSlot.batch) := by
  have hheld := congrArg ProducerView.held hview
  simp only [view] at hheld
  cases hs : s.slotAcquired <;> cases hw : w.slotAcquired <;> simp_all

/-- The commit of `publish` enters the batch, or says why not. -/
theorem publishBatch_reached {s : CsvWriter} {target : Nat} (hinv : s.Inv)
    (hpc : s.producerPc = .publishBytes target) (h : w.Serving (.publish target) s) :
    w.Reached (.publish target) (s.publishBatch target) (s.publishBatch target).producerPc := by
  have hreached := h.reached
  rw [hpc] at hreached
  obtain ⟨-, hview, hvalid⟩ := hreached
  have hslot : s.slotAcquired = true := hinv.queue.control.holds true (by rw [hpc]; rfl)
  obtain ⟨hsame, hbatch⟩ := view_slot hview
  have hbatch := hbatch hslot
  have hoccupied : wrappingSub s.producerBytes s.bytesReleased = s.producerBytes - s.bytesReleased :=
    wrappingSub_eq hinv.queue.ring.releasedWeight_le hinv.queue.ring.weightLimit
  simp only [publishBatch, hoccupied]
  split
  · next hfull =>
      refine ⟨target, rfl, hview, ?_⟩
      have hbytes : s.producerBytes = w.producerBytes := congrArg ProducerView.bytes hview
      have hreleased := h.bytesReleased
      rw [hbatch] at hfull
      show csvWriterByteCapacity < batchBytes w.producerSlot.batch + (w.producerBytes - w.bytesReleased)
      omega
  · split
    · next hsequence hbytes _ _ =>
        obtain ⟨rfl, -⟩ := checkedAdd_some hinv.queue.ring.producedLimit hsequence
        obtain ⟨rfl, -⟩ := checkedAdd_some hinv.queue.ring.weightLimit hbytes
        refine ⟨target, rfl, ⟨hsame.symm.trans hslot, hvalid⟩, ?_⟩
        rw [← hview, ← hbatch]
        rfl
    · exact ⟨target, rfl, hview, trivial⟩

/-- The occupancy that a call has read bounds what is out. -/
theorem within_of_occupancy {s : CsvWriter} {released releasedBytes releasedOverflow slots bytes : Nat}
    (hreleased : released ≤ s.releasedSequence) (hbytes : releasedBytes ≤ s.bytesReleased)
    (hslots : (s.occupancy released releasedBytes releasedOverflow).slots < slots)
    (hsize : (s.occupancy released releasedBytes releasedOverflow).logicalBytes < bytes) :
    s.Within slots bytes := by
  simp only [occupancy] at hslots hsize
  exact ⟨by omega, by omega⟩

theorem useOccupancy_reached {s : CsvWriter} {c : Call} {use : OccupancyUse}
    {released releasedBytes : Nat} (hreading : w.Reading c s use)
    (hreleased : released ≤ s.releasedSequence) (hbytes : releasedBytes ≤ s.bytesReleased) :
    w.Reached c (s.useOccupancy use (s.occupancy released releasedBytes s.overflowBytesReleased))
      (s.useOccupancy use
        (s.occupancy released releasedBytes s.overflowBytesReleased)).producerPc := by
  cases use with
  | highWater => exact hreading
  | pause =>
      obtain ⟨rfl, hview⟩ := hreading
      rintro result ⟨⟩
      refine ⟨hview, fun hfalse => ?_⟩
      simp only [shouldPause, Bool.or_eq_false_iff, decide_eq_false_iff_not, ge_iff_le,
        Nat.not_le] at hfalse
      exact within_of_occupancy hreleased hbytes hfalse.1 hfalse.2
  | below =>
      obtain ⟨rfl, hview⟩ := hreading
      rintro result ⟨⟩
      refine ⟨hview, fun htrue => ?_⟩
      simp only [belowResumeWatermark, Bool.and_eq_true, decide_eq_true_eq] at htrue
      exact within_of_occupancy hreleased hbytes htrue.1 htrue.2
  | resume =>
      obtain ⟨rfl, hview⟩ := hreading
      simp only [useOccupancy]
      split
      · exact ⟨rfl, hview⟩
      · rintro result ⟨⟩
        exact ⟨hview, trivial⟩

/-- Each atomic operation of a call brings it further. -/
theorem producerStep_reached {memory : MemoryAnswers} {s s' : CsvWriter} {c : Call} (hinv : s.Inv)
    (h : w.Serving c s) (hs : s.producerStep memory = some s') : w.Reached c s' s'.producerPc := by
  have hreached := h.reached
  have hholds := hinv.queue.control.holds
  unfold producerStep at hs
  cases hpc : s.producerPc <;> simp only [hpc] at hs hreached hholds
  case idle => cases hs
  case acquireClosed =>
    obtain ⟨rfl, hview⟩ := hreached
    split at hs <;> cases hs
    · next hclosed =>
        rintro result ⟨⟩
        refine ⟨hview, ?_⟩
        rintro reason ⟨⟩
        exact (congrArg ProducerView.closed hview).symm.trans hclosed
    · exact ⟨rfl, hview⟩
  case acquireFailed =>
    obtain ⟨rfl, hview⟩ := hreached
    split at hs <;> cases hs
    · next hfailed =>
        rintro result ⟨⟩
        refine ⟨hview, ?_⟩
        rintro reason ⟨⟩
        exact hfailed
    · exact ⟨rfl, hview⟩
  case acquireReleased =>
    obtain ⟨rfl, hview⟩ := hreached
    have hsequence : s.producerSequence = w.producerSequence :=
      congrArg ProducerView.sequence hview
    have hfree : wrappingSub s.producerSequence s.releasedSequence =
        s.producerSequence - s.releasedSequence :=
      wrappingSub_eq (hinv.queue.ring.released_le.trans
        (hinv.queue.ring.consumed.trans hinv.queue.ring.published_le)) hinv.queue.ring.producedLimit
    rw [hfree] at hs
    split at hs <;> cases hs
    · next hfull =>
        rintro result ⟨⟩
        refine ⟨hview, ?_⟩
        rintro reason ⟨⟩
        have hreleased := h.released
        show csvWriterSlotCount ≤ w.producerSequence - w.releasedSequence
        omega
    · rintro result ⟨⟩
      refine ⟨?_, by rintro reason ⟨⟩⟩
      rw [← hview]
      simp [view, ProducerView.after, returns, setProducerSlot, producerSlot, producerIndex,
        Slot.clear]
  case publishStart target =>
    cases hs
    exact hreached
  case publishClosed target =>
    obtain ⟨rfl, hview⟩ := hreached
    split at hs <;> cases hs
    · next hclosed =>
        exact ⟨target, rfl, hview, (congrArg ProducerView.closed hview).symm.trans hclosed⟩
    · exact ⟨rfl, hview⟩
  case publishFailed target =>
    obtain ⟨rfl, hview⟩ := hreached
    have hbatch := (view_slot hview).2 (hholds true rfl)
    split_ifs at hs with hfailed htarget hvalid <;> cases hs
    · exact ⟨target, rfl, hview, hfailed⟩
    · exact ⟨target, rfl, hview, h.targets.symm.trans_le htarget⟩
    · rw [hbatch, h.mode, Bool.not_eq_true'] at hvalid
      exact ⟨target, rfl, hview, hvalid⟩
    · rw [hbatch, h.mode, Bool.not_eq_true', Bool.not_eq_false] at hvalid
      exact ⟨rfl, hview, hvalid⟩
  case publishBytes target =>
    obtain ⟨rfl, -⟩ := hreached
    cases hs
    exact publishBatch_reached hinv hpc h
  case publishReject error =>
    obtain ⟨target, rfl, hview, hreason⟩ := hreached
    cases hs
    rintro result ⟨⟩
    refine ⟨?_, ?_⟩
    · rw [← hview]
      rfl
    · cases error <;> exact hreason
  case occupancyReleased use =>
    cases hs
    refine ⟨?_, Nat.le_refl _⟩
    cases use <;> exact hreached
  case occupancyBytes use released =>
    cases hs
    refine ⟨?_, hreached.2, Nat.le_refl _⟩
    cases use <;> exact hreached.1
  case occupancyOverflow use released releasedBytes =>
    cases hs
    exact useOccupancy_reached hreached.1 hreached.2.1 hreached.2.2
  case publishStoreBytes | publishStoreSequence | publishClear =>
    cases hs
    exact hreached
  case publishNotify =>
    obtain ⟨target, rfl, hheld, hview⟩ := hreached
    cases hs
    rintro result ⟨⟩
    refine ⟨?_, hheld⟩
    have hafter : w.view.after (.publish target, .published none) =
        w.view.entered w.producerSlot.batch := by
      simp [ProducerView.after, view, hheld.1]
    exact hview.trans hafter.symm
  case armClosed | armFailed =>
    obtain ⟨rfl, hview⟩ := hreached
    split at hs <;> cases hs
    · rintro result ⟨⟩
      exact ⟨hview, trivial⟩
    · exact ⟨rfl, hview⟩
  case armStore =>
    cases hs
    exact hreached
  case armExchange =>
    obtain ⟨rfl, hview⟩ := hreached
    cases hs
    split <;> (rintro result ⟨⟩; exact ⟨hview, trivial⟩)
  case failedLoad =>
    obtain ⟨rfl, hview⟩ := hreached
    cases hs
    rintro result ⟨⟩
    exact ⟨hview, id⟩
  case closeStore join =>
    obtain ⟨hcall, hview⟩ := hreached
    have hclosed : ({ s with closeRequested := true } : CsvWriter).view =
        { w.view.dropped with closed := true } := by
      rw [← hview]
      rfl
    split at hs <;> cases hs
    · next hjoin =>
        rw [if_pos hjoin] at hcall
        exact ⟨hcall, hclosed⟩
    · next hjoin =>
        rw [if_neg hjoin] at hcall
        subst hcall
        rintro result ⟨⟩
        exact ⟨hclosed, trivial⟩
  case joinWait =>
    obtain ⟨rfl, hview⟩ := hreached
    split at hs <;> cases hs
    next hdone =>
      rintro result ⟨⟩
      exact ⟨hview, hdone, rfl⟩

theorem Serving.producer {memory : MemoryAnswers} {s s' : CsvWriter} {c : Call} (hinv : s.Inv)
    (h : w.Serving c s) (hs : s.producerStep memory = some s') : w.Serving c s' := by
  have hframe := producerStep_frame hs
  exact ⟨producerStep_reached hinv h hs, h.released.trans hframe.releasedSequence.ge,
    h.bytesReleased.trans hframe.bytesReleased.ge, by rw [hframe.output]; exact h.mode,
    by rw [hframe.output]; exact h.targets⟩

/-! ## Sequences of calls -/

/-- A call goes on, and the writer thread with it. -/
inductive Underway (entered : CsvWriter) : CsvWriter → Prop
  | entry : Underway entered entered
  | producer {s s' : CsvWriter} {memory : MemoryAnswers} : Underway entered s →
      s.producerStep memory = some s' → Underway entered s'
  | writer {s s' : CsvWriter} {input : WriterInput} : Underway entered s →
      s.writerStep input = some s' → Underway entered s'

/-- The calls, with what they returned, lead from `first` to `w`. -/
inductive Served (first : CsvWriter) : List (Call × CallResult) → CsvWriter → Prop
  | start : Served first [] first
  | writer {calls : List (Call × CallResult)} {w w' : CsvWriter} {input : WriterInput} :
      Served first calls w → w.writerStep input = some w' → Served first calls w'
  | call {calls : List (Call × CallResult)} {w entered w' : CsvWriter} {c : Call}
      {memory : MemoryAnswers} {result : CallResult} : Served first calls w →
      w.step (.call c memory) = some entered → Underway entered w' → w'.producerPc = .idle →
      w'.outcome = some result → Served first (calls ++ [(c, result)]) w'

theorem Underway.reachable {entered s : CsvWriter} (h : Underway entered s)
    (hentered : Transition.Reachable system entered) : Transition.Reachable system s := by
  induction h with
  | entry => exact hentered
  | producer _ hs ih => exact ih.step (a := .producer _) hs
  | writer _ hs ih => exact ih.step (a := .writer _) hs

theorem Underway.serving {entered s : CsvWriter} {c : Call} (h : Underway entered s)
    (hreachable : Transition.Reachable system entered) (hentered : w.Serving c entered) :
    w.Serving c s := by
  induction h with
  | entry => exact hentered
  | producer hold hs ih => exact ih.producer (inv_of_reachable (hold.reachable hreachable)) hs
  | writer hold hs ih =>
      exact ih.later ((inv_of_reachable (hold.reachable hreachable)).later hs)

section Sequences

variable {first : CsvWriter} {calls : List (Call × CallResult)}

theorem Served.reachable (h : Served first calls w) (hfirst : system.init first) :
    Transition.Reachable system w := by
  induction h with
  | start => exact .of_init hfirst
  | writer _ hs ih => exact ih.step (a := .writer _) hs
  | call _ hs hunderway _ _ ih => exact hunderway.reachable (ih.step hs)

theorem Served.trans {calls' : List (Call × CallResult)} (h : Served first calls w)
    (h' : Served w calls' w') : Served first (calls ++ calls') w' := by
  induction h' with
  | start => rwa [List.append_nil]
  | writer _ hs ih => exact ih.writer hs
  | call _ hs hunderway hidle hresult ih =>
      rw [← List.append_assoc]
      exact ih.call hs hunderway hidle hresult

/-- The last call of a sequence. -/
theorem Served.last {c : Call} {result : CallResult} (h : Served first (calls ++ [(c, result)]) w)
    (hfirst : system.init first) : ∃ w₀, Served first calls w₀ ∧ w₀.Serving c w ∧
      w.view = w₀.view.after (c, result) ∧ w₀.Answers w c result := by
  generalize hall : calls ++ [(c, result)] = all at h
  induction h with
  | start => simp at hall
  | writer hserved hs ih =>
      obtain ⟨w₀, hw₀, hserving, hview, hanswers⟩ := ih hall
      have hlater := (inv_of_reachable (hserved.reachable hfirst)).later hs
      exact ⟨w₀, hw₀, hserving.later hlater, hlater.view.trans hview, hlater.answers hanswers⟩
  | call hserved hs hunderway hidle hresult =>
      obtain ⟨rfl, hlast⟩ := List.append_inj' hall rfl
      obtain ⟨rfl, rfl⟩ := Prod.mk.inj (List.cons.inj hlast).1
      have hreachable := hserved.reachable hfirst
      have hcall := hs
      simp only [step] at hcall
      split at hcall
      · have hserving := hunderway.serving (hreachable.step hs) (call_serving hcall)
        have hreached := hserving.reached
        rw [hidle] at hreached
        obtain ⟨hview, hanswers⟩ := hreached _ hresult
        exact ⟨_, hserved, hserving, hview, hanswers⟩
      · cases hcall

/-- The producer's view depends on the calls and their results alone. -/
theorem Served.view_eq (h : Served first calls w) (hfirst : system.init first) :
    w.view = calls.foldl ProducerView.after first.view := by
  induction calls using List.reverseRecOn generalizing w with
  | nil =>
      generalize hnone : ([] : List (Call × CallResult)) = calls at h
      induction h with
      | start => rfl
      | writer hserved hs ih =>
          exact ((inv_of_reachable (hserved.reachable hfirst)).later hs).view.trans (ih hnone)
      | call => simp at hnone
  | append_singleton calls entry ih =>
      obtain ⟨w₀, hw₀, -, hview, -⟩ := h.last hfirst
      rw [hview, ih hw₀, List.foldl_append, List.foldl_cons, List.foldl_nil]

/-- Any first part of the calls was served before. -/
theorem Served.initial {calls' : List (Call × CallResult)}
    (h : Served first (calls ++ calls') w) (hfirst : system.init first) :
    ∃ w₀, Served first calls w₀ := by
  induction calls' using List.reverseRecOn generalizing w with
  | nil => exact ⟨w, by rwa [List.append_nil] at h⟩
  | append_singleton calls' entry ih =>
      rw [← List.append_assoc] at h
      obtain ⟨w₀, hw₀, -⟩ := h.last hfirst
      exact ih hw₀

/-- The files stay those of the targets. -/
theorem Served.output (h : Served first calls w) (hfirst : system.init first) :
    w.output.mode = first.output.mode ∧
      w.output.targets.length = first.output.targets.length := by
  induction calls using List.reverseRecOn generalizing w with
  | nil =>
      generalize hnone : ([] : List (Call × CallResult)) = calls at h
      induction h with
      | start => exact ⟨rfl, rfl⟩
      | writer hserved hs ih =>
          have hlater := (inv_of_reachable (hserved.reachable hfirst)).later hs
          exact ⟨hlater.mode.trans (ih hnone).1, hlater.targets.trans (ih hnone).2⟩
      | call => simp at hnone
  | append_singleton calls entry ih =>
      obtain ⟨w₀, hw₀, hserving, -⟩ := h.last hfirst
      exact ⟨hserving.mode.trans (ih hw₀).1, hserving.targets.trans (ih hw₀).2⟩

/-- What `join` returned is the final result, whatever is called afterwards. -/
theorem Served.joined (h : Served first calls w) (hfirst : system.init first)
    {result : CsvWriterResult} (hjoined : (.join, .joined result) ∈ calls) :
    w.writerPc = .done ∧ result = w.finalResult := by
  -- a writer that is done stays as it is: only the producer moves
  have still : ∀ {entered s : CsvWriter}, Underway entered s → entered.writerPc = .done ∧
      result = entered.finalResult → s.writerPc = .done ∧ result = s.finalResult := by
    intro entered s hunderway hdone
    induction hunderway with
    | entry => exact hdone
    | producer _ hs ih =>
        have hframe := producerStep_frame hs
        rw [hframe.writerPc, hframe.finalResult]
        exact ih
    | writer _ hs ih => simp [writerStep, ih.1] at hs
  induction h with
  | start => cases hjoined
  | writer _ hs ih => simp [writerStep, (ih hjoined).1] at hs
  | call hserved hs hunderway hidle hresult ih =>
      rcases List.mem_append.mp hjoined with hold | hnew
      · have hdone := ih hold
        simp only [step] at hs
        split at hs
        · have hframe := call_frame hs
          refine still hunderway ?_
          rw [hframe.writerPc, hframe.finalResult]
          exact hdone
        · cases hs
      · obtain ⟨rfl, rfl⟩ := Prod.mk.inj (List.mem_singleton.mp hnew)
        obtain ⟨w₀, hw₀, hserving, hview, hanswers⟩ :=
          (hserved.call hs hunderway hidle hresult).last hfirst
        exact hanswers

end Sequences

/-- A final result without rows unwritten has written what was published. -/
theorem Inv.written (h : w.Inv) (hdone : w.writerPc = .done)
    (haudit : w.finalResult.metrics.auditRowsUnwritten = 0)
    (hbook : w.finalResult.metrics.orderBookRowsUnwritten = 0) :
    w.finalResult.metrics.auditRowsWritten = w.finalResult.metrics.auditRowsPublished ∧
      w.finalResult.metrics.orderBookRowsWritten =
        w.finalResult.metrics.orderBookRowsPublished := by
  have hfinal := h.result.final hdone
  have hhanded := (h.drained hdone).2.2
  obtain ⟨hauditLe, hbookLe⟩ := CsvOutputSet.metrics_le w.output
  have hauditTotal := h.delivery.auditTotal
  have hbookTotal := h.delivery.orderBookTotal
  rw [hhanded, Ring.total_length] at hauditTotal hbookTotal
  rw [hfinal.auditUnwritten] at haudit
  rw [hfinal.orderBookUnwritten] at hbook
  rw [hfinal.auditWritten, hfinal.auditPublished, hfinal.orderBookWritten, hfinal.orderBookPublished]
  have hauditCount := h.counts.audit
  have hbookCount := h.counts.orderBook
  exact ⟨by omega, by omega⟩

/-! ### Calls that run undisturbed -/

/-- A call runs to its end; the writer thread moves only when the call waits for it. -/
def conclude : Nat → CsvWriter → Option CsvWriter
  | 0, _ => none
  | fuel + 1, w =>
      if w.producerPc = .idle then some w
      else
        match w.producerStep {} with
        | some w' => conclude fuel w'
        | none => (w.writerStep {}).bind (conclude fuel)

/-- The calls one after the other, each with the result it has to return. -/
def serve (fuel : Nat) : List (Call × CallResult) → CsvWriter → Option CsvWriter
  | [], w => some w
  | (c, result) :: calls, w =>
      (w.step (.call c {})).bind fun entered =>
        (conclude fuel entered).bind fun w' =>
          if w'.outcome = some result then serve fuel calls w' else none

theorem underway_of_conclude {fuel : Nat} {entered s : CsvWriter} (hs : Underway entered s)
    (h : conclude fuel s = some w) : Underway entered w ∧ w.producerPc = .idle := by
  induction fuel generalizing s with
  | zero => cases h
  | succ fuel ih =>
      simp only [conclude] at h
      split at h
      · next hidle =>
          obtain rfl := Option.some.inj h
          exact ⟨hs, hidle⟩
      · split at h
        · next hstep => exact ih (hs.producer hstep) h
        · obtain ⟨t, hstep, h⟩ := Option.bind_eq_some_iff.mp h
          exact ih (hs.writer hstep) h

theorem served_of_serve {fuel : Nat} {calls : List (Call × CallResult)} {first : CsvWriter}
    {done : List (Call × CallResult)} (hdone : Served first done w)
    (h : serve fuel calls w = some w') : Served first (done ++ calls) w' := by
  induction calls generalizing w done with
  | nil =>
      obtain rfl := Option.some.inj h
      rwa [List.append_nil]
  | cons entry calls ih =>
      obtain ⟨c, result⟩ := entry
      obtain ⟨entered, hcall, h⟩ := Option.bind_eq_some_iff.mp h
      obtain ⟨next, hconclude, h⟩ := Option.bind_eq_some_iff.mp h
      split at h
      · next hresult =>
          obtain ⟨hunderway, hidle⟩ := underway_of_conclude .entry hconclude
          rw [List.append_cons]
          exact ih (hdone.call hcall hunderway hidle hresult) h
      · cases h

end CsvWriter

end MarketCapture
