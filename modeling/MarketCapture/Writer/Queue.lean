import MarketCapture.Lib.Ring
import MarketCapture.Writer.CsvWriter

/-! # The queue as a ring -/

namespace MarketCapture

namespace CsvWriter

/-- What the steps of the producer leave alone. -/
structure ProducerFrame (s s' : CsvWriter) : Prop where
  output : s'.output = s.output
  notifications : s'.notifications = s.notifications
  writerPc : s'.writerPc = s.writerPc
  releasedSequence : s'.releasedSequence = s.releasedSequence
  bytesReleased : s'.bytesReleased = s.bytesReleased
  consumerSequence : s'.consumerSequence = s.consumerSequence
  consumerBytes : s'.consumerBytes = s.consumerBytes
  writerFailed : s'.writerFailed = s.writerFailed
  failureNotificationSent : s'.failureNotificationSent = s.failureNotificationSent
  finalResult : s'.finalResult = s.finalResult
  freed : s'.history.freed = s.history.freed
  failureNotifications : s'.history.failureNotifications = s.history.failureNotifications
  errors : s'.history.errors = s.history.errors
  latchReturned : s'.history.latchReturned = s.history.latchReturned

/-- What the entry into a call leaves alone besides. -/
structure CallFrame (s s' : CsvWriter) : Prop extends ProducerFrame s s' where
  publishedSequence : s'.publishedSequence = s.publishedSequence
  bytesPublished : s'.bytesPublished = s.bytesPublished
  closeRequested : s'.closeRequested = s.closeRequested
  publishActive : s'.publishActive = s.publishActive
  resumeNotificationArmed : s'.resumeNotificationArmed = s.resumeNotificationArmed
  producerSequence : s'.producerSequence = s.producerSequence
  producerBytes : s'.producerBytes = s.producerBytes
  metrics : s'.metrics = s.metrics
  history : s'.history = s.history

theorem cancel_frame (memory : MemoryAnswers) (s : CsvWriter) : CallFrame s (s.cancel memory) := by
  unfold cancel
  split <;> repeat' constructor

theorem call_frame {memory : MemoryAnswers} {s s' : CsvWriter} {c : Call}
    (hs : s.call memory c = some s') : CallFrame s s' := by
  have hcancel := cancel_frame memory s
  cases c <;> simp only [call] at hs
  case cancel | close | join =>
    obtain rfl := Option.some.inj hs
    exact { hcancel with }
  all_goals
    (try split at hs) <;> cases hs
    all_goals repeat' constructor

theorem publishBatch_frame (s : CsvWriter) (target : Nat) :
    ProducerFrame s (s.publishBatch target) := by
  simp only [publishBatch]
  split
  · constructor <;> rfl
  · split <;> constructor <;> rfl

theorem useOccupancy_frame (s : CsvWriter) (use : OccupancyUse) (current : CsvWriterOccupancy) :
    ProducerFrame s (s.useOccupancy use current) := by
  cases use <;> simp only [useOccupancy]
  case resume => split <;> constructor <;> rfl
  all_goals constructor <;> rfl

theorem producerStep_frame {memory : MemoryAnswers} {s s' : CsvWriter}
    (hs : s.producerStep memory = some s') : ProducerFrame s s' := by
  unfold producerStep at hs
  cases hpc : s.producerPc <;> simp only [hpc] at hs
  case publishBytes target =>
    obtain rfl := Option.some.inj hs
    exact publishBatch_frame s target
  case occupancyOverflow use released releasedBytes =>
    obtain rfl := Option.some.inj hs
    exact useOccupancy_frame s use _
  case armExchange =>
    obtain rfl := Option.some.inj hs
    split <;> constructor <;> rfl
  case publishFailed =>
    split_ifs at hs <;> cases hs <;> constructor <;> rfl
  all_goals (try split at hs) <;> cases hs
  all_goals constructor <;> rfl

/-- What the steps of the writer leave alone. -/
structure WriterFrame (s s' : CsvWriter) : Prop where
  notifications : s'.notifications = s.notifications
  publishedSequence : s'.publishedSequence = s.publishedSequence
  bytesPublished : s'.bytesPublished = s.bytesPublished
  closeRequested : s'.closeRequested = s.closeRequested
  publishActive : s'.publishActive = s.publishActive
  producerSequence : s'.producerSequence = s.producerSequence
  producerBytes : s'.producerBytes = s.producerBytes
  slotAcquired : s'.slotAcquired = s.slotAcquired
  producerPc : s'.producerPc = s.producerPc
  outcome : s'.outcome = s.outcome
  auditRowsPublished : s'.metrics.auditRowsPublished = s.metrics.auditRowsPublished
  orderBookRowsPublished : s'.metrics.orderBookRowsPublished = s.metrics.orderBookRowsPublished
  log : s'.history.log = s.history.log
  returned : s'.history.returned = s.history.returned
  arms : s'.history.arms = s.history.arms

theorem writerStep_frame {input : WriterInput} {s s' : CsvWriter}
    (hs : s.writerStep input = some s') : WriterFrame s s' := by
  unfold writerStep at hs
  cases hpc : s.writerPc <;> simp only [hpc] at hs
  case resumeExchange =>
    obtain rfl := Option.some.inj hs
    split <;> constructor <;> rfl
  case ageFlush =>
    split at hs
    · split at hs <;> cases hs <;> constructor <;> rfl
    · cases hs
      constructor <;> rfl
  case drain => split_ifs at hs <;> cases hs <;> constructor <;> rfl
  all_goals (try split at hs) <;> cases hs
  all_goals constructor <;> rfl

/-! ## The projection -/

end CsvWriter

namespace OccupancyUse

def phase : OccupancyUse → Option Ring.Phase
  | highWater => some .committed
  | pause => none
  | below => none
  | resume => none

end OccupancyUse

namespace ProducerPc

/-- The phases in which the producer has committed a batch the writer cannot see yet. -/
def phase : ProducerPc → Option Ring.Phase
  | occupancyReleased use => use.phase
  | occupancyBytes use _ => use.phase
  | occupancyOverflow use _ _ => use.phase
  | publishStoreBytes => some .committed
  | publishStoreSequence => some .weighed
  | _ => none

/-- Whether a slot is held at a point inside a call. -/
def holds : ProducerPc → Option Bool
  | acquireClosed => some false
  | acquireFailed => some false
  | acquireReleased => some false
  | publishStart _ => some true
  | publishClosed _ => some true
  | publishFailed _ => some true
  | publishBytes _ => some true
  | publishReject _ => some true
  | occupancyReleased use => use.phase.map fun _ => false
  | occupancyBytes use _ => use.phase.map fun _ => false
  | occupancyOverflow use _ _ => use.phase.map fun _ => false
  | publishStoreBytes => some false
  | publishStoreSequence => some false
  | publishClear => some false
  | publishNotify => some false
  | _ => none

/-- A committed batch has left the slot that was held. -/
theorem holds_of_phase {pc : ProducerPc} (h : pc.phase ≠ none) : pc.holds = some false := by
  cases pc with
  | occupancyReleased use => cases use <;> first | rfl | exact absurd rfl h
  | occupancyBytes use => cases use <;> first | rfl | exact absurd rfl h
  | occupancyOverflow use => cases use <;> first | rfl | exact absurd rfl h
  | _ => first | rfl | exact absurd rfl h

end ProducerPc

namespace ReleaseUse

/-- The number of published batches the loop has loaded. -/
def published : ReleaseUse → Nat
  | written published _ => published
  | discarded published => published

end ReleaseUse

namespace WriterPc

/-- The number of published batches that the writer's loops have loaded. -/
def loaded : WriterPc → Option Nat
  | drain published => some published
  | write published => some published
  | releaseBytes use => some use.published
  | releaseOverflow use => some use.published
  | releaseSequence use => some use.published
  | resumePublished use => some use.published
  | resumeBytes use _ => some use.published
  | resumeExchange use => some use.published
  | latchFailed (.written published) _ => some published
  | latchNotify (.written published) => some published
  | latchWait (.written published) => some published
  | discard published => some published
  | _ => none

/-- The same where the loop is at a batch it has not released. -/
def taking : WriterPc → Option Nat
  | write published => some published
  | releaseBytes use => some use.published
  | _ => none

/-- The stretch in which a released slot is not yet shown. -/
def releasing : WriterPc → Bool
  | releaseOverflow _ => true
  | releaseSequence _ => true
  | _ => false

end WriterPc

namespace CsvWriter

@[simp]
theorem afterRelease_loaded (use : ReleaseUse) : (afterRelease use).loaded = some use.published := by
  rcases use with ⟨published, _ | error⟩ | published <;> rfl

@[simp]
theorem afterRelease_taking (use : ReleaseUse) : (afterRelease use).taking = none := by
  rcases use with ⟨published, _ | error⟩ | published <;> rfl

@[simp]
theorem afterRelease_releasing (use : ReleaseUse) : (afterRelease use).releasing = false := by
  rcases use with ⟨published, _ | error⟩ | published <;> rfl

def phase (s : CsvWriter) : Ring.Phase :=
  s.producerPc.phase.getD (if s.slotAcquired then .held else .free)

/-- The queue as a ring of slots. -/
def ring (s : CsvWriter) : Ring.State Slot where
  slots := s.slots
  log := s.history.log
  freed := s.history.freed
  phase := s.phase
  produced := s.producerSequence
  producedWeight := s.producerBytes
  published := s.publishedSequence
  publishedWeight := s.bytesPublished
  consumed := s.consumerSequence
  consumedWeight := s.consumerBytes
  releasing := s.writerPc.releasing
  released := s.releasedSequence
  releasedWeight := s.bytesReleased

/-- The ring of the writer keeps the invariant of rings. -/
def RingInv (s : CsvWriter) : Prop :=
  Ring.Inv csvWriterSlotCount csvWriterByteCapacity counterLimit Slot.logicalBytes s.ring

def RingStep (s s' : CsvWriter) : Prop :=
  Ring.Step csvWriterSlotCount csvWriterByteCapacity counterLimit Slot.logicalBytes s.ring s'.ring

/-- What the places of the two threads say about the slot held and the counts loaded. -/
structure Control (s : CsvWriter) : Prop where
  holds : ∀ b, s.producerPc.holds = some b → s.slotAcquired = b
  loaded : ∀ published, s.writerPc.loaded = some published → published ≤ s.publishedSequence
  taking : ∀ published, s.writerPc.taking = some published → s.consumerSequence < published

theorem wrappingSub_eq {left right : Nat} (h : right ≤ left) (hleft : left < counterLimit) :
    wrappingSub left right = left - right := by
  rw [wrappingSub, show left + counterLimit - right = left - right + counterLimit by omega,
    Nat.add_mod_right, Nat.mod_eq_of_lt (by omega)]

theorem checkedAdd_some {left right sum : Nat} (hleft : left < counterLimit)
    (h : checkedAdd left right = some sum) : sum = left + right ∧ left + right < counterLimit := by
  simp only [checkedAdd] at h
  split at h
  · cases h
  · obtain rfl := Option.some.inj h
    omega

/-! ## Calls -/

section Simulation

variable {memory : MemoryAnswers} {s s' : CsvWriter}

theorem phase_held (hpc : s.producerPc.phase = none) (hslot : s.slotAcquired = true) :
    s.ring.phase = .held := by
  simp [ring, phase, hpc, hslot]

theorem phase_free (hpc : s.producerPc.phase = none) (hslot : s.slotAcquired = false) :
    s.ring.phase = .free := by
  simp [ring, phase, hpc, hslot]

/-- Both threads leave the ring alone or make one of its steps. -/
def Follows (s s' : CsvWriter) : Prop := s'.ring = s.ring ∨ RingStep s s'

theorem Follows.of_step {r : Ring.State Slot}
    (h : Ring.Step csvWriterSlotCount csvWriterByteCapacity counterLimit Slot.logicalBytes s.ring r)
    (heq : s'.ring = r) : Follows s s' := by
  subst heq
  exact .inr h

/-- A step that writes the producer's slot, and holds it afterwards or not. -/
theorem Follows.slot {slot : Slot} {acquired : Bool} (hpc : s.producerPc.phase = none)
    (hslot : s.slotAcquired = true) (hpc' : s'.producerPc.phase = none)
    (hring : s'.ring = { (s.setProducerSlot slot).ring with phase := s'.phase })
    (hacquired : s'.slotAcquired = acquired) : Follows s s' := by
  have hphase : s'.phase = if acquired then .held else .free := by simp [phase, hpc', hacquired]
  cases acquired with
  | true =>
      apply Follows.of_step (Ring.Step.fill s.ring slot (phase_held hpc hslot))
      rw [hring, hphase, ← phase_held hpc hslot]
      rfl
  | false =>
      apply Follows.of_step (Ring.Step.drop s.ring slot (phase_held hpc hslot))
      rw [hring, hphase]
      rfl

theorem Follows.congr {t : CsvWriter} (h : Follows s t) (heq : s'.ring = t.ring) : Follows s s' := by
  rcases h with hsame | hstep
  · exact .inl (heq.trans hsame)
  · exact .inr (by rw [RingStep, heq]; exact hstep)

theorem ring_setPc {pc : ProducerPc} (h : pc.phase = s.producerPc.phase) :
    ({ s with producerPc := pc } : CsvWriter).ring = s.ring := by
  simp [ring, phase, h]

theorem ring_returns (h : s.producerPc.phase = none) (result : CallResult) :
    (s.returns result).ring = s.ring := ring_setPc h.symm

theorem cancel_pc (memory : MemoryAnswers) (s : CsvWriter) :
    (s.cancel memory).producerPc = s.producerPc := by
  unfold cancel
  split <;> rfl

/-- The local work of `cancel` gives the held slot back. -/
theorem cancel_follows (hpc : s.producerPc.phase = none) (memory : MemoryAnswers) :
    Follows s (s.cancel memory) := by
  unfold cancel
  split
  · rename_i hslot
    exact Follows.slot hpc hslot hpc rfl rfl
  · exact .inl rfl

theorem call_follows {c : Call} (hidle : s.producerPc = .idle) (hs : s.call memory c = some s') :
    Follows s s' := by
  have hpc : s.producerPc.phase = none := by rw [hidle]; rfl
  have hcancel := cancel_follows hpc memory
  have hcancelPc : (s.cancel memory).producerPc.phase = none := by rw [cancel_pc, hpc]
  cases c <;> simp only [call] at hs
  case fill batch auditExcess orderBookExcess =>
    split at hs
    · rename_i hslot
      cases hs
      exact Follows.slot hpc hslot rfl rfl hslot
    · cases hs
  case cancel =>
    cases hs
    exact hcancel.congr (ring_returns hcancelPc _)
  case close | join =>
    cases hs
    exact hcancel.congr (ring_setPc hcancelPc.symm)
  all_goals
    (try split at hs) <;> cases hs
    all_goals exact .inl (ring_setPc hpc.symm)

/-- The commit of `publish`: the batch is entered with its size. -/
theorem publishBatch_follows {target : Nat} (h : s.RingInv)
    (hpc : s.producerPc = .publishBytes target) (hslot : s.slotAcquired = true) :
    Follows s (s.publishBatch target) := by
  have hphase : s.producerPc.phase = none := by rw [hpc]; rfl
  have hoccupied : wrappingSub s.producerBytes s.bytesReleased = s.producerBytes - s.bytesReleased :=
    wrappingSub_eq h.releasedWeight_le h.weightLimit
  simp only [publishBatch, hoccupied]
  split
  · exact .inl (ring_setPc hphase.symm)
  · rename_i hroom
    rw [not_or, Nat.not_lt, Nat.not_lt] at hroom
    split
    · rename_i nextSequence nextBytes nextOverflow nextActive hsequence hbytes _ _
      obtain ⟨rfl, hlimit⟩ := checkedAdd_some h.producedLimit hsequence
      obtain ⟨rfl, hlimit'⟩ := checkedAdd_some h.weightLimit hbytes
      refine Follows.of_step (Ring.Step.commit s.ring
        { s.producerSlot with
          targetIndex := some target
          logicalBytes := batchBytes s.producerSlot.batch
          overflowCapacityBytes := overflowIncrement s.producerSlot }
        (phase_held hphase hslot) ?_ hlimit hlimit') rfl
      have hle : s.producerBytes - s.bytesReleased + batchBytes s.producerSlot.batch ≤
          csvWriterByteCapacity := by omega
      exact hle
    · exact .inl (ring_setPc hphase.symm)

theorem useOccupancy_follows {use : OccupancyUse} {released releasedBytes : Nat}
    (hpc : s.producerPc = .occupancyOverflow use released releasedBytes)
    (current : CsvWriterOccupancy) : Follows s (s.useOccupancy use current) := by
  left
  cases use <;> simp only [useOccupancy]
  case resume => split <;> exact ring_setPc (congrArg ProducerPc.phase hpc).symm
  all_goals exact ring_setPc (congrArg ProducerPc.phase hpc).symm

theorem producerStep_follows (h : s.RingInv) (hcontrol : s.Control)
    (hs : s.producerStep memory = some s') : Follows s s' := by
  have hholds := hcontrol.holds
  unfold producerStep at hs
  cases hpc : s.producerPc <;> simp only [hpc] at hs hholds
  case idle => cases hs
  case acquireReleased =>
    have hphase : s.producerPc.phase = none := by rw [hpc]; rfl
    have hfree : wrappingSub s.producerSequence s.releasedSequence =
        s.producerSequence - s.releasedSequence :=
      wrappingSub_eq (h.released_le.trans (h.consumed.trans h.published_le)) h.producedLimit
    rw [hfree] at hs
    split at hs <;> cases hs
    · exact .inl (ring_returns hphase _)
    · rename_i hroom
      exact Follows.of_step (Ring.Step.acquire s.ring s.producerSlot.clear
        (phase_free hphase (hholds false rfl)) (Nat.not_le.mp hroom)) rfl
  case publishFailed => split_ifs at hs <;> cases hs <;> exact .inl (ring_setPc (congrArg ProducerPc.phase hpc).symm)
  case publishBytes target =>
    cases hs
    exact publishBatch_follows h hpc (hholds true rfl)
  case publishReject error =>
    cases hs
    exact Follows.slot (by rw [hpc]; rfl) (hholds true rfl) rfl rfl rfl
  case occupancyOverflow use released releasedBytes =>
    cases hs
    exact useOccupancy_follows hpc _
  case publishStoreBytes =>
    cases hs
    have hphase : s.ring.phase = .committed := by simp [ring, phase, hpc, ProducerPc.phase]
    exact Follows.of_step (Ring.Step.weigh s.ring hphase) rfl
  case publishStoreSequence =>
    cases hs
    have hphase : s.ring.phase = .weighed := by simp [ring, phase, hpc, ProducerPc.phase]
    have hslot := hholds false rfl
    apply Follows.of_step (Ring.Step.publish s.ring hphase)
    simp [ring, phase, ProducerPc.phase, hslot]
  case armExchange =>
    cases hs
    split <;> exact .inl (ring_setPc (congrArg ProducerPc.phase hpc).symm)
  all_goals
    (try split at hs) <;> cases hs
    all_goals exact .inl (ring_setPc (congrArg ProducerPc.phase hpc).symm)

theorem ring_setWriterPc {pc : WriterPc} (h : pc.releasing = s.writerPc.releasing) :
    ({ s with writerPc := pc } : CsvWriter).ring = s.ring := by
  simp only [ring, phase, h]

theorem writerStep_follows {input : WriterInput} (hcontrol : s.Control)
    (hs : s.writerStep input = some s') : Follows s s' := by
  have hloaded := hcontrol.loaded
  have htaking := hcontrol.taking
  unfold writerStep at hs
  cases hpc : s.writerPc <;> simp only [hpc] at hs hloaded htaking
  case releaseBytes use =>
    cases hs
    exact Follows.of_step (Ring.Step.consume s.ring (s.consumerSlot.release input.memory)
      (congrArg WriterPc.releasing hpc)
      ((htaking _ rfl).trans_le (hloaded _ rfl))) rfl
  case releaseOverflow use =>
    cases hs
    exact .inl (ring_setWriterPc (congrArg WriterPc.releasing hpc).symm)
  case releaseSequence use =>
    cases hs
    apply Follows.of_step (Ring.Step.release s.ring (congrArg WriterPc.releasing hpc))
    split
    · rfl
    · simp [ring, phase]
  case drain => split_ifs at hs <;> cases hs <;> exact .inl (ring_setWriterPc (congrArg WriterPc.releasing hpc).symm)
  case resumeBytes =>
    split at hs <;> cases hs
    · exact .inl (ring_setWriterPc (congrArg WriterPc.releasing hpc).symm)
    · exact .inl (ring_setWriterPc (by rw [hpc, afterRelease_releasing]; rfl))
  case resumeExchange use =>
    cases hs
    have hkept : (afterRelease use).releasing = s.writerPc.releasing := by
      rw [hpc, afterRelease_releasing]
      rfl
    split <;> exact .inl (ring_setWriterPc hkept)
  case latchWait use =>
    split at hs <;> cases hs
    · exact .inl rfl
    · cases use <;> exact .inl (ring_setWriterPc (congrArg WriterPc.releasing hpc).symm)
  case ageFlush =>
    split at hs
    · split at hs <;> cases hs <;> exact .inl (ring_setWriterPc (congrArg WriterPc.releasing hpc).symm)
    · cases hs
      exact .inl (ring_setWriterPc (congrArg WriterPc.releasing hpc).symm)
  case closeRequested =>
    cases hs
    split <;> exact .inl (ring_setWriterPc (congrArg WriterPc.releasing hpc).symm)
  case closePublished =>
    cases hs
    split <;> exact .inl (ring_setWriterPc (congrArg WriterPc.releasing hpc).symm)
  all_goals
    (try split at hs) <;> cases hs
    all_goals exact .inl (ring_setWriterPc (congrArg WriterPc.releasing hpc).symm)

theorem Follows.ringInv (hfollows : Follows s s') (h : s.RingInv) : s'.RingInv := by
  rcases hfollows with heq | hstep
  · rw [RingInv, heq]
    exact h
  · exact Ring.Inv.step h hstep

theorem Follows.published_mono (hfollows : Follows s s') (h : s.RingInv) :
    s.publishedSequence ≤ s'.publishedSequence := by
  rcases hfollows with heq | hstep
  · exact (congrArg Ring.State.published heq).symm.le
  · exact Ring.Inv.published_mono h hstep

/-! ## The places of the two threads -/

theorem Control.of_producer (h : s.Control) (hframe : ProducerFrame s s')
    (hpublished : s.publishedSequence ≤ s'.publishedSequence)
    (hholds : ∀ b, s'.producerPc.holds = some b → s'.slotAcquired = b) : s'.Control := by
  refine ⟨hholds, ?_, ?_⟩
  · rw [hframe.writerPc]
    exact fun published hloaded => (h.loaded published hloaded).trans hpublished
  · rw [hframe.writerPc, hframe.consumerSequence]
    exact h.taking

theorem call_holds {c : Call} (hs : s.call memory c = some s') :
    ∀ b, s'.producerPc.holds = some b → s'.slotAcquired = b := by
  cases c <;> simp only [call] at hs
  case tryAcquire | publish =>
    split at hs <;> cases hs <;> intro b hb <;> cases hb
    rename_i hslot
    simpa using hslot
  all_goals
    (try split at hs) <;> cases hs
    all_goals exact fun b hb => nomatch hb

theorem publishBatch_holds {target : Nat} (hslot : s.slotAcquired = true) :
    ∀ b, (s.publishBatch target).producerPc.holds = some b →
      (s.publishBatch target).slotAcquired = b := by
  intro b hb
  simp only [publishBatch] at hb ⊢
  split at hb
  · simp_all [ProducerPc.holds]
  · rename_i hroom
    simp only [hroom, ↓reduceIte]
    split at hb <;> simp_all [ProducerPc.holds]

theorem producerStep_holds (h : s.Control) (hs : s.producerStep memory = some s') :
    ∀ b, s'.producerPc.holds = some b → s'.slotAcquired = b := by
  have hholds := h.holds
  unfold producerStep at hs
  cases hpc : s.producerPc <;> simp only [hpc] at hs hholds
  case publishBytes target =>
    cases hs
    exact publishBatch_holds (hholds true rfl)
  case occupancyOverflow use released releasedBytes =>
    cases hs
    cases use <;> simp only [useOccupancy]
    case highWater => exact hholds
    case resume => split <;> exact fun b hb => nomatch hb
    all_goals exact fun b hb => nomatch hb
  case armExchange =>
    cases hs
    split <;> exact fun b hb => nomatch hb
  case publishFailed => split_ifs at hs <;> cases hs <;> exact hholds
  all_goals
    (try split at hs) <;> cases hs
    all_goals first | exact hholds | exact fun b hb => nomatch hb

theorem afterLatch_loaded (use : LatchUse) (published : Nat)
    (h : (afterLatch use).loaded = some published) :
    (WriterPc.latchWait use).loaded = some published := by
  cases use with
  | written => exact h
  | flushed => cases h
  | closed => cases h

theorem afterLatch_taking (use : LatchUse) : (afterLatch use).taking = none := by
  cases use <;> rfl

/-- The writer loads the count of published batches before it takes one of them. -/
theorem writerStep_loads {input : WriterInput} (h : s.Control)
    (hs : s.writerStep input = some s') :
    (∀ published, s'.writerPc.loaded = some published → published ≤ s.publishedSequence) ∧
      ∀ published, s'.writerPc.taking = some published → s'.consumerSequence < published := by
  have hloaded := h.loaded
  have htaking := h.taking
  have none_loaded : ∀ published, (none : Option Nat) = some published →
      published ≤ s.publishedSequence := fun _ hnone => nomatch hnone
  have none_taking : ∀ published, (none : Option Nat) = some published →
      s'.consumerSequence < published := fun _ hnone => nomatch hnone
  -- `release_slot` keeps the count of the loop that called it
  have after_release : ∀ use : ReleaseUse, (∀ published, some use.published = some published →
      published ≤ s.publishedSequence) →
      (∀ published, (afterRelease use).loaded = some published → published ≤ s.publishedSequence) ∧
      ∀ published, (afterRelease use).taking = some published → s.consumerSequence < published := by
    intro use huse
    rw [afterRelease_loaded, afterRelease_taking]
    exact ⟨huse, fun _ hnone => nomatch hnone⟩
  unfold writerStep at hs
  cases hpc : s.writerPc <;> simp only [hpc] at hs hloaded htaking
  case loadPublished | discardLoad =>
    cases hs
    refine ⟨fun published hsome => ?_, none_taking⟩
    cases hsome
    exact Nat.le_refl _
  case drain published =>
    split at hs
    · rename_i hlt
      split at hs <;> cases hs
      · exact ⟨none_loaded, none_taking⟩
      · refine ⟨hloaded, fun published hsome => ?_⟩
        cases hsome
        exact hlt
    · cases hs
      exact ⟨none_loaded, none_taking⟩
  case discard published =>
    split at hs <;> cases hs
    · rename_i hlt
      refine ⟨hloaded, fun published hsome => ?_⟩
      cases hsome
      exact hlt
    · exact ⟨none_loaded, none_taking⟩
  case write published =>
    cases hs
    exact ⟨hloaded, htaking⟩
  case releaseSequence use =>
    cases hs
    split
    · exact ⟨hloaded, none_taking⟩
    · exact after_release use hloaded
  case resumeBytes use published =>
    split at hs <;> cases hs
    · exact ⟨hloaded, none_taking⟩
    · exact after_release use hloaded
  case resumeExchange use =>
    cases hs
    split <;> exact after_release use hloaded
  case latchFailed use error =>
    cases hs
    cases use <;> exact ⟨hloaded, none_taking⟩
  case latchNotify use =>
    split at hs <;> cases hs <;> cases use <;> exact ⟨hloaded, none_taking⟩
  case latchWait use =>
    split at hs <;> cases hs
    · rw [hpc]
      exact ⟨hloaded, none_taking⟩
    · refine ⟨fun published hsome => hloaded published (afterLatch_loaded use published hsome), ?_⟩
      rw [afterLatch_taking]
      exact none_taking
  case ageFlush =>
    split at hs
    · split at hs <;> cases hs <;> exact ⟨none_loaded, none_taking⟩
    · cases hs
      exact ⟨none_loaded, none_taking⟩
  case closeRequested | closePublished =>
    cases hs
    split <;> exact ⟨none_loaded, none_taking⟩
  all_goals
    (try split at hs) <;> cases hs
    all_goals exact ⟨hloaded, none_taking⟩

theorem writerStep_control {input : WriterInput} (h : s.Control)
    (hs : s.writerStep input = some s') : s'.Control := by
  have hframe := writerStep_frame hs
  obtain ⟨hloaded, htaking⟩ := writerStep_loads h hs
  refine ⟨?_, ?_, htaking⟩
  · rw [hframe.producerPc, hframe.slotAcquired]
    exact h.holds
  · rw [hframe.publishedSequence]
    exact hloaded

end Simulation

/-! ## Every run -/

/-- The part of the invariant that makes the queue a ring. -/
structure Queue (s : CsvWriter) : Prop where
  ring : s.RingInv
  control : s.Control

variable {s s' : CsvWriter}

theorem step_cases {label : WriterLabel} (hs : s.step label = some s') :
    (∃ c memory, label = .call c memory ∧ s.producerPc = .idle ∧ s.call memory c = some s') ∨
      (∃ memory, label = .producer memory ∧ s.producerStep memory = some s') ∨
      ∃ input, label = .writer input ∧ s.writerStep input = some s' := by
  cases label with
  | call c memory =>
      simp only [step] at hs
      split at hs
      · rename_i hidle
        exact .inl ⟨c, memory, rfl, hidle, hs⟩
      · cases hs
  | producer memory => exact .inr (.inl ⟨memory, rfl, hs⟩)
  | writer input => exact .inr (.inr ⟨input, rfl, hs⟩)

/-- Every step leaves the ring alone or makes one of its steps. -/
theorem Queue.follows (h : s.Queue) {label : WriterLabel} (hs : s.step label = some s') :
    Follows s s' := by
  rcases step_cases hs with ⟨c, memory, -, hidle, hcall⟩ | ⟨memory, -, hproducer⟩ | ⟨input, -, hwriter⟩
  · exact call_follows hidle hcall
  · exact producerStep_follows h.ring h.control hproducer
  · exact writerStep_follows h.control hwriter

theorem Queue.step (h : s.Queue) {label : WriterLabel} (hs : s.step label = some s') :
    s'.Queue := by
  have hfollows := h.follows hs
  have hpublished := hfollows.published_mono h.ring
  refine ⟨hfollows.ringInv h.ring, ?_⟩
  rcases step_cases hs with ⟨c, memory, -, -, hcall⟩ | ⟨memory, -, hproducer⟩ | ⟨input, -, hwriter⟩
  · exact h.control.of_producer (call_frame hcall).toProducerFrame hpublished (call_holds hcall)
  · exact h.control.of_producer (producerStep_frame hproducer) hpublished
      (producerStep_holds h.control hproducer)
  · exact writerStep_control h.control hwriter

/-- What a started writer looks like. -/
theorem start_some {output : CsvOutputSet} {notifications : CsvWriterNotifications}
    (h : start output notifications = some s) :
    output.closed = false ∧ output.firstError = none ∧ output.targets.length ≠ 0 ∧
      s = { output := output, notifications := notifications } := by
  simp only [start] at h
  split at h
  · cases h
  · rename_i hvalid
    obtain rfl := Option.some.inj h
    simp only [Bool.or_eq_true, not_or, Bool.not_eq_true, Option.isSome_eq_false_iff,
      Option.isNone_iff_eq_none, decide_eq_true_eq] at hvalid
    exact ⟨hvalid.1.1, hvalid.1.2, hvalid.2, rfl⟩

theorem Queue.init (h : system.init s) : s.Queue := by
  obtain ⟨mode, targetCount, notifications, hstart⟩ := h
  obtain ⟨-, -, -, rfl⟩ := start_some hstart
  refine ⟨?_, ?_⟩
  · constructor <;> simp [CsvWriter.ring, phase, ProducerPc.phase, WriterPc.releasing, Ring.total,
      Ring.Phase.pending, Ring.Phase.ahead, counterLimit]
  · exact ⟨fun b hb => (by cases hb), fun published hp => (by cases hp), fun published hp => (by cases hp)⟩

theorem queue_of_reachable (h : Transition.Reachable system s) : s.Queue :=
  Transition.Reachable.invariant (fun _ hinit => Queue.init hinit)
    (fun _ _ _ hqueue hs => Queue.step hqueue hs) h

end CsvWriter

end MarketCapture
