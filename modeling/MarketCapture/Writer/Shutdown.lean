import MarketCapture.Writer.Resume

/-! # The end of a run

A failure of the output is latched before the writer waits for a publish that passed
its checks earlier, and a close is requested by the producer itself. Either way no
batch is entered after the writer has looked for the last time, so the ring is empty
when `run` ends.
-/

namespace MarketCapture

namespace ProducerPc

/-- The stretch of `publish` in which `publish_active` is set. -/
def active : ProducerPc → Bool
  | publishClosed _ => true
  | publishFailed _ => true
  | publishBytes _ => true
  | publishReject _ => true
  | occupancyReleased use => use = .highWater
  | occupancyBytes use _ => use = .highWater
  | occupancyOverflow use _ _ => use = .highWater
  | publishStoreBytes => true
  | publishStoreSequence => true
  | publishClear => true
  | _ => false

/-- The stretch of `publish` after its check for a failure, while it is active. -/
def pastFailed : ProducerPc → Bool
  | publishBytes _ => true
  | occupancyReleased use => use = .highWater
  | occupancyBytes use _ => use = .highWater
  | occupancyOverflow use _ _ => use = .highWater
  | publishStoreBytes => true
  | publishStoreSequence => true
  | publishClear => true
  | _ => false

/-- The stretch of `publish` after its check for a close. -/
def pastClose : ProducerPc → Bool
  | publishFailed _ => true
  | publishNotify => true
  | pc => pc.pastFailed

theorem pastFailed_of_pastClose {pc : ProducerPc} (h : pc.pastClose = false) :
    pc.pastFailed = false := by
  cases pc <;> first | rfl | exact h

theorem pastFailed_of_active {pc : ProducerPc} (h : pc.active = false) : pc.pastFailed = false := by
  cases pc <;> first | rfl | exact h

theorem phase_of_pastFailed {pc : ProducerPc} (h : pc.pastFailed = false) : pc.phase = none := by
  cases pc with
  | occupancyReleased use => cases use <;> first | rfl | cases h
  | occupancyBytes use => cases use <;> first | rfl | cases h
  | occupancyOverflow use => cases use <;> first | rfl | cases h
  | _ => first | rfl | cases h

end ProducerPc

namespace WriterPc

/-- Inside `latch_output_failure`, after its store. -/
def latching : WriterPc → Bool
  | latchNotify _ => true
  | latchWait _ => true
  | _ => false

end WriterPc

namespace CsvWriter

/-- The producer's side of the two flags. -/
structure Handshake (s : CsvWriter) : Prop where
  active : s.publishActive = s.producerPc.active
  closed : s.closeRequested = true → s.producerPc.pastClose = false
  returned : s.history.latchReturned = true → s.writerFailed = true ∧ s.producerPc.pastFailed = false
  failed : s.writerFailed = true → s.history.latchReturned = true ∨ s.writerPc.latching = true
  latching : s.writerPc.latching = true → s.writerFailed = true

variable {memory : MemoryAnswers} {s s' : CsvWriter}

theorem Handshake.of_producer (h : s.Handshake) (hframe : ProducerFrame s s')
    (hactive : s'.publishActive = s'.producerPc.active)
    (hclosed : s'.closeRequested = true → s'.producerPc.pastClose = false)
    (hpastFailed : s.writerFailed = true → s.producerPc.pastFailed = false →
      s'.producerPc.pastFailed = false) : s'.Handshake := by
  refine ⟨hactive, hclosed, ?_, ?_, ?_⟩
  · rw [hframe.latchReturned, hframe.writerFailed]
    intro hreturned
    obtain ⟨hfailed, hpast⟩ := h.returned hreturned
    exact ⟨hfailed, hpastFailed hfailed hpast⟩
  · rw [hframe.latchReturned, hframe.writerFailed, hframe.writerPc]
    exact h.failed
  · rw [hframe.writerFailed, hframe.writerPc]
    exact h.latching

theorem call_handshake {c : Call} (h : s.Handshake) (hidle : s.producerPc = .idle)
    (hs : s.call memory c = some s') : s'.Handshake := by
  have hframe := call_frame hs
  have hactive := h.active
  rw [hidle] at hactive
  have hpc : s'.producerPc.active = false ∧ s'.producerPc.pastClose = false := by
    cases c <;> simp only [call] at hs
    all_goals
      (try split at hs) <;> cases hs
      all_goals exact ⟨rfl, rfl⟩
  refine h.of_producer hframe.toProducerFrame ?_ (fun _ => hpc.2) (fun _ _ => ?_)
  · rw [hframe.publishActive, hactive, hpc.1]
    rfl
  · exact ProducerPc.pastFailed_of_pastClose hpc.2

theorem publishBatch_handshake (h : s.Handshake) {target : Nat}
    (hpc : s.producerPc = .publishBytes target) : (s.publishBatch target).Handshake := by
  have hframe := publishBatch_frame s target
  have hactive := h.active
  have hclosed := h.closed
  rw [hpc] at hactive hclosed
  have hkept : (s.publishBatch target).publishActive = s.publishActive ∧
      (s.publishBatch target).closeRequested = s.closeRequested ∧
      (s.publishBatch target).producerPc.active = true := by
    simp only [publishBatch]
    split
    · exact ⟨rfl, rfl, rfl⟩
    · split <;> exact ⟨rfl, rfl, rfl⟩
  refine h.of_producer hframe ?_ ?_ ?_
  · rw [hkept.1, hkept.2.2, hactive]
    rfl
  · rw [hkept.2.1]
    exact fun hrequested => by cases hclosed hrequested
  · rw [hpc]
    exact fun _ hpast => by cases hpast

theorem useOccupancy_handshake (h : s.Handshake) {use : OccupancyUse} {released releasedBytes : Nat}
    (hpc : s.producerPc = .occupancyOverflow use released releasedBytes)
    (current : CsvWriterOccupancy) : (s.useOccupancy use current).Handshake := by
  have hframe := useOccupancy_frame s use current
  have hactive := h.active
  have hclosed := h.closed
  rw [hpc] at hactive hclosed
  cases use <;> simp only [useOccupancy] at hframe ⊢
  case highWater =>
    exact h.of_producer hframe hactive hclosed (fun _ hpast => by rw [hpc] at hpast; exact hpast)
  case resume =>
    split at hframe
    · rename_i hbelow
      rw [if_pos hbelow]
      exact h.of_producer hframe hactive (fun _ => rfl) (fun _ _ => rfl)
    · rename_i habove
      rw [if_neg habove]
      exact h.of_producer hframe hactive (fun _ => rfl) (fun _ _ => rfl)
  all_goals exact h.of_producer hframe hactive (fun _ => rfl) (fun _ _ => rfl)

theorem producerStep_handshake (h : s.Handshake) (hs : s.producerStep memory = some s') :
    s'.Handshake := by
  have hframe := producerStep_frame hs
  have hactive := h.active
  have hclosed := h.closed
  unfold producerStep at hs
  cases hpc : s.producerPc <;> simp only [hpc] at hs hactive hclosed
  case publishStart target =>
    cases hs
    exact h.of_producer hframe rfl (fun _ => rfl) (fun _ _ => rfl)
  case publishClosed target =>
    split at hs <;> cases hs
    · exact h.of_producer hframe hactive (fun _ => rfl) (fun _ _ => rfl)
    · rename_i hopen
      exact h.of_producer hframe hactive (fun hrequested => absurd hrequested hopen) (fun _ _ => rfl)
  case publishFailed target =>
    split_ifs at hs with hfailed <;> cases hs
    case neg => exact h.of_producer hframe hactive hclosed (fun hf => absurd hf hfailed)
    all_goals exact h.of_producer hframe hactive (fun _ => rfl) (fun _ _ => rfl)
  case publishBytes target =>
    cases hs
    exact publishBatch_handshake h hpc
  case occupancyOverflow use released releasedBytes =>
    cases hs
    exact useOccupancy_handshake h hpc _
  case publishReject error =>
    cases hs
    exact h.of_producer hframe rfl (fun _ => rfl) (fun _ _ => rfl)
  case publishClear =>
    cases hs
    exact h.of_producer hframe rfl hclosed (fun _ _ => rfl)
  case armExchange =>
    cases hs
    split at hframe <;> rename_i harmed
    · rw [if_pos harmed]
      exact h.of_producer hframe hactive (fun _ => rfl) (fun _ _ => rfl)
    · rw [if_neg harmed]
      exact h.of_producer hframe hactive (fun _ => rfl) (fun _ _ => rfl)
  case occupancyReleased | occupancyBytes | publishStoreBytes | publishStoreSequence =>
    cases hs
    exact h.of_producer hframe hactive hclosed (fun _ hpast => by rw [hpc] at hpast; exact hpast)
  all_goals
    (try split at hs) <;> cases hs
    all_goals exact h.of_producer hframe hactive (fun _ => rfl) (fun _ _ => rfl)

/-- A writer step outside `latch_output_failure`. -/
theorem Handshake.of_writer (h : s.Handshake) (hframe : WriterFrame s s')
    (hfailed : s'.writerFailed = s.writerFailed)
    (hreturned : s'.history.latchReturned = s.history.latchReturned)
    (hpc : s.writerPc.latching = false) (hpc' : s'.writerPc.latching = false) : s'.Handshake := by
  refine ⟨?_, ?_, ?_, ?_, ?_⟩
  · rw [hframe.publishActive, hframe.producerPc]
    exact h.active
  · rw [hframe.closeRequested, hframe.producerPc]
    exact h.closed
  · rw [hreturned, hfailed, hframe.producerPc]
    exact h.returned
  · rw [hfailed, hreturned]
    intro hf
    rcases h.failed hf with hdone | hlatching
    · exact .inl hdone
    · rw [hpc] at hlatching
      cases hlatching
  · rw [hpc']
    exact fun hlatching => nomatch hlatching

theorem afterRelease_latching (use : ReleaseUse) : (afterRelease use).latching = false := by
  rcases use with ⟨published, _ | error⟩ | published <;> rfl

theorem writerStep_handshake {input : WriterInput} (h : s.Handshake)
    (hs : s.writerStep input = some s') : s'.Handshake := by
  have hframe := writerStep_frame hs
  unfold writerStep at hs
  cases hpc : s.writerPc <;> simp only [hpc] at hs
  case latchFailed use error =>
    cases hs
    exact ⟨h.active, h.closed, fun hreturned => ⟨rfl, (h.returned hreturned).2⟩, fun _ => .inr rfl,
      fun _ => rfl⟩
  case latchNotify use =>
    have hfailed : s.writerFailed = true := h.latching (by rw [hpc]; rfl)
    split at hs <;> cases hs <;>
      exact ⟨h.active, h.closed, h.returned, fun _ => .inr rfl, fun _ => hfailed⟩
  case latchWait use =>
    have hfailed : s.writerFailed = true := h.latching (by rw [hpc]; rfl)
    split at hs <;> cases hs
    · exact h
    · rename_i hidle
      have hactive : s.producerPc.active = false := by
        rw [← h.active]
        simpa using hidle
      exact ⟨h.active, h.closed, fun _ => ⟨hfailed, ProducerPc.pastFailed_of_active hactive⟩,
        fun _ => .inl rfl, fun _ => hfailed⟩
  case releaseSequence use =>
    cases hs
    refine h.of_writer hframe rfl rfl (by rw [hpc]; rfl) ?_
    split
    · rfl
    · exact afterRelease_latching use
  case resumeBytes use published =>
    split at hs <;> cases hs
    · exact h.of_writer hframe rfl rfl (by rw [hpc]; rfl) rfl
    · exact h.of_writer hframe rfl rfl (by rw [hpc]; rfl) (afterRelease_latching use)
  case resumeExchange use =>
    cases hs
    split at hframe <;> rename_i harmed
    · rw [if_pos harmed]
      exact h.of_writer hframe rfl rfl (by rw [hpc]; rfl) (afterRelease_latching use)
    · rw [if_neg harmed]
      exact h.of_writer hframe rfl rfl (by rw [hpc]; rfl) (afterRelease_latching use)
  case drain => split_ifs at hs <;> cases hs <;> exact h.of_writer hframe rfl rfl (by rw [hpc]; rfl) rfl
  case ageFlush =>
    split at hs
    · split at hs <;> cases hs <;> exact h.of_writer hframe rfl rfl (by rw [hpc]; rfl) rfl
    · cases hs
      exact h.of_writer hframe rfl rfl (by rw [hpc]; rfl) rfl
  case closeRequested | closePublished =>
    cases hs
    exact h.of_writer hframe rfl rfl (by rw [hpc]; rfl) (by split <;> rfl)
  all_goals
    (try split at hs) <;> cases hs
    all_goals exact h.of_writer hframe rfl rfl (by rw [hpc]; rfl) rfl

theorem Handshake.init (h : system.init s) : s.Handshake := by
  obtain ⟨mode, targetCount, notifications, hstart⟩ := h
  obtain ⟨-, -, -, rfl⟩ := start_some hstart
  exact ⟨rfl, fun _ => rfl, (fun hr => nomatch hr), (fun hf => nomatch hf), fun hl => nomatch hl⟩

theorem Handshake.step (h : s.Handshake) {label : WriterLabel} (hs : s.step label = some s') :
    s'.Handshake := by
  rcases step_cases hs with ⟨c, memory, -, hidle, hcall⟩ | ⟨memory, -, hproducer⟩ | ⟨input, -, hwriter⟩
  · exact call_handshake h hidle hcall
  · exact producerStep_handshake h hproducer
  · exact writerStep_handshake h hwriter

/-! ## No batch is entered after the end -/

/-- A close was requested or a failure is latched for good. -/
def Settled (s : CsvWriter) : Prop := s.closeRequested = true ∨ s.history.latchReturned = true

theorem Handshake.settled (h : s.Handshake) (hsettled : s.Settled) :
    s.producerPc.pastFailed = false := by
  rcases hsettled with hclosed | hreturned
  · exact ProducerPc.pastFailed_of_pastClose (h.closed hclosed)
  · exact (h.returned hreturned).2

/-- What the writer sees is everything once the end is settled. -/
theorem Queue.shown_of_settled (hqueue : s.Queue) (h : s.Handshake) (hsettled : s.Settled) :
    s.publishedSequence = s.producerSequence := by
  have hpublished := hqueue.ring.published
  have hnone := ProducerPc.phase_of_pastFailed (h.settled hsettled)
  have hpending : s.ring.phase.pending = 0 := by
    cases hslot : s.slotAcquired with
    | true => rw [phase_held hnone hslot]; rfl
    | false => rw [phase_free hnone hslot]; rfl
  rw [hpending, Nat.add_zero] at hpublished
  exact hpublished

/-- What a producer step other than the commit leaves alone. -/
structure Uncommitted (s s' : CsvWriter) : Prop where
  producerSequence : s'.producerSequence = s.producerSequence
  log : s'.history.log = s.history.log
  auditRowsPublished : s'.metrics.auditRowsPublished = s.metrics.auditRowsPublished
  orderBookRowsPublished : s'.metrics.orderBookRowsPublished = s.metrics.orderBookRowsPublished

theorem producerStep_uncommitted (hs : s.producerStep memory = some s') :
    Uncommitted s s' ∨ ∃ target, s.producerPc = .publishBytes target ∧ s' = s.publishBatch target := by
  unfold producerStep at hs
  cases hpc : s.producerPc <;> simp only [hpc] at hs
  case publishBytes target =>
    cases hs
    exact .inr ⟨target, rfl, rfl⟩
  case occupancyOverflow use released releasedBytes =>
    cases hs
    left
    cases use <;> simp only [useOccupancy]
    case resume => split <;> exact ⟨rfl, rfl, rfl, rfl⟩
    all_goals exact ⟨rfl, rfl, rfl, rfl⟩
  case armExchange =>
    cases hs
    left
    split <;> exact ⟨rfl, rfl, rfl, rfl⟩
  case publishFailed => split_ifs at hs <;> cases hs <;> exact .inl ⟨rfl, rfl, rfl, rfl⟩
  all_goals
    (try split at hs) <;> cases hs
    all_goals exact .inl ⟨rfl, rfl, rfl, rfl⟩

theorem producerStep_closeRequested (hs : s.producerStep memory = some s')
    (h : s.closeRequested = true) : s'.closeRequested = true := by
  unfold producerStep at hs
  cases hpc : s.producerPc <;> simp only [hpc] at hs
  case publishBytes target =>
    cases hs
    simp only [publishBatch]
    split
    · exact h
    · split <;> exact h
  case occupancyOverflow use released releasedBytes =>
    cases hs
    cases use <;> simp only [useOccupancy]
    case resume => split <;> exact h
    all_goals exact h
  case armExchange =>
    cases hs
    split <;> exact h
  case publishFailed => split_ifs at hs <;> cases hs <;> exact h
  case closeStore => split at hs <;> cases hs <;> rfl
  all_goals
    (try split at hs) <;> cases hs
    all_goals exact h

theorem writerStep_latchReturned {input : WriterInput} (hs : s.writerStep input = some s')
    (h : s.history.latchReturned = true) : s'.history.latchReturned = true := by
  unfold writerStep at hs
  cases hpc : s.writerPc <;> simp only [hpc] at hs
  case resumeExchange =>
    cases hs
    split <;> exact h
  case ageFlush =>
    split at hs
    · split at hs <;> cases hs <;> exact h
    · cases hs
      exact h
  case latchWait =>
    split at hs <;> cases hs
    · exact h
    · rfl
  case drain => split_ifs at hs <;> cases hs <;> exact h
  all_goals
    (try split at hs) <;> cases hs
    all_goals exact h

/-- Once the end is settled it stays so, and no batch is entered any more. -/
theorem step_settled (h : s.Handshake) (hsettled : s.Settled) {label : WriterLabel}
    (hs : s.step label = some s') : s'.Settled ∧ Uncommitted s s' := by
  rcases step_cases hs with ⟨c, memory, -, -, hcall⟩ | ⟨memory, -, hproducer⟩ | ⟨input, -, hwriter⟩
  · have hframe := call_frame hcall
    refine ⟨?_, hframe.producerSequence, by rw [hframe.history], by rw [hframe.metrics],
      by rw [hframe.metrics]⟩
    rw [Settled, hframe.closeRequested, hframe.history]
    exact hsettled
  · have hframe := producerStep_frame hproducer
    refine ⟨?_, ?_⟩
    · rcases hsettled with hclosed | hreturned
      · exact .inl (producerStep_closeRequested hproducer hclosed)
      · exact .inr (hframe.latchReturned.trans hreturned)
    · rcases producerStep_uncommitted hproducer with huncommitted | ⟨target, hpc, -⟩
      · exact huncommitted
      · have hpast := h.settled hsettled
        rw [hpc] at hpast
        cases hpast
  · have hframe := writerStep_frame hwriter
    refine ⟨?_, hframe.producerSequence, hframe.log, hframe.auditRowsPublished,
      hframe.orderBookRowsPublished⟩
    rcases hsettled with hclosed | hreturned
    · exact .inl (hframe.closeRequested.trans hclosed)
    · exact .inr (writerStep_latchReturned hwriter hreturned)

end CsvWriter

/-! ## The ring is empty at the end -/

namespace ReleaseUse

def discardCount : ReleaseUse → Option Nat
  | written _ _ => none
  | discarded published => some published

end ReleaseUse

namespace LatchUse

def ended : LatchUse → Bool
  | written _ => false
  | flushed => false
  | closed => true

end LatchUse

namespace WriterPc

/-- The number of batches `discard_published` has loaded. -/
def discardCount : WriterPc → Option Nat
  | discard published => some published
  | releaseBytes use => use.discardCount
  | releaseOverflow use => use.discardCount
  | releaseSequence use => use.discardCount
  | resumePublished use => use.discardCount
  | resumeBytes use _ => use.discardCount
  | resumeExchange use => use.discardCount
  | _ => none

/-- After the loop of `run`. -/
def ended : WriterPc → Bool
  | latchFailed use _ => use.ended
  | latchNotify use => use.ended
  | latchWait use => use.ended
  | closing => true
  | finishing => true
  | done => true
  | _ => false

end WriterPc

namespace CsvWriter

structure Ending (s : CsvWriter) : Prop where
  closePublished : s.writerPc = .closePublished → s.closeRequested = true
  discardLoad : s.writerPc = .discardLoad → s.history.latchReturned = true
  discardCount : ∀ published, s.writerPc.discardCount = some published →
    s.history.latchReturned = true ∧ published = s.producerSequence
  ended : s.writerPc.ended = true → s.Settled ∧ s.consumerSequence = s.producerSequence

variable {memory : MemoryAnswers} {s s' : CsvWriter}

theorem afterRelease_discardCount (use : ReleaseUse) :
    (afterRelease use).discardCount = use.discardCount := by
  rcases use with ⟨published, _ | error⟩ | published <;> rfl

theorem afterRelease_ended (use : ReleaseUse) : (afterRelease use).ended = false := by
  rcases use with ⟨published, _ | error⟩ | published <;> rfl

/-- A step of the producer does not touch the writer's place. -/
theorem Ending.of_producer (hhandshake : s.Handshake) (h : s.Ending) {label : WriterLabel}
    (hs : s.step label = some s') (hframe : ProducerFrame s s')
    (hclosed : s.closeRequested = true → s'.closeRequested = true) : s'.Ending := by
  refine ⟨?_, ?_, ?_, ?_⟩
  · rw [hframe.writerPc]
    exact fun hpc => hclosed (h.closePublished hpc)
  · rw [hframe.writerPc, hframe.latchReturned]
    exact h.discardLoad
  · rw [hframe.writerPc, hframe.latchReturned]
    intro published hcount
    obtain ⟨hreturned, heq⟩ := h.discardCount published hcount
    refine ⟨hreturned, ?_⟩
    rw [(step_settled hhandshake (.inr hreturned) hs).2.producerSequence]
    exact heq
  · rw [hframe.writerPc, hframe.consumerSequence]
    intro hended
    obtain ⟨hsettled, heq⟩ := h.ended hended
    obtain ⟨hsettled', huncommitted⟩ := step_settled hhandshake hsettled hs
    rw [huncommitted.producerSequence]
    exact ⟨hsettled', heq⟩

/-- `release_slot` returns to the loop it was called from. -/
theorem Ending.of_release {use : ReleaseUse} (hpc : s.writerPc = afterRelease use)
    (hcount : ∀ published, use.discardCount = some published →
      s.history.latchReturned = true ∧ published = s.producerSequence) : s.Ending := by
  refine ⟨?_, ?_, ?_, ?_⟩
  · rw [hpc]
    rcases use with ⟨published, _ | error⟩ | published <;> exact fun heq => nomatch heq
  · rw [hpc]
    rcases use with ⟨published, _ | error⟩ | published <;> exact fun heq => nomatch heq
  · rw [hpc, afterRelease_discardCount]
    exact hcount
  · rw [hpc, afterRelease_ended]
    exact fun hended => nomatch hended

/-- A place that is neither in `discard_published` nor after the loop. -/
theorem Ending.of_loop (hclose : s.writerPc ≠ .closePublished) (hload : s.writerPc ≠ .discardLoad)
    (hcount : s.writerPc.discardCount = none) (hended : s.writerPc.ended = false) : s.Ending := by
  refine ⟨fun hpc => absurd hpc hclose, fun hpc => absurd hpc hload, ?_, ?_⟩
  · rw [hcount]
    exact fun published hsome => nomatch hsome
  · rw [hended]
    exact fun htrue => nomatch htrue

theorem writerStep_ending {input : WriterInput} (hqueue : s.Queue) (hhandshake : s.Handshake)
    (h : s.Ending) (hs : s.writerStep input = some s') : s'.Ending := by
  have hcount := h.discardCount
  have hended := h.ended
  have no_count : ∀ published, (none : Option Nat) = some published →
      s.history.latchReturned = true ∧ published = s.producerSequence := fun _ hc => by cases hc
  unfold writerStep at hs
  cases hpc : s.writerPc <;> simp only [hpc] at hs hcount hended
  case releaseBytes | releaseOverflow | resumePublished =>
    cases hs
    exact ⟨(fun heq => by cases heq), (fun heq => by cases heq), hcount, fun htrue => by cases htrue⟩
  case releaseSequence use =>
    cases hs
    split
    · exact ⟨(fun heq => by cases heq), (fun heq => by cases heq), hcount, fun htrue => by cases htrue⟩
    · exact Ending.of_release rfl hcount
  case resumeBytes use published =>
    split at hs <;> cases hs
    · exact ⟨(fun heq => by cases heq), (fun heq => by cases heq), hcount, fun htrue => by cases htrue⟩
    · exact Ending.of_release rfl hcount
  case resumeExchange use =>
    cases hs
    split <;> exact Ending.of_release rfl hcount
  case latchFailed use error =>
    cases hs
    exact ⟨(fun heq => by cases heq), (fun heq => by cases heq), no_count, hended⟩
  case latchNotify use =>
    split at hs <;> cases hs <;>
      exact ⟨(fun heq => by cases heq), (fun heq => by cases heq), no_count, hended⟩
  case latchWait use =>
    split at hs <;> cases hs
    · exact h
    · cases use with
      | written published => exact Ending.of_loop (by simp [afterLatch]) (by simp [afterLatch]) rfl rfl
      | flushed =>
          exact ⟨(fun heq => by cases heq), fun _ => rfl, (fun published hc => by cases hc),
            fun htrue => by cases htrue⟩
      | closed =>
          exact ⟨(fun heq => by cases heq), (fun heq => by cases heq), (fun published hc => by cases hc),
            fun _ => ⟨.inr rfl, (hended rfl).2⟩⟩
  case drained =>
    split at hs <;> cases hs
    · rename_i hfailed
      have hreturned : s.history.latchReturned = true := by
        rcases hhandshake.failed hfailed with hreturned | hlatching
        · exact hreturned
        · rw [hpc] at hlatching
          cases hlatching
      exact ⟨(fun heq => by cases heq), fun _ => hreturned, no_count, fun htrue => by cases htrue⟩
    · exact Ending.of_loop (by simp) (by simp) rfl rfl
  case discardLoad =>
    cases hs
    have hreturned := h.discardLoad hpc
    have hshown := hqueue.shown_of_settled hhandshake (.inr hreturned)
    refine ⟨(fun heq => by cases heq), (fun heq => by cases heq), fun published hsome => ?_,
      fun htrue => by cases htrue⟩
    cases hsome
    exact ⟨hreturned, hshown⟩
  case discard published =>
    obtain ⟨hreturned, heq⟩ := hcount published rfl
    split at hs <;> cases hs
    · exact ⟨(fun heq => by cases heq), (fun heq => by cases heq), hcount, fun htrue => by cases htrue⟩
    · rename_i hle
      have hconsumed : s.consumerSequence ≤ s.publishedSequence := hqueue.ring.consumed
      have hpublished : s.publishedSequence ≤ s.producerSequence := hqueue.ring.published_le
      exact ⟨(fun heq => by cases heq), (fun heq => by cases heq), no_count,
        fun _ => ⟨.inr hreturned, show s.consumerSequence = s.producerSequence by omega⟩⟩
  case ageFlush =>
    split at hs
    · split at hs <;> cases hs <;>
        exact Ending.of_loop (by simp [recordError]) (by simp [recordError]) rfl rfl
    · cases hs
      exact Ending.of_loop (by simp) (by simp) rfl rfl
  case closeRequested =>
    cases hs
    split
    · rename_i hrequested
      exact ⟨fun _ => hrequested, (fun heq => by cases heq), no_count, fun htrue => by cases htrue⟩
    · exact Ending.of_loop (by simp) (by simp) rfl rfl
  case closePublished =>
    cases hs
    have hrequested := h.closePublished hpc
    split
    · rename_i hall
      have hshown := hqueue.shown_of_settled hhandshake (.inl hrequested)
      exact ⟨(fun heq => by cases heq), (fun heq => by cases heq), no_count,
        fun _ => ⟨.inl hrequested, hall.trans hshown⟩⟩
    · exact Ending.of_loop (by simp) (by simp) rfl rfl
  case closing =>
    split at hs <;> cases hs <;>
      exact ⟨(fun heq => by cases heq), (fun heq => by cases heq), no_count, hended⟩
  case finishing =>
    cases hs
    exact ⟨(fun heq => by cases heq), (fun heq => by cases heq), no_count, hended⟩
  case drain =>
    split_ifs at hs <;> cases hs <;> exact Ending.of_loop (by simp) (by simp) rfl rfl
  all_goals
    cases hs <;> exact Ending.of_loop (by simp [recordError]) (by simp [recordError]) rfl rfl

theorem Ending.init (h : system.init s) : s.Ending := by
  obtain ⟨mode, targetCount, notifications, hstart⟩ := h
  obtain ⟨-, -, -, rfl⟩ := start_some hstart
  exact Ending.of_loop (by simp) (by simp) rfl rfl

theorem Ending.step (hqueue : s.Queue) (hhandshake : s.Handshake) (h : s.Ending)
    {label : WriterLabel} (hs : s.step label = some s') : s'.Ending := by
  rcases step_cases hs with ⟨c, memory, -, -, hcall⟩ | ⟨memory, -, hproducer⟩ | ⟨input, -, hwriter⟩
  · have hframe := call_frame hcall
    exact h.of_producer hhandshake hs hframe.toProducerFrame hframe.closeRequested.trans
  · exact h.of_producer hhandshake hs (producerStep_frame hproducer)
      (producerStep_closeRequested hproducer)
  · exact writerStep_ending hqueue hhandshake h hwriter

end CsvWriter

end MarketCapture
