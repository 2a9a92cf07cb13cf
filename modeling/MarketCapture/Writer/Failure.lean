import MarketCapture.Writer.Accounting

/-! # The failure path

After a failed write, flush or close nothing more is published, the batches that are
out are released without being written, and the run ends. A join waits for a number of
steps of the writer that can be told in advance.
-/

namespace MarketCapture

/-- A loop that loaded its count before the last batch was shown goes round once more. -/
def staleSteps (published loaded : Nat) : Nat := if loaded < published then 8 else 0

namespace LatchUse

def place (total : Nat) : LatchUse → Nat
  | written published => 15 + staleSteps total published
  | flushed => 8
  | closed => 2

end LatchUse

namespace ReleaseUse

def place (total : Nat) : ReleaseUse → Nat
  | written published _ => 18 + staleSteps total published
  | discarded _ => 7

/-- The place of a release that has not taken its batch. -/
def entry (total : Nat) : ReleaseUse → Nat
  | written published _ => 12 + staleSteps total published
  | discarded _ => 5

end ReleaseUse

namespace WriterPc

/-- How far a place is from the end of `run`, apart from the batches that are out. -/
def place (total consumed : Nat) (failed : Bool) : WriterPc → Nat
  | sleep => 17
  | asleep => 16
  | loadPublished => 15
  | drain published => 14 + staleSteps total published
  | write published => 13 + staleSteps total published
  | releaseBytes use => use.entry total
  | releaseOverflow use => use.place total + 4
  | releaseSequence use => use.place total + 3
  | resumePublished use => use.place total + 2
  | resumeBytes use _ => use.place total + 1
  | resumeExchange use => use.place total
  | latchFailed use _ => use.place total + 2
  | latchNotify use => use.place total + 1
  | latchWait use => use.place total
  | drained => 13 + if failed then 0 else staleSteps total consumed
  | ageFlush => 12 + staleSteps total consumed
  | closeRequested => 11 + staleSteps total consumed
  | closePublished => 10 + staleSteps total consumed
  | discardLoad => 7
  | discard _ => 6
  | closing => 5
  | finishing => 1
  | done => 0

end WriterPc

namespace CsvWriter

/-- A bound on the steps of the writer once a close was requested. -/
def rank (s : CsvWriter) : Nat :=
  12 * (s.publishedSequence - s.consumerSequence) +
    s.writerPc.place s.publishedSequence s.consumerSequence s.writerFailed

variable {memory : MemoryAnswers} {s s' : CsvWriter}

theorem afterRelease_place (total consumed : Nat) (failed : Bool) (use : ReleaseUse) :
    (afterRelease use).place total consumed failed < use.place total := by
  rcases use with ⟨published, _ | error⟩ | published <;>
    simp only [afterRelease, WriterPc.place, ReleaseUse.place, LatchUse.place] <;> omega

theorem afterLatch_place (total consumed : Nat) (failed : Bool) (use : LatchUse) :
    (afterLatch use).place total consumed failed < use.place total := by
  cases use <;> simp only [afterLatch, WriterPc.place, LatchUse.place] <;> omega

/-- A step that takes no batch and moves to a lower place. -/
theorem rank_lt_of_place (hpublished : s'.publishedSequence = s.publishedSequence)
    (hconsumed : s'.consumerSequence = s.consumerSequence)
    (h : s'.writerPc.place s.publishedSequence s.consumerSequence s'.writerFailed <
      s.writerPc.place s.publishedSequence s.consumerSequence s.writerFailed) : s'.rank < s.rank := by
  rw [rank, rank, hpublished, hconsumed]
  omega

/-- Every step of the writer brings it closer to the end. -/
theorem writerStep_rank {input : WriterInput} (hqueue : s.Queue) (hidle : s.publishActive = false)
    (hclose : s.closeRequested = true) (hs : s.writerStep input = some s') : s'.rank < s.rank := by
  have hconsumed : s.consumerSequence ≤ s.publishedSequence := hqueue.ring.consumed
  have hloaded := hqueue.control.loaded
  have htaking := hqueue.control.taking
  -- with the place known before the step, it is enough to compare two places
  have lower : ∀ {pc : WriterPc}, s.writerPc = pc →
      (s'.publishedSequence = s.publishedSequence ∧ s'.consumerSequence = s.consumerSequence) →
      s'.writerPc.place s.publishedSequence s.consumerSequence s'.writerFailed <
        pc.place s.publishedSequence s.consumerSequence s.writerFailed → s'.rank < s.rank := by
    intro pc hpc hkept hlt
    exact rank_lt_of_place hkept.1 hkept.2 (by rw [hpc]; exact hlt)
  unfold writerStep at hs
  cases hpc : s.writerPc <;> simp only [hpc] at hs hloaded htaking
  case drain published =>
    have hle := hloaded published rfl
    split at hs
    · split at hs <;> cases hs
      · rename_i hfailed
        refine lower hpc ⟨rfl, rfl⟩ ?_
        simp only [WriterPc.place, hfailed, ↓reduceIte]
        omega
      · exact lower hpc ⟨rfl, rfl⟩ (by simp only [WriterPc.place]; omega)
    · rename_i hge
      cases hs
      refine lower hpc ⟨rfl, rfl⟩ ?_
      simp only [WriterPc.place, staleSteps]
      split <;> split <;> (try split) <;> omega
  case releaseBytes use =>
    cases hs
    have hlt := (htaking _ rfl).trans_le (hloaded _ rfl)
    rw [rank, rank, hpc]
    cases use <;> simp only [releaseSlot, WriterPc.place, ReleaseUse.place, ReleaseUse.entry] <;> omega
  case releaseSequence use =>
    cases hs
    have hafter := afterRelease_place s.publishedSequence s.consumerSequence s.writerFailed use
    refine lower hpc ⟨rfl, rfl⟩ ?_
    split
    · exact Nat.lt_succ_self _
    · exact hafter.trans (Nat.lt_add_of_pos_right (by decide))
  case resumeBytes use published =>
    have hafter := afterRelease_place s.publishedSequence s.consumerSequence s.writerFailed use
    split at hs <;> cases hs
    · exact lower hpc ⟨rfl, rfl⟩ (Nat.lt_succ_self _)
    · exact lower hpc ⟨rfl, rfl⟩ (hafter.trans (Nat.lt_succ_self _))
  case resumeExchange use =>
    cases hs
    have hafter := afterRelease_place s.publishedSequence s.consumerSequence s.writerFailed use
    refine lower hpc ?_ ?_
    · split <;> exact ⟨rfl, rfl⟩
    · split <;> exact hafter
  case latchWait use =>
    simp only [hidle, Bool.false_eq_true, ↓reduceIte] at hs
    cases hs
    exact lower hpc ⟨rfl, rfl⟩ (afterLatch_place _ _ _ use)
  case latchFailed use error =>
    cases hs
    exact lower hpc ⟨rfl, rfl⟩ (Nat.lt_succ_self _)
  case latchNotify use =>
    split at hs <;> cases hs <;> exact lower hpc ⟨rfl, rfl⟩ (Nat.lt_succ_self _)
  case ageFlush =>
    split at hs
    · split at hs <;> cases hs
      · refine lower hpc ⟨rfl, rfl⟩ ?_
        simp only [recordError, WriterPc.place, LatchUse.place]
        omega
      · exact lower hpc ⟨rfl, rfl⟩ (by simp only [WriterPc.place]; omega)
    · cases hs
      exact lower hpc ⟨rfl, rfl⟩ (by simp only [WriterPc.place]; omega)
  case closeRequested =>
    cases hs
    refine lower hpc ⟨rfl, rfl⟩ ?_
    simp only [hclose, ↓reduceIte, WriterPc.place]
    omega
  case closePublished =>
    cases hs
    refine lower hpc ⟨rfl, rfl⟩ ?_
    split
    · simp only [WriterPc.place]
      omega
    · rename_i hne
      -- a batch was shown after the count was loaded, so the loop goes round once more
      have hlt : s.consumerSequence < s.publishedSequence := by omega
      simp only [WriterPc.place, staleSteps, hlt, ↓reduceIte]
      omega
  case drained =>
    split at hs <;> cases hs <;> rename_i hfailed
    · exact lower hpc ⟨rfl, rfl⟩ (by simp only [WriterPc.place]; omega)
    · refine lower hpc ⟨rfl, rfl⟩ ?_
      simp only [WriterPc.place, hfailed, ↓reduceIte, Bool.false_eq_true]
      omega
  case closing =>
    split at hs <;> cases hs
    · exact lower hpc ⟨rfl, rfl⟩ (by simp only [recordError, WriterPc.place, LatchUse.place]; omega)
    · exact lower hpc ⟨rfl, rfl⟩ (by simp only [WriterPc.place]; omega)
  case loadPublished =>
    cases hs
    refine lower hpc ⟨rfl, rfl⟩ ?_
    simp only [WriterPc.place, staleSteps, Nat.lt_irrefl, ↓reduceIte]
    omega
  all_goals
    (try split at hs) <;> cases hs
    all_goals
      refine lower hpc ⟨rfl, rfl⟩ ?_
      simp only [recordError, finish, WriterPc.place, ReleaseUse.entry]
      omega

/-- The writer has a step until `run` returns. -/
theorem writerStep_some (hrunning : s.writerPc ≠ .done) (input : WriterInput) : ∃ s', s.writerStep input = some s' := by
  unfold writerStep
  cases hpc : s.writerPc <;> simp only
  case done => exact absurd hpc hrunning
  case ageFlush =>
    split
    · split <;> exact ⟨_, rfl⟩
    · exact ⟨_, rfl⟩
  case drain =>
    split
    · split <;> exact ⟨_, rfl⟩
    · exact ⟨_, rfl⟩
  all_goals
    (try split)
    all_goals exact ⟨_, rfl⟩

/-! ## A join returns -/

theorem producerStep_joinWait (hs : s.producerStep memory = some s')
    (hpc' : s'.producerPc = .joinWait) : s'.closeRequested = true := by
  unfold producerStep at hs
  cases hpc : s.producerPc <;> simp only [hpc] at hs
  case publishBytes target =>
    cases hs
    simp only [publishBatch] at hpc'
    split at hpc'
    · cases hpc'
    · split at hpc' <;> cases hpc'
  case occupancyOverflow use released releasedBytes =>
    cases hs
    cases use <;> simp only [useOccupancy] at hpc'
    case resume => split at hpc' <;> cases hpc'
    all_goals cases hpc'
  case armExchange =>
    cases hs
    split at hpc' <;> cases hpc'
  case publishFailed => split_ifs at hs <;> cases hs <;> cases hpc'
  case closeStore => split at hs <;> cases hs <;> rfl
  all_goals
    (try split at hs) <;> cases hs
    all_goals cases hpc'

theorem call_joinWait {c : Call} (hs : s.call memory c = some s') : s'.producerPc ≠ .joinWait := by
  cases c <;> simp only [call] at hs
  all_goals
    (try split at hs) <;> cases hs
    all_goals exact fun heq => by cases heq

/-- A producer that waits in `join` has requested the close. -/
theorem joinWait_closed (h : Transition.Reachable system s) (hpc : s.producerPc = .joinWait) :
    s.closeRequested = true := by
  revert hpc
  apply Transition.Reachable.invariant (P := fun s => s.producerPc = .joinWait →
    s.closeRequested = true) ?_ ?_ h
  · rintro s ⟨mode, targetCount, notifications, hstart⟩
    obtain ⟨-, -, -, rfl⟩ := start_some hstart
    exact fun heq => nomatch heq
  · intro s label s' hwaiting hs
    rcases step_cases hs with ⟨c, memory, -, -, hcall⟩ | ⟨memory, -, hproducer⟩ | ⟨input, -, hwriter⟩
    · exact fun heq => absurd heq (call_joinWait hcall)
    · exact producerStep_joinWait hproducer
    · have hframe := writerStep_frame hwriter
      rw [hframe.producerPc, hframe.closeRequested]
      exact hwaiting

/-- While the producer waits, as many steps of the writer as its rank end the run. -/
theorem run_returns (h : s.Inv) (hpc : s.producerPc = .joinWait) (hclose : s.closeRequested = true)
    (inputs : List WriterInput) (hlength : s.rank ≤ inputs.length) :
    ∃ n s', n ≤ inputs.length ∧ s.run ((inputs.take n).map .writer) = some s' ∧
      s'.writerPc = .done := by
  induction inputs generalizing s with
  | nil =>
      refine ⟨0, s, Nat.le_refl 0, rfl, ?_⟩
      by_contra hrunning
      obtain ⟨s', hs⟩ := writerStep_some hrunning {}
      have hidle : s.publishActive = false := by rw [h.handshake.active, hpc]; rfl
      have hlt := writerStep_rank h.queue hidle hclose hs
      simp only [List.length_nil] at hlength
      omega
  | cons input inputs ih =>
      by_cases hdone : s.writerPc = .done
      · exact ⟨0, s, Nat.zero_le _, rfl, hdone⟩
      · obtain ⟨t, ht⟩ := writerStep_some hdone input
        have hidle : s.publishActive = false := by rw [h.handshake.active, hpc]; rfl
        have hlt := writerStep_rank h.queue hidle hclose ht
        have hframe := writerStep_frame ht
        have hstep : s.step (.writer input) = some t := ht
        simp only [List.length_cons] at hlength
        obtain ⟨n, s', hn, hrun, hend⟩ := ih (h.step hstep) (hframe.producerPc.trans hpc)
          (hframe.closeRequested.trans hclose) (by omega)
        refine ⟨n + 1, s', Nat.succ_le_succ hn, ?_, hend⟩
        simp only [List.take_succ_cons, List.map_cons, run, hstep, Option.bind_some]
        exact hrun

/-! ## After the latch -/

/-- Once the latch has returned no batch is entered any more. -/
theorem log_after_latch (h : s.Inv) (hreturned : s.history.latchReturned = true)
    {labels : List WriterLabel} (hexec : Transition.Exec system s labels s') :
    s'.Inv ∧ s'.history.log = s.history.log := by
  have hinv : s'.Inv ∧ s'.Settled ∧ s'.history.log = s.history.log := by
    apply hexec.invariant (P := fun t => t.Inv ∧ t.Settled ∧ t.history.log = s.history.log)
    · exact ⟨h, .inr hreturned, rfl⟩
    · intro t label t' ⟨hinv, hsettled, hlog⟩ hs
      obtain ⟨hsettled', huncommitted⟩ := step_settled hinv.handshake hsettled hs
      exact ⟨hinv.step hs, hsettled', huncommitted.log.trans hlog⟩
  exact ⟨hinv.1, hinv.2.2⟩

theorem unreturned_of_pastFailed {pc : ProducerPc} (h : pc.pastFailed = false) :
    pc.unreturned = if pc = .publishNotify then 1 else 0 := by
  cases pc with
  | occupancyReleased use => cases use <;> first | rfl | cases h
  | occupancyBytes use => cases use <;> first | rfl | cases h
  | occupancyOverflow use => cases use <;> first | rfl | cases h
  | _ => first | rfl | cases h

/-- A publish returns without an error after the latch only if it had cleared
`publish_active` before. -/
theorem returned_after_latch (h : s.Inv) (hreturned : s.history.latchReturned = true)
    {labels : List WriterLabel} (hexec : Transition.Exec system s labels s') :
    s'.history.returned ≤ s.history.returned + if s.producerPc = .publishNotify then 1 else 0 := by
  obtain ⟨hinv', hlog⟩ := log_after_latch h hreturned hexec
  have hbefore := h.counts.returned
  have hafter := hinv'.counts.returned
  rw [unreturned_of_pastFailed (h.handshake.returned hreturned).2] at hbefore
  rw [hlog] at hafter
  omega

/-- The failure path: nothing is entered after the latch, what is out is released once, the
notification is sent at most once, and the final result balances. -/
theorem failed_drain (h : Transition.Reachable system s) :
    (s.history.latchReturned = true → ∀ labels s', Transition.Exec system s labels s' →
      s'.history.log = s.history.log ∧ s'.history.returned ≤
        s.history.returned + if s.producerPc = .publishNotify then 1 else 0) ∧
    s.history.freed = s.history.log.take s.consumerSequence ∧
    (s.writerPc = .done → s.history.freed = s.history.log ∧
      s.releasedSequence = s.history.log.length ∧ s.publishedSequence = s.history.log.length) ∧
    (s.producerPc = .joinWait → ∀ inputs : List WriterInput, s.rank ≤ inputs.length →
      ∃ n s', n ≤ inputs.length ∧ s.run ((inputs.take n).map .writer) = some s' ∧
        s'.writerPc = .done) ∧
    s.history.failureNotifications ≤ 1 ∧
    (∀ result, s.outcome = some (.joined result) → s.writerPc = .done ∧
      result = s.finalResult ∧ result.outputError = s.history.errors.head?) ∧
    (s.writerPc = .done →
      s.finalResult.metrics.auditRowsPublished =
        s.finalResult.metrics.auditRowsWritten + s.finalResult.metrics.auditRowsUnwritten ∧
      s.finalResult.metrics.orderBookRowsPublished =
        s.finalResult.metrics.orderBookRowsWritten + s.finalResult.metrics.orderBookRowsUnwritten ∧
      s.finalResult.metrics.auditRowsWritten ≤ s.finalResult.metrics.auditRowsPublished ∧
      s.finalResult.metrics.orderBookRowsWritten ≤ s.finalResult.metrics.orderBookRowsPublished ∧
      s.finalResult.metrics.auditRowsPublished = (s.history.log.map Slot.auditCount).sum ∧
      s.finalResult.metrics.orderBookRowsPublished = (s.history.log.map Slot.orderBookCount).sum ∧
      s.history.returned ≤ s.history.log.length) := by
  have hinv := inv_of_reachable h
  refine ⟨?_, hinv.queue.ring.freed, ?_, ?_, ?_, ?_, ?_⟩
  · intro hreturned labels s' hexec
    exact ⟨(log_after_latch hinv hreturned hexec).2, returned_after_latch hinv hreturned hexec⟩
  · intro hdone
    obtain ⟨hall, hfreed, -⟩ := hinv.drained hdone
    have hsettled := (hinv.ending.ended (by rw [hdone]; rfl)).1
    have hshown := hinv.queue.shown_of_settled hinv.handshake hsettled
    have hproduced : s.producerSequence = s.history.log.length := hinv.queue.ring.produced
    have hreleased : s.releasedSequence + s.writerPc.releasing.toNat = s.consumerSequence :=
      hinv.queue.ring.released
    rw [hdone] at hreleased
    exact ⟨hfreed, hreleased.trans hall, hshown.trans hproduced⟩
  · intro hpc inputs hlength
    exact run_returns hinv hpc (joinWait_closed h hpc) inputs hlength
  · rw [hinv.errors.notified]
    exact Bool.toNat_le _
  · intro result hjoined
    obtain ⟨hdone, rfl⟩ := hinv.result.joined result hjoined
    refine ⟨hdone, rfl, ?_⟩
    rw [hinv.errors.settled (by rw [hdone]; rfl), hinv.errors.first]
  · intro hdone
    obtain ⟨-, -, hhanded⟩ := hinv.drained hdone
    have hfinal := hinv.result.final hdone
    obtain ⟨haudit, hbook⟩ := CsvOutputSet.metrics_le s.output
    have hauditTotal := hinv.delivery.auditTotal
    have hbookTotal := hinv.delivery.orderBookTotal
    have hreturned := hinv.counts.returned
    rw [hhanded, Ring.total_length] at hauditTotal hbookTotal
    rw [hfinal.auditPublished, hfinal.orderBookPublished, hfinal.auditWritten, hfinal.orderBookWritten,
      hfinal.auditUnwritten, hfinal.orderBookUnwritten, hinv.counts.audit, hinv.counts.orderBook]
    refine ⟨?_, ?_, ?_, ?_, rfl, rfl, ?_⟩ <;> omega

/-- A publish that has cleared `publish_active`, after which a flush fails. -/
def sampleFailure : List WriterLabel :=
  alone .tryAcquire 3 ++ alone (.fill sampleBatch 0 0) 0 ++ alone (.publish 0) 10 ++ writerAlone 11 ++
    [.writer { answers := { writes := [.failed 28] }, flushDue := true }] ++ writerAlone 3

/-- The last step of such a publish comes after the latch has returned. -/
theorem publish_returns_after_latch :
    ¬ ∀ s, Transition.Reachable system s → s.history.latchReturned = true →
      ∀ labels s', Transition.Exec system s labels s' → s'.history.returned = s.history.returned := by
  intro hclaim
  obtain ⟨s, hreachable, hp⟩ := exists_of_run
    (p := fun s => s.history.latchReturned && s.producerPc = .publishNotify)
    (show ((start (.opened .liveCapture 1) ⟨true, true⟩).bind fun s => s.run sampleFailure).any _ = true
      by decide +kernel)
  simp only [Bool.and_eq_true, decide_eq_true_eq] at hp
  have hstep : s.step (.producer {}) = some ({ s with history := { s.history with
      returned := s.history.returned + 1 } }.returns (.published none)) := by
    simp only [step, producerStep, hp.2]
  have hexec := Transition.Exec.cons (S := system) hstep (.nil _)
  have hsame := hclaim s hreachable hp.1 _ _ hexec
  exact absurd hsame (Nat.succ_ne_self _)

/-- The run goes on to its end, and the row is counted as unwritten. -/
theorem failed_drain_sample :
    ∃ s, Transition.Reachable system s ∧ s.writerPc = .done ∧
      s.history.failureNotifications = 1 ∧ s.finalResult.metrics.auditRowsUnwritten = 1 ∧
      s.finalResult.metrics.auditRowsPublished =
        s.finalResult.metrics.auditRowsWritten + s.finalResult.metrics.auditRowsUnwritten := by
  obtain ⟨s, hreachable, hp⟩ := exists_of_run
    (p := fun s => s.writerPc = .done && s.history.failureNotifications = 1 &&
      s.finalResult.metrics.auditRowsUnwritten = 1)
    (show ((start (.opened .liveCapture 1) ⟨true, true⟩).bind fun s =>
      s.run (sampleFailure ++ [.producer {}] ++ alone .join 1 ++ writerAlone 7)).any _ = true
      by decide +kernel)
  simp only [Bool.and_eq_true, decide_eq_true_eq] at hp
  obtain ⟨⟨hdone, hnotified⟩, hunwritten⟩ := hp
  obtain ⟨-, -, -, -, -, -, hend⟩ := failed_drain hreachable
  exact ⟨s, hreachable, hdone, hnotified, hunwritten, (hend hdone).1⟩

end CsvWriter

end MarketCapture
