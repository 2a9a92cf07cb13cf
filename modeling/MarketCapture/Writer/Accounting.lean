import MarketCapture.Writer.Delivery

/-! # Published and written rows

The counts of published rows are those of the entered batches, which are the batches of
the calls of `publish` that returned without an error and of at most one that is about
to. The counts of written rows never exceed them.
-/

namespace MarketCapture

namespace ProducerPc

/-- One for a batch that is entered by a `publish` that has not returned. -/
def unreturned : ProducerPc → Nat
  | occupancyReleased use => if use = .highWater then 1 else 0
  | occupancyBytes use _ => if use = .highWater then 1 else 0
  | occupancyOverflow use _ _ => if use = .highWater then 1 else 0
  | publishStoreBytes => 1
  | publishStoreSequence => 1
  | publishClear => 1
  | publishNotify => 1
  | _ => 0

end ProducerPc

namespace CsvWriter

open CsvOutputSet TargetFiles

structure Counts (s : CsvWriter) : Prop where
  audit : s.metrics.auditRowsPublished = (s.history.log.map Slot.auditCount).sum
  orderBook : s.metrics.orderBookRowsPublished = (s.history.log.map Slot.orderBookCount).sum
  returned : s.history.returned + s.producerPc.unreturned = s.history.log.length
  sizes : ∀ slot ∈ s.history.log, slot.logicalBytes = batchBytes slot.batch

/-- The counts of the final result, taken when the files were closed. -/
structure Final (s : CsvWriter) : Prop where
  auditPublished : s.finalResult.metrics.auditRowsPublished = s.metrics.auditRowsPublished
  orderBookPublished : s.finalResult.metrics.orderBookRowsPublished = s.metrics.orderBookRowsPublished
  auditWritten : s.finalResult.metrics.auditRowsWritten = s.output.metrics.auditRowsWritten
  orderBookWritten :
    s.finalResult.metrics.orderBookRowsWritten = s.output.metrics.orderBookRowsWritten
  auditUnwritten : s.finalResult.metrics.auditRowsUnwritten =
    s.metrics.auditRowsPublished - s.output.metrics.auditRowsWritten
  orderBookUnwritten : s.finalResult.metrics.orderBookRowsUnwritten =
    s.metrics.orderBookRowsPublished - s.output.metrics.orderBookRowsWritten

/-- What is known of the final result. -/
structure Result (s : CsvWriter) : Prop where
  final : s.writerPc = .done → s.Final
  joined : ∀ r, s.outcome = some (.joined r) → s.writerPc = .done ∧ r = s.finalResult

variable {memory : MemoryAnswers} {s s' : CsvWriter}

/-! ## Counts -/

theorem Counts.of_kept (h : s.Counts) (hlog : s'.history.log = s.history.log)
    (haudit : s'.metrics.auditRowsPublished = s.metrics.auditRowsPublished)
    (hbook : s'.metrics.orderBookRowsPublished = s.metrics.orderBookRowsPublished)
    (hreturned : s'.history.returned + s'.producerPc.unreturned =
      s.history.returned + s.producerPc.unreturned) : s'.Counts := by
  refine ⟨?_, ?_, ?_, ?_⟩
  · rw [haudit, hlog]
    exact h.audit
  · rw [hbook, hlog]
    exact h.orderBook
  · rw [hreturned, hlog]
    exact h.returned
  · rw [hlog]
    exact h.sizes

theorem call_counts {c : Call} (h : s.Counts) (hidle : s.producerPc = .idle)
    (hs : s.call memory c = some s') : s'.Counts := by
  have hframe := call_frame hs
  have hpc : s'.producerPc.unreturned = 0 := by
    cases c <;> simp only [call] at hs
    all_goals
      (try split at hs) <;> cases hs
      all_goals rfl
  refine h.of_kept (by rw [hframe.history]) (by rw [hframe.metrics]) (by rw [hframe.metrics]) ?_
  rw [hframe.history, hpc, hidle]
  rfl

theorem publishBatch_counted (h : s.Counts) {target : Nat}
    (hpc : s.producerPc = .publishBytes target) : (s.publishBatch target).Counts := by
  have haudit := h.audit
  have hbook := h.orderBook
  have hreturned := h.returned
  rw [hpc] at hreturned
  simp only [publishBatch]
  split
  · exact h.of_kept rfl rfl rfl (by rw [hpc]; rfl)
  · split
    · refine ⟨?_, ?_, ?_, ?_⟩
      · simp [countPublished, Slot.auditCount, haudit]
      · simp [countPublished, Slot.orderBookCount, hbook]
      · simp only [ProducerPc.unreturned, List.length_append, List.length_cons, List.length_nil,
          ← hreturned]
        rfl
      · intro slot hslot
        rcases List.mem_append.mp hslot with hold | hnew
        · exact h.sizes slot hold
        · obtain rfl := List.mem_singleton.mp hnew
          rfl
    · exact h.of_kept rfl rfl rfl (by rw [hpc]; rfl)

theorem useOccupancy_counts (h : s.Counts) {use : OccupancyUse} {released releasedBytes : Nat}
    (hpc : s.producerPc = .occupancyOverflow use released releasedBytes)
    (current : CsvWriterOccupancy) : (s.useOccupancy use current).Counts := by
  cases use <;> simp only [useOccupancy]
  case resume => split <;> exact h.of_kept rfl rfl rfl (by rw [hpc]; rfl)
  all_goals exact h.of_kept rfl rfl rfl (by rw [hpc]; rfl)

theorem producerStep_counts (h : s.Counts) (hs : s.producerStep memory = some s') :
    s'.Counts := by
  unfold producerStep at hs
  cases hpc : s.producerPc <;> simp only [hpc] at hs
  case publishBytes target =>
    cases hs
    exact publishBatch_counted h hpc
  case occupancyOverflow use released releasedBytes =>
    cases hs
    exact useOccupancy_counts h hpc _
  case armExchange =>
    cases hs
    split <;> exact h.of_kept rfl rfl rfl (by rw [hpc]; rfl)
  case publishFailed => split_ifs at hs <;> cases hs <;> exact h.of_kept rfl rfl rfl (by rw [hpc]; rfl)
  all_goals
    (try split at hs) <;> cases hs
    all_goals exact h.of_kept rfl rfl rfl (by rw [hpc]; rfl)

theorem Counts.step (h : s.Counts) {label : WriterLabel} (hs : s.step label = some s') :
    s'.Counts := by
  rcases step_cases hs with ⟨c, memory, -, hidle, hcall⟩ | ⟨memory, -, hproducer⟩ | ⟨input, -, hwriter⟩
  · exact call_counts h hidle hcall
  · exact producerStep_counts h hproducer
  · have hframe := writerStep_frame hwriter
    refine h.of_kept hframe.log hframe.auditRowsPublished hframe.orderBookRowsPublished ?_
    rw [hframe.returned, hframe.producerPc]

/-! ## The final result -/

theorem call_joined {c : Call} (hs : s.call memory c = some s') (r : CsvWriterResult)
    (hjoined : s'.outcome = some (.joined r)) : s.outcome = some (.joined r) := by
  have hcancel : (s.cancel memory).outcome = s.outcome := by
    unfold cancel
    split <;> rfl
  cases c <;> simp only [call] at hs
  case close | join =>
    cases hs
    exact hcancel.symm.trans hjoined
  all_goals
    (try split at hs) <;> cases hs
    all_goals first | exact hjoined | cases hjoined

/-- Only `join` returns a result, and only when `run` has returned. -/
theorem producerStep_joined (hs : s.producerStep memory = some s') (r : CsvWriterResult)
    (hjoined : s'.outcome = some (.joined r)) :
    s.outcome = some (.joined r) ∨ (s.writerPc = .done ∧ r = s.finalResult) := by
  unfold producerStep at hs
  cases hpc : s.producerPc <;> simp only [hpc] at hs
  case publishBytes target =>
    cases hs
    simp only [publishBatch] at hjoined
    split at hjoined
    · exact .inl hjoined
    · split at hjoined <;> exact .inl hjoined
  case occupancyOverflow use released releasedBytes =>
    cases hs
    cases use <;> simp only [useOccupancy] at hjoined
    case highWater => exact .inl hjoined
    case resume => split at hjoined <;> first | exact .inl hjoined | cases hjoined
    all_goals cases hjoined
  case armExchange =>
    cases hs
    split at hjoined <;> cases hjoined
  case publishFailed => split_ifs at hs <;> cases hs <;> exact .inl hjoined
  case joinWait =>
    split at hs <;> cases hs
    rename_i hdone
    cases hjoined
    exact .inr ⟨hdone, rfl⟩
  all_goals
    (try split at hs) <;> cases hs
    all_goals first | exact .inl hjoined | cases hjoined

theorem Result.of_producer (hhandshake : s.Handshake) (hending : s.Ending) (h : s.Result)
    {label : WriterLabel} (hs : s.step label = some s') (hframe : ProducerFrame s s')
    (hjoined : ∀ r, s'.outcome = some (.joined r) →
      s.outcome = some (.joined r) ∨ (s.writerPc = .done ∧ r = s.finalResult)) : s'.Result := by
  refine ⟨?_, ?_⟩
  · rw [hframe.writerPc]
    intro hdone
    have hfinal := h.final hdone
    obtain ⟨-, huncommitted⟩ :=
      step_settled hhandshake (hending.ended (by rw [hdone]; rfl)).1 hs
    refine ⟨?_, ?_, ?_, ?_, ?_, ?_⟩
    · rw [hframe.finalResult, huncommitted.auditRowsPublished]
      exact hfinal.auditPublished
    · rw [hframe.finalResult, huncommitted.orderBookRowsPublished]
      exact hfinal.orderBookPublished
    · rw [hframe.finalResult, hframe.output]
      exact hfinal.auditWritten
    · rw [hframe.finalResult, hframe.output]
      exact hfinal.orderBookWritten
    · rw [hframe.finalResult, hframe.output, huncommitted.auditRowsPublished]
      exact hfinal.auditUnwritten
    · rw [hframe.finalResult, hframe.output, huncommitted.orderBookRowsPublished]
      exact hfinal.orderBookUnwritten
  · rw [hframe.writerPc, hframe.finalResult]
    intro r hr
    rcases hjoined r hr with hbefore | hnow
    · exact h.joined r hbefore
    · exact hnow

/-- `run` returns from its last step only. -/
theorem writerStep_done {input : WriterInput} (hs : s.writerStep input = some s')
    (hdone : s'.writerPc = .done) : s' = s.finish := by
  have not_release : ∀ use, afterRelease use ≠ .done := by
    rintro (⟨published, _ | error⟩ | published) <;> exact fun heq => nomatch heq
  unfold writerStep at hs
  cases hpc : s.writerPc <;> simp only [hpc] at hs
  case finishing =>
    cases hs
    rfl
  case releaseSequence use =>
    cases hs
    simp only at hdone
    split at hdone
    · cases hdone
    · exact absurd hdone (not_release use)
  case resumeBytes use published =>
    split at hs <;> cases hs
    · cases hdone
    · exact absurd hdone (not_release use)
  case resumeExchange use =>
    cases hs
    split at hdone <;> exact absurd hdone (not_release use)
  case latchWait use =>
    split at hs <;> cases hs
    · rw [hpc] at hdone
      cases hdone
    · cases use <;> cases hdone
  case ageFlush =>
    split at hs
    · split at hs <;> cases hs <;> cases hdone
    · cases hs
      cases hdone
  case closeRequested | closePublished =>
    cases hs
    simp only at hdone
    split at hdone <;> cases hdone
  case drain => split_ifs at hs <;> cases hs <;> cases hdone
  all_goals
    (try split at hs) <;> cases hs
    all_goals cases hdone

theorem writerStep_result {input : WriterInput} (h : s.Result)
    (hs : s.writerStep input = some s') : s'.Result := by
  have hframe := writerStep_frame hs
  have hrunning : s.writerPc ≠ .done := by
    intro hdone
    simp [writerStep, hdone] at hs
  refine ⟨fun hdone => ?_, ?_⟩
  · rw [writerStep_done hs hdone]
    exact ⟨rfl, rfl, rfl, rfl, rfl, rfl⟩
  · rw [hframe.outcome]
    exact fun r hr => absurd (h.joined r hr).1 hrunning

theorem Result.step (hhandshake : s.Handshake) (hending : s.Ending) (h : s.Result)
    {label : WriterLabel} (hs : s.step label = some s') : s'.Result := by
  rcases step_cases hs with ⟨c, memory, -, -, hcall⟩ | ⟨memory, -, hproducer⟩ | ⟨input, -, hwriter⟩
  · exact h.of_producer hhandshake hending hs (call_frame hcall).toProducerFrame
      (fun r hr => .inl (call_joined hcall r hr))
  · exact h.of_producer hhandshake hending hs (producerStep_frame hproducer)
      (producerStep_joined hproducer)
  · exact writerStep_result h hwriter

/-! ## Every run -/

/-- The whole invariant of the writer. -/
structure Inv (s : CsvWriter) : Prop where
  queue : s.Queue
  handshake : s.Handshake
  ending : s.Ending
  errors : s.Errors
  delivery : s.Delivery
  counts : s.Counts
  result : s.Result

theorem Inv.init (h : system.init s) : s.Inv := by
  have hqueue := Queue.init h
  have hhandshake := Handshake.init h
  have hending := Ending.init h
  obtain ⟨mode, targetCount, notifications, hstart⟩ := h
  obtain ⟨-, -, -, rfl⟩ := start_some hstart
  have hholds := opened_holds mode targetCount
  refine ⟨hqueue, hhandshake, hending, ?_, ?_, ⟨rfl, rfl, rfl, by simp⟩, ?_⟩
  · exact ⟨rfl, (fun hf => nomatch hf), (fun e he => nomatch he), fun _ => rfl, rfl⟩
  · refine ⟨fun _ => CsvOutputSet.opened_ready mode targetCount, hholds.auditTotal.le,
      hholds.orderBookTotal.le, fun _ => hholds, fun hclosed => nomatch hclosed⟩
  · exact ⟨(fun hdone => nomatch hdone), fun r hr => nomatch hr⟩

/-- A step enters at most one batch. -/
theorem Queue.log_cases (h : s.Queue) {label : WriterLabel} (hs : s.step label = some s') :
    s'.history.log = s.history.log ∨ ∃ slot, s'.history.log = s.history.log ++ [slot] := by
  rcases h.follows hs with heq | hstep
  · exact .inl (congrArg Ring.State.log heq)
  · exact hstep.log_cases

theorem Inv.step (h : s.Inv) {label : WriterLabel} (hs : s.step label = some s') : s'.Inv := by
  have hlog := h.queue.log_cases hs
  have hproducer : ∀ hframe : ProducerFrame s s', s'.Errors ∧ s'.Delivery :=
    fun hframe => ⟨h.errors.of_producer hframe, h.delivery.of_producer h.queue hframe hlog⟩
  have houtput : s'.Errors ∧ s'.Delivery := by
    rcases step_cases hs with ⟨c, memory, -, -, hcall⟩ | ⟨memory, -, hstep⟩ | ⟨input, -, hwriter⟩
    · exact hproducer (call_frame hcall).toProducerFrame
    · exact hproducer (producerStep_frame hstep)
    · exact ⟨writerStep_errors h.delivery h.errors hwriter,
        writerStep_delivery h.queue h.handshake h.ending h.errors h.delivery hwriter⟩
  exact ⟨h.queue.step hs, h.handshake.step hs, h.ending.step h.queue h.handshake hs, houtput.1,
    houtput.2, h.counts.step hs, h.result.step h.handshake h.ending hs⟩

theorem inv_of_reachable (h : Transition.Reachable system s) : s.Inv :=
  Transition.Reachable.invariant (fun _ hinit => Inv.init hinit)
    (fun _ _ _ hinv hs => Inv.step hinv hs) h

/-! ## Nothing is lost -/

/-- The batches that are entered and not yet released. -/
def outstanding (s : CsvWriter) : List Slot := s.history.log.drop s.consumerSequence

theorem Inv.outstanding_bytes (h : s.Inv) : s.producerBytes - s.bytesReleased =
    (s.outstanding.map fun slot => batchBytes slot.batch).sum := by
  have hsizes : s.outstanding.map Slot.logicalBytes =
      s.outstanding.map fun slot => batchBytes slot.batch := by
    apply List.map_congr_left
    intro slot hslot
    exact h.counts.sizes slot (List.mem_of_mem_drop hslot)
  rw [← hsizes]
  exact h.queue.ring.outstanding

/-- A slot that is held carries no batch that is still out. -/
theorem Inv.held_slot (h : s.Inv) (hslot : s.slotAcquired = true) (i : Nat)
    (hi : i < s.history.log.length) (hindex : i % csvWriterSlotCount = s.producerIndex) :
    i < s.releasedSequence := by
  have hproduced : s.producerSequence = s.history.log.length := h.queue.ring.produced
  have hphase : s.producerPc.phase = none := by
    by_contra hsome
    rw [h.queue.control.holds false (ProducerPc.holds_of_phase hsome)] at hslot
    cases hslot
  have hroom : s.producerSequence < s.releasedSequence + csvWriterSlotCount :=
    h.queue.ring.heldRoom (phase_held hphase hslot)
  by_contra hge
  exact Ring.slot_ne (show i < s.producerSequence by omega) (by omega) hindex

/-- When `run` has returned every entered batch is released. -/
theorem Inv.drained (h : s.Inv) (hdone : s.writerPc = .done) :
    s.consumerSequence = s.history.log.length ∧ s.history.freed = s.history.log ∧
      s.handed = s.history.log.length := by
  have hproduced : s.producerSequence = s.history.log.length := h.queue.ring.produced
  have hall : s.consumerSequence = s.history.log.length :=
    (h.ending.ended (by rw [hdone]; rfl)).2.trans hproduced
  have hfreed : s.history.freed = s.history.log.take s.consumerSequence := h.queue.ring.freed
  refine ⟨hall, ?_, ?_⟩
  · rw [hfreed, hall, List.take_length]
  · rw [handed, hall, hdone]
    rfl

/-- Whatever the interleaving, the ring is never overrun and its byte count is that of the
batches that are out; and a run without an error writes every published batch once. -/
theorem published_batches_written (h : Transition.Reachable system s) :
    (s.releasedSequence ≤ s.publishedSequence ∧
      s.publishedSequence ≤ s.releasedSequence + csvWriterSlotCount) ∧
    (s.bytesReleased ≤ s.producerBytes ∧ s.producerBytes - s.bytesReleased =
      (s.outstanding.map fun slot => batchBytes slot.batch).sum ∧
      s.producerBytes - s.bytesReleased ≤ csvWriterByteCapacity) ∧
    (s.producerPc.inPublish = false → s.writerPc.inRelease = false →
      s.bytesPublished = s.producerBytes ∧ s.publishedSequence = s.history.log.length ∧
      s.releasedSequence = s.consumerSequence) ∧
    (s.slotAcquired = true → ∀ i < s.history.log.length,
      i % csvWriterSlotCount = s.producerIndex → i < s.releasedSequence) ∧
    (s.writerPc = .done → s.history.errors = [] →
      s.history.freed = s.history.log ∧ s.outstanding = [] ∧
      (∀ index t, s.output.targets[index]? = some t →
        t.auditFile = auditHeader s.output.mode ++
          s.history.log.flatMap (Slot.auditBytesFor index) ∧
        t.orderBookFile = orderBookCsvHeader ++
          s.history.log.flatMap (Slot.orderBookBytesFor index)) ∧
      s.finalResult.metrics.auditRowsWritten = s.finalResult.metrics.auditRowsPublished ∧
      s.finalResult.metrics.orderBookRowsWritten = s.finalResult.metrics.orderBookRowsPublished ∧
      s.finalResult.metrics.auditRowsPublished = (s.history.log.map Slot.auditCount).sum ∧
      s.finalResult.metrics.orderBookRowsPublished =
        (s.history.log.map Slot.orderBookCount).sum) := by
  have hinv := inv_of_reachable h
  have hproduced : s.producerSequence = s.history.log.length := hinv.queue.ring.produced
  refine ⟨⟨?_, ?_⟩, ⟨hinv.queue.ring.releasedWeight_le, hinv.outstanding_bytes, ?_⟩, ?_, ?_, ?_⟩
  · exact hinv.queue.ring.released_le.trans hinv.queue.ring.consumed
  · exact hinv.queue.ring.published_le.trans hinv.queue.ring.room
  · exact Nat.sub_le_iff_le_add'.mpr hinv.queue.ring.weightRoom
  · intro hpublish hrelease
    obtain ⟨hpublished, hbytes, hreleased, -⟩ := hinv.queue.shown hpublish hrelease
    exact ⟨hbytes, hpublished.trans hproduced, hreleased⟩
  · exact fun hslot i hi hindex => hinv.held_slot hslot i hi hindex
  · intro hdone herrors
    obtain ⟨hall, hfreed, hhanded⟩ := hinv.drained hdone
    have hclean : s.output.firstError = none := by rw [hinv.errors.first, herrors]; rfl
    have hholds := hinv.delivery.holds hclean
    have hdrained := hinv.delivery.drained (by rw [hdone]; rfl) hclean
    have hfinal := hinv.result.final hdone
    obtain ⟨haudit, hbook⟩ := metrics_eq hdrained
    rw [hhanded, List.take_length] at hholds
    refine ⟨hfreed, ?_, ?_, ?_, ?_, ?_, ?_⟩
    · rw [outstanding, hall, List.drop_length]
    · intro index t ht
      obtain ⟨hauditFile, hbookFile⟩ := (hdrained t (List.mem_of_getElem? ht)).files
      rw [hauditFile, hbookFile]
      exact ⟨hholds.audit index t ht, hholds.orderBook index t ht⟩
    · rw [hfinal.auditWritten, hfinal.auditPublished, haudit, hholds.auditTotal, hinv.counts.audit]
    · rw [hfinal.orderBookWritten, hfinal.orderBookPublished, hbook, hholds.orderBookTotal,
        hinv.counts.orderBook]
    · rw [hfinal.auditPublished, hinv.counts.audit]
    · rw [hfinal.orderBookPublished, hinv.counts.orderBook]

/-- A batch with both rows. -/
def sampleBatch : EventRowBatch :=
  { auditRow := ascii "a\n", orderBookRow := ascii "b\n", hasAuditRow := true,
    hasOrderBookRow := true }

/-- A producer that publishes the batch, undisturbed. -/
def samplePublish : List WriterLabel :=
  alone .tryAcquire 3 ++ alone (.fill sampleBatch 0 0) 0 ++ alone (.publish 0) 11

/-- A run that publishes the batch and joins. -/
theorem published_batches_written_sample :
    ∃ s t, Transition.Reachable system s ∧ s.writerPc = .done ∧ s.history.errors = [] ∧
      s.output.targets[0]? = some t ∧
      t.auditFile = marketDataCsvHeader ++ ascii "a\n" ∧
      t.orderBookFile = orderBookCsvHeader ++ ascii "b\n" ∧
      s.finalResult.metrics.auditRowsPublished = 1 := by
  obtain ⟨s, hreachable, hp⟩ := exists_of_run
    (p := fun s => s.writerPc = .done && s.history.errors.isEmpty && s.output.mode = .liveCapture &&
      s.output.targets.length = 1 &&
      s.history.log.map (fun slot => (slot.batch, slot.targetIndex)) = [(sampleBatch, some 0)])
    (show ((start (.opened .liveCapture 1) ⟨true, true⟩).bind fun s =>
      s.run (samplePublish ++ alone .join 1 ++ writerAlone 16)).any _ = true by decide +kernel)
  simp only [Bool.and_eq_true, decide_eq_true_eq, List.isEmpty_iff] at hp
  obtain ⟨⟨⟨⟨hdone, herrors⟩, hmode⟩, hlength⟩, hlog⟩ := hp
  obtain ⟨t, ht⟩ : ∃ t, s.output.targets[0]? = some t := ⟨_, List.getElem?_eq_getElem (by omega)⟩
  obtain ⟨slot, hslot, hentry⟩ := List.map_eq_singleton_iff.mp hlog
  obtain ⟨hbatch, hindex⟩ := Prod.mk.inj hentry
  obtain ⟨-, -, -, -, hend⟩ := published_batches_written hreachable
  obtain ⟨-, -, hfiles, -, -, hcount, -⟩ := hend hdone herrors
  refine ⟨s, t, hreachable, hdone, herrors, ht, ?_, ?_, ?_⟩
  · rw [(hfiles 0 t ht).1, hslot, hmode]
    simp [Slot.auditBytesFor, hindex, hbatch, auditHeader, EventRowBatch.auditBytes, sampleBatch]
  · rw [(hfiles 0 t ht).2, hslot]
    simp [Slot.orderBookBytesFor, hindex, hbatch, EventRowBatch.orderBookBytes, sampleBatch]
  · rw [hcount, hslot]
    simp [Slot.auditCount, hbatch, EventRowBatch.auditCount, sampleBatch]

end CsvWriter

end MarketCapture
