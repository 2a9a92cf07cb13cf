import MarketCapture.Controller.Emission

/-! # What the files of a capture hold

Between the delivery of a message and the row in a file are two threads, a queue and buffers. In
every state that they reach the files hold what the pipeline, run alone on the messages that were
delivered, has emitted up to some point of its run. A capture that has ended in success has
written all of it.
-/

namespace MarketCapture

open Simdjson LiveStep

/-- The bytes that an entry of the queue adds to a file of a target. -/
def entryBytes (bytes : EventRowBatch → Bytes) (index : Nat) (entry : Option Nat × EventRowBatch) :
    Bytes :=
  if entry.1 = some index then bytes entry.2 else []

section Entries

variable {index : Nat} {steps : List LiveStep}

/-- The rows of the steps for a target are those of their entries. -/
theorem flatMap_entries (bytes : EventRowBatch → Bytes) :
    ((steps.filter (audits index)).flatMap fun step => bytes step.output) =
      (steps.filterMap LiveStep.entry).flatMap (entryBytes bytes index) := by
  induction steps with
  | nil => rfl
  | cons step steps ih =>
      by_cases hready : step.result.disposition = .batchReady
      · have hentry : step.entry = some (step.result.targetIndex, step.output) := by
          rw [LiveStep.entry, if_pos hready]
        rw [List.filterMap_cons_some hentry, List.flatMap_cons, ← ih, entryBytes]
        by_cases htarget : step.result.targetIndex = some index
        · simp [audits, hready, htarget]
        · simp [audits, htarget]
      · have hentry : step.entry = none := by
          rw [LiveStep.entry, if_neg hready]
        rw [List.filterMap_cons_none hentry, ← ih]
        simp [audits, hready]

theorem auditBytes_entries (h : ∀ step ∈ steps, step.IsAudited) :
    auditBytes index steps =
      (steps.filterMap LiveStep.entry).flatMap (entryBytes EventRowBatch.auditBytes index) := by
  rw [← flatMap_entries, auditBytes]
  refine List.flatMap_congr fun step hstep => ?_
  obtain ⟨hmem, haudits⟩ := List.mem_filter.mp hstep
  simp only [audits, Bool.and_eq_true, decide_eq_true_eq] at haudits
  rw [EventRowBatch.auditBytes, if_pos (h step hmem haudits.1)]

/-- Files that hold the slots of some steps hold the rows of these steps. -/
theorem CsvOutputSet.Holds.contents {set : CsvOutputSet} {slots : List Slot} (h : set.Holds slots)
    (hmode : set.mode = .liveCapture) (haudited : ∀ step ∈ steps, step.IsAudited)
    (hslots : slots.map Slot.entry = steps.filterMap LiveStep.entry) {t : TargetFiles}
    (ht : set.targets[index]? = some t) :
    t.auditContent = marketDataCsvHeader ++ auditBytes index steps ∧
      t.orderBookContent = orderBookCsvHeader ++ orderBookBytes index steps := by
  have hbytes : ∀ bytes : EventRowBatch → Bytes,
      slots.flatMap (fun slot => entryBytes bytes index slot.entry) =
        (steps.filterMap LiveStep.entry).flatMap (entryBytes bytes index) := by
    intro bytes
    rw [← hslots, List.flatMap_map]
  constructor
  · rw [h.audit index t ht, auditBytes_entries haudited, ← hbytes, CsvOutputSet.auditHeader,
      if_pos hmode]
    rfl
  · rw [h.orderBook index t ht, orderBookBytes, flatMap_entries, ← hbytes]
    rfl

end Entries

namespace Capture

open LiveCaptureController

/-- A capture of some subscription, from its start. -/
structure Started (venue : PayloadVenue) (symbols : List Bytes) (pipeline : LiveEventPipeline)
    (s : Capture) : Prop where
  subscribed : ∃ subscription, LiveSubscription.create venue symbols = .ok subscription ∧
    LiveEventPipeline.create subscription = .ok pipeline ∧
    CsvWriter.start (.opened .liveCapture subscription.symbols.length) ⟨true, true⟩ = some s.writer
  controller : ∃ options hasTerminalCallback,
    LiveCaptureController.create pipeline options hasTerminalCallback = some s.controller

theorem Started.init {json : Library} {venue : PayloadVenue} {symbols : List Bytes}
    {pipeline : LiveEventPipeline} {s : Capture} (h : Started venue symbols pipeline s) :
    (system json).init s := by
  obtain ⟨subscription, hsubscription, hpipeline, hwriter⟩ := h.subscribed
  obtain ⟨options, hasTerminalCallback, hcontroller⟩ := h.controller
  exact ⟨venue, symbols, subscription, pipeline, options, hasTerminalCallback, hsubscription,
    hpipeline, hcontroller, hwriter⟩

/-- The controller's calls, served by the writer, with the run of the pipeline behind them. -/
structure Recorded (json : Library) (pipeline : LiveEventPipeline) (first : CsvWriter)
    (s : Capture) : Prop extends Joined json first s where
  traces : Traces json pipeline s.controller

section Recorded

variable {json : Library} {venue : PayloadVenue} {symbols : List Bytes}
  {pipeline : LiveEventPipeline} {first : CsvWriter} {s s' : Capture}

theorem Recorded.step (h : Recorded json pipeline first s) {label : CaptureLabel}
    (hstep : Step json s label s') : Recorded json pipeline first s' := by
  refine ⟨h.toJoined.step hstep, ?_⟩
  cases label with
  | controller label => exact h.traces.step (core_of_reachable h.controller) hstep.1
  | writer input =>
      have hsame : s'.controller = s.controller := hstep.1
      rw [hsame]
      exact h.traces

/-- The history of the queue is what the calls of the controller have published. -/
theorem Joined.log_eq (h : Joined json first s) :
    s.writer.history.log.map Slot.entry =
      ProducerView.entries {} s.controller.writerCalls := by
  obtain ⟨targetCount, hstart⟩ := h.writer
  rw [h.served.log_eq h.init]
  obtain ⟨-, -, -, rfl⟩ := CsvWriter.start_some hstart
  rfl

theorem Joined.mode (h : Joined json first s) : s.writer.output.mode = .liveCapture := by
  obtain ⟨targetCount, hstart⟩ := h.writer
  rw [(h.served.output h.init).1]
  obtain ⟨-, -, -, rfl⟩ := CsvWriter.start_some hstart
  rfl

/-- There is a target for each symbol. -/
theorem Recorded.targets {started : Capture} (h : Recorded json pipeline started.writer s)
    (hstarted : Started venue symbols pipeline started) :
    s.writer.output.targets.length = symbols.length := by
  obtain ⟨subscription, hsub, -, hwriter⟩ := hstarted.subscribed
  obtain ⟨-, -, -, hstart⟩ := CsvWriter.start_some hwriter
  rw [(h.served.output h.toJoined.init).2, hstart, (LiveSubscription.create_ok hsub).2.1]
  exact List.length_replicate

/-- As long as no output failed, the files are those of a first part of the run. -/
theorem Recorded.files (h : Recorded json pipeline first s) {steps : List LiveStep}
    {lost : List (Option Nat × EventRowBatch)}
    (hemission : Emission json pipeline s.controller steps lost)
    (hnone : s.writer.output.firstError = none) : ∃ written, written <+: steps ∧
      ∀ index t, s.writer.output.targets[index]? = some t →
        t.auditContent = marketDataCsvHeader ++ auditBytes index written ∧
        t.orderBookContent = orderBookCsvHeader ++ orderBookBytes index written := by
  have hprefix : (s.writer.history.log.take s.writer.handed).map Slot.entry <+:
      steps.filterMap LiveStep.entry := by
    rw [hemission.entries, ← h.toJoined.log_eq, List.map_take]
    exact (List.take_prefix _ _).trans (List.prefix_append _ _)
  obtain ⟨written, hwritten, hentries⟩ := List.prefix_filterMap_iff.mp hprefix
  have haudited : ∀ step ∈ written, step.IsAudited := fun step hstep =>
    hemission.audited step (hwritten.subset hstep)
  exact ⟨written, hwritten, fun index t ht =>
    (h.toJoined.inv.delivery.holds hnone).contents h.toJoined.mode haudited hentries ht⟩

end Recorded

section Replay

variable {json : Library} {venue : PayloadVenue} {symbols : List Bytes}
  {pipeline : LiveEventPipeline} {started s : Capture} {labels : List CaptureLabel}

/-- A writer that was joined and did not fail has nothing left to write. -/
theorem Joined.written {first : CsvWriter} (h : Joined json first s) {result : CsvWriterResult}
    (hjoined : (.join, .joined result) ∈ s.controller.writerCalls)
    (hsuccess : result.success = true) :
    s.writer.output.firstError = none ∧ s.writer.output.Holds s.writer.history.log ∧
      ∀ t ∈ s.writer.output.targets,
        TargetFiles.All (fun sink => sink.buffer = [] ∧ sink.bufferedRows = 0) t := by
  simp only [CsvWriterResult.success, Bool.and_eq_true, Option.isNone_iff_eq_none] at hsuccess
  have hinv := h.inv
  obtain ⟨hdone, hresult⟩ := h.served.joined h.init hjoined
  have hnone : s.writer.output.firstError = none := by
    rw [← hinv.errors.settled (by rw [hdone]; rfl), ← hresult]
    exact hsuccess.1.1
  refine ⟨hnone, ?_, hinv.delivery.drained (by rw [hdone]; rfl) hnone⟩
  have hhanded := hinv.delivery.holds hnone
  rwa [(hinv.drained hdone).2.2, List.take_length] at hhanded

end Replay

/-! ### One message, from the session to the file -/

section Sample

/-- A callback of `run` is a step of the controller's thread. -/
theorem step_of_run {json : Library} {fuel : Nat} {label : ControllerLabel} {s s' : Capture}
    (h : run json fuel [label] s = some s') : Step json s (.controller label) s' := by
  obtain ⟨c, hstep, h⟩ := Option.bind_eq_some_iff.mp h
  split at h
  · next hcalls =>
      obtain ⟨w, hserve, h⟩ := Option.bind_eq_some_iff.mp h
      obtain rfl := Option.some.inj h
      refine ⟨hstep, _, ?_, CsvWriter.served_of_serve .start hserve⟩
      have hsplit := List.take_append_drop s.controller.writerCalls.length c.writerCalls
      rw [hcalls] at hsplit
      exact hsplit.symm
  · cases h

theorem run_cons (json : Library) (fuel : Nat) (label : ControllerLabel)
    (callbacks : List ControllerLabel) (s : Capture) :
    run json fuel (label :: callbacks) s =
      (run json fuel [label] s).bind (run json fuel callbacks) := by
  simp only [run]
  cases s.controller.step json label with
  | none => rfl
  | some c =>
      simp only [Option.bind_some]
      split
      · cases CsvWriter.serve fuel (c.writerCalls.drop s.controller.writerCalls.length) s.writer <;>
          rfl
      · rfl

theorem exec_of_run {json : Library} {fuel : Nat} {callbacks : List ControllerLabel}
    {s s' : Capture} (h : run json fuel callbacks s = some s') :
    ∃ labels, Transition.Exec (system json) s labels s' := by
  induction callbacks generalizing s with
  | nil =>
      obtain rfl := Option.some.inj h
      exact ⟨[], .nil s⟩
  | cons label callbacks ih =>
      rw [run_cons] at h
      obtain ⟨middle, hfirst, hrest⟩ := Option.bind_eq_some_iff.mp h
      obtain ⟨labels, hexec⟩ := ih hrest
      exact ⟨.controller label :: labels, hexec.cons (step_of_run hfirst)⟩

end Sample

end Capture

end MarketCapture
