import MarketCapture.Controller.Callbacks
import MarketCapture.Writer.Contract

/-! # The controller with its writer

A callback of the controller makes its calls one after the other, and the writer thread runs
between them, within them and between the callbacks. What the writer returned to the controller
is then no longer given: it is what the writer returns in the states that the two threads reach.
-/

namespace MarketCapture

open Simdjson

structure Capture where
  controller : LiveCaptureController
  writer : CsvWriter

inductive CaptureLabel where
  | controller (label : ControllerLabel)
  | writer (input : WriterInput)
  deriving DecidableEq

namespace LiveCaptureController

/-- A handler of the session ran, with the callback it calls. -/
theorem onSession_cases {c c' : LiveCaptureController} {json : Library} {given : Surroundings}
    {label : SessionLabel} (h : c.onSession json given label = some c') :
    ∃ s s', c.session = some s ∧ s.running = none ∧ s.handle label = some s' ∧
      (s'.running = none ∧ c' = c.advanceSession given s' ∨
        ∃ callback out, s'.running = some callback ∧
          { c with session := some s' }.onSessionCallback json given s' callback = some out ∧
          c' = out.1.afterSessionCallback given out.2) := by
  unfold onSession at h
  obtain ⟨s, hs, h⟩ := Option.bind_eq_some_iff.mp h
  dsimp only at h
  split at h
  · next hidle =>
      obtain ⟨s', hhandle, h⟩ := Option.bind_eq_some_iff.mp h
      refine ⟨s, s', hs, hidle, hhandle, ?_⟩
      split at h
      · next hrunning => exact .inl ⟨hrunning, (Option.some.inj h).symm⟩
      · next callback hrunning =>
          obtain ⟨out, hout, h⟩ := Option.bind_eq_some_iff.mp h
          exact .inr ⟨callback, out, hrunning, hout, (Option.some.inj h).symm⟩
  · cases h

end LiveCaptureController

namespace Capture

/-- A step of either thread: the calls that a callback makes are served by the writer. -/
def Step (json : Library) (s : Capture) : CaptureLabel → Capture → Prop
  | .controller label, s' =>
      s.controller.step json label = some s'.controller ∧
        ∃ calls, s'.controller.writerCalls = s.controller.writerCalls ++ calls ∧
          CsvWriter.Served s.writer calls s'.writer
  | .writer input, s' =>
      s'.controller = s.controller ∧ s.writer.writerStep input = some s'.writer

/-- The controller has a writer with a target for each symbol. -/
def system (json : Library) : Transition.System Capture CaptureLabel where
  init s := ∃ venue symbols subscription pipeline options hasTerminalCallback,
    LiveSubscription.create venue symbols = .ok subscription ∧
      LiveEventPipeline.create subscription = .ok pipeline ∧
      LiveCaptureController.create pipeline options hasTerminalCallback = some s.controller ∧
      CsvWriter.start (.opened .liveCapture subscription.symbols.length) ⟨true, true⟩ = some s.writer
  step s label s' := Step json s label s'

/-- The controller runs as it does alone, and the writer serves its calls. -/
structure Joined (json : Library) (first : CsvWriter) (s : Capture) : Prop where
  controller : Transition.Reachable (LiveCaptureController.system json) s.controller
  writer : ∃ targetCount,
    CsvWriter.start (.opened .liveCapture targetCount) ⟨true, true⟩ = some first
  served : CsvWriter.Served first s.controller.writerCalls s.writer

theorem Joined.step {json : Library} {first : CsvWriter} {s s' : Capture} {label : CaptureLabel}
    (h : Joined json first s) (hstep : Step json s label s') : Joined json first s' := by
  cases label with
  | controller label =>
      obtain ⟨hcontroller, calls, hcalls, hserved⟩ := hstep
      refine ⟨h.controller.step hcontroller, h.writer, ?_⟩
      rw [hcalls]
      exact h.served.trans hserved
  | writer input =>
      obtain ⟨hcontroller, hwriter⟩ := hstep
      refine ⟨?_, h.writer, ?_⟩
      · rw [hcontroller]
        exact h.controller
      · rw [hcontroller]
        exact h.served.writer hwriter

theorem joined_of_init {json : Library} {s : Capture} (h : (system json).init s) :
    Joined json s.writer s := by
  obtain ⟨venue, symbols, subscription, pipeline, options, hasTerminalCallback, hsubscription,
    hpipeline, hcreate, hstart⟩ := h
  refine ⟨.of_init ⟨venue, symbols, subscription, pipeline, options, hasTerminalCallback,
    hsubscription, hpipeline, hcreate⟩, ⟨_, hstart⟩, ?_⟩
  have hcalls : s.controller.writerCalls = [] := by
    unfold LiveCaptureController.create at hcreate
    split at hcreate
    · cases hcreate
    · rw [← Option.some.inj hcreate]
  rw [hcalls]
  exact .start

theorem joined_of_reachable {json : Library} {s : Capture}
    (h : Transition.Reachable (system json) s) : ∃ first, Joined json first s := by
  refine Transition.Reachable.invariant (P := fun s => ∃ first, Joined json first s) ?_ ?_ h
  · exact fun s hinit => ⟨s.writer, joined_of_init hinit⟩
  · rintro s label s' ⟨first, hjoined⟩ hstep
    exact ⟨first, hjoined.step hstep⟩

section Joined

variable {json : Library} {first : CsvWriter} {s : Capture}

theorem Joined.init (h : Joined json first s) : CsvWriter.system.init first := by
  obtain ⟨targetCount, hstart⟩ := h.writer
  exact ⟨_, _, _, hstart⟩

theorem Joined.inv (h : Joined json first s) : s.writer.Inv :=
  CsvWriter.inv_of_reachable (h.served.reachable h.init)

/-- The writer has the rows that the controller's calls have published. -/
theorem Joined.view (h : Joined json first s) :
    s.writer.view = s.controller.writerCalls.foldl ProducerView.after {} := by
  obtain ⟨targetCount, hstart⟩ := h.writer
  rw [h.served.view_eq h.init]
  obtain ⟨-, -, -, rfl⟩ := CsvWriter.start_some hstart
  rfl

end Joined

/-! ### Runs in which the writer thread waits -/

/-- The callbacks one after the other, with a writer that answers as they say. -/
def run (json : Library) (fuel : Nat) : List ControllerLabel → Capture → Option Capture
  | [], s => some s
  | label :: labels, s =>
      (s.controller.step json label).bind fun c =>
        if c.writerCalls.take s.controller.writerCalls.length = s.controller.writerCalls then
          (CsvWriter.serve fuel (c.writerCalls.drop s.controller.writerCalls.length) s.writer).bind
            fun w => run json fuel labels ⟨c, w⟩
        else none

theorem reachable_of_run {json : Library} {fuel : Nat} {labels : List ControllerLabel}
    {s s' : Capture} (hs : Transition.Reachable (system json) s)
    (h : run json fuel labels s = some s') : Transition.Reachable (system json) s' := by
  induction labels generalizing s with
  | nil =>
      obtain rfl := Option.some.inj h
      exact hs
  | cons label labels ih =>
      obtain ⟨c, hstep, h⟩ := Option.bind_eq_some_iff.mp h
      split at h
      · next hcalls =>
          obtain ⟨w, hserve, h⟩ := Option.bind_eq_some_iff.mp h
          refine ih (hs.step (a := .controller label) ⟨hstep, _, ?_,
            CsvWriter.served_of_serve .start hserve⟩) h
          have hsplit := List.take_append_drop s.controller.writerCalls.length c.writerCalls
          rw [hcalls] at hsplit
          exact hsplit.symm
      · cases h

section Sample

private def capturedRefresh : Compact := .refresh 100 [("10", "1")] [("11", "2")]

private def capturedEnvelope : Compact := .envelope "btcusdt@depth5@100ms" capturedRefresh

def sampleLibrary : Library := .ofDocuments [capturedRefresh, capturedEnvelope]

def sampleCapture : Option Capture := do
  let subscription ← (LiveSubscription.create .spot [ascii "BTCUSDT"]).toOption
  let pipeline ← (LiveEventPipeline.create subscription).toOption
  let controller ← LiveCaptureController.create pipeline {} true
  let writer ← CsvWriter.start (.opened .liveCapture subscription.symbols.length) ⟨true, true⟩
  pure ⟨controller, writer⟩

/-- A run of `sampleCapture`. -/
def sampleRun (labels : List ControllerLabel) : Option Capture :=
  sampleCapture.bind (run sampleLibrary 64 labels)

/-- A session that opens and delivers a refresh. -/
def sampleDelivery : List ControllerLabel :=
  [.start {}, .session (.resolved .none) {}, .session (.connected .none true) {},
    .session (.tlsHandshaken .none true) {}, .session (.handshaken .none) {},
    .session (.read { bytesTransferred := capturedEnvelope.text.length
                      buffer := capturedEnvelope.text }) {}]

theorem sampleRun_reachable {labels : List ControllerLabel} {s : Capture}
    (h : sampleRun labels = some s) : Transition.Reachable (system sampleLibrary) s := by
  obtain ⟨s₀, hcreate, hrun⟩ := Option.bind_eq_some_iff.mp h
  refine reachable_of_run (.of_init ?_) hrun
  simp only [sampleCapture, Option.bind_eq_bind, Option.bind_eq_some_iff, Option.pure_def,
    Option.some.injEq] at hcreate
  obtain ⟨subscription, hsubscription, pipeline, hpipeline, controller, hcontroller, writer, hwriter,
    rfl⟩ := hcreate
  exact ⟨_, _, _, _, _, _, ok_of_toOption hsubscription, ok_of_toOption hpipeline, hcontroller,
    hwriter⟩

end Sample

end Capture

end MarketCapture
