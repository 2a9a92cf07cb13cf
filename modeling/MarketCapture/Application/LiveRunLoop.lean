import MarketCapture.Application.Replay
import MarketCapture.Controller.Files

/-! # The live command

`LiveRunLoop` and the end of `run_live`: a signal or the duration timer asks the controller to
stop, the terminal callback of the controller ends the loop, and the exit code says how the run
went. The handlers run one after the other on the thread of `io_context.run`.
-/

namespace MarketCapture

open Simdjson LiveStep

inductive LiveRunLoopErrorCode where
  | none | signalWaitFailure | durationWaitFailure | noSuccessfulConnection | stopRequestFailure
  deriving DecidableEq

structure LiveRunLoopResult where
  capture : LiveCaptureResult := {}
  error : LiveRunLoopErrorCode := .none
  signalsReceived : Nat := 0
  repeatedSignals : Nat := 0
  durationExpired : Bool := false
  terminal : Bool := false
  deriving DecidableEq

def LiveRunLoopResult.latchControlError (result : LiveRunLoopResult) (error : LiveRunLoopErrorCode) :
    LiveRunLoopResult :=
  if result.error = .none then { result with error := error } else result

structure LiveRunLoop where
  durationSeconds : Option Nat := none
  hasController : Bool := false
  result : LiveRunLoopResult := {}
  terminal : Bool := false
  started : Bool := false
  stopStarted : Bool := false
  terminalStarted : Bool := false
  /-- The completions of the waits that have not run, cancelled or not. -/
  signalWaits : Nat := 0
  durationWaits : Nat := 0
  /-- After `io_context.stop`. -/
  ioStopped : Bool := false
  deriving DecidableEq

namespace LiveRunLoop

def validDuration : Option Nat → Bool
  | none => true
  | some seconds => decide (seconds ≠ 0) && CommandLine.validLiveDuration seconds

def create (durationSeconds : Option Nat) : Option LiveRunLoop :=
  if validDuration durationSeconds then some { durationSeconds := durationSeconds } else none

def attachController (loop : LiveRunLoop) : Option LiveRunLoop :=
  if loop.hasController || loop.started || loop.terminal then none
  else some { loop with hasController := true }

def armSignalWait (loop : LiveRunLoop) : LiveRunLoop :=
  { loop with signalWaits := loop.signalWaits + 1 }

/-- `start`, and whether it comes to start the controller. -/
def start (loop : LiveRunLoop) : LiveRunLoop × Bool :=
  if loop.started || !loop.hasController || loop.terminal then (loop, false)
  else
    let loop := { loop with started := true }.armSignalWait
    (if loop.durationSeconds.isSome then { loop with durationWaits := loop.durationWaits + 1 }
      else loop, true)

/-- `request_stop`, around the call of `stop`. -/
def requestStop (loop : LiveRunLoop) (stopThrows : Bool) : LiveRunLoop :=
  let loop := { loop with stopStarted := true }
  if stopThrows then
    { loop with result := loop.result.latchControlError .stopRequestFailure, ioStopped := true }
  else loop

/-- `on_signal`, and whether it comes to stop the controller. -/
def onSignal (loop : LiveRunLoop) (error : NativeError) (rearms stopThrows : Bool) :
    LiveRunLoop × Bool :=
  if error = .operationAborted ∨ loop.terminal then (loop, false)
  else if error ≠ .none then
    ({ loop with result := loop.result.latchControlError .signalWaitFailure }.requestStop stopThrows,
      true)
  else
    let result :=
      { loop.result with
        signalsReceived := loop.result.signalsReceived + 1
        repeatedSignals :=
          if loop.stopStarted then loop.result.repeatedSignals + 1
          else loop.result.repeatedSignals }
    if rearms then ({ loop with result := result }.armSignalWait.requestStop stopThrows, true)
    else
      ({ loop with result := result.latchControlError .signalWaitFailure }.requestStop stopThrows,
        true)

/-- `on_duration`, and whether it comes to stop the controller. -/
def onDuration (loop : LiveRunLoop) (error : NativeError) (stopThrows : Bool) : LiveRunLoop × Bool :=
  if error = .operationAborted ∨ loop.terminal then (loop, false)
  else
    let result :=
      if error ≠ .none then loop.result.latchControlError .durationWaitFailure
      else { loop.result with durationExpired := true }
    ({ loop with result := result }.requestStop stopThrows, true)

/-- The completion of a signal wait. -/
def takeSignal (loop : LiveRunLoop) (error : NativeError) (rearms stopThrows : Bool) :
    LiveRunLoop × Bool :=
  { loop with signalWaits := loop.signalWaits - 1 }.onSignal error rearms stopThrows

/-- The completion of the duration wait. -/
def takeDuration (loop : LiveRunLoop) (error : NativeError) (stopThrows : Bool) :
    LiveRunLoop × Bool :=
  { loop with durationWaits := loop.durationWaits - 1 }.onDuration error stopThrows

def onCaptureTerminal (loop : LiveRunLoop) (result : LiveCaptureResult) : LiveRunLoop :=
  if loop.terminalStarted then loop
  else
    { loop with
      terminalStarted := true
      result :=
        { loop.result with
          capture := result
          error :=
            if loop.result.error = .none ∧ loop.result.durationExpired ∧ result.success ∧
                result.metrics.successfulConnections = 0 then .noSuccessfulConnection
            else loop.result.error
          terminal := true }
      hasController := false
      terminal := true }

/-- The terminal callbacks among what the controller did. -/
def notified (loop : LiveRunLoop) (events : List ControllerEvent) : LiveRunLoop :=
  events.foldl (fun loop event =>
    match event with
    | .terminalCallback result => loop.onCaptureTerminal result
    | _ => loop) loop

end LiveRunLoop

def liveExitCode (run : LiveRunLoopResult) : Nat :=
  if run.error = .none ∧ run.capture.success then exitSuccess
  else if run.capture.error = .writerFailure ∨ run.capture.writer.outputError.isSome then exitOutput
  else exitProcessing

/-- The exit code of `run_live` once `io_context.run` has returned. -/
def LiveRunLoop.exitCode (loop : LiveRunLoop) : Nat :=
  if loop.terminal then liveExitCode loop.result else exitInternal

/-! ## The loop with its capture -/

structure LiveRun where
  loop : LiveRunLoop
  capture : Capture

inductive LiveRunLabel where
  | start (given : Surroundings)
  | signal (error : NativeError) (rearms stopThrows : Bool)
  | duration (error : NativeError) (stopThrows : Bool)
  | controller (label : ControllerLabel)
  | writer (input : WriterInput)
  deriving DecidableEq

/-- The label is of a handler, and not of a call that the loop makes. -/
def ControllerLabel.isHandler : ControllerLabel → Bool
  | .start _ | .stop => false
  | _ => true

namespace LiveRun

/-- The loop has come to `loop`, and makes a call of the controller or none. -/
def Goes (json : Library) (s : LiveRun) (loop : LiveRunLoop) : Option ControllerLabel → LiveRun → Prop
  | none, s' => s' = { s with loop := loop }
  | some label, s' =>
      Capture.Step json s.capture (.controller label) s'.capture ∧
        s'.loop = loop.notified
          (s'.capture.controller.log.drop s.capture.controller.log.length)

/-- A handler of the loop, a handler of the controller or a step of the writer thread. Nobody but
the loop starts and stops the controller. -/
def Step (json : Library) (s : LiveRun) : LiveRunLabel → LiveRun → Prop
  | .start given, s' => given.stopsMeanwhile = false ∧
      s.Goes json s.loop.start.1 (if s.loop.start.2 then some (.start given) else none) s'
  | .signal error rearms stopThrows, s' => 0 < s.loop.signalWaits ∧ s.loop.ioStopped = false ∧
      let out := s.loop.takeSignal error rearms stopThrows
      s.Goes json out.1 (if out.2 then some .stop else none) s'
  | .duration error stopThrows, s' => 0 < s.loop.durationWaits ∧ s.loop.ioStopped = false ∧
      let out := s.loop.takeDuration error stopThrows
      s.Goes json out.1 (if out.2 then some .stop else none) s'
  | .controller label, s' => label.isHandler = true ∧ label.given.stopsMeanwhile = false ∧
      (s.loop.ioStopped = false ∨ label = .resumePostFails) ∧ s.Goes json s.loop (some label) s'
  | .writer input, s' => s'.loop = s.loop ∧
      Capture.Step json s.capture (.writer input) s'.capture

/-- `run_live` for some subscription, when everything has been created. -/
structure Started (venue : PayloadVenue) (symbols : List Bytes) (pipeline : LiveEventPipeline)
    (durationSeconds : Option Nat) (s : LiveRun) : Prop where
  loop : (LiveRunLoop.create durationSeconds).bind LiveRunLoop.attachController = some s.loop
  capture : Capture.Started venue symbols pipeline s.capture
  callback : s.capture.controller.hasTerminalCallback = true

def system (json : Library) (venue : PayloadVenue) (symbols : List Bytes)
    (pipeline : LiveEventPipeline) (durationSeconds : Option Nat) :
    Transition.System LiveRun LiveRunLabel where
  init s := Started venue symbols pipeline durationSeconds s
  step s label s' := Step json s label s'

end LiveRun

/-! ## The loop alone -/

namespace LiveRunLoop

section Loop

variable {loop : LiveRunLoop}

theorem latchControlError_counts (result : LiveRunLoopResult) (error : LiveRunLoopErrorCode) :
    (result.latchControlError error).signalsReceived = result.signalsReceived ∧
      (result.latchControlError error).repeatedSignals = result.repeatedSignals ∧
      (result.latchControlError error).durationExpired = result.durationExpired ∧
      (error ≠ .none → (result.latchControlError error).error ≠ .none) := by
  unfold LiveRunLoopResult.latchControlError
  split
  · exact ⟨rfl, rfl, rfl, id⟩
  · next herror => exact ⟨rfl, rfl, rfl, fun _ => herror⟩

/-- Why the controller is asked to stop. -/
def Reason (result : LiveRunLoopResult) : Prop :=
  0 < result.signalsReceived ∨ result.durationExpired = true ∨ result.error ≠ .none

/-- Every signal after the first request to stop is a repeated one. -/
def Counts (result : LiveRunLoopResult) : Prop :=
  result.repeatedSignals ≤ result.signalsReceived ∧
    result.signalsReceived ≤ result.repeatedSignals + 1

structure Inv (loop : LiveRunLoop) : Prop where
  ended : loop.terminalStarted = loop.terminal
  attached : loop.terminal = false → loop.hasController = true
  idle : loop.stopStarted = false → loop.result.signalsReceived = 0
  counts : Counts loop.result
  reason : loop.stopStarted = true → Reason loop.result
  timed : loop.durationSeconds = none →
    loop.durationWaits = 0 ∧ loop.result.durationExpired = false
  connected : loop.terminal = true → loop.result.error = .none →
    loop.result.durationExpired = true → loop.result.capture.success = true →
    loop.result.capture.metrics.successfulConnections ≠ 0

theorem Inv.requestStop (h : loop.Inv) (hopen : loop.terminal = false) {result : LiveRunLoopResult}
    (hcounts : Counts result) (hreason : Reason result)
    (htimed : loop.durationSeconds = none → result.durationExpired = false) (waits : Nat)
    (stopThrows : Bool) :
    ({ loop with result := result, signalWaits := waits }.requestStop stopThrows).Inv := by
  have hended : ¬ loop.terminal = true := Bool.eq_false_iff.mp hopen
  cases stopThrows with
  | false =>
      exact ⟨h.ended, h.attached, fun hidle => (by cases hidle), hcounts, fun _ => hreason,
        fun hnone => ⟨(h.timed hnone).1, htimed hnone⟩, fun hterminal => (hended hterminal).elim⟩
  | true =>
      obtain ⟨hsignals, hrepeated, hexpired, herror⟩ :=
        latchControlError_counts result .stopRequestFailure
      refine ⟨h.ended, h.attached, fun hidle => (by cases hidle), ?_,
        fun _ => .inr (.inr (herror (by decide))), fun hnone => ⟨(h.timed hnone).1, ?_⟩,
        fun hterminal => (hended hterminal).elim⟩
      · change Counts (result.latchControlError .stopRequestFailure)
        rw [Counts, hsignals, hrepeated]
        exact hcounts
      · exact hexpired.trans (htimed hnone)

theorem Inv.start (h : loop.Inv) : loop.start.1.Inv := by
  unfold LiveRunLoop.start
  split
  · exact h
  · dsimp only [armSignalWait]
    split
    · next hduration =>
        refine ⟨h.ended, h.attached, h.idle, h.counts, h.reason, fun hnone => ?_, h.connected⟩
        rw [show loop.durationSeconds = none from hnone] at hduration
        cases hduration
    · exact ⟨h.ended, h.attached, h.idle, h.counts, h.reason, h.timed, h.connected⟩

theorem Inv.onSignal (h : loop.Inv) (error : NativeError) (rearms stopThrows : Bool) :
    (loop.onSignal error rearms stopThrows).1.Inv := by
  unfold LiveRunLoop.onSignal
  split
  · exact h
  next hguard =>
  have hopen : loop.terminal = false := Bool.eq_false_iff.mpr (not_or.mp hguard).2
  -- a failed wait leaves the counts and the timer as they are
  have failing : ∀ result : LiveRunLoopResult, Counts result →
      (loop.durationSeconds = none → result.durationExpired = false) →
      ({ loop with result := result.latchControlError .signalWaitFailure }.requestStop
        stopThrows).Inv := by
    intro result hcounts htimed
    obtain ⟨hsignals, hrepeated, hexpired, herror⟩ :=
      latchControlError_counts result .signalWaitFailure
    refine h.requestStop hopen ?_ (.inr (.inr (herror (by decide)))) (fun hnone => ?_)
      loop.signalWaits stopThrows
    · rw [Counts, hsignals, hrepeated]
      exact hcounts
    · rw [hexpired]
      exact htimed hnone
  split
  · exact failing loop.result h.counts fun hnone => (h.timed hnone).2
  dsimp only
  have hcounts : Counts
      { loop.result with
        signalsReceived := loop.result.signalsReceived + 1
        repeatedSignals :=
          if loop.stopStarted then loop.result.repeatedSignals + 1
          else loop.result.repeatedSignals } := by
    obtain ⟨hle, hge⟩ := h.counts
    unfold Counts
    dsimp only
    split
    · omega
    · next hfirst =>
        have hzero := h.idle (Bool.eq_false_iff.mpr hfirst)
        omega
  split
  · exact h.requestStop hopen hcounts (.inl (Nat.succ_pos _)) (fun hnone => (h.timed hnone).2)
      (loop.signalWaits + 1) stopThrows
  · exact failing _ hcounts fun hnone => (h.timed hnone).2

theorem Inv.onDuration (h : loop.Inv) (hwait : loop.durationSeconds = none → False)
    (error : NativeError) (stopThrows : Bool) : (loop.onDuration error stopThrows).1.Inv := by
  unfold LiveRunLoop.onDuration
  split
  · exact h
  next hguard =>
  have hopen : loop.terminal = false := Bool.eq_false_iff.mpr (not_or.mp hguard).2
  dsimp only
  split
  · obtain ⟨hsignals, hrepeated, hexpired, herror⟩ :=
      latchControlError_counts loop.result .durationWaitFailure
    refine h.requestStop hopen ?_ (.inr (.inr (herror (by decide)))) (fun hnone => (hwait hnone).elim)
      loop.signalWaits stopThrows
    rw [Counts, hsignals, hrepeated]
    exact h.counts
  · have hexpired : Reason { loop.result with durationExpired := true } := .inr (.inl rfl)
    have hcounts : Counts { loop.result with durationExpired := true } := h.counts
    exact h.requestStop hopen hcounts hexpired (fun hnone => (hwait hnone).elim)
      loop.signalWaits stopThrows

theorem Inv.takeSignal (h : loop.Inv) (error : NativeError) (rearms stopThrows : Bool) :
    (loop.takeSignal error rearms stopThrows).1.Inv := by
  have htaken : Inv { loop with signalWaits := loop.signalWaits - 1 } :=
    ⟨h.ended, h.attached, h.idle, h.counts, h.reason, h.timed, h.connected⟩
  exact htaken.onSignal error rearms stopThrows

/-- Only a loop with a duration waits for one. -/
theorem Inv.takeDuration (h : loop.Inv) (hwaits : 0 < loop.durationWaits) (error : NativeError)
    (stopThrows : Bool) : (loop.takeDuration error stopThrows).1.Inv := by
  have htimed : loop.durationSeconds = none → False := fun hnone => by
    have hzero := (h.timed hnone).1
    omega
  have htaken : Inv { loop with durationWaits := loop.durationWaits - 1 } :=
    ⟨h.ended, h.attached, h.idle, h.counts, h.reason, fun hnone => (htimed hnone).elim, h.connected⟩
  exact htaken.onDuration htimed error stopThrows

theorem Inv.onCaptureTerminal (h : loop.Inv) (result : LiveCaptureResult) :
    (loop.onCaptureTerminal result).Inv := by
  unfold LiveRunLoop.onCaptureTerminal
  split
  · exact h
  · refine ⟨rfl, fun hopen => (by cases hopen), h.idle, h.counts, fun hstop => ?_, h.timed,
      fun _ herror hexpired hsuccess hnone => ?_⟩
    · rcases h.reason hstop with hsignal | hexpired | herror
      · exact .inl hsignal
      · exact .inr (.inl hexpired)
      · refine .inr (.inr ?_)
        dsimp only
        rw [if_neg fun hall => herror hall.1]
        exact herror
    · dsimp only at herror hexpired hsuccess hnone
      split at herror
      · cases herror
      · next hall => exact hall ⟨herror, hexpired, hsuccess, hnone⟩

/-- What a handler of the loop leaves, and what it has done when it stops the controller. -/
structure Keeps (loop : LiveRunLoop) (out : LiveRunLoop × Bool) : Prop where
  terminal : out.1.terminal = loop.terminal
  capture : out.1.result.capture = loop.result.capture
  stopStarted : loop.stopStarted = true → out.1.stopStarted = true
  stops : out.2 = true → out.1.stopStarted = true
  settled : loop.terminal = true → out.1.result = loop.result

theorem latchControlError_capture (result : LiveRunLoopResult) (error : LiveRunLoopErrorCode) :
    (result.latchControlError error).capture = result.capture := by
  unfold LiveRunLoopResult.latchControlError
  split <;> rfl

theorem keeps_requestStop (hopen : loop.terminal = false) {loop' : LiveRunLoop}
    (hterminal : loop'.terminal = loop.terminal)
    (hcapture : loop'.result.capture = loop.result.capture) (stopThrows : Bool) :
    Keeps loop (loop'.requestStop stopThrows, true) := by
  have hended : ¬ loop.terminal = true := Bool.eq_false_iff.mp hopen
  cases stopThrows with
  | false => exact ⟨hterminal, hcapture, fun _ => rfl, fun _ => rfl, fun h => (hended h).elim⟩
  | true =>
      exact ⟨hterminal, (latchControlError_capture _ _).trans hcapture, fun _ => rfl, fun _ => rfl,
        fun h => (hended h).elim⟩

theorem keeps_refl (loop : LiveRunLoop) : Keeps loop (loop, false) :=
  ⟨rfl, rfl, id, fun hstop => (by cases hstop), fun _ => rfl⟩

theorem keeps_start (loop : LiveRunLoop) : Keeps loop (loop.start.1, false) := by
  unfold start
  split
  · exact keeps_refl loop
  · dsimp only
    split <;> exact ⟨rfl, rfl, id, fun hstop => (by cases hstop), fun _ => rfl⟩

theorem keeps_onSignal (loop : LiveRunLoop) (error : NativeError) (rearms stopThrows : Bool) :
    Keeps loop (loop.onSignal error rearms stopThrows) := by
  unfold onSignal
  split
  · exact keeps_refl loop
  next hguard =>
  have hopen : loop.terminal = false := Bool.eq_false_iff.mpr (not_or.mp hguard).2
  split
  · refine keeps_requestStop hopen ?_ ?_ stopThrows
    · rfl
    · exact latchControlError_capture _ _
  dsimp only
  split
  · refine keeps_requestStop hopen ?_ ?_ stopThrows <;> rfl
  · refine keeps_requestStop hopen ?_ ?_ stopThrows
    · rfl
    · exact latchControlError_capture _ _

theorem keeps_onDuration (loop : LiveRunLoop) (error : NativeError) (stopThrows : Bool) :
    Keeps loop (loop.onDuration error stopThrows) := by
  unfold onDuration
  split
  · exact keeps_refl loop
  next hguard =>
  have hopen : loop.terminal = false := Bool.eq_false_iff.mpr (not_or.mp hguard).2
  dsimp only
  split
  · refine keeps_requestStop hopen ?_ ?_ stopThrows
    · rfl
    · exact latchControlError_capture _ _
  · refine keeps_requestStop hopen ?_ ?_ stopThrows <;> rfl

theorem keeps_takeSignal (loop : LiveRunLoop) (error : NativeError) (rearms stopThrows : Bool) :
    Keeps loop (loop.takeSignal error rearms stopThrows) := by
  have hkept := keeps_onSignal { loop with signalWaits := loop.signalWaits - 1 } error rearms
    stopThrows
  exact ⟨hkept.terminal, hkept.capture, hkept.stopStarted, hkept.stops, hkept.settled⟩

theorem keeps_takeDuration (loop : LiveRunLoop) (error : NativeError) (stopThrows : Bool) :
    Keeps loop (loop.takeDuration error stopThrows) := by
  have hkept := keeps_onDuration { loop with durationWaits := loop.durationWaits - 1 } error
    stopThrows
  exact ⟨hkept.terminal, hkept.capture, hkept.stopStarted, hkept.stops, hkept.settled⟩

theorem onCaptureTerminal_open (hopen : loop.terminalStarted = false) (result : LiveCaptureResult) :
    (loop.onCaptureTerminal result).terminalStarted = true ∧
      (loop.onCaptureTerminal result).terminal = true ∧
      (loop.onCaptureTerminal result).result.capture = result ∧
      (loop.onCaptureTerminal result).stopStarted = loop.stopStarted := by
  unfold onCaptureTerminal
  rw [if_neg (by rw [hopen]; decide)]
  exact ⟨rfl, rfl, rfl, rfl⟩

theorem notified_ended (hended : loop.terminalStarted = true) (events : List ControllerEvent) :
    loop.notified events = loop := by
  unfold notified
  induction events with
  | nil => rfl
  | cons event events ih =>
      cases event with
      | terminalCallback result =>
          rw [List.foldl_cons]
          dsimp only
          rw [onCaptureTerminal, if_pos hended]
          exact ih
      | _ => exact ih

/-- The first terminal callback ends the loop, and no other one counts. -/
theorem notified_cases (h : loop.Inv) (events : List ControllerEvent) :
    loop.notified events = loop ∧
        (loop.terminal = false → ∀ result, .terminalCallback result ∉ events) ∨
      ∃ result, .terminalCallback result ∈ events ∧ loop.terminalStarted = false ∧
        loop.notified events = loop.onCaptureTerminal result := by
  cases hstarted : loop.terminalStarted with
  | true =>
      refine .inl ⟨notified_ended hstarted events, fun hopen => ?_⟩
      rw [← h.ended, hstarted] at hopen
      cases hopen
  | false =>
      induction events with
      | nil => exact .inl ⟨rfl, fun _ result hmem => (by cases hmem)⟩
      | cons event events ih =>
          have skipped : (∀ result, event ≠ .terminalCallback result) →
              loop.notified (event :: events) = loop.notified events →
              loop.notified (event :: events) = loop ∧ (loop.terminal = false →
                  ∀ result, .terminalCallback result ∉ event :: events) ∨
                ∃ result, .terminalCallback result ∈ event :: events ∧ false = false ∧
                  loop.notified (event :: events) = loop.onCaptureTerminal result := by
            intro hother hsame
            rw [hsame]
            rcases ih with ⟨hkept, hnone⟩ | ⟨result, hmem, -, hgone⟩
            · refine .inl ⟨hkept, fun hopen result hmem => ?_⟩
              rcases List.mem_cons.mp hmem with heq | hmem
              · exact hother result heq.symm
              · exact hnone hopen result hmem
            · exact .inr ⟨result, List.mem_cons_of_mem _ hmem, rfl, hgone⟩
          cases event with
          | terminalCallback result =>
              refine .inr ⟨result, List.mem_cons_self, rfl, ?_⟩
              exact notified_ended (onCaptureTerminal_open hstarted result).1 events
          | _ => exact skipped (fun result heq => (by cases heq)) rfl

end Loop

end LiveRunLoop

/-! ## Runs -/

namespace LiveRun

open LiveCaptureController

/-- The loop and its capture, in every state of a run. -/
structure Linked (json : Library) (pipeline : LiveEventPipeline) (first : CsvWriter)
    (s : LiveRun) : Prop where
  recorded : Capture.Recorded json pipeline first s.capture
  announces : Announces s.capture.controller
  loop : s.loop.Inv
  ended : s.capture.controller.terminal = true → s.loop.terminal = true
  told : s.loop.terminal = true →
    .terminalCallback s.loop.result.capture ∈ s.capture.controller.log
  stopping : s.capture.controller.stopRequested = true → s.loop.stopStarted = true

section Linked

variable {json : Library} {pipeline : LiveEventPipeline} {first : CsvWriter} {s s' : LiveRun}
  {loop : LiveRunLoop}

theorem Linked.onto (h : Linked json pipeline first s) {stops : Bool} (hinv : loop.Inv)
    (hkeeps : LiveRunLoop.Keeps s.loop (loop, stops)) :
    Linked json pipeline first { s with loop := loop } := by
  refine ⟨h.recorded, h.announces, hinv, fun hterminal => ?_, fun hterminal => ?_,
    fun hstop => hkeeps.stopStarted (h.stopping hstop)⟩
  · exact hkeeps.terminal.trans (h.ended hterminal)
  · change .terminalCallback loop.result.capture ∈ s.capture.controller.log
    rw [show loop.result.capture = s.loop.result.capture from hkeeps.capture]
    exact h.told (hkeeps.terminal.symm.trans hterminal)

/-- A step of the controller, with the terminal callback if it comes. -/
theorem Linked.controller (h : Linked json pipeline first s) {label : ControllerLabel}
    (hstopping : label = .stop → s.loop.stopStarted = true)
    (hmeanwhile : label.given.stopsMeanwhile = false)
    (hstep : Capture.Step json s.capture (.controller label) s'.capture)
    (hloop : s'.loop = s.loop.notified
      (s'.capture.controller.log.drop s.capture.controller.log.length)) :
    Linked json pipeline first s' := by
  have hrecorded := h.recorded.step hstep
  have hcore := core_of_reachable h.recorded.controller
  have hcontroller : s.capture.controller.step json label = some s'.capture.controller := hstep.1
  obtain ⟨events, hlog, -⟩ := (hcore.follows hcontroller).events
  rw [hlog, List.drop_left] at hloop
  have hheeds : Announces s'.capture.controller ∧ (s'.capture.controller.stopRequested = true →
      s.capture.controller.stopRequested = true ∨ label = .stop) := by
    by_cases hstop : label = .stop
    · subst hstop
      refine ⟨?_, fun _ => .inr rfl⟩
      obtain hstopped := Option.some.inj hcontroller
      rw [← hstopped]
      split
      · exact h.announces
      · exact ⟨h.announces.waiting, h.announces.called⟩
    · have hheeded := h.recorded.traces.heeds hcore hstop hcontroller
      refine ⟨hheeded.announced h.announces, fun hstopped => ?_⟩
      rcases hheeded.stopped hstopped with hbefore | hgiven
      · exact .inl hbefore
      · rw [hmeanwhile] at hgiven
        cases hgiven
  have hstops : s'.capture.controller.stopRequested = true → s.loop.stopStarted = true := by
    intro hstopped
    rcases hheeds.2 hstopped with hbefore | hnow
    · exact h.stopping hbefore
    · exact hstopping hnow
  rcases LiveRunLoop.notified_cases h.loop events with
    ⟨hsame, hnone⟩ | ⟨result, hmem, hopen, hgone⟩
  · rw [hsame] at hloop
    refine ⟨hrecorded, hheeds.1, hloop ▸ h.loop, fun hterminal => ?_, fun hterminal => ?_, ?_⟩
    · rw [hloop]
      obtain ⟨result, hcalled⟩ := hheeds.1.called hterminal
      rw [hlog] at hcalled
      rcases List.mem_append.mp hcalled with hold | hnew
      · exact h.ended (h.recorded.traces.told result hold).terminal
      · rw [← Bool.not_eq_false]
        exact fun hrunning => hnone hrunning result hnew
    · rw [hloop] at hterminal ⊢
      rw [hlog]
      exact List.mem_append_left _ (h.told hterminal)
    · rw [hloop]
      exact hstops
  · obtain ⟨-, hterminal, hcapture, hstarted⟩ := LiveRunLoop.onCaptureTerminal_open hopen result
    rw [hgone] at hloop
    refine ⟨hrecorded, hheeds.1, hloop ▸ h.loop.onCaptureTerminal result, fun _ => ?_, fun _ => ?_, ?_⟩
    · rw [hloop]
      exact hterminal
    · rw [hloop, hcapture, hlog]
      exact List.mem_append_right _ hmem
    · rw [hloop, hstarted]
      exact hstops

/-- A handler of the loop, with the call it makes. -/
theorem Linked.goes (h : Linked json pipeline first s) {stops : Bool} (hinv : loop.Inv)
    (hkeeps : LiveRunLoop.Keeps s.loop (loop, stops)) {call : Option ControllerLabel}
    (hcall : ∀ label, call = some label →
      (label = .stop → loop.stopStarted = true) ∧ label.given.stopsMeanwhile = false)
    (hgoes : s.Goes json loop call s') : Linked json pipeline first s' := by
  have hset := h.onto hinv hkeeps
  cases call with
  | none =>
      obtain rfl : s' = _ := hgoes
      exact hset
  | some label =>
      obtain ⟨hstopping, hmeanwhile⟩ := hcall label rfl
      exact hset.controller hstopping hmeanwhile hgoes.1 hgoes.2

theorem Linked.step (h : Linked json pipeline first s) {label : LiveRunLabel}
    (hstep : Step json s label s') : Linked json pipeline first s' := by
  have stopping : ∀ out : LiveRunLoop × Bool, (out.2 = true → out.1.stopStarted = true) →
      ∀ label, (if out.2 then some ControllerLabel.stop else none) = some label →
        (label = .stop → out.1.stopStarted = true) ∧ label.given.stopsMeanwhile = false := by
    intro out hstops label hlabel
    split at hlabel
    · next hcalled =>
        obtain rfl := Option.some.inj hlabel
        exact ⟨fun _ => hstops hcalled, rfl⟩
    · cases hlabel
  cases label with
  | start given =>
      obtain ⟨hmeanwhile, hgoes⟩ := hstep
      refine h.goes h.loop.start (LiveRunLoop.keeps_start s.loop) (fun label hlabel => ?_) hgoes
      split at hlabel
      · obtain rfl := Option.some.inj hlabel
        exact ⟨fun hstop => (by cases hstop), hmeanwhile⟩
      · cases hlabel
  | signal error rearms stopThrows =>
      obtain ⟨-, -, hgoes⟩ := hstep
      have hkeeps := LiveRunLoop.keeps_takeSignal s.loop error rearms stopThrows
      exact h.goes (h.loop.takeSignal error rearms stopThrows) hkeeps (stopping _ hkeeps.stops) hgoes
  | duration error stopThrows =>
      obtain ⟨hwaits, -, hgoes⟩ := hstep
      have hkeeps := LiveRunLoop.keeps_takeDuration s.loop error stopThrows
      exact h.goes (h.loop.takeDuration hwaits error stopThrows) hkeeps (stopping _ hkeeps.stops)
        hgoes
  | controller label =>
      obtain ⟨hhandler, hmeanwhile, -, hgoes⟩ := hstep
      refine h.goes h.loop (LiveRunLoop.keeps_refl s.loop) (fun called hcalled => ?_) hgoes
      obtain rfl := Option.some.inj hcalled
      refine ⟨fun hstop => ?_, hmeanwhile⟩
      rw [hstop] at hhandler
      cases hhandler
  | writer input =>
      obtain ⟨hloop, hwriter⟩ := hstep
      have hsame : s'.capture.controller = s.capture.controller := hwriter.1
      refine ⟨h.recorded.step hwriter, ?_, ?_, ?_, ?_, ?_⟩
      · rw [hsame]
        exact h.announces
      · rw [hloop]
        exact h.loop
      · rw [hsame, hloop]
        exact h.ended
      · rw [hsame, hloop]
        exact h.told
      · rw [hsame, hloop]
        exact h.stopping

/-- The result stays as the terminal callback left it. -/
theorem Linked.settled (h : Linked json pipeline first s) {label : LiveRunLabel}
    (hstep : Step json s label s') (hterminal : s.loop.terminal = true) :
    s'.loop.terminal = true ∧ s'.loop.result = s.loop.result := by
  have gone : ∀ (out : LiveRunLoop × Bool) (call : Option ControllerLabel),
      LiveRunLoop.Keeps s.loop out → out.1.Inv → s.Goes json out.1 call s' →
      s'.loop.terminal = true ∧ s'.loop.result = s.loop.result := by
    intro out call hkeeps hinv hgoes
    have hended : out.1.terminal = true := hkeeps.terminal.trans hterminal
    have hloop : s'.loop = out.1 := by
      cases call with
      | none =>
          obtain rfl : s' = _ := hgoes
          rfl
      | some label =>
          exact hgoes.2.trans (LiveRunLoop.notified_ended (hinv.ended.trans hended) _)
    rw [hloop]
    exact ⟨hended, hkeeps.settled hterminal⟩
  cases label with
  | start given =>
      exact gone (s.loop.start.1, false) _ (LiveRunLoop.keeps_start s.loop) h.loop.start hstep.2
  | signal error rearms stopThrows =>
      obtain ⟨-, -, hgoes⟩ := hstep
      exact gone _ _ (LiveRunLoop.keeps_takeSignal s.loop error rearms stopThrows)
        (h.loop.takeSignal error rearms stopThrows) hgoes
  | duration error stopThrows =>
      obtain ⟨hwaits, -, hgoes⟩ := hstep
      exact gone _ _ (LiveRunLoop.keeps_takeDuration s.loop error stopThrows)
        (h.loop.takeDuration hwaits error stopThrows) hgoes
  | controller label =>
      obtain ⟨-, -, -, hgoes⟩ := hstep
      exact gone (s.loop, false) _ (LiveRunLoop.keeps_refl s.loop) h.loop hgoes
  | writer input =>
      rw [hstep.1]
      exact ⟨hterminal, rfl⟩

end Linked

section Sample

/-- The call of the controller, with a writer that answers as it says. -/
def advanceTo (json : Library) (fuel : Nat) (s : LiveRun) (loop : LiveRunLoop)
    (label : ControllerLabel) : Option LiveRun :=
  (Capture.run json fuel [label] s.capture).map fun capture =>
    ⟨loop.notified (capture.controller.log.drop s.capture.controller.log.length), capture⟩

/-- The handlers that a run is made of. -/
def advance (json : Library) (fuel : Nat) (s : LiveRun) : LiveRunLabel → Option LiveRun
  | .start given =>
      if given.stopsMeanwhile = false ∧ s.loop.start.2 = true then
        s.advanceTo json fuel s.loop.start.1 (.start given)
      else none
  | .signal error rearms stopThrows =>
      let out := s.loop.takeSignal error rearms stopThrows
      if 0 < s.loop.signalWaits ∧ s.loop.ioStopped = false ∧ out.2 = true then
        s.advanceTo json fuel out.1 .stop
      else none
  | .controller label =>
      if label.isHandler = true ∧ label.given.stopsMeanwhile = false ∧ s.loop.ioStopped = false then
        s.advanceTo json fuel s.loop label
      else none
  | _ => none

end Sample

end LiveRun

end MarketCapture
