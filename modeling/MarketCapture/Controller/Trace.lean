import MarketCapture.Controller.Balance
import MarketCapture.Controller.FirstFailure
import MarketCapture.Live.ReplayAgreement
import MarketCapture.Writer.Publication

/-! # From one point of a run to a later one

All that the controller does but to hand a message to the pipeline: sessions open and end, and
the run with them. `Onward` says what comes of it: the pipeline is invalidated once for each
session that ended, no open session is left once one has ended, and the terminal callback is
told what the controller knows.
-/

namespace MarketCapture

open Simdjson

/-- The events that a trace of the pipeline, or of the end of a run, is made of. -/
def ControllerEvent.isTraced : ControllerEvent → Bool
  | .opened _ | .processed _ _ | .sessionEnded _ _ | .terminalCallback _ => true
  | _ => false

/-- What a step is given. -/
def ControllerLabel.given : ControllerLabel → Surroundings
  | .start given | .requestStopOnIo given | .session _ given | .superseded _ _ given
  | .reconnectTimer _ given | .writerResume given | .postedSessionStop given
  | .backpressureTimeout _ given => given
  | .stop | .stableConnection _ _ | .resumePostFails => {}

namespace LiveCaptureController

open ControllerEvent WebSocketSession

/-- The call of the pipeline that an event stands for. -/
def pipelineAction : ControllerEvent → Option LiveAction
  | .processed message _ => some (.message message)
  | .sessionEnded _ _ => some .invalidateAll
  | _ => none

/-- The calls of the pipeline in a history. -/
def pipelineActions (log : List ControllerEvent) : List LiveAction := log.filterMap pipelineAction

/-- The session of the controller has opened. -/
def HasOpened (c : LiveCaptureController) : Prop := ∃ s, c.session = some s ∧ .opened ∈ s.log

/-- The result that the terminal callback got, against the controller. -/
structure Told (c : LiveCaptureController) (result : LiveCaptureResult) : Prop where
  terminal : c.terminal = true
  joined : (.join, .joined result.writer) ∈ c.writerCalls
  stopped : result.stopRequested = true → c.stopRequested = true
  unfailed : result.error = .none → c.failureLatched = false ∧ c.session = none

/-- The terminal callback comes with the end of a run. -/
structure Announces (c : LiveCaptureController) : Prop where
  waiting : c.terminal = false → c.hasTerminalCallback = true
  called : c.terminal = true → ∃ result, .terminalCallback result ∈ c.log

structure Placed (c : LiveCaptureController) : Prop where
  generation : c.session.isSome = true → c.sessionGeneration = c.generation
  session : ∀ s, c.session = some s →
    s.Inv sessionCallbacks s.connectionEpoch ∧ s.state ≠ .terminal
  caused : Caused c
  ended : c.terminal = true → c.failureLatched = true ∨ c.session = none
  told : ∀ result, .terminalCallback result ∈ c.log → c.Told result

structure Onward (given : Surroundings) (c c' : LiveCaptureController) : Prop where
  placed : Placed c'
  trace : ∃ ended, pipelineActions c'.log =
      pipelineActions c.log ++ List.replicate ended .invalidateAll ∧
    c'.pipeline = LiveEventPipeline.invalidateAll^[ended] c.pipeline ∧
    (c'.HasOpened → c.HasOpened ∧ ended = 0)
  opened : opens c'.log = opens c.log
  stopped : c'.stopRequested = true → c.stopRequested = true ∨ given.stopsMeanwhile = true
  announced : Announces c → Announces c'

/-- What these look at, but for the calls of the writer. -/
def frame (c : LiveCaptureController) :=
  (c.session, c.sessionGeneration, c.generation, c.log, c.failureLatched, c.terminal, c.result.error,
    c.stopRequested, c.pipeline, c.hasTerminalCallback)

section Relation

variable {given : Surroundings} {c c' c'' : LiveCaptureController}

theorem Onward.trans (h : Onward given c c') (h' : Onward given c' c'') : Onward given c c'' := by
  obtain ⟨ended, hactions, hpipeline, hopened⟩ := h.trace
  obtain ⟨ended', hactions', hpipeline', hopened'⟩ := h'.trace
  refine ⟨h'.placed, ⟨ended + ended', ?_, ?_, ?_⟩, h'.opened.trans h.opened, ?_,
    fun ha => h'.announced (h.announced ha)⟩
  · rw [hactions', hactions, List.append_assoc, List.replicate_add]
  · rw [hpipeline', hpipeline, ← Function.iterate_add_apply, Nat.add_comm]
  · intro hlast
    obtain ⟨hmiddle, hnone⟩ := hopened' hlast
    obtain ⟨hfirst, hnone'⟩ := hopened hmiddle
    exact ⟨hfirst, by omega⟩
  · intro hstop
    rcases h'.stopped hstop with hstop | hstop
    · exact h.stopped hstop
    · exact .inr hstop

theorem Told.same {result : LiveCaptureResult} (h : c.Told result) (hframe : c'.frame = c.frame)
    (hcalls : ∀ entry ∈ c.writerCalls, entry ∈ c'.writerCalls) : c'.Told result := by
  simp only [frame, Prod.mk.injEq] at hframe
  obtain ⟨hsession, -, -, -, hlatched, hterminal, -, hstop, -⟩ := hframe
  refine ⟨hterminal.trans h.terminal, hcalls _ h.joined, ?_, ?_⟩
  · rw [hstop]
    exact h.stopped
  · rw [hlatched, hsession]
    exact h.unfailed

theorem Placed.same (h : Placed c) (hframe : c'.frame = c.frame)
    (hcalls : ∀ entry ∈ c.writerCalls, entry ∈ c'.writerCalls) : Placed c' := by
  have htold := fun result ht => (h.told result ht).same hframe hcalls
  simp only [frame, Prod.mk.injEq] at hframe
  obtain ⟨hsession, hgeneration, hcurrent, hlog, hlatched, hterminal, herror, -, -⟩ := hframe
  refine ⟨?_, ?_, ?_, ?_, ?_⟩
  · rw [hsession, hgeneration, hcurrent]
    exact h.generation
  · rw [hsession]
    exact h.session
  · rw [Caused, hlatched, herror]
    exact h.caused
  · rw [hterminal, hlatched, hsession]
    exact h.ended
  · rw [hlog]
    exact htold

/-- Counters, timers, flags and calls of the writer. -/
theorem Onward.of_same (h : Placed c) (hframe : c'.frame = c.frame)
    (hcalls : ∀ entry ∈ c.writerCalls, entry ∈ c'.writerCalls) : Onward given c c' := by
  have hplaced := h.same hframe hcalls
  simp only [frame, Prod.mk.injEq] at hframe
  obtain ⟨hsession, -, -, hlog, -, hterminal, -, hstop, hpipeline, hcallback⟩ := hframe
  refine ⟨hplaced, ⟨0, ?_, hpipeline, ?_⟩, by rw [hlog], ?_, fun ha => ⟨?_, ?_⟩⟩
  · rw [hlog, List.replicate_zero, List.append_nil]
  · rw [HasOpened, hsession]
    exact fun hopened => ⟨hopened, rfl⟩
  · rw [hstop]
    exact .inl
  · rw [hterminal, hcallback]
    exact ha.waiting
  · rw [hterminal, hlog]
    exact ha.called

theorem Onward.refl (h : Placed c) : Onward given c c := .of_same h rfl fun _ => id

theorem Onward.count (h : Placed c) (f : LiveCaptureMetrics → LiveCaptureMetrics) :
    Onward given c (c.count f) := .of_same h rfl fun _ => id

theorem Onward.calling (h : Placed c) (call : Call) (result : CallResult) :
    Onward given c (c.calling call result) :=
  .of_same h rfl fun _ => List.mem_append_left _

theorem pipelineActions_concat (log : List ControllerEvent) (event : ControllerEvent) :
    pipelineActions (log ++ [event]) = pipelineActions log ++ (pipelineAction event).toList := by
  unfold pipelineActions
  rw [List.filterMap_append]
  cases hevent : pipelineAction event <;> simp [hevent]

theorem Placed.record (h : Placed c) (event : ControllerEvent)
    (hevent : ∀ result, event ≠ .terminalCallback result) : Placed (c.record event) := by
  refine ⟨h.generation, h.session, h.caused, h.ended, fun result ht => ?_⟩
  rcases List.mem_append.mp ht with ht | ht
  · have htold := h.told result ht
    exact ⟨htold.terminal, htold.joined, htold.stopped, htold.unfailed⟩
  · exact absurd (List.mem_singleton.mp ht).symm (hevent result)

theorem Announces.record (h : Announces c) (event : ControllerEvent) :
    Announces (c.record event) := by
  refine ⟨h.waiting, fun hterminal => ?_⟩
  obtain ⟨result, hmem⟩ := h.called hterminal
  exact ⟨result, List.mem_append_left _ hmem⟩

/-- An event of no consequence. -/
theorem Onward.record (h : Placed c) (event : ControllerEvent) (htraced : event.isTraced = false) :
    Onward given c (c.record event) := by
  refine ⟨h.record event fun result heq => ?_, ⟨0, ?_, rfl, ?_⟩, ?_, .inl, fun ha => ha.record event⟩
  · rw [heq] at htraced
    cases htraced
  · rw [LiveCaptureController.record, pipelineActions_concat]
    cases event <;> first | rfl | cases htraced
  · exact fun hopened => ⟨hopened, rfl⟩
  · rw [LiveCaptureController.record, opens_concat]
    cases event <;> first | rfl | cases htraced

end Relation

/-! ## Endings -/

/-- The run is not over, or it ended with a failure: another one can be latched. -/
def Unsettled (c : LiveCaptureController) : Prop := c.terminal = true → c.failureLatched = true

section Endings

variable {c : LiveCaptureController}

theorem Placed.unsettled (h : Placed c) (hsome : c.session.isSome = true) : c.Unsettled := by
  intro hterminal
  rcases h.ended hterminal with hlatched | hnone
  · exact hlatched
  · rw [hnone] at hsome
    cases hsome

variable (given : Surroundings)

theorem onward_latch (h : Placed c) (hbusy : c.Unsettled) {error : LiveCaptureErrorCode}
    (herror : error ≠ .none) : Onward given c (c.latch error) := by
  have hrecorded : Onward given c (c.record (.latched error)) := .record h _ rfl
  refine ⟨⟨h.generation, h.session, fun _ => herror, fun _ => .inl rfl, fun result ht => ?_⟩,
    hrecorded.trace, hrecorded.opened, .inl, fun ha => ⟨ha.waiting, (hrecorded.announced ha).called⟩⟩
  have htold := hrecorded.placed.told result ht
  refine ⟨htold.terminal, htold.joined, htold.stopped, fun hnone => ?_⟩
  -- the callback came after a failure, and got it
  have hlatched : c.failureLatched = true := hbusy htold.terminal
  rw [show c.failureLatched = false from (htold.unfailed hnone).1] at hlatched
  cases hlatched

theorem onward_finalizeRun (h : Placed c) (hend : c.failureLatched = true ∨ c.session = none) :
    Onward given c (c.finalizeRun given) := by
  unfold finalizeRun
  split
  · exact .refl h
  · have hcalled : Onward given c (c.calling .join (.joined given.joined)) := .calling h _ _
    have hrecorded := hcalled.trans (Onward.record hcalled.placed .joined rfl)
    -- the results that were told before stay true, since nothing is taken back
    have hended : Placed
        { (c.calling .join (.joined given.joined)).record .joined with
          terminalStarted := true
          stopRequested := c.stopRequested || given.stopsMeanwhile
          result := c.finalResult (c.stopRequested || given.stopsMeanwhile) given.joined
          terminal := true
          hasTerminalCallback := false } := by
      refine ⟨h.generation, h.session, fun hlatched => ?_, fun _ => hend, fun result ht => ?_⟩
      · have hcause : c.result.error ≠ .none := h.caused hlatched
        simp only [finalResult]
        split
        · decide
        · exact hcause
      · have htold := hrecorded.placed.told result ht
        exact ⟨rfl, htold.joined, fun hstop => by simp [show c.stopRequested = true from
          htold.stopped hstop], htold.unfailed⟩
    dsimp only
    split
    · refine ⟨⟨h.generation, h.session, hended.caused, fun _ => hend, fun result ht => ?_⟩,
        ?_, ?_, fun hstop => Bool.or_eq_true_iff.mp hstop, fun _ => ⟨fun hopen => (by cases hopen), fun _ =>
          ⟨_, List.mem_append_right _ (List.mem_singleton.mpr rfl)⟩⟩⟩
      · rcases List.mem_append.mp ht with ht | ht
        · have htold := hended.told result ht
          exact ⟨rfl, htold.joined, htold.stopped, htold.unfailed⟩
        · obtain rfl : result = _ := by simpa using ht
          refine ⟨rfl, by simp [record, calling, finalResult], id, fun hnone => ?_⟩
          have hclear : c.result.error = .none := by
            simp only [finalResult] at hnone
            split at hnone
            · cases hnone
            · exact hnone
          have hlatched : c.failureLatched = false := by
            rw [Bool.eq_false_iff]
            exact fun hlatched => h.caused hlatched hclear
          rw [hlatched] at hend
          exact ⟨hlatched, hend.resolve_left Bool.false_ne_true⟩
      · obtain ⟨ended, hactions, hpipeline, hopened⟩ := hrecorded.trace
        refine ⟨ended, ?_, hpipeline, hopened⟩
        rw [← hactions]
        exact (pipelineActions_concat _ _).trans (List.append_nil _)
      · rw [← hrecorded.opened]
        exact opens_concat _ _
    · next hcallback =>
        refine ⟨hended, hrecorded.trace, hrecorded.opened, fun hstop => Bool.or_eq_true_iff.mp hstop,
          fun ha => ⟨fun hopen => (by cases hopen), fun _ => ?_⟩⟩
        -- without a callback the run was over before
        have hterminal : c.terminal = true := by
          rw [← Bool.not_eq_false]
          exact fun hopen => hcallback (ha.waiting hopen)
        exact (hrecorded.announced ha).called hterminal

theorem onward_latchFinalize (h : Placed c) (hbusy : c.Unsettled) {error : LiveCaptureErrorCode}
    (herror : error ≠ .none) : Onward given c ((c.latch error).finalizeRun given) := by
  have hlatched := onward_latch given h hbusy herror
  exact hlatched.trans (onward_finalizeRun given hlatched.placed (.inl rfl))

theorem onward_handleSessionStopException (h : Placed c) (hbusy : c.Unsettled) :
    Onward given c (c.handleSessionStopException given) := by
  unfold handleSessionStopException
  split
  · next hlatched => exact onward_finalizeRun given h (.inl hlatched)
  · exact onward_latchFinalize given h hbusy (by decide)

theorem onward_scheduleReconnect (h : Placed c) (hbusy : c.Unsettled) :
    Onward given c (c.scheduleReconnect given) := by
  unfold scheduleReconnect
  dsimp only [selectReconnectDelay]
  generalize hd : LiveCaptureController.count _ _ = d
  have hcounted : Onward given c d := by
    rw [← hd]
    exact .of_same h rfl fun _ => id
  have hopen : d.Unsettled := by
    rw [← hd]
    exact hbusy
  split
  · exact hcounted.trans (onward_latchFinalize given hcounted.placed hopen (by decide))
  · have hrecorded := hcounted.trans (Onward.record hcounted.placed .reconnectScheduled rfl)
    exact hrecorded.trans (.of_same hrecorded.placed rfl fun _ => id)

theorem onward_endStopped (h : Placed c) (hnone : c.session = none) (hbusy : c.Unsettled)
    (sessionResult : WebSocketSessionResult) :
    Onward given c (c.endStopped given sessionResult) := by
  have finished : ∀ d : LiveCaptureController, Onward given c d → d.session = none → d.Unsettled →
      ∀ failed : Bool, Onward given c ((if failed then d.latch .sessionFailure else d).finalizeRun
        given) := by
    intro d hd hsession hopen failed
    cases failed with
    | true => exact hd.trans (onward_latchFinalize given hd.placed hopen (by decide))
    | false => exact hd.trans (onward_finalizeRun given hd.placed (.inr hsession))
  unfold endStopped
  dsimp only
  split
  · exact finished _ (.count h _) hnone hbusy _
  · exact finished c (.refl h) hnone hbusy _

theorem onward_endOrReconnect (h : Placed c) (hnone : c.session = none) (hbusy : c.Unsettled)
    (sessionResult : WebSocketSessionResult) :
    Onward given c (c.endOrReconnect given sessionResult) := by
  unfold endOrReconnect
  split
  · exact onward_endStopped given h hnone hbusy sessionResult
  split
  · exact onward_finalizeRun given h (.inr hnone)
  split
  · exact onward_latchFinalize given h hbusy (by decide)
  split
  · exact onward_latchFinalize given h hbusy (by decide)
  · have hcounted : Onward given c (c.count fun m =>
        { m with recoverableSessionFailures := m.recoverableSessionFailures + 1 }) := .count h _
    exact hcounted.trans (onward_scheduleReconnect given hcounted.placed hbusy)

end Endings

/-! ## Sessions -/

/-- On the way to an end: the session is gone. -/
structure Parted (given : Surroundings) (c d : LiveCaptureController) : Prop
    extends Onward given c d where
  gone : d.session = none
  unsettled : d.Unsettled

section Sessions

variable {given : Surroundings} {c d e : LiveCaptureController}

theorem Parted.same (h : Parted given c d) (hframe : e.frame = d.frame)
    (hcalls : ∀ entry ∈ d.writerCalls, entry ∈ e.writerCalls) : Parted given c e := by
  refine ⟨h.toOnward.trans (.of_same h.placed hframe hcalls), ?_, ?_⟩
  all_goals
    simp only [frame, Prod.mk.injEq] at hframe
    obtain ⟨hsession, -, -, -, hlatched, hterminal, -, -, -⟩ := hframe
  · rw [hsession]
    exact h.gone
  · rw [Unsettled, hterminal, hlatched]
    exact h.unsettled

theorem Parted.latch (h : Parted given c d) (error : LiveCaptureErrorCode) (herror : error ≠ .none) :
    Parted given c (d.latch error) :=
  ⟨h.toOnward.trans (onward_latch given h.placed h.unsettled herror), h.gone, fun _ => rfl⟩

theorem Parted.record (h : Parted given c d) (event : ControllerEvent)
    (htraced : event.isTraced = false) : Parted given c (d.record event) :=
  ⟨h.toOnward.trans (Onward.record h.placed event htraced), h.gone, h.unsettled⟩

theorem Parted.tripBreaker (h : Parted given c d) : Parted given c d.tripBreaker := by
  unfold LiveCaptureController.tripBreaker
  split
  · have hcounted : Parted given c (d.count fun m =>
        { m with messagePolicyBreakerTrips := m.messagePolicyBreakerTrips + 1 }) :=
      h.same rfl fun _ => id
    exact (hcounted.latch .messagePolicyBreaker (by decide)).record .breakerTripped rfl
  · exact h

theorem Parted.countSessionEnd (h : Parted given c d) (code : WebSocketSessionErrorCode) :
    Parted given c (d.countSessionEnd code) := by
  unfold LiveCaptureController.countSessionEnd
  split
  · exact h.same rfl fun _ => id
  split
  · exact h.same rfl fun _ => id
  · exact h

/-- The end of a session invalidates the pipeline once. -/
theorem onward_sessionEnded (h : Placed c) (hsome : c.session.isSome = true) (given : Surroundings)
    (s : WebSocketSession) (sessionResult : WebSocketSessionResult) :
    Onward given c ({ c with session := some s }.sessionEnded given sessionResult) := by
  have hgeneration : c.sessionGeneration = c.generation := h.generation hsome
  unfold sessionEnded onSessionTerminal
  rw [if_neg (by exact not_not.mpr hgeneration)]
  dsimp only
  generalize hd : LiveCaptureController.count _ _ = d
  have hended : Parted given c d := by
    rw [← hd]
    refine ⟨⟨⟨fun hsome => (by cases hsome), fun t ht => (by cases ht), h.caused,
      fun _ => .inr rfl, fun result ht => ?_⟩, ⟨1, ?_, rfl, ?_⟩, ?_, .inl,
      fun ha => ⟨ha.waiting, (ha.record _).called⟩⟩, rfl, h.unsettled hsome⟩
    · rcases List.mem_append.mp ht with ht | ht
      · have htold := h.told result ht
        exact ⟨htold.terminal, htold.joined, htold.stopped, fun hnone =>
          ⟨(htold.unfailed hnone).1, rfl⟩⟩
      · cases List.mem_singleton.mp ht
    · exact pipelineActions_concat c.log _
    · rintro ⟨s', hs', -⟩
      cases hs'
    · exact opens_concat c.log _
  generalize he : LiveCaptureController.tripBreaker _ = e
  have htripped : Parted given c e := by
    rw [← he]
    exact (hended.countSessionEnd _).tripBreaker
  have hstop : Parted given c
      { e with result := { e.result with stopRequested := e.stopRequested } } :=
    htripped.same rfl fun _ => id
  split
  · have hlatched := hstop.latch .resumeNotificationFailure (by decide)
    exact hlatched.toOnward.trans
      (onward_endOrReconnect given hlatched.placed hlatched.gone hlatched.unsettled _)
  · exact hstop.toOnward.trans
      (onward_endOrReconnect given hstop.placed hstop.gone hstop.unsettled _)

/-- Another state of the session. -/
theorem Placed.withSession (h : Placed c) {s s' : WebSocketSession} (hs : c.session = some s)
    (hinv : s'.Inv sessionCallbacks s'.connectionEpoch) (hlive : s'.state ≠ .terminal) :
    Placed { c with session := some s' } := by
  have hsome : c.session.isSome = true := by rw [hs]; rfl
  refine ⟨fun _ => h.generation hsome, fun t ht => ?_, h.caused,
    fun hterminal => .inl (h.unsettled hsome hterminal), fun result ht => ?_⟩
  · obtain rfl := Option.some.inj ht
    exact ⟨hinv, hlive⟩
  · have htold := h.told result ht
    refine ⟨htold.terminal, htold.joined, htold.stopped, fun hnone => ?_⟩
    rw [(htold.unfailed hnone).2] at hs
    cases hs

theorem onward_withSession (h : Placed c) {s s' : WebSocketSession} (hs : c.session = some s)
    (hinv : s'.Inv sessionCallbacks s'.connectionEpoch) (hlive : s'.state ≠ .terminal)
    (hopened : .opened ∈ s'.log → .opened ∈ s.log) :
    Onward given c { c with session := some s' } := by
  refine ⟨h.withSession hs hinv hlive, ⟨0, by simp, rfl, ?_⟩, rfl, .inl,
    fun ha => ⟨ha.waiting, ha.called⟩⟩
  rintro ⟨t, ht, hmem⟩
  obtain rfl := Option.some.inj ht
  exact ⟨⟨s, hs, hopened hmem⟩, rfl⟩

theorem onward_advanceSession (h : Placed c) {s s' : WebSocketSession} (hs : c.session = some s)
    (hinv : s'.Inv sessionCallbacks s.connectionEpoch) (hsteady : Steady s s')
    (given : Surroundings) : Onward given c (c.advanceSession given s') := by
  unfold advanceSession
  dsimp only
  split
  · exact onward_sessionEnded h (by rw [hs]; rfl) given s' _
  · next hnotified =>
      have hlive : s'.state ≠ .terminal := by
        intro hterminal
        have htold := hinv.told rfl hterminal
        rw [hnotified] at htold
        cases htold
      exact onward_withSession h hs (by rw [hsteady.epoch]; exact hinv) hlive hsteady.opened.mp

theorem onward_callSession (h : Placed c) (given : Surroundings) (call : SessionCall)
    (completion : Completion) : Onward given c (c.callSession given call completion).1 := by
  unfold callSession
  split
  · exact .refl h
  · next s hs =>
      have hadvanced := onward_advanceSession h hs ((h.session s hs).1.call call)
        (steady_call s call) given
      cases completion with
      | throwsBefore => exact .refl h
      | returns => exact hadvanced
      | throwsAfter => exact hadvanced

/-- A call that throws has not ended the session. -/
theorem callSession_kept {call : SessionCall} {completion : Completion}
    (hthrew : (c.callSession given call completion).2 = true) :
    (c.callSession given call completion).1.session.isSome = true := by
  unfold callSession at hthrew ⊢
  split
  · next hnone =>
      rw [hnone] at hthrew
      cases hthrew
  · next s hs =>
      rw [hs] at hthrew
      cases completion with
      | returns => cases hthrew
      | throwsBefore => rw [hs]; rfl
      | throwsAfter =>
          have hnone : (s.call call).notified = none := Option.isNone_iff_eq_none.mp hthrew
          show (c.advanceSession given (s.call call)).session.isSome = true
          unfold advanceSession
          rw [hnone]
          rfl

theorem onward_stopSession (h : Placed c) (given : Surroundings) :
    Onward given c (c.stopSession given) := by
  have hcalled := onward_callSession h given .stop given.sessionStop
  unfold stopSession
  dsimp only
  split
  · next hthrew =>
      exact hcalled.trans (onward_handleSessionStopException given hcalled.placed
        (hcalled.placed.unsettled (callSession_kept hthrew)))
  · exact hcalled

theorem Placed.hasLiveSession (h : Placed c) : c.hasLiveSession = c.session.isSome := by
  unfold LiveCaptureController.hasLiveSession
  cases hs : c.session with
  | none => rfl
  | some s => simpa [WebSocketSession.terminal] using (h.session s hs).2

theorem onward_requestStopOnIo (h : Placed c) (given : Surroundings) :
    Onward given c (c.requestStopOnIo given) := by
  have hhandled : Onward given c (c.record .stopHandled) := .record h _ rfl
  unfold requestStopOnIo
  dsimp only
  split
  · exact hhandled
  split
  · exact hhandled.trans (onward_stopSession hhandled.placed given)
  · next hnone =>
      rw [hhandled.placed.hasLiveSession] at hnone
      exact hhandled.trans (onward_finalizeRun given hhandled.placed (.inr (by simpa using hnone)))

theorem onward_fail (h : Placed c) (given : Surroundings) {error : LiveCaptureErrorCode}
    (herror : error ≠ .none) : Onward given c (c.fail given error) := by
  unfold fail
  split
  · exact .refl h
  · next hrunning =>
      have hopen : c.Unsettled := by
        intro hterminal
        simp [hterminal] at hrunning
      have hlatched := onward_latch given h hopen herror
      dsimp only
      split
      · have hpaused := hlatched.trans
          (onward_callSession hlatched.placed given .pauseReads given.sessionPause)
        split
        · next hthrew =>
            exact hpaused.trans (onward_handleSessionStopException given hpaused.placed
              (hpaused.placed.unsettled (callSession_kept hthrew)))
        · exact hpaused.trans (onward_stopSession hpaused.placed given)
      · exact hlatched.trans (onward_finalizeRun given hlatched.placed (.inl rfl))

theorem onward_pauseForBackpressure (h : Placed c) (given : Surroundings) :
    Onward given c (c.pauseForBackpressure given).1 := by
  unfold pauseForBackpressure
  split
  · exact .refl h
  · dsimp only
    generalize hd : LiveCaptureController.callSession _ _ _ _ = d
    have hpaused : Onward given c d.1 := by
      have hset : Onward given c { c.count fun m =>
          { m with producerPauses := m.producerPauses + 1 } with readsPaused := true } :=
        .of_same h rfl fun _ => id
      rw [← hd]
      exact hset.trans (onward_callSession hset.placed given _ _)
    split
    · exact hpaused
    · exact hpaused.trans (.calling hpaused.placed _ _)

theorem onward_pauseIfFull (h : Placed c) (given : Surroundings) :
    Onward given c (c.pauseIfFull given).1 := by
  have hcalled : Onward given c (c.calling .shouldPause (.shouldPause given.shouldPause)) :=
    .calling h _ _
  unfold pauseIfFull
  dsimp only
  split
  · exact hcalled.trans (onward_pauseForBackpressure hcalled.placed given)
  · exact hcalled

theorem onward_onOpen (h : Placed c) (given : Surroundings) (generation : UInt64) :
    Onward given c (c.onOpen given generation).1 := by
  unfold onOpen
  split
  · exact .of_same h rfl fun _ => id
  · dsimp only
    generalize hd : useEpoch _ = d
    have hused : Onward given c d := by
      rw [← hd]
      unfold useEpoch
      split <;> exact .of_same h rfl fun _ => id
    split
    · exact hused
    split
    · exact hused.trans (onward_requestStopOnIo hused.placed given)
    · exact hused.trans (onward_pauseIfFull hused.placed given)

theorem onward_onControl (h : Placed c) (given : Surroundings) (generation : UInt64)
    (kind : WebSocketControlKind) : Onward given c (c.onControl generation kind) := by
  unfold onControl
  split
  · exact .of_same h rfl fun _ => id
  · cases kind <;> exact .of_same h rfl fun _ => id

theorem onward_afterSessionCallback (h : Placed c) (given : Surroundings) (threw : Bool) :
    Onward given c (c.afterSessionCallback given threw) := by
  unfold afterSessionCallback
  split
  · exact .refl h
  · next s hs =>
      split
      · next s' hstep =>
          obtain ⟨callback, -, rfl⟩ := Option.map_eq_some_iff.mp hstep
          exact onward_advanceSession h hs ((h.session s hs).1.returned callback threw)
            (steady_returned s callback threw) given
      · exact .refl h

end Sessions

/-! ## Starting, timers and notifications -/

section Timers

variable {given : Surroundings} {c : LiveCaptureController}

theorem onward_startCurrentSession (h : Placed c) (given : Surroundings) :
    Onward given c (c.startCurrentSession given).1 := by
  unfold startCurrentSession
  split
  · exact onward_fail h given (by decide)
  · dsimp only
    have hcounted : Onward given c (c.count fun m =>
        { m with connectionAttempts := m.connectionAttempts + 1 }) := .count h _
    split
    · have hrecorded := hcounted.trans (.record hcounted.placed .sessionStarted rfl)
      exact hrecorded.trans (onward_callSession hrecorded.placed given _ _)
    · exact hcounted.trans (onward_callSession hcounted.placed given _ _)

theorem startCurrentSession_kept (hthrew : (c.startCurrentSession given).2 = true) :
    (c.startCurrentSession given).1.session.isSome = true := by
  unfold startCurrentSession at hthrew ⊢
  split
  · next hs =>
      rw [hs] at hthrew
      cases hthrew
  · next s hs =>
      rw [hs] at hthrew
      exact callSession_kept hthrew

theorem onward_start (h : Placed c) (given : Surroundings) : Onward given c (c.start given) := by
  unfold start
  split
  · exact .refl h
  · have hset : Onward given c { c with started := true } := .of_same h rfl fun _ => id
    have hstarted := hset.trans (onward_startCurrentSession hset.placed given)
    dsimp only
    split
    · exact hstarted.trans (.of_same hstarted.placed rfl fun _ => id)
    · exact hstarted

/-- A new session has not opened. -/
theorem onward_createSession (h : Placed c) (hopen : c.terminal = false) :
    Onward given c c.createSession := by
  have hrecorded : Onward given c
      (c.record (.sessionCreated c.generation c.nextConnectionEpoch)) := .record h _ rfl
  have hended : ¬ c.terminal = true := Bool.eq_false_iff.mp hopen
  refine ⟨⟨fun _ => rfl, fun s hs => ?_, h.caused, fun hterminal => (hended hterminal).elim,
    fun result ht => ?_⟩, ?_, hrecorded.opened, .inl,
    fun ha => ⟨ha.waiting, (hrecorded.announced ha).called⟩⟩
  · obtain rfl := Option.some.inj hs
    exact ⟨inv_create _ _, fun hterminal => (by cases hterminal)⟩
  · exact (hended (hrecorded.placed.told result ht).terminal).elim
  · obtain ⟨ended, hactions, hpipeline, -⟩ := hrecorded.trace
    refine ⟨ended, hactions, hpipeline, ?_⟩
    rintro ⟨s, hs, hmem⟩
    obtain rfl := Option.some.inj hs
    cases hmem

theorem onward_onReconnectTimer (h : Placed c) (hnone : c.session = none) (given : Surroundings)
    (error : NativeError) : Onward given c (c.onReconnectTimer given error) := by
  unfold onReconnectTimer
  split
  · exact .refl h
  next hguard =>
  have hopen : c.terminal = false := Bool.eq_false_iff.mpr (not_or.mp hguard).2
  have hbusy : ∀ d : LiveCaptureController, d.terminal = c.terminal → d.Unsettled := by
    intro d hd hterminal
    rw [hd, hopen] at hterminal
    cases hterminal
  split
  · exact onward_latchFinalize given h (hbusy c rfl) (by decide)
  split
  · exact onward_finalizeRun given h (.inr hnone)
  split
  · exact onward_latchFinalize given h (hbusy c rfl) (by decide)
  dsimp only
  split
  · next creationError hcreation =>
      have hset : Onward given c { c with
          generation := c.generation + 1
          session := none
          result := { c.result with session := creationError } } := by
        refine ⟨⟨fun hsome => (by cases hsome), fun s hs => (by cases hs), h.caused, fun _ => .inr rfl,
          fun result ht => ?_⟩, ⟨0, by simp, rfl, ?_⟩, rfl, .inl,
          fun ha => ⟨ha.waiting, ha.called⟩⟩
        · have htold := h.told result ht
          exact ⟨htold.terminal, htold.joined, htold.stopped, fun hclear =>
            ⟨(htold.unfailed hclear).1, rfl⟩⟩
        · rintro ⟨s, hs, -⟩
          cases hs
      exact hset.trans (onward_latchFinalize given hset.placed (hbusy _ rfl) (by decide))
  · have hnext : Onward given c { c with generation := c.generation + 1 } := by
      refine ⟨⟨fun hsome => ?_, h.session, h.caused, h.ended, fun result ht => ?_⟩,
        ⟨0, by simp, rfl, fun hopened => ⟨hopened, rfl⟩⟩, rfl, .inl,
        fun ha => ⟨ha.waiting, ha.called⟩⟩
      · rw [show c.session = none from hnone] at hsome
        cases hsome
      · have htold := h.told result ht
        exact ⟨htold.terminal, htold.joined, htold.stopped, htold.unfailed⟩
    have hcreated := hnext.trans (onward_createSession hnext.placed hopen)
    have hstarted := hcreated.trans (onward_startCurrentSession hcreated.placed given)
    split
    · next hthrew =>
        exact hstarted.trans (onward_latchFinalize given hstarted.placed
          (hstarted.placed.unsettled (startCurrentSession_kept hthrew)) (by decide))
    · exact hstarted

theorem onward_onWriterResume (h : Placed c) (given : Surroundings) :
    Onward given c (c.onWriterResume given) := by
  unfold onWriterResume
  split
  · exact .refl h
  split
  · exact onward_fail h given (by decide)
  dsimp only
  have hasked : Onward given c (c.calling .failed (.failed given.writerFailed)) := .calling h _ _
  generalize LiveCaptureController.calling c .failed _ = d at hasked
  refine hasked.trans ?_
  split
  · exact onward_fail hasked.placed given (by decide)
  split
  · exact .refl hasked.placed
  have hbelow : Onward given d (d.calling .belowResumeWatermark
      (.belowResumeWatermark given.belowResumeWatermark)) := .calling hasked.placed _ _
  generalize LiveCaptureController.calling d .belowResumeWatermark _ = e at hbelow
  refine hbelow.trans ?_
  split
  · exact .calling hbelow.placed _ _
  · generalize hf : LiveCaptureController.callSession _ _ _ _ = f
    have hresumed : Onward given e f.1 := by
      have hset : Onward given e { e.count fun m =>
          { m with producerResumes := m.producerResumes + 1 } with readsPaused := false } :=
        .of_same hbelow.placed rfl fun _ => id
      rw [← hf]
      exact hset.trans (onward_callSession hset.placed given _ _)
    split
    · exact hresumed.trans (onward_fail hresumed.placed given (by decide))
    · exact hresumed

theorem onward_onBackpressureTimeout (h : Placed c) (given : Surroundings) (error : NativeError) :
    Onward given c (c.onBackpressureTimeout given error) := by
  unfold onBackpressureTimeout
  split
  · exact .refl h
  · have hasked : Onward given c (c.calling .failed (.failed given.writerFailed)) := .calling h _ _
    refine hasked.trans (onward_fail hasked.placed given ?_)
    split <;> decide

end Timers

/-! ## Steps -/

section Steps

variable {json : Library} {given : Surroundings} {c c' : LiveCaptureController}

/-- Every step but a handler of the session and a request to stop. -/
theorem step_onward (h : Placed c) (hwaits : 0 < c.reconnectWaits → c.session = none)
    {label : ControllerLabel} (hsession : ∀ handler given, label ≠ .session handler given)
    (hstop : label ≠ .stop) (hstep : c.step json label = some c') :
    Onward label.given c c' := by
  cases label with
  | start given =>
      cases hstep
      exact onward_start h given
  | stop => exact absurd rfl hstop
  | requestStopOnIo given =>
      simp only [step] at hstep
      split at hstep <;> cases hstep
      exact onward_requestStopOnIo h given
  | session handler given => exact absurd rfl (hsession handler given)
  | superseded generation notice given =>
      simp only [step] at hstep
      split at hstep
      · next hold =>
          rw [onNotice_superseded c json given hold notice] at hstep
          cases hstep
          exact .of_same h rfl fun _ => id
      · cases hstep
  | reconnectTimer error given =>
      simp only [step] at hstep
      split at hstep <;> cases hstep
      next hwaiting =>
      have hset : Onward given c { c with reconnectWaits := c.reconnectWaits - 1 } :=
        .of_same h rfl fun _ => id
      exact hset.trans (onward_onReconnectTimer hset.placed (hwaits hwaiting) given error)
  | stableConnection generation error =>
      cases hstep
      unfold onStableConnection
      split
      · exact .refl h
      split
      · exact .of_same h rfl fun _ => id
      · exact .of_same h rfl fun _ => id
  | writerResume given =>
      cases hstep
      exact onward_onWriterResume h given
  | resumePostFails =>
      cases hstep
      exact .of_same h rfl fun _ => id
  | postedSessionStop given =>
      simp only [step] at hstep
      split at hstep <;> cases hstep
      exact onward_callSession h given _ _
  | backpressureTimeout error given =>
      cases hstep
      exact onward_onBackpressureTimeout h given error

/-- A session has opened. -/
def Opening (given : Surroundings) (c c' : LiveCaptureController) : Prop :=
  ∃ s s', c.session = some s ∧ Placed { c with session := some s' } ∧
    Onward given ({ c with session := some s' }.record (.opened s'.connectionEpoch)) c'

/-- A session has delivered a message. -/
def Delivering (json : Library) (given : Surroundings) (message : WebSocketTextMessage)
    (c c' : LiveCaptureController) : Prop :=
  ∃ s s' out, c.session = some s ∧ Delivers s s' message ∧
    Onward given c ({ c with session := some s' }.record (.delivered message)) ∧
    ({ c with session := some s' }.record (.delivered message)).onTextMessage json given
      c.sessionGeneration message = some out ∧
    c' = out.1.afterSessionCallback given out.2

/-- A handler of the session, with the callback it runs. -/
theorem onSession_onward (h : Placed c) {label : SessionLabel}
    (hstep : c.onSession json given label = some c') :
    (Onward given c c' ∨ Opening given c c') ∧ Beside c c' ∨
      ∃ message, Delivering json given message c c' := by
  obtain ⟨s, s', hs, hidle, hhandle, hcallback⟩ := onSession_cases hstep
  obtain ⟨hinv, hlive⟩ := h.session s hs
  have hinv' := hinv.handle hhandle
  have hsame : Beside c { c with session := some s' } := .of_same rfl rfl rfl rfl rfl rfl rfl
  have placed : s'.connectionEpoch = s.connectionEpoch → s'.state ≠ .terminal →
      Placed { c with session := some s' } := by
    intro hepoch hlive'
    refine h.withSession hs ?_ hlive'
    rw [hepoch]
    exact hinv'
  have running : ∀ callback out, s'.running = some callback →
      ∀ callback', s'.running = some callback' →
      { c with session := some s' }.onSessionCallback json given s' callback' = some out →
      { c with session := some s' }.onSessionCallback json given s' callback = some out := by
    intro callback out hcalls callback' hcalls' hout
    rw [hcalls] at hcalls'
    cases hcalls'
    exact hout
  cases handlerCase_of_handle hinv hidle hlive rfl hhandle with
  | quiet hrunning hsteady _ _ _ =>
      rcases hcallback with ⟨-, rfl⟩ | ⟨callback, out, hcalls, -, -⟩
      · exact .inl ⟨.inl (onward_advanceSession h hs hinv' hsteady given),
          beside_advanceSession c given s'⟩
      · rw [hrunning] at hcalls
        cases hcalls
  | opens hrunning _ hopen _ hepoch _ _ _ =>
      rcases hcallback with ⟨hcalls, -⟩ | ⟨callback, out, hcalls, hout, rfl⟩
      · rw [hrunning] at hcalls
        cases hcalls
      · have hset := placed hepoch (by rw [hopen]; exact fun heq => (by cases heq))
        have hopened := hset.record (.opened s'.connectionEpoch) fun result heq => (by cases heq)
        obtain rfl := Option.some.inj (running _ out hrunning _ hcalls hout)
        have hcalled := onward_onOpen hopened given c.sessionGeneration
        exact .inl ⟨.inr ⟨s, s', hs, hset,
            hcalled.trans (onward_afterSessionCallback hcalled.placed given _)⟩,
          ((hsame.trans (beside_record _ _ rfl)).trans (beside_onOpen _ given _)).trans
            (beside_afterSessionCallback _ given _)⟩
  | text message hrunning hmessage =>
      rcases hcallback with ⟨hcalls, -⟩ | ⟨callback, out, hcalls, hout, rfl⟩
      · rw [hrunning] at hcalls
        cases hcalls
      · have hset : Onward given c { c with session := some s' } := by
          refine onward_withSession h hs ?_ ?_ fun _ => (hinv.isOpen hmessage.isOpen.1).1
          · rw [hmessage.epoch.2]
            exact hinv'
          · rw [hmessage.isOpen.2]
            exact fun heq => (by cases heq)
        have hout := running _ out hrunning _ hcalls hout
        refine .inr ⟨message, s, s', out, hs, hmessage,
          hset.trans (.record hset.placed (.delivered message) rfl), ?_, rfl⟩
        exact hout
  | control kind hrunning hsteady _ hstate _ _ =>
      rcases hcallback with ⟨hcalls, -⟩ | ⟨callback, out, hcalls, hout, rfl⟩
      · rw [hrunning] at hcalls
        cases hcalls
      · have hset : Onward given c { c with session := some s' } :=
          onward_withSession h hs (by rw [hsteady.epoch]; exact hinv') (by rw [hstate]; exact hlive)
            hsteady.opened.mp
        obtain rfl := Option.some.inj (running _ out hrunning _ hcalls hout)
        have hcalled := hset.trans
          (onward_onControl hset.placed given c.sessionGeneration kind)
        exact .inl ⟨.inl (hcalled.trans (onward_afterSessionCallback hcalled.placed given _)),
          (hsame.trans (beside_onControl _ _ kind)).trans (beside_afterSessionCallback _ given _)⟩

end Steps

end LiveCaptureController

end MarketCapture
