import MarketCapture.Controller.Epochs

/-! # The first failure

The failure that is latched first is the cause of the end of a run. A callback follows
another state when it only adds to the history and keeps the cause. Every callback does,
but for the end of a session: it sets the error for the breaker and for a lost resume
notification whether or not a failure is latched.
-/

namespace MarketCapture

open Simdjson

def ControllerEvent.isLatched : ControllerEvent → Bool
  | .latched _ => true
  | _ => false

namespace LiveCaptureController

open ControllerEvent Transition

/-- The latched failure. -/
def cause (c : LiveCaptureController) : Option LiveCaptureErrorCode :=
  if c.failureLatched then some c.result.error else none

/-- The first failure that is latched, unless there is one before. -/
def causeOf : Option LiveCaptureErrorCode → List ControllerEvent → Option LiveCaptureErrorCode
  | cause, [] => cause
  | none, .latched error :: events => causeOf (some error) events
  | cause, _ :: events => causeOf cause events

/-- The terminal callback gets the first failure. -/
def Consistent : Option LiveCaptureErrorCode → List ControllerEvent → Prop
  | _, [] => True
  | none, .latched error :: events => Consistent (some error) events
  | some error, .terminalCallback result :: events =>
      result.error = error ∧ Consistent (some error) events
  | cause, _ :: events => Consistent cause events

/-- The end of a session sets no error but the one that is latched, and one at most. -/
def KeepsCause (result : WebSocketSessionResult) (found : Found) : Prop :=
  let trips := messagePolicyBreakerLimit ≤
    found.failures + if messagePolicyError result.code then 1 else 0
  if found.latched then
    if found.postFailed then found.error = .resumeNotificationFailure
    else trips → found.error = .messagePolicyBreaker
  else ¬ (trips ∧ found.postFailed = true)

instance (result : WebSocketSessionResult) (found : Found) :
    Decidable (KeepsCause result found) := by
  unfold KeepsCause
  infer_instance

theorem causeOf_append (cause : Option LiveCaptureErrorCode) (events events' : List ControllerEvent) :
    causeOf cause (events ++ events') = causeOf (causeOf cause events) events' := by
  induction events generalizing cause with
  | nil => rfl
  | cons event events ih =>
      cases cause with
      | none => cases event <;> exact ih _
      | some error => cases event <;> exact ih _

theorem consistent_append {cause : Option LiveCaptureErrorCode}
    {events events' : List ControllerEvent} :
    Consistent cause (events ++ events') ↔
      Consistent cause events ∧ Consistent (causeOf cause events) events' := by
  induction events generalizing cause with
  | nil => simp [Consistent, causeOf]
  | cons event events ih =>
      cases cause with
      | none => cases event <;> exact ih
      | some error =>
          cases event with
          | terminalCallback result =>
              simp only [List.cons_append, Consistent, causeOf]
              rw [ih, and_assoc]
          | _ => exact ih

theorem causeOf_some (error : LiveCaptureErrorCode) (events : List ControllerEvent) :
    causeOf (some error) events = some error := by
  induction events with
  | nil => rfl
  | cons event events ih => cases event <;> exact ih

/-- A latched failure is one. -/
def Caused (c : LiveCaptureController) : Prop := c.failureLatched = true → c.result.error ≠ .none

/-- What comes after a state. -/
structure Follows (c c' : LiveCaptureController) : Prop where
  caused : Caused c → Caused c'
  events : ∃ events, c'.log = c.log ++ events ∧
    (Caused c → (∀ result found, .sessionEnded result found ∈ events → KeepsCause result found) →
      Consistent c.cause events ∧ c'.cause = causeOf c.cause events)

theorem Follows.refl (c : LiveCaptureController) : Follows c c :=
  ⟨id, [], by simp, fun _ _ => ⟨trivial, rfl⟩⟩

theorem Follows.trans {c c' c'' : LiveCaptureController} (h : Follows c c') (h' : Follows c' c'') :
    Follows c c'' := by
  obtain ⟨events, hlog, hcause⟩ := h.events
  obtain ⟨events', hlog', hcause'⟩ := h'.events
  refine ⟨fun hc => h'.caused (h.caused hc), events ++ events',
    by rw [hlog', hlog, List.append_assoc], fun hc hkeeps => ?_⟩
  obtain ⟨hfirst, hmiddle⟩ := hcause hc fun result found hin =>
    hkeeps result found (List.mem_append_left _ hin)
  obtain ⟨hsecond, hlast⟩ := hcause' (h.caused hc) fun result found hin =>
    hkeeps result found (List.mem_append_right _ hin)
  rw [hmiddle] at hsecond hlast
  exact ⟨consistent_append.mpr ⟨hfirst, hsecond⟩, by rw [hlast, causeOf_append]⟩

section Functions

variable {c c' : LiveCaptureController}

/-- Nothing was latched or recorded. -/
theorem follows_same (hlog : c'.log = c.log) (hlatched : c'.failureLatched = c.failureLatched)
    (herror : c'.result.error = c.result.error) : Follows c c' := by
  have hcause : c'.cause = c.cause := by rw [cause, hlatched, herror, cause]
  refine ⟨fun hc hl => ?_, [], by rw [hlog, List.append_nil], fun _ _ => ⟨trivial, hcause⟩⟩
  rw [herror]
  exact hc (hlatched.symm.trans hl)

theorem follows_count (c : LiveCaptureController) (f : LiveCaptureMetrics → LiveCaptureMetrics) :
    Follows c (c.count f) := follows_same rfl rfl rfl

theorem follows_calling (c : LiveCaptureController) (call : Call) (result : CallResult) :
    Follows c (c.calling call result) := follows_same rfl rfl rfl

/-- An event that has nothing to do with failures. -/
theorem follows_record (event : ControllerEvent) (hlatched : event.isLatched = false)
    (hterminal : event.isTerminalCallback = false) (hlog : c'.log = c.log ++ [event])
    (hfailed : c'.failureLatched = c.failureLatched) (herror : c'.result.error = c.result.error) :
    Follows c c' := by
  have hcause : c'.cause = c.cause := by rw [cause, hfailed, herror, cause]
  have hquiet : ∀ cause, Consistent cause [event] ∧ causeOf cause [event] = cause := by
    intro cause
    cases event with
    | latched error => cases hlatched
    | terminalCallback result => cases hterminal
    | _ => cases cause <;> exact ⟨trivial, rfl⟩
  refine ⟨fun hc hl => ?_, [event], hlog, fun _ _ => ⟨(hquiet c.cause).1, ?_⟩⟩
  · rw [herror]
    exact hc (hfailed.symm.trans hl)
  · rw [hcause, (hquiet c.cause).2]

theorem follows_latch (hfailed : c.failureLatched = false) {error : LiveCaptureErrorCode}
    (herror : error ≠ .none) : Follows c (c.latch error) := by
  refine ⟨fun _ _ => herror, [.latched error], rfl, fun _ _ => ?_⟩
  have hnone : c.cause = none := by rw [cause, hfailed]; rfl
  rw [hnone]
  exact ⟨trivial, rfl⟩

theorem follows_finalizeRun (c : LiveCaptureController) (given : Surroundings) :
    Follows c (c.finalizeRun given) := by
  have hfinal : Caused c → c.failureLatched = true → ∀ stop writer,
      (c.finalResult stop writer).error = c.result.error := by
    intro hc hl stop writer
    have := hc hl
    simp [finalResult, this]
  unfold LiveCaptureController.finalizeRun
  split
  · exact .refl c
  · dsimp only
    split
    · refine ⟨fun hc hl => ?_, [.joined, .terminalCallback _], List.append_assoc _ _ _,
        fun hc _ => ?_⟩
      · show (c.finalResult _ _).error ≠ .none
        rw [hfinal hc hl]
        exact hc hl
      · by_cases hl : c.failureLatched = true
        · have hcause : c.cause = some c.result.error := if_pos hl
          rw [hcause]
          exact ⟨⟨hfinal hc hl _ _, trivial⟩,
            (if_pos hl).trans (congrArg some (hfinal hc hl _ _))⟩
        · have hcause : c.cause = none := if_neg hl
          rw [hcause]
          exact ⟨trivial, if_neg hl⟩
    · refine ⟨fun hc hl => ?_, [.joined], rfl, fun hc _ => ?_⟩
      · show (c.finalResult _ _).error ≠ .none
        rw [hfinal hc hl]
        exact hc hl
      · by_cases hl : c.failureLatched = true
        · have hcause : c.cause = some c.result.error := if_pos hl
          rw [hcause]
          exact ⟨trivial, (if_pos hl).trans (congrArg some (hfinal hc hl _ _))⟩
        · have hcause : c.cause = none := if_neg hl
          rw [hcause]
          exact ⟨trivial, if_neg hl⟩

theorem follows_latchFinalize (hfailed : c.failureLatched = false) {error : LiveCaptureErrorCode}
    (herror : error ≠ .none) (given : Surroundings) :
    Follows c ((c.latch error).finalizeRun given) :=
  (follows_latch hfailed herror).trans (follows_finalizeRun _ given)

theorem follows_handleSessionStopException (c : LiveCaptureController) (given : Surroundings) :
    Follows c (c.handleSessionStopException given) := by
  unfold LiveCaptureController.handleSessionStopException
  split
  · exact follows_finalizeRun c given
  · next hfailed => exact follows_latchFinalize (Bool.eq_false_iff.mpr hfailed) (by decide) given

theorem follows_scheduleReconnect (hfailed : c.failureLatched = false) (given : Surroundings) :
    Follows c (c.scheduleReconnect given) := by
  unfold LiveCaptureController.scheduleReconnect
  dsimp only
  split
  · refine Follows.trans ?_ (follows_latchFinalize ?_ (by decide) given)
    · exact follows_same rfl rfl rfl
    · exact hfailed
  · exact follows_record .reconnectScheduled rfl rfl rfl rfl rfl

theorem follows_endStopped (c : LiveCaptureController) (given : Surroundings)
    (sessionResult : WebSocketSessionResult) : Follows c (c.endStopped given sessionResult) := by
  have hend : ∀ (d : LiveCaptureController) (b : Bool), Follows c d →
      Follows c ((if (b && !d.failureLatched) = true then d.latch .sessionFailure else d).finalizeRun
        given) := by
    intro d b hd
    split
    · next hguard =>
        rw [Bool.and_eq_true, Bool.not_eq_true'] at hguard
        exact hd.trans (follows_latchFinalize hguard.2 (by decide) given)
    · exact hd.trans (follows_finalizeRun d given)
  unfold LiveCaptureController.endStopped
  dsimp only
  split
  · exact hend _ _ (follows_count c _)
  · exact hend _ _ (.refl c)

theorem follows_endOrReconnect (c : LiveCaptureController) (given : Surroundings)
    (sessionResult : WebSocketSessionResult) :
    Follows c (c.endOrReconnect given sessionResult) := by
  unfold LiveCaptureController.endOrReconnect
  split
  · exact follows_endStopped c given sessionResult
  split
  · exact follows_finalizeRun c given
  · next hlatched =>
      have hfailed : c.failureLatched = false := Bool.eq_false_iff.mpr hlatched
      split
      · exact follows_latchFinalize hfailed (by decide) given
      split
      · exact follows_latchFinalize hfailed (by decide) given
      · refine (follows_count c _).trans (follows_scheduleReconnect ?_ given)
        exact hfailed

/-- The two errors that the end of a session may set. -/
theorem follows_settled {d : LiveCaptureController} (sessionResult : WebSocketSessionResult)
    (found : Found) (hfound : found = ⟨c.failureLatched, c.result.error, d.resumePostFailed,
      c.consecutiveMessagePolicyFailures⟩)
    (hlog : d.log = c.log ++ [.sessionEnded sessionResult found])
    (hlatched : d.failureLatched = c.failureLatched) (herror : d.result.error = c.result.error)
    (hfailures : d.consecutiveMessagePolicyFailures = c.consecutiveMessagePolicyFailures +
      if messagePolicyError sessionResult.code then 1 else 0) :
    Follows c (if d.resumePostFailed then d.tripBreaker.latch .resumeNotificationFailure
      else d.tripBreaker) := by
  have hold : c.failureLatched = true → c.cause = some c.result.error := fun hl => if_pos hl
  have hnew : c.failureLatched = false → c.cause = none := fun hl => by rw [cause, hl]; rfl
  unfold tripBreaker
  rw [hfailures]
  by_cases htrips : c.consecutiveMessagePolicyFailures +
      (if messagePolicyError sessionResult.code then 1 else 0) ≥ messagePolicyBreakerLimit <;>
    by_cases hpost : d.resumePostFailed = true
  · rw [if_pos htrips, if_pos hpost]
    refine ⟨fun _ _ => nofun, [.sessionEnded sessionResult found, .latched .messagePolicyBreaker,
      .breakerTripped, .latched .resumeNotificationFailure], ?_, fun _ hkeeps => ?_⟩
    · show d.log ++ _ ++ _ ++ _ = _
      rw [hlog, List.append_assoc, List.append_assoc, List.append_assoc]
      rfl
    · have hkept := hkeeps _ _ List.mem_cons_self
      rw [hfound] at hkept
      cases hl : c.failureLatched with
      | true =>
          rw [hold hl]
          simp only [KeepsCause, hl, hpost, if_true] at hkept
          refine ⟨trivial, ?_⟩
          rw [hkept]
          rfl
      | false =>
          simp only [KeepsCause, hl, Bool.false_eq_true, if_false] at hkept
          exact absurd ⟨htrips, hpost⟩ hkept
  · rw [if_pos htrips, if_neg hpost]
    refine ⟨fun _ _ => nofun, [.sessionEnded sessionResult found, .latched .messagePolicyBreaker,
      .breakerTripped], ?_, fun _ hkeeps => ?_⟩
    · show d.log ++ _ ++ _ = _
      rw [hlog, List.append_assoc, List.append_assoc]
      rfl
    · have hkept := hkeeps _ _ List.mem_cons_self
      rw [hfound] at hkept
      cases hl : c.failureLatched with
      | true =>
          rw [hold hl]
          simp only [KeepsCause, hl, hpost, Bool.false_eq_true, if_true, if_false] at hkept
          refine ⟨trivial, ?_⟩
          rw [hkept htrips]
          rfl
      | false =>
          rw [hnew hl]
          exact ⟨trivial, rfl⟩
  · rw [if_neg htrips, if_pos hpost]
    refine ⟨fun _ _ => nofun, [.sessionEnded sessionResult found, .latched .resumeNotificationFailure],
      ?_, fun _ hkeeps => ?_⟩
    · show d.log ++ _ = _
      rw [hlog, List.append_assoc]
      rfl
    · have hkept := hkeeps _ _ List.mem_cons_self
      rw [hfound] at hkept
      cases hl : c.failureLatched with
      | true =>
          rw [hold hl]
          simp only [KeepsCause, hl, hpost, if_true] at hkept
          refine ⟨trivial, ?_⟩
          rw [hkept]
          rfl
      | false =>
          rw [hnew hl]
          exact ⟨trivial, rfl⟩
  · rw [if_neg htrips, if_neg hpost]
    exact follows_record _ rfl rfl hlog hlatched herror

theorem follows_sessionEnded (c : LiveCaptureController) (given : Surroundings)
    (sessionResult : WebSocketSessionResult) : Follows c (c.sessionEnded given sessionResult) := by
  unfold LiveCaptureController.sessionEnded onSessionTerminal
  split
  · exact follows_record (.sessionEnded sessionResult _) rfl rfl rfl rfl rfl
  · dsimp only
    generalize hnext : LiveCaptureController.countSessionEnd _ sessionResult.code = next
    obtain ⟨metrics, heq⟩ := countSessionEnd_eq _ _
    rw [hnext] at heq
    have hsettled : Follows c (if next.resumePostFailed then
        next.tripBreaker.latch .resumeNotificationFailure else next.tripBreaker) := by
      refine follows_settled sessionResult _ rfl ?_ ?_ ?_ ?_ <;> rw [heq] <;> rfl
    have hkept : next.tripBreaker.resumePostFailed = next.resumePostFailed := by
      unfold tripBreaker
      split <;> rfl
    rw [hkept]
    refine Follows.trans ?_ (follows_endOrReconnect _ given sessionResult)
    cases hpost : next.resumePostFailed with
    | true =>
        rw [hpost] at hsettled
        exact hsettled.trans (follows_same rfl rfl rfl)
    | false =>
        rw [hpost] at hsettled
        exact hsettled.trans (follows_same rfl rfl rfl)

theorem follows_advanceSession (c : LiveCaptureController) (given : Surroundings)
    (s : WebSocketSession) : Follows c (c.advanceSession given s) := by
  have hsame : Follows c { c with session := some s } := follows_same rfl rfl rfl
  unfold LiveCaptureController.advanceSession
  dsimp only
  split
  · exact hsame.trans (follows_sessionEnded _ given _)
  · exact hsame

theorem follows_callSession (c : LiveCaptureController) (given : Surroundings) (call : SessionCall)
    (completion : Completion) : Follows c (c.callSession given call completion).1 := by
  unfold LiveCaptureController.callSession
  split
  · exact .refl c
  · cases completion with
    | returns => exact follows_advanceSession c given _
    | throwsBefore => exact .refl c
    | throwsAfter => exact follows_advanceSession c given _

theorem follows_stopSession (c : LiveCaptureController) (given : Surroundings) :
    Follows c (c.stopSession given) := by
  have hcalled := follows_callSession c given .stop given.sessionStop
  unfold LiveCaptureController.stopSession
  dsimp only
  split
  · exact hcalled.trans (follows_handleSessionStopException _ given)
  · exact hcalled

theorem follows_requestStopOnIo (c : LiveCaptureController) (given : Surroundings) :
    Follows c (c.requestStopOnIo given) := by
  have hrecorded : Follows c (c.record .stopHandled) :=
    follows_record .stopHandled rfl rfl rfl rfl rfl
  unfold LiveCaptureController.requestStopOnIo
  dsimp only
  split
  · exact hrecorded
  split
  · exact hrecorded.trans (follows_stopSession _ given)
  · exact hrecorded.trans (follows_finalizeRun _ given)

theorem follows_fail (c : LiveCaptureController) (given : Surroundings)
    {error : LiveCaptureErrorCode} (herror : error ≠ .none) : Follows c (c.fail given error) := by
  unfold LiveCaptureController.fail
  split
  · exact .refl c
  · next hguard =>
      rw [Bool.or_eq_true, not_or] at hguard
      have hlatched := follows_latch (Bool.eq_false_iff.mpr hguard.1) herror
      dsimp only
      split
      · have hpaused := hlatched.trans (follows_callSession _ given .pauseReads given.sessionPause)
        split
        · exact hpaused.trans (follows_handleSessionStopException _ given)
        · exact hpaused.trans (follows_stopSession _ given)
      · exact hlatched.trans (follows_finalizeRun _ given)

theorem follows_pauseForBackpressure (c : LiveCaptureController) (given : Surroundings) :
    Follows c (c.pauseForBackpressure given).1 := by
  unfold LiveCaptureController.pauseForBackpressure
  split
  · exact .refl c
  · dsimp only
    generalize hd : ({ c.count _ with readsPaused := true } : LiveCaptureController) = d
    have hcounted : Follows c d := by
      rw [← hd]
      exact follows_same rfl rfl rfl
    have hcalled := hcounted.trans (follows_callSession d given .pauseReads given.sessionPause)
    split
    · exact hcalled
    · exact hcalled.trans (follows_calling _ _ _)

theorem follows_pauseIfFull (c : LiveCaptureController) (given : Surroundings) :
    Follows c (c.pauseIfFull given).1 := by
  unfold LiveCaptureController.pauseIfFull
  dsimp only
  split
  · exact (follows_calling c _ _).trans (follows_pauseForBackpressure _ given)
  · exact follows_calling c _ _

theorem follows_onOpen (c : LiveCaptureController) (given : Surroundings) (generation : UInt64) :
    Follows c (c.onOpen given generation).1 := by
  unfold LiveCaptureController.onOpen
  split
  · exact follows_same rfl rfl rfl
  · dsimp only
    generalize hd : useEpoch _ = d
    have hused : Follows c d := by
      rw [← hd]
      unfold useEpoch
      split <;> exact follows_same rfl rfl rfl
    split
    · exact hused
    split
    · exact hused.trans (follows_requestStopOnIo d given)
    · exact hused.trans (follows_pauseIfFull d given)

theorem follows_failMessage (c : LiveCaptureController) (given : Surroundings)
    {error : LiveCaptureErrorCode} (herror : error ≠ .none) :
    Follows c (c.failMessage given error) := by
  have hrecorded : Follows c (c.record .messageFailed) :=
    follows_record .messageFailed rfl rfl rfl rfl rfl
  exact hrecorded.trans (follows_fail _ given herror)

theorem follows_publishBatch (c : LiveCaptureController) (given : Surroundings)
    (result : LivePipelineResult) : Follows c (c.publishBatch given result).1 := by
  unfold LiveCaptureController.publishBatch
  dsimp only
  generalize hd : LiveCaptureController.calling _ (.publish _) (.published given.published) = d
  have hcounted : Follows c d := by
    rw [← hd]
    exact follows_same rfl rfl rfl
  split
  · refine hcounted.trans (Follows.trans ?_ (follows_failMessage _ given ?_))
    · exact follows_same rfl rfl rfl
    · split <;> decide
  · refine hcounted.trans (Follows.trans ?_ (follows_pauseIfFull _ given))
    exact follows_record .published rfl rfl rfl rfl rfl

theorem follows_onPipelineResult (c : LiveCaptureController) (given : Surroundings)
    (result : LivePipelineResult) : Follows c (c.onPipelineResult given result).1 := by
  unfold LiveCaptureController.onPipelineResult
  split
  · exact follows_publishBatch c given result
  · dsimp only
    exact (follows_calling c _ _).trans (follows_count _ _)
  · exact (follows_calling c _ _).trans (follows_failMessage _ given (by decide))
  · exact (follows_calling c _ _).trans (follows_failMessage _ given (by decide))

theorem follows_onTextMessage {json : Library} {given : Surroundings} {generation : UInt64}
    {message : WebSocketTextMessage} {out : LiveCaptureController × Bool}
    (h : c.onTextMessage json given generation message = some out) : Follows c out.1 := by
  unfold LiveCaptureController.onTextMessage at h
  split at h
  · obtain rfl := Option.some.inj h
    exact follows_same rfl rfl rfl
  split at h
  · obtain rfl := Option.some.inj h
    exact .refl c
  · dsimp only at h
    generalize hd : LiveCaptureController.calling _ .tryAcquire (.acquired given.acquired) = d at h
    have hcounted : Follows c d := by
      rw [← hd]
      exact follows_same rfl rfl rfl
    split at h
    · obtain rfl := Option.some.inj h
      refine hcounted.trans (Follows.trans ?_ (follows_failMessage _ given ?_))
      · exact follows_same rfl rfl rfl
      · split <;> decide
    · obtain ⟨⟨result, batch, pipeline⟩, -, hout⟩ := Option.bind_eq_some_iff.mp h
      obtain rfl := Option.some.inj hout
      refine hcounted.trans (Follows.trans ?_ (follows_onPipelineResult _ given result))
      exact follows_record (.processed message result) rfl rfl rfl rfl rfl

theorem follows_onControl (c : LiveCaptureController) (generation : UInt64)
    (kind : WebSocketControlKind) : Follows c (c.onControl generation kind) := by
  unfold LiveCaptureController.onControl
  split
  · exact follows_count c _
  · cases kind <;> exact follows_count c _

theorem follows_startCurrentSession (c : LiveCaptureController) (given : Surroundings) :
    Follows c (c.startCurrentSession given).1 := by
  unfold LiveCaptureController.startCurrentSession
  split
  · exact follows_fail c given (by decide)
  · dsimp only
    split
    · refine Follows.trans ?_ (follows_callSession _ given .start given.sessionStart)
      exact follows_record .sessionStarted rfl rfl rfl rfl rfl
    · exact (follows_count c _).trans (follows_callSession _ given .start given.sessionStart)

theorem follows_start (c : LiveCaptureController) (given : Surroundings) :
    Follows c (c.start given) := by
  unfold LiveCaptureController.start
  split
  · exact .refl c
  · have hstarted : Follows c { c with started := true } := follows_same rfl rfl rfl
    have hrun := hstarted.trans (follows_startCurrentSession _ given)
    dsimp only
    split
    · exact hrun.trans (follows_same rfl rfl rfl)
    · exact hrun

/-- A call that throws has not ended the session, and latches nothing. -/
theorem callSession_threw {given : Surroundings} {call : SessionCall} {completion : Completion}
    (h : (c.callSession given call completion).2 = true) :
    (c.callSession given call completion).1.failureLatched = c.failureLatched := by
  unfold LiveCaptureController.callSession at h ⊢
  split
  · rfl
  · next s hs =>
      cases completion with
      | returns =>
          rw [hs] at h
          cases h
      | throwsBefore => rfl
      | throwsAfter =>
          rw [hs] at h
          have hnone : (s.call call).notified = none := Option.isNone_iff_eq_none.mp h
          show (c.advanceSession given (s.call call)).failureLatched = _
          unfold LiveCaptureController.advanceSession
          rw [hnone]

theorem startCurrentSession_threw {given : Surroundings}
    (h : (c.startCurrentSession given).2 = true) :
    (c.startCurrentSession given).1.failureLatched = c.failureLatched := by
  unfold LiveCaptureController.startCurrentSession at h ⊢
  split
  · next hs =>
      rw [hs] at h
      cases h
  · next s hs =>
      rw [hs] at h
      dsimp only at h ⊢
      split at h
      · next hidle =>
          rw [if_pos hidle]
          exact callSession_threw h
      · next hidle =>
          rw [if_neg hidle]
          exact callSession_threw h

/-- The timer only runs out on a controller that has nothing latched, or has ended. -/
theorem follows_onReconnectTimer (c : LiveCaptureController)
    (hopen : c.terminal = false → c.failureLatched = false) (given : Surroundings)
    (error : NativeError) : Follows c (c.onReconnectTimer given error) := by
  unfold LiveCaptureController.onReconnectTimer
  split
  · exact .refl c
  · next hguard =>
      have hfailed := hopen (Bool.eq_false_iff.mpr (not_or.mp hguard).2)
      split
      · exact follows_latchFinalize hfailed (by decide) given
      split
      · exact follows_finalizeRun c given
      split
      · exact follows_latchFinalize hfailed (by decide) given
      · dsimp only
        split
        · refine Follows.trans ?_ (follows_latchFinalize ?_ (by decide) given)
          · exact follows_same rfl rfl rfl
          · exact hfailed
        · have hcreated : Follows c
              ({ c with generation := c.generation + 1 } : LiveCaptureController).createSession :=
            follows_record (.sessionCreated _ _) rfl rfl rfl rfl rfl
          have hstarted := hcreated.trans (follows_startCurrentSession _ given)
          split
          · next hthrew =>
              refine hstarted.trans (follows_latchFinalize ?_ (by decide) given)
              exact (startCurrentSession_threw hthrew).trans hfailed
          · exact hstarted

theorem follows_onWriterResume (c : LiveCaptureController) (given : Surroundings) :
    Follows c (c.onWriterResume given) := by
  unfold LiveCaptureController.onWriterResume
  split
  · exact .refl c
  split
  · exact follows_fail c given (by decide)
  dsimp only
  have hasked := follows_calling c .failed (.failed given.writerFailed)
  split
  · exact hasked.trans (follows_fail _ given (by decide))
  split
  · exact hasked
  split
  · exact hasked.trans ((follows_calling _ _ _).trans (follows_calling _ _ _))
  · generalize hd : ({ LiveCaptureController.count _ _ with readsPaused := false } :
      LiveCaptureController) = d
    have hresumed : Follows c d := by
      rw [← hd]
      exact follows_same rfl rfl rfl
    have hcalled := hresumed.trans (follows_callSession d given .resumeReads given.sessionResume)
    split
    · exact hcalled.trans (follows_fail _ given (by decide))
    · exact hcalled

theorem follows_onBackpressureTimeout (c : LiveCaptureController) (given : Surroundings)
    (error : NativeError) : Follows c (c.onBackpressureTimeout given error) := by
  unfold LiveCaptureController.onBackpressureTimeout
  split
  · exact .refl c
  · refine (follows_calling c _ _).trans (follows_fail _ given ?_)
    split <;> decide

theorem follows_afterSessionCallback (c : LiveCaptureController) (given : Surroundings)
    (threw : Bool) : Follows c (c.afterSessionCallback given threw) := by
  unfold LiveCaptureController.afterSessionCallback
  split
  · exact .refl c
  · split
    · exact follows_advanceSession c given _
    · exact .refl c

theorem follows_onSession {json : Library} {given : Surroundings} {label : SessionLabel}
    (h : c.onSession json given label = some c') : Follows c c' := by
  unfold LiveCaptureController.onSession at h
  obtain ⟨s, hs, h⟩ := Option.bind_eq_some_iff.mp h
  dsimp only at h
  split at h
  · obtain ⟨s', hhandle, h⟩ := Option.bind_eq_some_iff.mp h
    split at h
    · obtain rfl := Option.some.inj h
      exact follows_advanceSession c given s'
    · next callback hrunning =>
        obtain ⟨⟨d, threw⟩, hcallback, h⟩ := Option.bind_eq_some_iff.mp h
        obtain rfl := Option.some.inj h
        refine Follows.trans ?_ (follows_afterSessionCallback d given threw)
        have hmoved : Follows c { c with session := some s' } := follows_same rfl rfl rfl
        cases callback with
        | «open» =>
            have hopened : Follows c
                ({ c with session := some s' }.record (.opened s'.connectionEpoch)) :=
              follows_record (.opened s'.connectionEpoch) rfl rfl rfl rfl rfl
            have hout := Option.some.inj hcallback
            have hrun := hopened.trans (follows_onOpen _ given c.sessionGeneration)
            rw [hout] at hrun
            exact hrun
        | text message =>
            have hdelivered : Follows c
                ({ c with session := some s' }.record (.delivered message)) :=
              follows_record (.delivered message) rfl rfl rfl rfl rfl
            exact hdelivered.trans (follows_onTextMessage hcallback)
        | control kind =>
            have hout := Option.some.inj hcallback
            obtain ⟨rfl, -⟩ := Prod.mk.inj hout
            exact hmoved.trans (follows_onControl _ c.sessionGeneration kind)
  · obtain ⟨s', hnone, -⟩ := Option.bind_eq_some_iff.mp h
    cases hnone

/-- Every step of a controller that can be reached. -/
theorem Core.follows (h : Core none c) {json : Library} {label : ControllerLabel}
    (hstep : c.step json label = some c') : Follows c c' := by
  cases label with
  | start given =>
      cases hstep
      exact follows_start c given
  | stop =>
      cases hstep
      split
      · exact .refl c
      · exact follows_same rfl rfl rfl
  | requestStopOnIo given =>
      simp only [LiveCaptureController.step] at hstep
      split at hstep
      · cases hstep
        exact follows_requestStopOnIo c given
      · cases hstep
  | session label given => exact follows_onSession hstep
  | superseded generation notice given =>
      simp only [LiveCaptureController.step] at hstep
      split at hstep
      · next hold =>
          rw [onNotice_superseded c json given hold] at hstep
          cases hstep
          exact follows_count c _
      · cases hstep
  | reconnectTimer error given =>
      simp only [LiveCaptureController.step] at hstep
      split at hstep
      · next hpending =>
          cases hstep
          have hnone : c.session = none := by
            by_contra hsome
            have := h.exclusive (Option.isSome_iff_ne_none.mpr hsome)
            omega
          have hopen : c.terminal = false → c.failureLatched = false := fun hterminal =>
            (h.unstopped hterminal (fun s hs => by
              rw [hnone] at hs
              cases hs)).1
          have hfired : Follows c { c with reconnectWaits := c.reconnectWaits - 1 } :=
            follows_same rfl rfl rfl
          refine hfired.trans (follows_onReconnectTimer _ ?_ given error)
          exact hopen
      · cases hstep
  | stableConnection generation error =>
      cases hstep
      unfold onStableConnection
      split
      · exact .refl c
      split
      · exact follows_count c _
      · exact follows_same rfl rfl rfl
  | writerResume given =>
      cases hstep
      exact follows_onWriterResume c given
  | resumePostFails =>
      cases hstep
      exact follows_same rfl rfl rfl
  | postedSessionStop given =>
      simp only [LiveCaptureController.step] at hstep
      split at hstep
      · cases hstep
        exact follows_callSession c given .stop .returns
      · cases hstep
  | backpressureTimeout error given =>
      cases hstep
      exact follows_onBackpressureTimeout c given error

end Functions

/-! ## Runs -/

section Runs

variable {json : Library} {c c' : LiveCaptureController} {labels : List ControllerLabel}

theorem follows_of_exec (h : Reachable (system json) c) (hexec : Exec (system json) c labels c') :
    Reachable (system json) c' ∧ Follows c c' := by
  induction hexec with
  | nil => exact ⟨h, .refl _⟩
  | snoc _ hstep ih =>
      obtain ⟨hreached, hfollows⟩ := ih
      exact ⟨hreached.step hstep, hfollows.trans ((core_of_reachable hreached).follows hstep)⟩

theorem causeOf_eq_none {events : List ControllerEvent} (h : ¬ LatchedIn events) :
    causeOf none events = none := by
  induction events with
  | nil => rfl
  | cons event events ih =>
      have hrest : ¬ LatchedIn events := fun ⟨error, he⟩ => h ⟨error, List.mem_cons_of_mem _ he⟩
      cases event with
      | latched error => exact absurd ⟨error, List.mem_cons_self⟩ h
      | _ => exact ih hrest

theorem Consistent.callback {error : LiveCaptureErrorCode} {events : List ControllerEvent}
    (h : Consistent (some error) events) {result : LiveCaptureResult}
    (hin : .terminalCallback result ∈ events) : result.error = error := by
  induction events with
  | nil => cases hin
  | cons event events ih =>
      rcases List.mem_cons.mp hin with rfl | hrest
      · exact h.1
      · cases event with
        | terminalCallback result' => exact ih h.2 hrest
        | _ => exact ih h hrest

/-- The history of a whole run tells the failure that is latched. -/
theorem consistent_of_reachable (h : Reachable (system json) c)
    (hkeeps : ∀ result found, .sessionEnded result found ∈ c.log → KeepsCause result found) :
    Consistent none c.log ∧ c.cause = causeOf none c.log := by
  obtain ⟨c₀, labels, hinit, hexec⟩ := h
  obtain ⟨-, hfollows⟩ := follows_of_exec (.of_init hinit) hexec
  obtain ⟨events, hlog, hcause⟩ := hfollows.events
  obtain ⟨venue, symbols, subscription, pipeline, options, hasTerminalCallback, -, -, hcreate⟩ := hinit
  unfold LiveCaptureController.create at hcreate
  split at hcreate
  · cases hcreate
  · obtain rfl := Option.some.inj hcreate
    rw [hlog] at hkeeps ⊢
    exact hcause nofun fun result found hin => hkeeps result found (List.mem_append_right _ hin)

theorem cause_eq_some {error : LiveCaptureErrorCode} (h : c.cause = some error) :
    c.failureLatched = true ∧ c.result.error = error := by
  unfold cause at h
  split at h
  · next hl => exact ⟨hl, Option.some.inj h⟩
  · cases h

/-- In a run in which no session end sets another error, the failure that was latched first
is the one that stays, and the one that the terminal callback gets. -/
theorem first_failure_wins (h : Reachable (system json) c) (hexec : Exec (system json) c labels c')
    (hkeeps : ∀ result found, .sessionEnded result found ∈ c'.log → KeepsCause result found) :
    (c.failureLatched = true → c'.failureLatched = true ∧ c'.result.error = c.result.error ∧
      ∃ events, c'.log = c.log ++ events ∧
        ∀ result, .terminalCallback result ∈ events → result.error = c.result.error) ∧
    ∀ earlier error later, c'.log = earlier ++ .latched error :: later → ¬ LatchedIn earlier →
      c'.failureLatched = true ∧ c'.result.error = error ∧
        ∀ result, .terminalCallback result ∈ later → result.error = error := by
  obtain ⟨hreached, hfollows⟩ := follows_of_exec h hexec
  constructor
  · intro hlatched
    obtain ⟨events, hlog, hcause⟩ := hfollows.events
    obtain ⟨hconsistent, hkept⟩ := hcause (core_of_reachable h).latchedError
      fun result found hin => hkeeps result found (hlog ▸ List.mem_append_right _ hin)
    have hcause : c.cause = some c.result.error := if_pos hlatched
    rw [hcause, causeOf_some] at hkept
    rw [hcause] at hconsistent
    obtain ⟨hlatched', herror⟩ := cause_eq_some hkept
    exact ⟨hlatched', herror, events, hlog, fun result hin => hconsistent.callback hin⟩
  · intro earlier error later hlog hfirst
    obtain ⟨hconsistent, hcause⟩ := consistent_of_reachable hreached hkeeps
    rw [hlog] at hconsistent hcause
    rw [causeOf_append, causeOf_eq_none hfirst] at hcause
    obtain ⟨-, hrest⟩ := consistent_append.mp hconsistent
    rw [causeOf_eq_none hfirst] at hrest
    have hkept : c'.cause = some error := hcause.trans (causeOf_some error later)
    obtain ⟨hlatched, herror⟩ := cause_eq_some hkept
    exact ⟨hlatched, herror, fun result hin => Consistent.callback hrest hin⟩

end Runs

/-! ### A writer that fails -/

section Sample

/-- A message that finds the writer failed. -/
private def failedText : ControllerLabel :=
  .session (.read { bytesTransferred := sampleEnvelope.text.length
                    buffer := sampleEnvelope.text })
    { acquired := some .failed, writerFailed := true }

/-- The failure is latched, and the session is closing. -/
private def latchedRun : List ControllerLabel := [.start {}] ++ sampleConnect ++ [failedText]

/-- The errors that the terminal callback got. -/
private def told (log : List ControllerEvent) : List LiveCaptureErrorCode :=
  log.filterMap fun
    | .terminalCallback result => some result.error
    | _ => none

/-- No end of a session in the log sets another error. -/
private def keepsCause : ControllerEvent → Bool
  | .sessionEnded result found => decide (KeepsCause result found)
  | _ => true

theorem first_failure_wins_sample : ∃ c c', sampleRun latchedRun = some c ∧
    Exec (system sampleLibrary) c [.session (.closed .none) {}] c' ∧ c.failureLatched = true ∧
    c.result.error = .writerFailure ∧ told c'.log = [.writerFailure] ∧
    c'.result.error = c.result.error := by
  have hreport : ((sampleRun latchedRun).bind fun c =>
      (c.step sampleLibrary (.session (.closed .none) {})).map fun c' =>
        (c.failureLatched, c.result.error, told c'.log, c'.log.all keepsCause)) =
      some (true, .writerFailure, [.writerFailure], true) := by
    decide +kernel
  obtain ⟨c, hrun, hreport⟩ := Option.bind_eq_some_iff.mp hreport
  obtain ⟨c', hstep, hfacts⟩ := Option.map_eq_some_iff.mp hreport
  simp only [Prod.mk.injEq] at hfacts
  obtain ⟨hlatched, herror, htold, hall⟩ := hfacts
  have hexec : Exec (system sampleLibrary) c [.session (.closed .none) {}] c' :=
    (Exec.nil c).snoc hstep
  have hkeeps : ∀ result found, .sessionEnded result found ∈ c'.log →
      KeepsCause result found := fun result found hin => by
    simpa [keepsCause] using List.all_eq_true.mp hall _ hin
  exact ⟨c, c', hrun, hexec, hlatched, herror, htold,
    ((first_failure_wins (sampleRun_reachable hrun) hexec hkeeps).1 hlatched).2.1⟩

/-- The notification of the writer's failure cannot be posted, and the close of the session
replaces the cause by that. -/
theorem first_failure_overwritten : ∃ c c', Reachable (system sampleLibrary) c ∧
    Exec (system sampleLibrary) c [.resumePostFails, .session (.closed .none) {}] c' ∧
    c.failureLatched = true ∧ c.result.error = .writerFailure ∧
    c'.result.error = .resumeNotificationFailure ∧
    told c'.log = [.resumeNotificationFailure] := by
  have hreport : ((sampleRun latchedRun).bind fun c =>
      ([.resumePostFails, .session (.closed .none) {}].foldlM (step sampleLibrary) c).map fun c' =>
        (c.failureLatched, c.result.error, c'.result.error, told c'.log)) =
      some (true, .writerFailure, .resumeNotificationFailure, [.resumeNotificationFailure]) := by
    decide +kernel
  obtain ⟨c, hrun, hreport⟩ := Option.bind_eq_some_iff.mp hreport
  obtain ⟨c', hrun', hfacts⟩ := Option.map_eq_some_iff.mp hreport
  simp only [Prod.mk.injEq] at hfacts
  obtain ⟨hlatched, herror, herror', htold⟩ := hfacts
  exact ⟨c, c', sampleRun_reachable hrun, exec_of_foldlM (fun _ _ _ hstep => hstep) hrun', hlatched,
    herror, herror', htold⟩

end Sample

end LiveCaptureController

end MarketCapture
