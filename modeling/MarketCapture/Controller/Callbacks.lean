import MarketCapture.Controller.Invariant

/-! # The callbacks keep the invariant

A call into the session is the only thing that can end it in the middle of a callback. It
leaves the invariant as it was, and stopping the session restores it where it was broken: a
session that has been stopped is on its way out.
-/

namespace MarketCapture

open Simdjson

namespace LiveCaptureController

open ControllerEvent WebSocketSession

section Calls

variable {running : Option SessionCallback} {c : LiveCaptureController}

theorem SessionOk.advance {log : List ControllerEvent} {next : UInt64} {exhausted : Bool}
    {s s' : WebSocketSession} (h : SessionOk running log next exhausted s)
    (hinv : s'.Inv sessionCallbacks s.connectionEpoch) (hsteady : Steady s s')
    (hlive : s'.state ≠ .terminal) (hcalm : s'.inControlCallback = false) :
    SessionOk s'.running log next exhausted s' where
  inv := by
    rw [hsteady.epoch]
    exact hinv
  live := hlive
  calm := hcalm
  running := rfl
  before hnew := by
    rw [hsteady.epoch]
    exact h.before (fun hopened => hnew (hsteady.opened.mpr hopened))
  after hopened := by
    rw [hsteady.epoch, hsteady.texts]
    exact h.after (hsteady.opened.mp hopened)

/-- Another state of the current session. -/
theorem Sound.withSession (h : Sound running c) (hsome : c.session.isSome = true)
    {s : WebSocketSession}
    (hs : SessionOk s.running c.log c.nextConnectionEpoch c.epochExhausted s) :
    Sound s.running { c with session := some s } :=
  { h with
    session := fun t ht => by
      obtain rfl := Option.some.inj ht
      exact hs
    generation := fun _ => h.generation hsome
    exclusive := fun _ => h.exclusive hsome
    quietEnd := fun hterminal hlatched => by
      rw [h.quietEnd hterminal hlatched] at hsome
      cases hsome
    tripped := fun he => by
      rw [(h.tripped he).2.2] at hsome
      cases hsome }

/-- A step of the session: it has ended, with all that follows, or it is the current one. -/
theorem Sound.advanceSession (h : Sound running c) {s s' : WebSocketSession}
    (hs : c.session = some s) (hinv : s'.Inv sessionCallbacks s.connectionEpoch)
    (hsteady : Steady s s') (hcalm : s'.inControlCallback = false) (given : Surroundings) :
    (s'.notified.isSome = true ∧ Core s'.running (c.advanceSession given s')) ∨
      s'.notified = none ∧ s'.state ≠ .terminal ∧
        c.advanceSession given s' = { c with session := some s' } ∧
        Sound s'.running { c with session := some s' } := by
  have hsome : c.session.isSome = true := by rw [hs]; rfl
  unfold LiveCaptureController.advanceSession
  by_cases hterminal : s'.state = .terminal
  · have htold := hinv.told rfl hterminal
    obtain ⟨sessionResult, hnotified⟩ := Option.isSome_iff_exists.mp htold
    rw [hnotified]
    exact .inl ⟨rfl, h.sessionEnded hsome (some s') given sessionResult s'.running⟩
  · rw [hinv.untold hterminal]
    refine .inr ⟨rfl, hterminal, rfl, h.withSession hsome ?_⟩
    exact (h.session s hs).advance hinv hsteady hterminal hcalm

theorem Core.advanceSession (h : Core running c) {s s' : WebSocketSession}
    (hs : c.session = some s) (hinv : s'.Inv sessionCallbacks s.connectionEpoch)
    (hsteady : Steady s s') (hcalm : s'.inControlCallback = false)
    (hmoved : s.state ≠ .idle → s'.state ≠ .idle) (given : Surroundings) :
    Core s'.running (c.advanceSession given s') := by
  rcases h.toSound.advanceSession hs hinv hsteady hcalm given with ⟨-, hcore⟩ | ⟨-, -, heq, hsound⟩
  · exact hcore
  · rw [heq]
    refine { hsound with live := fun hwhy => ?_ }
    rcases h.live hwhy with hterminal | ⟨t, ht, hidle⟩
    · exact .inl hterminal
    · rw [hs] at ht
      obtain rfl := Option.some.inj ht
      exact .inr ⟨s', rfl, hmoved hidle⟩

/-- What a call into the session needs. -/
theorem SessionOk.call {log : List ControllerEvent} {next : UInt64} {exhausted : Bool}
    {s : WebSocketSession} (h : SessionOk running log next exhausted s) (call : SessionCall) :
    (s.call call).Inv sessionCallbacks s.connectionEpoch ∧ Steady s (s.call call) ∧
      (s.call call).inControlCallback = false ∧ (s.call call).running = running :=
  ⟨h.inv.call call, steady_call s call, (framed_call s call).inControlCallback.trans h.calm,
    (framed_call s call).running.trans h.running⟩

theorem Core.callSession (h : Core running c) (given : Surroundings) (call : SessionCall)
    (completion : Completion) : Core running (c.callSession given call completion).1 := by
  unfold LiveCaptureController.callSession
  split
  · exact h
  · next s hs =>
      obtain ⟨hinv, hsteady, hcalm, hrunning⟩ := (h.session s hs).call call
      have hadvanced := h.advanceSession hs hinv hsteady hcalm (framed_call s call).state given
      rw [hrunning] at hadvanced
      cases completion with
      | returns => exact hadvanced
      | throwsBefore => exact h
      | throwsAfter => exact hadvanced

/-- Closing the gate for good, before the session is stopped. -/
theorem Sound.callSession_pauseReads (h : Sound running c) (hsome : c.session.isSome = true)
    (given : Surroundings) (completion : Completion) :
    Sound running (c.callSession given .pauseReads completion).1 ∧
      (c.callSession given .pauseReads completion).1.session.isSome = true := by
  obtain ⟨s, hs⟩ := Option.isSome_iff_exists.mp hsome
  obtain ⟨hinv, hsteady, hcalm, hrunning⟩ := (h.session s hs).call .pauseReads
  have hadvanced : Sound running (c.advanceSession given (s.call .pauseReads)) ∧
      (c.advanceSession given (s.call .pauseReads)).session.isSome = true := by
    rcases h.advanceSession hs hinv hsteady hcalm given with ⟨htold, -⟩ | ⟨-, -, heq, hsound⟩
    · rw [hinv.untold (by rw [call_pauseReads_state]; exact (h.session s hs).live)] at htold
      cases htold
    · rw [heq]
      rw [hrunning] at hsound
      exact ⟨hsound, rfl⟩
  unfold LiveCaptureController.callSession
  rw [hs]
  cases completion with
  | returns => exact hadvanced
  | throwsBefore => exact ⟨h, hsome⟩
  | throwsAfter => exact hadvanced

/-- Stopping the session ends the run, sooner or later. -/
theorem Sound.stopSession (h : Sound running c) (hsome : c.session.isSome = true)
    (given : Surroundings) : Core running (c.stopSession given) := by
  obtain ⟨s, hs⟩ := Option.isSome_iff_exists.mp hsome
  obtain ⟨hinv, hsteady, hcalm, hrunning⟩ := (h.session s hs).call .stop
  have hclosing := call_stop_state (h.session s hs).calm
  have hadvanced : Core running (c.advanceSession given (s.call .stop)) := by
    rcases h.advanceSession hs hinv hsteady hcalm given with ⟨-, hcore⟩ | ⟨-, hlive, heq, hsound⟩
    · rw [hrunning] at hcore
      exact hcore
    · rw [heq]
      rw [hrunning] at hsound
      refine { hsound with live := fun _ => .inr ⟨_, rfl, ?_⟩ }
      rw [hclosing.resolve_right hlive]
      nofun
  unfold LiveCaptureController.stopSession LiveCaptureController.callSession
  rw [hs]
  cases given.sessionStop with
  | returns => exact hadvanced
  | throwsBefore => exact h.handleSessionStopException given
  | throwsAfter =>
      dsimp only
      split
      · exact hadvanced.toSound.handleSessionStopException given
      · exact hadvanced

theorem hasLiveSession_eq (h : Base running c) : c.hasLiveSession = c.session.isSome := by
  unfold hasLiveSession
  cases hs : c.session with
  | none => rfl
  | some s => simpa [WebSocketSession.terminal] using (h.session s hs).live

theorem Core.requestStopOnIo (h : Core running c) (hstop : c.stopRequested = true)
    (given : Surroundings) : Core running (c.requestStopOnIo given) := by
  have hhandled := h.toSound.record .stopHandled trivial trivial nofun rfl nofun nofun
    (fun _ => hstop)
  unfold LiveCaptureController.requestStopOnIo
  dsimp only
  split
  · next hended =>
      have hterminal : c.terminal = true := by
        rcases Bool.or_eq_true_iff.mp hended with ht | ht
        · exact ht
        · exact h.finalized.symm.trans ht
      exact { hhandled with live := fun _ => .inl hterminal }
  · split
    · next hlive =>
        rw [hasLiveSession_eq hhandled.toBase] at hlive
        exact hhandled.stopSession hlive given
    · next hlive =>
        rw [hasLiveSession_eq hhandled.toBase] at hlive
        exact hhandled.finalizeRun (.inr (by simpa using hlive)) given

theorem Core.fail (h : Core running c) (given : Surroundings) {error : LiveCaptureErrorCode}
    (herror : error ≠ .none) : Core running (c.fail given error) := by
  unfold LiveCaptureController.fail
  split
  · exact h
  · have hlatched := h.toSound.latch herror
    dsimp only
    split
    · next hlive =>
        rw [hasLiveSession_eq hlatched.toBase] at hlive
        obtain ⟨hpaused, hsome⟩ := hlatched.callSession_pauseReads hlive given given.sessionPause
        split
        · exact hpaused.handleSessionStopException given
        · exact hpaused.stopSession hsome given
    · exact hlatched.finalizeRun (.inl rfl) given

theorem Core.pauseForBackpressure (h : Core running c) (given : Surroundings) :
    Core running (c.pauseForBackpressure given).1 := by
  unfold LiveCaptureController.pauseForBackpressure
  split
  · exact h
  · have hpaused : Core running { c.count fun m =>
        { m with producerPauses := m.producerPauses + 1 } with readsPaused := true } := { h with }
    have hcalled := hpaused.callSession given .pauseReads given.sessionPause
    dsimp only
    split
    · exact hcalled
    · exact hcalled.calling _ _

theorem Core.pauseIfFull (h : Core running c) (given : Surroundings) :
    Core running (c.pauseIfFull given).1 := by
  unfold LiveCaptureController.pauseIfFull
  dsimp only
  split
  · exact (h.calling _ _).pauseForBackpressure given
  · exact h.calling _ _

end Calls

/-! ## Messages -/

section Messages

variable {running running' : Option SessionCallback} {c : LiveCaptureController}

/-- The events of a session that is at work. -/
def Noted : ControllerEvent → Prop
  | .opened _ | .delivered _ | .processed _ _ | .published => True
  | _ => False

/-- A session at work: what may change are the session, the epochs, the pipeline and the
count of the breaker. -/
theorem Core.note (h : Core running c) (hsome : c.session.isSome = true) (event : ControllerEvent)
    (session : Option WebSocketSession) (next : UInt64) (exhausted sessionOpen : Bool)
    (pipeline : LiveEventPipeline) (result : LiveCaptureResult)
    (writerCalls : List (Call × CallResult)) (hnoted : Noted event) (hrule : Allowed c.log event)
    (hsession : ∀ s, session = some s → SessionOk running' (c.log ++ [event]) next exhausted s)
    (hstate : c.session = session ∧ c.epochExhausted = exhausted ∨
      ∃ s, session = some s ∧ s.state ≠ .idle)
    (herror : result.error = c.result.error)
    (hopens : LiveCaptureController.opens (c.log ++ [event]) =
      next.toNat + if exhausted then 1 else 0)
    (hexhausted : exhausted = true → next.toNat = 2 ^ 64 - 1)
    (hpipeline : pipeline.Ok ∧ pipeline.Behind)
    (hmetadata : pipeline.hasConnectionMetadata = true →
      pipeline.connectionEpoch.toNat + 1 < LiveCaptureController.opens (c.log ++ [event]) ∨
        pipeline.connectionEpoch.toNat + 1 = LiveCaptureController.opens (c.log ++ [event]) ∧
          pipeline.lastConnectionSequence.toNat ≤ deliveredSince (c.log ++ [event]))
    (hprocessed : ∀ message result, .processed message result ∈ c.log ++ [event] →
      pipeline.hasConnectionMetadata = true ∧
        (message.connectionEpoch < pipeline.connectionEpoch ∨
          message.connectionEpoch = pipeline.connectionEpoch ∧
            message.connectionSequence ≤ pipeline.lastConnectionSequence)) :
    Core running'
      { c.record event with
        session := session
        nextConnectionEpoch := next
        epochExhausted := exhausted
        sessionOpen := sessionOpen
        pipeline := pipeline
        result := result
        writerCalls := writerCalls
        consecutiveMessagePolicyFailures :=
          if event.isPublished then 0 else c.consecutiveMessagePolicyFailures } := by
  have huntripped : .breakerTripped ∉ c.log := fun he => by
    rw [(h.tripped he).2.2] at hsome
    cases hsome
  have hlow := h.policyLimit.resolve_right huntripped
  have hpolicy : policyCount (c.log ++ [event]) =
      if event.isPublished then 0 else policyCount c.log := by
    rw [policyCount_concat]
    cases event <;> first | rfl | cases hnoted
  have hbound : policyCount (c.log ++ [event]) < 3 := by
    rw [hpolicy]
    split <;> omega
  have hmem : ∀ e : ControllerEvent, ¬ Noted e → e ∈ c.log ++ [event] → e ∈ c.log := by
    intro e he hin
    rcases List.mem_append.mp hin with hin | hin
    · exact hin
    · rw [List.mem_singleton.mp hin] at he
      exact absurd hnoted he
  have hquiet : c.session ≠ none := fun hnone => by
    rw [hnone] at hsome
    cases hsome
  exact
    { session := hsession
      generation := fun _ => h.generation hsome
      waits := h.waits
      exclusive := fun _ => h.exclusive hsome
      finalized := h.finalized
      joined := fun he => h.joined (hmem .joined id he)
      notified := fun e he ht => by
        refine h.notified e (hmem e (fun hn => ?_) he) ht
        cases e with
        | terminalCallback _ => exact hn
        | _ => cases ht
      latchedLog := by
        refine Iff.trans ⟨?_, ?_⟩ h.latchedLog
        · rintro ⟨error, he⟩
          exact ⟨error, hmem (.latched error) id he⟩
        · rintro ⟨error, he⟩
          exact ⟨error, List.mem_append_left _ he⟩
      latchedError := fun hl => by
        show result.error ≠ .none
        rw [herror]
        exact h.latchedError hl
      stopped := fun he => h.stopped (hmem .stopHandled id he)
      quietEnd := fun ht hl => absurd (h.quietEnd ht hl) hquiet
      opens := hopens
      exhausted := hexhausted
      policy := by
        show (if event.isPublished then 0 else c.consecutiveMessagePolicyFailures) = _
        rw [h.policy]
        exact hpolicy.symm
      policyBound := hbound.le
      tripped := fun he => absurd (hmem .breakerTripped id he) huntripped
      pipeline := hpipeline
      metadata := hmetadata
      processed := hprocessed
      rules := History.always_concat.mpr ⟨h.rules, hrule⟩
      policyLimit := .inl hbound
      live := fun hwhy => by
        rcases hstate with ⟨hsame, hsame'⟩ | ⟨s, hs, hidle⟩
        · have hold : c.failureLatched = true ∨ .stopHandled ∈ c.log ∨ c.epochExhausted = true := by
            refine hwhy.imp id (Or.imp (hmem .stopHandled id) (fun he => ?_))
            exact hsame'.trans he
          exact (h.live hold).imp id (fun ⟨s, hs, hidle⟩ => ⟨s, hsame.symm.trans hs, hidle⟩)
        · exact .inr ⟨s, hs, hidle⟩ }

/-- A session that has not opened has delivered nothing. -/
theorem texts_eq_zero {configured : WebSocketSessionCallbacks} {connectionEpoch : UInt64}
    {s : WebSocketSession} (h : s.Inv configured connectionEpoch) (hnew : .opened ∉ s.log) :
    texts s.log = 0 := by
  refine List.countP_eq_zero.mpr (fun e he htext => ?_)
  obtain ⟨earlier, later, hlog⟩ := List.append_of_mem he
  cases e with
  | onTextMessage message =>
      have hopened := (h.rules earlier _ later hlog).1
      exact hnew (by rw [hlog]; exact List.mem_append_left _ hopened)
  | _ => cases htext

/-- The open callback: the session takes the next epoch, which is used up with it. -/
theorem Core.noteOpened (h : Core none c) {s s' : WebSocketSession} (hs : c.session = some s)
    (hinv : s'.Inv sessionCallbacks s.connectionEpoch) (hnew : .opened ∉ s.log)
    (hopen : s'.state = .open) (hopened : .opened ∈ s'.log)
    (hepoch : s'.connectionEpoch = s.connectionEpoch) (htexts : texts s'.log = texts s.log)
    (hcalm : s'.inControlCallback = false) (result : LiveCaptureResult)
    (herror : result.error = c.result.error) (next : UInt64) (exhausted : Bool)
    (hnext : next.toNat + (if exhausted then 1 else 0) = c.nextConnectionEpoch.toNat + 1)
    (hlast : exhausted = true → next.toNat = 2 ^ 64 - 1) :
    Core s'.running
      { c.record (.opened s'.connectionEpoch) with
        session := some s'
        nextConnectionEpoch := next
        epochExhausted := exhausted
        sessionOpen := true
        result := result } := by
  have hok := h.session s hs
  obtain ⟨hown, hmore⟩ := hok.before hnew
  have hcount : LiveCaptureController.opens c.log = c.nextConnectionEpoch.toNat := by
    rw [h.opens, hmore]
    rfl
  have hopens : LiveCaptureController.opens (c.log ++ [.opened s'.connectionEpoch]) =
      LiveCaptureController.opens c.log + 1 := by
    rw [opens_concat]
    rfl
  have hdelivered : deliveredSince (c.log ++ [.opened s'.connectionEpoch]) = 0 := by
    rw [deliveredSince_concat]
    rfl
  refine h.note (by rw [hs]; rfl) (.opened s'.connectionEpoch) (some s') next exhausted true
    c.pipeline result c.writerCalls trivial ?_ ?_ (.inr ⟨s', rfl, by rw [hopen]; nofun⟩) herror
    ?_ hlast h.pipeline ?_ ?_
  · show s'.connectionEpoch.toNat = _
    rw [hepoch, hown, hcount]
  · intro t ht
    obtain rfl := Option.some.inj ht
    exact
      { inv := by rw [hepoch]; exact hinv
        live := by rw [hopen]; nofun
        calm := hcalm
        running := rfl
        before := fun hnot => absurd hopened hnot
        after := fun _ => by
          rw [hopens, hdelivered, hepoch, hown, hcount, htexts]
          exact ⟨rfl, texts_eq_zero hok.inv hnew⟩ }
  · rw [hopens, hcount, hnext]
  · intro hknown
    rw [hopens]
    have := h.metadata hknown
    omega
  · intro message result' hin
    refine h.processed message result' ?_
    rcases List.mem_append.mp hin with hin | hin
    · exact hin
    · cases List.mem_singleton.mp hin

/-- The text callback of a session. -/
theorem Core.noteDelivered (h : Core none c) {s s' : WebSocketSession} (hs : c.session = some s)
    (hinv : s'.Inv sessionCallbacks s.connectionEpoch) {message : WebSocketTextMessage}
    (hmessage : Delivers s s' message) (hcalm : s'.inControlCallback = false) :
    Core s'.running { c.record (.delivered message) with session := some s' } := by
  have hok := h.session s hs
  have hopened := (hok.inv.isOpen hmessage.isOpen.1).1
  obtain ⟨hepoch, htexts⟩ := hok.after hopened
  have hopens : LiveCaptureController.opens (c.log ++ [.delivered message]) =
      LiveCaptureController.opens c.log := by
    rw [opens_concat]
    rfl
  have hdelivered : deliveredSince (c.log ++ [.delivered message]) = deliveredSince c.log + 1 := by
    rw [deliveredSince_concat]
    rfl
  refine h.note (by rw [hs]; rfl) (.delivered message) (some s') c.nextConnectionEpoch
    c.epochExhausted c.sessionOpen c.pipeline c.result c.writerCalls trivial ?_ ?_
    (.inr ⟨s', rfl, by rw [hmessage.isOpen.2]; nofun⟩) rfl (hopens.trans h.opens) h.exhausted
    h.pipeline ?_ ?_
  · show _ ∧ _
    rw [hmessage.epoch.1, hmessage.sequence, htexts]
    exact ⟨hepoch, rfl⟩
  · intro t ht
    obtain rfl := Option.some.inj ht
    exact
      { inv := by rw [hmessage.epoch.2]; exact hinv
        live := by rw [hmessage.isOpen.2]; nofun
        calm := hcalm
        running := rfl
        before := fun hnot => absurd hmessage.opened hnot
        after := fun _ => by
          rw [hopens, hdelivered, hmessage.epoch.2, hmessage.texts, htexts]
          exact ⟨hepoch, rfl⟩ }
  · intro hknown
    rw [hopens, hdelivered]
    have := h.metadata hknown
    omega
  · intro message result' hin
    refine h.processed message result' ?_
    rcases List.mem_append.mp hin with hin | hin
    · exact hin
    · cases List.mem_singleton.mp hin

/-- A message as the session hands it over, the last thing that happened. -/
structure Fresh (c : LiveCaptureController) (message : WebSocketTextMessage) : Prop where
  last : c.log.getLast? = some (.delivered message)
  valid : c.pipeline.validMessageMetadata message = true
  epoch : message.connectionEpoch.toNat + 1 = LiveCaptureController.opens c.log
  sequence : message.connectionSequence.toNat = deliveredSince c.log
  payload : message.payload.length ≤ maxPayloadBytes

/-- The epoch and the sequence number of a message are ahead of the pipeline's. -/
theorem Core.fresh (h : Core none c) {s s' : WebSocketSession} (hs : c.session = some s)
    {message : WebSocketTextMessage} (hmessage : Delivers s s' message) :
    Fresh { c.record (.delivered message) with session := some s' } message := by
  have hok := h.session s hs
  obtain ⟨hepoch, htexts⟩ := hok.after (hok.inv.isOpen hmessage.isOpen.1).1
  have hopens : LiveCaptureController.opens (c.log ++ [.delivered message]) =
      LiveCaptureController.opens c.log := by
    rw [opens_concat]
    rfl
  have hdelivered : deliveredSince (c.log ++ [.delivered message]) = deliveredSince c.log + 1 := by
    rw [deliveredSince_concat]
    rfl
  have hsequence : message.connectionSequence.toNat = deliveredSince c.log + 1 := by
    rw [hmessage.sequence, htexts]
  have hahead : message.connectionEpoch.toNat + 1 = LiveCaptureController.opens c.log := by
    rw [hmessage.epoch.1, hepoch]
  refine ⟨by simp [LiveCaptureController.record], ?_, hahead.trans hopens.symm,
    hsequence.trans hdelivered.symm, hmessage.payload⟩
  refine LiveEventPipeline.validMessageMetadata_iff.mpr
    ⟨hmessage.nanoseconds.1, hmessage.nanoseconds.2, ?_, fun hknown => ?_⟩
  · intro hzero
    rw [hzero, UInt64.toNat_zero] at hsequence
    omega
  · have hbehind := h.metadata hknown
    simp only [LiveEventPipeline.Precedes, UInt64.lt_iff_toNat_lt, ← UInt64.toNat_inj]
    show c.pipeline.connectionEpoch.toNat < _ ∨ c.pipeline.connectionEpoch.toNat = _ ∧
      c.pipeline.lastConnectionSequence.toNat < _
    omega

/-- The pipeline has seen a message. -/
theorem Core.noteProcessed (h : Core running c) (hsome : c.session.isSome = true)
    {message : WebSocketTextMessage} (hfresh : Fresh c message) {result : LivePipelineResult}
    {batch : EventRowBatch} {p : LiveEventPipeline} (hp : p.Ok ∧ p.Behind)
    (hsame : (c.pipeline.receive message).SameMetadata p)
    (hhandled : LiveEventPipeline.Handled c.pipeline.subscription result batch)
    (outcome : LiveCaptureResult) (herror : outcome.error = c.result.error)
    (writerCalls : List (Call × CallResult)) :
    Core running
      { c.record (.processed message result) with
        pipeline := p
        result := outcome
        writerCalls := writerCalls } := by
  have hbefore := (LiveEventPipeline.validMessageMetadata_iff.mp hfresh.valid).2.2.2
  have hknown : p.hasConnectionMetadata = true := hsame.known
  have hepoch : p.connectionEpoch = message.connectionEpoch := hsame.epoch
  have hsequence : p.lastConnectionSequence = message.connectionSequence := hsame.sequence
  have hopens : LiveCaptureController.opens (c.log ++ [.processed message result]) =
      LiveCaptureController.opens c.log := by
    rw [opens_concat]
    rfl
  have hdelivered : deliveredSince (c.log ++ [.processed message result]) =
      deliveredSince c.log := by
    rw [deliveredSince_concat]
    rfl
  have hearlier : ∀ message' result', .processed message' result' ∈ c.log →
      LiveEventPipeline.Precedes message'.connectionEpoch message'.connectionSequence message := by
    intro message' result' hin
    obtain ⟨hseen, hle⟩ := h.processed message' result' hin
    have hlt := hbefore hseen
    simp only [LiveEventPipeline.Precedes, UInt64.lt_iff_toNat_lt, UInt64.le_iff_toNat_le,
      ← UInt64.toNat_inj] at hlt hle ⊢
    omega
  refine h.note hsome (.processed message result) c.session c.nextConnectionEpoch c.epochExhausted
    c.sessionOpen p outcome writerCalls trivial
    ⟨hfresh.last, hhandled.metadata, hhandled.context, hearlier⟩
    (fun s hs => (h.session s hs).same hopens hdelivered) (.inl ⟨rfl, rfl⟩) herror
    (hopens.trans h.opens) h.exhausted hp ?_ ?_
  · intro _
    rw [hopens, hdelivered, hepoch, hsequence]
    exact .inr ⟨hfresh.epoch, hfresh.sequence.le⟩
  · intro message' result' hin
    refine ⟨hknown, ?_⟩
    rw [hepoch, hsequence]
    rcases List.mem_append.mp hin with hin | hin
    · have hlt := hearlier message' result' hin
      simp only [LiveEventPipeline.Precedes, UInt64.lt_iff_toNat_lt, UInt64.le_iff_toNat_le,
        ← UInt64.toNat_inj] at hlt ⊢
      omega
    · cases List.mem_singleton.mp hin
      exact .inr ⟨rfl, UInt64.le_refl _⟩

/-- A published batch resets the breaker. -/
theorem Core.notePublished (h : Core running c) (hsome : c.session.isSome = true)
    (hlatched : c.failureLatched = false) (f : LiveCaptureMetrics → LiveCaptureMetrics) :
    Core running { (c.count f).record .published with consecutiveMessagePolicyFailures := 0 } := by
  have hopens : LiveCaptureController.opens (c.log ++ [.published]) =
      LiveCaptureController.opens c.log := by
    rw [opens_concat]
    rfl
  have hdelivered : deliveredSince (c.log ++ [.published]) = deliveredSince c.log := by
    rw [deliveredSince_concat]
    rfl
  refine h.note hsome .published c.session c.nextConnectionEpoch c.epochExhausted
    c.sessionOpen c.pipeline (c.count f).result c.writerCalls trivial (h.unlatched hlatched).1
    (fun s hs => (h.session s hs).same hopens hdelivered) (.inl ⟨rfl, rfl⟩) rfl
    (hopens.trans h.opens) h.exhausted h.pipeline ?_ ?_
  · rw [hopens, hdelivered]
    exact h.metadata
  · intro message result hin
    refine h.processed message result ?_
    rcases List.mem_append.mp hin with hin | hin
    · exact hin
    · cases List.mem_singleton.mp hin

theorem Core.failMessage (h : Core running c) (given : Surroundings) {error : LiveCaptureErrorCode}
    (herror : error ≠ .none) : Core running (c.failMessage given error) := by
  have hrecorded := h.toSound.record .messageFailed trivial trivial nofun rfl nofun nofun nofun
  have hcore : Core running (c.record .messageFailed) :=
    { hrecorded with
      live := fun hwhy => h.live (by simpa [LiveCaptureController.record] using hwhy) }
  exact hcore.fail given herror

theorem Core.withResult (h : Core running c) (result : LiveCaptureResult)
    (herror : result.error = c.result.error) : Core running { c with result := result } :=
  { h with
    latchedError := fun hl => by
      show result.error ≠ .none
      rw [herror]
      exact h.latchedError hl }

theorem Core.publishBatch (h : Core running c) (hsome : c.session.isSome = true)
    (hlatched : c.failureLatched = false) (given : Surroundings) (result : LivePipelineResult) :
    Core running (c.publishBatch given result).1 := by
  unfold LiveCaptureController.publishBatch
  dsimp only
  split
  · refine Core.failMessage (Core.calling (Core.withResult ((h.count _).calling _ _) _ ?_) _ _)
      given ?_
    · rfl
    · split <;> decide
  · exact Core.pauseIfFull (Core.notePublished ((h.count _).calling _ _) hsome hlatched _) given

theorem Core.onPipelineResult (h : Core running c) (hsome : c.session.isSome = true)
    (hlatched : c.failureLatched = false) (given : Surroundings) (result : LivePipelineResult) :
    Core running (c.onPipelineResult given result).1 := by
  unfold LiveCaptureController.onPipelineResult
  split
  · exact h.publishBatch hsome hlatched given result
  · dsimp only
    exact (h.calling _ _).count _
  · exact (h.calling _ _).failMessage given (by decide)
  · exact (h.calling _ _).failMessage given (by decide)

/-- The pipeline always has an answer for the messages of a session. -/
theorem Core.onTextMessage (h : Core running c) (hsome : c.session.isSome = true)
    {message : WebSocketTextMessage} (hfresh : Fresh c message) (json : Library)
    (given : Surroundings) :
    ∃ out, c.onTextMessage json given c.sessionGeneration message = some out ∧
      Core running out.1 := by
  unfold LiveCaptureController.onTextMessage
  rw [if_neg (not_not.mpr (h.generation hsome))]
  split
  · exact ⟨_, rfl, h⟩
  · next hguard =>
      have hlatched : c.failureLatched = false := by
        rw [Bool.or_eq_true, not_or] at hguard
        exact Bool.eq_false_iff.mpr hguard.2
      dsimp only
      generalize hd : LiveCaptureController.calling _ .tryAcquire (.acquired given.acquired) = d
      have hcounted : Core running d := by
        rw [← hd]
        exact (h.count _).calling _ _
      obtain ⟨hlog, hpipeline, hsession, hfailed⟩ : d.log = c.log ∧ d.pipeline = c.pipeline ∧
          d.session = c.session ∧ d.failureLatched = c.failureLatched := by
        rw [← hd]
        exact ⟨rfl, rfl, rfl, rfl⟩
      split
      · refine ⟨_, rfl, ?_⟩
        refine Core.failMessage (Core.calling (hcounted.withResult _ ?_) _ _) given ?_
        · rfl
        · split <;> decide
      · obtain ⟨result, batch, p, hprocess, hok, hbehind, hsame, hhandled⟩ :=
          LiveEventPipeline.process_admitted json h.pipeline.1 h.pipeline.2 hfresh.valid
            hfresh.payload
        rw [hpipeline, hprocess]
        refine ⟨_, rfl, ?_⟩
        have hfresh' : Fresh d message := by
          constructor
          · rw [hlog]; exact hfresh.last
          · rw [hpipeline]; exact hfresh.valid
          · rw [hlog]; exact hfresh.epoch
          · rw [hlog]; exact hfresh.sequence
          · exact hfresh.payload
        rw [← hpipeline] at hsame hhandled
        refine Core.onPipelineResult ?_ ?_ ?_ given result
        · refine hcounted.noteProcessed (hsession ▸ hsome) hfresh' ⟨hok, hbehind⟩ hsame hhandled _ ?_ _
          rfl
        · exact hsession ▸ hsome
        · exact hfailed.trans hlatched

theorem Core.onOpen (h : Core none c) {s s' : WebSocketSession} (hs : c.session = some s)
    (hinv : s'.Inv sessionCallbacks s.connectionEpoch) (hnew : .opened ∉ s.log)
    (hopen : s'.state = .open) (hopened : .opened ∈ s'.log)
    (hepoch : s'.connectionEpoch = s.connectionEpoch) (htexts : texts s'.log = texts s.log)
    (hcalm : s'.inControlCallback = false) (given : Surroundings) :
    Core s'.running
      (({ c with session := some s' }.record (.opened s'.connectionEpoch)).onOpen given
        c.sessionGeneration).1 := by
  have hgeneration := h.generation (by rw [hs]; rfl)
  obtain ⟨-, hmore⟩ := (h.session s hs).before hnew
  unfold LiveCaptureController.onOpen
  rw [if_neg (by exact not_not.mpr hgeneration)]
  dsimp only
  generalize hd : useEpoch _ = d
  have hcore : Core s'.running d := by
    rw [← hd]
    unfold useEpoch
    split
    · next hmax =>
        refine h.noteOpened hs hinv hnew hopen hopened hepoch htexts hcalm _ ?_
          c.nextConnectionEpoch true rfl (fun _ => hmax)
        rfl
    · next hmax =>
        refine h.noteOpened hs hinv hnew hopen hopened hepoch htexts hcalm _ ?_
          (c.nextConnectionEpoch + 1) c.epochExhausted ?_ (fun he => ?_)
        · rfl
        · have hbound : c.nextConnectionEpoch.toNat ≠ 2 ^ 64 - 1 := hmax
          have hlt := c.nextConnectionEpoch.toNat_lt
          rw [hmore, UInt64.toNat_add, UInt64.toNat_one]
          show _ + 0 = _
          omega
        · rw [hmore] at he
          cases he
  split
  · exact hcore
  · split
    · next hstop => exact hcore.requestStopOnIo hstop given
    · exact hcore.pauseIfFull given

/-- The session's handler takes over again, or the session is gone. -/
theorem Core.afterSessionCallback {callback : SessionCallback} (h : Core (some callback) c)
    (given : Surroundings) (threw : Bool) : Core none (c.afterSessionCallback given threw) := by
  unfold LiveCaptureController.afterSessionCallback
  split
  · next hnone =>
      exact { h with
        session := fun s hs => by
          rw [hnone] at hs
          cases hs }
  · next s hs =>
      have hok := h.session s hs
      have hstep : s.step (.returned threw) =
          some ({ s with running := none }.returned callback threw) := by
        simp [WebSocketSession.step, hok.running]
      obtain ⟨hrunning, hcalm, hmoved⟩ := returned_calm hok.calm callback threw
      rw [hstep]
      dsimp only
      have hcore := h.advanceSession hs (hok.inv.returned callback threw)
        (steady_returned s callback threw) hcalm hmoved given
      rw [hrunning] at hcore
      exact hcore

/-- A control frame is counted, and the session goes on. -/
theorem Core.onControlFrame (h : Core none c) {s s' : WebSocketSession} (hs : c.session = some s)
    (hinv : s'.Inv sessionCallbacks s.connectionEpoch) (hsteady : Steady s s')
    (hstate : s'.state = s.state) {kind : WebSocketControlKind}
    (hrunning : s'.running = some (.control kind)) (given : Surroundings) :
    Core none (({ c with session := some s' }.onControl c.sessionGeneration kind).afterSessionCallback
      given false) := by
  have hgeneration := h.generation (by rw [hs]; rfl)
  have hstep : s'.step (.returned false) =
      some ({ s' with running := none }.returned (.control kind) false) := by
    simp [WebSocketSession.step, hrunning]
  have hcounted : ∀ f, Core none (({ c with session := some s' }.count f).afterSessionCallback
      given false) := by
    intro f
    have hsession : ({ c with session := some s' }.count f).session = some s' := rfl
    rw [LiveCaptureController.afterSessionCallback, hsession]
    simp only [hstep]
    refine (h.count f).advanceSession hs (hinv.returned (.control kind) false)
      (hsteady.trans (steady_returned s' (.control kind) false)) rfl ?_ given
    intro hidle
    show s'.state ≠ .idle
    rw [hstate]
    exact hidle
  unfold LiveCaptureController.onControl
  rw [if_neg (by exact not_not.mpr hgeneration)]
  cases kind with
  | ping => exact hcounted _
  | pong => exact hcounted _
  | close => exact hcounted _

/-- Every handler of the session, with the callback it runs. -/
theorem Core.onSession (h : Core none c) {json : Library} {given : Surroundings}
    {label : SessionLabel} {c' : LiveCaptureController}
    (hstep : c.onSession json given label = some c') : Core none c' := by
  unfold LiveCaptureController.onSession at hstep
  obtain ⟨s, hs, hstep⟩ := Option.bind_eq_some_iff.mp hstep
  have hok := h.session s hs
  dsimp only at hstep
  rw [if_pos hok.running] at hstep
  obtain ⟨s', hhandle, hstep⟩ := Option.bind_eq_some_iff.mp hstep
  have hinv := hok.inv.handle hhandle
  obtain ⟨hcalm, hmoved⟩ := handle_calm hhandle
  have hframe : (∀ kind, s'.running ≠ some (.control kind)) → s'.inControlCallback = false := by
    intro hother
    rcases hcalm with hcalm | ⟨kind, hkind⟩
    · exact hcalm.trans hok.calm
    · exact absurd hkind (hother kind)
  cases handlerCase_of_handle hok.inv hok.running hok.live rfl hhandle with
  | quiet hrunning hsteady hread hopen hgate =>
      rw [hrunning] at hstep
      obtain rfl := Option.some.inj hstep
      have hcore := h.advanceSession hs hinv hsteady
        (hframe (by rw [hrunning]; nofun)) hmoved given
      rw [hrunning] at hcore
      exact hcore
  | opens hrunning hbefore hopen hopened hepoch htexts hread hgate =>
      have hnew : .opened ∉ s.log := fun hmem => by
        rcases hok.inv.opened hmem with hstate | hstate | hstate <;>
          · rw [hbefore] at hstate
            cases hstate
      have hcore := h.onOpen hs hinv hnew hopen hopened hepoch htexts
        (hframe (by rw [hrunning]; nofun)) given
      rw [hrunning] at hstep hcore
      obtain rfl := Option.some.inj hstep
      exact hcore.afterSessionCallback given _
  | text message hrunning hmessage =>
      have hcore := h.noteDelivered hs hinv hmessage (hframe (by rw [hrunning]; nofun))
      have hfresh := h.fresh hs hmessage
      obtain ⟨out, hout, hafter⟩ := hcore.onTextMessage rfl hfresh json given
      rw [hrunning] at hstep hafter
      have heq : { c with session := some s' }.onSessionCallback json given s' (.text message) =
          some out := hout
      dsimp only at hstep
      rw [heq] at hstep
      obtain rfl := Option.some.inj hstep
      exact hafter.afterSessionCallback given _
  | control kind hrunning hsteady hread hstate hgate hcontrol =>
      rw [hrunning] at hstep
      obtain rfl := Option.some.inj hstep
      exact h.onControlFrame hs hinv hsteady hstate hrunning given

end Messages

/-! ## Starting, timers and notifications -/

section Timers

variable {c : LiveCaptureController}

/-- A controller that is not ending, with a session or on its own. -/
theorem Core.unstopped (h : Core none c) (hopen : c.terminal = false)
    (hidle : ∀ s, c.session = some s → s.state = .idle) :
    c.failureLatched = false ∧ .stopHandled ∉ c.log ∧ c.epochExhausted = false := by
  have hnot : ¬ (c.failureLatched = true ∨ .stopHandled ∈ c.log ∨ c.epochExhausted = true) := by
    intro hwhy
    rcases h.live hwhy with hterminal | ⟨s, hs, hstate⟩
    · rw [hterminal] at hopen
      cases hopen
    · exact hstate (hidle s hs)
  simpa [not_or] using hnot

theorem Core.noteStarted (h : Core none c) (hopen : c.terminal = false)
    (hidle : ∀ s, c.session = some s → s.state = .idle) : Core none (c.record .sessionStarted) := by
  obtain ⟨hlatched, hstopped, -⟩ := h.unstopped hopen hidle
  have hstarted := h.toSound.record .sessionStarted trivial ⟨(h.unlatched hlatched).1, hstopped⟩
    nofun rfl nofun nofun nofun
  exact { hstarted with
    live := fun hwhy => h.live (by simpa [LiveCaptureController.record] using hwhy) }

theorem Core.startCurrentSession (h : Core none c) (hopen : c.terminal = false)
    (given : Surroundings) : Core none (c.startCurrentSession given).1 := by
  unfold LiveCaptureController.startCurrentSession
  split
  · exact h.fail given (by decide)
  · next s hs =>
      dsimp only
      split
      · next hidle =>
          refine (Core.noteStarted (h.count _) hopen (fun t ht => ?_)).callSession given .start
            given.sessionStart
          obtain rfl := Option.some.inj (hs.symm.trans ht)
          exact hidle.1
      · exact (h.count _).callSession given .start given.sessionStart

theorem Core.start (h : Core none c) (given : Surroundings) : Core none (c.start given) := by
  unfold LiveCaptureController.start
  split
  · exact h
  · next hguard =>
      have hopen : c.terminal = false := by
        rw [Bool.or_eq_true, not_or] at hguard
        exact Bool.eq_false_iff.mpr hguard.2
      have hstarted : Core none { c with started := true } := { h with }
      have hcore := hstarted.startCurrentSession hopen given
      dsimp only
      split
      · exact { hcore with }
      · exact hcore

/-- A new session for the next epoch. -/
theorem Core.createSession (h : Core none c) (hnone : c.session = none)
    (hwaits : c.reconnectWaits = 0) (hopen : c.terminal = false) : Core none c.createSession := by
  obtain ⟨hlatched, hstopped, hmore⟩ := h.unstopped hopen (fun s hs => by
    rw [hnone] at hs
    cases hs)
  obtain ⟨hunlatched, huntripped⟩ := h.unlatched hlatched
  have hopens : LiveCaptureController.opens c.log = c.nextConnectionEpoch.toNat := by
    rw [h.opens, hmore]
    rfl
  have hrecorded := h.toSound.record (.sessionCreated c.generation c.nextConnectionEpoch) trivial
    ⟨hunlatched, hstopped, hopens.symm⟩ nofun rfl nofun nofun nofun
  exact
    { hrecorded with
      session := fun s hs => by
        obtain rfl := Option.some.inj hs
        exact
          { inv := inv_create _ _
            live := nofun
            calm := rfl
            running := rfl
            before := fun _ => ⟨rfl, hmore⟩
            after := fun hopened => by cases hopened }
      generation := fun _ => rfl
      exclusive := fun _ => hwaits
      quietEnd := fun hterminal _ => by
        rw [show c.terminal = true from hterminal] at hopen
        cases hopen
      tripped := fun he => absurd
        (by simpa [LiveCaptureController.createSession, LiveCaptureController.record] using he)
        huntripped
      live := fun hwhy => by
        rcases hwhy with hwhy | hwhy | hwhy
        · rw [show c.failureLatched = true from hwhy] at hlatched
          cases hlatched
        · exact absurd (by
            simpa [LiveCaptureController.createSession, LiveCaptureController.record] using hwhy)
            hstopped
        · rw [show c.epochExhausted = true from hwhy] at hmore
          cases hmore }

theorem Core.onReconnectTimer (h : Core none c) (hnone : c.session = none)
    (hwaits : c.reconnectWaits = 0) (given : Surroundings) (error : NativeError) :
    Core none (c.onReconnectTimer given error) := by
  unfold LiveCaptureController.onReconnectTimer
  split
  · exact h
  · next hguard =>
      have hopen : c.terminal = false := Bool.eq_false_iff.mpr (not_or.mp hguard).2
      split
      · exact h.toSound.latchFinalize (by decide) given
      · split
        · exact h.toSound.finalizeRun (.inr hnone) given
        · split
          · exact h.toSound.latchFinalize (by decide) given
          · dsimp only
            split
            · refine Sound.latchFinalize ?_ (by decide) given
              exact { h with
                session := fun s hs => by cases hs
                generation := fun hsome => by cases hsome
                exclusive := fun hsome => by cases hsome
                quietEnd := fun _ _ => rfl
                tripped := fun he => ⟨(h.tripped he).1, (h.tripped he).2.1, rfl⟩ }
            · have hnext : Core none { c with generation := c.generation + 1 } :=
                { h with
                  generation := fun hsome => by
                    rw [show c.session = none from hnone] at hsome
                    cases hsome }
              have hstarted := (hnext.createSession hnone hwaits hopen).startCurrentSession hopen given
              split
              · exact hstarted.toSound.latchFinalize (by decide) given
              · exact hstarted

theorem Core.onWriterResume (h : Core none c) (given : Surroundings) :
    Core none (c.onWriterResume given) := by
  unfold LiveCaptureController.onWriterResume
  split
  · exact h
  split
  · exact h.fail given (by decide)
  dsimp only
  split
  · exact (h.calling _ _).fail given (by decide)
  split
  · exact h.calling _ _
  split
  · exact ((h.calling _ _).calling _ _).calling _ _
  · have hresumed : Core none { ((c.calling .failed (.failed given.writerFailed)).calling
        .belowResumeWatermark (.belowResumeWatermark given.belowResumeWatermark)).count fun m =>
          { m with producerResumes := m.producerResumes + 1 } with readsPaused := false } := { h with }
    have hcalled := hresumed.callSession given .resumeReads given.sessionResume
    split
    · exact hcalled.fail given (by decide)
    · exact hcalled

theorem Core.onBackpressureTimeout (h : Core none c) (given : Surroundings) (error : NativeError) :
    Core none (c.onBackpressureTimeout given error) := by
  unfold LiveCaptureController.onBackpressureTimeout
  split
  · exact h
  · refine Core.fail (h.calling _ _) given ?_
    split <;> decide

/-- A callback of a superseded session is counted, and that is all. -/
theorem onNotice_superseded (c : LiveCaptureController) (json : Library) (given : Surroundings)
    {generation : UInt64} (hold : generation ≠ c.generation) (notice : SessionNotice) :
    c.onNotice json given generation notice = some c.stale := by
  cases notice with
  | «open» => simp [onNotice, LiveCaptureController.onOpen, hold]
  | text message => simp [onNotice, LiveCaptureController.onTextMessage, hold]
  | control kind => simp [onNotice, onControl, hold]
  | terminal sessionResult => simp [onNotice, onSessionTerminal, hold]

theorem Core.step (h : Core none c) {json : Library} {label : ControllerLabel}
    {c' : LiveCaptureController} (hstep : c.step json label = some c') : Core none c' := by
  cases label with
  | start given =>
      cases hstep
      exact h.start given
  | stop =>
      cases hstep
      split
      · exact h
      · exact { h with stopped := fun _ => rfl }
  | requestStopOnIo given =>
      simp only [LiveCaptureController.step] at hstep
      split at hstep
      · next hstop =>
          cases hstep
          exact h.requestStopOnIo hstop given
      · cases hstep
  | session label given => exact h.onSession hstep
  | superseded generation notice given =>
      simp only [LiveCaptureController.step] at hstep
      split at hstep
      · next hold =>
          rw [onNotice_superseded c json given hold] at hstep
          cases hstep
          exact h.count _
      · cases hstep
  | reconnectTimer error given =>
      simp only [LiveCaptureController.step] at hstep
      split at hstep
      · next hpending =>
          cases hstep
          have hnone : c.session = none := by
            by_contra hsome
            have := h.exclusive (Option.isSome_iff_ne_none.mpr hsome)
            omega
          have hwaits : c.reconnectWaits - 1 = 0 := by
            have := h.waits
            omega
          have hcore : Core none { c with reconnectWaits := c.reconnectWaits - 1 } :=
            { h with
              waits := by
                show c.reconnectWaits - 1 ≤ 1
                omega
              exclusive := fun _ => hwaits }
          exact hcore.onReconnectTimer hnone hwaits given error
      · cases hstep
  | stableConnection generation error =>
      cases hstep
      unfold onStableConnection
      split
      · exact h
      split
      · exact h.count _
      · exact { h with }
  | writerResume given =>
      cases hstep
      exact h.onWriterResume given
  | resumePostFails =>
      cases hstep
      exact { h with }
  | postedSessionStop given =>
      simp only [LiveCaptureController.step] at hstep
      split at hstep
      · cases hstep
        exact h.callSession given .stop .returns
      · cases hstep
  | backpressureTimeout error given =>
      cases hstep
      exact h.onBackpressureTimeout given error

end Timers

/-! ## Runs -/

theorem core_create {venue : PayloadVenue} {symbols : List Bytes} {subscription : LiveSubscription}
    {pipeline : LiveEventPipeline} {options : LiveReconnectOptions} {hasTerminalCallback : Bool}
    {c : LiveCaptureController} (hsubscription : LiveSubscription.create venue symbols = .ok subscription)
    (hpipeline : LiveEventPipeline.create subscription = .ok pipeline)
    (hcreate : LiveCaptureController.create pipeline options hasTerminalCallback = some c) :
    Core none c := by
  obtain ⟨hok, hknown, -⟩ := LiveEventPipeline.create_ok hsubscription hpipeline
  have hbehind := LiveEventPipeline.create_behind hpipeline
  unfold LiveCaptureController.create at hcreate
  split at hcreate
  · cases hcreate
  · obtain rfl := Option.some.inj hcreate
    have hempty : History.Always Allowed ([] ++ [.sessionCreated 1 0]) := by
      refine History.always_concat.mpr ⟨History.always_nil _, ?_, ?_, rfl⟩
      · rintro ⟨error, he⟩
        cases he
      · nofun
    exact
      { session := fun s hs => by
          obtain rfl := Option.some.inj hs
          exact
            { inv := inv_create _ _
              live := nofun
              calm := rfl
              running := rfl
              before := fun _ => ⟨rfl, rfl⟩
              after := fun hopened => by cases hopened }
        generation := fun _ => rfl
        waits := Nat.zero_le _
        exclusive := fun _ => rfl
        finalized := rfl
        joined := by simp
        notified := by simp [isTerminalCallback]
        latchedLog := by simp [LatchedIn]
        latchedError := nofun
        stopped := by simp
        quietEnd := nofun
        opens := rfl
        exhausted := nofun
        policy := rfl
        policyBound := Nat.zero_le _
        tripped := by simp
        pipeline := ⟨hok, hbehind⟩
        metadata := fun hseen => by
          rw [show pipeline.hasConnectionMetadata = true from hseen] at hknown
          cases hknown
        processed := by simp
        rules := hempty
        policyLimit := .inl (Nat.zero_lt_succ 2)
        live := by simp [Live] }

/-- Every state between two callbacks. -/
theorem core_of_reachable {json : Library} {c : LiveCaptureController}
    (h : Transition.Reachable (system json) c) : Core none c := by
  refine h.invariant ?_ (fun c label c' hcore hstep => hcore.step hstep)
  rintro c ⟨venue, symbols, subscription, pipeline, options, hasTerminalCallback, hsubscription,
    hpipeline, hcreate⟩
  exact core_create hsubscription hpipeline hcreate

end LiveCaptureController

end MarketCapture
