import MarketCapture.Controller.Capture

/-! # Work beside the messages

All that the controller does but for a text message: it ends sessions, reconnects, pauses, resumes,
fails and stops. None of it publishes a row or fails a message, and the only message it counts is
the binary one that ends a session. `Beside` says so once for every function.
-/

namespace MarketCapture

open Simdjson

namespace LiveCaptureMetrics

/-- The nine outcomes of an event. -/
def outcomes (m : LiveCaptureMetrics) : Nat :=
  m.appliedRefreshes + m.appliedDiffs + m.staleRefreshes + m.staleDiffs + m.ignoredWhileInvalid +
    m.sequenceGaps + m.crossedBooks + m.tradesAudited + m.schemaRejections

/-- The counters that messages balance. -/
def balance (m : LiveCaptureMetrics) : Nat × Nat × Nat × Nat × Nat × Nat :=
  (m.completeMessages, m.batchesPublished, m.preAuditRejections, m.processedEvents, m.outcomes,
    m.appliedRefreshes + m.appliedDiffs)

end LiveCaptureMetrics

/-- A call of the writer that failed a message. -/
def isFailedCall : Call × CallResult → Bool
  | (.tryAcquire, .acquired (some _)) => true
  | (.publish _, .published (some _)) => true
  | _ => false

/-- The calls that a message has no part in. -/
def isPassive : Call × CallResult → Bool
  | (.tryAcquire, _) => false
  | (.fill _ _ _, _) => false
  | (.publish _, _) => false
  | _ => true

/-- A message that the pipeline could not handle. -/
def ControllerEvent.isFailedMessage : ControllerEvent → Bool
  | .processed _ result =>
      decide (result.disposition ≠ .batchReady) && decide (result.disposition ≠ .preAuditRejected)
  | _ => false

namespace ProducerView

/-- Passive calls enter nothing and take no slot. -/
theorem after_passive (v : ProducerView) {entry : Call × CallResult} (h : isPassive entry = true) :
    (v.after entry).sequence = v.sequence ∧ (v.after entry).bytes = v.bytes ∧
      (v.after entry).auditRows = v.auditRows ∧ (v.after entry).orderBookRows = v.orderBookRows ∧
      (v.held = none → (v.after entry).held = none) := by
  obtain ⟨call, result⟩ := entry
  cases call with
  | tryAcquire => cases h
  | fill => cases h
  | publish => cases h
  | cancel => exact ⟨rfl, rfl, rfl, rfl, fun _ => rfl⟩
  | close => exact ⟨rfl, rfl, rfl, rfl, fun _ => rfl⟩
  | join => exact ⟨rfl, rfl, rfl, rfl, fun _ => rfl⟩
  | _ => exact ⟨rfl, rfl, rfl, rfl, id⟩

end ProducerView

namespace LiveCaptureController

open ControllerEvent

/-- The producer's view of the writer after the calls of the controller. -/
def view (c : LiveCaptureController) : ProducerView := c.writerCalls.foldl ProducerView.after {}

/-- The messages that ended in a failure of the writer or of the pipeline. -/
def failures (c : LiveCaptureController) : Nat :=
  c.writerCalls.countP isFailedCall + c.log.countP isFailedMessage

structure Beside (c c' : LiveCaptureController) : Prop where
  calls : ∃ calls, c'.writerCalls = c.writerCalls ++ calls ∧ ∀ entry ∈ calls, isPassive entry = true
  closed : c'.view.closed = true → c.view.closed = true ∨ c'.terminal = true
  joined : c'.terminal = true → c.terminal = true ∧ c'.result.writer = c.result.writer ∨
    (.join, .joined c'.result.writer) ∈ c'.writerCalls
  failures : c'.failures = c.failures
  latched : c.failureLatched = true → c'.failureLatched = true
  terminal : c.terminal = true → c'.terminal = true
  balance : ∃ binary, c'.result.metrics.balance =
    (c.result.metrics.completeMessages + binary, c.result.metrics.batchesPublished,
      c.result.metrics.preAuditRejections + binary, c.result.metrics.processedEvents,
      c.result.metrics.outcomes, c.result.metrics.appliedRefreshes + c.result.metrics.appliedDiffs)
  subscription : c'.pipeline.subscription = c.pipeline.subscription

section Relation

variable {c c' c'' : LiveCaptureController}

theorem Beside.trans (h : Beside c c') (h' : Beside c' c'') : Beside c c'' := by
  obtain ⟨calls, hcalls, hpassive⟩ := h.calls
  obtain ⟨calls', hcalls', hpassive'⟩ := h'.calls
  obtain ⟨binary, hbalance⟩ := h.balance
  obtain ⟨binary', hbalance'⟩ := h'.balance
  refine ⟨⟨calls ++ calls', ?_, ?_⟩, ?_, ?_, h'.failures.trans h.failures,
    fun hl => h'.latched (h.latched hl), fun ht => h'.terminal (h.terminal ht),
    ⟨binary + binary', ?_⟩, h'.subscription.trans h.subscription⟩
  · rw [hcalls', hcalls, List.append_assoc]
  · exact fun entry he => (List.mem_append.mp he).elim (hpassive entry) (hpassive' entry)
  · intro hclosed
    rcases h'.closed hclosed with hclosed | hterminal
    · exact (h.closed hclosed).imp id h'.terminal
    · exact .inr hterminal
  · intro hterminal
    rcases h'.joined hterminal with ⟨hterminal, hwriter⟩ | hjoined
    · rw [hwriter]
      refine (h.joined hterminal).imp id fun hjoined => ?_
      rw [hcalls']
      exact List.mem_append_left _ hjoined
    · exact .inr hjoined
  · simp only [LiveCaptureMetrics.balance, Prod.mk.injEq] at hbalance hbalance' ⊢
    omega

/-- Flags, sessions, timers and other counters. -/
theorem Beside.of_same (hmetrics : c'.result.metrics.balance = c.result.metrics.balance)
    (hcalls : c'.writerCalls = c.writerCalls) (hlog : c'.log = c.log)
    (hlatched : c'.failureLatched = c.failureLatched) (hterminal : c'.terminal = c.terminal)
    (hwriter : c'.result.writer = c.result.writer)
    (hsubscription : c'.pipeline.subscription = c.pipeline.subscription) : Beside c c' := by
  refine ⟨⟨[], by rw [hcalls, List.append_nil], by simp⟩, ?_, ?_, ?_, hlatched.ge, hterminal.ge,
    ⟨0, hmetrics⟩, hsubscription⟩
  · rw [view, hcalls]
    exact fun hclosed => .inl hclosed
  · rw [hterminal]
    exact fun h => .inl ⟨h, hwriter⟩
  · rw [LiveCaptureController.failures, hcalls, hlog, LiveCaptureController.failures]

theorem Beside.refl (c : LiveCaptureController) : Beside c c :=
  .of_same rfl rfl rfl rfl rfl rfl rfl

theorem foldl_passive {calls : List (Call × CallResult)}
    (h : ∀ entry ∈ calls, isPassive entry = true) (v : ProducerView) :
    (calls.foldl ProducerView.after v).sequence = v.sequence ∧
      (calls.foldl ProducerView.after v).bytes = v.bytes ∧
      (calls.foldl ProducerView.after v).auditRows = v.auditRows ∧
      (calls.foldl ProducerView.after v).orderBookRows = v.orderBookRows ∧
      (v.held = none → (calls.foldl ProducerView.after v).held = none) := by
  induction calls generalizing v with
  | nil => exact ⟨rfl, rfl, rfl, rfl, id⟩
  | cons entry calls ih =>
      obtain ⟨hsequence, hbytes, haudit, hbook, hheld⟩ :=
        v.after_passive (h entry List.mem_cons_self)
      obtain ⟨hsequence', hbytes', haudit', hbook', hheld'⟩ :=
        ih (fun e he => h e (List.mem_cons_of_mem _ he)) (v.after entry)
      exact ⟨hsequence'.trans hsequence, hbytes'.trans hbytes, haudit'.trans haudit,
        hbook'.trans hbook, fun hnone => hheld' (hheld hnone)⟩

/-- Work beside the messages enters nothing and takes no slot. -/
theorem Beside.view (h : Beside c c') :
    c'.view.sequence = c.view.sequence ∧ c'.view.bytes = c.view.bytes ∧
      c'.view.auditRows = c.view.auditRows ∧ c'.view.orderBookRows = c.view.orderBookRows ∧
      (c.view.held = none → c'.view.held = none) := by
  obtain ⟨calls, hcalls, hpassive⟩ := h.calls
  have hview : c'.view = calls.foldl ProducerView.after c.view := by
    rw [LiveCaptureController.view, hcalls, List.foldl_append, LiveCaptureController.view]
  rw [hview]
  exact foldl_passive hpassive c.view

theorem view_calling (c : LiveCaptureController) (call : Call) (result : CallResult) :
    (c.calling call result).view = c.view.after (call, result) := by
  simp [view, calling]

theorem failures_calling (c : LiveCaptureController) (call : Call) (result : CallResult) :
    (c.calling call result).failures =
      c.failures + if isFailedCall (call, result) then 1 else 0 := by
  simp only [failures, calling, List.countP_append, List.countP_singleton]
  omega

theorem failures_record (c : LiveCaptureController) (event : ControllerEvent) :
    (c.record event).failures = c.failures + if event.isFailedMessage then 1 else 0 := by
  simp only [failures, record, List.countP_append, List.countP_singleton]
  omega

theorem isFailedCall_of_passive {entry : Call × CallResult} (h : isPassive entry = true) :
    isFailedCall entry = false := by
  obtain ⟨call, result⟩ := entry
  cases call <;> first | rfl | cases h

theorem beside_record (c : LiveCaptureController) (event : ControllerEvent)
    (hfailed : event.isFailedMessage = false) : Beside c (c.record event) := by
  refine ⟨⟨[], (List.append_nil _).symm, by simp⟩, .inl, fun ht => .inl ⟨ht, rfl⟩, ?_, id, id, ⟨0, rfl⟩,
    rfl⟩
  rw [failures_record, hfailed]
  rfl

theorem beside_calling (c : LiveCaptureController) (call : Call) (result : CallResult)
    (hpassive : isPassive (call, result) = true)
    (hopen : (c.view.after (call, result)).closed = c.view.closed) :
    Beside c (c.calling call result) := by
  refine ⟨⟨[(call, result)], rfl, by simpa using hpassive⟩, ?_, fun ht => .inl ⟨ht, rfl⟩, ?_, id, id,
    ⟨0, rfl⟩, rfl⟩
  · rw [view_calling, hopen]
    exact .inl
  · rw [failures_calling, isFailedCall_of_passive hpassive]
    rfl

end Relation

/-! ## Ending and reconnecting -/

section Endings

variable (c : LiveCaptureController) (given : Surroundings)

theorem beside_latch (error : LiveCaptureErrorCode) : Beside c (c.latch error) := by
  have hrecorded := beside_record c (.latched error) rfl
  exact ⟨hrecorded.calls, hrecorded.closed, hrecorded.joined, hrecorded.failures, fun _ => rfl,
    hrecorded.terminal, hrecorded.balance, hrecorded.subscription⟩

theorem beside_finalizeRun : Beside c (c.finalizeRun given) := by
  unfold finalizeRun
  split
  · exact .refl c
  · have hended : Beside c
        { (c.calling .join (.joined given.joined)).record .joined with
          terminalStarted := true
          stopRequested := c.stopRequested || given.stopsMeanwhile
          result := c.finalResult (c.stopRequested || given.stopsMeanwhile) given.joined
          terminal := true
          hasTerminalCallback := false } := by
      refine ⟨⟨[(.join, .joined given.joined)], rfl, by simp [isPassive]⟩, fun _ => .inr rfl,
        fun _ => .inr (List.mem_append_right _ (List.mem_singleton.mpr rfl)), ?_, id, fun _ => rfl,
        ⟨0, rfl⟩, rfl⟩
      have hrecorded := failures_record (c.calling .join (.joined given.joined)) .joined
      rw [failures_calling] at hrecorded
      exact hrecorded
    dsimp only
    split
    · exact hended.trans (beside_record _ _ rfl)
    · exact hended

theorem beside_handleSessionStopException : Beside c (c.handleSessionStopException given) := by
  unfold handleSessionStopException
  split
  · exact beside_finalizeRun c given
  · exact (beside_latch c _).trans (beside_finalizeRun _ given)

theorem beside_scheduleReconnect : Beside c (c.scheduleReconnect given) := by
  unfold scheduleReconnect
  dsimp only [selectReconnectDelay]
  split
  · refine Beside.trans ?_ ((beside_latch _ _).trans (beside_finalizeRun _ given))
    exact .of_same rfl rfl rfl rfl rfl rfl rfl
  · refine (beside_record c .reconnectScheduled rfl).trans ?_
    exact .of_same rfl rfl rfl rfl rfl rfl rfl

/-- A binary message counts as complete and as rejected. -/
theorem beside_countSessionEnd (code : WebSocketSessionErrorCode) :
    Beside c (c.countSessionEnd code) := by
  unfold countSessionEnd
  split
  · refine ⟨⟨[], (List.append_nil _).symm, by simp⟩, ?_, fun ht => .inl ⟨ht, rfl⟩, ?_, id, id, ⟨1, rfl⟩,
      rfl⟩
    · unfold view
      exact .inl
    · unfold failures
      rfl
  · split
    · exact .of_same rfl rfl rfl rfl rfl rfl rfl
    · exact .refl c

theorem beside_tripBreaker : Beside c c.tripBreaker := by
  unfold tripBreaker
  split
  · refine Beside.trans ?_ ((beside_latch _ _).trans (beside_record _ _ rfl))
    exact .of_same rfl rfl rfl rfl rfl rfl rfl
  · exact .refl c

theorem beside_endStopped (sessionResult : WebSocketSessionResult) :
    Beside c (c.endStopped given sessionResult) := by
  unfold endStopped
  dsimp only
  have hcounted : Beside c (c.count fun m =>
      { m with recoverableSessionFailures := m.recoverableSessionFailures + 1 }) :=
    .of_same rfl rfl rfl rfl rfl rfl rfl
  refine Beside.trans ?_ (beside_finalizeRun _ given)
  split
  · split
    · exact hcounted.trans (beside_latch _ _)
    · exact hcounted
  · split
    · exact beside_latch c _
    · exact .refl c

theorem beside_endOrReconnect (sessionResult : WebSocketSessionResult) :
    Beside c (c.endOrReconnect given sessionResult) := by
  have hfailed : ∀ error, Beside c ((c.latch error).finalizeRun given) := fun error =>
    (beside_latch c error).trans (beside_finalizeRun _ given)
  unfold endOrReconnect
  split
  · exact beside_endStopped c given sessionResult
  split
  · exact beside_finalizeRun c given
  split
  · exact hfailed _
  split
  · exact hfailed _
  · refine Beside.trans ?_ (beside_scheduleReconnect _ given)
    exact .of_same rfl rfl rfl rfl rfl rfl rfl

theorem beside_onSessionTerminal (generation : UInt64) (sessionResult : WebSocketSessionResult) :
    Beside c (c.onSessionTerminal given generation sessionResult) := by
  unfold onSessionTerminal
  split
  · exact .of_same rfl rfl rfl rfl rfl rfl rfl
  · dsimp only
    refine Beside.trans ?_ (beside_endOrReconnect _ given sessionResult)
    generalize hd : LiveCaptureController.tripBreaker _ = d
    have htripped : Beside c d := by
      rw [← hd]
      refine Beside.trans ?_ ((beside_countSessionEnd _ _).trans (beside_tripBreaker _))
      exact .of_same rfl rfl rfl rfl rfl rfl rfl
    refine htripped.trans ?_
    split
    · refine Beside.trans ?_ (beside_latch _ _)
      exact .of_same rfl rfl rfl rfl rfl rfl rfl
    · exact .of_same rfl rfl rfl rfl rfl rfl rfl

end Endings

/-! ## Sessions -/

section Sessions

variable (c : LiveCaptureController) (given : Surroundings)

theorem beside_advanceSession (s : WebSocketSession) : Beside c (c.advanceSession given s) := by
  have hset : Beside c { c with session := some s } := .of_same rfl rfl rfl rfl rfl rfl rfl
  unfold advanceSession
  dsimp only
  split
  · exact (hset.trans (beside_record _ _ rfl)).trans (beside_onSessionTerminal _ given _ _)
  · exact hset

theorem beside_callSession (call : SessionCall) (completion : Completion) :
    Beside c (c.callSession given call completion).1 := by
  unfold callSession
  split
  · exact .refl c
  · cases completion with
    | throwsBefore => exact .refl c
    | returns => exact beside_advanceSession c given _
    | throwsAfter => exact beside_advanceSession c given _

theorem beside_stopSession : Beside c (c.stopSession given) := by
  unfold stopSession
  dsimp only
  split
  · exact (beside_callSession c given _ _).trans (beside_handleSessionStopException _ given)
  · exact beside_callSession c given _ _

theorem beside_requestStopOnIo : Beside c (c.requestStopOnIo given) := by
  refine (beside_record c .stopHandled rfl).trans ?_
  unfold requestStopOnIo
  dsimp only
  split
  · exact .refl _
  split
  · exact beside_stopSession _ given
  · exact beside_finalizeRun _ given

/-- What `fail` does once the failure is latched. -/
theorem beside_fail_latched (error : LiveCaptureErrorCode)
    (hrunning : (c.failureLatched || c.terminal) = false) :
    Beside (c.latch error) (c.fail given error) := by
  unfold fail
  rw [if_neg (by simp [hrunning])]
  dsimp only
  split
  · refine (beside_callSession _ given .pauseReads given.sessionPause).trans ?_
    split
    · exact beside_handleSessionStopException _ given
    · exact beside_stopSession _ given
  · exact beside_finalizeRun _ given

theorem beside_fail (error : LiveCaptureErrorCode) : Beside c (c.fail given error) := by
  cases hrunning : (c.failureLatched || c.terminal) with
  | true =>
      unfold fail
      rw [if_pos hrunning]
      exact .refl c
  | false => exact (beside_latch c error).trans (beside_fail_latched c given error hrunning)

theorem beside_pauseForBackpressure : Beside c (c.pauseForBackpressure given).1 := by
  unfold pauseForBackpressure
  split
  · exact .refl c
  · dsimp only
    generalize hd : LiveCaptureController.callSession _ _ _ _ = d
    have hpaused : Beside c d.1 := by
      rw [← hd]
      refine Beside.trans ?_ (beside_callSession _ given _ _)
      exact .of_same rfl rfl rfl rfl rfl rfl rfl
    split
    · exact hpaused
    · exact hpaused.trans (beside_calling _ _ _ rfl rfl)

theorem beside_pauseIfFull : Beside c (c.pauseIfFull given).1 := by
  have hcalled : Beside c (c.calling .shouldPause (.shouldPause given.shouldPause)) :=
    beside_calling c _ _ rfl rfl
  unfold pauseIfFull
  dsimp only
  split
  · exact hcalled.trans (beside_pauseForBackpressure _ given)
  · exact hcalled

theorem beside_useEpoch : Beside c c.useEpoch := by
  unfold useEpoch
  split <;> exact .of_same rfl rfl rfl rfl rfl rfl rfl

theorem beside_onOpen (generation : UInt64) : Beside c (c.onOpen given generation).1 := by
  unfold onOpen
  split
  · exact .of_same rfl rfl rfl rfl rfl rfl rfl
  · dsimp only
    generalize hd : useEpoch _ = d
    have hused : Beside c d := by
      rw [← hd]
      refine Beside.trans ?_ (beside_useEpoch _)
      exact .of_same rfl rfl rfl rfl rfl rfl rfl
    split
    · exact hused
    split
    · exact hused.trans (beside_requestStopOnIo _ given)
    · exact hused.trans (beside_pauseIfFull _ given)

theorem beside_onControl (generation : UInt64) (kind : WebSocketControlKind) :
    Beside c (c.onControl generation kind) := by
  unfold onControl
  split
  · exact .of_same rfl rfl rfl rfl rfl rfl rfl
  · cases kind <;> exact .of_same rfl rfl rfl rfl rfl rfl rfl

theorem beside_afterSessionCallback (threw : Bool) :
    Beside c (c.afterSessionCallback given threw) := by
  unfold afterSessionCallback
  split
  · exact .refl c
  · split
    · exact beside_advanceSession c given _
    · exact .refl c

end Sessions

/-! ## Starting, timers and notifications -/

section Timers

variable (c : LiveCaptureController) (given : Surroundings)

theorem beside_startCurrentSession : Beside c (c.startCurrentSession given).1 := by
  unfold startCurrentSession
  split
  · exact beside_fail c given _
  · dsimp only
    refine Beside.trans ?_ (beside_callSession _ given _ _)
    have hcounted : Beside c (c.count fun m =>
        { m with connectionAttempts := m.connectionAttempts + 1 }) :=
      .of_same rfl rfl rfl rfl rfl rfl rfl
    split
    · exact hcounted.trans (beside_record _ _ rfl)
    · exact hcounted

theorem beside_start : Beside c (c.start given) := by
  unfold start
  split
  · exact .refl c
  · have hset : Beside c { c with started := true } := .of_same rfl rfl rfl rfl rfl rfl rfl
    have hstarted := hset.trans (beside_startCurrentSession _ given)
    dsimp only
    split
    · exact hstarted.trans (.of_same rfl rfl rfl rfl rfl rfl rfl)
    · exact hstarted

theorem beside_onReconnectTimer (error : NativeError) :
    Beside c (c.onReconnectTimer given error) := by
  have hfailed : ∀ d error, Beside c d → Beside c ((d.latch error).finalizeRun given) :=
    fun d error hd => hd.trans ((beside_latch d error).trans (beside_finalizeRun _ given))
  unfold onReconnectTimer
  split
  · exact .refl c
  split
  · exact hfailed c _ (.refl c)
  split
  · exact beside_finalizeRun c given
  split
  · exact hfailed c _ (.refl c)
  dsimp only
  split
  · refine hfailed _ _ ?_
    exact .of_same rfl rfl rfl rfl rfl rfl rfl
  · generalize hd : createSession _ = d
    have hcreated : Beside c d := by
      rw [← hd]
      refine (beside_record c (.sessionCreated (c.generation + 1) c.nextConnectionEpoch)
        rfl).trans ?_
      exact .of_same rfl rfl rfl rfl rfl rfl rfl
    have hstarted := hcreated.trans (beside_startCurrentSession d given)
    split
    · exact hfailed _ _ hstarted
    · exact hstarted

theorem beside_onWriterResume : Beside c (c.onWriterResume given) := by
  unfold onWriterResume
  split
  · exact .refl c
  split
  · exact beside_fail c given _
  dsimp only
  refine (beside_calling c .failed (.failed given.writerFailed) rfl rfl).trans ?_
  generalize LiveCaptureController.calling c .failed _ = d
  split
  · exact beside_fail d given _
  split
  · exact .refl d
  refine (beside_calling d .belowResumeWatermark
    (.belowResumeWatermark given.belowResumeWatermark) rfl rfl).trans ?_
  generalize LiveCaptureController.calling d .belowResumeWatermark _ = e
  split
  · exact beside_calling e _ _ rfl rfl
  · generalize hf : LiveCaptureController.callSession _ _ _ _ = f
    have hresumed : Beside e f.1 := by
      rw [← hf]
      refine Beside.trans ?_ (beside_callSession _ given _ _)
      exact .of_same rfl rfl rfl rfl rfl rfl rfl
    split
    · exact hresumed.trans (beside_fail _ given _)
    · exact hresumed

theorem beside_onBackpressureTimeout (error : NativeError) :
    Beside c (c.onBackpressureTimeout given error) := by
  unfold onBackpressureTimeout
  split
  · exact .refl c
  · exact (beside_calling c _ _ rfl rfl).trans (beside_fail _ given _)

end Timers

/-- Every step but a handler of the session works beside the messages. -/
theorem step_beside {c c' : LiveCaptureController} {json : Library} {label : ControllerLabel}
    (hlabel : ∀ handler given, label ≠ .session handler given) (h : c.step json label = some c') :
    Beside c c' := by
  cases label with
  | start given =>
      cases h
      exact beside_start c given
  | stop =>
      cases h
      split
      · exact .refl c
      · exact .of_same rfl rfl rfl rfl rfl rfl rfl
  | requestStopOnIo given =>
      simp only [step] at h
      split at h <;> cases h
      exact beside_requestStopOnIo c given
  | session label given => exact absurd rfl (hlabel label given)
  | superseded generation notice given =>
      simp only [step] at h
      split at h
      · next hold =>
          rw [onNotice_superseded c json given hold notice] at h
          cases h
          exact .of_same rfl rfl rfl rfl rfl rfl rfl
      · cases h
  | reconnectTimer error given =>
      simp only [step] at h
      split at h <;> cases h
      have hset : Beside c { c with reconnectWaits := c.reconnectWaits - 1 } :=
        .of_same rfl rfl rfl rfl rfl rfl rfl
      exact hset.trans (beside_onReconnectTimer _ given error)
  | stableConnection generation error =>
      cases h
      unfold onStableConnection
      split
      · exact .refl c
      split
      · exact .of_same rfl rfl rfl rfl rfl rfl rfl
      · exact .of_same rfl rfl rfl rfl rfl rfl rfl
  | writerResume given =>
      cases h
      exact beside_onWriterResume c given
  | resumePostFails =>
      cases h
      exact .of_same rfl rfl rfl rfl rfl rfl rfl
  | postedSessionStop given =>
      simp only [step] at h
      split at h <;> cases h
      exact beside_callSession c given _ _
  | backpressureTimeout error given =>
      cases h
      exact beside_onBackpressureTimeout c given error

/-- Every step works beside the messages, but for the handler that delivers one. -/
theorem step_cases {c c' : LiveCaptureController} {json : Library} {label : ControllerLabel}
    (h : c.step json label = some c') :
    Beside c c' ∨ ∃ s s' message given out, c.session = some s ∧ s'.running = some (.text message) ∧
      (∃ label, s.handle label = some s') ∧ s.running = none ∧
      ({ c with session := some s' }.record (.delivered message)).onTextMessage json given
        c.sessionGeneration message = some out ∧
      c' = out.1.afterSessionCallback given out.2 := by
  by_cases hlabel : ∃ handler given, label = .session handler given
  · obtain ⟨label, given, rfl⟩ := hlabel
    obtain ⟨s, s', hs, hidle, hhandle, ⟨-, rfl⟩ | ⟨callback, out, hrunning, hout, rfl⟩⟩ :=
      onSession_cases h
    · exact .inl (beside_advanceSession c given s')
    · have hset : Beside c { c with session := some s' } := .of_same rfl rfl rfl rfl rfl rfl rfl
      cases callback with
      | «open» =>
          cases hout
          exact .inl (((hset.trans (beside_record _ _ rfl)).trans (beside_onOpen _ given _)).trans
            (beside_afterSessionCallback _ given _))
      | text message => exact .inr ⟨s, s', message, given, out, hs, hrunning, ⟨label, hhandle⟩,
          hidle, hout, rfl⟩
      | control kind =>
          cases hout
          exact .inl ((hset.trans (beside_onControl _ _ kind)).trans
            (beside_afterSessionCallback _ given _))
  · exact .inl (step_beside (fun handler given heq => hlabel ⟨handler, given, heq⟩) h)

end LiveCaptureController

end MarketCapture
