import MarketCapture.Session.Owner
import MarketCapture.Writer.CsvWriter

/-! # The live capture controller

The controller owns the sessions, the pipeline and the producer side of the writer. Its
callbacks run one after the other on the I/O thread, where a call of the session's
interface runs in place: stopping a session that is not open ends it, and its terminal
callback comes before `stop` returns.

What the controller cannot decide is given with each callback (`Surroundings`): what the
writer answers, which calls throw, and what other threads do to its flags meanwhile.
-/

namespace MarketCapture

open Simdjson

inductive LiveCaptureErrorCode where
  | none
  | sessionFailure
  | pipelineFailure
  | writerAcquireFailure
  | writerPublishFailure
  | writerFailure
  | backpressureTimeout
  | resumeNotificationFailure
  | messagePolicyBreaker
  | connectionEpochOverflow
  | reconnectSchedulingFailure
  deriving DecidableEq, Repr

structure LiveReconnectOptions where
  initialBackoff : Nat := 250
  maximumBackoff : Nat := 30000
  stableConnectionReset : Nat := 30000
  deriving DecidableEq, Repr

structure LiveCaptureMetrics where
  textMessages : Nat := 0
  completeMessages : Nat := 0
  batchesPublished : Nat := 0
  auditEligibleEvents : Nat := 0
  processedEvents : Nat := 0
  preAuditRejections : Nat := 0
  unknownStreamRejections : Nat := 0
  invalidDataRejections : Nat := 0
  malformedEnvelopeRejections : Nat := 0
  schemaRejections : Nat := 0
  appliedRefreshes : Nat := 0
  appliedDiffs : Nat := 0
  staleRefreshes : Nat := 0
  staleDiffs : Nat := 0
  ignoredWhileInvalid : Nat := 0
  sequenceGaps : Nat := 0
  crossedBooks : Nat := 0
  tradesAudited : Nat := 0
  connectionInvalidations : Nat := 0
  connectionAttempts : Nat := 0
  successfulConnections : Nat := 0
  reconnectsScheduled : Nat := 0
  recoverableSessionFailures : Nat := 0
  binaryMessages : Nat := 0
  oversizedMessages : Nat := 0
  messagePolicyBreakerTrips : Nat := 0
  backoffResets : Nat := 0
  staleSessionCallbacks : Nat := 0
  lastReconnectDelayMs : Nat := 0
  producerPauses : Nat := 0
  producerResumes : Nat := 0
  pingFrames : Nat := 0
  pongFrames : Nat := 0
  closeFrames : Nat := 0
  deriving DecidableEq, Repr

def CsvWriterResult.success (result : CsvWriterResult) : Bool :=
  result.outputError.isNone && decide (result.metrics.auditRowsUnwritten = 0) &&
    decide (result.metrics.orderBookRowsUnwritten = 0)

structure LiveCaptureResult where
  error : LiveCaptureErrorCode := .none
  session : WebSocketSessionResult := {}
  pipeline : LivePipelineResult := {}
  writerAcquireError : Option CsvWriterAcquireError := none
  writerPublishError : Option CsvWriterPublishError := none
  writer : CsvWriterResult := {}
  metrics : LiveCaptureMetrics := {}
  stopRequested : Bool := false
  deriving DecidableEq, Repr

def LiveCaptureResult.success (result : LiveCaptureResult) : Bool :=
  decide (result.error = .none) && result.stopRequested && result.writer.success

def LiveCaptureMetrics.recordEventStatus (metrics : LiveCaptureMetrics) :
    EventProcessStatus → LiveCaptureMetrics
  | .appliedRefresh => { metrics with appliedRefreshes := metrics.appliedRefreshes + 1 }
  | .appliedDiff => { metrics with appliedDiffs := metrics.appliedDiffs + 1 }
  | .staleRefresh => { metrics with staleRefreshes := metrics.staleRefreshes + 1 }
  | .staleDiff => { metrics with staleDiffs := metrics.staleDiffs + 1 }
  | .ignoredWhileInvalid => { metrics with ignoredWhileInvalid := metrics.ignoredWhileInvalid + 1 }
  | .sequenceGap => { metrics with sequenceGaps := metrics.sequenceGaps + 1 }
  | .crossedBook => { metrics with crossedBooks := metrics.crossedBooks + 1 }
  | .tradeAudited => { metrics with tradesAudited := metrics.tradesAudited + 1 }
  | .schemaRejected => { metrics with schemaRejections := metrics.schemaRejections + 1 }
  | .notProcessed | .preAuditRejected => metrics

def LiveCaptureMetrics.recordEnvelopeRejection (metrics : LiveCaptureMetrics) :
    LiveEnvelopeErrorCode → LiveCaptureMetrics
  | .unknownStream => { metrics with unknownStreamRejections := metrics.unknownStreamRejections + 1 }
  | .missingData | .duplicateData | .dataNotObject | .payloadMinifyFailed =>
      { metrics with invalidDataRejections := metrics.invalidDataRejections + 1 }
  | .none => metrics
  | _ => { metrics with malformedEnvelopeRejections := metrics.malformedEnvelopeRejections + 1 }

def messagePolicyBreakerLimit : Nat := 3

def recoverableSessionError : WebSocketSessionErrorCode → Bool
  | .resolveFailure | .connectFailure | .websocketHandshakeFailure | .tlsHandshakeFailure
  | .readFailure | .incompleteMessage | .binaryMessage | .messageTooBig | .remoteClose
  | .timeout => true
  | _ => false

/-- The codes that count towards the breaker. -/
def messagePolicyError (code : WebSocketSessionErrorCode) : Bool :=
  decide (code = .binaryMessage) || decide (code = .messageTooBig)

/-- How a call into the session ends: it returns, it throws before it has done anything, or
it throws afterwards. -/
inductive Completion where
  | returns | throwsBefore | throwsAfter
  deriving DecidableEq, Repr

/-- What a callback meets: the writer's answers, the calls that throw, the delay that is
drawn, and what other threads do to the flags while it runs. -/
structure Surroundings where
  acquired : Option CsvWriterAcquireError := none
  auditExcess : Nat := 0
  orderBookExcess : Nat := 0
  published : Option CsvWriterPublishError := none
  writerFailed : Bool := false
  shouldPause : Bool := false
  belowResumeWatermark : Bool := false
  joined : CsvWriterResult := {}
  sessionStart : Completion := .returns
  sessionStop : Completion := .returns
  sessionPause : Completion := .returns
  sessionResume : Completion := .returns
  stabilityTimerThrows : Bool := false
  backpressureTimerThrows : Bool := false
  reconnectTimerThrows : Bool := false
  drawnDelay : Nat := 0
  creationError : Option WebSocketSessionResult := none
  postFailsMeanwhile : Bool := false
  stopsMeanwhile : Bool := false
  deriving DecidableEq, Repr

/-- What `on_session_terminal` finds when it is called. -/
structure Found where
  latched : Bool
  error : LiveCaptureErrorCode
  postFailed : Bool
  failures : Nat
  deriving DecidableEq, Repr

/-- What the controller did, for statements about whole runs. -/
inductive ControllerEvent where
  | sessionCreated (generation connectionEpoch : UInt64)
  | sessionStarted
  | opened (connectionEpoch : UInt64)
  | delivered (message : WebSocketTextMessage)
  | processed (message : WebSocketTextMessage) (result : LivePipelineResult)
  | published
  | messageFailed
  | sessionEnded (result : WebSocketSessionResult) (found : Found)
  | breakerTripped
  | latched (error : LiveCaptureErrorCode)
  | reconnectScheduled
  | stopHandled
  | joined
  | terminalCallback (result : LiveCaptureResult)
  deriving DecidableEq

structure LiveCaptureController where
  pipeline : LiveEventPipeline
  reconnectOptions : LiveReconnectOptions := {}
  hasTerminalCallback : Bool := true
  session : Option WebSocketSession := none
  /-- The generation that the callbacks of the session carry. -/
  sessionGeneration : UInt64 := 1
  result : LiveCaptureResult := {}
  stopRequested : Bool := false
  terminal : Bool := false
  resumePostFailed : Bool := false
  generation : UInt64 := 1
  nextConnectionEpoch : UInt64 := 0
  reconnectAttempt : Nat := 0
  consecutiveMessagePolicyFailures : Nat := 0
  started : Bool := false
  sessionOpen : Bool := false
  epochExhausted : Bool := false
  readsPaused : Bool := false
  failureLatched : Bool := false
  terminalStarted : Bool := false
  /-- The completions of the reconnect timer that have not run, cancelled or not. -/
  reconnectWaits : Nat := 0
  /-- The calls made to the writer, with what they returned. -/
  writerCalls : List (Call × CallResult) := []
  log : List ControllerEvent := []

/-- A callback of a session. -/
inductive SessionNotice where
  | open
  | text (message : WebSocketTextMessage)
  | control (kind : WebSocketControlKind)
  | terminal (result : WebSocketSessionResult)
  deriving DecidableEq

inductive ControllerLabel where
  | start (given : Surroundings)
  | stop
  | requestStopOnIo (given : Surroundings)
  | session (label : SessionLabel) (given : Surroundings)
  | superseded (generation : UInt64) (notice : SessionNotice) (given : Surroundings)
  | reconnectTimer (error : NativeError) (given : Surroundings)
  | stableConnection (generation : UInt64) (error : NativeError)
  | writerResume (given : Surroundings)
  | resumePostFails
  | postedSessionStop (given : Surroundings)
  | backpressureTimeout (error : NativeError) (given : Surroundings)
  deriving DecidableEq

namespace LiveCaptureController

/-- The controller sets every callback of its sessions. -/
def sessionCallbacks : WebSocketSessionCallbacks := ⟨true, true, true, true⟩

def create (pipeline : LiveEventPipeline) (reconnectOptions : LiveReconnectOptions)
    (hasTerminalCallback : Bool) : Option LiveCaptureController :=
  if pipeline.subscription.symbols.length = 0 ∨ reconnectOptions.initialBackoff = 0 ∨
      reconnectOptions.maximumBackoff < reconnectOptions.initialBackoff ∨
      reconnectOptions.stableConnectionReset = 0 then none
  else some
    { pipeline := pipeline, reconnectOptions := reconnectOptions
      hasTerminalCallback := hasTerminalCallback
      session := some (.create sessionCallbacks 0)
      log := [.sessionCreated 1 0] }

def record (c : LiveCaptureController) (event : ControllerEvent) : LiveCaptureController :=
  { c with log := c.log ++ [event] }

/-- A call of the writer. -/
def calling (c : LiveCaptureController) (call : Call) (result : CallResult) :
    LiveCaptureController :=
  { c with writerCalls := c.writerCalls ++ [(call, result)] }

def count (c : LiveCaptureController) (f : LiveCaptureMetrics → LiveCaptureMetrics) :
    LiveCaptureController :=
  { c with result := { c.result with metrics := f c.result.metrics } }

def latch (c : LiveCaptureController) (error : LiveCaptureErrorCode) : LiveCaptureController :=
  { c.record (.latched error) with
    failureLatched := true, result := { c.result with error := error } }

/-- A callback of another generation. -/
def stale (c : LiveCaptureController) : LiveCaptureController :=
  c.count fun m => { m with staleSessionCallbacks := m.staleSessionCallbacks + 1 }

/-! ## Ending and reconnecting -/

/-- The doubling of `select_reconnect_delay`. -/
def backoffCap (maximum : Nat) : Nat → Nat → Nat
  | 0, cap => cap
  | attempts + 1, cap =>
      if cap < maximum then
        backoffCap maximum attempts (if cap > maximum / 2 then maximum else cap * 2)
      else cap

/-- The delay, between half the cap and the cap. -/
def selectReconnectDelay (c : LiveCaptureController) (drawn : Nat) :
    Nat × LiveCaptureController :=
  let cap := min (backoffCap c.reconnectOptions.maximumBackoff c.reconnectAttempt
    c.reconnectOptions.initialBackoff) c.reconnectOptions.maximumBackoff
  let lower := cap / 2
  (max lower (min drawn cap),
    { c with reconnectAttempt :=
        if c.reconnectAttempt ≠ 2 ^ 64 - 1 then c.reconnectAttempt + 1 else c.reconnectAttempt })

/-- The result at the end of a run, with what the writer returned. -/
def finalResult (c : LiveCaptureController) (stopRequested : Bool) (writer : CsvWriterResult) :
    LiveCaptureResult :=
  { c.result with
    stopRequested := stopRequested
    writer := writer
    error := if !writer.success && decide (c.result.error = .none) then .writerFailure
      else c.result.error }

def finalizeRun (c : LiveCaptureController) (given : Surroundings) : LiveCaptureController :=
  if c.terminalStarted then c
  else
    let stopRequested := c.stopRequested || given.stopsMeanwhile
    let result := c.finalResult stopRequested given.joined
    let ended :=
      { (c.calling .join (.joined given.joined)).record .joined with
        terminalStarted := true
        stopRequested := stopRequested
        result := result
        terminal := true
        hasTerminalCallback := false }
    if c.hasTerminalCallback then ended.record (.terminalCallback result) else ended

def handleSessionStopException (c : LiveCaptureController) (given : Surroundings) :
    LiveCaptureController :=
  (if c.failureLatched then c else c.latch .sessionFailure).finalizeRun given

def scheduleReconnect (c : LiveCaptureController) (given : Surroundings) :
    LiveCaptureController :=
  let (delay, c) := c.selectReconnectDelay given.drawnDelay
  let c := c.count fun m =>
    { m with reconnectsScheduled := m.reconnectsScheduled + 1, lastReconnectDelayMs := delay }
  if given.reconnectTimerThrows then (c.latch .reconnectSchedulingFailure).finalizeRun given
  else { c.record .reconnectScheduled with reconnectWaits := c.reconnectWaits + 1 }

/-- The counters of `on_session_terminal`. -/
def countSessionEnd (c : LiveCaptureController) (code : WebSocketSessionErrorCode) :
    LiveCaptureController :=
  if code = .binaryMessage then
    { c.count fun m =>
        { m with completeMessages := m.completeMessages + 1
                 preAuditRejections := m.preAuditRejections + 1
                 binaryMessages := m.binaryMessages + 1 } with
      consecutiveMessagePolicyFailures := c.consecutiveMessagePolicyFailures + 1 }
  else if code = .messageTooBig then
    { c.count fun m => { m with oversizedMessages := m.oversizedMessages + 1 } with
      consecutiveMessagePolicyFailures := c.consecutiveMessagePolicyFailures + 1 }
  else c

def tripBreaker (c : LiveCaptureController) : LiveCaptureController :=
  if c.consecutiveMessagePolicyFailures ≥ messagePolicyBreakerLimit then
    ((c.count fun m =>
      { m with messagePolicyBreakerTrips := m.messagePolicyBreakerTrips + 1 }).latch
        .messagePolicyBreaker).record .breakerTripped
  else c

/-- `on_session_terminal` while a stop is requested. -/
def endStopped (c : LiveCaptureController) (given : Surroundings)
    (sessionResult : WebSocketSessionResult) : LiveCaptureController :=
  let closeHandshakeEnded := decide (sessionResult.stage = .websocketClose) &&
    (decide (sessionResult.code = .closeFailure) || decide (sessionResult.code = .timeout))
  let recoverable := recoverableSessionError sessionResult.code && !closeHandshakeEnded
  let c := if recoverable && !c.failureLatched then
      c.count fun m =>
        { m with recoverableSessionFailures := m.recoverableSessionFailures + 1 }
    else c
  let expected := sessionResult.success || decide (sessionResult.code = .cancelled) ||
    recoverable || closeHandshakeEnded
  (if !expected && !c.failureLatched then c.latch .sessionFailure else c).finalizeRun given

/-- `on_session_terminal` once the counters and the flags are read. -/
def endOrReconnect (c : LiveCaptureController) (given : Surroundings)
    (sessionResult : WebSocketSessionResult) : LiveCaptureController :=
  if c.result.stopRequested then c.endStopped given sessionResult
  else if c.failureLatched then c.finalizeRun given
  else if !recoverableSessionError sessionResult.code then
    (c.latch .sessionFailure).finalizeRun given
  else if c.epochExhausted then (c.latch .connectionEpochOverflow).finalizeRun given
  else
    (c.count fun m =>
      { m with recoverableSessionFailures := m.recoverableSessionFailures + 1 }).scheduleReconnect
        given

def onSessionTerminal (c : LiveCaptureController) (given : Surroundings) (generation : UInt64)
    (sessionResult : WebSocketSessionResult) : LiveCaptureController :=
  if generation ≠ c.generation then c.stale
  else
    let c := { c with
      resumePostFailed := c.resumePostFailed || given.postFailsMeanwhile
      readsPaused := false
      sessionOpen := false
      pipeline := c.pipeline.invalidateAll
      session := none
      result := { c.result with session := sessionResult } }
    let c := c.count fun m =>
      { m with connectionInvalidations :=
          m.connectionInvalidations + c.pipeline.subscription.symbols.length }
    let c := (c.countSessionEnd sessionResult.code).tripBreaker
    let c := { c with result := { c.result with stopRequested := c.stopRequested } }
    let c := if c.resumePostFailed then c.latch .resumeNotificationFailure else c
    c.endOrReconnect given sessionResult

/-- The terminal callback of the session. -/
def sessionEnded (c : LiveCaptureController) (given : Surroundings)
    (sessionResult : WebSocketSessionResult) : LiveCaptureController :=
  (c.record (.sessionEnded sessionResult
    { latched := c.failureLatched, error := c.result.error
      postFailed := c.resumePostFailed || given.postFailsMeanwhile
      failures := c.consecutiveMessagePolicyFailures })).onSessionTerminal given
        c.sessionGeneration sessionResult

/-- The session after a step of it, with its terminal callback if it has ended. -/
def advanceSession (c : LiveCaptureController) (given : Surroundings) (s : WebSocketSession) :
    LiveCaptureController :=
  let c := { c with session := some s }
  match s.notified with
  | some sessionResult => c.sessionEnded given sessionResult
  | none => c

/-- A call into the session; whether it throws comes with it. A session that ends in the call
has nothing left to throw. -/
def callSession (c : LiveCaptureController) (given : Surroundings) (call : SessionCall)
    (completion : Completion) : LiveCaptureController × Bool :=
  match c.session with
  | none => (c, false)
  | some s =>
      match completion with
      | .throwsBefore => (c, true)
      | .returns => (c.advanceSession given (s.call call), false)
      | .throwsAfter =>
          (c.advanceSession given (s.call call), (s.call call).notified.isNone)

/-- The end of `request_stop_on_io` and of `fail`. -/
def stopSession (c : LiveCaptureController) (given : Surroundings) : LiveCaptureController :=
  let (c, threw) := c.callSession given .stop given.sessionStop
  if threw then c.handleSessionStopException given else c

def hasLiveSession (c : LiveCaptureController) : Bool := c.session.any fun s => !s.terminal

def requestStopOnIo (c : LiveCaptureController) (given : Surroundings) :
    LiveCaptureController :=
  let c := c.record .stopHandled
  if c.terminal || c.terminalStarted then c
  else if c.hasLiveSession then c.stopSession given
  else c.finalizeRun given

def fail (c : LiveCaptureController) (given : Surroundings) (error : LiveCaptureErrorCode) :
    LiveCaptureController :=
  if c.failureLatched || c.terminal then c
  else
    let c := c.latch error
    if c.hasLiveSession then
      let (c, threw) := c.callSession given .pauseReads given.sessionPause
      if threw then c.handleSessionStopException given else c.stopSession given
    else c.finalizeRun given

/-! ## Messages -/

/-- Whether it throws comes with it. -/
def pauseForBackpressure (c : LiveCaptureController) (given : Surroundings) :
    LiveCaptureController × Bool :=
  if c.readsPaused || c.failureLatched || c.session.isNone then (c, false)
  else
    let c := { c.count fun m => { m with producerPauses := m.producerPauses + 1 } with
      readsPaused := true }
    let (c, threw) := c.callSession given .pauseReads given.sessionPause
    if threw || given.backpressureTimerThrows then (c, true)
    else (c.calling .armResumeNotification .armed, false)

/-- The last test of `on_open` and of `on_text_message`. -/
def pauseIfFull (c : LiveCaptureController) (given : Surroundings) :
    LiveCaptureController × Bool :=
  let c := c.calling .shouldPause (.shouldPause given.shouldPause)
  if given.shouldPause then c.pauseForBackpressure given else (c, false)

/-- An epoch is used up when a session opens. -/
def useEpoch (c : LiveCaptureController) : LiveCaptureController :=
  if c.nextConnectionEpoch.toNat = 2 ^ 64 - 1 then { c with epochExhausted := true }
  else { c with nextConnectionEpoch := c.nextConnectionEpoch + 1 }

def onOpen (c : LiveCaptureController) (given : Surroundings) (generation : UInt64) :
    LiveCaptureController × Bool :=
  if generation ≠ c.generation then (c.stale, false)
  else
    let c := { c.count fun m => { m with successfulConnections := m.successfulConnections + 1 } with
      sessionOpen := true }.useEpoch
    if given.stabilityTimerThrows then (c, true)
    else if c.stopRequested then (c.requestStopOnIo given, false)
    else c.pauseIfFull given

def onStableConnection (c : LiveCaptureController) (generation : UInt64) (error : NativeError) :
    LiveCaptureController :=
  if error = .operationAborted ∨ c.terminal then c
  else if generation ≠ c.generation ∨ !c.sessionOpen then c.stale
  else { c.count fun m => { m with backoffResets := m.backoffResets + 1 } with
    reconnectAttempt := 0 }

/-- A message that cannot be handled. -/
def failMessage (c : LiveCaptureController) (given : Surroundings)
    (error : LiveCaptureErrorCode) : LiveCaptureController :=
  (c.record .messageFailed).fail given error

/-- The end of `on_text_message` for a batch. -/
def publishBatch (c : LiveCaptureController) (given : Surroundings) (result : LivePipelineResult) :
    LiveCaptureController × Bool :=
  let c := c.count fun m =>
    ({ m with auditEligibleEvents := m.auditEligibleEvents + 1
              processedEvents := m.processedEvents + 1 }).recordEventStatus result.event.status
  let c := c.calling (.publish (result.targetIndex.getD (2 ^ 64 - 1))) (.published given.published)
  match given.published with
  | some error =>
      let c := { c with result := { c.result with writerPublishError := some error } }
      let c := c.calling .failed (.failed given.writerFailed)
      (c.failMessage given
        (if given.writerFailed then .writerFailure else .writerPublishFailure), false)
  | none =>
      let c := { (c.count fun m =>
          { m with batchesPublished := m.batchesPublished + 1 }).record .published with
        consecutiveMessagePolicyFailures := 0 }
      c.pauseIfFull given

/-- `on_text_message` once the pipeline has returned. -/
def onPipelineResult (c : LiveCaptureController) (given : Surroundings)
    (result : LivePipelineResult) : LiveCaptureController × Bool :=
  match result.disposition with
  | .batchReady => c.publishBatch given result
  | .preAuditRejected =>
      ((c.calling .cancel .cancelled).count fun m =>
        ({ m with preAuditRejections := m.preAuditRejections + 1 }).recordEnvelopeRejection
          result.envelopeError, false)
  | .fatalError | .notProcessed =>
      ((c.calling .cancel .cancelled).failMessage given .pipelineFailure, false)

/-- `none` where the pipeline's own assertion would fail. -/
def onTextMessage (c : LiveCaptureController) (json : Library) (given : Surroundings)
    (generation : UInt64) (message : WebSocketTextMessage) :
    Option (LiveCaptureController × Bool) :=
  if generation ≠ c.generation then some (c.stale, false)
  else if c.terminal || c.failureLatched then some (c, false)
  else
    let c := c.count fun m =>
      { m with textMessages := m.textMessages + 1, completeMessages := m.completeMessages + 1 }
    let c := c.calling .tryAcquire (.acquired given.acquired)
    match given.acquired with
    | some error =>
        let c := { c with result := { c.result with writerAcquireError := some error } }
        let c := c.calling .failed (.failed given.writerFailed)
        some (c.failMessage given
          (if given.writerFailed then .writerFailure else .writerAcquireFailure), false)
    | none => do
        let (result, batch, pipeline) ← c.pipeline.process json message
        let c := { (c.record (.processed message result)).calling
            (.fill batch given.auditExcess given.orderBookExcess) .filled with
          pipeline := pipeline
          result := { c.result with pipeline := result } }
        return c.onPipelineResult given result

def onControl (c : LiveCaptureController) (generation : UInt64) (kind : WebSocketControlKind) :
    LiveCaptureController :=
  if generation ≠ c.generation then c.stale
  else
    match kind with
    | .ping => c.count fun m => { m with pingFrames := m.pingFrames + 1 }
    | .pong => c.count fun m => { m with pongFrames := m.pongFrames + 1 }
    | .close => c.count fun m => { m with closeFrames := m.closeFrames + 1 }

/-! ## The other callbacks -/

/-- Whether it throws comes with it. -/
def startCurrentSession (c : LiveCaptureController) (given : Surroundings) :
    LiveCaptureController × Bool :=
  match c.session with
  | none => (c.fail given .reconnectSchedulingFailure, false)
  | some s =>
      let c := c.count fun m => { m with connectionAttempts := m.connectionAttempts + 1 }
      let c := if s.state = .idle ∧ given.sessionStart ≠ .throwsBefore then c.record .sessionStarted
        else c
      c.callSession given .start given.sessionStart

def start (c : LiveCaptureController) (given : Surroundings) : LiveCaptureController :=
  if c.started || c.terminal then c
  else
    let (c, threw) := { c with started := true }.startCurrentSession given
    if threw then { c with started := false } else c

/-- A session for the next epoch, of the current generation. -/
def createSession (c : LiveCaptureController) : LiveCaptureController :=
  { c.record (.sessionCreated c.generation c.nextConnectionEpoch) with
    session := some (.create sessionCallbacks c.nextConnectionEpoch)
    sessionGeneration := c.generation }

def onReconnectTimer (c : LiveCaptureController) (given : Surroundings) (error : NativeError) :
    LiveCaptureController :=
  if error = .operationAborted ∨ c.terminal then c
  else if error ≠ .none then (c.latch .reconnectSchedulingFailure).finalizeRun given
  else if c.stopRequested then c.finalizeRun given
  else if c.generation.toNat = 2 ^ 64 - 1 then
    (c.latch .reconnectSchedulingFailure).finalizeRun given
  else
    let c := { c with generation := c.generation + 1 }
    match given.creationError with
    | some creationError =>
        ({ c with session := none, result := { c.result with session := creationError } }.latch
          .sessionFailure).finalizeRun given
    | none =>
        let (c, threw) := c.createSession.startCurrentSession given
        if threw then (c.latch .reconnectSchedulingFailure).finalizeRun given else c

def onWriterResume (c : LiveCaptureController) (given : Surroundings) : LiveCaptureController :=
  if c.terminal then c
  else if c.resumePostFailed then c.fail given .resumeNotificationFailure
  else
    let c := c.calling .failed (.failed given.writerFailed)
    if given.writerFailed then c.fail given .writerFailure
    else if !c.readsPaused then c
    else
      let c := c.calling .belowResumeWatermark (.belowResumeWatermark given.belowResumeWatermark)
      if !given.belowResumeWatermark then c.calling .armResumeNotification .armed
      else
        let c := { c.count fun m => { m with producerResumes := m.producerResumes + 1 } with
          readsPaused := false }
        let (c, threw) := c.callSession given .resumeReads given.sessionResume
        if threw then c.fail given .resumeNotificationFailure else c

def onBackpressureTimeout (c : LiveCaptureController) (given : Surroundings)
    (error : NativeError) : LiveCaptureController :=
  if error = .operationAborted ∨ c.terminal ∨ !c.readsPaused then c
  else
    let c := c.calling .failed (.failed given.writerFailed)
    c.fail given (if given.writerFailed then .writerFailure else .backpressureTimeout)

/-! ## Handlers -/

/-- A callback of the current session. -/
def onSessionCallback (c : LiveCaptureController) (json : Library) (given : Surroundings)
    (s : WebSocketSession) : SessionCallback → Option (LiveCaptureController × Bool)
  | .open => some ((c.record (.opened s.connectionEpoch)).onOpen given c.sessionGeneration)
  | .text message =>
      (c.record (.delivered message)).onTextMessage json given c.sessionGeneration message
  | .control kind => some (c.onControl c.sessionGeneration kind, false)

/-- The rest of the session's handler, once its callback is over. -/
def afterSessionCallback (c : LiveCaptureController) (given : Surroundings) (threw : Bool) :
    LiveCaptureController :=
  match c.session with
  | none => c
  | some s =>
      match s.step (.returned threw) with
      | some s => c.advanceSession given s
      | none => c

/-- A handler of the session on the I/O thread, with the callback it runs. -/
def onSession (c : LiveCaptureController) (json : Library) (given : Surroundings)
    (label : SessionLabel) : Option LiveCaptureController := do
  let s ← c.session
  let s ← if s.running = none then s.handle label else none
  match s.running with
  | none => some (c.advanceSession given s)
  | some callback => do
      let (c, threw) ← { c with session := some s }.onSessionCallback json given s callback
      some (c.afterSessionCallback given threw)

/-- A callback of a session that is not the current one. -/
def onNotice (c : LiveCaptureController) (json : Library) (given : Surroundings)
    (generation : UInt64) : SessionNotice → Option LiveCaptureController
  | .open => some (c.onOpen given generation).1
  | .text message => (c.onTextMessage json given generation message).map Prod.fst
  | .control kind => some (c.onControl generation kind)
  | .terminal sessionResult => some (c.onSessionTerminal given generation sessionResult)

def step (json : Library) (c : LiveCaptureController) :
    ControllerLabel → Option LiveCaptureController
  | .start given => some (c.start given)
  | .stop => some (if c.terminal then c else { c with stopRequested := true })
  -- the handler is posted by `stop`, after the flag is set
  | .requestStopOnIo given => if c.stopRequested then some (c.requestStopOnIo given) else none
  | .session label given => c.onSession json given label
  | .superseded generation notice given =>
      if generation ≠ c.generation then c.onNotice json given generation notice else none
  | .reconnectTimer error given =>
      if 0 < c.reconnectWaits then
        some ({ c with reconnectWaits := c.reconnectWaits - 1 }.onReconnectTimer given error)
      else none
  | .stableConnection generation error => some (c.onStableConnection generation error)
  | .writerResume given => some (c.onWriterResume given)
  | .resumePostFails => some { c with resumePostFailed := true }
  -- the writer thread stops the session when it cannot post
  | .postedSessionStop given =>
      if c.resumePostFailed then some (c.callSession given .stop .returns).1 else none
  | .backpressureTimeout error given => some (c.onBackpressureTimeout given error)

/-- Controllers of any subscription, under any order of callbacks. -/
def system (json : Library) : Transition.System LiveCaptureController ControllerLabel where
  init c := ∃ venue symbols subscription pipeline options hasTerminalCallback,
    LiveSubscription.create venue symbols = .ok subscription ∧
      LiveEventPipeline.create subscription = .ok pipeline ∧
      create pipeline options hasTerminalCallback = some c
  step c label c' := step json c label = some c'

end LiveCaptureController

end MarketCapture
