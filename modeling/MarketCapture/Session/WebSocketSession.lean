import MarketCapture.Lib.History
import MarketCapture.Lib.Transition
import MarketCapture.Live.Pipeline

/-! # The verified WebSocket session

One handler at a time runs on the strand of the session: a call of its owner, the
completion of an asynchronous operation, an expired deadline or a control frame. A
handler that runs a callback of the owner stops there; the calls the callback makes
and its return are steps of their own, so a callback may do anything the interface
allows. Completions come at any time, with any error.
-/

namespace MarketCapture

inductive WebSocketSessionStage where
  | none | configuration | resolve | connect | sni | tlsHandshake | websocketHandshake
  | open | read | websocketClose
  deriving DecidableEq, Repr

inductive WebSocketSessionErrorCode where
  | none
  | invalidConfiguration
  | allocationFailure
  | trustStoreFailure
  | tlsPolicyFailure
  | resolveFailure
  | connectFailure
  | sniFailure
  | tlsVerificationFailure
  | tlsHandshakeFailure
  | websocketHandshakeFailure
  | readFailure
  | incompleteMessage
  | binaryMessage
  | messageTooBig
  | remoteClose
  | sequenceOverflow
  | timestampFailure
  | closeFailure
  | callbackFailure
  | timeout
  | cancelled
  deriving DecidableEq, Repr

/-- The error codes of the transport, as far as the code tells them apart. -/
inductive NativeError where
  | none | operationAborted | timedOut | invalidArgument | messageTooBig | bufferOverflow
  | closed | openssl | other
  deriving DecidableEq, Repr

structure WebSocketSessionResult where
  code : WebSocketSessionErrorCode := .none
  stage : WebSocketSessionStage := .none
  nativeError : NativeError := .none
  lastConnectionSequence : UInt64 := 0
  deriving DecidableEq, Repr

def WebSocketSessionResult.success (result : WebSocketSessionResult) : Bool :=
  decide (result.code = .none)

inductive WebSocketControlKind where
  | ping | pong | close
  deriving DecidableEq, Repr

/-- Which callbacks the owner has set. -/
structure WebSocketSessionCallbacks where
  onOpen : Bool := false
  onTextMessage : Bool := false
  onControl : Bool := false
  onTerminal : Bool := false
  deriving DecidableEq, Repr

inductive SessionState where
  | idle | resolving | connecting | tlsHandshaking | websocketHandshaking | open | closing
  | terminal
  deriving DecidableEq, Repr

/-- The callback a handler is in. -/
inductive SessionCallback where
  | open
  | text (message : WebSocketTextMessage)
  | control (kind : WebSocketControlKind)
  deriving DecidableEq

/-- What a session did, for statements about whole runs. -/
inductive SessionEvent where
  | startRequested | stopRequested | pauseRequested | resumeRequested
  | readIssued | readCompleted
  | opened
  | finished (result : WebSocketSessionResult)
  | callbackThrew
  | onOpen
  | onTextMessage (message : WebSocketTextMessage)
  | onControl (kind : WebSocketControlKind)
  | onTerminal (result : WebSocketSessionResult)
  deriving DecidableEq

structure WebSocketSession where
  callbacks : WebSocketSessionCallbacks
  state : SessionState := .idle
  startRequested : Bool := false
  readInProgress : Bool := false
  inControlCallback : Bool := false
  stopRequestedDuringControl : Bool := false
  controlCallbackFailed : Bool := false
  readsPaused : Bool := false
  connectionEpoch : UInt64
  connectionSequence : UInt64 := 0
  /-- The callback that is running, if any. -/
  running : Option SessionCallback := none
  /-- What the terminal callback got. -/
  notified : Option WebSocketSessionResult := none
  /-- The reads handed to the transport that have not completed. -/
  pendingReads : Nat := 0
  log : List SessionEvent := []
  deriving DecidableEq

/-- The end of a read: the transport's answer, the buffer, and the clock in seconds and
nanoseconds. -/
structure ReadCompletion where
  error : NativeError := .none
  bytesTransferred : Nat := 0
  buffer : Bytes := []
  gotText : Bool := true
  seconds : Int := 0
  nanoseconds : Int := 0
  deriving DecidableEq

inductive SessionCall where
  | start | stop | pauseReads | resumeReads
  deriving DecidableEq, Repr

inductive SessionLabel where
  | call (call : SessionCall)
  | resolved (error : NativeError)
  | connected (error : NativeError) (hostNameSet : Bool)
  | tlsHandshaken (error : NativeError) (verified : Bool)
  | handshaken (error : NativeError)
  | read (completion : ReadCompletion)
  | closed (error : NativeError)
  | deadline (expectedState : SessionState) (error : NativeError)
  | controlFrame (kind : WebSocketControlKind)
  | returned (threw : Bool)
  deriving DecidableEq

/-- `terminal_flag` is stored together with the state. -/
def WebSocketSession.terminal (s : WebSocketSession) : Bool := decide (s.state = .terminal)

namespace WebSocketSession

def create (callbacks : WebSocketSessionCallbacks) (connectionEpoch : UInt64) :
    WebSocketSession :=
  { callbacks := callbacks, connectionEpoch := connectionEpoch }

def record (s : WebSocketSession) (event : SessionEvent) : WebSocketSession :=
  { s with log := s.log ++ [event] }

def activeStage (s : WebSocketSession) : WebSocketSessionStage :=
  match s.state with
  | .idle => .none
  | .resolving => .resolve
  | .connecting => .connect
  | .tlsHandshaking => .tlsHandshake
  | .websocketHandshaking => .websocketHandshake
  | .open => if s.readInProgress then .read else .open
  | .closing => .websocketClose
  | .terminal => .none

/-- The stage that `arm_deadline` reports for the state it waits in. -/
def deadlineStage : SessionState → Option WebSocketSessionStage
  | .resolving => some .resolve
  | .connecting => some .connect
  | .tlsHandshaking => some .tlsHandshake
  | .websocketHandshaking => some .websocketHandshake
  | .closing => some .websocketClose
  | .idle | .open | .terminal => none

def captureReceiveTimestamp (seconds nanoseconds : Int) : Option CsvTimestamp :=
  if seconds < Int64.minValue.toInt ∨ seconds > Int64.maxValue.toInt ∨ nanoseconds < 0 ∨
      nanoseconds ≥ nanosecondsPerSecond then none
  else some { seconds := Int64.ofInt seconds, nanoseconds := Int32.ofInt nanoseconds }

/-- The session with its resources gone and its callbacks moved out. -/
def ended (s : WebSocketSession) (result : WebSocketSessionResult) : WebSocketSession :=
  { s.record (.finished result) with
    state := .terminal
    callbacks := {}
    notified := if s.callbacks.onTerminal then some result else none }

/-- The terminal callback is the last thing `finish` does. -/
def finish (s : WebSocketSession) (code : WebSocketSessionErrorCode)
    (stage : WebSocketSessionStage) (nativeError : NativeError) : WebSocketSession :=
  if s.state = .terminal then s
  else
    let result : WebSocketSessionResult :=
      { code := code, stage := stage, nativeError := nativeError,
        lastConnectionSequence := s.connectionSequence }
    if s.callbacks.onTerminal then (s.ended result).record (.onTerminal result) else s.ended result

def issueRead (s : WebSocketSession) : WebSocketSession :=
  if s.state ≠ .open ∨ s.readInProgress then s
  else { s.record .readIssued with readInProgress := true, pendingReads := s.pendingReads + 1 }

/-- The end of the handlers that read on. -/
def readOn (s : WebSocketSession) : WebSocketSession :=
  if s.state = .open ∧ !s.readsPaused then s.issueRead else s

/-- The result of a failed read. -/
def readErrorCode (completion : ReadCompletion) : WebSocketSessionErrorCode :=
  if completion.error = .messageTooBig ∨ completion.error = .bufferOverflow then .messageTooBig
  else if completion.error = .closed then .remoteClose
  else if completion.buffer.length ≠ 0 then .incompleteMessage
  else .readFailure

/-- `on_read` once the sequence number is assigned, up to the text callback. -/
def deliver (s : WebSocketSession) (completion : ReadCompletion) : WebSocketSession :=
  match captureReceiveTimestamp completion.seconds completion.nanoseconds with
  | none => s.finish .timestampFailure .read .none
  | some timestamp =>
      if !completion.gotText then s.finish .binaryMessage .read .none
      else if !s.callbacks.onTextMessage then s.finish .callbackFailure .read .none
      else
        let message : WebSocketTextMessage :=
          { receiveTimestamp := timestamp, connectionEpoch := s.connectionEpoch,
            connectionSequence := s.connectionSequence, payload := completion.buffer }
        { s.record (.onTextMessage message) with running := some (.text message) }

def onRead (s : WebSocketSession) (completion : ReadCompletion) : WebSocketSession :=
  if !s.readInProgress then s
  else
    let s := { s with readInProgress := false }
    if s.state ≠ .open then s
    else if s.controlCallbackFailed then s.finish .callbackFailure .read completion.error
    else if s.stopRequestedDuringControl then s.finish .cancelled .read completion.error
    else if completion.error ≠ .none then
      s.finish (readErrorCode completion) .read completion.error
    else if completion.bytesTransferred ≠ completion.buffer.length then
      s.finish .readFailure .read .invalidArgument
    else if s.connectionSequence.toNat = 2 ^ 64 - 1 then s.finish .sequenceOverflow .read .none
    else { s with connectionSequence := s.connectionSequence + 1 }.deliver completion

def start (s : WebSocketSession) : WebSocketSession :=
  if s.state ≠ .idle ∨ s.startRequested then s
  else { s with startRequested := true, state := .resolving }

def onResolve (s : WebSocketSession) (error : NativeError) : WebSocketSession :=
  if s.state ≠ .resolving then s
  else if error ≠ .none then s.finish .resolveFailure .resolve error
  else { s with state := .connecting }

def onConnect (s : WebSocketSession) (error : NativeError) (hostNameSet : Bool) :
    WebSocketSession :=
  if s.state ≠ .connecting then s
  else if error ≠ .none then s.finish .connectFailure .connect error
  else if !hostNameSet then s.finish .sniFailure .sni .openssl
  else { s with state := .tlsHandshaking }

def onTlsHandshake (s : WebSocketSession) (error : NativeError) (verified : Bool) :
    WebSocketSession :=
  if s.state ≠ .tlsHandshaking then s
  else if error ≠ .none then
    s.finish (if verified then .tlsHandshakeFailure else .tlsVerificationFailure)
      .tlsHandshake error
  else { s with state := .websocketHandshaking }

/-- The completion of the WebSocket handshake, up to the open callback. -/
def onHandshake (s : WebSocketSession) (error : NativeError) : WebSocketSession :=
  if s.state ≠ .websocketHandshaking then s
  else if error ≠ .none then
    s.finish .websocketHandshakeFailure .websocketHandshake error
  else
    let s := { s.record .opened with state := .open }
    if s.callbacks.onOpen then { s.record .onOpen with running := some .open } else s.readOn

def pauseReads (s : WebSocketSession) : WebSocketSession :=
  if s.state ≠ .terminal then { s with readsPaused := true } else s

def resumeReads (s : WebSocketSession) : WebSocketSession :=
  if s.state = .terminal then s else { s with readsPaused := false }.issueRead

def stop (s : WebSocketSession) : WebSocketSession :=
  if s.state = .terminal then s
  else if s.state = .closing then s
  else if s.inControlCallback then { s with stopRequestedDuringControl := true }
  else if s.state ≠ .open then s.finish .cancelled s.activeStage .operationAborted
  else { s with state := .closing }

def onClose (s : WebSocketSession) (error : NativeError) : WebSocketSession :=
  if s.state ≠ .closing then s
  else if s.controlCallbackFailed then s.finish .callbackFailure .websocketClose error
  else if error ≠ .none ∧ error ≠ .closed then s.finish .closeFailure .websocketClose error
  else s.finish .none .none .none

def onDeadline (s : WebSocketSession) (expectedState : SessionState)
    (stage : WebSocketSessionStage) (error : NativeError) : WebSocketSession :=
  if error = .operationAborted ∨ s.state ≠ expectedState ∨ s.state = .terminal then s
  else s.finish .timeout stage .timedOut

def onControlFrame (s : WebSocketSession) (kind : WebSocketControlKind) : WebSocketSession :=
  if !s.callbacks.onControl then s
  else
    { s.record (.onControl kind) with inControlCallback := true, running := some (.control kind) }

/-- What a handler does once the callback it runs is over. -/
def afterCallback (s : WebSocketSession) (threw : Bool) : SessionCallback → WebSocketSession
  | .open => (if threw then s.finish .callbackFailure .open .none else s).readOn
  | .text _ => if threw then s.finish .callbackFailure .read .none else s.readOn
  | .control _ =>
      { s with inControlCallback := false
               controlCallbackFailed := s.controlCallbackFailed || threw }

def returned (s : WebSocketSession) (callback : SessionCallback) (threw : Bool) :
    WebSocketSession :=
  (if threw then s.record .callbackThrew else s).afterCallback threw callback

def call (s : WebSocketSession) : SessionCall → WebSocketSession
  | .start => (s.record .startRequested).start
  | .stop => (s.record .stopRequested).stop
  | .pauseReads => (s.record .pauseRequested).pauseReads
  | .resumeReads => (s.record .resumeRequested).resumeReads

/-- A handler of the transport; `none` where the transport has nothing to say. -/
def handle (s : WebSocketSession) : SessionLabel → Option WebSocketSession
  | .resolved error => some (s.onResolve error)
  | .connected error hostNameSet => some (s.onConnect error hostNameSet)
  | .tlsHandshaken error verified => some (s.onTlsHandshake error verified)
  | .handshaken error => some (s.onHandshake error)
  | .read completion =>
      -- the read buffer is static, and only reads that were issued complete
      if 0 < s.pendingReads ∧ completion.buffer.length ≤ maxPayloadBytes then
        some ({ s.record .readCompleted with pendingReads := s.pendingReads - 1 }.onRead
          completion)
      else none
  | .closed error => some (s.onClose error)
  | .deadline expectedState error =>
      (deadlineStage expectedState).map fun stage => s.onDeadline expectedState stage error
  | .controlFrame kind => some (s.onControlFrame kind)
  | .call _ | .returned _ => none

def step (s : WebSocketSession) : SessionLabel → Option WebSocketSession
  | .call c => some (s.call c)
  | .returned threw =>
      s.running.map fun callback => { s with running := none }.returned callback threw
  | label => if s.running = none then s.handle label else none

/-- Sessions with any callbacks set and any epoch, under any order of steps. -/
def system (callbacks : WebSocketSessionCallbacks) (connectionEpoch : UInt64) :
    Transition.System WebSocketSession SessionLabel where
  init s := s = create callbacks connectionEpoch
  step s label s' := s.step label = some s'

end WebSocketSession

end MarketCapture
