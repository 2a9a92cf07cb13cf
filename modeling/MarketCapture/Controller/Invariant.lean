import MarketCapture.Controller.LiveCaptureController
import MarketCapture.Live.Message

/-! # The invariant of the controller

The fields of a controller against its history. `Base` holds at every point of a callback,
`Sound` but for the moment between the third policy failure and the breaker. `Core` adds
that a controller on its way out has something left that ends it: a session that is not
waiting to be started, or nothing because the run is over. All are relative to the callback
of the session that is running.
-/

namespace MarketCapture

open Simdjson

namespace ControllerEvent

def isOpened : ControllerEvent → Bool
  | .opened _ => true
  | _ => false

def isDelivered : ControllerEvent → Bool
  | .delivered _ => true
  | _ => false

def isPublished : ControllerEvent → Bool
  | .published => true
  | _ => false

/-- A session ended on a binary or an oversized message. -/
def isPolicyEnd : ControllerEvent → Bool
  | .sessionEnded result _ => messagePolicyError result.code
  | _ => false

def isSessionEnded : ControllerEvent → Bool
  | .sessionEnded _ _ => true
  | _ => false

def isTerminalCallback : ControllerEvent → Bool
  | .terminalCallback _ => true
  | _ => false

end ControllerEvent

namespace LiveCaptureController

open ControllerEvent

/-- The sessions that have opened. -/
def opens (log : List ControllerEvent) : Nat := log.countP isOpened

/-- The messages of the session that opened last. -/
def deliveredSince (log : List ControllerEvent) : Nat :=
  History.countSince isOpened isDelivered log

/-- The sessions that ended on a message policy since the last published batch. -/
def policyCount (log : List ControllerEvent) : Nat :=
  History.countSince isPublished isPolicyEnd log

def LatchedIn (log : List ControllerEvent) : Prop := ∃ error, .latched error ∈ log

/-- What an event needs of the events before it. -/
def Allowed (earlier : List ControllerEvent) : ControllerEvent → Prop
  | .sessionCreated _ connectionEpoch =>
      ¬ LatchedIn earlier ∧ .stopHandled ∉ earlier ∧ connectionEpoch.toNat = opens earlier
  | .sessionStarted => ¬ LatchedIn earlier ∧ .stopHandled ∉ earlier
  | .opened connectionEpoch => connectionEpoch.toNat = opens earlier
  | .delivered message =>
      message.connectionEpoch.toNat + 1 = opens earlier ∧
        message.connectionSequence.toNat = deliveredSince earlier + 1
  | .processed message result =>
      earlier.getLast? = some (.delivered message) ∧
        result.error ≠ .invalidMessageMetadata ∧ result.event.error ≠ .invalidContext ∧
        ∀ message' result', .processed message' result' ∈ earlier →
          LiveEventPipeline.Precedes message'.connectionEpoch message'.connectionSequence message
  | .published => ¬ LatchedIn earlier
  | .sessionEnded result _ => messagePolicyError result.code = true → policyCount earlier ≤ 2
  | .breakerTripped => policyCount earlier = 3
  | .reconnectScheduled => ¬ LatchedIn earlier ∧ .stopHandled ∉ earlier ∧ .breakerTripped ∉ earlier
  | .joined => .joined ∉ earlier
  | .terminalCallback _ => .joined ∈ earlier ∧ ∀ e ∈ earlier, e.isTerminalCallback = false
  | _ => True

/-- The current session, with the callback it is in. -/
structure SessionOk (running : Option SessionCallback) (log : List ControllerEvent)
    (nextConnectionEpoch : UInt64) (epochExhausted : Bool) (s : WebSocketSession) : Prop where
  inv : s.Inv sessionCallbacks s.connectionEpoch
  live : s.state ≠ .terminal
  calm : s.inControlCallback = false
  running : s.running = running
  before : .opened ∉ s.log → s.connectionEpoch = nextConnectionEpoch ∧ epochExhausted = false
  after : .opened ∈ s.log → s.connectionEpoch.toNat + 1 = opens log ∧
    WebSocketSession.texts s.log = deliveredSince log

structure Base (running : Option SessionCallback) (c : LiveCaptureController) : Prop where
  session : ∀ s, c.session = some s →
    SessionOk running c.log c.nextConnectionEpoch c.epochExhausted s
  generation : c.session.isSome = true → c.sessionGeneration = c.generation
  waits : c.reconnectWaits ≤ 1
  exclusive : c.session.isSome = true → c.reconnectWaits = 0
  finalized : c.terminalStarted = c.terminal
  joined : .joined ∈ c.log → c.terminal = true
  notified : ∀ e ∈ c.log, e.isTerminalCallback = true → c.terminal = true
  latchedLog : LatchedIn c.log ↔ c.failureLatched = true
  latchedError : c.failureLatched = true → c.result.error ≠ .none
  stopped : .stopHandled ∈ c.log → c.stopRequested = true
  quietEnd : c.terminal = true → c.failureLatched = false → c.session = none
  opens : opens c.log = c.nextConnectionEpoch.toNat + if c.epochExhausted then 1 else 0
  exhausted : c.epochExhausted = true → c.nextConnectionEpoch.toNat = 2 ^ 64 - 1
  policy : c.consecutiveMessagePolicyFailures = policyCount c.log
  policyBound : policyCount c.log ≤ 3
  tripped : .breakerTripped ∈ c.log →
    policyCount c.log = 3 ∧ c.failureLatched = true ∧ c.session = none
  pipeline : c.pipeline.Ok ∧ c.pipeline.Behind
  metadata : c.pipeline.hasConnectionMetadata = true →
    c.pipeline.connectionEpoch.toNat + 1 < LiveCaptureController.opens c.log ∨
      c.pipeline.connectionEpoch.toNat + 1 = LiveCaptureController.opens c.log ∧
        c.pipeline.lastConnectionSequence.toNat ≤ deliveredSince c.log
  processed : ∀ message result, .processed message result ∈ c.log →
    c.pipeline.hasConnectionMetadata = true ∧
      (message.connectionEpoch < c.pipeline.connectionEpoch ∨
        message.connectionEpoch = c.pipeline.connectionEpoch ∧
          message.connectionSequence ≤ c.pipeline.lastConnectionSequence)
  rules : History.Always Allowed c.log

/-- The breaker has tripped if it had to. -/
structure Sound (running : Option SessionCallback) (c : LiveCaptureController) : Prop
    extends Base running c where
  policyLimit : policyCount c.log < 3 ∨ .breakerTripped ∈ c.log

/-- A controller that is to end will. -/
def Live (c : LiveCaptureController) : Prop :=
  c.failureLatched = true ∨ .stopHandled ∈ c.log ∨ c.epochExhausted = true →
    c.terminal = true ∨ ∃ s, c.session = some s ∧ s.state ≠ .idle

structure Core (running : Option SessionCallback) (c : LiveCaptureController) : Prop
    extends Sound running c where
  live : c.Live

section Records

variable {running : Option SessionCallback} {c : LiveCaptureController}

theorem opens_concat (log : List ControllerEvent) (event : ControllerEvent) :
    opens (log ++ [event]) = opens log + if event.isOpened then 1 else 0 := by
  simp [opens, List.countP_append, List.countP_singleton]

theorem deliveredSince_concat (log : List ControllerEvent) (event : ControllerEvent) :
    deliveredSince (log ++ [event]) =
      if event.isOpened then 0
      else if event.isDelivered then deliveredSince log + 1 else deliveredSince log :=
  History.countSince_concat _ _ _ _

theorem policyCount_concat (log : List ControllerEvent) (event : ControllerEvent) :
    policyCount (log ++ [event]) =
      if event.isPublished then 0
      else if event.isPolicyEnd then policyCount log + 1 else policyCount log :=
  History.countSince_concat _ _ _ _

theorem Core.count (h : Core running c) (f : LiveCaptureMetrics → LiveCaptureMetrics) :
    Core running (c.count f) := { h with }

theorem Core.calling (h : Core running c) (call : Call) (result : CallResult) :
    Core running (c.calling call result) := { h with }

theorem Sound.count (h : Sound running c) (f : LiveCaptureMetrics → LiveCaptureMetrics) :
    Sound running (c.count f) := { h with }

theorem SessionOk.same {log log' : List ControllerEvent} {next : UInt64} {exhausted : Bool}
    {s : WebSocketSession} (h : SessionOk running log next exhausted s)
    (hopens : LiveCaptureController.opens log' = LiveCaptureController.opens log)
    (hdelivered : deliveredSince log' = deliveredSince log) :
    SessionOk running log' next exhausted s :=
  { h with
    after := fun hopened => by
      rw [hopens, hdelivered]
      exact h.after hopened }

/-- The events that leave every count alone. -/
def Inert : ControllerEvent → Prop
  | .opened _ | .delivered _ | .processed _ _ | .published | .sessionEnded _ _ => False
  | _ => True

/-- The way out: a run latches a failure, ends and tells so, without touching the rest. -/
theorem Base.inert (h : Base running c) (event : ControllerEvent)
    (terminal latched stopRequested hasTerminalCallback : Bool) (result : LiveCaptureResult)
    (writerCalls : List (Call × CallResult)) (hinert : Inert event) (hrule : Allowed c.log event)
    (hterminal : c.terminal = true → terminal = true)
    (hjoined : event = .joined → terminal = true)
    (hnotified : event.isTerminalCallback = true → terminal = true)
    (hlatched : (∃ error, event = .latched error) ∨ c.failureLatched = true ↔ latched = true)
    (herror : latched = true → result.error ≠ .none)
    (hstop : c.stopRequested = true → stopRequested = true)
    (hquiet : terminal = true → latched = false → c.session = none)
    (htripped : event = .breakerTripped →
      policyCount c.log = 3 ∧ latched = true ∧ c.session = none)
    (hhandled : event = .stopHandled → stopRequested = true) :
    Base running
      { c.record event with
        terminalStarted := terminal
        terminal := terminal
        failureLatched := latched
        stopRequested := stopRequested
        hasTerminalCallback := hasTerminalCallback
        result := result
        writerCalls := writerCalls } := by
  have hopens : LiveCaptureController.opens (c.log ++ [event]) =
      LiveCaptureController.opens c.log := by
    rw [opens_concat]
    cases event <;> first | rfl | cases hinert
  have hdelivered : deliveredSince (c.log ++ [event]) = deliveredSince c.log := by
    rw [deliveredSince_concat]
    cases event <;> first | rfl | cases hinert
  have hpolicy : policyCount (c.log ++ [event]) = policyCount c.log := by
    rw [policyCount_concat]
    cases event <;> first | rfl | cases hinert
  have hold : ∀ {e : ControllerEvent}, ¬ Inert e → e ∈ c.log ++ [event] → e ∈ c.log := by
    intro e he hmem
    rcases List.mem_append.mp hmem with hmem | hmem
    · exact hmem
    · rw [List.mem_singleton.mp hmem] at he
      exact absurd hinert he
  exact
    { session := fun s hs => (h.session s hs).same hopens hdelivered
      generation := h.generation
      waits := h.waits
      exclusive := h.exclusive
      finalized := rfl
      joined := fun he => by
        rcases List.mem_append.mp he with he | he
        · exact hterminal (h.joined he)
        · exact hjoined (List.mem_singleton.mp he).symm
      notified := fun e he ht => by
        rcases List.mem_append.mp he with he | he
        · exact hterminal (h.notified e he ht)
        · rw [List.mem_singleton.mp he] at ht
          exact hnotified ht
      latchedLog := by
        show LatchedIn (c.log ++ [event]) ↔ latched = true
        rw [← hlatched, ← h.latchedLog]
        constructor
        · rintro ⟨error, he⟩
          rcases List.mem_append.mp he with he | he
          · exact .inr ⟨error, he⟩
          · exact .inl ⟨error, (List.mem_singleton.mp he).symm⟩
        · rintro (⟨error, rfl⟩ | ⟨error, he⟩)
          · exact ⟨error, by simp⟩
          · exact ⟨error, List.mem_append_left _ he⟩
      latchedError := herror
      stopped := fun he => by
        rcases List.mem_append.mp he with he | he
        · exact hstop (h.stopped he)
        · exact hhandled (List.mem_singleton.mp he).symm
      quietEnd := hquiet
      opens := hopens.trans h.opens
      exhausted := h.exhausted
      policy := h.policy.trans hpolicy.symm
      policyBound := hpolicy.trans_le h.policyBound
      tripped := fun he => by
        rcases List.mem_append.mp he with he | he
        · obtain ⟨hthree, hfailed, hsession⟩ := h.tripped he
          exact ⟨hpolicy.trans hthree, hlatched.mp (.inr hfailed), hsession⟩
        · obtain ⟨hthree, hfailed, hsession⟩ := htripped (List.mem_singleton.mp he).symm
          exact ⟨hpolicy.trans hthree, hfailed, hsession⟩
      pipeline := h.pipeline
      metadata := fun hknown => by
        show _ < LiveCaptureController.opens (c.log ++ [event]) ∨
          _ = LiveCaptureController.opens (c.log ++ [event]) ∧ _ ≤ deliveredSince (c.log ++ [event])
        rw [hopens, hdelivered]
        exact h.metadata hknown
      processed := fun message result he => h.processed message result (hold (fun hi => hi) he)
      rules := History.always_concat.mpr ⟨h.rules, hrule⟩ }

theorem policyLimit_inert {log : List ControllerEvent}
    (h : policyCount log < 3 ∨ .breakerTripped ∈ log) (event : ControllerEvent)
    (hinert : Inert event) :
    policyCount (log ++ [event]) < 3 ∨ .breakerTripped ∈ log ++ [event] := by
  have hpolicy : policyCount (log ++ [event]) = policyCount log := by
    rw [policyCount_concat]
    cases event <;> first | rfl | cases hinert
  rw [hpolicy]
  exact h.imp id (List.mem_append_left _)

/-- Events of no consequence for the flags. -/
theorem Sound.record (h : Sound running c) (event : ControllerEvent) (hinert : Inert event)
    (hrule : Allowed c.log event) (hjoined : event ≠ .joined)
    (hnotified : event.isTerminalCallback = false) (hlatched : ∀ error, event ≠ .latched error)
    (htripped : event ≠ .breakerTripped)
    (hhandled : event = .stopHandled → c.stopRequested = true) :
    Sound running (c.record event) := by
  have hbase := h.toBase.inert event c.terminal c.failureLatched c.stopRequested c.hasTerminalCallback
    c.result c.writerCalls hinert hrule id (fun he => absurd he hjoined)
    (fun ht => by rw [hnotified] at ht; cases ht)
    ⟨fun hl => hl.elim (fun ⟨error, he⟩ => absurd he (hlatched error)) id, .inr⟩
    h.latchedError id h.quietEnd (fun he => absurd he htripped) hhandled
  exact { hbase with
    finalized := h.finalized
    policyLimit := policyLimit_inert h.policyLimit event hinert }

theorem Base.latch (h : Base running c) {error : LiveCaptureErrorCode} (herror : error ≠ .none) :
    Base running (c.latch error) := by
  have hbase := h.inert (.latched error) c.terminal true c.stopRequested c.hasTerminalCallback
    { c.result with error := error } c.writerCalls trivial trivial id
    (fun he => by cases he) (fun he => by cases he)
    ⟨fun _ => rfl, fun _ => .inl ⟨error, rfl⟩⟩ (fun _ => herror) id (fun _ hl => by cases hl)
    nofun nofun
  exact { hbase with finalized := h.finalized }

theorem Sound.latch (h : Sound running c) {error : LiveCaptureErrorCode} (herror : error ≠ .none) :
    Sound running (c.latch error) :=
  { h.toBase.latch herror with policyLimit := policyLimit_inert h.policyLimit (.latched error) trivial }

/-- The end of a run: whatever was left to end it no longer matters. -/
theorem Sound.finalizeRun (h : Sound running c) (hend : c.failureLatched = true ∨ c.session = none)
    (given : Surroundings) : Core running (c.finalizeRun given) := by
  unfold LiveCaptureController.finalizeRun
  split
  · next hstarted =>
      exact { h with live := fun _ => .inl (h.finalized.symm.trans hstarted) }
  · next hstarted =>
      have hopen : c.terminal = false := h.finalized ▸ Bool.eq_false_iff.mpr hstarted
      have hjoined : .joined ∉ c.log := fun he => by
        rw [h.joined he] at hopen
        cases hopen
      have hnone : ∀ e ∈ c.log ++ [.joined], e.isTerminalCallback = false := fun e he => by
        rcases List.mem_append.mp he with he | he
        · by_contra ht
          rw [h.notified e he (by simpa using ht)] at hopen
          cases hopen
        · rw [List.mem_singleton.mp he]
          rfl
      have herror : c.failureLatched = true → ∀ stop writer,
          (c.finalResult stop writer).error ≠ .none := by
        intro hlatched stop writer
        have := h.latchedError hlatched
        simp [finalResult, this]
      have hquiet : c.failureLatched = false → c.session = none := fun hlatched =>
        hend.resolve_left (fun ht => by
          rw [ht] at hlatched
          cases hlatched)
      have hended := h.toBase.inert .joined true c.failureLatched
        (c.stopRequested || given.stopsMeanwhile) false
        (c.finalResult (c.stopRequested || given.stopsMeanwhile) given.joined)
        (c.writerCalls ++ [(.join, .joined given.joined)]) trivial hjoined (fun _ => rfl) (fun _ => rfl) (fun _ => rfl)
        ⟨fun hl => hl.elim (fun ⟨error, he⟩ => by cases he) id, .inr⟩ (fun hl => herror hl _ _)
        (fun hs => by simp [hs]) (fun _ => hquiet) nofun nofun
      dsimp only
      split
      · have htold := hended.inert
          (.terminalCallback (c.finalResult (c.stopRequested || given.stopsMeanwhile) given.joined))
          true c.failureLatched (c.stopRequested || given.stopsMeanwhile) false
          (c.finalResult (c.stopRequested || given.stopsMeanwhile) given.joined)
          (c.writerCalls ++ [(.join, .joined given.joined)]) trivial
          ⟨by simp [LiveCaptureController.record], hnone⟩ (fun _ => rfl) (fun _ => rfl)
          (fun _ => rfl) ⟨fun hl => hl.elim (fun ⟨error, he⟩ => by cases he) id, .inr⟩
          (fun hl => herror hl _ _) id (fun _ => hquiet) nofun nofun
        exact { htold with
          policyLimit := policyLimit_inert (policyLimit_inert h.policyLimit .joined trivial) _ trivial
          live := fun _ => .inl rfl }
      · exact { hended with
          policyLimit := policyLimit_inert h.policyLimit .joined trivial
          live := fun _ => .inl rfl }

/-- A failure that ends the run at once. -/
theorem Sound.latchFinalize (h : Sound running c) {error : LiveCaptureErrorCode}
    (herror : error ≠ .none) (given : Surroundings) :
    Core running ((c.latch error).finalizeRun given) :=
  (h.latch herror).finalizeRun (.inl rfl) given

theorem Sound.handleSessionStopException (h : Sound running c) (given : Surroundings) :
    Core running (c.handleSessionStopException given) := by
  unfold LiveCaptureController.handleSessionStopException
  split
  · next hlatched => exact h.finalizeRun (.inl hlatched) given
  · exact h.latchFinalize (by decide) given

/-! ## The end of a session -/

/-- A controller without a session, that need not end. -/
structure Ongoing (c : LiveCaptureController) : Prop where
  session : c.session = none
  waits : c.reconnectWaits = 0
  unlatched : c.failureLatched = false
  unstopped : .stopHandled ∉ c.log
  unexhausted : c.epochExhausted = false

theorem Sound.unlatched (h : Sound running c) (hlatched : c.failureLatched = false) :
    ¬ LatchedIn c.log ∧ .breakerTripped ∉ c.log := by
  constructor
  · intro hin
    rw [h.latchedLog.mp hin] at hlatched
    cases hlatched
  · intro he
    rw [(h.tripped he).2.1] at hlatched
    cases hlatched

theorem Sound.scheduleReconnect (h : Sound running c) (hon : Ongoing c) (given : Surroundings) :
    Core running (c.scheduleReconnect given) := by
  have hcounted : Sound running ((c.selectReconnectDelay given.drawnDelay).2.count fun m =>
      { m with reconnectsScheduled := m.reconnectsScheduled + 1
               lastReconnectDelayMs := (c.selectReconnectDelay given.drawnDelay).1 }) :=
    { h with }
  unfold LiveCaptureController.scheduleReconnect
  dsimp only
  split
  · exact hcounted.latchFinalize (by decide) given
  · obtain ⟨hunlatched, huntripped⟩ := h.unlatched hon.unlatched
    have hrecorded := hcounted.record .reconnectScheduled trivial
      ⟨hunlatched, hon.unstopped, huntripped⟩ nofun rfl nofun nofun nofun
    exact
      { hrecorded with
        waits := by
          show c.reconnectWaits + 1 ≤ 1
          rw [hon.waits]
        exclusive := fun hsome => by
          have hnone : c.session.isSome = true := hsome
          rw [hon.session] at hnone
          cases hnone
        live := fun hwhy => by
          rcases hwhy with hl | hs | he
          · have hfalse := hon.unlatched
            rw [show c.failureLatched = true from hl] at hfalse
            cases hfalse
          · exact absurd (by simpa [LiveCaptureController.record, LiveCaptureController.count,
              selectReconnectDelay] using hs) hon.unstopped
          · have hfalse := hon.unexhausted
            rw [show c.epochExhausted = true from he] at hfalse
            cases hfalse }

theorem Sound.endStopped (h : Sound running c) (hnone : c.session = none) (given : Surroundings)
    (sessionResult : WebSocketSessionResult) :
    Core running (c.endStopped given sessionResult) := by
  have hend : ∀ d : LiveCaptureController, Sound running d → d.session = none → ∀ b : Bool,
      Core running ((if b = true then d.latch .sessionFailure else d).finalizeRun given) := by
    intro d hd hsession b
    cases b
    · exact hd.finalizeRun (.inr hsession) given
    · exact hd.latchFinalize (by decide) given
  unfold LiveCaptureController.endStopped
  dsimp only
  split
  · exact hend _ (h.count _) hnone _
  · exact hend c h hnone _

theorem Sound.endOrReconnect (h : Sound running c) (hnone : c.session = none)
    (hwaits : c.reconnectWaits = 0) (hstop : c.stopRequested = true → c.result.stopRequested = true)
    (given : Surroundings) (sessionResult : WebSocketSessionResult) :
    Core running (c.endOrReconnect given sessionResult) := by
  unfold LiveCaptureController.endOrReconnect
  split
  · exact h.endStopped hnone given sessionResult
  · next hstopped =>
      split
      · next hlatched => exact h.finalizeRun (.inl hlatched) given
      · next hlatched =>
          split
          · exact h.latchFinalize (by decide) given
          · split
            · exact h.latchFinalize (by decide) given
            · next hexhausted =>
                refine Sound.scheduleReconnect (h.count _) ⟨hnone, hwaits, ?_, ?_, ?_⟩ given
                · exact Bool.eq_false_iff.mpr hlatched
                · exact fun he => hstopped (hstop (h.stopped he))
                · exact Bool.eq_false_iff.mpr hexhausted

/-- The session is gone and what it did to the breaker is counted. -/
theorem Sound.sessionGone (h : Sound running c) (hsome : c.session.isSome = true)
    (sessionResult : WebSocketSessionResult) (found : Found) (next : LiveCaptureController)
    (hsession : next.session = none) (hlog : next.log = c.log ++ [.sessionEnded sessionResult found])
    (hfailures : next.consecutiveMessagePolicyFailures = c.consecutiveMessagePolicyFailures +
      if messagePolicyError sessionResult.code then 1 else 0)
    (hpipeline : next.pipeline = c.pipeline.invalidateAll)
    (hwaits : next.reconnectWaits = c.reconnectWaits)
    (hstarted : next.terminalStarted = c.terminalStarted) (hterminal : next.terminal = c.terminal)
    (hlatched : next.failureLatched = c.failureLatched)
    (herror : next.result.error = c.result.error) (hstop : next.stopRequested = c.stopRequested)
    (hepoch : next.nextConnectionEpoch = c.nextConnectionEpoch)
    (hexhausted : next.epochExhausted = c.epochExhausted) (running' : Option SessionCallback) :
    Base running' next ∧ (next.consecutiveMessagePolicyFailures < 3 → Sound running' next) := by
  have huntripped : .breakerTripped ∉ c.log := fun he => by
    rw [(h.tripped he).2.2] at hsome
    cases hsome
  have hlow : policyCount c.log ≤ 2 := by
    have := h.policyLimit.resolve_right huntripped
    omega
  have hcount : policyCount next.log = policyCount c.log +
      if messagePolicyError sessionResult.code then 1 else 0 := by
    rw [hlog, policyCount_concat]
    by_cases hp : messagePolicyError sessionResult.code = true <;>
      simp [isPublished, isPolicyEnd, hp]
  have hopens : LiveCaptureController.opens next.log = LiveCaptureController.opens c.log := by
    rw [hlog, opens_concat]
    rfl
  have hdelivered : deliveredSince next.log = deliveredSince c.log := by
    rw [hlog, deliveredSince_concat]
    rfl
  have hmem : ∀ e : ControllerEvent, e.isSessionEnded = false → (e ∈ next.log ↔ e ∈ c.log) := by
    intro e hne
    rw [hlog, List.mem_append, List.mem_singleton]
    exact or_iff_left (fun he => by
      rw [he] at hne
      cases hne)
  have hbound : policyCount next.log ≤ 3 := by
    rw [hcount]
    split <;> omega
  have hpolicy : next.consecutiveMessagePolicyFailures = policyCount next.log := by
    rw [hfailures, hcount, h.policy]
  have hbase : Base running' next :=
    { session := fun s hs => by
        rw [hsession] at hs
        cases hs
      generation := fun hs => by
        rw [hsession] at hs
        cases hs
      waits := hwaits ▸ h.waits
      exclusive := fun hs => by
        rw [hsession] at hs
        cases hs
      finalized := by rw [hstarted, hterminal, h.finalized]
      joined := fun he => hterminal.trans (h.joined ((hmem .joined rfl).mp he))
      notified := fun e he ht => by
        have hne : e.isSessionEnded = false := by
          cases e <;> first | rfl | cases ht
        exact hterminal.trans (h.notified e ((hmem e hne).mp he) ht)
      latchedLog := by
        rw [hlatched, ← h.latchedLog]
        exact exists_congr fun error => hmem (.latched error) rfl
      latchedError := fun hl => by
        rw [herror]
        exact h.latchedError (hlatched.symm.trans hl)
      stopped := fun he => hstop.trans (h.stopped ((hmem .stopHandled rfl).mp he))
      quietEnd := fun _ _ => hsession
      opens := by rw [hopens, hepoch, hexhausted, h.opens]
      exhausted := fun he => by
        rw [hepoch]
        exact h.exhausted (hexhausted.symm.trans he)
      policy := hpolicy
      policyBound := hbound
      tripped := fun he => absurd ((hmem .breakerTripped rfl).mp he) huntripped
      pipeline := by
        rw [hpipeline]
        exact ⟨h.pipeline.1.invalidateAll, h.pipeline.2.invalidateAll⟩
      metadata := fun hknown => by
        rw [hopens, hdelivered, hpipeline]
        exact h.metadata (by rw [hpipeline] at hknown; exact hknown)
      processed := fun message result he => by
        rw [hpipeline]
        exact h.processed message result ((hmem (.processed message result) rfl).mp he)
      rules := by
        rw [hlog]
        exact History.always_concat.mpr ⟨h.rules, fun _ => hlow⟩ }
  exact ⟨hbase, fun hthree => { hbase with policyLimit := .inl (hpolicy ▸ hthree) }⟩

/-- The breaker trips at the third failure. -/
theorem Base.tripBreaker (h : Base running c) (hsession : c.session = none)
    (hlow : c.consecutiveMessagePolicyFailures < 3 → Sound running c) :
    Sound running c.tripBreaker := by
  unfold LiveCaptureController.tripBreaker
  split
  · next hthree =>
      have hcount : policyCount c.log = 3 := by
        have := h.policyBound
        have hlimit : messagePolicyBreakerLimit = 3 := rfl
        rw [h.policy] at hthree
        omega
      have hcounted : Base running (c.count fun m =>
          { m with messagePolicyBreakerTrips := m.messagePolicyBreakerTrips + 1 }) := { h with }
      have hlatched := hcounted.latch (show LiveCaptureErrorCode.messagePolicyBreaker ≠ .none by
        decide)
      have hfour : policyCount (c.log ++ [.latched .messagePolicyBreaker]) = 3 :=
        (policyCount_concat _ _).trans hcount
      have hbase := hlatched.inert .breakerTripped c.terminal true c.stopRequested
        c.hasTerminalCallback _ c.writerCalls trivial hfour id nofun nofun
        ⟨fun _ => rfl, .inr⟩ hlatched.latchedError id nofun (fun _ => ⟨hfour, rfl, hsession⟩)
        nofun
      exact { hbase with
        finalized := h.finalized
        policyLimit := .inr (by simp [LiveCaptureController.record]) }
  · next hthree =>
      refine hlow ?_
      have hlimit : messagePolicyBreakerLimit = 3 := rfl
      omega

theorem countSessionEnd_eq (c : LiveCaptureController) (code : WebSocketSessionErrorCode) :
    ∃ metrics, c.countSessionEnd code =
      { c with
        result := { c.result with metrics := metrics }
        consecutiveMessagePolicyFailures := c.consecutiveMessagePolicyFailures +
          if messagePolicyError code then 1 else 0 } := by
  unfold countSessionEnd
  split
  · next hbinary =>
      rw [hbinary]
      exact ⟨_, rfl⟩
  · next hbinary =>
      split
      · next hbig =>
          rw [hbig]
          exact ⟨_, rfl⟩
      · next hbig =>
          have hother : messagePolicyError code = false := by simp [messagePolicyError, hbinary, hbig]
          rw [hother]
          exact ⟨_, rfl⟩

theorem tripBreaker_session (c : LiveCaptureController) : c.tripBreaker.session = c.session := by
  unfold tripBreaker
  split <;> rfl

theorem tripBreaker_reconnectWaits (c : LiveCaptureController) :
    c.tripBreaker.reconnectWaits = c.reconnectWaits := by
  unfold tripBreaker
  split <;> rfl

/-- Nothing is left of a session that ended but what the controller makes of it. -/
theorem Sound.sessionEnded (h : Sound running c) (hsome : c.session.isSome = true)
    (session : Option WebSocketSession) (given : Surroundings)
    (sessionResult : WebSocketSessionResult) (running' : Option SessionCallback) :
    Core running' ({ c with session := session }.sessionEnded given sessionResult) := by
  have hgeneration := h.generation hsome
  have hwaits := h.exclusive hsome
  unfold LiveCaptureController.sessionEnded onSessionTerminal
  rw [if_neg (by simpa [LiveCaptureController.record] using hgeneration)]
  dsimp only
  generalize hnext : LiveCaptureController.countSessionEnd _ sessionResult.code = next
  obtain ⟨metrics, heq⟩ := countSessionEnd_eq _ _
  rw [hnext] at heq
  obtain ⟨hbase, hlow⟩ : Base running' next ∧
      (next.consecutiveMessagePolicyFailures < 3 → Sound running' next) := by
    refine h.sessionGone hsome sessionResult ⟨c.failureLatched, c.result.error,
      c.resumePostFailed || given.postFailsMeanwhile, c.consecutiveMessagePolicyFailures⟩ next
      ?_ ?_ ?_ ?_ ?_ ?_ ?_ ?_ ?_ ?_ ?_ ?_ running' <;> rw [heq] <;> rfl
  have hnone : next.session = none := by rw [heq]; rfl
  have hkept : next.reconnectWaits = c.reconnectWaits := by rw [heq]; rfl
  have htripped := hbase.tripBreaker hnone hlow
  have hgone := (tripBreaker_session next).trans hnone
  have hquiet := (tripBreaker_reconnectWaits next).trans (hkept.trans hwaits)
  have hread : Sound running' { next.tripBreaker with
      result := { next.tripBreaker.result with
        stopRequested := next.tripBreaker.stopRequested } } := { htripped with }
  split
  · have hlatched := hread.latch
      (show LiveCaptureErrorCode.resumeNotificationFailure ≠ .none by decide)
    exact hlatched.endOrReconnect hgone hquiet id given sessionResult
  · exact hread.endOrReconnect hgone hquiet id given sessionResult

end Records

end LiveCaptureController

end MarketCapture
