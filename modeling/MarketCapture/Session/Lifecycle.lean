import MarketCapture.Session.WebSocketSession

/-! # The life of a session

What a session does is judged by its history: each event must be allowed by the events
before it (`Allowed`), and the invariant ties the fields of the session to its history, so
that the tests the handlers make are tests on the past. The strand gives no other
guarantee than that handlers do not overlap.
-/

namespace MarketCapture

namespace SessionEvent

def isText : SessionEvent → Bool
  | .onTextMessage _ => true
  | _ => false

def isFinished : SessionEvent → Bool
  | .finished _ => true
  | _ => false

def isTerminal : SessionEvent → Bool
  | .onTerminal _ => true
  | _ => false

def isControl : SessionEvent → Bool
  | .onControl _ => true
  | _ => false

end SessionEvent

namespace WebSocketSession

open SessionEvent Transition

/-- The text messages delivered. -/
def texts (log : List SessionEvent) : Nat := log.countP isText

/-- Reads issued and not completed. -/
def outstanding (log : List SessionEvent) : Nat :=
  log.count .readIssued - log.count .readCompleted

/-- The last request of the read gate was a pause. -/
def pausedIn (log : List SessionEvent) : Bool :=
  History.switched (fun event => decide (event = .pauseRequested))
    (fun event => decide (event = .resumeRequested)) log

/-- The session ended on a message that has a sequence number and was not delivered. -/
def EndedUndelivered (callbacks : WebSocketSessionCallbacks) (earlier : List SessionEvent)
    (result : WebSocketSessionResult) : Prop :=
  result.code = .binaryMessage ∨ result.code = .timestampFailure ∨
    (result.code = .callbackFailure ∧ result.stage = .read ∧
      callbacks.onTextMessage = false ∧ .callbackThrew ∉ earlier)

instance (callbacks : WebSocketSessionCallbacks) (earlier : List SessionEvent)
    (result : WebSocketSessionResult) : Decidable (EndedUndelivered callbacks earlier result) :=
  inferInstanceAs (Decidable (_ ∨ _))

/-- What an event needs of the events before it. -/
def Allowed (callbacks : WebSocketSessionCallbacks) (connectionEpoch : UInt64)
    (earlier : List SessionEvent) : SessionEvent → Prop
  | .opened => .opened ∉ earlier
  | .onOpen => .onOpen ∉ earlier ∧ ∀ e ∈ earlier, e.isTerminal = false
  | .onTextMessage message =>
      .opened ∈ earlier ∧ (callbacks.onOpen = true → .onOpen ∈ earlier) ∧
        .stopRequested ∉ earlier ∧ .callbackThrew ∉ earlier ∧
        (∀ e ∈ earlier, e.isFinished = false) ∧ (∀ e ∈ earlier, e.isTerminal = false) ∧
        message.connectionEpoch = connectionEpoch ∧
        message.connectionSequence.toNat = texts earlier + 1 ∧
        earlier.getLast? = some .readCompleted
  | .onControl _ => ∀ e ∈ earlier, e.isTerminal = false
  | .onTerminal result =>
      .finished result ∈ earlier ∧ ∀ e ∈ earlier, e.isTerminal = false
  | .readIssued =>
      pausedIn earlier = false ∧ earlier.count .readIssued = earlier.count .readCompleted
  | .readCompleted => earlier.count .readIssued = earlier.count .readCompleted + 1
  | .finished result =>
      result.lastConnectionSequence.toNat =
        texts earlier + if EndedUndelivered callbacks earlier result then 1 else 0
  | _ => True

/-- The fields of a session against its history, as far as a finished session needs them. A
handler that has given out a sequence number and not yet said for what has `undelivered` of
them. -/
structure Base (configured : WebSocketSessionCallbacks) (connectionEpoch : UInt64)
    (undelivered : Nat) (s : WebSocketSession) : Prop where
  callbacks : s.state ≠ .terminal → s.callbacks = configured
  cleared : s.state = .terminal → s.callbacks = {}
  epoch : s.connectionEpoch = connectionEpoch
  finished : ∀ e ∈ s.log, e.isFinished = true → s.state = .terminal
  notified : ∀ e ∈ s.log, e.isTerminal = true → s.state = .terminal
  onOpen : .onOpen ∈ s.log → .opened ∈ s.log
  threwOnce : s.controlCallbackFailed = true → .callbackThrew ∈ s.log
  reads : s.log.count .readIssued = s.log.count .readCompleted + s.pendingReads
  oneRead : s.pendingReads = if s.readInProgress then 1 else 0
  sequence : s.state ≠ .terminal → s.connectionSequence.toNat = texts s.log + undelivered
  untold : s.state ≠ .terminal → s.notified = none
  told : configured.onTerminal = true → s.state = .terminal → s.notified.isSome = true
  rules : History.Always (Allowed configured connectionEpoch) s.log

/-- Between handlers, and inside a callback. -/
structure Inv (configured : WebSocketSessionCallbacks) (connectionEpoch : UInt64)
    (s : WebSocketSession) : Prop extends Base configured connectionEpoch 0 s where
  opened : .opened ∈ s.log → s.state = .open ∨ s.state = .closing ∨ s.state = .terminal
  isOpen : s.state = .open → .opened ∈ s.log ∧ (configured.onOpen = true → .onOpen ∈ s.log)
  stopped : .stopRequested ∈ s.log →
    s.state = .closing ∨ s.state = .terminal ∨ s.stopRequestedDuringControl = true
  threw : .callbackThrew ∈ s.log → s.state = .terminal ∨ s.controlCallbackFailed = true
  paused : s.state ≠ .terminal → s.readsPaused = pausedIn s.log

theorem pausedIn_concat (log : List SessionEvent) (event : SessionEvent) :
    pausedIn (log ++ [event]) =
      if event = .pauseRequested then true
      else if event = .resumeRequested then false else pausedIn log := by
  simp [pausedIn, History.switched_concat]

theorem texts_concat (log : List SessionEvent) (event : SessionEvent) :
    texts (log ++ [event]) = texts log + if event.isText then 1 else 0 := by
  simp [texts, List.countP_append, List.countP_singleton]

section Steps

variable {configured : WebSocketSessionCallbacks} {connectionEpoch : UInt64} {undelivered : Nat}
variable {s : WebSocketSession}

theorem inv_create (configured : WebSocketSessionCallbacks) (connectionEpoch : UInt64) :
    Inv configured connectionEpoch (create configured connectionEpoch) where
  callbacks _ := rfl
  cleared h := by cases h
  epoch := rfl
  finished _ he := by cases he
  notified _ he := by cases he
  opened h := by cases h
  onOpen h := by cases h
  isOpen h := by cases h
  stopped h := by cases h
  threw h := by cases h
  threwOnce h := by cases h
  paused _ := rfl
  reads := rfl
  oneRead := rfl
  sequence _ := rfl
  untold _ := rfl
  told _ h := by cases h
  rules := History.always_nil _

/-- No session that is not terminal has told its owner that it is. -/
theorem Base.not_notified (h : Base configured connectionEpoch undelivered s)
    (hstate : s.state ≠ .terminal) : ∀ e ∈ s.log, e.isTerminal = false := by
  intro e he
  by_contra hte
  exact hstate (h.notified e he (by simpa using hte))

theorem Base.not_finished (h : Base configured connectionEpoch undelivered s)
    (hstate : s.state ≠ .terminal) : ∀ e ∈ s.log, e.isFinished = false := by
  intro e he
  by_contra hfe
  exact hstate (h.finished e he (by simpa using hfe))

/-- An event that is neither a message nor part of a read. -/
theorem Base.record (h : Base configured connectionEpoch undelivered s) {event : SessionEvent}
    (hfinished : event.isFinished = true → s.state = .terminal)
    (hnotified : event.isTerminal = true → s.state = .terminal)
    (honOpen : event = .onOpen → .opened ∈ s.log)
    (hread : event ≠ .readIssued ∧ event ≠ .readCompleted ∧ event.isText = false)
    (hrule : Allowed configured connectionEpoch s.log event) :
    Base configured connectionEpoch undelivered (s.record event) where
  callbacks := h.callbacks
  cleared := h.cleared
  epoch := h.epoch
  finished e he hfe := by
    rcases List.mem_append.mp he with he | he
    · exact h.finished e he hfe
    · rw [List.mem_singleton.mp he] at hfe
      exact hfinished hfe
  notified e he hte := by
    rcases List.mem_append.mp he with he | he
    · exact h.notified e he hte
    · rw [List.mem_singleton.mp he] at hte
      exact hnotified hte
  onOpen he := by
    rcases List.mem_append.mp he with he | he
    · exact List.mem_append_left _ (h.onOpen he)
    · exact List.mem_append_left _ (honOpen (List.mem_singleton.mp he).symm)
  threwOnce hthrew := List.mem_append_left _ (h.threwOnce hthrew)
  reads := by
    have hissued : [event].count .readIssued = 0 := by simp [hread.1]
    have hcompleted : [event].count .readCompleted = 0 := by simp [hread.2.1]
    show (s.log ++ [event]).count _ = (s.log ++ [event]).count _ + s.pendingReads
    rw [List.count_append, List.count_append, hissued, hcompleted]
    exact h.reads
  oneRead := h.oneRead
  sequence hstate := by
    show _ = texts (s.log ++ [event]) + undelivered
    rw [texts_concat, hread.2.2]
    exact h.sequence hstate
  untold := h.untold
  told := h.told
  rules := History.always_concat.mpr ⟨h.rules, hrule⟩

/-- Whatever a session was doing, its end leaves it as it should be. -/
theorem Base.finish (h : Base configured connectionEpoch undelivered s)
    (code : WebSocketSessionErrorCode) (stage : WebSocketSessionStage) (nativeError : NativeError)
    (hstate : s.state ≠ .terminal)
    (hcode : undelivered =
      if EndedUndelivered configured s.log
        { code := code, stage := stage, nativeError := nativeError,
          lastConnectionSequence := s.connectionSequence } then 1 else 0) :
    Inv configured connectionEpoch (s.finish code stage nativeError) := by
  generalize hresult : ({ code := code, stage := stage, nativeError := nativeError, lastConnectionSequence := s.connectionSequence } : WebSocketSessionResult) = result at hcode
  have hlast : result.lastConnectionSequence = s.connectionSequence := by rw [← hresult]
  have hended : Base configured connectionEpoch 0 (s.ended result) :=
    { callbacks := fun hne => absurd rfl hne
      cleared := fun _ => rfl
      epoch := h.epoch
      finished := fun _ _ _ => rfl
      notified := fun _ _ _ => rfl
      onOpen := fun he => by
        have := h.onOpen (by simpa [ended, WebSocketSession.record] using he)
        simp [ended, WebSocketSession.record, this]
      threwOnce := fun hthrew => List.mem_append_left _ (h.threwOnce hthrew)
      reads := by simpa [ended, WebSocketSession.record] using h.reads
      oneRead := h.oneRead
      sequence := fun hne => absurd rfl hne
      untold := fun hne => absurd rfl hne
      told := fun hset _ => by simp [ended, h.callbacks hstate, hset]
      rules := by
        refine History.always_concat.mpr ⟨h.rules, ?_⟩
        show _ = _
        rw [hlast, h.sequence hstate, ← hcode] }
  have hbase : Base configured connectionEpoch 0 (s.finish code stage nativeError) := by
    simp only [WebSocketSession.finish, if_neg hstate, hresult]
    split
    · refine hended.record (fun _ => rfl) (fun _ => rfl) (fun he => by cases he)
        ⟨by simp, by simp, rfl⟩ ⟨by simp [ended, WebSocketSession.record], ?_⟩
      intro e he
      rcases List.mem_append.mp he with he | he
      · exact h.not_notified hstate e he
      · rw [List.mem_singleton.mp he]
        rfl
    · exact hended
  have hterminal : (s.finish code stage nativeError).state = .terminal := by
    simp only [WebSocketSession.finish, if_neg hstate]
    split <;> rfl
  exact
    { hbase with
      opened := fun _ => .inr (.inr hterminal)
      isOpen := fun hopen => by rw [hterminal] at hopen; cases hopen
      stopped := fun _ => .inr (.inl hterminal)
      threw := fun _ => .inl hterminal
      paused := fun hne => absurd hterminal hne }

theorem Inv.issueRead (h : Inv configured connectionEpoch s)
    (hpaused : s.state = .open → s.readsPaused = false) :
    Inv configured connectionEpoch s.issueRead := by
  unfold WebSocketSession.issueRead
  split
  · exact h
  · next hguard =>
      obtain ⟨hopen, hidle⟩ := not_or.mp hguard
      have hstate : s.state = .open := not_not.mp hopen
      have hlive : s.state ≠ .terminal := by rw [hstate]; nofun
      have hnone : s.pendingReads = 0 := by
        rw [h.oneRead, if_neg hidle]
      have hcounts : s.log.count .readIssued = s.log.count .readCompleted := by
        rw [h.reads, hnone, Nat.add_zero]
      exact
        { callbacks := h.callbacks
          cleared := h.cleared
          epoch := h.epoch
          finished := fun e he hfe => by
            rcases List.mem_append.mp he with he | he
            · exact h.finished e he hfe
            · rw [List.mem_singleton.mp he] at hfe
              cases hfe
          notified := fun e he hte => by
            rcases List.mem_append.mp he with he | he
            · exact h.notified e he hte
            · rw [List.mem_singleton.mp he] at hte
              cases hte
          onOpen := fun he => by
            have := h.onOpen (by simpa [WebSocketSession.record] using he)
            simp [WebSocketSession.record, this]
          threwOnce := fun hthrew => List.mem_append_left _ (h.threwOnce hthrew)
          reads := by
            simp [WebSocketSession.record, hcounts, hnone]
          oneRead := by simp [hnone]
          sequence := fun hne => by
            show _ = texts (s.log ++ [.readIssued]) + 0
            rw [texts_concat]
            exact h.sequence hne
          untold := h.untold
          told := h.told
          rules := by
            refine History.always_concat.mpr ⟨h.rules, ?_, hcounts⟩
            rw [← h.paused hlive, hpaused hstate]
          opened := fun he => h.opened (by simpa [WebSocketSession.record] using he)
          isOpen := fun ho => by
            have := h.isOpen ho
            simpa [WebSocketSession.record] using this
          stopped := fun he => h.stopped (by simpa [WebSocketSession.record] using he)
          threw := fun he => h.threw (by simpa [WebSocketSession.record] using he)
          paused := fun hne => by
            show _ = pausedIn (s.log ++ [.readIssued])
            rw [pausedIn_concat]
            exact h.paused hne }

theorem Inv.readOn (h : Inv configured connectionEpoch s) :
    Inv configured connectionEpoch s.readOn := by
  unfold WebSocketSession.readOn
  split
  · next hguard => exact h.issueRead fun _ => by simpa using hguard.2
  · exact h

/-! ## The calls of the owner -/

/-- An event that no field of a live session follows. -/
theorem Inv.record (h : Inv configured connectionEpoch s) {event : SessionEvent}
    (hplain : event = .startRequested ∨ ∃ kind, event = .onControl kind)
    (hrule : Allowed configured connectionEpoch s.log event) :
    Inv configured connectionEpoch (s.record event) := by
  have hbase : Base configured connectionEpoch 0 (s.record event) := by
    refine h.toBase.record ?_ ?_ ?_ ?_ hrule <;> rcases hplain with rfl | ⟨kind, rfl⟩ <;>
      simp [isFinished, isTerminal, isText]
  refine
    { hbase with
      opened := fun he => h.opened ?_
      isOpen := fun ho => ?_
      stopped := fun he => h.stopped ?_
      threw := fun he => h.threw ?_
      paused := fun hne => ?_ }
  · rcases hplain with rfl | ⟨kind, rfl⟩ <;> simpa [WebSocketSession.record] using he
  · obtain ⟨hopened, honOpen⟩ := h.isOpen ho
    exact ⟨List.mem_append_left _ hopened, fun hset => List.mem_append_left _ (honOpen hset)⟩
  · rcases hplain with rfl | ⟨kind, rfl⟩ <;> simpa [WebSocketSession.record] using he
  · rcases hplain with rfl | ⟨kind, rfl⟩ <;> simpa [WebSocketSession.record] using he
  · show _ = pausedIn (s.log ++ [event])
    rw [pausedIn_concat]
    rcases hplain with rfl | ⟨kind, rfl⟩ <;> exact h.paused hne

/-- A session on its way to being open. -/
def SessionState.Connecting (state : SessionState) : Prop :=
  state ≠ .open ∧ state ≠ .closing ∧ state ≠ .terminal

theorem Inv.not_opened (h : Inv configured connectionEpoch s)
    (hstate : SessionState.Connecting s.state) : .opened ∉ s.log := by
  intro hopened
  rcases h.opened hopened with ho | ho | ho
  · exact hstate.1 ho
  · exact hstate.2.1 ho
  · exact hstate.2.2 ho

theorem Inv.advance (h : Inv configured connectionEpoch s) {state : SessionState}
    {startRequested : Bool} (hfrom : SessionState.Connecting s.state)
    (hto : SessionState.Connecting state) :
    Inv configured connectionEpoch { s with state := state, startRequested := startRequested } where
  callbacks _ := h.callbacks hfrom.2.2
  cleared hterminal := absurd hterminal hto.2.2
  epoch := h.epoch
  finished e he hfe := absurd (h.finished e he hfe) hfrom.2.2
  notified e he hte := absurd (h.notified e he hte) hfrom.2.2
  onOpen := h.onOpen
  threwOnce := h.threwOnce
  reads := h.reads
  oneRead := h.oneRead
  sequence _ := h.sequence hfrom.2.2
  untold _ := h.untold hfrom.2.2
  told _ hterminal := absurd hterminal hto.2.2
  rules := h.rules
  opened hopened := absurd hopened (h.not_opened hfrom)
  isOpen hopen := absurd hopen hto.1
  stopped he := by
    rcases h.stopped he with hs | hs | hs
    · exact absurd hs hfrom.2.1
    · exact absurd hs hfrom.2.2
    · exact .inr (.inr hs)
  threw he := (h.threw he).imp (fun hs => absurd hs hfrom.2.2) id
  paused _ := h.paused hfrom.2.2

theorem Inv.start (h : Inv configured connectionEpoch s) :
    Inv configured connectionEpoch (s.call .start) := by
  have hrecord : Inv configured connectionEpoch (s.record .startRequested) :=
    h.record (.inl rfl) trivial
  simp only [call, WebSocketSession.start]
  split
  · exact hrecord
  · next hguard =>
      have hidle : s.state = .idle := not_not.mp (not_or.mp hguard).1
      refine hrecord.advance ?_ (by simp [SessionState.Connecting])
      show SessionState.Connecting s.state
      rw [hidle]
      simp [SessionState.Connecting]

theorem Base.record_request (h : Base configured connectionEpoch undelivered s)
    {event : SessionEvent} (hevent : event = .stopRequested ∨ event = .pauseRequested ∨
      event = .resumeRequested ∨ event = .callbackThrew) :
    Base configured connectionEpoch undelivered (s.record event) := by
  refine h.record ?_ ?_ ?_ ?_ ?_ <;> rcases hevent with rfl | rfl | rfl | rfl <;>
    simp [isFinished, isTerminal, isText, Allowed]

/-- A request is remembered with whatever the session makes of it. -/
theorem Inv.request (h : Inv configured connectionEpoch s) {event : SessionEvent}
    {state : SessionState} {during failed paused : Bool}
    (hevent : event = .stopRequested ∨ event = .pauseRequested ∨
      event = .resumeRequested ∨ event = .callbackThrew)
    (hstate : state = s.state ∨ (s.state = .open ∧ state = .closing))
    (hduring : s.stopRequestedDuringControl = true → during = true)
    (hfailed : s.controlCallbackFailed = true → failed = true)
    (hthrew : failed = true → s.controlCallbackFailed = true ∨ event = .callbackThrew)
    (hstop : event = .stopRequested → state = .closing ∨ state = .terminal ∨ during = true)
    (hexception : event = .callbackThrew → state = .terminal ∨ failed = true)
    (hpaused : s.state ≠ .terminal → paused = pausedIn (s.log ++ [event])) :
    Inv configured connectionEpoch
      { s.record event with
        state := state
        stopRequestedDuringControl := during
        controlCallbackFailed := failed
        readsPaused := paused } := by
  have hterminal : state = .terminal ↔ s.state = .terminal := by
    rcases hstate with rfl | ⟨ho, rfl⟩
    · rfl
    · simp [ho]
  have hbase := h.toBase.record_request hevent
  have hmem : ∀ {e : SessionEvent}, e ≠ event → e ∈ s.log ++ [event] → e ∈ s.log := by
    intro e hne he
    rcases List.mem_append.mp he with he | he
    · exact he
    · exact absurd (List.mem_singleton.mp he) hne
  refine
    { callbacks := fun hne => hbase.callbacks (mt hterminal.mpr hne)
      cleared := fun ht => hbase.cleared (hterminal.mp ht)
      epoch := hbase.epoch
      finished := fun e he hfe => hterminal.mpr (hbase.finished e he hfe)
      notified := fun e he hte => hterminal.mpr (hbase.notified e he hte)
      onOpen := hbase.onOpen
      threwOnce := fun hf => ?_
      reads := hbase.reads
      oneRead := hbase.oneRead
      sequence := fun hne => hbase.sequence (mt hterminal.mpr hne)
      untold := fun hne => hbase.untold (mt hterminal.mpr hne)
      told := fun hset ht => hbase.told hset (hterminal.mp ht)
      rules := hbase.rules
      opened := fun he => ?_
      isOpen := fun ho => ?_
      stopped := fun he => ?_
      threw := fun he => ?_
      paused := fun hne => hpaused (mt hterminal.mpr hne) }
  · rcases hthrew hf with hf | rfl
    · exact hbase.threwOnce hf
    · simp [WebSocketSession.record]
  · have hlog := hmem (by rcases hevent with rfl | rfl | rfl | rfl <;> simp) he
    rcases hstate with rfl | ⟨-, rfl⟩
    · exact h.opened hlog
    · exact .inr (.inl rfl)
  · rcases hstate with rfl | ⟨-, rfl⟩
    · obtain ⟨hopened, honOpen⟩ := h.isOpen ho
      exact ⟨List.mem_append_left _ hopened, fun hset => List.mem_append_left _ (honOpen hset)⟩
    · cases ho
  · by_cases hstopEvent : event = .stopRequested
    · exact hstop hstopEvent
    · rcases h.stopped (hmem (Ne.symm hstopEvent) he) with hs | hs | hs
      · rcases hstate with rfl | ⟨ho, rfl⟩
        · exact .inl hs
        · exact .inl rfl
      · exact .inr (.inl (hterminal.mpr hs))
      · exact .inr (.inr (hduring hs))
  · by_cases hthrewEvent : event = .callbackThrew
    · exact hexception hthrewEvent
    · exact (h.threw (hmem (Ne.symm hthrewEvent) he)).imp hterminal.mpr hfailed

theorem Inv.stop (h : Inv configured connectionEpoch s) :
    Inv configured connectionEpoch (s.call .stop) := by
  have hpause : s.state ≠ .terminal →
      s.readsPaused = pausedIn (s.log ++ [.stopRequested]) := fun hne => by
    rw [pausedIn_concat]
    exact h.paused hne
  simp only [call, WebSocketSession.stop]
  split
  · next hterminal =>
      exact h.request (.inl rfl) (.inl rfl) id id .inl (fun _ => .inr (.inl hterminal))
        (fun he => by cases he) hpause
  · next hterminal =>
      split
      · next hclosing =>
          exact h.request (.inl rfl) (.inl rfl) id id .inl (fun _ => .inl hclosing)
            (fun he => by cases he) hpause
      · split
        · exact h.request (.inl rfl) (.inl rfl) (fun _ => rfl) id .inl (fun _ => .inr (.inr rfl))
            (fun he => by cases he) hpause
        · split
          · exact (h.toBase.record_request (.inl rfl)).finish _ _ _ hterminal
              (by simp [EndedUndelivered])
          · next hopen =>
              exact h.request (.inl rfl) (.inr ⟨not_not.mp hopen, rfl⟩) id id .inl
                (fun _ => .inl rfl) (fun he => by cases he) hpause

theorem Inv.pauseReads (h : Inv configured connectionEpoch s) :
    Inv configured connectionEpoch (s.call .pauseReads) := by
  simp only [call, WebSocketSession.pauseReads]
  split
  · refine h.request (.inr (.inl rfl)) (.inl rfl) id id .inl (fun he => by cases he)
      (fun he => by cases he) fun _ => ?_
    rw [pausedIn_concat]
    rfl
  · next hterminal =>
      exact h.request (.inr (.inl rfl)) (.inl rfl) id id .inl (fun he => by cases he)
        (fun he => by cases he) fun hne => absurd hne hterminal

theorem Inv.resumeReads (h : Inv configured connectionEpoch s) :
    Inv configured connectionEpoch (s.call .resumeReads) := by
  simp only [call, WebSocketSession.resumeReads]
  split
  · next hterminal =>
      exact h.request (.inr (.inr (.inl rfl))) (.inl rfl) id id .inl (fun he => by cases he)
        (fun he => by cases he) fun hne => absurd hterminal hne
  · refine Inv.issueRead ?_ fun _ => rfl
    refine h.request (.inr (.inr (.inl rfl))) (.inl rfl) id id .inl (fun he => by cases he)
      (fun he => by cases he) fun _ => ?_
    rw [pausedIn_concat]
    rfl

theorem Inv.call (h : Inv configured connectionEpoch s) (c : SessionCall) :
    Inv configured connectionEpoch (s.call c) := by
  cases c with
  | start => exact h.start
  | stop => exact h.stop
  | pauseReads => exact h.pauseReads
  | resumeReads => exact h.resumeReads

/-! ## The handlers of the transport -/

theorem Inv.onResolve (h : Inv configured connectionEpoch s) (error : NativeError) :
    Inv configured connectionEpoch (s.onResolve error) := by
  unfold WebSocketSession.onResolve
  split
  · exact h
  · next hguard =>
      have hstate := not_not.mp hguard
      split
      · exact h.toBase.finish _ _ _ (by rw [hstate]; nofun) (by simp [EndedUndelivered])
      · exact h.advance (by rw [hstate]; simp [SessionState.Connecting])
          (by simp [SessionState.Connecting])

theorem Inv.onConnect (h : Inv configured connectionEpoch s) (error : NativeError)
    (hostNameSet : Bool) : Inv configured connectionEpoch (s.onConnect error hostNameSet) := by
  unfold WebSocketSession.onConnect
  split
  · exact h
  · next hguard =>
      have hstate := not_not.mp hguard
      have hlive : s.state ≠ .terminal := by rw [hstate]; nofun
      split
      · exact h.toBase.finish _ _ _ hlive (by simp [EndedUndelivered])
      · split
        · exact h.toBase.finish _ _ _ hlive (by simp [EndedUndelivered])
        · exact h.advance (by rw [hstate]; simp [SessionState.Connecting])
            (by simp [SessionState.Connecting])

theorem Inv.onTlsHandshake (h : Inv configured connectionEpoch s) (error : NativeError)
    (verified : Bool) : Inv configured connectionEpoch (s.onTlsHandshake error verified) := by
  unfold WebSocketSession.onTlsHandshake
  split
  · exact h
  · next hguard =>
      have hstate := not_not.mp hguard
      split
      · refine h.toBase.finish _ _ _ (by rw [hstate]; nofun) ?_
        cases verified <;> simp [EndedUndelivered]
      · exact h.advance (by rw [hstate]; simp [SessionState.Connecting])
          (by simp [SessionState.Connecting])

/-- The session is open, and its owner knows if it wants to. -/
theorem Inv.open (h : Inv configured connectionEpoch s)
    (hstate : s.state = .websocketHandshaking) :
    (configured.onOpen = false →
        Inv configured connectionEpoch { s.record .opened with state := .open }) ∧
      Inv configured connectionEpoch
        { ({ s.record .opened with state := .open } : WebSocketSession).record .onOpen with
          running := some .open } := by
  have hlive : s.state ≠ .terminal := by rw [hstate]; nofun
  have hnot := h.not_opened (by rw [hstate]; simp [SessionState.Connecting])
  have hrecord : Base configured connectionEpoch 0 (s.record .opened) :=
    h.toBase.record (fun he => by cases he) (fun he => by cases he) (fun he => by cases he)
      ⟨by simp, by simp, rfl⟩ hnot
  have hopened : Base configured connectionEpoch 0 { s.record .opened with state := .open } :=
    { hrecord with
      callbacks := fun _ => h.callbacks hlive
      cleared := fun ht => by cases ht
      finished := fun e he hfe => absurd (hrecord.finished e he hfe) hlive
      notified := fun e he hte => absurd (hrecord.notified e he hte) hlive
      sequence := fun _ => hrecord.sequence hlive
      untold := fun _ => hrecord.untold hlive
      told := fun _ ht => by cases ht }
  have hstopped : .stopRequested ∈ s.log → s.stopRequestedDuringControl = true := fun he => by
    rcases h.stopped he with hs | hs | hs
    · rw [hstate] at hs; cases hs
    · exact absurd hs hlive
    · exact hs
  have hthrew : .callbackThrew ∈ s.log → s.controlCallbackFailed = true := fun he =>
    (h.threw he).elim (fun hs => absurd hs hlive) id
  refine ⟨fun hset => ?_, ?_⟩
  · exact
      { hopened with
        opened := fun _ => .inl rfl
        isOpen := fun _ => ⟨by simp [WebSocketSession.record], fun hon => by simp [hset] at hon⟩
        stopped := fun he => .inr (.inr (hstopped (by simpa [WebSocketSession.record] using he)))
        threw := fun he => .inr (hthrew (by simpa [WebSocketSession.record] using he))
        paused := fun _ => by
          show _ = pausedIn (s.log ++ [.opened])
          rw [pausedIn_concat]
          exact h.paused hlive }
  · have honOpen : Base configured connectionEpoch 0
        (({ s.record .opened with state := .open } : WebSocketSession).record .onOpen) := by
      refine hopened.record (fun he => by cases he) (fun he => by cases he)
        (fun _ => by simp [WebSocketSession.record]) ⟨by simp, by simp, rfl⟩
        ⟨fun he => hnot (h.onOpen (by simpa [WebSocketSession.record] using he)), ?_⟩
      exact hopened.not_notified nofun
    exact
      { honOpen with
        opened := fun _ => .inl rfl
        isOpen := fun _ => ⟨by simp [WebSocketSession.record], fun _ => by
          simp [WebSocketSession.record]⟩
        stopped := fun he => .inr (.inr (hstopped (by simpa [WebSocketSession.record] using he)))
        threw := fun he => .inr (hthrew (by simpa [WebSocketSession.record] using he))
        paused := fun _ => by
          show _ = pausedIn (s.log ++ [.opened] ++ [.onOpen])
          rw [pausedIn_concat, pausedIn_concat]
          exact h.paused hlive }

theorem Inv.onHandshake (h : Inv configured connectionEpoch s) (error : NativeError) :
    Inv configured connectionEpoch (s.onHandshake error) := by
  unfold WebSocketSession.onHandshake
  split
  · exact h
  · next hguard =>
      have hstate := not_not.mp hguard
      have hlive : s.state ≠ .terminal := by rw [hstate]; nofun
      split
      · exact h.toBase.finish _ _ _ hlive (by simp [EndedUndelivered])
      · obtain ⟨hunset, hset⟩ := h.open hstate
        dsimp only
        split
        · exact hset
        · next hcallback =>
            have hcallbacks : s.callbacks = configured := h.callbacks hlive
            have hno : s.callbacks.onOpen = false := Bool.not_eq_true _ ▸ hcallback
            exact (hunset (hcallbacks ▸ hno)).readOn

theorem Inv.onClose (h : Inv configured connectionEpoch s) (error : NativeError) :
    Inv configured connectionEpoch (s.onClose error) := by
  unfold WebSocketSession.onClose
  split
  · exact h
  · next hguard =>
      have hlive : s.state ≠ .terminal := by rw [not_not.mp hguard]; nofun
      split
      · exact h.toBase.finish _ _ _ hlive (by simp [EndedUndelivered])
      · split
        · exact h.toBase.finish _ _ _ hlive (by simp [EndedUndelivered])
        · exact h.toBase.finish _ _ _ hlive (by simp [EndedUndelivered])

theorem Inv.onDeadline (h : Inv configured connectionEpoch s) (expectedState : SessionState)
    (stage : WebSocketSessionStage) (error : NativeError) :
    Inv configured connectionEpoch (s.onDeadline expectedState stage error) := by
  unfold WebSocketSession.onDeadline
  split
  · exact h
  · next hguard =>
      refine h.toBase.finish _ _ _ (fun ht => hguard (.inr (.inr ht))) (by simp [EndedUndelivered])

theorem Inv.onControlFrame (h : Inv configured connectionEpoch s) (kind : WebSocketControlKind) :
    Inv configured connectionEpoch (s.onControlFrame kind) := by
  unfold WebSocketSession.onControlFrame
  split
  · exact h
  · next hset =>
      have hlive : s.state ≠ .terminal := by
        intro ht
        rw [h.cleared ht] at hset
        exact hset rfl
      have hrecord : Inv configured connectionEpoch (s.record (.onControl kind)) :=
        h.record (.inr ⟨kind, rfl⟩) (h.not_notified hlive)
      exact { hrecord with }

/-- The sequence number is given out; the message is delivered, or the session ends on it. -/
theorem Base.deliver (h : Base configured connectionEpoch 1 s) (hopen : s.state = .open)
    (hopened : .opened ∈ s.log ∧ (configured.onOpen = true → .onOpen ∈ s.log))
    (hstop : .stopRequested ∉ s.log) (hthrew : .callbackThrew ∉ s.log)
    (hpaused : s.readsPaused = pausedIn s.log)
    (hlast : s.log.getLast? = some .readCompleted) (completion : ReadCompletion) :
    Inv configured connectionEpoch (s.deliver completion) := by
  have hlive : s.state ≠ .terminal := by rw [hopen]; nofun
  unfold WebSocketSession.deliver
  split
  · exact h.finish _ _ _ hlive (by simp [EndedUndelivered])
  · split
    · exact h.finish _ _ _ hlive (by simp [EndedUndelivered])
    · split
      · next hmissing =>
          rw [h.callbacks hlive] at hmissing
          exact h.finish _ _ _ hlive (by
            rw [if_pos]
            exact .inr (.inr ⟨rfl, rfl, by simpa using hmissing, hthrew⟩))
      · exact
          { callbacks := h.callbacks
            cleared := h.cleared
            epoch := h.epoch
            finished := fun e he hfe => by
              rcases List.mem_append.mp he with he | he
              · exact h.finished e he hfe
              · rw [List.mem_singleton.mp he] at hfe
                cases hfe
            notified := fun e he hte => by
              rcases List.mem_append.mp he with he | he
              · exact h.notified e he hte
              · rw [List.mem_singleton.mp he] at hte
                cases hte
            onOpen := fun he => List.mem_append_left _
              (h.onOpen (by simpa [WebSocketSession.record] using he))
            threwOnce := fun hf => List.mem_append_left _ (h.threwOnce hf)
            reads := by simpa [WebSocketSession.record] using h.reads
            oneRead := h.oneRead
            sequence := fun hne => by
              show _ = texts (s.log ++ [_]) + 0
              rw [texts_concat]
              exact h.sequence hne
            untold := h.untold
            told := h.told
            rules := History.always_concat.mpr ⟨h.rules, hopened.1, hopened.2, hstop, hthrew,
              h.not_finished hlive, h.not_notified hlive, h.epoch, h.sequence hlive, hlast⟩
            opened := fun _ => .inl hopen
            isOpen := fun _ => ⟨List.mem_append_left _ hopened.1,
              fun hset => List.mem_append_left _ (hopened.2 hset)⟩
            stopped := fun he => absurd (by simpa [WebSocketSession.record] using he) hstop
            threw := fun he => absurd (by simpa [WebSocketSession.record] using he) hthrew
            paused := fun _ => by
              show _ = pausedIn (s.log ++ [_])
              rw [pausedIn_concat]
              exact hpaused }

theorem Inv.onRead (h : Inv configured connectionEpoch s) (hpending : 0 < s.pendingReads)
    (completion : ReadCompletion) :
    Inv configured connectionEpoch
      ({ s.record .readCompleted with pendingReads := s.pendingReads - 1 }.onRead completion) := by
  have hprogress : s.readInProgress = true := by
    by_contra hnone
    have := h.oneRead
    rw [if_neg hnone] at this
    omega
  have hone : s.pendingReads = 1 := by rw [h.oneRead, if_pos hprogress]
  -- the session with its read completed and nothing else done
  have hdone : Inv configured connectionEpoch
      { s.record .readCompleted with pendingReads := s.pendingReads - 1, readInProgress := false } :=
    { callbacks := h.callbacks
      cleared := h.cleared
      epoch := h.epoch
      finished := fun e he hfe => by
        rcases List.mem_append.mp he with he | he
        · exact h.finished e he hfe
        · rw [List.mem_singleton.mp he] at hfe
          cases hfe
      notified := fun e he hte => by
        rcases List.mem_append.mp he with he | he
        · exact h.notified e he hte
        · rw [List.mem_singleton.mp he] at hte
          cases hte
      onOpen := fun he => List.mem_append_left _
        (h.onOpen (by simpa [WebSocketSession.record] using he))
      threwOnce := fun hf => List.mem_append_left _ (h.threwOnce hf)
      reads := by
        have := h.reads
        simp [WebSocketSession.record]
        omega
      oneRead := by simp [hone]
      sequence := fun hne => by
        show _ = texts (s.log ++ [_]) + 0
        rw [texts_concat]
        exact h.sequence hne
      untold := h.untold
      told := h.told
      rules := History.always_concat.mpr ⟨h.rules, by rw [Allowed, h.reads, hone]⟩
      opened := fun he => h.opened (by simpa [WebSocketSession.record] using he)
      isOpen := fun ho => ⟨List.mem_append_left _ (h.isOpen ho).1,
        fun hset => List.mem_append_left _ ((h.isOpen ho).2 hset)⟩
      stopped := fun he => h.stopped (by simpa [WebSocketSession.record] using he)
      threw := fun he => h.threw (by simpa [WebSocketSession.record] using he)
      paused := fun hne => by
        show _ = pausedIn (s.log ++ [_])
        rw [pausedIn_concat]
        exact h.paused hne }
  simp only [WebSocketSession.onRead]
  rw [if_neg (by simp [WebSocketSession.record, hprogress])]
  split
  · exact hdone
  · next hguard =>
      have hopen : s.state = .open := not_not.mp hguard
      have hlive : s.state ≠ .terminal := by rw [hopen]; nofun
      split
      · next hfailed =>
          refine hdone.toBase.finish _ _ _ hlive ?_
          have := hdone.threwOnce hfailed
          simp [EndedUndelivered, this]
      · next hfailed =>
          split
          · exact hdone.toBase.finish _ _ _ hlive (by simp [EndedUndelivered])
          · next hduring =>
              split
              · refine hdone.toBase.finish _ _ _ hlive ?_
                unfold readErrorCode
                split
                · simp [EndedUndelivered]
                · split
                  · simp [EndedUndelivered]
                  · split <;> simp [EndedUndelivered]
              · split
                · exact hdone.toBase.finish _ _ _ hlive (by simp [EndedUndelivered])
                · split
                  · exact hdone.toBase.finish _ _ _ hlive (by simp [EndedUndelivered])
                  · next hbound =>
                      have hstop : .stopRequested ∉ s.log ++ [.readCompleted] := fun he => by
                        rcases hdone.stopped he with hs | hs | hs
                        · have hclosing : s.state = .closing := hs
                          rw [hopen] at hclosing
                          cases hclosing
                        · exact hlive hs
                        · exact hduring hs
                      have hthrew : .callbackThrew ∉ s.log ++ [.readCompleted] := fun he =>
                        (hdone.threw he).elim hlive hfailed
                      have hopened := hdone.isOpen hopen
                      have hpaused := hdone.paused hlive
                      have hsucc : (s.connectionSequence + 1).toNat =
                          s.connectionSequence.toNat + 1 := by
                        have hlt := s.connectionSequence.toNat_lt
                        have hmax : s.connectionSequence.toNat ≠ 2 ^ 64 - 1 := hbound
                        rw [UInt64.toNat_add, UInt64.toNat_one]
                        omega
                      have hnext : Base configured connectionEpoch 1
                          { s.record .readCompleted with
                            pendingReads := s.pendingReads - 1
                            readInProgress := false
                            connectionSequence := s.connectionSequence + 1 } :=
                        { hdone.toBase with
                          sequence := fun hne => by
                            show (s.connectionSequence + 1).toNat = _
                            rw [hsucc]
                            exact congrArg (· + 1) (hdone.sequence hne) }
                      exact hnext.deliver hopen hopened hstop hthrew hpaused
                        (by simp [WebSocketSession.record]) completion

/-! ## The callbacks -/

theorem Inv.returned (h : Inv configured connectionEpoch s) (callback : SessionCallback)
    (threw : Bool) :
    Inv configured connectionEpoch ({ s with running := none }.returned callback threw) := by
  have hidle : Inv configured connectionEpoch { s with running := none } := { h with }
  cases threw with
  | false =>
      cases callback with
      | «open» => exact hidle.readOn
      | text message => exact hidle.readOn
      | control kind =>
          have hfailed : (s.controlCallbackFailed || false) = s.controlCallbackFailed :=
            Bool.or_false _
          show Inv configured connectionEpoch
            { s with running := none, inControlCallback := false,
                     controlCallbackFailed := s.controlCallbackFailed || false }
          rw [hfailed]
          exact { h with }
  | true =>
      have hended : ∀ stage, Inv configured connectionEpoch
          (({ s with running := none } : WebSocketSession).record .callbackThrew |>.finish
            .callbackFailure stage .none) := by
        intro stage
        by_cases hterminal : s.state = .terminal
        · have hsame : (({ s with running := none } : WebSocketSession).record .callbackThrew
              |>.finish .callbackFailure stage .none) =
              ({ s with running := none } : WebSocketSession).record .callbackThrew := if_pos hterminal
          rw [hsame]
          exact hidle.request (.inr (.inr (.inr rfl))) (.inl rfl) id id .inl
            (fun he => by cases he) (fun _ => .inl hterminal) fun hne => absurd hterminal hne
        · refine (hidle.toBase.record_request (.inr (.inr (.inr rfl)))).finish _ _ _ hterminal ?_
          simp [EndedUndelivered, WebSocketSession.record]
      cases callback with
      | «open» => exact (hended .open).readOn
      | text message => exact hended .read
      | control kind =>
          have hpaused : s.state ≠ .terminal →
              s.readsPaused = pausedIn (s.log ++ [.callbackThrew]) := fun hne => by
            rw [pausedIn_concat]
            exact h.paused hne
          have hrequest := hidle.request (.inr (.inr (.inr rfl))) (.inl rfl) id
            (fun _ => Bool.or_true s.controlCallbackFailed) (fun _ => .inr rfl)
            (fun he => by cases he) (fun _ => .inr (Bool.or_true _)) hpaused
          exact { hrequest with }

theorem Inv.handle (h : Inv configured connectionEpoch s) {label : SessionLabel}
    {s' : WebSocketSession} (hs : s.handle label = some s') :
    Inv configured connectionEpoch s' := by
  cases label with
  | call c => cases hs
  | returned threw => cases hs
  | resolved error => cases hs; exact h.onResolve error
  | connected error hostNameSet => cases hs; exact h.onConnect error hostNameSet
  | tlsHandshaken error verified => cases hs; exact h.onTlsHandshake error verified
  | handshaken error => cases hs; exact h.onHandshake error
  | read completion =>
      simp only [WebSocketSession.handle] at hs
      split at hs
      · next hread =>
          cases hs
          exact h.onRead hread.1 completion
      · cases hs
  | closed error => cases hs; exact h.onClose error
  | deadline expectedState error =>
      obtain ⟨stage, -, rfl⟩ := Option.map_eq_some_iff.mp hs
      exact h.onDeadline expectedState stage error
  | controlFrame kind => cases hs; exact h.onControlFrame kind

theorem Inv.step (h : Inv configured connectionEpoch s) {label : SessionLabel}
    {s' : WebSocketSession} (hs : s.step label = some s') :
    Inv configured connectionEpoch s' := by
  cases label
  case call c => cases hs; exact h.call c
  case returned threw =>
      obtain ⟨callback, -, rfl⟩ := Option.map_eq_some_iff.mp hs
      exact h.returned callback threw
  all_goals
    simp only [WebSocketSession.step] at hs
    split at hs
    · exact h.handle hs
    · cases hs

theorem inv_of_reachable (h : Reachable (system configured connectionEpoch) s) :
    Inv configured connectionEpoch s := by
  refine h.invariant ?_ ?_
  · intro s hinit
    rw [show s = create configured connectionEpoch from hinit]
    exact inv_create configured connectionEpoch
  · intro s label s' hinv hs
    exact hinv.step hs

/-! ## Histories of sessions -/

variable {log : List SessionEvent}

theorem completed_le_issued (h : History.Always (Allowed configured connectionEpoch) log) :
    log.count .readCompleted ≤ log.count .readIssued ∧
      log.count .readIssued ≤ log.count .readCompleted + 1 := by
  induction log using List.reverseRecOn with
  | nil => simp
  | append_singleton log event ih =>
      obtain ⟨hlog, hevent⟩ := History.always_concat.mp h
      obtain ⟨hle, hlt⟩ := ih hlog
      rw [List.count_append, List.count_append]
      by_cases hissued : event = .readIssued
      · subst hissued
        have hequal := hevent.2
        simp
        omega
      · by_cases hcompleted : event = .readCompleted
        · subst hcompleted
          have hahead : log.count .readIssued = log.count .readCompleted + 1 := hevent
          simp
          omega
        · simp [hissued, hcompleted]
          omega

/-- While reads are paused none is issued, and each message takes the end of a read. -/
theorem paused_messages {earlier during : List SessionEvent}
    (h : History.Always (Allowed configured connectionEpoch)
      (earlier ++ [.pauseRequested] ++ during))
    (hresume : .resumeRequested ∉ during) :
    during.count .readIssued = 0 ∧
      texts during + (if during.getLast? = some .readCompleted then 1 else 0) ≤
        during.count .readCompleted := by
  induction during using List.reverseRecOn with
  | nil => simp [texts]
  | append_singleton during event ih =>
      rw [← List.append_assoc] at h
      obtain ⟨hbefore, hevent⟩ := History.always_concat.mp h
      have hkept : .resumeRequested ∉ during := fun he => hresume (List.mem_append_left _ he)
      obtain ⟨hissued, htexts⟩ := ih hbefore hkept
      have hpaused : pausedIn (earlier ++ [.pauseRequested] ++ during) = true := by
        refine History.switched_append ?_ ?_
        · rw [History.switched_concat]
          rfl
        · intro e he
          exact decide_eq_false fun heq => hkept (heq ▸ he)
      rw [texts_concat, List.getLast?_concat, List.count_append, List.count_append]
      cases event with
      | readIssued =>
          exfalso
          rw [hevent.1] at hpaused
          cases hpaused
      | readCompleted =>
          simp [isText]
          omega
      | onTextMessage message =>
          have hlast := hevent.2.2.2.2.2.2.2.2
          have hdone : during.getLast? = some .readCompleted := by
            rcases List.eq_nil_or_concat during with rfl | ⟨front, last, rfl⟩
            · simp at hlast
            · rw [List.concat_eq_append, ← List.append_assoc, List.getLast?_concat] at hlast
              rw [List.concat_eq_append, List.getLast?_concat, hlast]
          rw [if_pos hdone] at htexts
          simp [isText]
          omega
      | _ =>
          simp [isText]
          omega

/-- No message follows the end of a session. -/
theorem texts_after_finished {earlier later : List SessionEvent} {result : WebSocketSessionResult}
    (h : History.Always (Allowed configured connectionEpoch)
      (earlier ++ .finished result :: later)) :
    texts later = 0 := by
  refine List.countP_eq_zero.mpr fun event hevent htext => ?_
  cases event with
  | onTextMessage message =>
      obtain ⟨front, rest, rfl⟩ := List.append_of_mem hevent
      have hallowed := h (earlier ++ .finished result :: front) (.onTextMessage message) rest
        (by simp)
      have := hallowed.2.2.2.2.1 (.finished result) (by simp)
      cases this
  | _ => cases htext

end Steps

/-- The life of a session, as its owner sees it. -/
structure Lifecycle (callbacks : WebSocketSessionCallbacks) (connectionEpoch : UInt64)
    (s : WebSocketSession) : Prop where
  terminalOnce : s.log.countP isTerminal ≤ 1
  openOnce : s.log.count .onOpen ≤ 1
  silentAfterTerminal : ∀ earlier event later, s.log = earlier ++ event :: later →
    (event = .onOpen ∨ event.isText = true ∨ event.isControl = true) →
    ∀ result, .onTerminal result ∉ earlier
  textWhileOpen : ∀ earlier message later, s.log = earlier ++ .onTextMessage message :: later →
    .opened ∈ earlier ∧ (callbacks.onOpen = true → .onOpen ∈ earlier) ∧
      .stopRequested ∉ earlier ∧ .callbackThrew ∉ earlier ∧ ∀ result, .finished result ∉ earlier
  oneRead : s.pendingReads ≤ 1
  noReadWhilePaused : ∀ earlier later, s.log = earlier ++ .readIssued :: later →
    pausedIn earlier = false
  pauseLetsOneThrough : ∀ earlier during later,
    s.log = earlier ++ .pauseRequested :: (during ++ later) → .resumeRequested ∉ during →
    texts during ≤ outstanding earlier ∧ outstanding earlier ≤ 1
  sequences : ∀ earlier message later, s.log = earlier ++ .onTextMessage message :: later →
    message.connectionEpoch = connectionEpoch ∧
      message.connectionSequence.toNat = texts earlier + 1
  lastSequence : ∀ result, .onTerminal result ∈ s.log → ∃ earlier later,
    s.log = earlier ++ .finished result :: later ∧
      result.lastConnectionSequence.toNat =
        texts s.log + if EndedUndelivered callbacks earlier result then 1 else 0

/-- Whatever the order of calls, completions, expired deadlines, control frames and returning
callbacks, a session lives as its owner may expect. -/
theorem session_lifecycle {callbacks : WebSocketSessionCallbacks} {connectionEpoch : UInt64}
    {s : WebSocketSession} (h : Reachable (system callbacks connectionEpoch) s) :
    Lifecycle callbacks connectionEpoch s := by
  have hinv := inv_of_reachable h
  refine
    { terminalOnce := hinv.rules.count_le_one ?_
      openOnce := hinv.rules.count_le_one ?_
      silentAfterTerminal := ?_
      textWhileOpen := ?_
      oneRead := ?_
      noReadWhilePaused := fun earlier later hlog => (hinv.rules earlier _ later hlog).1
      pauseLetsOneThrough := ?_
      sequences := ?_
      lastSequence := ?_ }
  · intro earlier event hallowed hterminal
    cases event with
    | onTerminal result => exact hallowed.2
    | _ => cases hterminal
  · intro earlier event hallowed hopen e he
    obtain rfl : event = .onOpen := by simpa using hopen
    have hne : e ≠ .onOpen := fun heq => hallowed.1 (heq ▸ he)
    simpa using hne
  · intro earlier event later hlog hkind result hmem
    have hallowed := hinv.rules earlier event later hlog
    have hno : ∀ e ∈ earlier, e.isTerminal = false := by
      rcases hkind with rfl | htext | hcontrol
      · exact hallowed.2
      · cases event with
        | onTextMessage message => exact hallowed.2.2.2.2.2.1
        | _ => cases htext
      · cases event with
        | onControl kind => exact hallowed
        | _ => cases hcontrol
    cases hno _ hmem
  · intro earlier message later hlog
    obtain ⟨hopened, honOpen, hstop, hthrew, hfinished, -⟩ := hinv.rules earlier _ later hlog
    refine ⟨hopened, honOpen, hstop, hthrew, fun result hmem => ?_⟩
    cases hfinished _ hmem
  · rw [hinv.oneRead]
    split <;> omega
  · intro earlier during later hlog hresume
    have hsplit : s.log = earlier ++ [.pauseRequested] ++ during ++ later := by
      rw [hlog]
      simp
    have hrules : History.Always (Allowed callbacks connectionEpoch)
        (earlier ++ [.pauseRequested] ++ during) :=
      History.Always.initial (hsplit ▸ hinv.rules)
    obtain ⟨hissued, htexts⟩ := paused_messages hrules hresume
    have hall := (completed_le_issued hrules).1
    have hbefore := (completed_le_issued (History.Always.initial (History.Always.initial hrules))).2
    simp only [List.count_append, List.count_singleton] at hall
    simp only [outstanding]
    simp at hall
    constructor
    · split at htexts <;> omega
    · omega
  · intro earlier message later hlog
    have hallowed := hinv.rules earlier _ later hlog
    exact ⟨hallowed.2.2.2.2.2.2.1, hallowed.2.2.2.2.2.2.2.1⟩
  · intro result hmem
    obtain ⟨front, rest, hlog⟩ := List.append_of_mem hmem
    have hfinished : .finished result ∈ front := (hinv.rules front _ rest hlog).1
    obtain ⟨earlier, between, rfl⟩ := List.append_of_mem hfinished
    have hsplit : s.log = earlier ++ .finished result :: (between ++ .onTerminal result :: rest) := by
      rw [hlog]
      simp
    refine ⟨earlier, _, hsplit, ?_⟩
    have hnone := texts_after_finished (hsplit ▸ hinv.rules)
    have htotal : texts s.log = texts earlier := by
      rw [hsplit]
      simp only [texts, List.countP_append, List.countP_cons, isText] at hnone ⊢
      simp only [Bool.false_eq_true, if_false] at hnone ⊢
      omega
    rw [htotal]
    exact hinv.rules earlier _ _ hsplit

/-- Two messages, the second let through by a pause, and an orderly close. -/
def sampleLabels : List SessionLabel :=
  [.call .start, .resolved .none, .connected .none true, .tlsHandshaken .none true,
    .handshaken .none, .returned false, .read { bytesTransferred := 1, buffer := [123] },
    .returned false, .call .pauseReads, .read { bytesTransferred := 1, buffer := [125] },
    .returned false, .call .stop, .deadline .closing .operationAborted, .closed .none]

theorem session_lifecycle_sample :
    ∃ s, Reachable (system ⟨true, true, true, true⟩ 7) s ∧ texts s.log = 2 ∧
      s.terminal = true ∧ Lifecycle ⟨true, true, true, true⟩ 7 s := by
  obtain ⟨s, hrun, htexts, hterminal⟩ : ∃ s,
      sampleLabels.foldlM step (create ⟨true, true, true, true⟩ 7) = some s ∧
        texts s.log = 2 ∧ s.terminal = true :=
    ⟨_, rfl, by decide +kernel, by decide +kernel⟩
  have hreach : Reachable (system ⟨true, true, true, true⟩ 7) s :=
    ⟨_, _, rfl, exec_of_foldlM (fun _ _ _ hs => hs) hrun⟩
  exact ⟨s, hreach, htexts, hterminal, session_lifecycle hreach⟩

end WebSocketSession

end MarketCapture
