import MarketCapture.Session.Lifecycle

/-! # A session and its owner

What the owner has to know of one step of its session: a call changes neither what was
delivered nor whether the session has opened, and a handler that runs a callback runs
one, after a change the owner can name.
-/

namespace MarketCapture

namespace WebSocketSession

open SessionEvent

/-- Nothing was opened or delivered. -/
structure Steady (s s' : WebSocketSession) : Prop where
  epoch : s'.connectionEpoch = s.connectionEpoch
  opened : .opened ∈ s'.log ↔ .opened ∈ s.log
  texts : texts s'.log = texts s.log

theorem Steady.refl (s : WebSocketSession) : Steady s s := ⟨rfl, Iff.rfl, rfl⟩

theorem Steady.trans {s s' s'' : WebSocketSession} (h : Steady s s') (h' : Steady s' s'') :
    Steady s s'' :=
  ⟨h'.epoch.trans h.epoch, h'.opened.trans h.opened, h'.texts.trans h.texts⟩

/-- An event that neither opens nor delivers. -/
theorem steady_record (s : WebSocketSession) {event : SessionEvent} (hopened : event ≠ .opened)
    (htext : event.isText = false) : Steady s (s.record event) := by
  refine ⟨rfl, ?_, ?_⟩
  · simp [record, Ne.symm hopened]
  · show WebSocketSession.texts (s.log ++ [event]) = _
    rw [texts_concat, htext]
    rfl

theorem steady_finish (s : WebSocketSession) (code : WebSocketSessionErrorCode)
    (stage : WebSocketSessionStage) (nativeError : NativeError) :
    Steady s (s.finish code stage nativeError) := by
  unfold finish
  split
  · exact .refl s
  · have hended : ∀ result, Steady s (s.ended result) := fun result => by
      have h : Steady s (s.record (.finished result)) := steady_record s nofun rfl
      exact ⟨rfl, h.opened, h.texts⟩
    dsimp only
    split
    · exact (hended _).trans (steady_record _ nofun rfl)
    · exact hended _

theorem steady_issueRead (s : WebSocketSession) : Steady s s.issueRead := by
  unfold issueRead
  split
  · exact .refl s
  · have h : Steady s (s.record .readIssued) := steady_record s nofun rfl
    exact ⟨rfl, h.opened, h.texts⟩

theorem steady_readOn (s : WebSocketSession) : Steady s s.readOn := by
  unfold readOn
  split
  · exact steady_issueRead s
  · exact .refl s

theorem steady_call (s : WebSocketSession) (c : SessionCall) : Steady s (s.call c) := by
  cases c with
  | start =>
      have hrecord : Steady s (s.record .startRequested) := steady_record s (fun h => by cases h) rfl
      refine hrecord.trans ?_
      simp only [call, WebSocketSession.start]
      split <;> exact ⟨rfl, Iff.rfl, rfl⟩
  | stop =>
      have hrecord : Steady s (s.record .stopRequested) := steady_record s (fun h => by cases h) rfl
      refine hrecord.trans ?_
      simp only [call, WebSocketSession.stop]
      split
      · exact .refl _
      split
      · exact .refl _
      split
      · exact ⟨rfl, Iff.rfl, rfl⟩
      split
      · exact steady_finish _ _ _ _
      · exact ⟨rfl, Iff.rfl, rfl⟩
  | pauseReads =>
      have hrecord : Steady s (s.record .pauseRequested) := steady_record s (fun h => by cases h) rfl
      refine hrecord.trans ?_
      simp only [call, WebSocketSession.pauseReads]
      split <;> exact ⟨rfl, Iff.rfl, rfl⟩
  | resumeReads =>
      have hrecord : Steady s (s.record .resumeRequested) := steady_record s (fun h => by cases h) rfl
      refine hrecord.trans ?_
      simp only [call, WebSocketSession.resumeReads]
      split
      · exact .refl _
      · refine Steady.trans ?_ (steady_issueRead _)
        exact ⟨rfl, Iff.rfl, rfl⟩

theorem steady_returned (s : WebSocketSession) (callback : SessionCallback) (threw : Bool) :
    Steady s ({ s with running := none }.returned callback threw) := by
  have hidle : Steady s { s with running := none } := ⟨rfl, Iff.rfl, rfl⟩
  refine hidle.trans ?_
  unfold returned
  have hrecord : Steady ({ s with running := none } : WebSocketSession)
      (if threw then ({ s with running := none } : WebSocketSession).record .callbackThrew
        else { s with running := none }) := by
    split
    · exact steady_record _ nofun rfl
    · exact .refl _
  refine hrecord.trans ?_
  generalize (if threw then ({ s with running := none } : WebSocketSession).record .callbackThrew
    else { s with running := none }) = t
  cases callback with
  | «open» =>
      simp only [afterCallback]
      split
      · exact (steady_finish _ _ _ _).trans (steady_readOn _)
      · exact steady_readOn t
  | text message =>
      simp only [afterCallback]
      split
      · exact steady_finish _ _ _ _
      · exact steady_readOn t
  | control kind => exact ⟨rfl, Iff.rfl, rfl⟩

/-! ## Messages -/

theorem captureReceiveTimestamp_nanoseconds {seconds nanoseconds : Int} {timestamp : CsvTimestamp}
    (h : captureReceiveTimestamp seconds nanoseconds = some timestamp) :
    0 ≤ timestamp.nanoseconds.toInt ∧ timestamp.nanoseconds.toInt < nanosecondsPerSecond := by
  unfold captureReceiveTimestamp at h
  split at h
  · cases h
  · next hrange =>
      cases h
      have hlimit : nanosecondsPerSecond = 1000000000 := rfl
      simp only [not_or, ge_iff_le, Int.not_lt, Int.not_le] at hrange
      have hexact : (Int32.ofInt nanoseconds).toInt = nanoseconds :=
        Int32.toInt_ofInt_of_le (by omega) (by omega)
      rw [hexact]
      omega

/-- What holds of every message that a session delivers. -/
structure Delivers (s s' : WebSocketSession) (message : WebSocketTextMessage) : Prop where
  isOpen : s.state = .open ∧ s'.state = .open
  opened : .opened ∈ s'.log
  epoch : message.connectionEpoch = s.connectionEpoch ∧ s'.connectionEpoch = s.connectionEpoch
  sequence : message.connectionSequence.toNat = texts s.log + 1
  texts : texts s'.log = texts s.log + 1
  nanoseconds : 0 ≤ message.receiveTimestamp.nanoseconds.toInt ∧
    message.receiveTimestamp.nanoseconds.toInt < nanosecondsPerSecond
  payload : message.payload.length ≤ maxPayloadBytes
  reading : s.readInProgress = true ∧ s'.readInProgress = false
  gate : s'.readsPaused = s.readsPaused

/-- One handler of a session whose callbacks are all set. -/
inductive HandlerCase (s s' : WebSocketSession) : Prop
  | quiet : s'.running = none → Steady s s' →
      (s'.readInProgress = true → s.readInProgress = true) →
      (s'.state = .open → s.state = .open) → s'.readsPaused = s.readsPaused → HandlerCase s s'
  | opens : s'.running = some .open → s.state = .websocketHandshaking → s'.state = .open →
      .opened ∈ s'.log → s'.connectionEpoch = s.connectionEpoch → texts s'.log = texts s.log →
      s'.readInProgress = s.readInProgress → s'.readsPaused = s.readsPaused → HandlerCase s s'
  | text (message : WebSocketTextMessage) : s'.running = some (.text message) →
      Delivers s s' message → HandlerCase s s'
  | control (kind : WebSocketControlKind) : s'.running = some (.control kind) → Steady s s' →
      s'.readInProgress = s.readInProgress → s'.state = s.state → s'.readsPaused = s.readsPaused →
      s'.inControlCallback = true → HandlerCase s s'

section Handlers

variable {s : WebSocketSession}

@[simp] theorem finish_running (code : WebSocketSessionErrorCode) (stage : WebSocketSessionStage)
    (nativeError : NativeError) : (s.finish code stage nativeError).running = s.running := by
  unfold finish
  split
  · rfl
  · dsimp only
    split <;> rfl

@[simp] theorem finish_readInProgress (code : WebSocketSessionErrorCode)
    (stage : WebSocketSessionStage) (nativeError : NativeError) :
    (s.finish code stage nativeError).readInProgress = s.readInProgress := by
  unfold finish
  split
  · rfl
  · dsimp only
    split <;> rfl

@[simp] theorem finish_readsPaused (code : WebSocketSessionErrorCode)
    (stage : WebSocketSessionStage) (nativeError : NativeError) :
    (s.finish code stage nativeError).readsPaused = s.readsPaused := by
  unfold finish
  split
  · rfl
  · dsimp only
    split <;> rfl

theorem finish_state (code : WebSocketSessionErrorCode) (stage : WebSocketSessionStage)
    (nativeError : NativeError) : (s.finish code stage nativeError).state = .terminal := by
  unfold finish
  split
  · assumption
  · dsimp only
    split <;> rfl

@[simp] theorem finish_inControlCallback (code : WebSocketSessionErrorCode)
    (stage : WebSocketSessionStage) (nativeError : NativeError) :
    (s.finish code stage nativeError).inControlCallback = s.inControlCallback := by
  unfold finish
  split
  · rfl
  · dsimp only
    split <;> rfl

/-- What neither a call nor a handler outside a control frame does: touch the callback that
runs, or go back to the start. -/
structure Framed (s s' : WebSocketSession) : Prop where
  running : s'.running = s.running
  inControlCallback : s'.inControlCallback = s.inControlCallback
  state : s.state ≠ .idle → s'.state ≠ .idle

theorem Framed.trans {s' s'' : WebSocketSession} (h : Framed s s') (h' : Framed s' s'') :
    Framed s s'' :=
  ⟨h'.running.trans h.running, h'.inControlCallback.trans h.inControlCallback,
    fun hs => h'.state (h.state hs)⟩

theorem framed_finish (s : WebSocketSession) (code : WebSocketSessionErrorCode)
    (stage : WebSocketSessionStage) (nativeError : NativeError) :
    Framed s (s.finish code stage nativeError) :=
  ⟨finish_running _ _ _, finish_inControlCallback _ _ _, fun _ => by rw [finish_state]; nofun⟩

theorem framed_issueRead (s : WebSocketSession) : Framed s s.issueRead := by
  unfold issueRead
  split <;> exact ⟨rfl, rfl, id⟩

theorem framed_readOn (s : WebSocketSession) : Framed s s.readOn := by
  unfold readOn
  split
  · exact framed_issueRead s
  · exact ⟨rfl, rfl, id⟩

theorem framed_call (s : WebSocketSession) (c : SessionCall) : Framed s (s.call c) := by
  cases c with
  | start =>
      simp only [call, WebSocketSession.start]
      split
      · exact ⟨rfl, rfl, id⟩
      · exact ⟨rfl, rfl, fun _ h => by cases h⟩
  | stop =>
      have hrecord : Framed s (s.record .stopRequested) := ⟨rfl, rfl, id⟩
      refine hrecord.trans ?_
      simp only [call, WebSocketSession.stop]
      split
      · exact ⟨rfl, rfl, id⟩
      split
      · exact ⟨rfl, rfl, id⟩
      split
      · exact ⟨rfl, rfl, id⟩
      split
      · exact framed_finish _ _ _ _
      · exact ⟨rfl, rfl, fun _ h => by cases h⟩
  | pauseReads =>
      simp only [call, WebSocketSession.pauseReads]
      split <;> exact ⟨rfl, rfl, id⟩
  | resumeReads =>
      simp only [call, WebSocketSession.resumeReads]
      split
      · exact ⟨rfl, rfl, id⟩
      · refine Framed.trans ?_ (framed_issueRead _)
        exact ⟨rfl, rfl, id⟩

/-- Outside a control frame a session that is stopped is closing at least. -/
theorem call_stop_state (hcalm : s.inControlCallback = false) :
    (s.call .stop).state = .closing ∨ (s.call .stop).state = .terminal := by
  simp only [call, WebSocketSession.stop]
  split
  · next hstate => exact .inr hstate
  split
  · next hstate => exact .inl hstate
  split
  · next hcontrol =>
      rw [show s.inControlCallback = true from hcontrol] at hcalm
      cases hcalm
  split
  · exact .inr (finish_state _ _ _)
  · exact .inl rfl

theorem call_pauseReads_state : (s.call .pauseReads).state = s.state := by
  simp only [call, WebSocketSession.pauseReads]
  split <;> rfl

/-- Whatever the callback did, no handler is left in a control frame. -/
theorem returned_calm (hcalm : s.inControlCallback = false) (callback : SessionCallback)
    (threw : Bool) :
    ({ s with running := none }.returned callback threw).running = none ∧
      ({ s with running := none }.returned callback threw).inControlCallback = false ∧
      (s.state ≠ .idle → ({ s with running := none }.returned callback threw).state ≠ .idle) := by
  have hidle : ({ s with running := none } : WebSocketSession).running = none := rfl
  have hthrew : Framed ({ s with running := none } : WebSocketSession)
      (if threw then ({ s with running := none } : WebSocketSession).record .callbackThrew
        else { s with running := none }) := by
    split <;> exact ⟨rfl, rfl, id⟩
  unfold returned
  revert hthrew
  generalize (if threw then ({ s with running := none } : WebSocketSession).record .callbackThrew
    else { s with running := none }) = t
  intro hthrew
  have hframed : ∀ u, Framed t u →
      u.running = none ∧ u.inControlCallback = false ∧ (s.state ≠ .idle → u.state ≠ .idle) := by
    intro u hu
    have h := hthrew.trans hu
    exact ⟨h.running.trans hidle, h.inControlCallback.trans hcalm, h.state⟩
  cases callback with
  | «open» =>
      simp only [afterCallback]
      split
      · exact hframed _ ((framed_finish _ _ _ _).trans (framed_readOn _))
      · exact hframed _ (framed_readOn t)
  | text message =>
      simp only [afterCallback]
      split
      · exact hframed _ (framed_finish _ _ _ _)
      · exact hframed _ (framed_readOn t)
  | control kind => exact ⟨hthrew.running.trans hidle, rfl, hthrew.state⟩

/-- A handler is in a control frame only if it runs the callback for it. -/
theorem handle_calm {label : SessionLabel} {s' : WebSocketSession}
    (hs : s.handle label = some s') :
    (s'.inControlCallback = s.inControlCallback ∨ ∃ kind, s'.running = some (.control kind)) ∧
      (s.state ≠ .idle → s'.state ≠ .idle) := by
  have hframed : ∀ {t u : WebSocketSession}, Framed t u →
      t.inControlCallback = s.inControlCallback → (s.state ≠ .idle → t.state ≠ .idle) →
      (u.inControlCallback = s.inControlCallback ∨ ∃ kind, u.running = some (.control kind)) ∧
        (s.state ≠ .idle → u.state ≠ .idle) :=
    fun hu hcalm hstate => ⟨.inl (hu.inControlCallback.trans hcalm), fun h => hu.state (hstate h)⟩
  cases label with
  | call c => cases hs
  | returned threw => cases hs
  | resolved error =>
      cases hs
      unfold onResolve
      split
      · exact ⟨.inl rfl, id⟩
      · split
        · exact hframed (framed_finish _ _ _ _) rfl id
        · exact ⟨.inl rfl, fun _ => nofun⟩
  | connected error hostNameSet =>
      cases hs
      unfold onConnect
      split
      · exact ⟨.inl rfl, id⟩
      · split
        · exact hframed (framed_finish _ _ _ _) rfl id
        · split
          · exact hframed (framed_finish _ _ _ _) rfl id
          · exact ⟨.inl rfl, fun _ => nofun⟩
  | tlsHandshaken error verified =>
      cases hs
      unfold onTlsHandshake
      split
      · exact ⟨.inl rfl, id⟩
      · split
        · exact hframed (framed_finish _ _ _ _) rfl id
        · exact ⟨.inl rfl, fun _ => nofun⟩
  | handshaken error =>
      cases hs
      unfold onHandshake
      split
      · exact ⟨.inl rfl, id⟩
      · split
        · exact hframed (framed_finish _ _ _ _) rfl id
        · dsimp only
          split
          · exact ⟨.inl rfl, fun _ => nofun⟩
          · exact hframed (framed_readOn _) rfl (fun _ => nofun)
  | read completion =>
      simp only [handle] at hs
      split at hs
      · cases hs
        simp only [WebSocketSession.onRead]
        split
        · exact ⟨.inl rfl, id⟩
        split
        · exact ⟨.inl rfl, id⟩
        split
        · exact hframed (framed_finish _ _ _ _) rfl id
        split
        · exact hframed (framed_finish _ _ _ _) rfl id
        split
        · exact hframed (framed_finish _ _ _ _) rfl id
        split
        · exact hframed (framed_finish _ _ _ _) rfl id
        split
        · exact hframed (framed_finish _ _ _ _) rfl id
        unfold deliver
        split
        · exact hframed (framed_finish _ _ _ _) rfl id
        split
        · exact hframed (framed_finish _ _ _ _) rfl id
        split
        · exact hframed (framed_finish _ _ _ _) rfl id
        · exact ⟨.inl rfl, id⟩
      · cases hs
  | closed error =>
      cases hs
      unfold onClose
      split
      · exact ⟨.inl rfl, id⟩
      · split
        · exact hframed (framed_finish _ _ _ _) rfl id
        · split
          · exact hframed (framed_finish _ _ _ _) rfl id
          · exact hframed (framed_finish _ _ _ _) rfl id
  | deadline expectedState error =>
      obtain ⟨stage, -, rfl⟩ := Option.map_eq_some_iff.mp hs
      unfold onDeadline
      split
      · exact ⟨.inl rfl, id⟩
      · exact hframed (framed_finish _ _ _ _) rfl id
  | controlFrame kind =>
      cases hs
      unfold onControlFrame
      split
      · exact ⟨.inl rfl, id⟩
      · exact ⟨.inr ⟨kind, rfl⟩, id⟩

theorem handlerCase_finish (hrunning : s.running = none) (code : WebSocketSessionErrorCode)
    (stage : WebSocketSessionStage) (nativeError : NativeError) :
    HandlerCase s (s.finish code stage nativeError) := by
  refine .quiet (by rw [finish_running, hrunning]) (steady_finish s _ _ _) ?_ ?_ ?_
  · rw [finish_readInProgress]
    exact id
  · intro hopen
    rw [finish_state] at hopen
    cases hopen
  · exact finish_readsPaused _ _ _

theorem handlerCase_refl (hrunning : s.running = none) : HandlerCase s s :=
  .quiet hrunning (.refl s) id id rfl

/-- A session that moves on to another state, other than open. -/
theorem handlerCase_state (hrunning : s.running = none) {state : SessionState}
    (hstate : state ≠ .open) : HandlerCase s { s with state := state } :=
  .quiet hrunning ⟨rfl, Iff.rfl, rfl⟩ id (fun hopen => absurd hopen hstate) rfl

variable {configured : WebSocketSessionCallbacks} {connectionEpoch : UInt64}

theorem handlerCase_onRead (h : Inv configured connectionEpoch s) (hrunning : s.running = none)
    (hpending : 0 < s.pendingReads) {completion : ReadCompletion}
    (hlength : completion.buffer.length ≤ maxPayloadBytes) :
    HandlerCase s
      ({ s.record .readCompleted with pendingReads := s.pendingReads - 1 }.onRead completion) := by
  have hprogress : s.readInProgress = true := by
    by_contra hnone
    have := h.oneRead
    rw [if_neg hnone] at this
    omega
  have hrecord : Steady s (s.record .readCompleted) := steady_record s (fun h => by cases h) rfl
  -- every end of the read but the delivery
  have hfinish : ∀ (sequence : UInt64) code stage nativeError, HandlerCase s
      (({ s.record .readCompleted with
          pendingReads := s.pendingReads - 1
          readInProgress := false
          connectionSequence := sequence } : WebSocketSession).finish code stage nativeError) := by
    intro sequence code stage nativeError
    refine .quiet ?_ ?_ ?_ ?_ ?_
    · rw [finish_running]
      exact hrunning
    · refine Steady.trans ?_ (steady_finish _ _ _ _)
      exact ⟨rfl, hrecord.opened, hrecord.texts⟩
    · rw [finish_readInProgress]
      intro hread
      cases hread
    · intro hopen
      rw [finish_state] at hopen
      cases hopen
    · rw [finish_readsPaused]
      rfl
  have hkept := hfinish s.connectionSequence
  simp only [WebSocketSession.onRead]
  rw [if_neg (by simp [WebSocketSession.record, hprogress])]
  split
  · next hopen =>
      exact .quiet hrunning ⟨rfl, hrecord.opened, hrecord.texts⟩ (fun h => by cases h)
        (fun ho => absurd ho hopen) rfl
  · next hguard =>
      have hopen : s.state = .open := not_not.mp hguard
      have hlive : s.state ≠ .terminal := by rw [hopen]; intro h; cases h
      split
      · exact hkept _ _ _
      · split
        · exact hkept _ _ _
        · split
          · exact hkept _ _ _
          · split
            · exact hkept _ _ _
            · split
              · exact hkept _ _ _
              · next hbound =>
                  have hsequence : (s.connectionSequence + 1).toNat = texts s.log + 1 := by
                    have hlt := s.connectionSequence.toNat_lt
                    have hmax : s.connectionSequence.toNat ≠ 2 ^ 64 - 1 := hbound
                    have hseq := h.sequence hlive
                    rw [UInt64.toNat_add, UInt64.toNat_one]
                    omega
                  unfold deliver
                  split
                  · exact hfinish _ _ _ _
                  · next timestamp htimestamp =>
                      split
                      · exact hfinish _ _ _ _
                      · split
                        · exact hfinish _ _ _ _
                        · refine .text _ rfl ⟨⟨hopen, hopen⟩, ?_, ⟨rfl, rfl⟩, hsequence, ?_,
                            captureReceiveTimestamp_nanoseconds htimestamp, hlength,
                            ⟨hprogress, rfl⟩, rfl⟩
                          · simp [WebSocketSession.record, (h.isOpen hopen).1]
                          · show texts (s.log ++ [.readCompleted] ++ [_]) = _
                            rw [texts_concat, texts_concat]
                            rfl

/-- What a handler does, for an owner that has set every callback. -/
theorem handlerCase_of_handle (h : Inv configured connectionEpoch s) (hrunning : s.running = none)
    (hlive : s.state ≠ .terminal) (hset : configured = ⟨true, true, true, true⟩)
    {label : SessionLabel} {s' : WebSocketSession} (hs : s.handle label = some s') :
    HandlerCase s s' := by
  have hcallbacks := h.callbacks hlive
  cases label with
  | call c => cases hs
  | returned threw => cases hs
  | resolved error =>
      cases hs
      unfold onResolve
      split
      · exact handlerCase_refl hrunning
      · split
        · exact handlerCase_finish hrunning _ _ _
        · exact handlerCase_state hrunning (fun h => by cases h)
  | connected error hostNameSet =>
      cases hs
      unfold onConnect
      split
      · exact handlerCase_refl hrunning
      · split
        · exact handlerCase_finish hrunning _ _ _
        · split
          · exact handlerCase_finish hrunning _ _ _
          · exact handlerCase_state hrunning (fun h => by cases h)
  | tlsHandshaken error verified =>
      cases hs
      unfold onTlsHandshake
      split
      · exact handlerCase_refl hrunning
      · split
        · exact handlerCase_finish hrunning _ _ _
        · exact handlerCase_state hrunning (fun h => by cases h)
  | handshaken error =>
      cases hs
      unfold onHandshake
      split
      · exact handlerCase_refl hrunning
      · next hguard =>
          have hstate := not_not.mp hguard
          split
          · exact handlerCase_finish hrunning _ _ _
          · dsimp only
            rw [if_pos (by simp [WebSocketSession.record, hcallbacks, hset])]
            refine .opens rfl hstate rfl (by simp [WebSocketSession.record]) rfl ?_ rfl rfl
            show texts (s.log ++ [.opened] ++ [.onOpen]) = _
            rw [texts_concat, texts_concat]
            rfl
  | read completion =>
      simp only [handle] at hs
      split at hs
      · next hread =>
          cases hs
          exact handlerCase_onRead h hrunning hread.1 hread.2
      · cases hs
  | closed error =>
      cases hs
      unfold onClose
      split
      · exact handlerCase_refl hrunning
      · split
        · exact handlerCase_finish hrunning _ _ _
        · split
          · exact handlerCase_finish hrunning _ _ _
          · exact handlerCase_finish hrunning _ _ _
  | deadline expectedState error =>
      obtain ⟨stage, -, rfl⟩ := Option.map_eq_some_iff.mp hs
      unfold onDeadline
      split
      · exact handlerCase_refl hrunning
      · exact handlerCase_finish hrunning _ _ _
  | controlFrame kind =>
      cases hs
      unfold onControlFrame
      split
      · exact handlerCase_refl hrunning
      · have hrecord : Steady s (s.record (.onControl kind)) := steady_record s (fun h => by cases h) rfl
        exact .control kind rfl ⟨rfl, hrecord.opened, hrecord.texts⟩ rfl rfl rfl rfl

end Handlers

end WebSocketSession

end MarketCapture
