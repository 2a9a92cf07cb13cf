import MarketCapture.Live.Message
import MarketCapture.Live.ReplayAgreement

/-! # Symbols do not interfere

Two runs of a pipeline: over all messages, and over those whose envelope names a stream of
one symbol. The state of the symbol is the same in both, but for one difference: a message
of another symbol with a later epoch invalidates its book in the first run only. The next
message of the symbol is of that epoch at least, and invalidates it in the second.
-/

namespace MarketCapture

open Simdjson

namespace SymbolState

/-- A state is its identity, its metadata and its books. -/
theorem eq_of_alike {a b : SymbolState} {context : EventContext} (halike : a.Alike b)
    (hbooks : a.SameBooks b) (ha : a.Committed context) (hb : b.Committed context) : b = a := by
  obtain ⟨hsymbol, hvenue, hinstrument, hsequence⟩ := halike
  obtain ⟨hspot, husdm⟩ := hbooks
  obtain ⟨hobserved, hepoch, hlast⟩ := ha
  obtain ⟨hobserved', hepoch', hlast'⟩ := hb
  cases a
  cases b
  simp_all

end SymbolState

namespace LiveEventPipeline

variable {json : Library} {index : Nat}

/-- The index of the symbol whose stream the envelope names, accepted or not. -/
def routedIndex (json : Library) (subscription : LiveSubscription) (payload : Bytes) : Option Nat :=
  (LiveEnvelopeParser.parse json payload subscription).route.map LiveRoute.symbolIndex

/-- The calls that concern a symbol: its own messages, and the ends of sessions. -/
def concerns (json : Library) (subscription : LiveSubscription) (index : Nat) : LiveAction → Bool
  | .invalidateAll => true
  | .message message => decide (routedIndex json subscription message.payload = some index)

/-- The messages of a run. -/
def messages (actions : List LiveAction) : List WebSocketTextMessage :=
  actions.filterMap fun
    | .message message => some message
    | .invalidateAll => none

/-- Messages within the size limit, with valid timestamps and increasing metadata. -/
structure InOrder (actions : List LiveAction) : Prop where
  length : ∀ message ∈ messages actions, message.payload.length ≤ maxPayloadBytes
  nanoseconds : ∀ message ∈ messages actions, 0 ≤ message.receiveTimestamp.nanoseconds.toInt ∧
    message.receiveTimestamp.nanoseconds.toInt < nanosecondsPerSecond
  increasing : (messages actions).Pairwise fun message message' =>
    Precedes message.connectionEpoch message.connectionSequence message'

/-- The batches emitted for a symbol, each with its audit and its order-book row. -/
def emitted (index : Nat) (steps : List LiveStep) : List EventRowBatch :=
  (steps.filter (LiveStep.audits index)).map LiveStep.output

/-! ## One message -/

/-- Whatever comes of a message, it is of the symbol that its envelope names. -/
theorem processReceived_target {p p' : LiveEventPipeline} {message : WebSocketTextMessage}
    {result : LivePipelineResult} {batch : EventRowBatch}
    (h : p.processReceived json message = some (result, batch, p'))
    (htarget : result.targetIndex = some index) :
    routedIndex json p.subscription message.payload = some index := by
  unfold processReceived at h
  dsimp only at h
  split at h
  · next route payload herror hroute hpayload =>
      unfold processRouted at h
      split at h
      · cases h
        cases htarget
      · obtain ⟨⟨event, s, rows, processor⟩, -, h⟩ := Option.bind_eq_some_iff.mp h
        rw [routedIndex, hroute, Option.map_some, ← htarget]
        dsimp only at h
        split at h
        · obtain ⟨rfl, -⟩ := Prod.mk.inj (Option.some.inj h)
          rfl
        · split at h
          · obtain ⟨rfl, -⟩ := Prod.mk.inj (Option.some.inj h)
            rfl
          · split at h
            · obtain ⟨rfl, -⟩ := Prod.mk.inj (Option.some.inj h)
              rfl
            · obtain ⟨rfl, -⟩ := Prod.mk.inj (Option.some.inj h)
              rfl
  · obtain ⟨rfl, -⟩ := Prod.mk.inj (Option.some.inj h)
    exact htarget

/-- The processor's scratch has no part in what it returns. -/
theorem process_scratch (p q : EventProcessor) (json : Library) (s : SymbolState)
    (context : EventContext) (payload : Bytes) (mode : EventOutputMode) :
    (p.process json s context payload mode).map (fun r => (r.1, r.2.1, r.2.2.1)) =
      (q.process json s context payload mode).map (fun r => (r.1, r.2.1, r.2.2.1)) := by
  unfold EventProcessor.process
  split
  · rfl
  · dsimp only
    rw [SpotPayloadParser.parse_eq p.parser q.parser, Option.map_map, Option.map_map]
    rfl

theorem processRouted_same {p q : LiveEventPipeline} {message : WebSocketTextMessage}
    {s : SymbolState} (hsubscription : q.subscription = p.subscription) {route : LiveRoute}
    (hp : p.states[route.symbolIndex]? = some s) (hq : q.states[route.symbolIndex]? = some s)
    {payload : Bytes} {given result result' : LivePipelineResult} {batch batch' : EventRowBatch}
    {p' q' : LiveEventPipeline}
    (h : p.processRouted json message route payload given = some (result, batch, p'))
    (h' : q.processRouted json message route payload given = some (result', batch', q')) :
    result' = result ∧ batch' = batch ∧
      q'.states[route.symbolIndex]? = p'.states[route.symbolIndex]? := by
  have hcontext : q.contextOf message route = p.contextOf message route := by
    unfold contextOf
    rw [hsubscription]
  unfold processRouted at h h'
  rw [hp] at h
  rw [hq, hcontext] at h'
  obtain ⟨⟨event, t, rows, processor⟩, hprocess, h⟩ := Option.bind_eq_some_iff.mp h
  obtain ⟨⟨event', t', rows', processor'⟩, hprocess', h'⟩ := Option.bind_eq_some_iff.mp h'
  have hsame := process_scratch p.eventProcessor q.eventProcessor json s
    (p.contextOf message route) payload .liveCapture
  rw [hprocess, hprocess'] at hsame
  simp only [Option.map_some, Option.some.injEq, Prod.mk.injEq] at hsame
  obtain ⟨rfl, rfl, rfl⟩ := hsame
  have hset : (q.states.set route.symbolIndex t)[route.symbolIndex]? =
      (p.states.set route.symbolIndex t)[route.symbolIndex]? := by
    have hlength := (List.getElem?_eq_some_iff.mp hp).1
    have hlength' := (List.getElem?_eq_some_iff.mp hq).1
    simp [hlength, hlength']
  dsimp only at h h'
  split at h
  · next hfailed =>
      rw [if_pos hfailed] at h'
      cases h
      cases h'
      exact ⟨rfl, rfl, hset⟩
  · next hfailed =>
      rw [if_neg hfailed] at h'
      split at h
      · next hrejected =>
          rw [if_pos hrejected] at h'
          cases h
          cases h'
          exact ⟨rfl, rfl, hset⟩
      · next hrejected =>
          rw [if_neg hrejected] at h'
          split at h
          · next hcontract =>
              rw [if_pos hcontract] at h'
              cases h
              cases h'
              exact ⟨rfl, rfl, hset⟩
          · next hcontract =>
              rw [if_neg hcontract] at h'
              cases h
              cases h'
              exact ⟨rfl, rfl, hset⟩

/-- A rejected envelope does the same to equal states. -/
theorem rejectRoute_same {p q : LiveEventPipeline} {s : SymbolState}
    (hp : p.states[index]? = some s) (hq : q.states[index]? = some s) (route : Option LiveRoute) :
    (q.rejectRoute route).states[index]? = (p.rejectRoute route).states[index]? := by
  unfold rejectRoute
  split
  · rw [hp, hq]
  · split
    · rw [List.getElem?_modify, List.getElem?_modify, hp, hq]
    · rw [hp, hq]

/-- Two pipelines with the same state of the symbol whose stream the envelope names. -/
theorem processReceived_same {p q : LiveEventPipeline} {message : WebSocketTextMessage}
    {s : SymbolState} (hsubscription : q.subscription = p.subscription)
    (hp : p.states[index]? = some s) (hq : q.states[index]? = some s)
    (hroute : routedIndex json p.subscription message.payload = some index)
    {result result' : LivePipelineResult} {batch batch' : EventRowBatch}
    {p' q' : LiveEventPipeline} (h : p.processReceived json message = some (result, batch, p'))
    (h' : q.processReceived json message = some (result', batch', q')) :
    result' = result ∧ batch' = batch ∧ q'.states[index]? = p'.states[index]? := by
  unfold processReceived at h h'
  rw [hsubscription] at h'
  dsimp only at h h'
  split at h
  · next route payload herror hfound hpayload =>
      have hindex : route.symbolIndex = index := by
        rw [routedIndex, hfound, Option.map_some] at hroute
        exact Option.some.inj hroute
      split at h'
      · next route' payload' _ hfound' hpayload' =>
          obtain rfl := Option.some.inj (hfound.symm.trans hfound')
          obtain rfl := Option.some.inj (hpayload.symm.trans hpayload')
          subst hindex
          exact processRouted_same hsubscription hp hq h h'
      · next hnone => exact absurd hpayload (hnone route payload herror hfound)
  · next hnone =>
      split at h'
      · next route payload herror hfound hpayload =>
          exact absurd hpayload (hnone route payload herror hfound)
      · cases h
        cases h'
        exact ⟨rfl, rfl, rejectRoute_same hp hq _⟩

/-- Processing leaves a book valid, or as an invalidation leaves it. -/
theorem Effect.idle {p : LiveEventPipeline} {message : WebSocketTextMessage} {s s' : SymbolState}
    {result : LivePipelineResult} {batch : EventRowBatch}
    (h : Effect json p message index s result batch s') (hidle : s.Idle) : s'.Idle := by
  cases h with
  | kept _ => exact hidle
  | envelopeRejected _ _ _ _ => exact s.idle_invalidate
  | payloadRejected _ _ _ _ => exact (hidle.passed _ _).commitContext _
  | audited _ _ _ _ _ hparsed herror hstatus =>
      obtain ⟨t, -, halike, hcommitted, hcommitted', htwin, -, -⟩ :=
        processParsed_twin (.refl s) (fun _ => .refl _) hparsed herror hstatus
      cases htwin with
      | passed _ hs' _ => exact hs' ▸ (hidle.passed _ _).commitContext _
      | booked _ hbooks ht =>
          rw [← SymbolState.eq_of_alike halike hbooks hcommitted hcommitted']
          exact ht hidle

/-! ## Two runs -/

/-- The pipeline `p` of the whole run, with the state `a` of the symbol, and the pipeline `q` of
its own run, with the state `b`. -/
structure Apart (index : Nat) (p q : LiveEventPipeline) (a b : SymbolState) : Prop where
  ok : p.Ok ∧ q.Ok
  subscription : q.subscription = p.subscription
  state : p.states[index]? = some a
  state' : q.states[index]? = some b
  idle : b.Idle
  known : q.hasConnectionMetadata = true → p.hasConnectionMetadata = true ∧
    q.connectionEpoch ≤ p.connectionEpoch
  books : (a = b ∧ (b.bookValid = true →
      q.hasConnectionMetadata = true ∧ q.connectionEpoch = p.connectionEpoch)) ∨
    (a = b.invalidate ∧ q.hasConnectionMetadata = true ∧ q.connectionEpoch < p.connectionEpoch)

/-- The messages to come are ahead of the pipeline. -/
def Ahead (p : LiveEventPipeline) (actions : List LiveAction) : Prop :=
  p.hasConnectionMetadata = true → ∀ message ∈ messages actions,
    Precedes p.connectionEpoch p.lastConnectionSequence message

section Relation

variable {p q : LiveEventPipeline} {a b : SymbolState} {message : WebSocketTextMessage}

theorem bookValid_invalidate (s : SymbolState) : s.invalidate.bookValid = false := by
  simp [SymbolState.bookValid, TopFiveBook.invalidate]

theorem Apart.invalidateAll (h : Apart index p q a b) :
    Apart index p.invalidateAll q.invalidateAll b.invalidate b.invalidate := by
  have hbooks : a.invalidate = b.invalidate := by
    rcases h.books with ⟨rfl, -⟩ | ⟨rfl, -, -⟩
    · rfl
    · rw [SymbolState.invalidate_invalidate]
  refine ⟨⟨h.ok.1.invalidateAll, h.ok.2.invalidateAll⟩, h.subscription, ?_, ?_,
    b.idle_invalidate, h.known, .inl ⟨rfl, fun hvalid => ?_⟩⟩
  · rw [← hbooks]
    simp [LiveEventPipeline.invalidateAll, h.state]
  · simp [LiveEventPipeline.invalidateAll, h.state']
  · rw [bookValid_invalidate] at hvalid
    cases hvalid

/-- The state of a symbol once a message is received. -/
theorem receive_state (p : LiveEventPipeline) (message : WebSocketTextMessage) {s : SymbolState}
    (hs : p.states[index]? = some s) :
    (p.receive message).states[index]? =
      some (if p.hasConnectionMetadata = true ∧ p.connectionEpoch < message.connectionEpoch then
        s.invalidate else s) := by
  unfold receive
  simp only [Bool.and_eq_true, decide_eq_true_eq, gt_iff_lt]
  split
  · simp [LiveEventPipeline.invalidateAll, hs]
  · exact hs

/-- A message of another symbol: at most the book is invalidated. -/
theorem Apart.other (h : Apart index p q a b)
    (hadmitted : p.hasConnectionMetadata = true → p.connectionEpoch ≤ message.connectionEpoch)
    {p' : LiveEventPipeline} (hok : p'.Ok) (hsame : (p.receive message).SameMetadata p')
    {a' : SymbolState} (hstate : (p.receive message).states[index]? = some a')
    (hstate' : p'.states[index]? = some a') : Apart index p' q a' b := by
  have hepoch : p'.connectionEpoch = message.connectionEpoch := hsame.epoch
  have ha' : a' = if p.hasConnectionMetadata = true ∧
      p.connectionEpoch < message.connectionEpoch then a.invalidate else a :=
    Option.some.inj (hstate.symm.trans (receive_state p message h.state))
  refine ⟨⟨hok, h.ok.2⟩, ?_, hstate', h.state', h.idle, fun hknown => ⟨hsame.known, ?_⟩, ?_⟩
  · rw [hsame.subscription, receive_subscription]
    exact h.subscription
  · obtain ⟨hp, hle⟩ := h.known hknown
    rw [hepoch]
    exact UInt64.le_trans hle (hadmitted hp)
  · by_cases hlater : p.hasConnectionMetadata = true ∧ p.connectionEpoch < message.connectionEpoch
    · rw [if_pos hlater] at ha'
      rcases h.books with ⟨rfl, hvalid⟩ | ⟨rfl, hknown, hlt⟩
      · cases hv : a.bookValid with
        | true =>
            obtain ⟨hknown, heq⟩ := hvalid hv
            exact .inr ⟨ha', hknown, by rw [heq, hepoch]; exact hlater.2⟩
        | false => exact .inl ⟨ha'.trans (h.idle hv), fun htrue => by cases htrue⟩
      · rw [SymbolState.invalidate_invalidate] at ha'
        exact .inr ⟨ha', hknown, by rw [hepoch]; exact UInt64.lt_trans hlt hlater.2⟩
    · rw [if_neg hlater] at ha'
      have hsteady : p.hasConnectionMetadata = true → p'.connectionEpoch = p.connectionEpoch := by
        intro hp
        rw [hepoch]
        exact UInt64.le_antisymm (UInt64.not_lt.mp fun hlt => hlater ⟨hp, hlt⟩) (hadmitted hp)
      rcases h.books with ⟨rfl, hvalid⟩ | ⟨rfl, hknown, hlt⟩
      · refine .inl ⟨ha', fun hv => ?_⟩
        obtain ⟨hknown, heq⟩ := hvalid hv
        exact ⟨hknown, heq.trans (hsteady (h.known hknown).1).symm⟩
      · exact .inr ⟨ha', hknown, by rw [hsteady (h.known hknown).1]; exact hlt⟩

/-- A message of the symbol finds the same state in both runs. -/
theorem Apart.received (h : Apart index p q a b)
    (hadmitted : p.hasConnectionMetadata = true → p.connectionEpoch ≤ message.connectionEpoch) :
    ∃ s, (p.receive message).states[index]? = some s ∧
      (q.receive message).states[index]? = some s ∧ s.Idle := by
  refine ⟨_, receive_state p message h.state, ?_, ?_⟩
  · rw [receive_state q message h.state', Option.some.injEq]
    rcases h.books with ⟨rfl, hvalid⟩ | ⟨rfl, hknown, hlt⟩
    · cases hv : a.bookValid with
      | true =>
          obtain ⟨hknown, heq⟩ := hvalid hv
          rw [hknown, (h.known hknown).1, heq]
      | false =>
          rw [h.idle hv, ite_self, ite_self]
    · have hp := h.known hknown
      rw [if_pos ⟨hknown, UInt64.lt_of_lt_of_le hlt (hadmitted hp.1)⟩,
        SymbolState.invalidate_invalidate, ite_self]
  · split
    · exact a.idle_invalidate
    · rcases h.books with ⟨rfl, -⟩ | ⟨rfl, -, -⟩
      · exact h.idle
      · exact b.idle_invalidate

end Relation

/-! ## Runs -/

section Runs

variable {p q : LiveEventPipeline} {a b : SymbolState} {message : WebSocketTextMessage}
  {actions : List LiveAction}

theorem InOrder.invalidateAll (h : InOrder (.invalidateAll :: actions)) : InOrder actions :=
  ⟨h.length, h.nanoseconds, h.increasing⟩

theorem InOrder.head (h : InOrder (.message message :: actions)) :
    InOrder actions ∧ message.payload.length ≤ maxPayloadBytes ∧
      (0 ≤ message.receiveTimestamp.nanoseconds.toInt ∧
        message.receiveTimestamp.nanoseconds.toInt < nanosecondsPerSecond) ∧
      ∀ message' ∈ messages actions,
        Precedes message.connectionEpoch message.connectionSequence message' := by
  have hmessages : messages (.message message :: actions) = message :: messages actions := rfl
  obtain ⟨hlength, hnanoseconds, hincreasing⟩ := h
  rw [hmessages] at hlength hnanoseconds hincreasing
  rw [List.pairwise_cons] at hincreasing
  exact ⟨⟨fun m hm => hlength m (List.mem_cons_of_mem _ hm),
    fun m hm => hnanoseconds m (List.mem_cons_of_mem _ hm), hincreasing.2⟩,
    hlength message List.mem_cons_self, hnanoseconds message List.mem_cons_self, hincreasing.1⟩

theorem Ahead.tail {action : LiveAction} (h : p.Ahead (action :: actions)) : p.Ahead actions := by
  intro hknown message hm
  refine h hknown message ?_
  cases action with
  | invalidateAll => exact hm
  | message _ => exact List.mem_cons_of_mem _ hm

/-- A message without a sequence number is refused, whatever came before. -/
theorem process_refused (p : LiveEventPipeline) (hzero : message.connectionSequence = 0) :
    p.process json message = some (fatalResult .invalidMessageMetadata, {}, p) := by
  have hinvalid : p.validMessageMetadata message = false := by
    rw [Bool.eq_false_iff]
    intro hvalid
    exact (validMessageMetadata_iff.mp hvalid).2.2.1 hzero
  simp [process, hinvalid]

/-- Every other message that comes in order is admitted. -/
theorem process_ahead (json : Library) (hahead : p.Ahead (.message message :: actions))
    (hin : InOrder (.message message :: actions)) (hzero : message.connectionSequence ≠ 0) :
    p.process json message = (p.receive message).processReceived json message ∧
      (p.hasConnectionMetadata = true → p.connectionEpoch ≤ message.connectionEpoch) := by
  obtain ⟨-, hlength, hnanoseconds, -⟩ := hin.head
  have hvalid : p.validMessageMetadata message = true :=
    validMessageMetadata_iff.mpr ⟨hnanoseconds.1, hnanoseconds.2, hzero, fun hknown =>
      hahead hknown message List.mem_cons_self⟩
  refine ⟨?_, epoch_le_of_validMessageMetadata hvalid⟩
  unfold process
  rw [if_neg (by simp [hvalid]), if_neg (Nat.not_lt.mpr hlength)]

theorem ahead_received {p' : LiveEventPipeline} (hsame : (p.receive message).SameMetadata p')
    (hin : InOrder (.message message :: actions)) : p'.Ahead actions := by
  intro _ message' hm
  rw [show p'.connectionEpoch = message.connectionEpoch from hsame.epoch,
    show p'.lastConnectionSequence = message.connectionSequence from hsame.sequence]
  exact hin.head.2.2.2 message' hm

theorem emitted_cons (index : Nat) (step : LiveStep) (steps : List LiveStep) :
    emitted index (step :: steps) =
      if step.audits index then step.output :: emitted index steps else emitted index steps := by
  unfold emitted
  rw [List.filter_cons]
  split <;> simp [*]

theorem run_cons_invalidateAll {steps : List LiveStep}
    (h : p.invalidateAll.run json actions = some steps) :
    p.run json (.invalidateAll :: actions) = some ({ before := p, action := .invalidateAll } :: steps) := by
  simp only [LiveEventPipeline.run, Option.bind_eq_bind]
  exact Option.bind_eq_some_iff.mpr ⟨steps, h, rfl⟩

theorem run_cons_message {p' : LiveEventPipeline} {result : LivePipelineResult}
    {batch : EventRowBatch} {steps : List LiveStep}
    (hprocess : p.process json message = some (result, batch, p'))
    (h : p'.run json actions = some steps) :
    p.run json (.message message :: actions) =
      some (⟨p, .message message, result, batch⟩ :: steps) := by
  simp only [LiveEventPipeline.run, Option.bind_eq_bind]
  exact Option.bind_eq_some_iff.mpr ⟨_, hprocess, Option.bind_eq_some_iff.mpr ⟨steps, h, rfl⟩⟩

/-- The run over all messages and the run over the symbol's own emit the same for it. -/
theorem Apart.run (hin : InOrder actions) (h : Apart index p q a b) (hp : p.Ahead actions)
    (hq : q.Ahead actions) :
    ∃ steps steps', p.run json actions = some steps ∧
      q.run json (actions.filter (concerns json p.subscription index)) = some steps' ∧
      emitted index steps' = emitted index steps := by
  induction actions generalizing p q a b with
  | nil => exact ⟨[], [], rfl, rfl, rfl⟩
  | cons action actions ih =>
      cases action with
      | invalidateAll =>
          obtain ⟨steps, steps', hrun, hrun', hemitted⟩ :=
            ih hin.invalidateAll h.invalidateAll hp hq
          refine ⟨_, { before := q, action := .invalidateAll } :: steps',
            run_cons_invalidateAll hrun, ?_, ?_⟩
          · rw [List.filter_cons_of_pos rfl]
            exact run_cons_invalidateAll hrun'
          · rw [emitted_cons, emitted_cons]
            exact hemitted
      | message message =>
          have htail := hin.head.1
          by_cases hzero : message.connectionSequence = 0
          · -- refused in both runs, if it is in both
            obtain ⟨steps, steps', hrun, hrun', hemitted⟩ := ih htail h hp.tail hq.tail
            have hrefused := run_cons_message (process_refused p hzero) hrun
            have hemitted' : emitted index (⟨p, .message message,
                fatalResult .invalidMessageMetadata, {}⟩ :: steps) = emitted index steps := by
              rw [emitted_cons]
              rfl
            rw [List.filter_cons]
            split
            · refine ⟨_, _, hrefused, run_cons_message (process_refused q hzero) hrun', ?_⟩
              rw [hemitted', emitted_cons]
              exact hemitted
            · exact ⟨_, steps', hrefused, hrun', hemitted.trans hemitted'.symm⟩
          · obtain ⟨hprocess, hadmitted⟩ := process_ahead json hp hin hzero
            obtain ⟨result, batch, p', hreceived, hok, hsame, heffect⟩ :=
              processReceived_effect json (h.ok.1.receive message) message
            have hsubscription : p'.subscription = p.subscription := by
              rw [hsame.subscription, receive_subscription]
            by_cases hown : routedIndex json p.subscription message.payload = some index
            · obtain ⟨s, hs, hs', hidle⟩ := h.received hadmitted
              obtain ⟨hprocess', -⟩ := process_ahead json hq hin hzero
              obtain ⟨result', batch', q', hreceived', hok', hsame', heffect'⟩ :=
                processReceived_effect json (h.ok.2.receive message) message
              obtain ⟨rfl, rfl, hstates⟩ := processReceived_same
                (by rw [receive_subscription, receive_subscription, h.subscription]) hs hs'
                (by rw [receive_subscription]; exact hown) hreceived hreceived'
              obtain ⟨s', hafter, heffects⟩ := heffect index s hs
              have hapart : Apart index p' q' s' s' :=
                { ok := ⟨hok, hok'⟩
                  subscription := by
                    rw [hsubscription, hsame'.subscription, receive_subscription, h.subscription]
                  state := hafter
                  state' := hstates.trans hafter
                  idle := heffects.idle hidle
                  known := fun _ => ⟨hsame.known, by
                    rw [hsame'.epoch, hsame.epoch]
                    exact UInt64.le_refl _⟩
                  books := .inl ⟨rfl, fun _ => ⟨hsame'.known, by rw [hsame'.epoch, hsame.epoch]; rfl⟩⟩ }
              obtain ⟨steps, steps', hrun, hrun', hemitted⟩ :=
                ih htail hapart (ahead_received hsame hin) (ahead_received hsame' hin)
              rw [hsubscription] at hrun'
              refine ⟨_, ⟨q, .message message, result', batch'⟩ :: steps',
                run_cons_message (hprocess.trans hreceived) hrun, ?_, ?_⟩
              · rw [List.filter_cons_of_pos (by simp [concerns, hown])]
                exact run_cons_message (hprocess'.trans hreceived') hrun'
              · rw [emitted_cons, emitted_cons, hemitted]
                rfl
            · have hother : ¬ (result.targetIndex = some index) := fun htarget =>
                hown (by
                  have := processReceived_target hreceived htarget
                  rwa [receive_subscription] at this)
              have hstate := receive_state p message h.state
              obtain ⟨s', hafter, heffects⟩ := heffect index _ hstate
              have hkept : p'.states[index]? = (p.receive message).states[index]? := by
                rw [hafter, hstate]
                cases heffects with
                | kept _ => rfl
                | envelopeRejected _ htarget _ _ => exact absurd htarget hother
                | payloadRejected _ htarget _ _ => exact absurd htarget hother
                | audited _ htarget _ _ _ _ _ _ => exact absurd htarget hother
              obtain ⟨steps, steps', hrun, hrun', hemitted⟩ :=
                ih htail (h.other hadmitted hok hsame hstate (hkept.trans hstate))
                  (ahead_received hsame hin) hq.tail
              rw [hsubscription] at hrun'
              refine ⟨_, steps', run_cons_message (hprocess.trans hreceived) hrun, ?_, ?_⟩
              · rw [List.filter_cons_of_neg (by simp [concerns, hown])]
                exact hrun'
              · rw [emitted_cons, if_neg (by simp [LiveStep.audits, hother])]
                exact hemitted

end Runs

/-! ## Noninterference -/

theorem create_subscription {subscription : LiveSubscription} {p : LiveEventPipeline}
    (h : create subscription = .ok p) : p.subscription = subscription := by
  unfold create at h
  split at h
  · cases h
  · split at h
    · cases h
    · obtain rfl := Except.ok.inj h
      rfl

/-- A run over messages in order emits for every symbol the batches, one by one, that the run over
the messages of its own streams emits. -/
theorem symbol_noninterference (json : Library) {venue : PayloadVenue} {symbols : List Bytes}
    {subscription : LiveSubscription} {pipeline : LiveEventPipeline} {actions : List LiveAction}
    (hsub : LiveSubscription.create venue symbols = .ok subscription)
    (hpipe : LiveEventPipeline.create subscription = .ok pipeline) (hin : InOrder actions) :
    ∃ steps, pipeline.run json actions = some steps ∧
      ∀ (index : Nat) (symbol : Bytes), symbols[index]? = some symbol →
        ∃ steps', pipeline.run json (actions.filter (concerns json subscription index)) =
            some steps' ∧
          emitted index steps' = emitted index steps := by
  obtain ⟨hok, hfresh, hstates⟩ := create_ok hsub hpipe
  have hsubscription : pipeline.subscription = subscription := create_subscription hpipe
  have hahead : pipeline.Ahead actions := fun hknown => by simp [hfresh] at hknown
  have hapart : ∀ (index : Nat) (symbol : Bytes), symbols[index]? = some symbol →
      ∃ s, Apart index pipeline pipeline s s := by
    intro index symbol hsymbol
    obtain ⟨-, s, hcreate, hs⟩ := hstates index symbol hsymbol
    obtain ⟨-, -, -, -, hinvalid, -⟩ := SymbolState.create_ok hcreate
    exact ⟨s, ⟨hok, hok⟩, rfl, hs, hs, SymbolState.create_idle hcreate,
      fun hknown => by simp [hfresh] at hknown,
      .inl ⟨rfl, fun hvalid => by simp [hinvalid] at hvalid⟩⟩
  obtain ⟨steps, hrun⟩ := hok.run_total json actions
  refine ⟨steps, hrun, fun index symbol hsymbol => ?_⟩
  obtain ⟨s, hs⟩ := hapart index symbol hsymbol
  obtain ⟨steps₁, steps', hrun₁, hrun', hemitted⟩ := hs.run hin hahead hahead
  obtain rfl := Option.some.inj (hrun.symm.trans hrun₁)
  exact ⟨steps', hsubscription ▸ hrun', hemitted⟩

/-! ### Two symbols of one connection -/

section Sample

private def quotedRefresh : Compact := .refresh 100 [("10", "1")] [("11", "2")]

private def quotedDiff : Compact := .diff 101 101 [("9", "5")] []

private def quotedEnvelopes : List Compact :=
  [.envelope "btcusdt@depth5@100ms" quotedRefresh, .envelope "btcusdt@depth@100ms" quotedDiff,
    .envelope "ethusdt@depth5@100ms" quotedRefresh]

private def quotedLibrary : Library :=
  .ofDocuments (quotedRefresh :: quotedDiff :: quotedEnvelopes)

private def quotedMessage (epoch sequence : UInt64) (index : Nat) : LiveAction :=
  .message
    { connectionEpoch := epoch
      connectionSequence := sequence
      payload := (quotedEnvelopes.getD index (.array [])).text }

/-- A refresh of each symbol, the second in a later epoch, and an event of the first symbol: its
book was invalidated by the other symbol's message. -/
private def quotedActions : List LiveAction :=
  [quotedMessage 0 1 0, quotedMessage 1 1 2, quotedMessage 1 2 1, quotedMessage 1 3 0]

private def quotedPipeline : Option (LiveSubscription × LiveEventPipeline) := do
  let subscription ← (LiveSubscription.create .spot [ascii "BTCUSDT", ascii "ETHUSDT"]).toOption
  let pipeline ← (LiveEventPipeline.create subscription).toOption
  pure (subscription, pipeline)

private theorem quotedActions_inOrder : InOrder quotedActions :=
  ⟨by decide +kernel, by decide +kernel, by unfold Precedes; decide +kernel⟩

theorem symbol_noninterference_sample : ∃ subscription pipeline steps steps',
    quotedPipeline = some (subscription, pipeline) ∧
    pipeline.run quotedLibrary quotedActions = some steps ∧
    pipeline.run quotedLibrary
      (quotedActions.filter (concerns quotedLibrary subscription 0)) = some steps' ∧
    steps.length = 4 ∧ steps'.length = 3 ∧ (emitted 0 steps).length = 3 ∧
    emitted 0 steps' = emitted 0 steps := by
  have hreport : (quotedPipeline.bind fun created =>
      (created.2.run quotedLibrary quotedActions).bind fun steps =>
        (created.2.run quotedLibrary
          (quotedActions.filter (concerns quotedLibrary created.1 0))).map fun steps' =>
            (steps.length, steps'.length, (emitted 0 steps).length)) = some (4, 3, 3) := by
    decide +kernel
  obtain ⟨⟨subscription, pipeline⟩, hcreated, hreport⟩ := Option.bind_eq_some_iff.mp hreport
  obtain ⟨steps, hrun, hreport⟩ := Option.bind_eq_some_iff.mp hreport
  obtain ⟨steps', hrun', hfacts⟩ := Option.map_eq_some_iff.mp hreport
  have hpipeline := hcreated
  simp only [quotedPipeline, Option.bind_eq_bind, Option.bind_eq_some_iff, Option.pure_def,
    Option.some.injEq, Prod.mk.injEq] at hpipeline
  obtain ⟨_, hsub, _, hpipe, rfl, rfl⟩ := hpipeline
  obtain ⟨steps₁, hrun₁, hsame⟩ := symbol_noninterference quotedLibrary (ok_of_toOption hsub)
    (ok_of_toOption hpipe) quotedActions_inOrder
  obtain ⟨steps₂, hrun₂, hemitted⟩ := hsame 0 (ascii "BTCUSDT") rfl
  obtain rfl := Option.some.inj (hrun.symm.trans hrun₁)
  obtain rfl := Option.some.inj (hrun'.symm.trans hrun₂)
  simp only [Prod.mk.injEq] at hfacts
  exact ⟨_, _, steps, steps', hcreated, hrun, hrun', hfacts.1, hfacts.2.1, hfacts.2.2, hemitted⟩

end Sample

end LiveEventPipeline

end MarketCapture
