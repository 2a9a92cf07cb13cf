import MarketCapture.Live.Envelope
import MarketCapture.Processor.RowBounds

/-! # The live event pipeline

One text message: check its metadata, invalidate every book on a later epoch, parse
the envelope, and process the payload on the state of the routed symbol. A failed
assertion of a book is `none`.
-/

namespace MarketCapture

open Simdjson

structure WebSocketTextMessage where
  receiveTimestamp : CsvTimestamp := {}
  connectionEpoch : UInt64 := 0
  connectionSequence : UInt64 := 0
  payload : Bytes := []
  deriving DecidableEq

inductive LivePipelineCreateError where
  | invalidSubscription | stateInitializationFailure
  deriving DecidableEq, Repr

inductive LivePipelineDisposition where
  | notProcessed | batchReady | preAuditRejected | fatalError
  deriving DecidableEq, Repr

inductive LivePipelineErrorCode where
  | none
  | invalidMessageMetadata
  | messageTooLarge
  | routeStateMismatch
  | eventProcessingFailed
  | invalidBatchContract
  deriving DecidableEq, Repr

structure LivePipelineResult where
  disposition : LivePipelineDisposition := .notProcessed
  error : LivePipelineErrorCode := .none
  envelopeError : LiveEnvelopeErrorCode := .none
  envelopeField : LiveEnvelopeField := .none
  event : EventProcessResult := {}
  route : Option LiveRoute := none
  targetIndex : Option Nat := none
  deriving DecidableEq, Repr

def fatalResult (error : LivePipelineErrorCode) : LivePipelineResult :=
  { disposition := .fatalError, error := error }

structure LiveEventPipeline where
  subscription : LiveSubscription
  states : List SymbolState
  eventProcessor : EventProcessor := {}
  hasConnectionMetadata : Bool := false
  connectionEpoch : UInt64 := 0
  lastConnectionSequence : UInt64 := 0

namespace LiveEventPipeline

def create (subscription : LiveSubscription) : Except LivePipelineCreateError LiveEventPipeline :=
  if subscription.symbols.length = 0 ∨ subscription.symbols.length > maxConfiguredSymbols ∨
      subscription.routes.length ≠ subscription.symbols.length * streamsPerSymbol then
    .error .invalidSubscription
  else
    match subscription.symbols.mapM (SymbolState.create subscription.venue) with
    | none => .error .stateInitializationFailure
    | some states => .ok { subscription := subscription, states := states }

def validMessageMetadata (p : LiveEventPipeline) (message : WebSocketTextMessage) : Bool :=
  if message.receiveTimestamp.nanoseconds.toInt < 0 ∨
      message.receiveTimestamp.nanoseconds.toInt ≥ nanosecondsPerSecond ∨
      message.connectionSequence = 0 then false
  else if !p.hasConnectionMetadata then true
  else if message.connectionEpoch < p.connectionEpoch then false
  else decide (message.connectionEpoch ≠ p.connectionEpoch) ||
    decide (message.connectionSequence > p.lastConnectionSequence)

def invalidateAll (p : LiveEventPipeline) : LiveEventPipeline :=
  { p with states := p.states.map SymbolState.invalidate }

/-- The pipeline once a message has passed the checks. -/
def receive (p : LiveEventPipeline) (message : WebSocketTextMessage) : LiveEventPipeline :=
  let p := if p.hasConnectionMetadata && decide (message.connectionEpoch > p.connectionEpoch)
    then p.invalidateAll else p
  { p with hasConnectionMetadata := true, connectionEpoch := message.connectionEpoch,
           lastConnectionSequence := message.connectionSequence }

/-- A rejected envelope invalidates the symbol whose differential stream it names. -/
def rejectRoute (p : LiveEventPipeline) : Option LiveRoute → LiveEventPipeline
  | none => p
  | some route =>
      if route.streamKind = .depthDiff then
        { p with states := p.states.modify route.symbolIndex SymbolState.invalidate }
      else p

def contextOf (p : LiveEventPipeline) (message : WebSocketTextMessage) (route : LiveRoute) :
    EventContext :=
  { timestamp := message.receiveTimestamp, venue := p.subscription.venue,
    streamKind := route.streamKind, shardId := 0, connectionEpoch := message.connectionEpoch,
    connectionSequence := message.connectionSequence, symbol := route.normalizedSymbol }

/-- The end of `process` for an accepted envelope. -/
def processRouted (p : LiveEventPipeline) (json : Library) (message : WebSocketTextMessage)
    (route : LiveRoute) (payload : Bytes) (result : LivePipelineResult) :
    Option (LivePipelineResult × EventRowBatch × LiveEventPipeline) :=
  match p.states[route.symbolIndex]? with
  | none => some (fatalResult .routeStateMismatch, {}, p)
  | some state => do
      let (event, state, batch, processor) ←
        p.eventProcessor.process json state (p.contextOf message route) payload .liveCapture
      let p := { p with states := p.states.set route.symbolIndex state, eventProcessor := processor }
      let result := { result with targetIndex := some route.symbolIndex, event := event }
      if !event.success then
        return ({ result with disposition := .fatalError, error := .eventProcessingFailed }, {}, p)
      else if event.status = .preAuditRejected then
        return ({ result with disposition := .preAuditRejected }, {}, p)
      else if !batch.hasAuditRow || batch.auditRow.isEmpty ||
          decide (batch.hasOrderBookRow = batch.orderBookRow.isEmpty) then
        return ({ result with disposition := .fatalError, error := .invalidBatchContract }, {}, p)
      else return ({ result with disposition := .batchReady }, batch, p)

/-- `process` on a pipeline that has admitted the message. -/
def processReceived (p : LiveEventPipeline) (json : Library) (message : WebSocketTextMessage) :
    Option (LivePipelineResult × EventRowBatch × LiveEventPipeline) :=
  let envelope := LiveEnvelopeParser.parse json message.payload p.subscription
  let result : LivePipelineResult :=
    { route := envelope.route, envelopeError := envelope.error, envelopeField := envelope.field }
  match envelope.error, envelope.route, envelope.payload with
  | .none, some route, some payload => p.processRouted json message route payload result
  | _, _, _ =>
      some ({ result with disposition := .preAuditRejected,
                          targetIndex := envelope.route.map LiveRoute.symbolIndex },
        {}, p.rejectRoute envelope.route)

def process (p : LiveEventPipeline) (json : Library) (message : WebSocketTextMessage) :
    Option (LivePipelineResult × EventRowBatch × LiveEventPipeline) :=
  if !p.validMessageMetadata message then some (fatalResult .invalidMessageMetadata, {}, p)
  else if message.payload.length > maxPayloadBytes then
    some (fatalResult .messageTooLarge, {}, p)
  else (p.receive message).processReceived json message

/-! ## What a message does to one symbol -/

/-- Well-formed states, one for each symbol of the subscription. -/
structure Ok (p : LiveEventPipeline) : Prop where
  states : ∀ s ∈ p.states, s.Ok
  symbols : p.states.map SymbolState.symbol = p.subscription.symbols
  venues : ∀ s ∈ p.states, s.venue = p.subscription.venue
  routed : p.subscription.Routed

/-- The envelope of the message has this route and this payload. -/
def Carries (json : Library) (p : LiveEventPipeline) (message : WebSocketTextMessage)
    (route : LiveRoute) (payload : Bytes) : Prop :=
  let envelope := LiveEnvelopeParser.parse json message.payload p.subscription
  envelope.route = some route ∧ envelope.payload = some payload

/-- What a message, admitted by `p`, does to the state of the symbol at an index. -/
inductive Effect (json : Library) (p : LiveEventPipeline) (message : WebSocketTextMessage)
    (index : Nat) (s : SymbolState) :
    LivePipelineResult → EventRowBatch → SymbolState → Prop
  /-- Other symbols and failed messages. -/
  | kept {result : LivePipelineResult} {batch : EventRowBatch} :
      ¬ (result.disposition = .batchReady ∧ result.targetIndex = some index) →
      Effect json p message index s result batch s
  | envelopeRejected {result : LivePipelineResult} {batch : EventRowBatch} {route : LiveRoute} :
      result.disposition = .preAuditRejected → result.targetIndex = some index →
      result.route = some route → route.streamKind = .depthDiff →
      Effect json p message index s result batch s.invalidate
  | payloadRejected {result : LivePipelineResult} {batch : EventRowBatch} {route : LiveRoute} :
      result.disposition = .preAuditRejected → result.targetIndex = some index →
      result.route = some route → contextIsValid s (p.contextOf message route) = true →
      Effect json p message index s result batch
        ((s.passed (p.contextOf message route) (decide (route.streamKind = .depthDiff))).commitContext
          (p.contextOf message route))
  | audited {result : LivePipelineResult} {batch : EventRowBatch} {s' : SymbolState}
      {route : LiveRoute} {payload : Bytes} :
      result.disposition = .batchReady → result.targetIndex = some index →
      result.route = some route → Carries json p message route payload →
      contextIsValid s (p.contextOf message route) = true →
      processParsed s (p.contextOf message route) payload .liveCapture
        (parsedMessage json (p.contextOf message route) payload) =
          some (result.event, s', batch) →
      result.event.error = .none → result.event.status ≠ .preAuditRejected →
      Effect json p message index s result batch s'

theorem Ok.state {p : LiveEventPipeline} (h : p.Ok) {index : Nat} {s : SymbolState}
    (hs : p.states[index]? = some s) :
    s.Ok ∧ p.subscription.symbols[index]? = some s.symbol ∧ s.venue = p.subscription.venue := by
  refine ⟨h.states s (List.mem_of_getElem? hs), ?_, h.venues s (List.mem_of_getElem? hs)⟩
  rw [← h.symbols, List.getElem?_map, hs, Option.map_some]

/-- The state at an index belongs to the same symbol in every pipeline of a subscription. -/
theorem Ok.identity {p q : LiveEventPipeline} {index : Nat} {s t : SymbolState} (hp : p.Ok)
    (hs : p.states[index]? = some s) (hq : q.Ok) (hsame : q.subscription = p.subscription)
    (ht : q.states[index]? = some t) : t.venue = s.venue ∧ t.symbol = s.symbol := by
  obtain ⟨-, hsymbol, hvenue⟩ := hp.state hs
  obtain ⟨-, hsymbol', hvenue'⟩ := hq.state ht
  rw [hsame] at hsymbol' hvenue'
  exact ⟨hvenue'.trans hvenue.symm, Option.some.inj (hsymbol'.symm.trans hsymbol)⟩

/-- A known route has a state. -/
theorem Ok.routed_state {p : LiveEventPipeline} (h : p.Ok) {route : LiveRoute}
    (hroute : route ∈ p.subscription.routes) : ∃ s, p.states[route.symbolIndex]? = some s := by
  have hsymbol := h.routed route hroute
  rw [← h.symbols, List.getElem?_map, Option.map_eq_some_iff] at hsymbol
  obtain ⟨s, hs, -⟩ := hsymbol
  exact ⟨s, hs⟩

/-- Replacing states by well-formed ones of the same symbols. -/
theorem Ok.replace {p : LiveEventPipeline} (h : p.Ok) {states : List SymbolState}
    (hstates : ∀ (index : Nat) (s' : SymbolState), states[index]? = some s' →
      ∃ s, p.states[index]? = some s ∧ s'.Ok ∧ s'.symbol = s.symbol ∧ s'.venue = s.venue)
    (hlength : states.length = p.states.length) :
    ({ p with states := states } : LiveEventPipeline).Ok := by
  have found : ∀ s' ∈ states, s'.Ok ∧ s'.venue = p.subscription.venue := by
    intro s' hs'
    obtain ⟨index, hindex⟩ := List.getElem?_of_mem hs'
    obtain ⟨s, hs, hok, -, hvenue⟩ := hstates index s' hindex
    exact ⟨hok, hvenue.trans (h.venues s (List.mem_of_getElem? hs))⟩
  refine ⟨fun s' hs' => (found s' hs').1, ?_, fun s' hs' => (found s' hs').2, h.routed⟩
  rw [← h.symbols]
  apply List.ext_getElem?
  intro index
  rw [List.getElem?_map, List.getElem?_map]
  cases hs' : states[index]? with
  | none =>
      have hnone : p.states[index]? = none := by
        rw [List.getElem?_eq_none_iff] at hs' ⊢
        omega
      rw [hnone]
  | some s' =>
      obtain ⟨s, hs, -, hsymbol, -⟩ := hstates index s' hs'
      rw [hs, Option.map_some, Option.map_some, hsymbol]

theorem Ok.invalidateAll {p : LiveEventPipeline} (h : p.Ok) : p.invalidateAll.Ok := by
  refine h.replace ?_ (by simp)
  intro index s' hs'
  rw [List.getElem?_map, Option.map_eq_some_iff] at hs'
  obtain ⟨s, hs, rfl⟩ := hs'
  exact ⟨s, hs, (h.state hs).1.invalidate, s.invalidate_symbol, s.invalidate_venue⟩

theorem receive_subscription (p : LiveEventPipeline) (message : WebSocketTextMessage) :
    (p.receive message).subscription = p.subscription := by
  unfold receive
  dsimp only
  split <;> rfl

theorem Ok.receive {p : LiveEventPipeline} (h : p.Ok) (message : WebSocketTextMessage) :
    (p.receive message).Ok := by
  have metadata : ∀ q : LiveEventPipeline, q.Ok →
      ({ q with hasConnectionMetadata := true, connectionEpoch := message.connectionEpoch,
                lastConnectionSequence := message.connectionSequence } : LiveEventPipeline).Ok :=
    fun q hq => ⟨hq.states, hq.symbols, hq.venues, hq.routed⟩
  unfold LiveEventPipeline.receive
  apply metadata
  split
  · exact h.invalidateAll
  · exact h

theorem Ok.set {p : LiveEventPipeline} (h : p.Ok) {index : Nat} {s s' : SymbolState}
    (hs : p.states[index]? = some s) (hok : s'.Ok) (hsymbol : s'.symbol = s.symbol)
    (hvenue : s'.venue = s.venue) (processor : EventProcessor) :
    ({ p with states := p.states.set index s', eventProcessor := processor } :
      LiveEventPipeline).Ok := by
  have hset : ({ p with states := p.states.set index s' } : LiveEventPipeline).Ok := by
    refine h.replace ?_ (by simp)
    intro i t ht
    rw [List.getElem?_set] at ht
    split at ht
    · rename_i hi
      split at ht
      · obtain rfl := Option.some.inj ht
        exact ⟨s, hi ▸ hs, hok, hsymbol, hvenue⟩
      · cases ht
    · exact ⟨t, ht, (h.state ht).1, rfl, rfl⟩
  exact ⟨hset.states, hset.symbols, hset.venues, hset.routed⟩

theorem Ok.rejectRoute {p : LiveEventPipeline} (h : p.Ok) (route : Option LiveRoute) :
    (p.rejectRoute route).Ok := by
  unfold LiveEventPipeline.rejectRoute
  split
  · exact h
  · split
    · refine h.replace ?_ (by simp)
      intro index s' hs'
      rw [List.getElem?_modify] at hs'
      obtain ⟨s, hs, rfl⟩ := Option.map_eq_some_iff.mp hs'
      refine ⟨s, hs, ?_⟩
      split
      · exact ⟨(h.state hs).1.invalidate, s.invalidate_symbol, s.invalidate_venue⟩
      · exact ⟨(h.state hs).1, rfl, rfl⟩
    · exact h

/-- A pipeline with the metadata and the subscription of another. -/
structure SameMetadata (p q : LiveEventPipeline) : Prop where
  subscription : q.subscription = p.subscription
  known : q.hasConnectionMetadata = p.hasConnectionMetadata
  epoch : q.connectionEpoch = p.connectionEpoch
  sequence : q.lastConnectionSequence = p.lastConnectionSequence

theorem rejectRoute_metadata (p : LiveEventPipeline) (route : Option LiveRoute) :
    p.SameMetadata (p.rejectRoute route) := by
  unfold rejectRoute
  split
  · exact ⟨rfl, rfl, rfl, rfl⟩
  · split <;> exact ⟨rfl, rfl, rfl, rfl⟩

/-- Only the state at the index of a rejected differential route changes. -/
theorem rejectRoute_effect {json : Library} {p : LiveEventPipeline} {message : WebSocketTextMessage}
    {result : LivePipelineResult} {batch : EventRowBatch} {route : Option LiveRoute} {index : Nat}
    {s : SymbolState} (hs : p.states[index]? = some s)
    (hdisposition : result.disposition = .preAuditRejected) (hroute : result.route = route)
    (htarget : result.targetIndex = route.map LiveRoute.symbolIndex) :
    ∃ s', (p.rejectRoute route).states[index]? = some s' ∧
      Effect json p message index s result batch s' := by
  have hkept : Effect json p message index s result batch s := .kept (by simp [hdisposition])
  unfold rejectRoute
  split
  · exact ⟨s, hs, hkept⟩
  · rename_i route
    split
    · rename_i hkind
      by_cases hindex : route.symbolIndex = index
      · refine ⟨s.invalidate, ?_, .envelopeRejected hdisposition ?_ hroute hkind⟩
        · rw [List.getElem?_modify, hs]
          simp [hindex]
        · rw [htarget, Option.map_some, hindex]
      · refine ⟨s, ?_, hkept⟩
        rw [List.getElem?_modify, hs]
        simp [hindex]
    · exact ⟨s, hs, hkept⟩

end LiveEventPipeline

/-! ## The effect of a message -/

namespace LiveEventPipeline

theorem processRouted_effect {json : Library} {p : LiveEventPipeline} (hok : p.Ok)
    (message : WebSocketTextMessage) {route : LiveRoute}
    (hmem : route ∈ p.subscription.routes) {payload : Bytes}
    (hcarries : Carries json p message route payload) {result : LivePipelineResult}
    (hroute : result.route = some route) :
    ∃ result' batch p', p.processRouted json message route payload result =
        some (result', batch, p') ∧ p'.Ok ∧ p.SameMetadata p' ∧
      ∀ index s, p.states[index]? = some s →
        ∃ s', p'.states[index]? = some s' ∧ Effect json p message index s result' batch s' := by
  obtain ⟨s, hs⟩ := hok.routed_state hmem
  obtain ⟨hsok, -, hvenue⟩ := hok.state hs
  obtain ⟨event, s', batch, processor, hprocess, hout, -⟩ :=
    p.eventProcessor.process_outcome json hsok (p.contextOf message route) payload .liveCapture
  obtain ⟨hsok', hsymbol', hvenue'⟩ := hout.ok hsok
  have hset := hok.set hs hsok' hsymbol' hvenue' processor
  -- the routed symbol gets the processed state, the others keep theirs
  have effects : ∀ result' batch', (result'.targetIndex = some route.symbolIndex) →
      Effect json p message route.symbolIndex s result' batch' s' →
      ∀ index t, p.states[index]? = some t →
        ∃ t', (p.states.set route.symbolIndex s')[index]? = some t' ∧
          Effect json p message index t result' batch' t' := by
    intro result' batch' htarget heffect index t ht
    rw [List.getElem?_set]
    by_cases hindex : route.symbolIndex = index
    · subst hindex
      obtain rfl := Option.some.inj (hs.symm.trans ht)
      obtain ⟨hlt, -⟩ := List.getElem?_eq_some_iff.mp hs
      exact ⟨s', by simp [hlt], heffect⟩
    · refine ⟨t, by simp [hindex, ht], .kept ?_⟩
      rintro ⟨-, h⟩
      rw [htarget] at h
      exact hindex (Option.some.inj h)
  unfold processRouted
  rw [hs]
  simp only [hprocess, Option.bind_eq_bind, Option.bind_some]
  split
  · rename_i hfailed
    have hsame : s' = s := by
      cases hout with
      | failed _ _ => rfl
      | rejected _ herr _ _ => simp [EventProcessResult.success, herr] at hfailed
      | trade _ herr _ _ => simp [EventProcessResult.success, herr] at hfailed
      | depth _ herr _ _ _ _ _ _ _ _ => simp [EventProcessResult.success, herr] at hfailed
    subst hsame
    exact ⟨_, _, _, rfl, hset, ⟨rfl, rfl, rfl, rfl⟩, effects _ _ rfl (.kept (by simp))⟩
  · rename_i hsuccess
    have herror : event.error = .none := by
      simpa [EventProcessResult.success] using hsuccess
    have hcontext : contextIsValid s (p.contextOf message route) = true := by
      cases hout with
      | failed herr _ => exact absurd herror herr
      | rejected hc _ _ _ => exact hc
      | trade hc _ _ _ => exact hc
      | depth hc _ _ _ _ _ _ _ _ _ => exact hc
    obtain ⟨processor', heq⟩ :=
      p.eventProcessor.process_eq json payload .liveCapture hcontext
    rw [hprocess] at heq
    obtain ⟨⟨event', t, batch'⟩, hparsed, heq⟩ := Option.map_eq_some_iff.mp heq.symm
    simp only [Prod.mk.injEq] at heq
    obtain ⟨rfl, rfl, rfl, rfl⟩ := heq
    split
    · rename_i hstatus
      refine ⟨_, _, _, rfl, hset, ⟨rfl, rfl, rfl, rfl⟩, effects _ _ rfl ?_⟩
      rw [processParsed_rejected hparsed hstatus]
      exact .payloadRejected rfl rfl hroute hcontext
    · rename_i hstatus
      obtain ⟨-, haudit, hhas, hbook⟩ := audited_row hsok hcontext hparsed herror hstatus
      have hcontract : (!batch'.hasAuditRow || batch'.auditRow.isEmpty ||
          decide (batch'.hasOrderBookRow = batch'.orderBookRow.isEmpty)) = false := by
        have hne := auditText_ne_nil (auditRowOf (p.contextOf message route) payload)
        rw [haudit, hhas, hbook]
        cases batch'.orderBookRow.isEmpty <;> simpa using hne
      rw [hcontract]
      refine ⟨_, _, _, rfl, hset, ⟨rfl, rfl, rfl, rfl⟩, effects _ _ rfl ?_⟩
      exact .audited rfl rfl hroute hcarries hcontext hparsed herror hstatus

/-- An admitted message returns, keeps the pipeline well formed, and does one of the
listed things to each symbol. -/
theorem processReceived_effect (json : Library) {p : LiveEventPipeline} (hok : p.Ok)
    (message : WebSocketTextMessage) :
    ∃ result batch p', p.processReceived json message = some (result, batch, p') ∧ p'.Ok ∧
      p.SameMetadata p' ∧
      ∀ index s, p.states[index]? = some s →
        ∃ s', p'.states[index]? = some s' ∧ Effect json p message index s result batch s' := by
  have hknown := LiveEnvelopeParser.parse_known json message.payload p.subscription
  unfold processReceived
  simp only
  split
  · rename_i route payload _ hroute hpayload
    exact processRouted_effect hok message (hknown route hroute) ⟨hroute, hpayload⟩ hroute
  · refine ⟨_, _, _, rfl, hok.rejectRoute _, rejectRoute_metadata p _, ?_⟩
    intro index s hs
    exact rejectRoute_effect hs rfl rfl rfl

theorem epoch_le_of_validMessageMetadata {p : LiveEventPipeline} {message : WebSocketTextMessage}
    (h : p.validMessageMetadata message = true) (hknown : p.hasConnectionMetadata = true) :
    p.connectionEpoch ≤ message.connectionEpoch := by
  unfold validMessageMetadata at h
  split at h
  · cases h
  · simp only [hknown, Bool.not_true, Bool.false_eq_true, ↓reduceIte] at h
    split at h
    · cases h
    · rename_i hlow
      exact UInt64.not_lt.mp hlow

/-- A message is refused and nothing changes, or it is admitted. -/
theorem process_cases (json : Library) {p : LiveEventPipeline} (hok : p.Ok)
    (message : WebSocketTextMessage) :
    (∃ error, p.process json message = some (fatalResult error, {}, p)) ∨
    p.validMessageMetadata message = true ∧
      ∃ result batch p', p.process json message = some (result, batch, p') ∧ p'.Ok ∧
        (p.receive message).SameMetadata p' ∧
        ∀ index s, (p.receive message).states[index]? = some s →
          ∃ s', p'.states[index]? = some s' ∧
            Effect json (p.receive message) message index s result batch s' := by
  unfold process
  split
  · exact .inl ⟨_, rfl⟩
  · rename_i hvalid
    split
    · exact .inl ⟨_, rfl⟩
    · simp only [Bool.not_eq_true', Bool.not_eq_false] at hvalid
      exact .inr ⟨hvalid, processReceived_effect json (hok.receive message) message⟩

theorem mapM_getElem? {α β : Type} {f : α → Option β} (xs : List α) {ys : List β}
    (h : xs.mapM f = some ys) (index : Nat) :
    ys.length = xs.length ∧ ys[index]? = xs[index]?.bind f := by
  induction xs generalizing ys index with
  | nil =>
      obtain rfl := Option.some.inj (List.mapM_nil.symm.trans h)
      exact ⟨rfl, rfl⟩
  | cons x xs ih =>
      rw [List.mapM_cons] at h
      simp only [Option.bind_eq_bind, Option.bind_eq_some_iff, Option.pure_def,
        Option.some.injEq] at h
      obtain ⟨y, hy, rest, hrest, rfl⟩ := h
      cases index with
      | zero => exact ⟨by simp [(ih hrest 0).1], by simp [hy]⟩
      | succ index => exact ⟨by simp [(ih hrest 0).1], by simpa using (ih hrest index).2⟩

/-- A created pipeline has the initial state of every symbol. -/
theorem create_ok {venue : PayloadVenue} {symbols : List Bytes} {subscription : LiveSubscription}
    {p : LiveEventPipeline} (hsub : LiveSubscription.create venue symbols = .ok subscription)
    (h : create subscription = .ok p) :
    p.Ok ∧ p.hasConnectionMetadata = false ∧
      ∀ (index : Nat) (symbol : Bytes), symbols[index]? = some symbol →
      isNormalizedSymbol symbol = true ∧
      ∃ s, SymbolState.create venue symbol = some s ∧ p.states[index]? = some s := by
  obtain ⟨rfl, rfl, hrouted, hnormalized⟩ := LiveSubscription.create_ok hsub
  unfold create at h
  split at h
  · cases h
  · split at h
    · cases h
    · rename_i states hstates
      obtain rfl := Except.ok.inj h
      have hget := mapM_getElem? _ hstates
      have created : ∀ s ∈ states, ∃ symbol,
          SymbolState.create subscription.venue symbol = some s := by
        intro s hs
        obtain ⟨index, hindex⟩ := List.getElem?_of_mem hs
        rw [(hget index).2, Option.bind_eq_some_iff] at hindex
        obtain ⟨symbol, -, hcreate⟩ := hindex
        exact ⟨symbol, hcreate⟩
      have state : ∀ (index : Nat) (symbol : Bytes), subscription.symbols[index]? = some symbol →
          ∃ s, SymbolState.create subscription.venue symbol = some s ∧ states[index]? = some s := by
        intro index symbol hsymbol
        have hlt : index < states.length := by
          rw [(hget 0).1]
          exact (List.getElem?_eq_some_iff.mp hsymbol).1
        have hs := (hget index).2
        rw [hsymbol, Option.bind_some, List.getElem?_eq_getElem hlt] at hs
        exact ⟨_, hs.symm, List.getElem?_eq_getElem hlt⟩
      refine ⟨⟨?_, ?_, ?_, hrouted⟩, rfl, ?_⟩
      · intro s hs
        obtain ⟨symbol, hcreate⟩ := created s hs
        exact (SymbolState.create_ok hcreate).1
      · apply List.ext_getElem?
        intro index
        rw [List.getElem?_map]
        cases hsymbol : subscription.symbols[index]? with
        | none => rw [(hget index).2, hsymbol, Option.bind_none, Option.map_none]
        | some symbol =>
            obtain ⟨s, hcreate, hs⟩ := state index symbol hsymbol
            rw [hs, Option.map_some, (SymbolState.create_ok hcreate).2.2.1]
      · intro s hs
        obtain ⟨symbol, hcreate⟩ := created s hs
        exact (SymbolState.create_ok hcreate).2.1
      · intro index symbol hsymbol
        exact ⟨hnormalized symbol (List.mem_of_getElem? hsymbol), state index symbol hsymbol⟩

end LiveEventPipeline

end MarketCapture
