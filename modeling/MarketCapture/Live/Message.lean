import MarketCapture.Live.Pipeline

/-! # One message with increasing metadata

A pipeline that is fed messages in increasing order of epoch and sequence never refuses
one for its metadata, never finds a symbol ahead of it, and every batch it hands out is
one the writer accepts: an audit row, an order-book row exactly for an applied update,
both within the record limit.
-/

namespace MarketCapture

open Simdjson

/-! ## Rows keep the record limit -/

theorem appendBytes_length {output bytes result : Bytes}
    (h : appendBytes output bytes = some result) : result.length ≤ maxCsvRecordBytes := by
  unfold appendBytes at h
  split at h
  · cases h
  · cases h
    rw [List.length_append]
    omega

theorem appendByte_length {output result : Bytes} {byte : UInt8}
    (h : appendByte output byte = some result) (hlength : output.length ≤ maxCsvRecordBytes) :
    result.length ≤ maxCsvRecordBytes := by
  unfold appendByte at h
  split at h
  · cases h
  · cases h
    rw [List.length_append, List.length_singleton]
    omega

theorem appendInteger_length {output result : Bytes} {value : Int}
    (h : appendInteger output value = some result) : result.length ≤ maxCsvRecordBytes := by
  unfold appendInteger at h
  split at h
  · cases h
  · exact appendBytes_length h

theorem appendLevelComponent_length {output result : Bytes} {view : List BookLevel} {index : Nat}
    {quantity : Bool} (h : appendLevelComponent output view index quantity = some result)
    (hlength : output.length ≤ maxCsvRecordBytes) : result.length ≤ maxCsvRecordBytes := by
  unfold appendLevelComponent at h
  obtain ⟨next, hnext, h⟩ := Option.bind_eq_some_iff.mp h
  have hlong := appendByte_length hnext hlength
  split at h
  · exact appendByte_length h hlong
  · exact appendInteger_length h

theorem appendBookSide_length {output result : Bytes} {view : List BookLevel} {quantity : Bool}
    (h : appendBookSide output view quantity = some result)
    (hlength : output.length ≤ maxCsvRecordBytes) : result.length ≤ maxCsvRecordBytes := by
  unfold appendBookSide at h
  generalize List.range visibleBookDepth = indices at h
  induction indices generalizing output with
  | nil =>
      obtain rfl : output = result := by simpa using h
      exact hlength
  | cons index indices ih =>
      rw [List.foldlM_cons] at h
      obtain ⟨next, hnext, h⟩ := Option.bind_eq_some_iff.mp h
      exact ih (appendLevelComponent_length hnext hlength) h

theorem formatOrderBookCsvRow_length {row : OrderBookCsvRow} {text : Bytes}
    (h : formatOrderBookCsvRow row = .ok text) :
    text.length ≤ maxCsvRecordBytes ∧ text ≠ [] := by
  unfold formatOrderBookCsvRow at h
  split at h
  · cases h
  split at h
  · cases h
  split at h
  · cases h
  split at h
  · cases h
  dsimp only at h
  split at h
  · cases h
  · next record hrecord =>
      obtain rfl := Except.ok.inj h
      simp only [Option.bind_eq_bind, Option.bind_eq_some_iff] at hrecord
      obtain ⟨o₁, h₁, o₂, h₂, o₃, h₃, o₄, h₄, o₅, h₅, o₆, h₆, o₇, h₇, o₈, h₈, o₉, h₉, o₁₀, h₁₀,
        o₁₁, h₁₁, o₁₂, h₁₂, o₁₃, h₁₃, o₁₄, h₁₄, o₁₅, h₁₅, hlast⟩ := hrecord
      have hside := appendByte_length h₁₁ (appendByte_length h₁₀ (appendByte_length h₉
        (appendByte_length h₈ (appendInteger_length h₇))))
      have hall := appendBookSide_length h₁₅ (appendBookSide_length h₁₄ (appendBookSide_length h₁₃
        (appendBookSide_length h₁₂ hside)))
      refine ⟨appendByte_length hlast hall, ?_⟩
      unfold appendByte at hlast
      split at hlast
      · cases hlast
      · cases hlast
        simp

/-! ## Events -/

/-- The statuses that put a row into the order-book file. -/
def EventProcessStatus.applied (status : EventProcessStatus) : Bool :=
  decide (status = .appliedRefresh) || decide (status = .appliedDiff)

theorem emitsSnapshot_eq_applied (result : BookApplyResult) :
    result.emitsSnapshot = (eventStatus result.status).applied := by
  unfold BookApplyResult.emitsSnapshot
  cases result.status <;> rfl

/-- A parsed message never fails for its context. -/
theorem processParsed_error {s s' : SymbolState} {context : EventContext} {payload : Bytes}
    {mode : EventOutputMode} {parsed : SpotParseResult} {result : EventProcessResult}
    {batch : EventRowBatch}
    (h : processParsed s context payload mode parsed = some (result, s', batch)) :
    result.error ≠ .invalidContext ∧ batch.orderBookRow.length ≤ maxCsvRecordBytes := by
  have haudit : ∀ audit, auditBatch mode context payload = .ok audit →
      audit.orderBookRow.length ≤ maxCsvRecordBytes := by
    intro audit ha
    unfold auditBatch at ha
    split at ha
    · cases ha
      exact Nat.zero_le _
    · split at ha
      · cases ha
      · cases ha
        exact Nat.zero_le _
  unfold processParsed at h
  simp only at h
  split at h
  · cases h
    exact ⟨nofun, Nat.zero_le _⟩
  · split at h
    · cases h
      exact ⟨nofun, Nat.zero_le _⟩
    · next audit ha =>
        have hlength := haudit audit ha
        split at h
        · cases h
          exact ⟨nofun, hlength⟩
        · split at h
          · cases h
            exact ⟨nofun, hlength⟩
          · unfold processDepth at h
            obtain ⟨⟨bookResult, candidate⟩, -, h⟩ := Option.bind_eq_some_iff.mp h
            simp only at h
            split at h
            · split at h
              · cases h
                exact ⟨nofun, Nat.zero_le _⟩
              · split at h
                · cases h
                  exact ⟨nofun, Nat.zero_le _⟩
                · next row hrow =>
                    cases h
                    exact ⟨nofun, (formatOrderBookCsvRow_length hrow).1⟩
            · cases h
              exact ⟨nofun, hlength⟩

/-- The status of an event that succeeded. -/
theorem ProcessOutcome.status_of_success {json : Library} {s s' : SymbolState}
    {context : EventContext} {payload : Bytes} {result : EventProcessResult}
    {batch : EventRowBatch} (h : ProcessOutcome json s context payload result s' batch)
    (herror : result.error = .none) :
    result.status ≠ .notProcessed ∧ batch.hasOrderBookRow = result.status.applied := by
  cases h with
  | failed hfailed _ => exact absurd herror hfailed
  | rejected _ _ hstatus hbook =>
      rcases hstatus with hstatus | hstatus <;> rw [hstatus, hbook] <;>
        exact ⟨nofun, rfl⟩
  | trade _ _ hstatus hbook =>
      rw [hstatus, hbook]
      exact ⟨nofun, rfl⟩
  | depth _ _ _ _ hstatus _ _ _ hbook _ =>
      rw [hstatus, hbook, emitsSnapshot_eq_applied]
      refine ⟨?_, rfl⟩
      cases ‹BookApplyResult›.status <;> nofun

/-- A state after a message has seen that message, or what it had seen before. -/
theorem ProcessOutcome.observed {json : Library} {s s' : SymbolState} {context : EventContext}
    {payload : Bytes} {result : EventProcessResult} {batch : EventRowBatch}
    (h : ProcessOutcome json s context payload result s' batch) :
    s' = s ∨ s'.hasObservedConnection = true ∧
      s'.currentConnectionEpoch = context.connectionEpoch ∧
      s'.lastConnectionSequence = context.connectionSequence := by
  cases h with
  | failed _ _ => exact .inl rfl
  | rejected _ _ _ _ => exact .inr ⟨rfl, rfl, rfl⟩
  | trade _ _ _ _ => exact .inr ⟨rfl, rfl, rfl⟩
  | depth _ _ _ _ _ _ _ _ _ hs' =>
      rw [hs']
      exact .inr ⟨rfl, rfl, rfl⟩

namespace LiveEventPipeline

/-! ## Metadata -/

/-- The metadata of one message come before those of another. -/
def Precedes (epoch sequence : UInt64) (message : WebSocketTextMessage) : Prop :=
  epoch < message.connectionEpoch ∨
    epoch = message.connectionEpoch ∧ sequence < message.connectionSequence

/-- No symbol has seen more than the pipeline has. -/
def Behind (p : LiveEventPipeline) : Prop :=
  ∀ s ∈ p.states, s.hasObservedConnection = true → p.hasConnectionMetadata = true ∧
    (s.currentConnectionEpoch < p.connectionEpoch ∨
      s.currentConnectionEpoch = p.connectionEpoch ∧
        s.lastConnectionSequence ≤ p.lastConnectionSequence)

theorem validMessageMetadata_iff {p : LiveEventPipeline} {message : WebSocketTextMessage} :
    p.validMessageMetadata message = true ↔
      0 ≤ message.receiveTimestamp.nanoseconds.toInt ∧
        message.receiveTimestamp.nanoseconds.toInt < nanosecondsPerSecond ∧
        message.connectionSequence ≠ 0 ∧
        (p.hasConnectionMetadata = true →
          Precedes p.connectionEpoch p.lastConnectionSequence message) := by
  unfold validMessageMetadata Precedes
  split
  · next hbad =>
      constructor
      · intro h
        cases h
      · rintro ⟨hlow, hhigh, hzero, -⟩
        rcases hbad with hbad | hbad | hbad
        · omega
        · omega
        · exact absurd hbad hzero
  · next hgood =>
      simp only [not_or, Int.not_lt, ge_iff_le, Int.not_le] at hgood
      obtain ⟨hlow, hhigh, hzero⟩ := hgood
      cases hknown : p.hasConnectionMetadata with
      | false => simp [hlow, hhigh, hzero]
      | true =>
          simp only [Bool.not_true, Bool.false_eq_true, ↓reduceIte, forall_const, hlow, hhigh,
            true_and, ne_eq, hzero, not_false_eq_true]
          split
          · next hlt =>
              simp only [Bool.false_eq_true, false_iff, UInt64.lt_iff_toNat_lt,
                ← UInt64.toNat_inj] at hlt ⊢
              omega
          · next hnlt =>
              simp only [Bool.or_eq_true, decide_eq_true_eq, gt_iff_lt, UInt64.lt_iff_toNat_lt,
                ← UInt64.toNat_inj] at hnlt ⊢
              omega

theorem Behind.invalidateAll {p : LiveEventPipeline} (h : p.Behind) : p.invalidateAll.Behind := by
  intro s hs hobserved
  obtain ⟨t, ht, rfl⟩ := List.mem_map.mp hs
  rw [SymbolState.invalidate_observed] at hobserved
  rw [SymbolState.invalidate_epoch, SymbolState.invalidate_sequence]
  exact h t ht hobserved

/-- Every symbol is behind the message that is received. -/
theorem Behind.received {p : LiveEventPipeline} (h : p.Behind) {message : WebSocketTextMessage}
    (hvalid : p.validMessageMetadata message = true) :
    ∀ s ∈ (p.receive message).states, s.hasObservedConnection = true →
      Precedes s.currentConnectionEpoch s.lastConnectionSequence message := by
  have hbefore := (validMessageMetadata_iff.mp hvalid).2.2.2
  have key : ∀ t : SymbolState, t ∈ p.states → t.hasObservedConnection = true →
      Precedes t.currentConnectionEpoch t.lastConnectionSequence message := by
    intro t ht hobserved
    obtain ⟨hknown, hle⟩ := h t ht hobserved
    have hlt := hbefore hknown
    simp only [Precedes, UInt64.lt_iff_toNat_lt, UInt64.le_iff_toNat_le,
      ← UInt64.toNat_inj] at hlt hle ⊢
    omega
  intro s hs hobserved
  simp only [receive] at hs
  split at hs
  · obtain ⟨t, ht, rfl⟩ := List.mem_map.mp hs
    rw [SymbolState.invalidate_observed] at hobserved
    rw [SymbolState.invalidate_epoch, SymbolState.invalidate_sequence]
    exact key t ht hobserved
  · exact key s hs hobserved

/-- A state that has seen less than a message, or just that message, is behind a pipeline
that has received it. -/
theorem behind_of_precedes {q : LiveEventPipeline} {message : WebSocketTextMessage}
    (hknown : q.hasConnectionMetadata = true)
    (hepoch : q.connectionEpoch = message.connectionEpoch)
    (hsequence : q.lastConnectionSequence = message.connectionSequence)
    (hstates : ∀ s ∈ q.states, s.hasObservedConnection = true →
      Precedes s.currentConnectionEpoch s.lastConnectionSequence message ∨
        s.currentConnectionEpoch = message.connectionEpoch ∧
          s.lastConnectionSequence = message.connectionSequence) : q.Behind := by
  intro s hs hobserved
  refine ⟨hknown, ?_⟩
  rw [hepoch, hsequence]
  rcases hstates s hs hobserved with h | ⟨h₁, h₂⟩
  · simp only [Precedes, UInt64.lt_iff_toNat_lt, UInt64.le_iff_toNat_le,
      ← UInt64.toNat_inj] at h ⊢
    omega
  · exact .inr ⟨h₁, h₂ ▸ UInt64.le_refl _⟩

/-! ## What a message comes to -/

/-- A batch for the writer. -/
structure ReadyBatch (subscription : LiveSubscription) (result : LivePipelineResult)
    (batch : EventRowBatch) : Prop where
  target : ∃ index, result.targetIndex = some index ∧ index < subscription.symbols.length
  audit : batch.hasAuditRow = true
  auditRow : batch.auditRow ≠ []
  orderBook : batch.hasOrderBookRow = result.event.status.applied
  orderBookRow : batch.hasOrderBookRow = !batch.orderBookRow.isEmpty
  processed : result.event.status ≠ .notProcessed
  audited : result.event.status ≠ .preAuditRejected
  auditLength : batch.auditRow.length ≤ maxCsvRecordBytes
  orderBookLength : batch.orderBookRow.length ≤ maxCsvRecordBytes

/-- The result of a message that comes in order. -/
structure Handled (subscription : LiveSubscription) (result : LivePipelineResult)
    (batch : EventRowBatch) : Prop where
  metadata : result.error ≠ .invalidMessageMetadata
  context : result.event.error ≠ .invalidContext
  disposed : result.disposition ≠ .notProcessed
  ready : result.disposition = .batchReady → ReadyBatch subscription result batch

theorem contextIsValid_of_precedes {p : LiveEventPipeline} (hok : p.Ok)
    {message : WebSocketTextMessage} {route : LiveRoute} (hroute : route ∈ p.subscription.routes)
    {s : SymbolState} (hs : p.states[route.symbolIndex]? = some s)
    (hnanoseconds : 0 ≤ message.receiveTimestamp.nanoseconds.toInt ∧
      message.receiveTimestamp.nanoseconds.toInt < nanosecondsPerSecond)
    (hzero : message.connectionSequence ≠ 0)
    (hbefore : s.hasObservedConnection = true →
      Precedes s.currentConnectionEpoch s.lastConnectionSequence message) :
    contextIsValid s (p.contextOf message route) = true := by
  obtain ⟨-, hsymbol, hvenue⟩ := hok.state hs
  have hname : route.normalizedSymbol = s.symbol :=
    Option.some.inj ((hok.routed route hroute).symm.trans hsymbol)
  unfold contextIsValid
  rw [if_neg]
  · cases hobserved : s.hasObservedConnection with
    | false => rfl
    | true =>
        have hlt := hbefore hobserved
        simp only [Precedes, UInt64.lt_iff_toNat_lt, ← UInt64.toNat_inj] at hlt
        have hlow : ¬ (p.contextOf message route).connectionEpoch < s.currentConnectionEpoch := by
          show ¬ message.connectionEpoch < s.currentConnectionEpoch
          rw [UInt64.lt_iff_toNat_lt]
          omega
        simp only [Bool.not_true, Bool.false_eq_true, if_false, if_neg hlow]
        show (decide (message.connectionEpoch ≠ s.currentConnectionEpoch) ||
          decide (message.connectionSequence > s.lastConnectionSequence)) = true
        simp only [Bool.or_eq_true, decide_eq_true_eq, gt_iff_lt, UInt64.lt_iff_toNat_lt,
          ne_eq, ← UInt64.toNat_inj]
        omega
  · simp only [contextOf, not_or, not_not, Int.not_lt, ge_iff_le, Int.not_le]
    exact ⟨hvenue.symm, hname, trivial, hnanoseconds.1, hnanoseconds.2, hzero⟩

/-- A routed message whose context is valid. -/
theorem processRouted_handled (json : Library) {p : LiveEventPipeline} (hok : p.Ok)
    (message : WebSocketTextMessage) {route : LiveRoute} (payload : Bytes)
    {result : LivePipelineResult} (hresult : result.error = .none) {s : SymbolState}
    (hs : p.states[route.symbolIndex]? = some s)
    (hcontext : contextIsValid s (p.contextOf message route) = true)
    {result' : LivePipelineResult} {batch : EventRowBatch} {p' : LiveEventPipeline}
    (h : p.processRouted json message route payload result = some (result', batch, p')) :
    ∃ s', Handled p.subscription result' batch ∧
      p'.states = p.states.set route.symbolIndex s' ∧
      (s' = s ∨ s'.hasObservedConnection = true ∧
        s'.currentConnectionEpoch = message.connectionEpoch ∧
        s'.lastConnectionSequence = message.connectionSequence) := by
  obtain ⟨hsok, hsymbol, -⟩ := hok.state hs
  have hindex : route.symbolIndex < p.subscription.symbols.length :=
    (List.getElem?_eq_some_iff.mp hsymbol).1
  obtain ⟨event, s', rows, processor, hprocess, hout, -⟩ :=
    p.eventProcessor.process_outcome json hsok (p.contextOf message route) payload .liveCapture
  obtain ⟨processor', hmap⟩ := p.eventProcessor.process_eq json payload .liveCapture hcontext
  rw [hprocess] at hmap
  obtain ⟨⟨event', t, rows'⟩, hparsed, heq⟩ := Option.map_eq_some_iff.mp hmap.symm
  simp only [Prod.mk.injEq] at heq
  obtain ⟨rfl, rfl, rfl, rfl⟩ := heq
  obtain ⟨hevent, hbookLength⟩ := processParsed_error hparsed
  unfold processRouted at h
  rw [hs] at h
  simp only [hprocess, Option.bind_eq_bind, Option.bind_some] at h
  split at h
  · cases h
    exact ⟨t, ⟨(fun h => by cases h), hevent, (fun h => by cases h), (fun h => by cases h)⟩, rfl, hout.observed⟩
  · next hsuccess =>
      have herror : event'.error = .none := by
        simpa [EventProcessResult.success] using hsuccess
      obtain ⟨hstatus, hbook⟩ := hout.status_of_success herror
      split at h
      · cases h
        exact ⟨t, ⟨by simp [hresult], hevent, (fun h => by cases h), (fun h => by cases h)⟩, rfl, hout.observed⟩
      · next hrejected =>
          obtain ⟨haudit, hrow, hhas, hempty⟩ := audited_row hsok hcontext hparsed herror hrejected
          have hne : rows'.auditRow ≠ [] := hrow ▸ auditText_ne_nil _
          have hauditLength : rows'.auditRow.length ≤ maxCsvRecordBytes := by
            rw [hrow]
            refine auditText_length_le ?_ haudit.payload
            rw [haudit.symbol]
            exact hsok.symbol
          split at h
          · cases h
            exact ⟨t, ⟨(fun h => by cases h), hevent, (fun h => by cases h), (fun h => by cases h)⟩, rfl, hout.observed⟩
          · cases h
            exact ⟨t, ⟨by simp [hresult], hevent, (fun h => by cases h), fun _ =>
              { target := ⟨_, rfl, hindex⟩
                audit := hhas
                auditRow := hne
                orderBook := hbook
                orderBookRow := hempty
                processed := hstatus
                audited := hrejected
                auditLength := hauditLength
                orderBookLength := hbookLength }⟩, rfl, hout.observed⟩

/-- A message that comes in order is handled, and the pipeline has seen it afterwards. -/
theorem process_admitted (json : Library) {p : LiveEventPipeline} (hok : p.Ok)
    (hbehind : p.Behind) {message : WebSocketTextMessage}
    (hvalid : p.validMessageMetadata message = true)
    (hlength : message.payload.length ≤ maxPayloadBytes) :
    ∃ result batch p', p.process json message = some (result, batch, p') ∧ p'.Ok ∧ p'.Behind ∧
      (p.receive message).SameMetadata p' ∧ Handled p.subscription result batch := by
  have hprocess : p.process json message = (p.receive message).processReceived json message := by
    unfold process
    rw [if_neg (by simp [hvalid]), if_neg (Nat.not_lt.mpr hlength)]
  have hsubscription : (p.receive message).subscription = p.subscription := by
    simp only [receive]
    split <;> rfl
  have hreceived := hbehind.received hvalid
  obtain ⟨hlow, hhigh, hzero, -⟩ := validMessageMetadata_iff.mp hvalid
  have hrok := hok.receive message
  obtain ⟨result, batch, p', hreceive, hok', hsame, -⟩ :=
    processReceived_effect json hrok message
  refine ⟨result, batch, p', hprocess.trans hreceive, hok', ?_⟩
  have hbehind' : (∀ s ∈ p'.states, s.hasObservedConnection = true →
      Precedes s.currentConnectionEpoch s.lastConnectionSequence message ∨
        s.currentConnectionEpoch = message.connectionEpoch ∧
          s.lastConnectionSequence = message.connectionSequence) → p'.Behind :=
    behind_of_precedes hsame.known hsame.epoch hsame.sequence
  have hknown := LiveEnvelopeParser.parse_known json message.payload (p.receive message).subscription
  unfold processReceived at hreceive
  simp only at hreceive
  split at hreceive
  · next route payload _ hroute _ =>
      have hmem := hknown route hroute
      obtain ⟨s, hs⟩ := hrok.routed_state hmem
      have hcontext := contextIsValid_of_precedes hrok hmem hs ⟨hlow, hhigh⟩ hzero
        (hreceived s (List.mem_of_getElem? hs))
      obtain ⟨s', hhandled, hstates, hseen⟩ :=
        processRouted_handled json hrok message payload rfl hs hcontext hreceive
      refine ⟨hbehind' ?_, hsame, hsubscription ▸ hhandled⟩
      intro t ht hobserved
      rw [hstates] at ht
      rcases List.mem_or_eq_of_mem_set ht with ht | rfl
      · exact .inl (hreceived t ht hobserved)
      · rcases hseen with rfl | ⟨-, hepoch, hsequence⟩
        · exact .inl (hreceived t (List.mem_of_getElem? hs) hobserved)
        · exact .inr ⟨hepoch, hsequence⟩
  · simp only [Option.some.injEq, Prod.mk.injEq] at hreceive
    obtain ⟨rfl, rfl, rfl⟩ := hreceive
    refine ⟨hbehind' ?_, hsame, nofun, nofun, nofun, nofun⟩
    intro t ht hobserved
    refine .inl ?_
    unfold rejectRoute at ht
    split at ht
    · exact hreceived t ht hobserved
    · next route _ =>
      split at ht
      · obtain ⟨index, hindex⟩ := List.getElem?_of_mem ht
        rw [List.getElem?_modify] at hindex
        obtain ⟨s, hs, rfl⟩ := Option.map_eq_some_iff.mp hindex
        have hold := hreceived s (List.mem_of_getElem? hs)
        by_cases hne : route.symbolIndex = index
        · simp only [hne, if_true, SymbolState.invalidate_observed, SymbolState.invalidate_epoch,
            SymbolState.invalidate_sequence] at hobserved ⊢
          exact hold hobserved
        · simp only [hne, if_false] at hobserved ⊢
          exact hold hobserved
      · exact hreceived t ht hobserved

/-- A fresh pipeline has seen nothing. -/
theorem create_behind {subscription : LiveSubscription} {p : LiveEventPipeline}
    (h : create subscription = .ok p) : p.Behind := by
  unfold create at h
  split at h
  · cases h
  · split at h
    · cases h
    · next states hstates =>
        obtain rfl := Except.ok.inj h
        intro s hs hobserved
        obtain ⟨index, hindex⟩ := List.getElem?_of_mem hs
        rw [(mapM_getElem? _ hstates index).2, Option.bind_eq_some_iff] at hindex
        obtain ⟨symbol, -, hcreate⟩ := hindex
        rw [(SymbolState.create_ok hcreate).2.2.2.1] at hobserved
        cases hobserved

end LiveEventPipeline

end MarketCapture
