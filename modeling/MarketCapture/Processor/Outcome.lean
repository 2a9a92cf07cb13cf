import MarketCapture.Processor.EventProcessor
import MarketCapture.Book.Runs

/-! # What one message can do

`EventProcessor.process` returns on every state whose book is well formed, and
`ProcessOutcome` lists everything it can do there. The formatter's own check of
the book never fails.
-/

namespace MarketCapture

open Simdjson

/-! ## The formatter accepts the book -/

theorem validLevels_of_ordered {side : BookSide} (levels : List BookLevel) {previous : Option Int}
    (hprice : ∀ l ∈ levels, 0 < l.price) (hquantity : ∀ l ∈ levels, 0 < l.quantity)
    (hordered : levels.Pairwise (fun a b => betterPrice side a.price b.price = true))
    (hprev : ∀ p ∈ previous, ∀ l ∈ levels, betterPrice side p l.price = true) :
    validLevels side previous levels = true := by
  induction levels generalizing previous with
  | nil => rfl
  | cons level rest ih =>
      have hp := hprice level (by simp)
      have hq := hquantity level (by simp)
      obtain ⟨hfirst, hrest⟩ := List.pairwise_cons.mp hordered
      have hplaced : previous.any (fun p =>
          if side = .bid then decide (p ≤ level.price) else decide (p ≥ level.price)) = false := by
        cases previous with
        | none => rfl
        | some p =>
            have hbetter := hprev p rfl level (by simp)
            cases side <;> simp_all [betterPrice]
      unfold validLevels
      rw [if_neg (by omega)]
      simp only [hplaced, Bool.false_eq_true, ↓reduceIte]
      refine ih (fun l hl => hprice l (by simp [hl])) (fun l hl => hquantity l (by simp [hl])) hrest ?_
      intro p hpm l hl
      obtain rfl := Option.some.inj hpm
      exact hfirst l hl

theorem SideOk.validSide {side : BookSide} {s : Side} (h : SideOk side s) :
    validSide s.view side = true := by
  unfold MarketCapture.validSide
  rw [if_neg (by rw [Side.view_length]; exact Nat.not_lt.mpr h.clean.depth)]
  exact validLevels_of_ordered _ h.price h.quantity h.ordered (by simp)

theorem BookOk.validBook {b : TopFiveBook} (h : BookOk b) :
    validBook b.bids.view b.asks.view = true := by
  have huncrossed := h.uncrossed
  unfold MarketCapture.validBook
  simp only [h.bids.validSide, h.asks.validSide, Bool.not_true, Bool.or_self, Bool.false_eq_true,
    ↓reduceIte]
  cases hb : b.bids.view with
  | nil => rfl
  | cons bid bids =>
      cases ha : b.asks.view with
      | nil => rfl
      | cons ask asks =>
          rw [hb, ha] at huncrossed
          simpa using huncrossed bid rfl ask rfl

theorem formatMarketDataCsvRow_ne_invalidBook (row : MarketDataCsvRow) :
    formatMarketDataCsvRow row ≠ .error .invalidBook := by
  unfold formatMarketDataCsvRow
  split
  · simp
  · split
    · simp
    · split
      · simp
      · simp only
        split <;> simp

/-! ## States -/

/-- The states a run reaches: a normalized symbol and a well-formed book. -/
structure SymbolState.Ok (s : SymbolState) : Prop where
  symbol : isNormalizedSymbol s.symbol = true
  instrument : 0 < s.instrumentId
  book : BookOk s.book

namespace SymbolState

theorem create_ok {venue : PayloadVenue} {symbol : Bytes} {s : SymbolState}
    (h : create venue symbol = some s) : s.Ok ∧ s.venue = venue ∧ s.symbol = symbol ∧
      s.hasObservedConnection = false ∧ s.bookValid = false ∧ s.sequenceNumber = 0 := by
  obtain ⟨id, hid, rfl⟩ := Option.map_eq_some_iff.mp h
  obtain ⟨hsym, hpos, -⟩ := deriveInstrumentId_some hid
  refine ⟨⟨hsym, hpos, ?_⟩, rfl, rfl, rfl, ?_, rfl⟩
  · cases venue <;> exact BookOk.initial
  · cases venue <;> rfl

@[simp] theorem invalidate_symbol (s : SymbolState) : s.invalidate.symbol = s.symbol := by
  unfold invalidate
  split <;> rfl

@[simp] theorem invalidate_venue (s : SymbolState) : s.invalidate.venue = s.venue := by
  unfold invalidate
  split <;> rfl

@[simp] theorem invalidate_instrumentId (s : SymbolState) :
    s.invalidate.instrumentId = s.instrumentId := by
  unfold invalidate
  split <;> rfl

@[simp] theorem invalidate_sequenceNumber (s : SymbolState) :
    s.invalidate.sequenceNumber = s.sequenceNumber := by
  unfold invalidate
  split <;> rfl

@[simp] theorem invalidate_observed (s : SymbolState) :
    s.invalidate.hasObservedConnection = s.hasObservedConnection := by
  unfold invalidate
  split <;> rfl

@[simp] theorem invalidate_epoch (s : SymbolState) :
    s.invalidate.currentConnectionEpoch = s.currentConnectionEpoch := by
  unfold invalidate
  split <;> rfl

@[simp] theorem invalidate_book (s : SymbolState) : s.invalidate.book = s.book.invalidate := by
  unfold invalidate
  cases h : s.venue <;> simp [book, h, SpotBook.invalidate, UsdMBook.invalidate]

theorem Ok.invalidate {s : SymbolState} (h : s.Ok) : s.invalidate.Ok := by
  refine ⟨by simpa using h.symbol, by simpa using h.instrument, ?_⟩
  rw [invalidate_book]
  exact h.book.invalidate

@[simp] theorem commitContext_book (s : SymbolState) (c : EventContext) :
    (s.commitContext c).book = s.book := rfl

theorem Ok.commitContext {s : SymbolState} (h : s.Ok) (c : EventContext) :
    (s.commitContext c).Ok := ⟨h.symbol, h.instrument, h.book⟩

/-- Two states of the same symbol that differ at most in their books. -/
structure SameButBook (s s' : SymbolState) : Prop where
  symbol : s'.symbol = s.symbol
  venue : s'.venue = s.venue
  instrumentId : s'.instrumentId = s.instrumentId
  sequenceNumber : s'.sequenceNumber = s.sequenceNumber
  observed : s'.hasObservedConnection = s.hasObservedConnection
  epoch : s'.currentConnectionEpoch = s.currentConnectionEpoch
  sequence : s'.lastConnectionSequence = s.lastConnectionSequence

end SymbolState

/-! ## A depth event -/

/-- What the book of a state can do with an accepted event of a depth stream. -/
def DepthOutcome (kind : StreamKind) (d : SpotDepthEvent) (status : BookApplyStatus)
    (s s' : SymbolState) : Prop :=
  (kind = .depth5 → RefreshOutcome s.book d status s'.book) ∧
  (kind = .depthDiff → DiffOutcome s.book d status s'.book ∧
    (s.venue = .spot → status = .appliedDiff →
      d.firstUpdateId.toNat ≤ s.book.lastUpdateId.toNat + 1))

theorem applyDepth_outcome {s : SymbolState} {kind : StreamKind} {d : SpotDepthEvent}
    (h : BookOk s.book) (hk : kind ≠ .trade)
    (hdiff : kind = .depthDiff → AcceptedDiff s.venue d)
    (hrefresh : kind = .depth5 → AcceptedRefresh d) :
    ∃ result s', applyDepth s kind d = some (result, s') ∧ s.SameButBook s' ∧
      DepthOutcome kind d result.status s s' ∧ BookOk s'.book := by
  have same_spot : ∀ b, s.SameButBook { s with spotBook := b } :=
    fun b => ⟨rfl, rfl, rfl, rfl, rfl, rfl, rfl⟩
  have same_usdm : ∀ b, s.SameButBook { s with usdmBook := b } :=
    fun b => ⟨rfl, rfl, rfl, rfl, rfl, rfl, rfl⟩
  unfold applyDepth
  cases hv : s.venue with
  | spot =>
      have hbook : s.book = s.spotBook.book := by rw [SymbolState.book, hv]
      have hbook' : ∀ b, ({ s with spotBook := b } : SymbolState).book = b.book := by
        intro b
        simp [SymbolState.book, hv]
      simp only
      cases kind with
      | trade => exact absurd rfl hk
      | depth5 =>
          obtain ⟨r, b, heq, hout⟩ := s.spotBook.applyRefresh_outcome (hrefresh rfl)
          rw [← hbook] at hout
          exact ⟨r, { s with spotBook := b }, by simp [heq, hv], same_spot b,
            ⟨fun _ => by rw [hbook' b]; exact hout, by simp⟩, by rw [hbook' b]; exact hout.ok h⟩
      | depthDiff =>
          obtain ⟨r, b, heq, hout, hfirst⟩ :=
            SpotBook.applyDiff_outcome (hbook ▸ h) (hdiff rfl)
          rw [← hbook] at hout hfirst
          exact ⟨r, { s with spotBook := b }, by simp [heq, hv], same_spot b,
            ⟨by simp, fun _ => ⟨by rw [hbook' b]; exact hout, fun _ => hfirst⟩⟩,
            by rw [hbook' b]; exact hout.ok h⟩
  | usdm =>
      have hbook : s.book = s.usdmBook.book := by rw [SymbolState.book, hv]
      have hbook' : ∀ b, ({ s with usdmBook := b } : SymbolState).book = b.book := by
        intro b
        simp [SymbolState.book, hv]
      simp only
      cases kind with
      | trade => exact absurd rfl hk
      | depth5 =>
          obtain ⟨r, b, heq, hout, -⟩ := s.usdmBook.applyRefresh_outcome (hrefresh rfl)
          rw [← hbook] at hout
          exact ⟨r, { s with usdmBook := b }, by simp [heq, hv], same_usdm b,
            ⟨fun _ => by rw [hbook' b]; exact hout, by simp⟩, by rw [hbook' b]; exact hout.ok h⟩
      | depthDiff =>
          obtain ⟨r, b, heq, hout⟩ :=
            UsdMBook.applyDiff_outcome (hbook ▸ h) (hv ▸ hdiff rfl)
          have hcore := hout.core
          rw [← hbook] at hcore
          exact ⟨r, { s with usdmBook := b }, by simp [heq, hv], same_usdm b,
            ⟨by simp, fun _ => ⟨by rw [hbook' b]; exact hcore, by simp [hv]⟩⟩,
            by rw [hbook' b]; exact hcore.ok h⟩

/-! ## A message -/

/-- What a payload parses to under a context, by any parser. -/
def parsedMessage (json : Library) (context : EventContext) (payload : Bytes) : SpotParseResult :=
  (({} : SpotPayloadParser).parse json context.venue context.streamKind context.symbol payload).1

/-- Everything `process` can do to a well-formed state. -/
inductive ProcessOutcome (json : Library) (s : SymbolState) (context : EventContext)
    (payload : Bytes) : EventProcessResult → SymbolState → EventRowBatch → Prop
  | failed {result : EventProcessResult} : result.error ≠ .none → result.status = .notProcessed →
      ProcessOutcome json s context payload result s {}
  | rejected {result : EventProcessResult} {batch : EventRowBatch} :
      contextIsValid s context = true → result.error = .none →
      result.status = .preAuditRejected ∨ result.status = .schemaRejected →
      batch.hasOrderBookRow = false →
      ProcessOutcome json s context payload result
        ((if s.epochChanged context || decide (context.streamKind = .depthDiff)
          then s.invalidate else s).commitContext context) batch
  | trade {result : EventProcessResult} {batch : EventRowBatch} :
      contextIsValid s context = true → result.error = .none → result.status = .tradeAudited →
      batch.hasOrderBookRow = false →
      ProcessOutcome json s context payload result ((s.entered context).commitContext context) batch
  | depth {result : EventProcessResult} {bookResult : BookApplyResult} {candidate s' : SymbolState}
      {batch : EventRowBatch} :
      contextIsValid s context = true → result.error = .none →
      (parsedMessage json context payload).error = .none → context.streamKind ≠ .trade →
      result.status = eventStatus bookResult.status →
      (s.entered context).SameButBook candidate →
      DepthOutcome context.streamKind (parsedMessage json context payload).event.depth
        bookResult.status (s.entered context) candidate →
      BookOk candidate.book →
      batch.hasOrderBookRow = bookResult.emitsSnapshot →
      s' = { candidate.commitContext context with sequenceNumber := s'.sequenceNumber } →
      ProcessOutcome json s context payload result s' batch

theorem contextIsValid_eq {s : SymbolState} {context : EventContext}
    (h : contextIsValid s context = true) : context.venue = s.venue ∧ context.symbol = s.symbol := by
  unfold contextIsValid at h
  split at h
  · cases h
  · rename_i hbad
    simp only [not_or, not_not] at hbad
    exact ⟨hbad.1, hbad.2.1⟩

theorem SymbolState.Ok.entered {s : SymbolState} (h : s.Ok) (context : EventContext) :
    (s.entered context).Ok := by
  unfold SymbolState.entered
  split
  · exact h.invalidate
  · exact h

@[simp] theorem SymbolState.entered_venue (s : SymbolState) (context : EventContext) :
    (s.entered context).venue = s.venue := by
  unfold SymbolState.entered
  split <;> simp

/-- The depth branch: it returns, and no book it formats is refused. -/
theorem processDepth_outcome {json : Library} {s : SymbolState} {context : EventContext}
    {payload : Bytes} {base : EventProcessResult} {batch : EventRowBatch} (h : s.Ok)
    (hcontext : contextIsValid s context = true) (hbase : base.error = .none)
    (hcsv : base.csvError = none) (hbatch : batch.hasOrderBookRow = false)
    (hparsed : (parsedMessage json context payload).error = .none)
    (hk : context.streamKind ≠ .trade) :
    ∃ result s' batch', processDepth s context (parsedMessage json context payload).event.depth
        base batch = some (result, s', batch') ∧
      ProcessOutcome json s context payload result s' batch' ∧
      result.csvError ≠ some .invalidBook := by
  have hentered := h.entered context
  have haccepted : (context.streamKind = .depthDiff → AcceptedDiff context.venue
        (parsedMessage json context payload).event.depth) ∧
      (context.streamKind = .depth5 →
        AcceptedRefresh (parsedMessage json context payload).event.depth) :=
    parsePayload_accepted (SpotPayloadParser.aged {}) hparsed
  have hvenue : context.venue = (s.entered context).venue := by
    rw [SymbolState.entered_venue]
    exact (contextIsValid_eq hcontext).1
  obtain ⟨bookResult, candidate, heq, hsame, hout, hok⟩ := applyDepth_outcome hentered.book hk
    (fun hkind => hvenue ▸ haccepted.1 hkind) (fun hkind => haccepted.2 hkind)
  unfold processDepth
  simp only [heq, Option.bind_eq_bind, Option.bind_some]
  split
  · rename_i hemits
    split
    · exact ⟨_, _, _, rfl, .failed (by simp) rfl, by simp [hcsv]⟩
    · rename_i next hnext
      split
      · rename_i e he
        refine ⟨_, _, _, rfl, .failed (by simp) rfl, ?_⟩
        rintro heq'
        obtain rfl := Option.some.inj heq'
        exact formatOrderBookCsvRow_ne_invalidBook hok.validBook he
      · exact ⟨_, _, _, rfl, .depth hcontext hbase hparsed hk rfl hsame hout hok hemits.symm rfl,
          by simp [hcsv]⟩
  · rename_i hemits
    refine ⟨_, _, _, rfl, .depth hcontext hbase hparsed hk rfl hsame hout hok ?_ rfl, by simp [hcsv]⟩
    rw [hbatch]
    exact (Bool.eq_false_iff.mpr hemits).symm

theorem auditBatch_ok {mode : EventOutputMode} {context : EventContext} {payload : Bytes}
    {batch : EventRowBatch} (h : auditBatch mode context payload = .ok batch) :
    batch.hasOrderBookRow = false := by
  unfold auditBatch at h
  split at h
  · obtain rfl := Except.ok.inj h
    rfl
  · split at h
    · cases h
    · obtain rfl := Except.ok.inj h
      rfl

theorem auditBatch_ne_invalidBook (mode : EventOutputMode) (context : EventContext)
    (payload : Bytes) : auditBatch mode context payload ≠ .error .invalidBook := by
  unfold auditBatch
  split
  · simp
  · split
    · rename_i e he
      rintro heq
      obtain rfl := Except.error.inj heq
      exact formatMarketDataCsvRow_ne_invalidBook _ he
    · simp

/-- `process` returns on every well-formed state, does one of the listed things, and
never reports an invalid book. -/
theorem EventProcessor.process_outcome (p : EventProcessor) (json : Library) {s : SymbolState}
    (h : s.Ok) (context : EventContext) (payload : Bytes) (mode : EventOutputMode) :
    ∃ result s' batch p', p.process json s context payload mode = some (result, s', batch, p') ∧
      ProcessOutcome json s context payload result s' batch ∧
      result.csvError ≠ some .invalidBook := by
  unfold process
  cases hcontext : contextIsValid s context with
  | false => exact ⟨_, _, _, _, rfl, .failed (by simp) rfl, by simp⟩
  | true =>
      obtain ⟨hvenue, hsymbol⟩ := contextIsValid_eq hcontext
      have hparse : (p.parser.parse json context.venue context.streamKind s.symbol payload).1 =
          parsedMessage json context payload := by
        rw [← hsymbol]
        exact SpotPayloadParser.parse_eq _ _ _ _ _ _ _
      simp only [Bool.not_true, Bool.false_eq_true, ↓reduceIte, hparse]
      suffices hs : ∃ result s' batch, processParsed s context payload mode
          (parsedMessage json context payload) = some (result, s', batch) ∧
          ProcessOutcome json s context payload result s' batch ∧
          result.csvError ≠ some .invalidBook by
        obtain ⟨result, s', batch, heq, hout, hcsv⟩ := hs
        exact ⟨result, s', batch, _, by rw [heq]; rfl, hout, hcsv⟩
      unfold processParsed
      simp only
      split
      · exact ⟨_, _, _, rfl, .rejected hcontext rfl (.inl rfl) rfl, by simp⟩
      · split
        · rename_i e he
          refine ⟨_, _, _, rfl, .failed (by simp) rfl, ?_⟩
          rintro heq
          obtain rfl := Option.some.inj heq
          exact auditBatch_ne_invalidBook _ _ _ he
        · rename_i batch hbatch
          have hrow := auditBatch_ok hbatch
          split
          · exact ⟨_, _, _, rfl, .rejected hcontext rfl (.inr rfl) hrow, by simp⟩
          · rename_i hvalue
            split
            · exact ⟨_, _, _, rfl, .trade hcontext rfl rfl hrow, by simp⟩
            · rename_i hk
              refine processDepth_outcome h hcontext rfl rfl hrow ?_ hk
              simpa [SpotParseResult.hasValue] using hvalue

/-- A message keeps a state well formed and its identity. -/
theorem ProcessOutcome.ok {json : Library} {s s' : SymbolState} {context : EventContext}
    {payload : Bytes} {result : EventProcessResult} {batch : EventRowBatch}
    (h : ProcessOutcome json s context payload result s' batch) (hs : s.Ok) :
    s'.Ok ∧ s'.symbol = s.symbol ∧ s'.venue = s.venue := by
  have committed : ∀ t : SymbolState, t = s.invalidate ∨ t = s →
      (t.commitContext context).Ok ∧ (t.commitContext context).symbol = s.symbol ∧
        (t.commitContext context).venue = s.venue := by
    rintro t (rfl | rfl)
    · exact ⟨hs.invalidate.commitContext context, s.invalidate_symbol, s.invalidate_venue⟩
    · exact ⟨hs.commitContext context, rfl, rfl⟩
  have hentered : s.entered context = s.invalidate ∨ s.entered context = s := by
    unfold SymbolState.entered
    split
    · exact .inl rfl
    · exact .inr rfl
  cases h with
  | failed _ _ => exact ⟨hs, rfl, rfl⟩
  | rejected _ _ _ _ =>
      apply committed
      split
      · exact .inl rfl
      · exact .inr rfl
  | trade _ _ _ _ => exact committed _ hentered
  | depth _ _ _ _ _ hsame _ hok _ hs' =>
      have hid := committed _ hentered
      rw [hs']
      exact ⟨⟨hsame.symbol ▸ (hs.entered context).symbol,
        hsame.instrumentId ▸ (hs.entered context).instrument, hok⟩,
        hsame.symbol.trans hid.2.1, hsame.venue.trans hid.2.2⟩

end MarketCapture
