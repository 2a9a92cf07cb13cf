import MarketCapture.Book.Differential
import MarketCapture.Csv.Acceptance
import MarketCapture.Processor.Commit

/-! # Rows that can be written

The decimals of an accepted payload are 64-bit signed values, and every level of a
book comes from an accepted payload. A book row therefore always fits the record
limit, and `process` reports no format error on a state a run can reach.
-/

namespace MarketCapture

open Simdjson

/-! ## The levels of a payload -/

def LevelUpdate.Within (u : LevelUpdate) : Prop :=
  u.price ≤ int64Maximum ∧ u.quantity ≤ int64Maximum

/-- Every level in the buffer is within the range. -/
def Scratch.Within (s : Scratch) : Prop := ∀ u ∈ s.updates, u.Within

theorem acceptLevel_within {side : BookSide} {isPartial : Bool} {c : Components} {s : LevelsState}
    (h : s.scratch.Within) : (acceptLevel side isPartial c s).1.scratch.Within := by
  unfold acceptLevel
  split
  · exact h
  · rename_i price hprice
    split
    · exact h
    · split
      · exact h
      · rename_i quantity hquantity
        split
        · exact h
        · dsimp only
          split
          · exact h
          · exact h
          · split
            · exact h
            · intro u hu
              rcases List.mem_append.mp hu with hu | hu
              · exact h u hu
              · obtain rfl := List.mem_singleton.mp hu
                exact ⟨(parseDecimal1e8_range hprice).2, (parseDecimal1e8_range hquantity).2⟩

theorem parseLevel_within (side : BookSide) (isPartial : Bool) (value : Value) {s : LevelsState}
    (h : s.scratch.Within) : (parseLevel side isPartial value s).1.scratch.Within := by
  unfold parseLevel
  dsimp only
  split
  · rw [skipLevel_scratch]
    exact h
  · split
    · exact h
    · split
      · exact h
      · split
        · exact h
        · split
          · exact h
          · exact acceptLevel_within h
    · rw [skipLevel_scratch]
      exact h

theorem parseLevelsLoop_within (side : BookSide) (isPartial : Bool) (es : Elements)
    {s : LevelsState} (h : s.scratch.Within) :
    (parseLevelsLoop side isPartial es s).1.scratch.Within := by
  match es with
  | .done => exact h
  | .error _ => exact h
  | .next value rest =>
      have hone := parseLevel_within side isPartial value h
      unfold parseLevelsLoop
      split
      · rename_i hcall
        rw [hcall] at hone
        exact hone
      · rename_i hcall
        rw [hcall] at hone
        exact parseLevelsLoop_within side isPartial rest hone

theorem parseLevels_within (value : Value) (side : BookSide) (isPartial : Bool) {scratch : Scratch}
    (h : scratch.Within) :
    (parseLevels value side isPartial scratch).2.2.Within ∧
      ∀ u ∈ (parseLevels value side isPartial scratch).2.1, u.Within := by
  unfold parseLevels
  split
  · exact ⟨h, by simp⟩
  · have hloop := parseLevelsLoop_within side isPartial value.elements
      (s := { scratch := scratch }) h
    split
    · rename_i hcall
      rw [hcall] at hloop
      exact ⟨hloop, by simp⟩
    · rename_i hcall
      rw [hcall] at hloop
      exact ⟨hloop, fun u hu => hloop u (List.mem_of_mem_drop hu)⟩
  · exact ⟨h, by simp⟩

/-- The levels of an event. -/
def SpotDepthEvent.Within (d : SpotDepthEvent) : Prop :=
  (∀ u ∈ d.bids, u.Within) ∧ ∀ u ∈ d.asks, u.Within

structure DepthState.Within (s : DepthState) : Prop where
  scratch : s.scratch.Within
  event : s.result.event.depth.Within

namespace DepthState

theorem Within.record {s : DepthState} (h : s.Within) (e : SpotParseError) (f : SpotField)
    (d : DecimalParseError) : (s.record e f d).Within := by
  unfold DepthState.record
  split
  · exact ⟨h.scratch, h.event⟩
  · exact h

theorem Within.setError {s : DepthState} (h : s.Within) (f : ParseFailure) :
    (s.setError f).Within := ⟨h.scratch, h.event⟩

theorem Within.applyFailure {s : DepthState} (h : s.Within) (f : ParseFailure) :
    (s.applyFailure f).Within := by
  unfold DepthState.applyFailure
  split
  · exact h.setError f
  · exact h.record _ _ _

theorem Within.readId {s : DepthState} (h : s.Within) (value : Value) (field : DepthField)
    {store : UInt64 → SpotDepthEvent → SpotDepthEvent}
    (hstore : ∀ n d, (store n d).bids = d.bids ∧ (store n d).asks = d.asks) :
    (s.readId value field store).Within := by
  unfold DepthState.readId
  split
  · exact h.applyFailure _
  · rename_i n hn
    obtain ⟨hbids, hasks⟩ := hstore n s.result.event.depth
    refine ⟨h.scratch, ?_⟩
    change (store n s.result.event.depth).Within
    unfold SpotDepthEvent.Within
    rw [hbids, hasks]
    exact h.event

theorem Within.setLevels {s : DepthState} (h : s.Within) (side : BookSide)
    {range : List LevelUpdate} (hrange : ∀ u ∈ range, u.Within) :
    (s.setLevels side range).Within := by
  cases side
  · exact ⟨h.scratch, hrange, h.event.2⟩
  · exact ⟨h.scratch, h.event.1, hrange⟩

theorem Within.readLevels {s : DepthState} (h : s.Within) (value : Value) (side : BookSide)
    (isPartial : Bool) : (s.readLevels value side isPartial).Within := by
  obtain ⟨hscratch, hrange⟩ := parseLevels_within value side isPartial h.scratch
  unfold DepthState.readLevels
  dsimp only
  have hs : ({ s with scratch := (parseLevels value side isPartial s.scratch).2.2 } :
      DepthState).Within := ⟨hscratch, h.event⟩
  split
  · split
    · exact hs.setError _
    · exact (hs.setLevels side hrange).record _ _ _
  · exact hs.setLevels side hrange

theorem Within.readField {s : DepthState} (h : s.Within) (kind : StreamKind)
    (expectedSymbol : Bytes) (field : DepthField) (value : Value) :
    (s.readField kind expectedSymbol field value).Within := by
  unfold DepthState.readField
  cases field with
  | eventType | symbol =>
      dsimp only
      split
      · exact h.applyFailure _
      · split
        · exact h.record _ _ _
        · exact h
  | bids | asks => exact h.readLevels _ _ _
  | eventTime | transactionTime | firstUpdateId | finalUpdateId | previousUpdateId
  | lastUpdateId => exact h.readId _ _ fun _ _ => ⟨rfl, rfl⟩

theorem Within.visit {s : DepthState} (h : s.Within) (venue : PayloadVenue) (kind : StreamKind)
    (expectedSymbol key : Bytes) (value : Value) :
    (s.visit venue kind expectedSymbol key value).Within := by
  unfold DepthState.visit
  split
  · split
    · unfold DepthState.duplicateField
      dsimp only
      split
      · exact (h.record _ _ _).setError _
      · exact h.record _ _ _
    · rename_i field _ _
      have hmarked : ({ s with marked := field :: s.marked } : DepthState).Within :=
        ⟨h.scratch, h.event⟩
      exact hmarked.readField kind expectedSymbol field value
  · split
    · exact h.setError _
    · exact h

end DepthState

theorem parseDepthLoop_within (venue : PayloadVenue) (kind : StreamKind) (expectedSymbol : Bytes)
    (fields : Fields) {s : DepthState} (h : s.Within) :
    (parseDepthLoop venue kind expectedSymbol fields s).1.Within := by
  match fields with
  | .done => exact h
  | .error e => exact ⟨h.scratch, h.event⟩
  | .next key value rest =>
      unfold parseDepthLoop
      split
      · exact ⟨h.scratch, h.event⟩
      · have hvisit := h.visit venue kind expectedSymbol ‹Bytes› value
        dsimp only
        split
        · exact hvisit
        · exact parseDepthLoop_within venue kind expectedSymbol rest hvisit

theorem parseDepth_within (fields : Fields) (venue : PayloadVenue) (kind : StreamKind)
    (expectedSymbol : Bytes) {scratch : Scratch} (h : scratch.Within) :
    (parseDepth fields venue kind expectedSymbol scratch).1.event.depth.Within := by
  have hloop := parseDepthLoop_within venue kind expectedSymbol fields
    (s := { result := { event := { kind := kind } }, scratch := scratch })
    ⟨h, by simp, by simp⟩
  unfold parseDepth
  split
  · rename_i hcall
    rw [hcall] at hloop
    exact hloop.event
  · rename_i hcall
    rw [hcall] at hloop
    split
    · exact hloop.event
    · dsimp only
      rw [finishDepth_event]
      exact hloop.event

/-- The levels of a message of a depth stream. -/
theorem parsedMessage_within (json : Library) {context : EventContext} (payload : Bytes)
    (hk : context.streamKind ≠ .trade) :
    (parsedMessage json context payload).event.depth.Within := by
  have empty : (({ kind := context.streamKind } : SpotEvent)).depth.Within := ⟨by simp, by simp⟩
  unfold parsedMessage SpotPayloadParser.parse
  dsimp only
  unfold parsePayload
  dsimp only
  split
  · exact empty
  · split
    · exact empty
    · split
      · exact empty
      · exact parseDepth_within _ _ _ _ (by simp [Scratch.Within, Scratch.beginMessage])
      · split
        · exact empty
        · exact empty

/-! ## The levels of a book -/

def TopFiveBook.Within (b : TopFiveBook) : Prop :=
  (∀ l ∈ b.bids.view, l.Within) ∧ ∀ l ∈ b.asks.view, l.Within

theorem makeRefreshSide_within {side : BookSide} {us : List LevelUpdate} {t : Side}
    (hd : RefreshRange side us) (hus : ∀ u ∈ us, u.Within)
    (h : Side.makeRefreshSide us side = some t) : ∀ l ∈ t.view, l.Within := by
  obtain ⟨t', ht, -, hview⟩ := makeRefreshSide_spec hd
  obtain rfl := Option.some.inj (ht.symm.trans h)
  intro l hl
  rw [hview, List.mem_map] at hl
  obtain ⟨u, hu, rfl⟩ := hl
  exact hus u hu

/-- A level of the updated side stood there before or is in the event. -/
theorem applyUpdates_within {side : BookSide} {original t : Side} {us : List LevelUpdate}
    (hok : SideOk side original) (hd : DiffRange side us) (hus : ∀ u ∈ us, u.Within)
    (hold : ∀ l ∈ original.view, l.Within) (h : original.applyUpdates us side = some t) :
    ∀ l ∈ t.view, l.Within := by
  obtain ⟨t', ht, -, all, -, hall, hview⟩ := applyUpdates_shows hok hd
  obtain rfl := Option.some.inj (ht.symm.trans h)
  intro l hl
  rw [hview] at hl
  have hquantity := (hall l).mp (List.mem_of_mem_take hl)
  rcases (updatedQuantities_iff hok hd l).mp hquantity with ⟨-, hkept⟩ | ⟨u, hu, hup, -, huq⟩
  · exact hold l hkept
  · exact ⟨hup ▸ (hus u hu).1, huq ▸ (hus u hu).2⟩

namespace TopFiveBook

theorem Within.applyRefresh {b b' : TopFiveBook} {d : SpotDepthEvent} {result : BookApplyResult}
    (hb : b.Within) (hd : AcceptedRefresh d) (hw : d.Within)
    (h : b.applyRefresh d = some (result, b')) : b'.Within := by
  unfold TopFiveBook.applyRefresh at h
  split at h
  · obtain ⟨-, rfl⟩ := Prod.mk.inj (Option.some.inj h)
    exact hb
  · simp only [Option.bind_eq_bind, Option.bind_eq_some_iff] at h
    obtain ⟨bids, hbids, asks, hasks, _, -, h⟩ := h
    obtain ⟨-, rfl⟩ := Prod.mk.inj (Option.some.inj h)
    exact ⟨makeRefreshSide_within hd.bids hw.1 hbids, makeRefreshSide_within hd.asks hw.2 hasks⟩

theorem Within.applyAcceptedDiff {b b' : TopFiveBook} {venue : PayloadVenue} {d : SpotDepthEvent}
    {result : BookApplyResult} (hb : b.Within) (hok : BookOk b) (hd : AcceptedDiff venue d)
    (hw : d.Within) (h : b.applyAcceptedDiff d = some (result, b')) : b'.Within := by
  unfold TopFiveBook.applyAcceptedDiff at h
  simp only [Option.bind_eq_bind, Option.bind_eq_some_iff] at h
  obtain ⟨bids, hbids, asks, hasks, h⟩ := h
  split at h
  · obtain ⟨-, rfl⟩ := Prod.mk.inj (Option.some.inj h)
    exact hb
  · obtain ⟨-, rfl⟩ := Prod.mk.inj (Option.some.inj h)
    exact ⟨applyUpdates_within hok.bids hd.bids hw.1 hb.1 hbids,
      applyUpdates_within hok.asks hd.asks hw.2 hb.2 hasks⟩

end TopFiveBook

theorem applyDepth_within {s s' : SymbolState} {kind : StreamKind} {d : SpotDepthEvent}
    {result : BookApplyResult} (hok : BookOk s.book) (hb : s.book.Within) (hk : kind ≠ .trade)
    (hdiff : kind = .depthDiff → AcceptedDiff s.venue d)
    (hrefresh : kind = .depth5 → AcceptedRefresh d) (hw : d.Within)
    (h : applyDepth s kind d = some (result, s')) : s'.book.Within := by
  have hkind : kind ≠ .depth5 → kind = .depthDiff := by
    intro hno
    cases kind with
    | depthDiff => rfl
    | depth5 => exact absurd rfl hno
    | trade => exact absurd rfl hk
  cases hv : s.venue with
  | spot =>
      have hbook : s.book = s.spotBook.book := by rw [SymbolState.book, hv]
      rw [hbook] at hok hb
      rw [applyDepth_spot hv, Option.map_eq_some_iff] at h
      obtain ⟨⟨r, b⟩, hcall, heq⟩ := h
      obtain ⟨rfl, rfl⟩ := Prod.mk.inj heq
      simp only [SymbolState.book, hv]
      split at hcall
      · rename_i hfive
        exact hb.applyRefresh (hrefresh hfive) hw (SpotBook.applyRefresh_core hcall)
      · rename_i hfive
        rcases SpotBook.applyDiff_cases hcall with ⟨-, hcore⟩ | ⟨-, rfl | rfl⟩
        · exact hb.applyAcceptedDiff hok (hdiff (hkind hfive)) hw hcore
        · exact hb
        · exact hb
  | usdm =>
      have hbook : s.book = s.usdmBook.book := by rw [SymbolState.book, hv]
      rw [hbook] at hok hb
      rw [applyDepth_usdm hv, Option.map_eq_some_iff] at h
      obtain ⟨⟨r, b⟩, hcall, heq⟩ := h
      obtain ⟨rfl, rfl⟩ := Prod.mk.inj heq
      simp only [SymbolState.book, hv]
      split at hcall
      · rename_i hfive
        exact hb.applyRefresh (hrefresh hfive) hw (UsdMBook.applyRefresh_core hcall)
      · rename_i hfive
        rcases UsdMBook.applyDiff_cases hcall with ⟨-, hcore⟩ | ⟨-, rfl | rfl⟩
        · exact hb.applyAcceptedDiff hok (hdiff (hkind hfive)) hw hcore
        · exact hb
        · exact hb

/-! ## The audit row -/

theorem auditText_ne_nil (row : MarketDataCsvRow) : auditText row ≠ [] := by
  simp [auditText]

/-- An oversized payload is not audited. -/
theorem length_of_auditEligible {json : Library} {context : EventContext} {payload : Bytes}
    (h : auditEligible (parsedMessage json context payload).error = true) :
    payload.length ≤ maxPayloadBytes := by
  by_contra hlarge
  have hgt : payload.length > maxPayloadBytes := Nat.lt_of_not_le hlarge
  simp [parsedMessage, SpotPayloadParser.parse, parsePayload, hgt, auditEligible] at h

theorem auditRow_of_context {s : SymbolState} {context : EventContext} {payload : Bytes}
    (hcontext : contextIsValid s context = true) (hlength : payload.length ≤ maxPayloadBytes) :
    AuditRow s.venue s.symbol (auditRowOf context payload) := by
  obtain ⟨hvenue, hsymbol, hshard, hnanoseconds, hsequence⟩ := (contextIsValid_iff.mp hcontext).1
  exact ⟨hnanoseconds, hshard, UInt64.pos_iff_ne_zero.mpr hsequence, hvenue, hsymbol, hlength⟩

/-- An audited message of a well-formed state: its batch holds its audit row in full. -/
theorem audited_row {json : Library} {s s' : SymbolState} {context : EventContext} {payload : Bytes}
    {result : EventProcessResult} {batch : EventRowBatch} (hok : s.Ok)
    (hcontext : contextIsValid s context = true)
    (h : processParsed s context payload .liveCapture (parsedMessage json context payload) =
      some (result, s', batch))
    (herror : result.error = .none) (haudited : result.status ≠ .preAuditRejected) :
    AuditRow s.venue s.symbol (auditRowOf context payload) ∧
      batch.auditRow = auditText (auditRowOf context payload) ∧ batch.hasAuditRow = true ∧
      batch.hasOrderBookRow = !batch.orderBookRow.isEmpty := by
  obtain ⟨-, -, -, -, -, -, heligible, hbatch⟩ :=
    processParsed_twin (.refl s) (fun _ => .refl _) h herror haudited
  have hrow := auditRow_of_context hcontext (length_of_auditEligible heligible)
  have hformat := hbatch.auditRow
  rw [hrow.format hok.symbol] at hformat
  exact ⟨hrow, (Except.ok.inj hformat).symm, hbatch.audit, hbatch.orderBook⟩

/-! ## States -/

/-- The states of a run: every row of theirs can be written. -/
structure SymbolState.Printable (s : SymbolState) : Prop where
  ok : s.Ok
  instrument : s.instrumentId < 2 ^ 31
  levels : s.book.Within

namespace SymbolState

theorem create_printable {venue : PayloadVenue} {symbol : Bytes} {s : SymbolState}
    (h : create venue symbol = some s) : s.Printable := by
  refine ⟨(create_ok h).1, ?_, ?_⟩
  · obtain ⟨id, hid, rfl⟩ := Option.map_eq_some_iff.mp h
    exact (deriveInstrumentId_some hid).2.2
  · obtain ⟨id, -, rfl⟩ := Option.map_eq_some_iff.mp h
    cases venue <;> exact ⟨by simp [book, Side.view], by simp [book, Side.view]⟩

theorem Printable.invalidate {s : SymbolState} (h : s.Printable) : s.invalidate.Printable := by
  refine ⟨h.ok.invalidate, by simpa using h.instrument, ?_⟩
  rw [invalidate_book]
  exact h.levels

theorem Printable.commitContext {s : SymbolState} (h : s.Printable) (context : EventContext) :
    (s.commitContext context).Printable := ⟨h.ok.commitContext context, h.instrument, h.levels⟩

theorem Printable.withSequence {s : SymbolState} (h : s.Printable) (n : UInt64) :
    ({ s with sequenceNumber := n } : SymbolState).Printable :=
  ⟨⟨h.ok.symbol, h.ok.instrument, h.ok.book⟩, h.instrument, h.levels⟩

theorem Printable.entered {s : SymbolState} (h : s.Printable) (context : EventContext) :
    (s.entered context).Printable := by
  unfold SymbolState.entered
  split
  · exact h.invalidate
  · exact h

end SymbolState

theorem validTimestamp_of_context {s : SymbolState} {context : EventContext}
    (h : contextIsValid s context = true) : validTimestamp context.timestamp = true := by
  simpa [validTimestamp] using (contextIsValid_iff.mp h).1.nanoseconds

/-- An accepted depth event on a state of a run: it is committed, or there is no next
sequence number. -/
theorem processDepth_printable {json : Library} {s s' : SymbolState} {context : EventContext}
    {payload : Bytes} {base result : EventProcessResult} {batch batch' : EventRowBatch}
    (h : s.Printable) (hcontext : contextIsValid s context = true) (hbase : base.error = .none)
    (hparsed : (parsedMessage json context payload).error = .none)
    (hk : context.streamKind ≠ .trade)
    (hcall : processDepth s context (parsedMessage json context payload).event.depth base batch =
      some (result, s', batch')) :
    (result.error = .none ∧ s'.Printable) ∨
      (result.error = .sequenceOverflow ∧ s.sequenceNumber.toNat = uint64Maximum ∧ s' = s ∧
        batch' = {}) := by
  have haccepted : (context.streamKind = .depthDiff → AcceptedDiff context.venue
        (parsedMessage json context payload).event.depth) ∧
      (context.streamKind = .depth5 →
        AcceptedRefresh (parsedMessage json context payload).event.depth) :=
    parsePayload_accepted (SpotPayloadParser.aged {}) hparsed
  have hvenue : context.venue = (s.entered context).venue := by
    rw [SymbolState.entered_venue]
    exact (contextIsValid_eq hcontext).1
  have hentered := h.entered context
  have hdiff := fun hkind => hvenue ▸ haccepted.1 hkind
  obtain ⟨⟨bookResult, candidate⟩, happly, hcall⟩ := Option.bind_eq_some_iff.mp hcall
  -- the candidate is printable, with or without a new number
  obtain ⟨bookResult', candidate', happly', hsame, -, hok⟩ :=
    applyDepth_outcome hentered.ok.book hk hdiff haccepted.2
  obtain ⟨-, rfl⟩ := Prod.mk.inj (Option.some.inj (happly'.symm.trans happly))
  have hwithin := applyDepth_within hentered.ok.book hentered.levels hk hdiff haccepted.2
    (parsedMessage_within json payload hk) happly
  have hcandidate : candidate'.Printable :=
    ⟨⟨hsame.symbol ▸ hentered.ok.symbol, hsame.instrumentId ▸ hentered.ok.instrument, hok⟩,
      hsame.instrumentId ▸ hentered.instrument, hwithin⟩
  dsimp only at hcall
  split at hcall
  · split at hcall
    · rename_i hnone
      simp only [Option.pure_def, Option.some.injEq, Prod.mk.injEq] at hcall
      obtain ⟨rfl, rfl, rfl⟩ := hcall
      refine .inr ⟨rfl, ?_, rfl, rfl⟩
      by_contra hmax
      simp [checkedNextSequence, hmax] at hnone
    · rename_i next hnext
      obtain ⟨-, hnumber⟩ := checkedNextSequence_some hnext
      have hpositive : next ≠ 0 := by
        rintro rfl
        simp at hnumber
      obtain ⟨text, htext, -⟩ := formatOrderBookCsvRow_ok
        (orderBookRowOf s context next bookResult.side candidate')
        (validTimestamp_of_context hcontext) hpositive
        ⟨by simpa [orderBookRowOf] using h.ok.instrument, by
          have := h.instrument
          simp only [orderBookRowOf]
          omega⟩ hok.validBook hwithin.1 hwithin.2
      simp only [htext, Option.pure_def, Option.some.injEq, Prod.mk.injEq] at hcall
      obtain ⟨rfl, rfl, -⟩ := hcall
      exact .inl ⟨hbase, (hcandidate.commitContext context).withSequence next⟩
  · simp only [Option.pure_def, Option.some.injEq, Prod.mk.injEq] at hcall
    obtain ⟨rfl, rfl, -⟩ := hcall
    exact .inl ⟨hbase, hcandidate.commitContext context⟩

/-- A message on a state of a run: its rows are written and it is committed, or there is
no next sequence number. -/
theorem processParsed_printable {json : Library} {s s' : SymbolState} {context : EventContext}
    {payload : Bytes} {mode : EventOutputMode} {result : EventProcessResult} {batch : EventRowBatch}
    (h : s.Printable) (hcontext : contextIsValid s context = true)
    (hcall : processParsed s context payload mode (parsedMessage json context payload) =
      some (result, s', batch)) :
    (result.error = .none ∧ s'.Printable) ∨
      (result.error = .sequenceOverflow ∧ s.sequenceNumber.toNat = uint64Maximum ∧ s' = s ∧
        batch = {}) := by
  have hrejected : (if s.epochChanged context || decide (context.streamKind = .depthDiff)
      then s.invalidate else s).Printable := by
    split
    · exact h.invalidate
    · exact h
  unfold processParsed at hcall
  dsimp only at hcall
  split at hcall
  · simp only [Option.some.injEq, Prod.mk.injEq] at hcall
    obtain ⟨rfl, rfl, -⟩ := hcall
    exact .inl ⟨rfl, hrejected.commitContext context⟩
  · rename_i heligible
    simp only [Bool.not_eq_true', Bool.not_eq_false] at heligible
    have hformat := (auditRow_of_context hcontext (length_of_auditEligible heligible)).format
      h.ok.symbol
    split at hcall
    · -- an audit row of a valid context is never refused
      rename_i e herror
      cases mode <;> simp [auditBatch, hformat] at herror
    · split at hcall
      · simp only [Option.some.injEq, Prod.mk.injEq] at hcall
        obtain ⟨rfl, rfl, -⟩ := hcall
        exact .inl ⟨rfl, hrejected.commitContext context⟩
      · rename_i hvalue
        split at hcall
        · simp only [Option.some.injEq, Prod.mk.injEq] at hcall
          obtain ⟨rfl, rfl, -⟩ := hcall
          exact .inl ⟨rfl, (h.entered context).commitContext context⟩
        · rename_i hk
          exact processDepth_printable h hcontext rfl
            (by simpa [SpotParseResult.hasValue] using hvalue) hk hcall

end MarketCapture
