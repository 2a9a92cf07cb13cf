import MarketCapture.Csv.OrderBookRow
import MarketCapture.Payload.ParserFacts

/-! # The event processor

One message against the state of one symbol: check the context, parse the
payload, write the audit row in live capture, apply a depth event to a candidate
book, write the order-book row, and commit. A failed assertion of the book is
`none`.
-/

namespace MarketCapture

open Simdjson

inductive EventOutputMode where
  | liveCapture | replay
  deriving DecidableEq, Repr

inductive EventProcessStatus where
  | notProcessed
  | appliedRefresh
  | appliedDiff
  | staleRefresh
  | staleDiff
  | ignoredWhileInvalid
  | sequenceGap
  | crossedBook
  | tradeAudited
  | schemaRejected
  | preAuditRejected
  deriving DecidableEq, Repr

inductive EventProcessError where
  | none
  | invalidContext
  | sequenceOverflow
  | csvFormatError
  deriving DecidableEq, Repr

structure EventContext where
  timestamp : CsvTimestamp := {}
  venue : PayloadVenue := .spot
  streamKind : StreamKind := .depthDiff
  shardId : UInt32 := 0
  connectionEpoch : UInt64 := 0
  connectionSequence : UInt64 := 0
  symbol : Bytes := []
  deriving DecidableEq

/-- The rows one message gives rise to. -/
structure EventRowBatch where
  auditRow : Bytes := []
  orderBookRow : Bytes := []
  hasAuditRow : Bool := false
  hasOrderBookRow : Bool := false
  deriving DecidableEq, Repr

/-- The bytes a batch adds to the audit file. -/
def EventRowBatch.auditBytes (batch : EventRowBatch) : Bytes :=
  if batch.hasAuditRow then batch.auditRow else []

/-- The bytes a batch adds to the order-book file. -/
def EventRowBatch.orderBookBytes (batch : EventRowBatch) : Bytes :=
  if batch.hasOrderBookRow then batch.orderBookRow else []

structure EventProcessResult where
  status : EventProcessStatus := .notProcessed
  error : EventProcessError := .none
  parseError : SpotParseError := .none
  parseField : SpotField := .none
  csvError : Option CsvFormatError := none
  bookStatus : BookApplyStatus := .ignoredWhileInvalid
  hasBookStatus : Bool := false
  tradeDiagnosticMismatch : Bool := false
  deriving DecidableEq, Repr

def EventProcessResult.success (r : EventProcessResult) : Bool := decide (r.error = .none)

/-- The syntactically valid payloads: accepted ones and those a schema check refused. -/
def auditEligible : SpotParseError → Bool
  | .none | .missingField | .duplicateField | .wrongType | .unexpectedEventType
  | .symbolMismatch | .invalidDecimal | .nonPositivePrice | .invalidQuantity
  | .invalidUpdateRange | .tooManyLevels | .invalidLevelShape | .duplicatePrice
  | .invalidLevelOrder | .crossedBook => true
  | .invalidInputBuffer | .payloadTooLarge | .jsonNestingTooDeep | .malformedJson
  | .rootNotObject | .internalCapacityError => false

def eventStatus : BookApplyStatus → EventProcessStatus
  | .appliedRefresh => .appliedRefresh
  | .appliedDiff => .appliedDiff
  | .staleRefresh => .staleRefresh
  | .staleDiff => .staleDiff
  | .ignoredWhileInvalid => .ignoredWhileInvalid
  | .sequenceGap => .sequenceGap
  | .crossedBook => .crossedBook

/-! ## The state of a symbol -/

structure SymbolState where
  symbol : Bytes
  venue : PayloadVenue
  instrumentId : Nat
  sequenceNumber : UInt64 := 0
  hasObservedConnection : Bool := false
  currentConnectionEpoch : UInt64 := 0
  lastConnectionSequence : UInt64 := 0
  spotBook : SpotBook := {}
  usdmBook : UsdMBook := {}
  deriving DecidableEq

namespace SymbolState

def create (venue : PayloadVenue) (normalizedSymbol : Bytes) : Option SymbolState :=
  (deriveInstrumentId normalizedSymbol).map fun id =>
    { symbol := normalizedSymbol, venue := venue, instrumentId := id }

/-- The book of the state's venue. -/
def book (s : SymbolState) : TopFiveBook :=
  match s.venue with
  | .spot => s.spotBook.book
  | .usdm => s.usdmBook.book

def bookValid (s : SymbolState) : Bool := s.book.valid

def lastUpdateId (s : SymbolState) : UInt64 := s.book.lastUpdateId

def invalidate (s : SymbolState) : SymbolState :=
  match s.venue with
  | .spot => { s with spotBook := s.spotBook.invalidate }
  | .usdm => { s with usdmBook := s.usdmBook.invalidate }

def commitContext (s : SymbolState) (context : EventContext) : SymbolState :=
  { s with hasObservedConnection := true, currentConnectionEpoch := context.connectionEpoch,
           lastConnectionSequence := context.connectionSequence }

/-- A message of a later epoch than the last one seen. -/
def epochChanged (s : SymbolState) (context : EventContext) : Bool :=
  s.hasObservedConnection && decide (context.connectionEpoch > s.currentConnectionEpoch)

/-- The state a message finds: a later epoch invalidates the book first. -/
def entered (s : SymbolState) (context : EventContext) : SymbolState :=
  if s.epochChanged context then s.invalidate else s

end SymbolState

def contextIsValid (s : SymbolState) (context : EventContext) : Bool :=
  if context.venue ≠ s.venue ∨ context.symbol ≠ s.symbol ∨ context.shardId ≠ 0 ∨
      context.timestamp.nanoseconds.toInt < 0 ∨
      context.timestamp.nanoseconds.toInt ≥ nanosecondsPerSecond ∨
      context.connectionSequence = 0 then false
  else if !s.hasObservedConnection then true
  else if context.connectionEpoch < s.currentConnectionEpoch then false
  else decide (context.connectionEpoch ≠ s.currentConnectionEpoch) ||
    decide (context.connectionSequence > s.lastConnectionSequence)

def checkedNextSequence (current : UInt64) : Option UInt64 :=
  if current.toNat = uint64Maximum then none else some (current + 1)

/-! ## One message -/

/-- The row of an audited message. -/
def auditRowOf (context : EventContext) (payload : Bytes) : MarketDataCsvRow :=
  { timestamp := context.timestamp, venue := context.venue, streamKind := context.streamKind,
    shardId := context.shardId, connectionEpoch := context.connectionEpoch,
    connectionSequence := context.connectionSequence, symbol := context.symbol,
    payloadJson := payload }

/-- The batch after `format_audit_row`, which only live capture calls. -/
def auditBatch (mode : EventOutputMode) (context : EventContext) (payload : Bytes) :
    Except CsvFormatError EventRowBatch :=
  match mode with
  | .replay => .ok {}
  | .liveCapture =>
      match formatMarketDataCsvRow (auditRowOf context payload) with
      | .error e => .error e
      | .ok row => .ok { auditRow := row, hasAuditRow := true }

/-- Apply a depth event to a copy of the book of the venue. -/
def applyDepth (s : SymbolState) (kind : StreamKind) (depth : SpotDepthEvent) :
    Option (BookApplyResult × SymbolState) :=
  match s.venue with
  | .spot => do
      let (result, book) ←
        if kind = .depth5 then s.spotBook.applyRefresh depth else s.spotBook.applyDiff depth
      return (result, { s with spotBook := book })
  | .usdm => do
      let (result, book) ←
        if kind = .depth5 then s.usdmBook.applyRefresh depth else s.usdmBook.applyDiff depth
      return (result, { s with usdmBook := book })

def orderBookRowOf (s : SymbolState) (context : EventContext) (sequence : UInt64)
    (side : BookRowSide) (candidate : SymbolState) : OrderBookCsvRow :=
  { timestamp := context.timestamp, sequenceNumber := sequence, instrumentId := s.instrumentId,
    rowType := if context.streamKind = .depthDiff then .differential else .partialRefresh,
    side := side, bids := candidate.book.bids.view, asks := candidate.book.asks.view }

/-- The end of `process` for an accepted depth event. -/
def processDepth (s : SymbolState) (context : EventContext) (depth : SpotDepthEvent)
    (base : EventProcessResult) (batch : EventRowBatch) :
    Option (EventProcessResult × SymbolState × EventRowBatch) := do
  let (bookResult, candidate) ← applyDepth (s.entered context) context.streamKind depth
  let result := { base with bookStatus := bookResult.status, hasBookStatus := true,
                            status := eventStatus bookResult.status }
  if bookResult.emitsSnapshot then
    match checkedNextSequence s.sequenceNumber with
    | none => return ({ result with error := .sequenceOverflow, status := .notProcessed }, s, {})
    | some next =>
        match formatOrderBookCsvRow (orderBookRowOf s context next bookResult.side candidate) with
        | .error e =>
            return ({ result with error := .csvFormatError, csvError := some e,
                                  status := .notProcessed }, s, {})
        | .ok row =>
            return (result, { candidate.commitContext context with sequenceNumber := next },
              { batch with orderBookRow := row, hasOrderBookRow := true })
  else return (result, candidate.commitContext context, batch)

/-- `process` once the context is valid and the payload is parsed. -/
def processParsed (s : SymbolState) (context : EventContext) (payload : Bytes)
    (mode : EventOutputMode) (parsed : SpotParseResult) :
    Option (EventProcessResult × SymbolState × EventRowBatch) :=
  let base : EventProcessResult := { parseError := parsed.error, parseField := parsed.field }
  let rejected := if s.epochChanged context || decide (context.streamKind = .depthDiff)
    then s.invalidate else s
  if !auditEligible parsed.error then
    some ({ base with status := .preAuditRejected }, rejected.commitContext context, {})
  else
    match auditBatch mode context payload with
    | .error e => some ({ base with error := .csvFormatError, csvError := some e }, s, {})
    | .ok batch =>
        if !parsed.hasValue then
          some ({ base with status := .schemaRejected }, rejected.commitContext context, batch)
        else if context.streamKind = .trade then
          let mismatch := !parsed.event.trade.eventTypeMatches || !parsed.event.trade.symbolMatches
          some ({ base with status := .tradeAudited, tradeDiagnosticMismatch := mismatch },
            (s.entered context).commitContext context, batch)
        else processDepth s context parsed.event.depth base batch

structure EventProcessor where
  parser : SpotPayloadParser := {}

def EventProcessor.process (p : EventProcessor) (json : Library) (s : SymbolState)
    (context : EventContext) (payload : Bytes) (mode : EventOutputMode) :
    Option (EventProcessResult × SymbolState × EventRowBatch × EventProcessor) :=
  if !contextIsValid s context then some ({ error := .invalidContext }, s, {}, p)
  else
    let (parsed, parser) :=
      p.parser.parse json context.venue context.streamKind s.symbol payload
    (processParsed s context payload mode parsed).map fun r => (r.1, r.2.1, r.2.2, ⟨parser⟩)

end MarketCapture
