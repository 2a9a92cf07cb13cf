import MarketCapture.Payload.DuplicateTable
import MarketCapture.Payload.FixedPoint
import MarketCapture.Payload.Ondemand

/-! # The payload parser

`SpotPayloadParser` over the On-Demand answers. A first schema error is recorded
and the traversal goes on, so that syntactic validity is established for the
whole object; an error of the document itself ends the traversal at once. The
parser's scratch (level buffer, duplicate table) is threaded through.
-/

namespace MarketCapture

open Simdjson JsonValidation

def rootFieldContainerDepth : Nat := 2
def levelContainerDepth : Nat := 3
def levelComponentContainerDepth : Nat := 4

structure ParseFailure where
  error : SpotParseError := .none
  field : SpotField := .none
  decimalError : DecimalParseError := .none
  deriving DecidableEq, Repr

def ParseFailure.failed (f : ParseFailure) : Bool := decide (f.error ≠ .none)

def classifyJsonError (e : ErrorCode) : SpotParseError :=
  if e = .depthError then .jsonNestingTooDeep else .malformedJson

def failJson (e : ErrorCode) : ParseFailure := { error := classifyJsonError e, field := .root }

def isFatalDocumentError (e : SpotParseError) : Bool :=
  decide (e = .malformedJson) || decide (e = .jsonNestingTooDeep)

def asciiUpper (b : UInt8) : UInt8 :=
  if 97 ≤ b.toNat ∧ b.toNat ≤ 122 then b - 32 else b

def equalsAsciiCaseInsensitive (lhs rhs : Bytes) : Bool :=
  decide (lhs.map asciiUpper = rhs.map asciiUpper)

def isSchemaConversionError (e : ErrorCode) : Bool :=
  decide (e = .incorrectType) || decide (e = .numberOutOfRange)

/-- A field that is not of the wanted type still has to be valid JSON. -/
def wrongTypeUnlessInvalid (value : Value) (field : SpotField) : ParseFailure :=
  match validateValue value rootFieldContainerDepth with
  | none => { error := .wrongType, field := field }
  | some e => failJson e

def readJsonString (value : Value) (field : SpotField) : Except ParseFailure Bytes :=
  match value.type with
  | .error e => .error (failJson e)
  | .ok .string =>
      match value.getString with
      | .ok s => .ok s
      | .error e => .error (failJson e)
  | .ok _ => .error (wrongTypeUnlessInvalid value field)

def readJsonUint64 (value : Value) (field : SpotField) : Except ParseFailure UInt64 :=
  match value.type with
  | .error e => .error (failJson e)
  | .ok .number =>
      match value.getUint64 with
      | .ok n => .ok n
      | .error e =>
          .error (if isSchemaConversionError e then { error := .wrongType, field := field }
            else failJson e)
  | .ok _ => .error (wrongTypeUnlessInvalid value field)

/-! ## Scratch -/

/-- The buffers a parse writes: accepted levels in order, and how many levels of
any kind were met. -/
structure Scratch where
  table : DuplicateTable := {}
  updates : List LevelUpdate := []
  encounteredLevels : Nat := 0

def Scratch.beginMessage (s : Scratch) : Scratch :=
  { table := s.table.beginMessage, updates := [], encounteredLevels := 0 }

/-! ## Levels -/

/-- The components of one level read so far. -/
structure Components where
  priceText : Bytes := []
  quantityText : Bytes := []
  count : Nat := 0
  valid : Bool := true
  firstError : ParseFailure := {}

/-- Keep the first recorded error. -/
def recordFirst (first : ParseFailure) (error : SpotParseError) (field : SpotField)
    (decimalError : DecimalParseError := .none) : ParseFailure :=
  if first.failed then first else ⟨error, field, decimalError⟩

def parseComponents : Elements → Components → Except ErrorCode Components
  | .done, c => .ok c
  | .error e, _ => .error e
  | .next value rest, c =>
      if c.count ≥ 2 then
        match validateValue value levelComponentContainerDepth with
        | some e => .error e
        | none => parseComponents rest { c with
            firstError := recordFirst c.firstError .invalidLevelShape .level
            valid := false
            count := c.count + 1 }
      else
        match value.type with
        | .error e => .error e
        | .ok .string =>
            match value.getString with
            | .error e => .error e
            | .ok text => parseComponents rest
                (if c.count = 0 then { c with priceText := text, count := c.count + 1 }
                  else { c with quantityText := text, count := c.count + 1 })
        | .ok _ =>
            match validateValue value levelComponentContainerDepth with
            | some e => .error e
            | none => parseComponents rest { c with
                firstError := recordFirst c.firstError .wrongType
                  (if c.count = 0 then .price else .quantity)
                valid := false
                count := c.count + 1 }

structure LevelsState where
  scratch : Scratch
  firstError : ParseFailure := {}
  sideLevelCount : Nat := 0
  previousPrice : Option Int := none

def LevelsState.record (s : LevelsState) (error : SpotParseError) (field : SpotField)
    (decimalError : DecimalParseError := .none) : LevelsState :=
  { s with firstError := recordFirst s.firstError error field decimalError }

def sideField : BookSide → SpotField
  | .bid => .bids
  | .ask => .asks

/-- The order a partial refresh must keep between neighbouring levels. -/
def correctlyOrdered (side : BookSide) (previous price : Int) : Bool :=
  match side with
  | .bid => decide (previous > price)
  | .ask => decide (previous < price)

/-- A level whose two texts are known: convert, check and append it. The second
component is an error that ends the traversal. -/
def acceptLevel (side : BookSide) (isPartial : Bool) (c : Components) (s : LevelsState) :
    LevelsState × Option ParseFailure :=
  match parseDecimal1e8 c.priceText with
  | .error e => (s.record .invalidDecimal .price e, none)
  | .ok price =>
      if price ≤ 0 then (s.record .nonPositivePrice .price, none)
      else
        match parseDecimal1e8 c.quantityText with
        | .error e => (s.record .invalidDecimal .quantity e, none)
        | .ok quantity =>
            if isPartial && decide (quantity ≤ 0) then
              (s.record .invalidQuantity .quantity, none)
            else
              let (outcome, table) := s.scratch.table.insertUnique price side
              let s := { s with scratch := { s.scratch with table := table } }
              match outcome with
              | .duplicate => (s.record .duplicatePrice .price, none)
              | .tableFull => (s, some { error := .internalCapacityError, field := .level })
              | .inserted =>
                  if isPartial && s.previousPrice.any (fun p => !correctlyOrdered side p price) then
                    (s.record .invalidLevelOrder (sideField side), none)
                  else
                    ({ s with
                      scratch := { s.scratch with
                        updates := s.scratch.updates ++ [⟨price, quantity, side⟩] }
                      previousPrice := some price }, none)

def overCapacity (isPartial : Bool) (s : LevelsState) : Bool :=
  decide (s.scratch.encounteredLevels ≥ maxDepthUpdates) ||
    (isPartial && decide (s.sideLevelCount ≥ maxPartialDepthLevelsPerSide))

def LevelsState.countLevel (s : LevelsState) : LevelsState :=
  { s with
    scratch := { s.scratch with encounteredLevels := s.scratch.encounteredLevels + 1 }
    sideLevelCount := s.sideLevelCount + 1 }

/-- A level that is not read as one is recorded and still validated. -/
def skipLevel (value : Value) (s : LevelsState) : LevelsState × Option ParseFailure :=
  match validateValue value levelContainerDepth with
  | some e => (s, some (failJson e))
  | none => (s, none)

/-- One round of the level loop. -/
def parseLevel (side : BookSide) (isPartial : Bool) (value : Value) (s : LevelsState) :
    LevelsState × Option ParseFailure :=
  let full := overCapacity isPartial s
  let s := s.countLevel
  if full then skipLevel value (s.record .tooManyLevels (sideField side))
  else
    match value.type with
    | .error e => (s, some (failJson e))
    | .ok .array =>
        match parseComponents value.elements { firstError := s.firstError } with
        | .error e => (s, some (failJson e))
        | .ok c =>
            let s := { s with firstError := c.firstError }
            if c.count ≠ 2 then (s.record .invalidLevelShape .level, none)
            else if !c.valid then (s, none)
            else acceptLevel side isPartial c s
    | .ok _ => skipLevel value (s.record .invalidLevelShape .level)

def parseLevelsLoop (side : BookSide) (isPartial : Bool) :
    Elements → LevelsState → LevelsState × Option ParseFailure
  | .done, s => (s, none)
  | .error e, s => (s, some (failJson e))
  | .next value rest, s =>
      match parseLevel side isPartial value s with
      | (s, some failure) => (s, some failure)
      | (s, none) => parseLevelsLoop side isPartial rest s

/-- `parse_levels`: its failure, the level range on a completed traversal, and
the scratch it leaves. -/
def parseLevels (value : Value) (side : BookSide) (isPartial : Bool) (scratch : Scratch) :
    ParseFailure × List LevelUpdate × Scratch :=
  match value.type with
  | .error e => (failJson e, [], scratch)
  | .ok .array =>
      match parseLevelsLoop side isPartial value.elements { scratch := scratch } with
      | (s, some failure) => (failure, [], s.scratch)
      | (s, none) => (s.firstError, s.scratch.updates.drop scratch.updates.length, s.scratch)
  | .ok _ => (wrongTypeUnlessInvalid value (sideField side), [], scratch)

/-! ## Trades -/

def parseTradeLoop (expectedSymbol : Bytes) : Fields → SpotParseResult → SpotParseResult
  | .done, r => r
  | .error e, r => { r with error := classifyJsonError e, field := .root }
  | .next key value rest, r =>
      match key with
      | .error e => { r with error := classifyJsonError e, field := .root }
      | .ok key =>
          if key = ascii "e" then
            let read := readJsonString value .eventType
            let r := { r with event.trade.eventTypePresent := true }
            match read with
            | .error f =>
                if isFatalDocumentError f.error then { r with error := f.error, field := f.field }
                else parseTradeLoop expectedSymbol rest
                  { r with event.trade.eventTypeMatches := false }
            | .ok eventType => parseTradeLoop expectedSymbol rest
                { r with event.trade.eventTypeMatches :=
                    r.event.trade.eventTypeMatches && decide (eventType = ascii "trade") }
          else if key = ascii "s" then
            let read := readJsonString value .symbol
            let r := { r with event.trade.symbolPresent := true }
            match read with
            | .error f =>
                if isFatalDocumentError f.error then { r with error := f.error, field := f.field }
                else parseTradeLoop expectedSymbol rest
                  { r with event.trade.symbolMatches := false }
            | .ok symbol => parseTradeLoop expectedSymbol rest
                { r with event.trade.symbolMatches :=
                    r.event.trade.symbolMatches &&
                      equalsAsciiCaseInsensitive symbol expectedSymbol }
          else
            match validateValue value rootFieldContainerDepth with
            | some e => { r with error := classifyJsonError e, field := .root }
            | none => parseTradeLoop expectedSymbol rest r

def parseTrade (fields : Fields) (expectedSymbol : Bytes) : SpotParseResult :=
  parseTradeLoop expectedSymbol fields { event := { kind := .trade } }

/-! ## Depth -/

/-- The typed top-level fields of a depth object, one bit of the mask each. -/
inductive DepthField where
  | eventType | eventTime | transactionTime | symbol | firstUpdateId | finalUpdateId
  | previousUpdateId | lastUpdateId | bids | asks
  deriving DecidableEq, Repr

def DepthField.spotField : DepthField → SpotField
  | .eventType => .eventType
  | .eventTime => .eventTime
  | .transactionTime => .transactionTime
  | .symbol => .symbol
  | .firstUpdateId => .firstUpdateId
  | .finalUpdateId => .finalUpdateId
  | .previousUpdateId => .previousUpdateId
  | .lastUpdateId => .lastUpdateId
  | .bids => .bids
  | .asks => .asks

def usesDepthUpdateShape (venue : PayloadVenue) (kind : StreamKind) : Bool :=
  decide (venue = .usdm) || decide (kind = .depthDiff)

/-- The typed field a key names in this venue and kind, in the order of the
source's tests. -/
def depthField (venue : PayloadVenue) (kind : StreamKind) (key : Bytes) : Option DepthField :=
  let shape := usesDepthUpdateShape venue kind
  let usdm := decide (venue = .usdm)
  if shape && decide (key = ascii "e") then some .eventType
  else if shape && decide (key = ascii "E") then some .eventTime
  else if usdm && decide (key = ascii "T") then some .transactionTime
  else if shape && decide (key = ascii "s") then some .symbol
  else if shape && decide (key = ascii "U") then some .firstUpdateId
  else if shape && decide (key = ascii "u") then some .finalUpdateId
  else if usdm && decide (key = ascii "pu") then some .previousUpdateId
  else if !usdm && decide (kind = .depth5) && decide (key = ascii "lastUpdateId") then
    some .lastUpdateId
  else if (shape && decide (key = ascii "b")) || (!shape && decide (key = ascii "bids")) then
    some .bids
  else if (shape && decide (key = ascii "a")) || (!shape && decide (key = ascii "asks")) then
    some .asks
  else none

def requiredFields (venue : PayloadVenue) (kind : StreamKind) : List DepthField :=
  match venue, kind with
  | .usdm, _ => [.eventType, .eventTime, .transactionTime, .symbol, .firstUpdateId,
      .finalUpdateId, .previousUpdateId, .bids, .asks]
  | .spot, .depthDiff => [.eventType, .eventTime, .symbol, .firstUpdateId, .finalUpdateId,
      .bids, .asks]
  | .spot, _ => [.lastUpdateId, .bids, .asks]

structure DepthState where
  result : SpotParseResult
  /-- The fields marked so far. -/
  marked : List DepthField := []
  scratch : Scratch

namespace DepthState

def record (s : DepthState) (error : SpotParseError) (field : SpotField)
    (decimalError : DecimalParseError := .none) : DepthState :=
  if s.result.error = .none then
    { s with result.error := error, result.field := field, result.decimalError := decimalError }
  else s

/-- Overwrite the result's error, as an error of the document does. -/
def setError (s : DepthState) (f : ParseFailure) : DepthState :=
  { s with result.error := f.error, result.field := f.field,
           result.decimalError := f.decimalError }

/-- An error of the field iteration itself; the decimal detail stays. -/
def setJsonError (s : DepthState) (e : ErrorCode) : DepthState :=
  { s with result.error := classifyJsonError e, result.field := .root }

/-- `apply_failure`. -/
def applyFailure (s : DepthState) (f : ParseFailure) : DepthState :=
  if isFatalDocumentError f.error then s.setError f
  else s.record f.error f.field f.decimalError

def setDepth (s : DepthState) (f : SpotDepthEvent → SpotDepthEvent) : DepthState :=
  { s with result.event.depth := f s.result.event.depth }

/-- The branch of a repeated field: recorded, then validated. -/
def duplicateField (s : DepthState) (field : DepthField) (value : Value) : DepthState :=
  let s := s.record .duplicateField field.spotField
  match validateValue value rootFieldContainerDepth with
  | some e => s.setError (failJson e)
  | none => s

/-- A numeric field: store it, or apply its failure. -/
def readId (s : DepthState) (value : Value) (field : DepthField)
    (store : UInt64 → SpotDepthEvent → SpotDepthEvent) : DepthState :=
  match readJsonUint64 value field.spotField with
  | .error f => s.applyFailure f
  | .ok n => s.setDepth (store n)

def setLevels (s : DepthState) (side : BookSide) (range : List LevelUpdate) : DepthState :=
  s.setDepth (fun d => match side with
    | .bid => { d with bids := range }
    | .ask => { d with asks := range })

/-- A level array. A document error or an exhausted table overrides an earlier
schema error; any other failure is recorded. -/
def readLevels (s : DepthState) (value : Value) (side : BookSide) (isPartial : Bool) :
    DepthState :=
  let (failure, range, scratch) := parseLevels value side isPartial s.scratch
  let s := { s with scratch := scratch }
  if failure.failed then
    if isFatalDocumentError failure.error || decide (failure.error = .internalCapacityError) then
      s.setError failure
    else (s.setLevels side range).record failure.error failure.field failure.decimalError
  else s.setLevels side range

/-- One typed field that has not been seen before. -/
def readField (s : DepthState) (kind : StreamKind) (expectedSymbol : Bytes) (field : DepthField)
    (value : Value) : DepthState :=
  match field with
  | .eventType =>
      match readJsonString value .eventType with
      | .error f => s.applyFailure f
      | .ok text =>
          if text ≠ ascii "depthUpdate" then s.record .unexpectedEventType .eventType else s
  | .eventTime => s.readId value .eventTime
      (fun n d => { d with eventTimeMs := n, hasEventTime := true })
  | .transactionTime => s.readId value .transactionTime
      (fun n d => { d with transactionTimeMs := n, hasTransactionTime := true })
  | .symbol =>
      match readJsonString value .symbol with
      | .error f => s.applyFailure f
      | .ok text =>
          if !equalsAsciiCaseInsensitive text expectedSymbol then s.record .symbolMismatch .symbol
          else s
  | .firstUpdateId => s.readId value .firstUpdateId (fun n d => { d with firstUpdateId := n })
  | .finalUpdateId => s.readId value .finalUpdateId (fun n d => { d with finalUpdateId := n })
  | .previousUpdateId => s.readId value .previousUpdateId
      (fun n d => { d with previousUpdateId := n, hasPreviousUpdateId := true })
  | .lastUpdateId => s.readId value .lastUpdateId
      (fun n d => { d with finalUpdateId := n, firstUpdateId := n })
  | .bids => s.readLevels value .bid (decide (kind = .depth5))
  | .asks => s.readLevels value .ask (decide (kind = .depth5))

/-- The traversal returns at once on these errors. -/
def stopped (s : DepthState) : Bool :=
  isFatalDocumentError s.result.error || decide (s.result.error = .internalCapacityError)

/-- One field of the object. -/
def visit (s : DepthState) (venue : PayloadVenue) (kind : StreamKind) (expectedSymbol key : Bytes)
    (value : Value) : DepthState :=
  match depthField venue kind key with
  | some field =>
      if field ∈ s.marked then s.duplicateField field value
      else ({ s with marked := field :: s.marked }).readField kind expectedSymbol field value
  | none =>
      match validateValue value rootFieldContainerDepth with
      | some e => s.setError (failJson e)
      | none => s

end DepthState

/-- The field loop; the flag says whether the object was traversed to its end. -/
def parseDepthLoop (venue : PayloadVenue) (kind : StreamKind) (expectedSymbol : Bytes) :
    Fields → DepthState → DepthState × Bool
  | .done, s => (s, true)
  | .error e, s => (s.setJsonError e, false)
  | .next key value rest, s =>
      match key with
      | .error e => (s.setJsonError e, false)
      | .ok key =>
          let s := s.visit venue kind expectedSymbol key value
          if s.stopped then (s, false) else parseDepthLoop venue kind expectedSymbol rest s

/-- The checks after a complete traversal without a recorded error. -/
def finishDepth (venue : PayloadVenue) (kind : StreamKind) (s : DepthState) : SpotParseResult :=
  let depth := s.result.event.depth
  match (requiredFields venue kind).find? (fun f => f ∉ s.marked) with
  | some missing => { s.result with error := .missingField, field := missing.spotField }
  | none =>
      if usesDepthUpdateShape venue kind && decide (depth.firstUpdateId > depth.finalUpdateId) then
        { s.result with error := .invalidUpdateRange, field := .firstUpdateId }
      else if decide (venue = .usdm) && decide (depth.previousUpdateId ≥ depth.finalUpdateId) then
        { s.result with error := .invalidUpdateRange, field := .previousUpdateId }
      else if decide (kind = .depth5) &&
          depth.bids.head?.any (fun b => depth.asks.head?.any (fun a => decide (b.price ≥ a.price)))
      then { s.result with error := .crossedBook, field := .level }
      else s.result

def parseDepth (fields : Fields) (venue : PayloadVenue) (kind : StreamKind) (expectedSymbol : Bytes)
    (scratch : Scratch) : SpotParseResult × Scratch :=
  match parseDepthLoop venue kind expectedSymbol fields
      { result := { event := { kind := kind } }, scratch := scratch } with
  | (s, false) => (s.result, s.scratch)
  | (s, true) =>
      if s.result.error ≠ .none then (s.result, s.scratch)
      else (finishDepth venue kind s, s.scratch)

/-! ## Entry point -/

/-- `SpotPayloadParser::parse` on a buffer with the required padding. -/
def parsePayload (json : Library) (scratch : Scratch) (venue : PayloadVenue) (kind : StreamKind)
    (expectedSymbol payload : Bytes) : SpotParseResult × Scratch :=
  let rejected (error : SpotParseError) : SpotParseResult :=
    { event := { kind := kind }, error := error, field := .root }
  if payload.length > maxPayloadBytes then (rejected .payloadTooLarge, scratch)
  else
    let scratch := scratch.beginMessage
    match json.iterate payload with
    | .error e => (rejected (classifyJsonError e), scratch)
    | .ok document =>
        match document.type with
        | .error e => (rejected (classifyJsonError e), scratch)
        | .ok .object =>
            if kind = .trade then (parseTrade document.fields expectedSymbol, scratch)
            else parseDepth document.fields venue kind expectedSymbol scratch
        | .ok type =>
            match validateNonObjectDocument document type payload rootFieldContainerDepth with
            | none => (rejected .rootNotObject, scratch)
            | some e => (rejected (classifyJsonError e), scratch)

end MarketCapture
