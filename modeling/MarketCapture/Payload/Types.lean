import MarketCapture.Lib.Decimal

/-! # Payload vocabulary

Enumerations, limits and event records shared by the payload parser, the book
and the processor. Update ids and times are 64-bit unsigned machine values;
prices and quantities are the scaled integers the fixed-point parser returns.
-/

namespace MarketCapture

export ByteText (Bytes ascii)

theorem bind_eq_ok {ε α β : Type} {x : Except ε α} {f : α → Except ε β} {b : β} :
    (x >>= f) = .ok b ↔ ∃ a, x = .ok a ∧ f a = .ok b := by
  cases x <;> simp [bind, Except.bind]

theorem ok_of_toOption {ε α : Type} {e : Except ε α} {x : α} (h : e.toOption = some x) :
    e = .ok x := by
  cases e with
  | error _ => cases h
  | ok _ => exact congrArg _ (Option.some.inj h)

def maxPayloadBytes : Nat := 1024 * 1024
def maxJsonNestingDepth : Nat := 64
def maxDepthUpdates : Nat := 16384
def maxPartialDepthLevelsPerSide : Nat := 5

inductive PayloadVenue where
  | spot | usdm
  deriving DecidableEq, Repr

inductive StreamKind where
  | depthDiff | depth5 | trade
  deriving DecidableEq, Repr

inductive BookSide where
  | bid | ask
  deriving DecidableEq, Repr

inductive SpotParseError where
  | none
  | invalidInputBuffer
  | payloadTooLarge
  | jsonNestingTooDeep
  | malformedJson
  | rootNotObject
  | missingField
  | duplicateField
  | wrongType
  | unexpectedEventType
  | symbolMismatch
  | invalidDecimal
  | nonPositivePrice
  | invalidQuantity
  | invalidUpdateRange
  | tooManyLevels
  | invalidLevelShape
  | duplicatePrice
  | invalidLevelOrder
  | crossedBook
  | internalCapacityError
  deriving DecidableEq, Repr

inductive SpotField where
  | none
  | root
  | eventType
  | eventTime
  | transactionTime
  | symbol
  | firstUpdateId
  | finalUpdateId
  | previousUpdateId
  | lastUpdateId
  | bids
  | asks
  | price
  | quantity
  | level
  deriving DecidableEq, Repr

inductive DecimalParseError where
  | none
  | empty
  | missingIntegerDigits
  | missingFractionalDigits
  | invalidCharacter
  | nonZeroDiscardedDigit
  | overflow
  deriving DecidableEq, Repr

structure LevelUpdate where
  price : Int := 0
  quantity : Int := 0
  side : BookSide := .bid
  deriving DecidableEq, Repr

/-- A depth event. Its level ranges are views into the parser's scratch, which
the book consumes before the parser is used again. -/
structure SpotDepthEvent where
  hasEventTime : Bool := false
  eventTimeMs : UInt64 := 0
  hasTransactionTime : Bool := false
  transactionTimeMs : UInt64 := 0
  hasPreviousUpdateId : Bool := false
  previousUpdateId : UInt64 := 0
  firstUpdateId : UInt64 := 0
  finalUpdateId : UInt64 := 0
  bids : List LevelUpdate := []
  asks : List LevelUpdate := []
  deriving DecidableEq, Repr

structure SpotTradeAuditEvent where
  eventTypePresent : Bool := false
  eventTypeMatches : Bool := true
  symbolPresent : Bool := false
  symbolMatches : Bool := true
  deriving DecidableEq, Repr

structure SpotEvent where
  kind : StreamKind := .depthDiff
  depth : SpotDepthEvent := {}
  trade : SpotTradeAuditEvent := {}
  deriving DecidableEq, Repr

structure SpotParseResult where
  event : SpotEvent := {}
  error : SpotParseError := .none
  field : SpotField := .none
  decimalError : DecimalParseError := .none
  deriving DecidableEq, Repr

/-- `SpotParseResult::has_value`. -/
def SpotParseResult.hasValue (r : SpotParseResult) : Bool := decide (r.error = .none)

end MarketCapture
