import MarketCapture.Lib.Decimal
import MarketCapture.Payload.SymbolIdentity
import MarketCapture.Book.TopFive

/-! # CSV rows

The two row formatters. Every append checks the record limit of 3 MiB, and a
record that does not fit is reported and its buffer cleared; running out of
memory is left out. A view of a book side is the list of its levels.
-/

namespace MarketCapture

open ByteText (natText intText isDigit minus)

def maxCsvRecordBytes : Nat := 3 * 1024 * 1024

def nanosecondsPerSecond : Int := 1000000000

def marketDataCsvHeader : Bytes :=
  ascii "recv_tsec,recv_tnsec,venue,stream_kind,shard_id,conn_epoch,conn_seq,symbol,payload_json\n"

def orderBookCsvHeader : Bytes := ascii
  ("tsec,tnsec,seqNo,id,type,side,bid0,bid1,bid2,bid3," ++
    "bid4,bid_size0,bid_size1,bid_size2,bid_size3,bid_size4," ++
    "ask0,ask1,ask2,ask3,ask4,ask_size0,ask_size1,ask_size2," ++ "ask_size3,ask_size4\n")

inductive BookRowType where
  | differential | partialRefresh
  deriving DecidableEq, Repr

inductive CsvFormatError where
  | invalidTimestamp
  | invalidSequence
  | invalidSymbol
  | invalidInstrumentId
  | invalidBook
  | recordTooLarge
  deriving DecidableEq, Repr

structure CsvTimestamp where
  seconds : Int64 := 0
  nanoseconds : Int32 := 0
  deriving DecidableEq

structure MarketDataCsvRow where
  timestamp : CsvTimestamp := {}
  venue : PayloadVenue := .spot
  streamKind : StreamKind := .depthDiff
  shardId : UInt32 := 0
  connectionEpoch : UInt64 := 0
  connectionSequence : UInt64 := 0
  symbol : Bytes := []
  payloadJson : Bytes := []
  deriving DecidableEq

structure OrderBookCsvRow where
  timestamp : CsvTimestamp := {}
  sequenceNumber : UInt64 := 0
  instrumentId : Int := 0
  rowType : BookRowType := .differential
  side : BookRowSide := .neutral
  bids : List BookLevel := []
  asks : List BookLevel := []
  deriving DecidableEq

/-! ## Appending under the record limit -/

def comma : UInt8 := 44
def quote : UInt8 := 34
def lineFeed : UInt8 := 10
def carriageReturn : UInt8 := 13

def appendBytes (output bytes : Bytes) : Option Bytes :=
  if output.length > maxCsvRecordBytes ∨ bytes.length > maxCsvRecordBytes - output.length then none
  else some (output ++ bytes)

def appendByte (output : Bytes) (byte : UInt8) : Option Bytes :=
  if output.length = maxCsvRecordBytes then none else some (output ++ [byte])

/-- The digits go through a buffer of 32 bytes. -/
def appendInteger (output : Bytes) (value : Int) : Option Bytes :=
  if (intText value).length > 32 then none else appendBytes output (intText value)

def appendComma (output : Bytes) : Option Bytes := appendByte output comma

def appendQuotedLoop : Bytes → Bytes → Option Bytes
  | output, [] => some output
  | output, byte :: rest => do
      let next ← if byte = quote then appendBytes output [quote, quote] else appendByte output byte
      appendQuotedLoop next rest

def appendQuotedField (output field : Bytes) : Option Bytes := do
  let opened ← appendByte output quote
  let filled ← appendQuotedLoop opened field
  appendByte filled quote

def validTimestamp (t : CsvTimestamp) : Bool :=
  decide (0 ≤ t.nanoseconds.toInt) && decide (t.nanoseconds.toInt < nanosecondsPerSecond)

def venueText : PayloadVenue → Bytes
  | .spot => ascii "spot"
  | .usdm => ascii "usdm"

def streamKindText : StreamKind → Bytes
  | .depthDiff => ascii "depth_diff"
  | .depth5 => ascii "depth5"
  | .trade => ascii "trade"

def rowTypeText : BookRowType → UInt8
  | .differential => 68
  | .partialRefresh => 80

def sideText : BookRowSide → UInt8
  | .bid => 66
  | .ask => 83
  | .neutral => 78

/-! ## Audit rows -/

def formatMarketDataCsvRow (row : MarketDataCsvRow) : Except CsvFormatError Bytes :=
  if !validTimestamp row.timestamp then .error .invalidTimestamp
  else if row.connectionSequence = 0 then .error .invalidSequence
  else if !isNormalizedSymbol row.symbol then .error .invalidSymbol
  else
    let complete : Option Bytes := do
      let o ← appendInteger [] row.timestamp.seconds.toInt
      let o ← appendComma o
      let o ← appendInteger o row.timestamp.nanoseconds.toInt
      let o ← appendComma o
      let o ← appendBytes o (venueText row.venue)
      let o ← appendComma o
      let o ← appendBytes o (streamKindText row.streamKind)
      let o ← appendComma o
      let o ← appendInteger o row.shardId.toNat
      let o ← appendComma o
      let o ← appendInteger o row.connectionEpoch.toNat
      let o ← appendComma o
      let o ← appendInteger o row.connectionSequence.toNat
      let o ← appendComma o
      let o ← appendBytes o row.symbol
      let o ← appendComma o
      let o ← appendQuotedField o row.payloadJson
      appendByte o lineFeed
    match complete with
    | none => .error .recordTooLarge
    | some record => .ok record

/-! ## Order-book rows -/

/-- The level loop of `valid_side`, with the price of the level before. -/
def validLevels (side : BookSide) : Option Int → List BookLevel → Bool
  | _, [] => true
  | previous, level :: rest =>
      if level.price ≤ 0 ∨ level.quantity ≤ 0 then false
      else
        let misplaced := previous.any fun p =>
          if side = .bid then decide (p ≤ level.price) else decide (p ≥ level.price)
        if misplaced then false else validLevels side (some level.price) rest

def validSide (view : List BookLevel) (side : BookSide) : Bool :=
  if view.length > visibleBookDepth then false else validLevels side none view

def validBook (bids asks : List BookLevel) : Bool :=
  if !validSide bids .bid || !validSide asks .ask then false
  else
    match bids, asks with
    | bid :: _, ask :: _ => decide (bid.price < ask.price)
    | _, _ => true

def appendLevelComponent (output : Bytes) (view : List BookLevel) (index : Nat) (quantity : Bool) :
    Option Bytes := do
  let o ← appendComma output
  match view[index]? with
  | none => appendByte o 48
  | some level => appendInteger o (if quantity then level.quantity else level.price)

def appendBookSide (output : Bytes) (view : List BookLevel) (quantity : Bool) : Option Bytes :=
  (List.range visibleBookDepth).foldlM
    (fun o index => appendLevelComponent o view index quantity) output

def formatOrderBookCsvRow (row : OrderBookCsvRow) : Except CsvFormatError Bytes :=
  if !validTimestamp row.timestamp then .error .invalidTimestamp
  else if row.sequenceNumber = 0 then .error .invalidSequence
  else if row.instrumentId ≤ 0 then .error .invalidInstrumentId
  else if !validBook row.bids row.asks then .error .invalidBook
  else
    let complete : Option Bytes := do
      let o ← appendInteger [] row.timestamp.seconds.toInt
      let o ← appendComma o
      let o ← appendInteger o row.timestamp.nanoseconds.toInt
      let o ← appendComma o
      let o ← appendInteger o row.sequenceNumber.toNat
      let o ← appendComma o
      let o ← appendInteger o row.instrumentId
      let o ← appendComma o
      let o ← appendByte o (rowTypeText row.rowType)
      let o ← appendComma o
      let o ← appendByte o (sideText row.side)
      let o ← appendBookSide o row.bids false
      let o ← appendBookSide o row.bids true
      let o ← appendBookSide o row.asks false
      let o ← appendBookSide o row.asks true
      appendByte o lineFeed
    match complete with
    | none => .error .recordTooLarge
    | some record => .ok record

/-! ## The text of an audit row -/

/-- A field with its quotes doubled. -/
def escaped (field : Bytes) : Bytes :=
  field.flatMap (fun b => if b = quote then [quote, quote] else [b])

@[simp] theorem escaped_nil : escaped [] = [] := rfl

theorem escaped_cons_quote (bs : Bytes) : escaped (quote :: bs) = quote :: quote :: escaped bs := by
  simp [escaped]

theorem escaped_cons {b : UInt8} (hb : b ≠ quote) (bs : Bytes) :
    escaped (b :: bs) = b :: escaped bs := by
  simp [escaped, hb]

theorem escaped_length_le (field : Bytes) : (escaped field).length ≤ 2 * field.length := by
  induction field with
  | nil => simp
  | cons b bs ih =>
      by_cases hb : b = quote
      · subst hb
        simp only [escaped_cons_quote, List.length_cons]
        omega
      · simp only [escaped_cons hb, List.length_cons]
        omega

def quotedText (field : Bytes) : Bytes := quote :: escaped field ++ [quote]

/-- The eight fields before the payload. -/
def auditFields (row : MarketDataCsvRow) : List Bytes :=
  [intText row.timestamp.seconds.toInt, intText row.timestamp.nanoseconds.toInt,
    venueText row.venue, streamKindText row.streamKind, natText row.shardId.toNat,
    natText row.connectionEpoch.toNat, natText row.connectionSequence.toNat, row.symbol]

def auditText (row : MarketDataCsvRow) : Bytes :=
  (auditFields row).flatMap (fun f => f ++ [comma]) ++ quotedText row.payloadJson ++ [lineFeed]

theorem appendBytes_of_fits {output bytes : Bytes}
    (h : output.length + bytes.length ≤ maxCsvRecordBytes) :
    appendBytes output bytes = some (output ++ bytes) := by
  unfold appendBytes
  rw [if_neg]
  omega

theorem appendByte_of_fits {output : Bytes} {byte : UInt8}
    (h : output.length + 1 ≤ maxCsvRecordBytes) :
    appendByte output byte = some (output ++ [byte]) := by
  unfold appendByte
  rw [if_neg]
  omega

theorem appendInteger_of_fits {output : Bytes} {value : Int}
    (hscratch : (intText value).length ≤ 32)
    (h : output.length + (intText value).length ≤ maxCsvRecordBytes) :
    appendInteger output value = some (output ++ intText value) := by
  unfold appendInteger
  rw [if_neg (by omega), appendBytes_of_fits h]

theorem appendQuotedLoop_of_fits (field : Bytes) {output : Bytes}
    (h : output.length + 2 * field.length ≤ maxCsvRecordBytes) :
    appendQuotedLoop output field = some (output ++ escaped field) := by
  induction field generalizing output with
  | nil => simp [appendQuotedLoop]
  | cons byte rest ih =>
      rw [List.length_cons] at h
      unfold appendQuotedLoop
      by_cases hq : byte = quote
      · subst hq
        rw [if_pos rfl, appendBytes_of_fits (by simp; omega)]
        simp only [Option.bind_eq_bind, Option.bind_some]
        rw [ih (by simp; omega), escaped_cons_quote]
        simp
      · rw [if_neg hq, appendByte_of_fits (by omega)]
        simp only [Option.bind_eq_bind, Option.bind_some]
        rw [ih (by simp; omega), escaped_cons hq]
        simp

theorem appendQuotedField_of_fits {output field : Bytes}
    (h : output.length + 2 * field.length + 2 ≤ maxCsvRecordBytes) :
    appendQuotedField output field = some (output ++ quotedText field) := by
  have hesc := escaped_length_le field
  unfold appendQuotedField
  rw [appendByte_of_fits (by omega)]
  simp only [Option.bind_eq_bind, Option.bind_some]
  rw [appendQuotedLoop_of_fits _ (by simp; omega)]
  simp only [Option.bind_some]
  rw [appendByte_of_fits (by simp; omega)]
  simp [quotedText]

theorem natText_uint64_length (n : UInt64) : (natText n.toNat).length ≤ 20 :=
  ByteText.natText_length_le n.toNat 19 (lt_of_lt_of_le n.toNat_lt (by norm_num))

theorem natText_uint32_length (n : UInt32) : (natText n.toNat).length ≤ 10 :=
  ByteText.natText_length_le n.toNat 9 (lt_of_lt_of_le n.toNat_lt (by norm_num))

theorem intText_int64_length (i : Int64) : (intText i.toInt).length ≤ 20 := by
  have h₁ := i.le_toInt
  have h₂ := i.toInt_lt
  exact ByteText.intText_length_le (k := 18) (by omega)

theorem intText_int32_length (i : Int32) : (intText i.toInt).length ≤ 11 := by
  have h₁ := i.le_toInt
  have h₂ := i.toInt_lt
  exact ByteText.intText_length_le (k := 9) (by omega)

/-- A row that passes the field checks and carries at most the payload limit is
written in full. -/
theorem formatMarketDataCsvRow_ok {row : MarketDataCsvRow}
    (ht : validTimestamp row.timestamp = true) (hseq : row.connectionSequence ≠ 0)
    (hsym : isNormalizedSymbol row.symbol = true)
    (hpayload : row.payloadJson.length ≤ maxPayloadBytes) :
    formatMarketDataCsvRow row = .ok (auditText row) := by
  have h₁ := intText_int64_length row.timestamp.seconds
  have h₂ := intText_int32_length row.timestamp.nanoseconds
  have h₃ : (venueText row.venue).length = 4 := by cases row.venue <;> rfl
  have h₄ : (streamKindText row.streamKind).length ≤ 10 := by cases row.streamKind <;> decide
  have h₅ : (intText row.shardId.toNat).length ≤ 10 := natText_uint32_length row.shardId
  have h₆ : (intText row.connectionEpoch.toNat).length ≤ 20 :=
    natText_uint64_length row.connectionEpoch
  have h₇ : (intText row.connectionSequence.toNat).length ≤ 20 :=
    natText_uint64_length row.connectionSequence
  have h₈ := (isNormalizedSymbol_bytes hsym).2.1
  have hsymbol : maxNormalizedSymbolBytes = 32 := rfl
  have hmax : maxPayloadBytes = 1048576 := rfl
  have hlimit : maxCsvRecordBytes = 3145728 := rfl
  -- each piece is appended to an output that is still short
  have integer : ∀ (o : Bytes) (value : Int) (k : Bytes → Option Bytes), o.length ≤ 200 →
      (intText value).length ≤ 20 → (appendInteger o value).bind k = k (o ++ intText value) := by
    intro o value k ho hv
    rw [appendInteger_of_fits (by omega) (by omega), Option.bind_some]
  have bytes : ∀ (o text : Bytes) (k : Bytes → Option Bytes), o.length ≤ 200 →
      text.length ≤ 32 → (appendBytes o text).bind k = k (o ++ text) := by
    intro o text k ho ht
    rw [appendBytes_of_fits (by omega), Option.bind_some]
  have separator : ∀ (o : Bytes) (k : Bytes → Option Bytes), o.length ≤ 200 →
      (appendComma o).bind k = k (o ++ [comma]) := by
    intro o k ho
    rw [appendComma, appendByte_of_fits (by omega), Option.bind_some]
  unfold formatMarketDataCsvRow
  simp only [ht, hsym, hseq, Bool.not_true, Bool.false_eq_true, ↓reduceIte, Option.bind_eq_bind]
  rw [integer _ _ _ (by simp) h₁, separator _ _ (by simp; omega),
    integer _ _ _ (by simp; omega) (by omega), separator _ _ (by simp; omega),
    bytes _ _ _ (by simp; omega) (by omega), separator _ _ (by simp; omega),
    bytes _ _ _ (by simp; omega) (by omega), separator _ _ (by simp; omega),
    integer _ _ _ (by simp; omega) (by omega), separator _ _ (by simp; omega),
    integer _ _ _ (by simp; omega) h₆, separator _ _ (by simp; omega),
    integer _ _ _ (by simp; omega) h₇, separator _ _ (by simp; omega),
    bytes _ _ _ (by simp; omega) (by omega), separator _ _ (by simp; omega),
    appendQuotedField_of_fits (by simp; omega), Option.bind_some,
    appendByte_of_fits (by have := escaped_length_le row.payloadJson; simp [quotedText]; omega)]
  simp [auditText, auditFields, intText]

theorem auditText_length_le {row : MarketDataCsvRow} (hsym : isNormalizedSymbol row.symbol = true)
    (hpayload : row.payloadJson.length ≤ maxPayloadBytes) :
    (auditText row).length ≤ maxCsvRecordBytes := by
  have h₁ := intText_int64_length row.timestamp.seconds
  have h₂ := intText_int32_length row.timestamp.nanoseconds
  have h₃ : (venueText row.venue).length = 4 := by cases row.venue <;> rfl
  have h₄ : (streamKindText row.streamKind).length ≤ 10 := by cases row.streamKind <;> decide
  have h₅ := natText_uint32_length row.shardId
  have h₆ := natText_uint64_length row.connectionEpoch
  have h₇ := natText_uint64_length row.connectionSequence
  have h₈ := (isNormalizedSymbol_bytes hsym).2.1
  have h₉ := escaped_length_le row.payloadJson
  have hsymbol : maxNormalizedSymbolBytes = 32 := rfl
  have hmax : maxPayloadBytes = 1048576 := rfl
  have hlimit : maxCsvRecordBytes = 3145728 := rfl
  simp only [auditText, auditFields, quotedText, List.flatMap_cons, List.flatMap_nil,
    List.length_append, List.length_cons, List.length_nil]
  omega

/-- A row whose view satisfies the checks of the formatter is not refused as a book. -/
theorem formatOrderBookCsvRow_ne_invalidBook {row : OrderBookCsvRow}
    (h : validBook row.bids row.asks = true) :
    formatOrderBookCsvRow row ≠ .error .invalidBook := by
  unfold formatOrderBookCsvRow
  split
  · simp
  · split
    · simp
    · split
      · simp
      · simp only [h, Bool.not_true, Bool.false_eq_true, ↓reduceIte]
        split <;> simp

/-! ## What a written row holds -/

theorem appendBytes_eq_some {o r bytes : Bytes} (h : appendBytes o bytes = some r) :
    r = o ++ bytes := by
  unfold appendBytes at h
  split at h
  · cases h
  · exact (Option.some.inj h).symm

theorem appendByte_eq_some {o r : Bytes} {b : UInt8} (h : appendByte o b = some r) :
    r = o ++ [b] := by
  unfold appendByte at h
  split at h
  · cases h
  · exact (Option.some.inj h).symm

theorem appendInteger_eq_some {o r : Bytes} {value : Int} (h : appendInteger o value = some r) :
    r = o ++ intText value := by
  unfold appendInteger at h
  split at h
  · cases h
  · exact appendBytes_eq_some h

/-- The fields before the levels: timestamp, number, instrument id, type and side. -/
def orderBookFields (row : OrderBookCsvRow) : List Bytes :=
  [intText row.timestamp.seconds.toInt, intText row.timestamp.nanoseconds.toInt,
    intText row.sequenceNumber.toNat, intText row.instrumentId, [rowTypeText row.rowType],
    [sideText row.side]]

theorem formatMarketDataCsvRow_ne_nil {row : MarketDataCsvRow} {text : Bytes}
    (h : formatMarketDataCsvRow row = .ok text) : text ≠ [] := by
  unfold formatMarketDataCsvRow at h
  split at h
  · cases h
  · split at h
    · cases h
    · split at h
      · cases h
      · dsimp only at h
        split at h
        · cases h
        · rename_i record hcomplete
          obtain rfl := Except.ok.inj h
          iterate 17 obtain ⟨_, -, hcomplete⟩ := Option.bind_eq_some_iff.mp hcomplete
          rw [appendByte_eq_some hcomplete]
          simp

end MarketCapture
