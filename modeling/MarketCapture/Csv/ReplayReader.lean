import MarketCapture.Csv.Formatter

/-! # The replay reader

`MarketDataReplayReader` over an open descriptor. What the operating system
answers to the read calls is a script: chunks of at most the buffer size,
interruptions, failures, and end of file when the script is over. Frames are cut
byte by byte, decoded column by column, and checked against the records before
them; the first error is kept for every later call.
-/

namespace MarketCapture

open ByteText (parseInt)

def replayReadBufferBytes : Nat := 64 * 1024

inductive ReplayColumn where
  | none | header | recvTsec | recvTnsec | venue | streamKind | shardId | connEpoch | connSeq
  | symbol | payloadJson
  deriving DecidableEq, Repr

inductive ReplayReadErrorCode where
  | readFailed
  | invalidHeader
  | recordTooLarge
  | truncatedRecord
  | invalidCsv
  | wrongColumnCount
  | invalidInteger
  | invalidRange
  | invalidEnum
  | invalidSymbol
  | payloadTooLarge
  | changingSymbol
  | changingVenue
  | decreasingEpoch
  | nonIncreasingConnectionSequence
  deriving DecidableEq, Repr

structure ReplayReadError where
  code : ReplayReadErrorCode
  column : ReplayColumn := .none
  logicalRecordNumber : Nat := 0
  nativeError : Int := 0
  deriving DecidableEq, Repr

/-- One answer of `read`: some bytes, an interruption, or a failure. -/
inductive ReadAnswer where
  | bytes (chunk : Bytes)
  | interrupted
  | failed (native : Int)
  deriving DecidableEq, Repr

inductive ByteRead where
  | byte (value : UInt8)
  | endOfFile
  | error (native : Int)
  deriving DecidableEq, Repr

inductive LogicalRead where
  | record (bytes : Bytes)
  | endOfFile
  | error (error : ReplayReadError)
  deriving DecidableEq, Repr

inductive CsvFrameState where
  | fieldStart | unquoted | quoted | quoteClosed
  deriving DecidableEq, Repr

/-- What the reader remembers of the records it returned. -/
structure FileIdentity where
  venue : PayloadVenue
  symbol : Bytes
  lastConnectionEpoch : UInt64
  lastConnectionSequence : UInt64
  deriving DecidableEq

structure MarketDataReplayReader where
  /-- The answers of the read calls still to come. -/
  script : List ReadAnswer
  /-- The read buffer from `read_begin_` on. -/
  buffer : Bytes := []
  record : MarketDataCsvRow := {}
  logicalRecordNumber : Nat := 0
  endOfFile : Bool := false
  fileIdentity : Option FileIdentity := none
  firstError : Option ReplayReadError := none
  deriving DecidableEq

namespace MarketDataReplayReader

def makeError (r : MarketDataReplayReader) (code : ReplayReadErrorCode) (column : ReplayColumn)
    (native : Int := 0) : ReplayReadError :=
  { code := code, column := column, logicalRecordNumber := r.logicalRecordNumber + 1,
    nativeError := native }

/-! ## Bytes and frames -/

/-- The refill loop of `read_byte`: interruptions are retried. -/
def refill : List ReadAnswer → ByteRead × List ReadAnswer × Bytes
  | [] => (.endOfFile, [], [])
  | .interrupted :: script => refill script
  | .failed native :: script => (.error native, script, [])
  | .bytes [] :: script => (.endOfFile, script, [])
  | .bytes (value :: rest) :: script => (.byte value, script, rest)

def readByte (r : MarketDataReplayReader) : ByteRead × MarketDataReplayReader :=
  match r.buffer with
  | value :: rest => (.byte value, { r with buffer := rest })
  | [] =>
      let (answer, script, buffer) := refill r.script
      (answer, { r with script := script, buffer := buffer })

/-- One byte of a frame: go on in a state, complete the record, or refuse it. -/
inductive FrameStep where
  | next (state : CsvFrameState)
  | complete
  | invalid
  deriving DecidableEq, Repr

def frameStep (state : CsvFrameState) (byte : UInt8) : FrameStep :=
  match state with
  | .fieldStart =>
      if byte = quote then .next .quoted
      else if byte = comma then .next .fieldStart
      else if byte = lineFeed then .complete
      else .next .unquoted
  | .unquoted =>
      if byte = quote then .invalid
      else if byte = comma then .next .fieldStart
      else if byte = lineFeed then .complete
      else .next .unquoted
  | .quoted => if byte = quote then .next .quoteClosed else .next .quoted
  | .quoteClosed =>
      if byte = quote then .next .quoted
      else if byte = comma then .next .fieldStart
      else if byte = lineFeed then .complete
      else .invalid

/-- The loop of `read_logical_record`, with the bytes collected so far. The fuel
exceeds the bytes still to come, so the loop never runs out of it. -/
def recordLoop : Nat → CsvFrameState → Bytes → MarketDataReplayReader →
    LogicalRead × MarketDataReplayReader
  | 0, _, _, r => (.endOfFile, r)
  | fuel + 1, state, collected, r =>
      match r.readByte with
      | (.error native, r) => (.error (r.makeError .readFailed .none native), r)
      | (.endOfFile, r) =>
          if collected.length = 0 then (.endOfFile, r)
          else (.error (r.makeError .truncatedRecord .none), r)
      | (.byte value, r) =>
          if collected.length = maxCsvRecordBytes then
            (.error (r.makeError .recordTooLarge .none), r)
          else
            let collected := collected ++ [value]
            match frameStep state value with
            | .next state => recordLoop fuel state collected r
            | .complete => (.record collected, r)
            | .invalid => (.error (r.makeError .invalidCsv .none), r)

def scriptBytes : List ReadAnswer → Bytes
  | [] => []
  | .bytes chunk :: script => chunk ++ scriptBytes script
  | _ :: script => scriptBytes script

def readLogicalRecord (r : MarketDataReplayReader) : LogicalRead × MarketDataReplayReader :=
  recordLoop (r.buffer.length + (scriptBytes r.script).length + 1) .fieldStart [] r

/-! ## Records -/

def forbiddenUnquotedByte (byte : UInt8) : Bool :=
  decide (byte = quote) || decide (byte = carriageReturn) || decide (byte = lineFeed)

/-- One unquoted column: its bytes up to the comma, and what follows the comma. -/
def takeField : Bytes → Except ReplayReadErrorCode (Bytes × Bytes)
  | [] => .error .wrongColumnCount
  | byte :: rest =>
      if byte = comma then .ok ([], rest)
      else if forbiddenUnquotedByte byte then .error .invalidCsv
      else
        match takeField rest with
        | .error e => .error e
        | .ok (field, after) => .ok (byte :: field, after)

def unquotedColumns : List ReplayColumn :=
  [.recvTsec, .recvTnsec, .venue, .streamKind, .shardId, .connEpoch, .connSeq, .symbol]

/-- The columns in order, then the rest of the row. -/
def takeFields (r : MarketDataReplayReader) :
    List ReplayColumn → Bytes → Except ReplayReadError (List Bytes × Bytes)
  | [], row => .ok ([], row)
  | column :: columns, row =>
      match takeField row with
      | .error code => .error (r.makeError code column)
      | .ok (field, rest) =>
          match takeFields r columns rest with
          | .error e => .error e
          | .ok (fields, rest) => .ok (field :: fields, rest)

def parseInt64 (field : Bytes) : Option Int64 :=
  (parseInt (-2 ^ 63) (2 ^ 63 - 1) field).map Int64.ofInt

def parseInt32 (field : Bytes) : Option Int32 :=
  (parseInt (-2 ^ 31) (2 ^ 31 - 1) field).map Int32.ofInt

def parseUInt32 (field : Bytes) : Option UInt32 :=
  (parseInt 0 (2 ^ 32 - 1) field).map fun i => UInt32.ofNat i.toNat

def parseUInt64 (field : Bytes) : Option UInt64 :=
  (parseInt 0 (2 ^ 64 - 1) field).map fun i => UInt64.ofNat i.toNat

def parseVenue (field : Bytes) : Option PayloadVenue :=
  if field = ascii "spot" then some .spot
  else if field = ascii "usdm" then some .usdm
  else none

def parseStreamKind (field : Bytes) : Option StreamKind :=
  if field = ascii "depth_diff" then some .depthDiff
  else if field = ascii "depth5" then some .depth5
  else if field = ascii "trade" then some .trade
  else none

/-- The payload loop: the bytes between the outer quotes, inner quotes doubled. -/
def decodePayload : Bytes → Nat → Except ReplayReadErrorCode Bytes
  | [], _ => .ok []
  | [byte], decodedSize =>
      if byte = quote then .error .invalidCsv
      else if decodedSize = maxPayloadBytes then .error .payloadTooLarge
      else .ok [byte]
  | byte :: following :: rest, decodedSize =>
      if byte = quote then
        if following ≠ quote then .error .invalidCsv
        else if decodedSize = maxPayloadBytes then .error .payloadTooLarge
        else
          match decodePayload rest (decodedSize + 1) with
          | .error e => .error e
          | .ok decoded => .ok (quote :: decoded)
      else if decodedSize = maxPayloadBytes then .error .payloadTooLarge
      else
        match decodePayload (following :: rest) (decodedSize + 1) with
        | .error e => .error e
        | .ok decoded => .ok (byte :: decoded)

/-- A column that must parse. -/
def parsed {α : Type} (r : MarketDataReplayReader) (value : Option α) (code : ReplayReadErrorCode)
    (column : ReplayColumn) : Except ReplayReadError α :=
  match value with
  | none => .error (r.makeError code column)
  | some a => .ok a

/-- A column that must not be out of its range. -/
def refused (r : MarketDataReplayReader) (bad : Bool) (code : ReplayReadErrorCode)
    (column : ReplayColumn) : Except ReplayReadError Unit :=
  if bad then .error (r.makeError code column) else .ok ()

/-- The columns of a row once they are cut, in the order the source checks them. -/
def decodeColumns (r : MarketDataReplayReader) (fields : List Bytes) (encodedPayload : Bytes) :
    Except ReplayReadError MarketDataCsvRow := do
  let field (i : Nat) : Bytes := fields.getD i []
  r.refused (decide (encodedPayload.length < 2) || decide (encodedPayload.head? ≠ some quote) ||
    decide (encodedPayload.getLast? ≠ some quote)) .invalidCsv .payloadJson
  let seconds ← r.parsed (parseInt64 (field 0)) .invalidInteger .recvTsec
  let nanoseconds ← r.parsed (parseInt32 (field 1)) .invalidInteger .recvTnsec
  r.refused (decide (nanoseconds.toInt < 0) || decide (nanoseconds.toInt ≥ nanosecondsPerSecond))
    .invalidRange .recvTnsec
  let venue ← r.parsed (parseVenue (field 2)) .invalidEnum .venue
  let streamKind ← r.parsed (parseStreamKind (field 3)) .invalidEnum .streamKind
  let shardId ← r.parsed (parseUInt32 (field 4)) .invalidInteger .shardId
  r.refused (decide (shardId ≠ 0)) .invalidRange .shardId
  let connectionEpoch ← r.parsed (parseUInt64 (field 5)) .invalidInteger .connEpoch
  let connectionSequence ← r.parsed (parseUInt64 (field 6)) .invalidInteger .connSeq
  r.refused (decide (connectionSequence = 0)) .invalidRange .connSeq
  r.refused (!isNormalizedSymbol (field 7)) .invalidSymbol .symbol
  match decodePayload (encodedPayload.drop 1).dropLast 0 with
  | .error code => .error (r.makeError code .payloadJson)
  | .ok payload =>
      .ok { timestamp := ⟨seconds, nanoseconds⟩, venue := venue, streamKind := streamKind,
            shardId := shardId, connectionEpoch := connectionEpoch,
            connectionSequence := connectionSequence, symbol := field 7, payloadJson := payload }

def decodeRecord (r : MarketDataReplayReader) (logicalRecord : Bytes) :
    Except ReplayReadError MarketDataCsvRow :=
  if logicalRecord.getLast? ≠ some lineFeed then .error (r.makeError .truncatedRecord .none)
  else
    match takeFields r unquotedColumns logicalRecord.dropLast with
    | .error e => .error e
    | .ok (fields, encodedPayload) => decodeColumns r fields encodedPayload

/-- `validate_file_sequence` for a decoded record. -/
def validateFileSequence (r : MarketDataReplayReader) (record : MarketDataCsvRow) :
    Except ReplayReadError FileIdentity :=
  match r.fileIdentity with
  | none => .ok ⟨record.venue, record.symbol, record.connectionEpoch, record.connectionSequence⟩
  | some file =>
      if record.venue ≠ file.venue then .error (r.makeError .changingVenue .venue)
      else if record.symbol ≠ file.symbol then .error (r.makeError .changingSymbol .symbol)
      else if record.connectionEpoch < file.lastConnectionEpoch then
        .error (r.makeError .decreasingEpoch .connEpoch)
      else if record.connectionEpoch = file.lastConnectionEpoch ∧
          record.connectionSequence ≤ file.lastConnectionSequence then
        .error (r.makeError .nonIncreasingConnectionSequence .connSeq)
      else .ok { file with lastConnectionEpoch := record.connectionEpoch,
                           lastConnectionSequence := record.connectionSequence }

/-! ## The calls -/

inductive ReplayRead where
  | record (row : MarketDataCsvRow)
  | endOfFile
  | error (error : ReplayReadError)
  deriving DecidableEq

def latch (r : MarketDataReplayReader) (error : ReplayReadError) :
    ReplayRead × MarketDataReplayReader :=
  match r.firstError with
  | some first => (.error first, r)
  | none => (.error error, { r with firstError := some error })

/-- A framed record is decoded and checked against the file. -/
def acceptRecord (r : MarketDataReplayReader) (logicalRecord : Bytes) :
    ReplayRead × MarketDataReplayReader :=
  match r.decodeRecord logicalRecord with
  | .error e => r.latch e
  | .ok row =>
      match r.validateFileSequence row with
      | .error e => ({ r with record := row }).latch e
      | .ok identity =>
          (.record row, { r with record := row, fileIdentity := some identity,
                                 logicalRecordNumber := r.logicalRecordNumber + 1 })

def next (r : MarketDataReplayReader) : ReplayRead × MarketDataReplayReader :=
  match r.firstError with
  | some first => (.error first, r)
  | none =>
      if r.endOfFile then (.endOfFile, r)
      else
        match r.readLogicalRecord with
        | (.endOfFile, r) => (.endOfFile, { r with endOfFile := true })
        | (.error e, r) => r.latch e
        | (.record logicalRecord, r) => r.acceptRecord logicalRecord

/-- `open` on a descriptor that was opened: the header must be the first record. -/
def openScript (script : List ReadAnswer) : Except ReplayReadError MarketDataReplayReader :=
  let r : MarketDataReplayReader := { script := script }
  match r.readLogicalRecord with
  | (.error e, _) => .error { e with column := .header }
  | (.endOfFile, _) => .error { code := .invalidHeader, column := .header, logicalRecordNumber := 1 }
  | (.record header, r) =>
      if header ≠ marketDataCsvHeader then
        .error { code := .invalidHeader, column := .header, logicalRecordNumber := 1 }
      else .ok { r with logicalRecordNumber := 1 }

end MarketDataReplayReader

end MarketCapture
