import MarketCapture.Lib.FileSystem
import MarketCapture.Payload.SymbolIdentity
import MarketCapture.Writer.OutputSet

/-! # Opening the output set

`open_live` and `open_replay`: the request is checked, the directory prepared, and
the files of each target are created with their headers. The first failure undoes
what was made, from the last target to the first.
-/

namespace MarketCapture

open FileSystem

/-! ## Errors -/

inductive FileSinkOpenErrorCode where
  | invalidPath | allocationFailure | openFailed | writeFailed
  deriving DecidableEq, Repr

inductive FileSinkCleanupOperation where
  | close | remove
  deriving DecidableEq, Repr

/-- The error of `BufferedCsvFileSink::open_exclusive`, with what its cleanup met. -/
structure FileSinkOpenError where
  code : FileSinkOpenErrorCode
  nativeError : Int := 0
  cleanup : Option (FileSinkCleanupOperation × Int) := none
  deriving DecidableEq, Repr

inductive OutputRollbackOperation where
  | closeFile | removeFile | removeDirectory
  deriving DecidableEq, Repr

structure OutputRollbackError where
  operation : OutputRollbackOperation
  targetIndex : Option Nat := none
  fileKind : CsvFileKind := .marketData
  fileError : Option FileSinkError := none
  nativeError : Int := 0
  deriving DecidableEq, Repr

inductive OutputSetOpenErrorCode where
  | invalidInput | invalidUtcDate | invalidReplayStem | duplicateOutputPath
  | invalidOutputDirectory | outputDirectoryNotEmpty | fileSystemFailure | fileSinkFailure
  deriving DecidableEq, Repr

structure OutputSetOpenError where
  code : OutputSetOpenErrorCode
  symbolError : SymbolValidationError := .none
  targetIndex : Option Nat := none
  fileKind : CsvFileKind := .marketData
  fileError : Option FileSinkOpenError := none
  nativeError : Int := 0
  path : Bytes := []
  rollbackError : Option OutputRollbackError := none
  deriving DecidableEq, Repr

namespace OutputSetOpenError

/-- `record_rollback_error`: the first one is kept. -/
def recordRollback (error : OutputSetOpenError) (rollback : OutputRollbackError) :
    OutputSetOpenError :=
  match error.rollbackError with
  | some _ => error
  | none => { error with rollbackError := some rollback }

/-- A removal that failed is recorded; one that found nothing is not. -/
def recordRemoval (error : OutputSetOpenError) (operation : OutputRollbackOperation)
    (index : Option Nat) (kind : CsvFileKind) (removal : Removal) : OutputSetOpenError :=
  match removal.native with
  | none => error
  | some native =>
      if native ≠ noEntryError then
        error.recordRollback { operation := operation, targetIndex := index, fileKind := kind,
                               nativeError := native }
      else error

/-- `record_rollback_error` on a file that did not close cleanly. -/
def recordClose (error : OutputSetOpenError) (index : Nat) (kind : CsvFileKind)
    (closeError : Option FileSinkError) : OutputSetOpenError :=
  match closeError with
  | none => error
  | some fileError =>
      error.recordRollback { operation := .closeFile, targetIndex := some index, fileKind := kind,
                             fileError := some fileError }

end OutputSetOpenError

/-! ## Files -/

/-- The file system with the answers of the writes to come. -/
structure FileOperations where
  system : System Bytes Bytes
  writes : List WriteAnswer := []

/-- A sink with its path and descriptor. -/
structure OpenSink where
  path : Bytes
  descriptor : Nat
  sink : BufferedCsvFileSink

namespace FileOperations

def removeFile (w : FileOperations) (path : Bytes) : Removal × FileOperations :=
  ((w.system.remove path).1, { w with system := (w.system.remove path).2 })

def closeDescriptor (w : FileOperations) (descriptor : Nat) : Option Int × FileOperations :=
  ((w.system.close descriptor).1, { w with system := (w.system.close descriptor).2 })

/-- Write the header into the new file. -/
def writeHeader (w : FileOperations) (path header : Bytes) :
    (Option FileSinkError × BufferedCsvFileSink) × FileOperations :=
  let r := BufferedCsvFileSink.writeAll w.writes header { file := [] }
  (r.1, { system := w.system.write path r.1.2.file (r.1.1.map FileSinkError.nativeError), writes := r.2 })

/-- A file whose opening failed after it was created: closed, then removed. -/
def abandon (w : FileOperations) (descriptor : Nat) (path : Bytes) :
    Option (FileSinkCleanupOperation × Int) × FileOperations :=
  let closed := w.closeDescriptor descriptor
  let removed := closed.2.removeFile path
  let cleanup :=
    match closed.1 with
    | some native => some (.close, native)
    | none =>
        match removed.1.native with
        | some native => if native ≠ noEntryError then some (.remove, native) else none
        | none => none
  (cleanup, removed.2)

/-- `BufferedCsvFileSink::open_exclusive`. -/
def openExclusive (w : FileOperations) (path : Bytes) (kind : CsvFileKind) :
    Except FileSinkOpenError OpenSink × FileOperations :=
  if path.isEmpty then (.error { code := .invalidPath }, w)
  else
    match w.system.openExclusive path [] with
    | (.error native, system) =>
        (.error { code := .openFailed, nativeError := native }, { w with system := system })
    | (.ok descriptor, system) =>
        match system.allocate with
        | (false, system) =>
            let r := abandon { w with system := system } descriptor path
            (.error { code := .allocationFailure, cleanup := r.1 }, r.2)
        | (true, system) =>
            match writeHeader { w with system := system } path (headerFor kind) with
            | ((some error, _), w) =>
                let r := w.abandon descriptor path
                (.error { code := .writeFailed, nativeError := error.nativeError, cleanup := r.1 }, r.2)
            | ((none, sink), w) => (.ok { path := path, descriptor := descriptor, sink := sink }, w)

/-- Open one file of a target. What a sink leaves behind after creating the file is
removed again; a path that could not be opened is left alone. -/
def openFile (w : FileOperations) (index : Nat) (kind : CsvFileKind) (path : Bytes) :
    Except OutputSetOpenError OpenSink × FileOperations :=
  match w.openExclusive path kind with
  | (.ok sink, w) => (.ok sink, w)
  | (.error fileError, w) =>
      let error : OutputSetOpenError :=
        { code := .fileSinkFailure, targetIndex := some index, fileKind := kind,
          fileError := some fileError, path := path }
      if fileError.code ≠ .openFailed then
        let r := w.removeFile path
        (.error (error.recordRemoval .removeFile (some index) kind r.1), r.2)
      else (.error error, w)

end FileOperations

/-- `BufferedCsvFileSink::close`; a sink that is closed already makes no call. -/
def OpenSink.close (o : OpenSink) (w : FileOperations) :
    Option FileSinkError × OpenSink × FileOperations :=
  if !o.sink.isOpen then (o.sink.firstError, o, w)
  else
    let r := o.sink.close { writes := w.writes, closes := [w.system.fault] }
    let closed := ({ w with system := w.system.store o.path r.1.2.file,
                            writes := r.2.writes } : FileOperations).closeDescriptor o.descriptor
    (r.1.1, { o with sink := r.1.2 }, closed.2)

/-! ## Targets -/

/-- `TargetFiles` while the set is opened. -/
structure OutputTarget where
  symbol : Bytes
  auditPath : Bytes := []
  orderBookPath : Bytes
  audit : Option OpenSink := none
  orderBook : Option OpenSink := none
  auditCreated : Bool := false
  orderBookCreated : Bool := false

namespace OutputTarget

def openAudit (t : OutputTarget) (index : Nat) (w : FileOperations) :
    (Option OutputSetOpenError × OutputTarget) × FileOperations :=
  match w.openFile index .marketData t.auditPath with
  | (.error error, w) => ((some error, t), w)
  | (.ok sink, w) => ((none, { t with audit := some sink, auditCreated := true }), w)

def openOrderBook (t : OutputTarget) (index : Nat) (w : FileOperations) :
    (Option OutputSetOpenError × OutputTarget) × FileOperations :=
  match w.openFile index .orderBook t.orderBookPath with
  | (.error error, w) => ((some error, t), w)
  | (.ok sink, w) => ((none, { t with orderBook := some sink, orderBookCreated := true }), w)

/-- The body of the loop of `open_files`. -/
def openFiles (mode : CsvOutputMode) (t : OutputTarget) (index : Nat) (w : FileOperations) :
    (Option OutputSetOpenError × OutputTarget) × FileOperations :=
  if mode = .liveCapture then
    match t.openAudit index w with
    | ((some error, t), w) => ((some error, t), w)
    | ((none, t), w) => t.openOrderBook index w
  else t.openOrderBook index w

/-- Close a file of a target, if it has one. -/
def closeSink (index : Nat) (kind : CsvFileKind) (sink : Option OpenSink) (error : OutputSetOpenError)
    (w : FileOperations) : Option OpenSink × OutputSetOpenError × FileOperations :=
  match sink with
  | none => (none, error, w)
  | some o =>
      let r := o.close w
      (some r.2.1, error.recordClose index kind r.1, r.2.2)

/-- Remove a file of a target, if it was created. -/
def removeCreated (index : Nat) (kind : CsvFileKind) (created : Bool) (path : Bytes)
    (error : OutputSetOpenError) (w : FileOperations) : OutputSetOpenError × FileOperations :=
  if created then
    let r := w.removeFile path
    (error.recordRemoval .removeFile (some index) kind r.1, r.2)
  else (error, w)

/-- The body of the loop of `rollback_initialization`. -/
def rollback (index : Nat) (t : OutputTarget) (error : OutputSetOpenError) (w : FileOperations) :
    OutputTarget × OutputSetOpenError × FileOperations :=
  let orderBook := closeSink index .orderBook t.orderBook error w
  let audit := closeSink index .marketData t.audit orderBook.2.1 orderBook.2.2
  let book := removeCreated index .orderBook t.orderBookCreated t.orderBookPath audit.2.1 audit.2.2
  let both := removeCreated index .marketData t.auditCreated t.auditPath book.1 book.2
  ({ t with audit := audit.1, orderBook := orderBook.1, auditCreated := false,
            orderBookCreated := false }, both.1, both.2)

/-- The destructors of the two sinks. -/
def destroy (t : OutputTarget) (w : FileOperations) : FileOperations :=
  let w := (t.orderBook.map fun o => (o.close w).2.2).getD w
  (t.audit.map fun o => (o.close w).2.2).getD w

end OutputTarget

/-! ## The set -/

/-- The set before its files are opened. -/
structure OutputPlan where
  mode : CsvOutputMode
  directory : Bytes
  targets : List OutputTarget

/-- `path / name`. -/
def joinPath (directory name : Bytes) : Bytes :=
  if directory.getLast? = some 47 then directory ++ name else directory ++ 47 :: name

/-- The path lies in the directory. -/
def insideDirectory (directory path : Bytes) : Bool :=
  (joinPath directory []).isPrefixOf path && decide (path ≠ joinPath directory [])

/-- `prepare_output_directory`: an error, or whether the directory was created. -/
def prepareOutputDirectory (directory : Bytes) (w : FileOperations) :
    Except OutputSetOpenError Bool × FileOperations :=
  let failure (native : Int) : OutputSetOpenError :=
    { code := .fileSystemFailure, nativeError := native, path := directory }
  let exists_ := w.system.pathExists directory
  let w := { w with system := exists_.2 }
  match exists_.1 with
  | .error native => (.error (failure native), w)
  | .ok true =>
      let isDirectory := w.system.isDirectory directory
      let w := { w with system := isDirectory.2 }
      match isDirectory.1 with
      | .error native => (.error (failure native), w)
      | .ok false => (.error { code := .invalidOutputDirectory, path := directory }, w)
      | .ok true =>
          let isEmpty := w.system.isEmpty insideDirectory directory
          let w := { w with system := isEmpty.2 }
          match isEmpty.1 with
          | .error native => (.error (failure native), w)
          | .ok false => (.error { code := .outputDirectoryNotEmpty, path := directory }, w)
          | .ok true => (.ok false, w)
  | .ok false =>
      let created := w.system.createDirectory directory
      let w := { w with system := created.2 }
      match created.1 with
      | .error native => (.error (failure native), w)
      | .ok false => (.error { code := .invalidOutputDirectory, path := directory }, w)
      | .ok true => (.ok true, w)

/-- `open_files`: the targets as far as they were opened. -/
def openFiles (mode : CsvOutputMode) :
    Nat → List OutputTarget → FileOperations →
      (Option OutputSetOpenError × List OutputTarget) × FileOperations
  | _, [], w => ((none, []), w)
  | index, t :: rest, w =>
      match t.openFiles mode index w with
      | ((some error, t), w) => ((some error, t :: rest), w)
      | ((none, t), w) =>
          let r := openFiles mode (index + 1) rest w
          ((r.1.1, t :: r.1.2), r.2)

/-- The loop of `rollback_initialization`, the last target first. -/
def rollbackTargets :
    Nat → List OutputTarget → OutputSetOpenError → FileOperations →
      List OutputTarget × OutputSetOpenError × FileOperations
  | _, [], error, w => ([], error, w)
  | index, t :: rest, error, w =>
      let later := rollbackTargets (index + 1) rest error w
      let r := t.rollback index later.2.1 later.2.2
      (r.1 :: later.1, r.2.1, r.2.2)

/-- `rollback_initialization`, with the directory at the end. -/
def rollbackInitialization (directory : Bytes) (directoryCreated : Bool)
    (targets : List OutputTarget) (error : OutputSetOpenError) (w : FileOperations) :
    List OutputTarget × OutputSetOpenError × FileOperations :=
  let r := rollbackTargets 0 targets error w
  if directoryCreated then
    let removed := r.2.2.system.removeDirectory insideDirectory directory
    (r.1, r.2.1.recordRemoval .removeDirectory none .marketData removed.1,
      { r.2.2 with system := removed.2 })
  else r

/-- The set is rolled back and destroyed. -/
def abandonOpening (directory : Bytes) (directoryCreated : Bool) (targets : List OutputTarget)
    (error : OutputSetOpenError) (w : FileOperations) : OutputSetOpenError × FileOperations :=
  let r := rollbackInitialization directory directoryCreated targets error w
  (r.2.1, r.1.foldr OutputTarget.destroy r.2.2)

/-- Prepare the directory, open the files, and undo both after a failure. -/
def OutputPlan.open (plan : OutputPlan) (w : FileOperations) :
    Except OutputSetOpenError (List OutputTarget) × FileOperations :=
  match prepareOutputDirectory plan.directory w with
  | (.error error, w) =>
      let r := abandonOpening plan.directory false plan.targets error w
      (.error r.1, r.2)
  | (.ok directoryCreated, w) =>
      match openFiles plan.mode 0 plan.targets w with
      | ((none, targets), w) => (.ok targets, w)
      | ((some error, targets), w) =>
          let r := abandonOpening plan.directory directoryCreated targets error w
          (.error r.1, r.2)

/-! ## Requests -/

/-- `SymbolSetValidationResult::first_index`, after the symbols in `seen`. -/
def firstIndexFrom (seen : List Bytes) : List Bytes → Option Nat
  | [] => none
  | current :: rest =>
      match deriveInstrumentId current with
      | none => some seen.length
      | some id =>
          match seen.findIdx? fun prior =>
              decide (prior = current) || decide (deriveInstrumentId prior = some id) with
          | some previous => some previous
          | none => firstIndexFrom (seen ++ [current]) rest

def symbolSetFirstIndex (symbols : List Bytes) : Option Nat :=
  if symbols.length = 0 ∨ symbols.length > maxConfiguredSymbols then none
  else firstIndexFrom [] symbols

def invalidSymbols (symbols : List Bytes) : OutputSetOpenError :=
  { code := .invalidInput, symbolError := validateSymbolSet symbols,
    targetIndex := symbolSetFirstIndex symbols }

def venueName : PayloadVenue → Bytes
  | .spot => ascii "spot"
  | .usdm => ascii "usdm"

def isLeapYear (year : Nat) : Bool :=
  decide (year % 4 = 0) && (decide (year % 100 ≠ 0) || decide (year % 400 = 0))

def daysInMonth (year month : Nat) : Nat :=
  if month = 0 ∨ month > 12 then 0
  else if month = 2 ∧ isLeapYear year then 29
  else [31, 28, 31, 30, 31, 30, 31, 31, 30, 31, 30, 31].getD (month - 1) 0

/-- `valid_utc_date`: `YYYY-MM-DD`, a day of the calendar. -/
def validUtcDate (value : Bytes) : Bool :=
  match value with
  | [y₁, y₂, y₃, y₄, dash₁, m₁, m₂, dash₂, d₁, d₂] =>
      let digits := [y₁, y₂, y₃, y₄, m₁, m₂, d₁, d₂]
      let year := ByteText.digitsValue [y₁, y₂, y₃, y₄]
      let month := ByteText.digitsValue [m₁, m₂]
      let day := ByteText.digitsValue [d₁, d₂]
      decide (dash₁ = 45) && decide (dash₂ = 45) && digits.all ByteText.isDigit &&
        decide (year ≠ 0) && decide (day ≠ 0) && decide (day ≤ daysInMonth year month)
  | _ => false

/-- `valid_replay_stem`. -/
def validReplayStem (value : Bytes) : Bool :=
  !value.isEmpty && decide (value ≠ ascii ".") && decide (value ≠ ascii "..") &&
    value.all fun b => !(b = 47 || b = 92 || b = 0 || decide (b.toNat < 32) || b = 127)

/-- The first stem that is not valid or repeats an earlier one. -/
def checkStems (seen : List Bytes) : List Bytes → Option OutputSetOpenError
  | [] => none
  | stem :: rest =>
      if !validReplayStem stem then
        some { code := .invalidReplayStem, targetIndex := some seen.length }
      else if stem ∈ seen then
        some { code := .duplicateOutputPath, targetIndex := some seen.length }
      else checkStems (seen ++ [stem]) rest

structure ReplayOutputSpec where
  normalizedSymbol : Bytes
  inputFileStem : Bytes

/-- The stem of the files of a symbol in live capture. -/
def liveStem (venue : PayloadVenue) (utcDate symbol : Bytes) : Bytes :=
  ascii "market_data_" ++ venueName venue ++ ascii "_" ++ symbol ++ ascii "_" ++ utcDate

def liveTarget (directory : Bytes) (venue : PayloadVenue) (utcDate symbol : Bytes) : OutputTarget :=
  { symbol := symbol
    auditPath := joinPath directory (liveStem venue utcDate symbol ++ ascii ".csv")
    orderBookPath := joinPath directory (liveStem venue utcDate symbol ++ ascii "_orderbook.csv") }

def replayTarget (directory : Bytes) (spec : ReplayOutputSpec) : OutputTarget :=
  { symbol := spec.normalizedSymbol
    orderBookPath := joinPath directory (spec.inputFileStem ++ ascii "_orderbook.csv") }

inductive OutputRequest where
  | live (directory : Bytes) (venue : PayloadVenue) (symbols : List Bytes) (utcDate : Bytes)
  | replay (directory : Bytes) (specifications : List ReplayOutputSpec)

/-- The checks before the first call, and the paths. -/
def OutputRequest.plan : OutputRequest → Except OutputSetOpenError OutputPlan
  | .live directory venue symbols utcDate =>
      if validateSymbolSet symbols ≠ .none then .error (invalidSymbols symbols)
      else if !validUtcDate utcDate then .error { code := .invalidUtcDate }
      else if directory.isEmpty then .error { code := .invalidInput }
      else .ok { mode := .liveCapture, directory := directory,
                 targets := symbols.map (liveTarget directory venue utcDate) }
  | .replay directory specifications =>
      if specifications.length = 0 ∨ specifications.length > maxConfiguredSymbols ∨
          directory.isEmpty then .error { code := .invalidInput }
      else
        let symbols := specifications.map ReplayOutputSpec.normalizedSymbol
        if validateSymbolSet symbols ≠ .none then .error (invalidSymbols symbols)
        else
          match checkStems [] (specifications.map ReplayOutputSpec.inputFileStem) with
          | some error => .error error
          | none => .ok { mode := .replay, directory := directory,
                          targets := specifications.map (replayTarget directory) }

/-- `CsvOutputSet::open_live` and `CsvOutputSet::open_replay`. -/
def OutputRequest.open (request : OutputRequest) (w : FileOperations) :
    Except OutputSetOpenError (List OutputTarget) × FileOperations :=
  match request.plan with
  | .error error => (.error error, w)
  | .ok plan => plan.open w

end MarketCapture
