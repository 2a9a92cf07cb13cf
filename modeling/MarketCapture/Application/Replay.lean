import MarketCapture.Live.CommandLine
import MarketCapture.Processor.ReplayFile
import MarketCapture.Writer.Opening

/-! # Replaying from the command line

`run_replay`: the inputs are inspected, the output set is opened, and each file is replayed into
its target. The first file that fails ends the loop, and the set is closed in any case.
-/

namespace MarketCapture

open Simdjson

def exitSuccess : Nat := 0
def exitCommandLine : Nat := 2
def exitInput : Nat := 3
def exitOutput : Nat := 4
def exitProcessing : Nat := 5
def exitInternal : Nat := 6

/-! ## Paths -/

/-- What the operating system answers: about the paths, to the reads of each file when it is
inspected and when it is replayed, and to the calls on the output set. -/
structure ReplaySurroundings where
  regular : Bytes → Bool
  canonical : Bytes → Except Int Bytes
  inspected : Bytes → Except Int (List ReadAnswer)
  replayed : Bytes → Except Int (List ReadAnswer)
  operations : FileOperations
  /-- The answers to the writes of a record, by file and by record. -/
  writes : Nat → Nat → FileAnswers := fun _ _ => {}
  closing : FileAnswers := {}

structure ReplayInputMetadata where
  path : Bytes
  normalizedPath : Bytes
  normalizedParent : Bytes
  symbol : Bytes
  stem : Bytes

/-- The errors that end the program before a file is replayed. -/
inductive ReplayRefusal where
  | inputNotRegular (path : Bytes)
  | pathResolutionFailed (path : Bytes) (native : Int)
  | invalidInputStem (path : Bytes)
  | inputOpenFailed (path : Bytes) (native : Int)
  | inputRejected (path : Bytes) (error : ReplayReadError)
  | emptyInput (path : Bytes)
  | duplicateReplayInput (path : Bytes)
  | duplicateReplaySymbol (path symbol : Bytes)
  | duplicateOutputStem (path stem : Bytes)
  | outputResolutionFailed (path : Bytes) (native : Int)
  | outputMatchesInputDirectory (path input : Bytes)
  | outputOpenFailed (error : OutputSetOpenError)

def ReplayRefusal.exitCode : ReplayRefusal → Nat
  | .duplicateReplayInput _ => exitCommandLine
  | .outputResolutionFailed .. | .outputMatchesInputDirectory .. | .outputOpenFailed _ => exitOutput
  | _ => exitInput

/-- `ReplayFileResult` where the rows go to an output set. The code of a file whose last batch was
refused is `output_write_failed`: it has an `outputError` and no other one. -/
structure ReplayFileOutcome extends ReplayFileResult where
  openError : Option Int := none
  outputError : Option OutputSetWriteError := none

def ReplayFileOutcome.success (o : ReplayFileOutcome) : Bool :=
  o.error.isNone && o.outputError.isNone

/-- The bytes that the reads may still deliver. -/
def MarketDataReplayReader.remaining (r : MarketDataReplayReader) : Nat :=
  r.buffer.length + (scriptBytes r.script).length

/-- The record loop of `replay_market_data_file` with the output set. -/
def replayLoop (json : Library) (target : Bytes) (index : Nat) (writes : Nat → FileAnswers) :
    Nat → ReplayRun → CsvOutputSet → Option (ReplayFileOutcome × CsvOutputSet)
  | 0, _, _ => none
  | fuel + 1, run, set =>
      match run.produce json target with
      | none => none
      | some (.inl result) => some ({ result with }, set)
      | some (.inr (next, batch)) =>
          match set.writeBatch (writes run.result.rowsProcessed) (some index) batch with
          | (some error, set) => some ({ next.result with outputError := some error }, set)
          | (none, set) => replayLoop json target index writes fuel next set

/-- `replay_market_data_file`; `target` is the symbol of the target. -/
def replayFile (json : Library) (env : ReplaySurroundings) (index : Nat) (path target : Bytes)
    (set : CsvOutputSet) : Option (ReplayFileOutcome × CsvOutputSet) :=
  match env.replayed path with
  | .error native =>
      some ({ error := some .inputError, openError := some native, logicalRecordNumber := 1 }, set)
  | .ok script =>
      match MarketDataReplayReader.openScript script with
      | .error e =>
          some ({ error := some .inputError, inputError := some e,
                  logicalRecordNumber := e.logicalRecordNumber }, set)
      | .ok reader =>
          replayLoop json target index (env.writes index) (reader.remaining + 1)
            { reader := reader } set

/-! ## All files -/

/-- The totals of the loop over the files, with the file that ended it. -/
structure ReplayReport where
  rowsRead : Nat := 0
  rowsProcessed : Nat := 0
  bookRows : Nat := 0
  failure : Option (Bytes × ReplayFileOutcome) := none

def ReplayFileOutcome.exitCode (o : ReplayFileOutcome) : Nat :=
  if o.error = some .inputError ∨ o.error = some .emptyInput then exitInput else exitProcessing

def ReplayReport.count (report : ReplayReport) (o : ReplayFileOutcome) : ReplayReport :=
  { report with rowsRead := report.rowsRead + o.rowsRead
                rowsProcessed := report.rowsProcessed + o.rowsProcessed
                bookRows := report.bookRows + o.orderBookRows }

/-- The loop over the inputs, from an index on. `symbols` are those of the targets. -/
def replayFiles (json : Library) (env : ReplaySurroundings) (symbols : List Bytes) :
    Nat → List Bytes → ReplayReport → CsvOutputSet → Option (ReplayReport × CsvOutputSet)
  | _, [], report, set => some (report, set)
  | index, path :: rest, report, set =>
      match replayFile json env index path ((symbols[index]?).getD []) set with
      | none => none
      | some (o, set) =>
          if !o.success then some ({ report.count o with failure := some (path, o) }, set)
          else replayFiles json env symbols (index + 1) rest (report.count o) set

/-- The output set over the sinks that were opened. -/
def CsvOutputSet.ofTargets (mode : CsvOutputMode) (targets : List OutputTarget) : CsvOutputSet :=
  { mode := mode
    targets := targets.map fun t =>
      { audit := t.audit.map OpenSink.sink
        orderBook := (t.orderBook.map OpenSink.sink).getD { file := [], isOpen := false } } }

/-- How `run_replay` ends. -/
inductive ReplayEnd where
  | refused (refusal : ReplayRefusal)
  | ran (report : ReplayReport) (closeError : Option OutputSetWriteError) (output : CsvOutputSet)

def ReplayEnd.exitCode : ReplayEnd → Nat
  | .refused refusal => refusal.exitCode
  | .ran report closeError _ =>
      if closeError.isSome then exitOutput
      else
        match report.failure with
        | some (_, o) => o.exitCode
        | none => exitSuccess

end MarketCapture
