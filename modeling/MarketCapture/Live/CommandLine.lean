import MarketCapture.Lib.Decimal
import MarketCapture.Payload.SymbolIdentity

/-! # The command line

`parse_command_line` over the arguments, the first of which names the program. An
argument that is a null pointer is `none`. The loop reads one option at a time and
its value where it has one; the checks across options come at the end.
-/

namespace MarketCapture

open ByteText

inductive ApplicationMode where
  | help | liveCapture | replay
  deriving DecidableEq, Repr

inductive CommandLineErrorCode where
  | unknownArgument
  | missingValue
  | duplicateOption
  | invalidVenue
  | invalidSymbols
  | invalidDuration
  | missingReplayOutput
  | missingMode
  | missingLiveOption
  | mixedModes
  | tooManyReplayInputs
  | duplicateReplayInput
  | helpWithOtherOptions
  deriving DecidableEq, Repr

structure CommandLineOptions where
  mode : ApplicationMode := .help
  venue : PayloadVenue := .spot
  symbols : List Bytes := []
  replayInputs : List Bytes := []
  outputDirectory : Bytes := ascii "./output"
  durationSeconds : Option Nat := none
  deriving DecidableEq, Repr

structure CommandLineError where
  code : CommandLineErrorCode
  argumentIndex : Nat := 0
  deriving DecidableEq, Repr

namespace CommandLine

/-! ## Values -/

def normalizeByte (byte : UInt8) : Option UInt8 :=
  if 97 ≤ byte.toNat ∧ byte.toNat ≤ 122 then some (byte - 97 + 65)
  else if symbolByte byte then some byte
  else none

def normalizeSymbol (input : Bytes) : Option Bytes :=
  if input.isEmpty ∨ input.length > maxNormalizedSymbolBytes then none
  else input.mapM normalizeByte

/-- The loop of `parse_symbols` over the fields between commas. -/
def symbolFields : List Bytes → List Bytes → Option (List Bytes)
  | [], symbols => some symbols
  | field :: fields, symbols =>
      if symbols.length = maxConfiguredSymbols then none
      else do
        let normalized ← normalizeSymbol field
        symbolFields fields (symbols ++ [normalized])

def parseSymbols (value : Bytes) : Option (List Bytes) := do
  let symbols ← symbolFields (value.splitOn 44) []
  if validateSymbolSet symbols = .none then some symbols else none

def uint64Limit : Nat := 2 ^ 64

/-- Digits only, not zero, within the unsigned 64-bit range. -/
def parsePositiveInteger (value : Bytes) : Option Nat := do
  let number ← parseDigits value
  if number < uint64Limit ∧ number ≠ 0 then some number else none

/-- The whole seconds of the longest steady-clock duration, in nanoseconds of 64 bits. -/
def maximumSteadySeconds : Nat := (2 ^ 63 - 1) / 1000000000

def validLiveDuration (seconds : Nat) : Bool := decide (seconds ≤ maximumSteadySeconds)

/-! ## The loop -/

structure State where
  options : CommandLineOptions := {}
  helpSeen : Bool := false
  venueSeen : Bool := false
  symbolsSeen : Bool := false
  outputSeen : Bool := false
  durationSeen : Bool := false
  deriving DecidableEq, Repr

/-- `option_value`: the value after an option and the index it has. The index of an
error has already moved if there is a value and it is empty. -/
def optionValue (argv : List (Option Bytes)) (index : Nat) : Except CommandLineError (Bytes × Nat) :=
  match argv[index + 1]?.join with
  | none => .error ⟨.missingValue, index⟩
  | some value =>
      if value.isEmpty then .error ⟨.missingValue, index + 1⟩ else .ok (value, index + 1)

/-- An option that is given at most once, with its value. -/
def onceWithValue (argv : List (Option Bytes)) (seen : Bool) (index : Nat) :
    Except CommandLineError (Bytes × Nat) :=
  if seen then .error ⟨.duplicateOption, index⟩ else optionValue argv index

def venueOption (state : State) (value : Bytes) (index : Nat) : Except CommandLineError State :=
  let state := { state with venueSeen := true }
  if value = ascii "spot" then .ok { state with options := { state.options with venue := .spot } }
  else if value = ascii "usdm" then
    .ok { state with options := { state.options with venue := .usdm } }
  else .error ⟨.invalidVenue, index⟩

def symbolsOption (state : State) (value : Bytes) (index : Nat) : Except CommandLineError State :=
  match parseSymbols value with
  | none => .error ⟨.invalidSymbols, index⟩
  | some symbols =>
      .ok { state with symbolsSeen := true, options := { state.options with symbols := symbols } }

def durationOption (state : State) (value : Bytes) (index : Nat) : Except CommandLineError State :=
  match parsePositiveInteger value with
  | none => .error ⟨.invalidDuration, index⟩
  | some duration =>
      if !validLiveDuration duration then .error ⟨.invalidDuration, index⟩
      else .ok { state with
        durationSeen := true, options := { state.options with durationSeconds := some duration } }

def outputOption (state : State) (value : Bytes) : Except CommandLineError State :=
  .ok { state with outputSeen := true, options := { state.options with outputDirectory := value } }

def replayOption (state : State) (value : Bytes) (index : Nat) : Except CommandLineError State :=
  if state.options.replayInputs.length = maxConfiguredSymbols then
    .error ⟨.tooManyReplayInputs, index⟩
  else if value ∈ state.options.replayInputs then .error ⟨.duplicateReplayInput, index⟩
  else .ok { state with options := { state.options with
    replayInputs := state.options.replayInputs ++ [value] } }

/-- The body of the loop at an index: the state and the last index read. -/
def readArgument (argv : List (Option Bytes)) (state : State) (index : Nat) :
    Except CommandLineError (State × Nat) :=
  match argv[index]?.join with
  | none => .error ⟨.unknownArgument, index⟩
  | some argument =>
      if argument = ascii "--help" then
        if state.helpSeen then .error ⟨.duplicateOption, index⟩
        else .ok ({ state with helpSeen := true }, index)
      else if argument = ascii "--venue" then do
        let (value, index) ← onceWithValue argv state.venueSeen index
        return (← venueOption state value index, index)
      else if argument = ascii "--symbols" then do
        let (value, index) ← onceWithValue argv state.symbolsSeen index
        return (← symbolsOption state value index, index)
      else if argument = ascii "--duration" then do
        let (value, index) ← onceWithValue argv state.durationSeen index
        return (← durationOption state value index, index)
      else if argument = ascii "--output-dir" then do
        let (value, index) ← onceWithValue argv state.outputSeen index
        return (← outputOption state value, index)
      else if argument = ascii "--replay" then do
        let (value, index) ← optionValue argv index
        return (← replayOption state value index, index)
      else .error ⟨.unknownArgument, index⟩

/-- `for (index = 1; index < argc; ++index)`, with a bound on the iterations left. -/
def readArguments (argv : List (Option Bytes)) : Nat → Nat → State → Except CommandLineError State
  | 0, _, state => .ok state
  | remaining + 1, index, state =>
      if argv.length ≤ index then .ok state
      else do
        let (state, last) ← readArgument argv state index
        readArguments argv remaining (last + 1) state

/-- The checks across options. -/
def finish (argc : Nat) (state : State) : Except CommandLineError CommandLineOptions :=
  if state.helpSeen then
    if argc ≠ 2 then .error ⟨.helpWithOtherOptions, 0⟩
    else .ok { state.options with mode := .help }
  else if state.options.replayInputs ≠ [] then
    if state.venueSeen || state.symbolsSeen || state.durationSeen then .error ⟨.mixedModes, 0⟩
    else if !state.outputSeen then .error ⟨.missingReplayOutput, 0⟩
    else .ok { state.options with mode := .replay }
  else if !state.venueSeen && !state.symbolsSeen && !state.durationSeen then
    .error ⟨.missingMode, 0⟩
  else if !state.venueSeen || !state.symbolsSeen then .error ⟨.missingLiveOption, 0⟩
  else .ok { state.options with mode := .liveCapture }

end CommandLine

open CommandLine in
def parseCommandLine (argv : List (Option Bytes)) : Except CommandLineError CommandLineOptions :=
  if argv.length ≤ 1 then .error ⟨.missingMode, 0⟩
  else do
    let state ← readArguments argv argv.length 1 {}
    finish argv.length state

end MarketCapture
