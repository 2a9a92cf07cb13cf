import MarketCapture.Csv.Acceptance
import MarketCapture.Processor.Agreement

/-! # Replaying a file

`replay_market_data_file`: the records of a file through an event processor in
replay mode. The output accepts every row it is handed; its bytes are collected.
`Replays` is the same on rows, without the reader.
-/

namespace MarketCapture

open Simdjson

inductive ReplayFileErrorCode where
  | inputError
  | emptyInput
  | outputTargetMismatch
  | stateCreationFailed
  | eventProcessFailed
  | payloadRejected
  deriving DecidableEq, Repr

structure ReplayFileResult where
  error : Option ReplayFileErrorCode := none
  inputError : Option ReplayReadError := none
  processError : EventProcessResult := {}
  logicalRecordNumber : Nat := 0
  rowsRead : Nat := 0
  rowsProcessed : Nat := 0
  orderBookRows : Nat := 0
  deriving DecidableEq, Repr

/-- The locals of the record loop, with the order-book bytes written. -/
structure ReplayRun where
  reader : MarketDataReplayReader
  processor : EventProcessor := {}
  state : Option SymbolState := none
  result : ReplayFileResult := {}
  output : Bytes := []

/-- `ReplayRecord::context`. -/
def recordContext (row : MarketDataCsvRow) : EventContext :=
  { timestamp := row.timestamp, venue := row.venue, streamKind := row.streamKind,
    shardId := row.shardId, connectionEpoch := row.connectionEpoch,
    connectionSequence := row.connectionSequence, symbol := row.symbol }

/-- The state of the file: the first record creates it. -/
def replayState (target : Bytes) (row : MarketDataCsvRow) :
    Option SymbolState → Except ReplayFileErrorCode SymbolState
  | some state => .ok state
  | none =>
      if target ≠ row.symbol then .error .outputTargetMismatch
      else
        match SymbolState.create row.venue row.symbol with
        | none => .error .stateCreationFailed
        | some state => .ok state

namespace ReplayRun

/-- One iteration up to the call of `write_batch`: the result of the file, or the run with the
batch to write. -/
def produce (run : ReplayRun) (json : Library) (target : Bytes) :
    Option (ReplayFileResult ⊕ (ReplayRun × EventRowBatch)) :=
  match run.reader.next with
  | (.endOfFile, _) =>
      if run.state.isNone then
        some (.inl { run.result with error := some .emptyInput, logicalRecordNumber := 2 })
      else some (.inl run.result)
  | (.error e, _) =>
      some (.inl { run.result with error := some .inputError, inputError := some e,
                                   logicalRecordNumber := e.logicalRecordNumber })
  | (.record row, reader) =>
      let result := { run.result with rowsRead := run.result.rowsRead + 1,
                                      logicalRecordNumber := reader.logicalRecordNumber }
      match replayState target row run.state with
      | .error e => some (.inl { result with error := some e })
      | .ok state =>
          match run.processor.process json state (recordContext row) row.payloadJson .replay with
          | none => none
          | some (processed, state, batch, processor) =>
              let result := { result with processError := processed }
              if !processed.success then
                some (.inl { result with error := some .eventProcessFailed })
              else if processed.status = .preAuditRejected then
                some (.inl { result with error := some .payloadRejected })
              else
                some (.inr ({ reader := reader, processor := processor, state := some state
                              result := { result with
                                rowsProcessed := result.rowsProcessed + 1
                                orderBookRows := result.orderBookRows +
                                  (if batch.hasOrderBookRow then 1 else 0) }
                              output := run.output ++ batch.orderBookBytes }, batch))

/-- One iteration: the outcome of the file, or the run that goes on. -/
def step (run : ReplayRun) (json : Library) (target : Bytes) :
    Option ((ReplayFileResult × Bytes) ⊕ ReplayRun) :=
  (run.produce json target).map (Sum.map (fun result => (result, run.output)) Prod.fst)

def loop (json : Library) (target : Bytes) : Nat → ReplayRun → Option (ReplayFileResult × Bytes)
  | 0, _ => none
  | fuel + 1, run => do
      match ← run.step json target with
      | .inl outcome => return outcome
      | .inr run => loop json target fuel run

/-- The whole loop: every record takes at least one of the bytes to come. -/
def complete (run : ReplayRun) (json : Library) (target : Bytes) :
    Option (ReplayFileResult × Bytes) :=
  run.loop json target
    (run.reader.buffer.length + (MarketDataReplayReader.scriptBytes run.reader.script).length + 1)

end ReplayRun

def replayMarketDataFile (json : Library) (script : List ReadAnswer) (target : Bytes) :
    Option (ReplayFileResult × Bytes) :=
  match MarketDataReplayReader.openScript script with
  | .error e => some ({ error := some .inputError, inputError := some e,
                        logicalRecordNumber := e.logicalRecordNumber }, [])
  | .ok reader => ({ reader := reader } : ReplayRun).complete json target

/-- The run after a record that was processed. -/
def ReplayRun.advance (run : ReplayRun) (reader : MarketDataReplayReader)
    (processor : EventProcessor) (state : SymbolState) (processed : EventProcessResult)
    (batch : EventRowBatch) : ReplayRun :=
  { reader := reader, processor := processor, state := some state
    result := { run.result with
      processError := processed
      logicalRecordNumber := reader.logicalRecordNumber
      rowsRead := run.result.rowsRead + 1
      rowsProcessed := run.result.rowsProcessed + 1
      orderBookRows := run.result.orderBookRows + (if batch.hasOrderBookRow then 1 else 0) }
    output := run.output ++ batch.orderBookBytes }

/-- A record the processor takes. -/
theorem ReplayRun.step_record {json : Library} (run : ReplayRun) (target : Bytes)
    {row : MarketDataCsvRow} {reader : MarketDataReplayReader} {s s' : SymbolState}
    {result : EventProcessResult} {batch : EventRowBatch} {processor : EventProcessor}
    (hread : run.reader.next = (.record row, reader))
    (hstate : replayState target row run.state = .ok s)
    (hcall : run.processor.process json s (recordContext row) row.payloadJson .replay =
      some (result, s', batch, processor))
    (herror : result.error = .none) (hstatus : result.status ≠ .preAuditRejected) :
    run.step json target = some (.inr (run.advance reader processor s' result batch)) := by
  simp [step, produce, hread, hstate, hcall, EventProcessResult.success, herror, hstatus, advance]

/-! ## Rows without the reader -/

/-- Replaying rows from a state succeeds on each of them and writes these bytes. -/
inductive Replays (json : Library) : SymbolState → List MarketDataCsvRow → Bytes → Prop
  | nil (s : SymbolState) : Replays json s [] []
  | cons {s s' : SymbolState} {row : MarketDataCsvRow} {rows : List MarketDataCsvRow}
      {result : EventProcessResult} {batch : EventRowBatch} {output : Bytes} :
      (∀ p : EventProcessor, ∃ p', p.process json s (recordContext row) row.payloadJson .replay =
        some (result, s', batch, p')) →
      result.error = .none → result.status ≠ .preAuditRejected → Replays json s' rows output →
      Replays json s (row :: rows) (batch.orderBookBytes ++ output)

open MarketDataReplayReader in
/-- The loop over the records of a body, with the state of the symbol or before its first row. -/
theorem ReplayRun.loop_of_replays {json : Library} (run : ReplayRun) (target : Bytes) (fuel : Nat)
    {file : Option FileIdentity} {body output : Bytes} {rows : List MarketDataCsvRow}
    {s : SymbolState} (hparses : Parses file body rows []) (hat : run.reader.At file body)
    (hstate : ∀ row ∈ rows.head?, replayState target row run.state = .ok s)
    (hopened : run.state.isSome = true ∨ rows ≠ []) (hreplays : Replays json s rows output)
    (hfuel : rows.length < fuel) :
    ∃ result, run.loop json target fuel = some (result, run.output ++ output) ∧
      result.error = run.result.error ∧
      result.rowsProcessed = run.result.rowsProcessed + rows.length := by
  induction rows generalizing file body run s output fuel with
  | nil =>
      obtain ⟨fuel, rfl⟩ := Nat.exists_eq_succ_of_ne_zero (by omega : fuel ≠ 0)
      cases hparses
      cases hreplays
      obtain ⟨state, hsome⟩ := Option.isSome_iff_exists.mp (hopened.resolve_right (by simp))
      have hnext := next_of_empty hat
      cases hread : run.reader.next with
      | mk read reader =>
          rw [hread] at hnext
          subst hnext
          refine ⟨run.result, ?_, rfl, rfl⟩
          simp [loop, step, produce, hread, hsome]
  | cons row rows ih =>
      obtain ⟨fuel, rfl⟩ := Nat.exists_eq_succ_of_ne_zero (by omega : fuel ≠ 0)
      cases hparses with
      | cons htext hfollows hrest =>
          cases hreplays with
          | cons hprocess herror hstatus hreplays =>
              rename_i s' result batch output
              obtain ⟨reader, hread, hat'⟩ := next_record hat htext hfollows
              obtain ⟨processor, hcall⟩ := hprocess run.processor
              have hstep := run.step_record target hread (hstate row rfl) hcall herror hstatus
              obtain ⟨last, hloop, hlast, hrows⟩ := ih
                (run.advance reader processor s' result batch) fuel hrest hat' (fun _ _ => rfl)
                (.inl rfl) hreplays (by simpa using hfuel)
              refine ⟨last, ?_, hlast, ?_⟩
              · simp only [loop, hstep, Option.bind_eq_bind, Option.bind_some]
                rw [hloop, advance, List.append_assoc]
              · rw [hrows, List.length_cons]
                simp only [advance]
                omega

theorem length_le_auditText (rows : List MarketDataCsvRow) :
    rows.length ≤ ((rows.map auditText).flatten).length := by
  induction rows with
  | nil => simp
  | cons row rows ih =>
      have hpos : 0 < (auditText row).length := by simp [auditText]
      rw [List.map_cons, List.flatten_cons, List.length_append, List.length_cons]
      omega

section File

variable {json : Library} {symbol : Bytes} {venue : PayloadVenue} {rows : List MarketDataCsvRow}
  {script : List ReadAnswer} {s : SymbolState} {output : Bytes}

/-- An audit file read from its start. -/
theorem ReplayRun.complete_of_replays (target : Bytes) (hsym : isNormalizedSymbol symbol = true)
    (hrows : ∀ row ∈ rows, AuditRow venue symbol row)
    (horder : rows.IsChain MarketDataCsvRow.Before)
    (hscript : MarketDataReplayReader.Supplies script
      (marketDataCsvHeader ++ (rows.map auditText).flatten))
    (state : Option SymbolState)
    (hstate : ∀ row ∈ rows.head?, replayState target row state = .ok s)
    (hopened : state.isSome = true ∨ rows ≠ []) (hreplays : Replays json s rows output) :
    ∃ reader result, MarketDataReplayReader.openScript script = .ok reader ∧
      ({ reader := reader, state := state } : ReplayRun).complete json target =
        some (result, output) ∧ result.error = none ∧ result.rowsProcessed = rows.length := by
  obtain ⟨reader, hopen, hat, -⟩ := MarketDataReplayReader.openScript_header hscript
  have hparses := parses_auditText hsym none rows hrows (fun _ _ => trivial) horder
  have hbytes := congrArg List.length hat.delivers.bytes
  rw [List.length_append] at hbytes
  have hcount := length_le_auditText rows
  obtain ⟨result, hloop, herror, hprocessed⟩ := ReplayRun.loop_of_replays
    { reader := reader, state := state } target
    (reader.buffer.length + (MarketDataReplayReader.scriptBytes reader.script).length + 1)
    hparses hat hstate hopened hreplays (by omega)
  exact ⟨reader, result, hopen, hloop, herror, by simpa using hprocessed⟩

end File

end MarketCapture
