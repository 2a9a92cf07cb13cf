import MarketCapture.Application.Replay
import MarketCapture.Processor.Outcome
import MarketCapture.Writer.SinkRuns

/-! # The files of a replay

Every file of the set against the replay of its input alone. A target that was opened is a sink
that took its header; each record of its input appends at most one row to it, and what its file
holds after any calls is known from the calls.
-/

namespace MarketCapture

open Simdjson

/-! ## Every record takes bytes -/

namespace MarketDataReplayReader

theorem refill_remaining {script script' : List ReadAnswer} {value : UInt8} {buffer : Bytes}
    (h : refill script = (.byte value, script', buffer)) :
    buffer.length + (scriptBytes script').length < (scriptBytes script).length := by
  induction script with
  | nil => cases h
  | cons answer script ih =>
      cases answer with
      | interrupted => exact ih h
      | failed native => cases h
      | bytes chunk =>
          cases chunk with
          | nil => cases h
          | cons first rest =>
              obtain ⟨-, rfl, rfl⟩ : first = value ∧ script = script' ∧ rest = buffer := by
                simpa [refill] using h
              simp [scriptBytes]

theorem readByte_remaining {r r' : MarketDataReplayReader} {value : UInt8}
    (h : r.readByte = (.byte value, r')) : r'.remaining < r.remaining := by
  unfold readByte at h
  split at h
  · next hbuffer =>
      obtain ⟨-, rfl⟩ := Prod.mk.inj h
      simp [remaining, hbuffer]
  · next hbuffer =>
      obtain ⟨hvalue, rfl⟩ := Prod.mk.inj h
      have hrefill := refill_remaining (Prod.ext hvalue rfl)
      simpa [remaining, hbuffer] using hrefill

theorem recordLoop_remaining {fuel : Nat} {state : CsvFrameState} {collected logicalRecord : Bytes}
    {r r' : MarketDataReplayReader}
    (h : recordLoop fuel state collected r = (.record logicalRecord, r')) :
    r'.remaining < r.remaining := by
  induction fuel generalizing state collected r with
  | zero => cases h
  | succ fuel ih =>
      unfold recordLoop at h
      cases hread : r.readByte with
      | mk answer next =>
          rw [hread] at h
          cases answer with
          | error native => cases h
          | endOfFile =>
              dsimp only at h
              split at h <;> cases h
          | byte value =>
              have hless := readByte_remaining hread
              dsimp only at h
              split at h
              · cases h
              · cases hstep : frameStep state value with
                | next state' =>
                    rw [hstep] at h
                    exact (ih h).trans hless
                | complete =>
                    rw [hstep] at h
                    obtain ⟨-, rfl⟩ := Prod.mk.inj h
                    exact hless
                | invalid =>
                    rw [hstep] at h
                    cases h

theorem acceptRecord_remaining (r : MarketDataReplayReader) (logicalRecord : Bytes) :
    (r.acceptRecord logicalRecord).2.remaining = r.remaining := by
  unfold acceptRecord latch
  repeat' split
  all_goals rfl

theorem next_remaining {r r' : MarketDataReplayReader} {row : MarketDataCsvRow}
    (h : r.next = (.record row, r')) : r'.remaining < r.remaining := by
  unfold next at h
  split at h
  · cases h
  · split at h
    · cases h
    · cases hread : r.readLogicalRecord with
      | mk answer next =>
          rw [hread] at h
          cases answer with
          | endOfFile => cases h
          | error e =>
              dsimp only [latch] at h
              split at h <;> cases h
          | record logicalRecord =>
              have hless := recordLoop_remaining hread
              have hsame := acceptRecord_remaining next logicalRecord
              rw [show next.acceptRecord logicalRecord = (.record row, r') from h] at hsame
              exact hsame ▸ hless

end MarketDataReplayReader

/-! ## The replay of a file alone -/

namespace ReplayRun

/-- A run that goes on has processed every row that it read. -/
structure Steady (run : ReplayRun) : Prop where
  state : ∀ s, run.state = some s → s.Ok
  rows : run.result.rowsRead = run.result.rowsProcessed
  error : run.result.error = none

/-- What one iteration adds to a run that goes on. -/
structure Adds (run next : ReplayRun) (batch : EventRowBatch) : Prop where
  output : next.output = run.output ++ batch.orderBookBytes
  orderBookRows : next.result.orderBookRows =
    run.result.orderBookRows + (if batch.hasOrderBookRow then 1 else 0)
  remaining : next.reader.remaining < run.reader.remaining
  steady : next.Steady

theorem replayState_ok {target : Bytes} {row : MarketDataCsvRow} {state : Option SymbolState}
    {s : SymbolState} (hstate : ∀ s, state = some s → s.Ok)
    (h : replayState target row state = .ok s) : s.Ok := by
  unfold replayState at h
  split at h
  · exact hstate s (by rw [← Except.ok.inj h])
  · split at h
    · cases h
    · split at h
      · cases h
      · next hcreate =>
          obtain rfl := Except.ok.inj h
          exact (SymbolState.create_ok hcreate).1

/-- An iteration ends the file or goes on to a steady run. -/
theorem produce_outcome {run : ReplayRun} (h : run.Steady) (json : Library) (target : Bytes) :
    (∃ result, run.produce json target = some (.inl result) ∧
      result.orderBookRows = run.result.orderBookRows ∧
      (result.error = none → result.rowsRead = result.rowsProcessed)) ∨
    ∃ next batch, run.produce json target = some (.inr (next, batch)) ∧ run.Adds next batch := by
  unfold produce
  cases hread : run.reader.next with
  | mk read reader =>
      cases read with
      | endOfFile =>
          left
          dsimp only
          split
          · exact ⟨_, rfl, rfl, fun herror => by cases herror⟩
          · exact ⟨_, rfl, rfl, fun _ => h.rows⟩
      | error e => exact .inl ⟨_, rfl, rfl, fun herror => by cases herror⟩
      | record row =>
          dsimp only
          cases hstate : replayState target row run.state with
          | error e => exact .inl ⟨_, rfl, rfl, fun herror => by cases herror⟩
          | ok state =>
              have hok := replayState_ok h.state hstate
              obtain ⟨processed, state', batch, processor, hcall, houtcome, -⟩ :=
                run.processor.process_outcome json hok (recordContext row) row.payloadJson .replay
              simp only [hcall]
              split
              · exact .inl ⟨_, rfl, rfl, fun herror => by cases herror⟩
              · split
                · exact .inl ⟨_, rfl, rfl, fun herror => by cases herror⟩
                · refine .inr ⟨_, batch, rfl, rfl, rfl,
                    MarketDataReplayReader.next_remaining hread, ?_, ?_, h.error⟩
                  · intro s hs
                    obtain rfl := Option.some.inj hs
                    exact (houtcome.ok hok).1
                  · exact congrArg (· + 1) h.rows

/-- The loop over the records returns, and the output only grows. -/
theorem loop_returns {run : ReplayRun} (h : run.Steady) (json : Library) (target : Bytes)
    {fuel : Nat} (hfuel : run.reader.remaining < fuel) :
    ∃ result more, run.loop json target fuel = some (result, run.output ++ more) := by
  induction fuel generalizing run with
  | zero => omega
  | succ fuel ih =>
      rw [loop, step]
      rcases produce_outcome h json target with ⟨result, hproduce, -⟩ | ⟨next, batch, hproduce, hadds⟩
      · exact ⟨result, [], by simp [hproduce]⟩
      · obtain ⟨result, more, hloop⟩ := ih hadds.steady (by have := hadds.remaining; omega)
        refine ⟨result, batch.orderBookBytes ++ more, ?_⟩
        simp [hproduce, hloop, hadds.output]

end ReplayRun

/-! ## The sinks that were opened -/

namespace FileOperations

open BufferedCsvFileSink

end FileOperations

/-- A target of the replay whose order-book file was opened. -/
structure OutputTarget.Opened (planned opened : OutputTarget) : Prop where
  symbol : opened.symbol = planned.symbol
  audit : opened.audit = planned.audit
  orderBook : ∃ o, opened.orderBook = some o ∧ (BufferedCsvFileSink.runs .orderBook).init o.sink

open BufferedCsvFileSink SinkLabel TargetFiles

/-- A target of a replay after these calls on its file. -/
structure TargetFiles.After (labels : List SinkLabel) (t : TargetFiles) : Prop where
  audit : t.audit = none
  ran : Ran orderBookCsvHeader labels t.orderBook

/-- A set that takes rows for a replay, with these calls made on the file of a target. -/
structure CsvOutputSet.Taking (set : CsvOutputSet) (index : Nat) (t : TargetFiles)
    (labels : List SinkLabel) : Prop where
  mode : set.mode = .replay
  isOpen : set.closed = false
  clean : set.firstError = none
  target : set.targets[index]? = some t
  after : t.After labels
  results : ∀ l ∈ labels, l.result = none

def EventRowBatch.orderBookRecords (batch : EventRowBatch) : List Bytes :=
  if batch.hasOrderBookRow then [batch.orderBookRow] else []

theorem EventRowBatch.orderBookRecords_flatten (batch : EventRowBatch) :
    batch.orderBookRecords.flatten = batch.orderBookBytes := by
  unfold orderBookRecords orderBookBytes
  split <;> simp

theorem EventRowBatch.orderBookRecords_length (batch : EventRowBatch) :
    batch.orderBookRecords.length = if batch.hasOrderBookRow then 1 else 0 := by
  unfold orderBookRecords
  split <;> rfl

/-- The set after a batch for a target: the row is taken, or the set fails and the file ends in at
most a part of it. -/
structure CsvOutputSet.Took (set : CsvOutputSet) (index : Nat) (labels : List SinkLabel)
    (batch : EventRowBatch) (r : Option OutputSetWriteError × CsvOutputSet) : Prop where
  mode : r.2.mode = set.mode
  isOpen : r.2.closed = set.closed
  error : r.1 = r.2.firstError
  done : ∃ t labels', r.2.targets = set.targets.set index t ∧ t.After labels' ∧
    (r.1 = none → (∀ l ∈ labels', l.result = none) ∧
      accepted labels' = accepted labels ++ batch.orderBookRecords) ∧
    (r.1 ≠ none → accepted labels' = accepted labels ∧ torn labels' <+: batch.orderBookBytes)

theorem set_self {α : Type} {xs : List α} {i : Nat} {a : α} (h : xs[i]? = some a) :
    xs.set i a = xs := by
  obtain ⟨hi, rfl⟩ := List.getElem?_eq_some_iff.mp h
  exact List.set_getElem_self hi

theorem torn_clean {labels : List SinkLabel} (h : ∀ l ∈ labels, l.result = none) :
    torn labels = [] := by
  have hnone : labels.find? (fun l => l.result.isSome) = none := by
    rw [List.find?_eq_none]
    intro l hl
    simp [h l hl]
  rw [torn, hnone]
  rfl

/-- The only file of a target of a replay takes the row of a batch. -/
theorem TargetFiles.append_unaudited {t : TargetFiles} (haudit : t.audit = none)
    (script : List WriteAnswer) (index : Nat) (batch : EventRowBatch) :
    (t.append script index batch).1 =
      if batch.hasOrderBookRow then
        ((appendRecord script t.orderBook batch.orderBookRow).1.1.map (fileFailure index .orderBook),
          { t with orderBook := (appendRecord script t.orderBook batch.orderBookRow).1.2 })
      else (none, t) := by
  have hnone : t.appendAudit script batch = ((none, t), script) := by
    simp [appendAudit, haudit]
  rw [append, hnone]
  dsimp only [appendOrderBook]
  by_cases hrow : batch.hasOrderBookRow = true
  · simp only [hrow, if_true]
    cases (appendRecord script t.orderBook batch.orderBookRow).1.1 <;> rfl
  · simp only [hrow, if_false, Bool.false_eq_true]

/-- The calls on the file of a target after a batch. -/
theorem TargetFiles.After.append {t : TargetFiles} {labels : List SinkLabel} (h : t.After labels)
    (hresults : ∀ l ∈ labels, l.result = none) (script : List WriteAnswer) (index : Nat)
    (batch : EventRowBatch) :
    ∃ labels', (t.append script index batch).1.2.After labels' ∧
      ((t.append script index batch).1.1 = none → (∀ l ∈ labels', l.result = none) ∧
        accepted labels' = accepted labels ++ batch.orderBookRecords) ∧
      ((t.append script index batch).1.1 ≠ none →
        accepted labels' = accepted labels ∧ torn labels' <+: batch.orderBookBytes) := by
  rw [append_unaudited h.audit]
  by_cases hrow : batch.hasOrderBookRow = true
  · rw [if_pos hrow, EventRowBatch.orderBookRecords, EventRowBatch.orderBookBytes, if_pos hrow,
      if_pos hrow]
    have hran : Ran (headerFor .orderBook) labels t.orderBook := h.ran
    have hstep := hran.step
      (show (runs .orderBook).step t.orderBook (.appended batch.orderBookRow
        (appendRecord script t.orderBook batch.orderBookRow).1.1) _ from ⟨script, _, rfl⟩)
    refine ⟨_, ⟨h.audit, hstep⟩, ?_⟩
    cases (appendRecord script t.orderBook batch.orderBookRow).1.1 with
    | none =>
        refine ⟨fun _ => ⟨?_, ?_⟩, fun hfailed => absurd rfl hfailed⟩
        · intro l hl
          rcases List.mem_append.mp hl with hl | hl
          · exact hresults l hl
          · rw [List.mem_singleton.mp hl]
            rfl
        · rw [accepted_concat]
          rfl
    | some error =>
        refine ⟨fun hnone => (by cases hnone), fun _ => ⟨?_, ?_⟩⟩
        · rw [accepted_concat]
          exact List.append_nil _
        · rw [torn_concat_clean hresults, large]
          split
          · exact List.prefix_rfl
          · exact List.nil_prefix
  · rw [if_neg hrow, EventRowBatch.orderBookRecords, if_neg hrow, List.append_nil]
    exact ⟨labels, h, fun _ => ⟨hresults, rfl⟩, fun hfailed => absurd rfl hfailed⟩

namespace CsvOutputSet

variable {set : CsvOutputSet} {index : Nat} {t : TargetFiles} {labels : List SinkLabel}

/-- A batch that no file sees. -/
theorem Taking.refused (h : set.Taking index t labels) (batch : EventRowBatch)
    (error : OutputSetWriteError) : set.Took index labels batch (set.latchError error) := by
  have herror : set.latchError error = (some error, { set with firstError := some error }) := by
    simp [latchError, h.clean]
  rw [herror]
  refine ⟨rfl, rfl, rfl, t, labels, (set_self h.target).symm, h.after, fun hnone => ?_, fun _ => ?_⟩
  · cases hnone
  · rw [torn_clean h.results]
    exact ⟨rfl, List.nil_prefix⟩

theorem Taking.writeBatch (h : set.Taking index t labels) (answers : FileAnswers)
    (batch : EventRowBatch) :
    set.Took index labels batch (set.writeBatch answers (some index) batch) := by
  have hlookup : (some index).bind (fun index => (set.targets[index]?).map fun t => (index, t)) =
      some (index, t) := by simp [h.target]
  unfold CsvOutputSet.writeBatch
  simp only [h.clean, h.isOpen, hlookup, Bool.false_eq_true, ↓reduceIte]
  split
  · exact h.refused batch _
  · obtain ⟨labels', hafter, hdone, hfailed⟩ := h.after.append h.results answers.writes index batch
    cases happend : (t.append answers.writes index batch).1.1 with
    | none =>
        rw [happend] at hdone hfailed
        exact ⟨rfl, h.isOpen.symm, rfl, _, labels', rfl, hafter, hdone, hfailed⟩
    | some error =>
        rw [happend] at hdone hfailed
        simp only [latchError]
        exact ⟨rfl, h.isOpen.symm, rfl, _, labels', rfl, hafter, fun hnone => (by cases hnone),
          fun _ => hfailed (Option.some_ne_none _)⟩

/-- The set takes rows for the target as long as it has no error. -/
theorem Took.taking (hset : set.Taking index t labels) {batch : EventRowBatch}
    {r : Option OutputSetWriteError × CsvOutputSet} (h : set.Took index labels batch r)
    (hnone : r.1 = none) : ∃ t' labels', r.2.Taking index t' labels' ∧
      r.2.targets = set.targets.set index t' ∧
      accepted labels' = accepted labels ++ batch.orderBookRecords := by
  obtain ⟨t', labels', htargets, hafter, hdone, -⟩ := h.done
  obtain ⟨hresults, haccepted⟩ := hdone hnone
  have hindex := (List.getElem?_eq_some_iff.mp hset.target).1
  refine ⟨t', labels', ⟨h.mode.trans hset.mode, h.isOpen.trans hset.isOpen,
    h.error.symm.trans hnone, ?_, hafter, hresults⟩, htargets, haccepted⟩
  rw [htargets, List.getElem?_set_self hindex]

end CsvOutputSet

/-! ## One file -/

/-- How a file ended: as its replay alone, with every row taken, or because a write failed. -/
structure ReplayFileOutcome.Filled (alone : ReplayFileResult) (output : Bytes)
    (set : CsvOutputSet) (index : Nat) (o : ReplayFileOutcome) (after : CsvOutputSet) : Prop where
  mode : after.mode = set.mode
  isOpen : after.closed = set.closed
  error : o.outputError = after.firstError
  done : ∃ t labels, after.targets = set.targets.set index t ∧ t.After labels ∧
    (accepted labels).length ≤ o.orderBookRows ∧
    (accepted labels).flatten ++ torn labels <+: output ∧
    (o.outputError = none → o.toReplayFileResult = alone ∧ (∀ l ∈ labels, l.result = none) ∧
      (accepted labels).flatten = output ∧ (accepted labels).length = o.orderBookRows ∧
      (o.error = none → o.rowsRead = o.rowsProcessed)) ∧
    (o.outputError ≠ none → o.error = none)

theorem replayLoop_filled {json : Library} {target : Bytes} {index : Nat}
    {writes : Nat → FileAnswers} {fuel : Nat} {run : ReplayRun} (hrun : run.Steady)
    (hfuel : run.reader.remaining < fuel) {set : CsvOutputSet} {t : TargetFiles}
    {labels : List SinkLabel} (hset : set.Taking index t labels)
    (houtput : (accepted labels).flatten = run.output)
    (hrows : (accepted labels).length = run.result.orderBookRows) {alone : ReplayFileResult}
    {output : Bytes} (halone : run.loop json target fuel = some (alone, output)) :
    ∃ o after, replayLoop json target index writes fuel run set = some (o, after) ∧
      o.Filled alone output set index after := by
  induction fuel generalizing run set t labels with
  | zero => omega
  | succ fuel ih =>
      rw [ReplayRun.loop, ReplayRun.step] at halone
      rw [replayLoop]
      rcases ReplayRun.produce_outcome hrun json target with
        ⟨result, hproduce, hcount, hread⟩ | ⟨next, batch, hproduce, hadds⟩
      · obtain ⟨rfl, rfl⟩ : result = alone ∧ run.output = output := by
          simpa [hproduce] using halone
        simp only [hproduce]
        refine ⟨_, _, rfl, rfl, rfl, hset.clean.symm, t, labels, (set_self hset.target).symm,
          hset.after, (hrows.trans hcount.symm).le, ?_, fun _ => ⟨rfl, hset.results, houtput,
          hrows.trans hcount.symm, hread⟩, fun hfailed => absurd rfl hfailed⟩
        rw [torn_clean hset.results, houtput, List.append_nil]
      · have halone' : next.loop json target fuel = some (alone, output) := by
          simpa [hproduce] using halone
        have hless : next.reader.remaining < fuel := by
          have := hadds.remaining
          omega
        have htook := hset.writeBatch (writes run.result.rowsProcessed) batch
        cases hwrite : set.writeBatch (writes run.result.rowsProcessed) (some index) batch with
        | mk error after =>
            rw [hwrite] at htook
            simp only [hproduce, hwrite]
            cases error with
            | none =>
                obtain ⟨t', labels', htaking, htargets, haccepted⟩ := htook.taking hset rfl
                obtain ⟨o, last, hloop, hfilled⟩ := ih hadds.steady hless htaking
                  (by rw [haccepted, List.flatten_append, houtput, batch.orderBookRecords_flatten,
                    hadds.output])
                  (by rw [haccepted, List.length_append, hrows, batch.orderBookRecords_length,
                    hadds.orderBookRows])
                  halone'
                obtain ⟨t'', labels'', hlast, hrest⟩ := hfilled.done
                refine ⟨o, last, hloop, hfilled.mode.trans htook.mode,
                  hfilled.isOpen.trans htook.isOpen, hfilled.error, t'', labels'', ?_, hrest⟩
                rw [hlast, htargets, List.set_set]
            | some error =>
                obtain ⟨t', labels', htargets, hafter, -, hfailed⟩ := htook.done
                obtain ⟨haccepted, htorn⟩ := hfailed (Option.some_ne_none _)
                obtain ⟨final, more, hreturns⟩ :=
                  ReplayRun.loop_returns hadds.steady json target hless
                obtain ⟨-, rfl⟩ : final = alone ∧ next.output ++ more = output := by
                  simpa [hreturns] using halone'
                refine ⟨_, _, rfl, htook.mode, htook.isOpen, htook.error, t', labels', htargets,
                  hafter, ?_, ?_, fun hnone => (by cases hnone), fun _ => hadds.steady.error⟩
                · rw [haccepted, hrows]
                  exact hadds.orderBookRows ▸ Nat.le_add_right _ _
                · rw [haccepted, houtput, hadds.output, List.append_assoc]
                  exact List.prefix_append_right_inj _ |>.mpr (htorn.trans (List.prefix_append _ _))

/-- The replay of an input without an output set. -/
def replayAlone (json : Library) (env : ReplaySurroundings) (path symbol : Bytes) :
    Option (ReplayFileResult × Bytes) :=
  match env.replayed path with
  | .error _ => some ({ error := some .inputError, logicalRecordNumber := 1 }, [])
  | .ok script => replayMarketDataFile json script symbol

section Files

variable {json : Library} {env : ReplaySurroundings} {set : CsvOutputSet} {t : TargetFiles}

/-- A file that ends before its first record. -/
theorem CsvOutputSet.Taking.unopened {index : Nat} (hset : set.Taking index t [])
    {o : ReplayFileOutcome} {alone : ReplayFileResult} (hsame : o.toReplayFileResult = alone)
    (hrows : o.orderBookRows = 0) (houtput : o.outputError = none) (herror : o.error ≠ none) :
    o.Filled alone [] set index set := by
  refine ⟨rfl, rfl, houtput.trans hset.clean.symm, t, [], (set_self hset.target).symm, hset.after,
    Nat.zero_le _, List.prefix_rfl, fun _ => ⟨hsame, hset.results, rfl, hrows.symm, ?_⟩, ?_⟩
  · exact fun hnone => absurd hnone herror
  · exact fun hfailed => absurd houtput hfailed

theorem steady_start (reader : MarketDataReplayReader) : ({ reader := reader } : ReplayRun).Steady :=
  ⟨fun s hs => (by cases hs), rfl, rfl⟩

theorem replayAlone_returns (json : Library) (env : ReplaySurroundings) (path symbol : Bytes) :
    ∃ alone output, replayAlone json env path symbol = some (alone, output) := by
  unfold replayAlone
  cases env.replayed path with
  | error native => exact ⟨_, _, rfl⟩
  | ok script =>
      dsimp only
      unfold replayMarketDataFile
      cases MarketDataReplayReader.openScript script with
      | error e => exact ⟨_, _, rfl⟩
      | ok reader =>
          obtain ⟨alone, more, hloop⟩ :=
            ReplayRun.loop_returns (steady_start reader) json symbol (Nat.lt_succ_self _)
          exact ⟨alone, _, hloop⟩

/-- A file replayed into a fresh target. -/
theorem replayFile_filled (json : Library) (env : ReplaySurroundings) {index : Nat}
    (hset : set.Taking index t []) (path symbol : Bytes) :
    ∃ alone output o after, replayAlone json env path symbol = some (alone, output) ∧
      replayFile json env index path symbol set = some (o, after) ∧
      o.Filled alone output set index after := by
  unfold replayAlone replayFile
  cases env.replayed path with
  | error native =>
      exact ⟨_, _, _, _, rfl, rfl, hset.unopened rfl rfl rfl (Option.some_ne_none _)⟩
  | ok script =>
      dsimp only
      unfold replayMarketDataFile
      cases MarketDataReplayReader.openScript script with
      | error e => exact ⟨_, _, _, _, rfl, rfl, hset.unopened rfl rfl rfl (Option.some_ne_none _)⟩
      | ok reader =>
          obtain ⟨alone, more, hloop⟩ :=
            ReplayRun.loop_returns (steady_start reader) json symbol (Nat.lt_succ_self _)
          obtain ⟨o, after, hreplay, hfilled⟩ :=
            replayLoop_filled (steady_start reader) (Nat.lt_succ_self _) hset rfl rfl hloop
          exact ⟨alone, _, o, after, hloop, hreplay, hfilled⟩

/-! ## All files -/

/-- The file of a target against the replay of its input alone. -/
structure ReplayedInto (json : Library) (env : ReplaySurroundings) (path symbol : Bytes)
    (complete : Prop) (t : TargetFiles) : Prop where
  file : ∃ alone output labels, replayAlone json env path symbol = some (alone, output) ∧
    t.After labels ∧ (accepted labels).flatten ++ torn labels <+: output ∧
    (complete → alone.error = none ∧ (∀ l ∈ labels, l.result = none) ∧
      (accepted labels).flatten = output)

/-- What the loop over the inputs does from an index on. -/
structure FilesReplayed (json : Library) (env : ReplaySurroundings) (symbols : List Bytes)
    (index : Nat) (paths : List Bytes) (report : ReplayReport) (set : CsvOutputSet)
    (report' : ReplayReport) (after : CsvOutputSet) : Prop where
  mode : after.mode = set.mode
  isOpen : after.closed = set.closed
  length : after.targets.length = set.targets.length
  before : ∀ j < index, after.targets[j]? = set.targets[j]?
  files : ∀ i path, paths[i]? = some path → ∃ t, after.targets[index + i]? = some t ∧
    ReplayedInto json env path ((symbols[index + i]?).getD []) (report'.failure = none) t
  books : after.orderBookTotal + report.bookRows ≤ set.orderBookTotal + report'.bookRows
  complete : report'.failure = none → after.firstError = none ∧
    report'.rowsRead + report.rowsProcessed = report'.rowsProcessed + report.rowsRead ∧
    after.orderBookTotal + report.bookRows = set.orderBookTotal + report'.bookRows
  failed : report'.failure ≠ none → after.firstError ≠ none ∨
    ∃ i path alone output, paths[i]? = some path ∧ alone.error ≠ none ∧
      replayAlone json env path ((symbols[index + i]?).getD []) = some (alone, output)

theorem TargetFiles.After.rows {labels : List SinkLabel} (h : t.After labels) :
    t.orderBookRows = (accepted labels).length := h.ran.holds.rows

/-- A set whose targets from an index on have taken nothing. -/
structure CsvOutputSet.FreshFrom (set : CsvOutputSet) (index count : Nat) : Prop where
  mode : set.mode = .replay
  isOpen : set.closed = false
  clean : set.firstError = none
  length : set.targets.length = index + count
  fresh : ∀ j t, index ≤ j → set.targets[j]? = some t → t.After []

theorem CsvOutputSet.FreshFrom.taking {index count : Nat} (h : set.FreshFrom index (count + 1)) :
    ∃ t, set.Taking index t [] := by
  have hindex : index < set.targets.length := by
    have := h.length
    omega
  have htarget := List.getElem?_eq_getElem hindex
  exact ⟨_, h.mode, h.isOpen, h.clean, htarget, h.fresh index _ (Nat.le_refl _) htarget,
    fun l hl => (by cases hl)⟩

theorem CsvOutputSet.FreshFrom.total {count : Nat} (h : set.FreshFrom 0 count) :
    set.orderBookTotal = 0 := by
  apply List.sum_eq_zero
  intro rows hrows
  obtain ⟨t, ht, rfl⟩ := List.mem_map.mp hrows
  obtain ⟨i, hi⟩ := List.mem_iff_getElem?.mp ht
  exact (h.fresh i t (Nat.zero_le i) hi).rows

theorem replayFiles_replayed (symbols : List Bytes) {paths : List Bytes} {index : Nat}
    {report : ReplayReport} (h : set.FreshFrom index paths.length) (hreport : report.failure = none) :
    ∃ report' after, replayFiles json env symbols index paths report set = some (report', after) ∧
      FilesReplayed json env symbols index paths report set report' after := by
  induction paths generalizing index report set with
  | nil =>
      refine ⟨report, set, rfl, rfl, rfl, rfl, fun _ _ => rfl, fun i path hi => (by cases hi),
        Nat.le_refl _, fun _ => ⟨h.clean, Nat.add_comm _ _, rfl⟩, ?_⟩
      exact fun hfailed => absurd hreport hfailed
  | cons path rest ih =>
      obtain ⟨t, hset⟩ := h.taking
      obtain ⟨alone, output, o, after, halone, hreplay, hfilled⟩ :=
        replayFile_filled json env hset path ((symbols[index]?).getD [])
      obtain ⟨t', labels, htargets, hafter, hcount, hwithin, hdone, hfailed⟩ := hfilled.done
      have hother : ∀ j, j ≠ index → after.targets[j]? = set.targets[j]? := by
        intro j hj
        rw [htargets, List.getElem?_set_ne (Ne.symm hj)]
      have hself : after.targets[index]? = some t' := by
        rw [htargets, List.getElem?_set_self (List.getElem?_eq_some_iff.mp hset.target).1]
      have htotal : after.orderBookTotal = set.orderBookTotal + (accepted labels).length := by
        have hsum := CsvOutputSet.sum_map_set TargetFiles.orderBookRows hset.target t'
        rw [hset.after.rows, hafter.rows] at hsum
        rw [CsvOutputSet.orderBookTotal, htargets]
        exact hsum
      have hlength : after.targets.length = set.targets.length := by
        rw [htargets, List.length_set]
      rw [replayFiles, hreplay]
      dsimp only
      cases hsuccess : o.success with
      | false =>
          refine ⟨_, _, rfl, hfilled.mode, hfilled.isOpen, hlength,
            fun j hj => hother j (Nat.ne_of_lt hj), ?_, ?_, fun hnone => (by cases hnone), fun _ => ?_⟩
          · intro i path' hi
            cases i with
            | zero =>
                obtain rfl := Option.some.inj hi
                exact ⟨t', hself, alone, output, labels, halone, hafter, hwithin,
                  fun hnone => (by cases hnone)⟩
            | succ i =>
                have hi' := (List.getElem?_eq_some_iff.mp hi).1
                have hlt : index + (i + 1) < set.targets.length := by
                  rw [h.length]
                  omega
                have htarget := List.getElem?_eq_getElem hlt
                obtain ⟨alone', output', halone'⟩ := replayAlone_returns json env path'
                  ((symbols[index + (i + 1)]?).getD [])
                exact ⟨_, (hother _ (by omega)).trans htarget, alone', output', [], halone',
                  h.fresh _ _ (Nat.le_add_right _ _) htarget, List.nil_prefix,
                  fun hnone => (by cases hnone)⟩
          · rw [htotal]
            simp only [ReplayReport.count]
            omega
          · cases hwrite : o.outputError with
            | some error =>
                left
                rw [← hfilled.error, hwrite]
                exact Option.some_ne_none _
            | none =>
                obtain ⟨rfl, -⟩ := hdone hwrite
                refine .inr ⟨0, path, _, output, rfl, ?_, halone⟩
                intro herror
                simp [ReplayFileOutcome.success, herror, hwrite] at hsuccess
      | true =>
          obtain ⟨herror, hwrite⟩ : o.error = none ∧ o.outputError = none := by
            simpa [ReplayFileOutcome.success] using hsuccess
          obtain ⟨rfl, hresults, hflatten, hrows, hread⟩ := hdone hwrite
          have hfresh : after.FreshFrom (index + 1) rest.length := by
            refine ⟨hfilled.mode.trans h.mode, hfilled.isOpen.trans h.isOpen,
              hfilled.error.symm.trans hwrite, ?_, ?_⟩
            · rw [hlength, h.length, List.length_cons]
              omega
            · intro j u hj hu
              exact h.fresh j u (by omega) ((hother j (by omega)).symm.trans hu)
          have hcounted : (report.count o).failure = none := hreport
          obtain ⟨report', last, hloop, hrest⟩ := ih hfresh hcounted
          have hbooks : (report.count o).bookRows = report.bookRows + o.orderBookRows := rfl
          have hreads : (report.count o).rowsRead = report.rowsRead + o.rowsRead := rfl
          have hprocessed :
              (report.count o).rowsProcessed = report.rowsProcessed + o.rowsProcessed := rfl
          refine ⟨report', last, hloop, hrest.mode.trans hfilled.mode,
            hrest.isOpen.trans hfilled.isOpen, hrest.length.trans hlength, ?_, ?_, ?_, ?_, ?_⟩
          · intro j hj
            rw [hrest.before j (by omega), hother j (Nat.ne_of_lt hj)]
          · intro i path' hi
            cases i with
            | zero =>
                obtain rfl := Option.some.inj hi
                exact ⟨t', (hrest.before index (Nat.lt_succ_self _)).trans hself, _, output, labels,
                  halone, hafter, hwithin, fun _ => ⟨herror, hresults, hflatten⟩⟩
            | succ i =>
                rw [show index + (i + 1) = index + 1 + i by omega]
                exact hrest.files i path' hi
          · have := hrest.books
            omega
          · intro hnone
            obtain ⟨hclean, hcounts, htotals⟩ := hrest.complete hnone
            have := hread herror
            exact ⟨hclean, by omega, by omega⟩
          · intro hlast
            rcases hrest.failed hlast with hfirst | ⟨i, path', alone', output', hi, hne, halone'⟩
            · exact .inl hfirst
            · refine .inr ⟨i + 1, path', alone', output', hi, hne, ?_⟩
              rw [show index + (i + 1) = index + 1 + i by omega]
              exact halone'

end Files

/-! ## Closing -/

theorem accepted_closed (labels : List SinkLabel) (result : Option FileSinkError) :
    accepted (labels ++ [.closed result]) = accepted labels := by
  rw [accepted_concat]
  exact List.append_nil _

theorem torn_closed (labels : List SinkLabel) (result : Option FileSinkError) :
    torn (labels ++ [.closed result]) = torn labels := by
  by_cases hclean : ∀ l ∈ labels, l.result = none
  · rw [torn_concat_clean hclean, torn_clean hclean]
    rfl
  · obtain ⟨m, hm, hfailed⟩ : ∃ m ∈ labels, m.result ≠ none := by
      simpa using hclean
    exact torn_concat_failed hm hfailed _

theorem TargetFiles.After.close {t t' : TargetFiles} {labels : List SinkLabel} (h : t.After labels)
    {answers : FileAnswers} (haudit : t'.audit = none)
    (hclose : t'.orderBook = (BufferedCsvFileSink.close answers t.orderBook).1.2) :
    t'.After (labels ++ [.closed (BufferedCsvFileSink.close answers t.orderBook).1.1]) := by
  have hran : Ran (headerFor .orderBook) labels t.orderBook := h.ran
  refine ⟨haudit, ?_⟩
  rw [hclose]
  exact hran.step (show (runs .orderBook).step t.orderBook (.closed _) _ from ⟨answers, _, rfl⟩)

namespace CsvOutputSet

/-- `close_all` on files that are the only ones of their targets. -/
theorem overTargets_closed {targets : List TargetFiles}
    (hafter : ∀ t ∈ targets, ∃ labels, t.After labels) (answers : FileAnswers) (index : Nat)
    (first : Option OutputSetWriteError) :
    (∀ e, first = some e → (overTargets closeSink answers index first targets).1 = some e) ∧
    List.Forall₂ (fun t t' => t'.audit = none ∧ t'.orderBookRows = t.orderBookRows ∧
        ∃ a, t'.orderBook = (close a t.orderBook).1.2 ∧
          ((overTargets closeSink answers index first targets).1 = none →
            (close a t.orderBook).1.1 = none))
      targets (overTargets closeSink answers index first targets).2 := by
  induction targets generalizing answers index first with
  | nil => exact ⟨fun _ he => he, .nil⟩
  | cons t ts ih =>
      rw [List.forall_mem_cons] at hafter
      obtain ⟨⟨labels, ht⟩, hrest⟩ := hafter
      have hrows : ({ audit := none, orderBook := (close answers t.orderBook).1.2 } :
          TargetFiles).orderBookRows = t.orderBookRows := by
        rw [(ht.close rfl rfl).rows, ht.rows, accepted_closed]
      have hboth : t.both closeSink answers index first =
          ((firstOf first index .orderBook (close answers t.orderBook).1.1,
            { audit := none, orderBook := (close answers t.orderBook).1.2 }),
            (close answers t.orderBook).2) := by
        simp [both, ht.audit, closeSink]
      obtain ⟨hfirst, htargets⟩ := ih hrest (close answers t.orderBook).2 (index + 1)
        (firstOf first index .orderBook (close answers t.orderBook).1.1)
      have hover : overTargets closeSink answers index first (t :: ts) =
          ((overTargets closeSink (close answers t.orderBook).2 (index + 1)
              (firstOf first index .orderBook (close answers t.orderBook).1.1) ts).1,
            { audit := none, orderBook := (close answers t.orderBook).1.2 } ::
              (overTargets closeSink (close answers t.orderBook).2 (index + 1)
                (firstOf first index .orderBook (close answers t.orderBook).1.1) ts).2) := by
        rw [overTargets, hboth]
      rw [hover]
      refine ⟨?_, .cons ⟨rfl, hrows, answers, rfl, fun hnone => ?_⟩ htargets⟩
      · rintro e rfl
        exact hfirst e (firstOf_some _ _ _ _)
      · cases hclose : (close answers t.orderBook).1.1 with
        | none => rfl
        | some error =>
            rw [hclose] at hfirst hnone
            cases first with
            | some e =>
                rw [hfirst e (firstOf_some _ _ _ _)] at hnone
                cases hnone
            | none =>
                rw [hfirst _ rfl] at hnone
                cases hnone

/-- The set after `close_all`: each file is closed, and without an error it is complete. -/
structure Closed (set : CsvOutputSet) (r : Option OutputSetWriteError × CsvOutputSet) : Prop where
  error : r.1 = r.2.firstError
  first : ∀ e, set.firstError = some e → r.1 = some e
  closed : r.2.closed = true
  orderBookTotal : r.2.orderBookTotal = set.orderBookTotal
  targets : List.Forall₂ (fun t t' => ∀ labels, t.After labels → ∃ labels', t'.After labels' ∧
      accepted labels' = accepted labels ∧ torn labels' = torn labels ∧
      (r.1 = none → t'.orderBook.file = orderBookCsvHeader ++ (accepted labels').flatten ∧
        t'.orderBook.buffer = [] ∧ t'.orderBook.bufferedRows = 0)) set.targets r.2.targets

theorem closeAll_closed {set : CsvOutputSet} (hopen : set.closed = false)
    (hafter : ∀ t ∈ set.targets, ∃ labels, t.After labels) (answers : FileAnswers) :
    set.Closed (set.closeAll answers) := by
  obtain ⟨hfirst, htargets⟩ := overTargets_closed hafter answers 0 set.firstError
  simp only [closeAll, hopen, Bool.false_eq_true, ↓reduceIte]
  refine ⟨rfl, hfirst, rfl, ?_, htargets.imp ?_⟩
  · exact congrArg List.sum (map_eq_of_forall₂ _ (fun _ _ hab => hab.2.1) htargets)
  · rintro t t' ⟨haudit, -, a, hclose, hdone⟩ labels hafter
    refine ⟨_, hafter.close haudit hclose, accepted_closed labels _, torn_closed labels _,
      fun hnone => ?_⟩
    obtain ⟨hanswer, hholds, -, hrows⟩ := close_holds hafter.ran.holds hafter.ran.shut a
    have hclean := hanswer.symm.trans (hdone hnone)
    obtain ⟨hall, hfile⟩ := hholds.written_all hclean (hrows hclean)
    have hbuffer := hholds.buffer
    rw [hall, List.drop_length] at hbuffer
    rw [hclose, accepted_closed]
    exact ⟨hfile, hbuffer, hrows hclean⟩

end CsvOutputSet

/-! ## The program -/

/-- Inputs that can be replayed together. -/
def ReplayInputMetadata.Distinct (a b : ReplayInputMetadata) : Prop :=
  a.normalizedPath ≠ b.normalizedPath ∧ a.symbol ≠ b.symbol ∧ a.stem ≠ b.stem

/-- What `run_replay` leaves once the set was opened: the files of the inputs against the replay of
each input alone, the counts it reports, and when it succeeds. -/
structure ReplayEnd.Delivers (json : Library) (env : ReplaySurroundings)
    (metadata : List ReplayInputMetadata) (report : ReplayReport)
    (closeError : Option OutputSetWriteError) (output : CsvOutputSet) : Prop where
  distinct : metadata.Pairwise ReplayInputMetadata.Distinct
  targets : output.targets.length = metadata.length
  files : ∀ (i : Nat) (input : ReplayInputMetadata), metadata[i]? = some input →
    ∃ (t : TargetFiles) (alone : ReplayFileResult) (rows : Bytes),
    output.targets[i]? = some t ∧ replayAlone json env input.path input.symbol = some (alone, rows) ∧
    orderBookCsvHeader <+: t.orderBook.file ∧ t.orderBook.file <+: orderBookCsvHeader ++ rows ∧
    ((ReplayEnd.ran report closeError output).exitCode = exitSuccess →
      alone.error = none ∧ t.orderBook.file = orderBookCsvHeader ++ rows)
  books : output.metrics.orderBookRowsWritten ≤ report.bookRows
  counts : (ReplayEnd.ran report closeError output).exitCode = exitSuccess →
    report.rowsRead = report.rowsProcessed ∧
      output.metrics.orderBookRowsWritten = report.bookRows
  success : (ReplayEnd.ran report closeError output).exitCode = exitSuccess ↔
    output.firstError = none ∧ ∀ input : ReplayInputMetadata, input ∈ metadata → ∀ alone rows,
      replayAlone json env input.path input.symbol = some (alone, rows) → alone.error = none

theorem ReplayEnd.exitCode_success {report : ReplayReport} {closeError : Option OutputSetWriteError}
    {output : CsvOutputSet} : (ReplayEnd.ran report closeError output).exitCode = exitSuccess ↔
      closeError = none ∧ report.failure = none := by
  have hfile : ∀ o : ReplayFileOutcome, o.exitCode ≠ exitSuccess := by
    intro o
    unfold ReplayFileOutcome.exitCode
    split <;> decide
  rw [ReplayEnd.exitCode]
  cases closeError with
  | some error => exact ⟨fun h => (by cases h), fun h => (by cases h.1)⟩
  | none =>
      cases report.failure with
      | some failure => exact ⟨fun h => absurd h (hfile _), fun h => (by cases h.2)⟩
      | none => exact ⟨fun _ => ⟨rfl, rfl⟩, fun _ => rfl⟩

/-- The targets of the set that is opened for the inputs. -/
def OpenedFor (directory : Bytes) (metadata : List ReplayInputMetadata)
    (targets : List OutputTarget) : Prop :=
  List.Forall₂ OutputTarget.Opened
    ((metadata.map fun input => (⟨input.symbol, input.stem⟩ : ReplayOutputSpec)).map
      (replayTarget directory)) targets

namespace OpenedFor

variable {directory : Bytes} {metadata : List ReplayInputMetadata} {targets : List OutputTarget}

theorem length (h : OpenedFor directory metadata targets) : targets.length = metadata.length := by
  have hlength := List.Forall₂.length_eq h
  simp only [List.length_map] at hlength
  exact hlength.symm

theorem symbol (h : OpenedFor directory metadata targets) {i : Nat} {input : ReplayInputMetadata}
    (hi : metadata[i]? = some input) :
    ((targets.map OutputTarget.symbol)[i]?).getD [] = input.symbol := by
  have hlt : i < targets.length := by
    rw [h.length]
    exact (List.getElem?_eq_some_iff.mp hi).1
  obtain ⟨planned, hplanned, hopened⟩ :=
    CsvOutputSet.exists_getElem?_of_forall₂ h (List.getElem?_eq_getElem hlt)
  rw [List.getElem?_map, List.getElem?_map, hi] at hplanned
  obtain rfl := Option.some.inj hplanned
  rw [List.getElem?_map, List.getElem?_eq_getElem hlt]
  exact hopened.symbol

theorem fresh (h : OpenedFor directory metadata targets) :
    (CsvOutputSet.ofTargets .replay targets).FreshFrom 0 metadata.length := by
  refine ⟨rfl, rfl, rfl, ?_, ?_⟩
  · rw [Nat.zero_add, ← h.length, CsvOutputSet.ofTargets, List.length_map]
  · intro j t _ ht
    simp only [CsvOutputSet.ofTargets, List.getElem?_map, Option.map_eq_some_iff] at ht
    obtain ⟨target, htarget, rfl⟩ := ht
    obtain ⟨planned, hplanned, hopened⟩ :=
      CsvOutputSet.exists_getElem?_of_forall₂ h htarget
    rw [List.getElem?_map, List.getElem?_map, Option.map_map, Option.map_eq_some_iff] at hplanned
    obtain ⟨input, -, rfl⟩ := hplanned
    obtain ⟨o, hbook, hinit⟩ := hopened.orderBook
    refine ⟨?_, ?_⟩
    · rw [hopened.audit]
      rfl
    · have hran : Ran (headerFor .orderBook) [] o.sink := ran_init hinit
      rw [hbook]
      exact hran

end OpenedFor

section Program

variable {directory : Bytes} {metadata : List ReplayInputMetadata} {targets : List OutputTarget}

/-- The order-book file of an input when the program ends: the rows it has taken, as a prefix of
those that replaying the input alone gives. -/
structure ReplayedFile (json : Library) (env : ReplaySurroundings) (input : ReplayInputMetadata)
    (complete closed : Prop) (t : TargetFiles) : Prop where
  file : ∃ alone rows labels, replayAlone json env input.path input.symbol = some (alone, rows) ∧
    t.After labels ∧ (accepted labels).flatten ++ torn labels <+: rows ∧
    (complete → alone.error = none ∧ (accepted labels).flatten = rows) ∧
    (closed → t.orderBook.file = orderBookCsvHeader ++ (accepted labels).flatten ∧
      t.orderBook.buffer = [] ∧ t.orderBook.bufferedRows = 0)

section Loop

variable {json : Library} {env : ReplaySurroundings} {report : ReplayReport} {set : CsvOutputSet}

theorem OpenedFor.replayed_length (h : OpenedFor directory metadata targets)
    (hreplayed : FilesReplayed json env (targets.map OutputTarget.symbol) 0
      (metadata.map ReplayInputMetadata.path) {} (.ofTargets .replay targets) report set) :
    set.targets.length = metadata.length := by
  rw [hreplayed.length, h.fresh.length, Nat.zero_add]

/-- The target of an input once the loop is over. -/
theorem OpenedFor.replayed (h : OpenedFor directory metadata targets)
    (hreplayed : FilesReplayed json env (targets.map OutputTarget.symbol) 0
      (metadata.map ReplayInputMetadata.path) {} (.ofTargets .replay targets) report set)
    {i : Nat} {input : ReplayInputMetadata} (hi : metadata[i]? = some input) :
    ∃ t, set.targets[i]? = some t ∧
      ReplayedInto json env input.path input.symbol (report.failure = none) t := by
  have hpath : (metadata.map ReplayInputMetadata.path)[i]? = some input.path := by
    rw [List.getElem?_map, hi]
    rfl
  obtain ⟨t, ht, hinto⟩ := hreplayed.files i input.path hpath
  rw [Nat.zero_add] at ht hinto
  rw [h.symbol hi] at hinto
  exact ⟨t, ht, hinto⟩

/-- The input of a target once the loop is over. -/
theorem OpenedFor.replayed_from (h : OpenedFor directory metadata targets)
    (hreplayed : FilesReplayed json env (targets.map OutputTarget.symbol) 0
      (metadata.map ReplayInputMetadata.path) {} (.ofTargets .replay targets) report set)
    {i : Nat} {t : TargetFiles} (ht : set.targets[i]? = some t) :
    ∃ input, metadata[i]? = some input ∧
      ReplayedInto json env input.path input.symbol (report.failure = none) t := by
  have hlt : i < metadata.length := by
    rw [← h.replayed_length hreplayed]
    exact (List.getElem?_eq_some_iff.mp ht).1
  obtain ⟨t', ht', hinto⟩ := h.replayed hreplayed (List.getElem?_eq_getElem hlt)
  obtain rfl := Option.some.inj (ht.symm.trans ht')
  exact ⟨_, List.getElem?_eq_getElem hlt, hinto⟩

theorem OpenedFor.replayed_after (h : OpenedFor directory metadata targets)
    (hreplayed : FilesReplayed json env (targets.map OutputTarget.symbol) 0
      (metadata.map ReplayInputMetadata.path) {} (.ofTargets .replay targets) report set) :
    ∀ t ∈ set.targets, ∃ labels, t.After labels := by
  intro t ht
  obtain ⟨i, hi⟩ := List.mem_iff_getElem?.mp ht
  obtain ⟨input, -, hinto⟩ := h.replayed_from hreplayed hi
  obtain ⟨alone, output, labels, -, hafter, -⟩ := hinto.file
  exact ⟨labels, hafter⟩

/-- `close_all` takes each target from the loop to the end of the program. -/
theorem OpenedFor.closed_file (h : OpenedFor directory metadata targets)
    (hreplayed : FilesReplayed json env (targets.map OutputTarget.symbol) 0
      (metadata.map ReplayInputMetadata.path) {} (.ofTargets .replay targets) report set)
    {r : Option OutputSetWriteError × CsvOutputSet} (hclosed : set.Closed r) {i : Nat}
    {t : TargetFiles} (ht : r.2.targets[i]? = some t) :
    ∃ input, metadata[i]? = some input ∧
      ReplayedFile json env input (report.failure = none) (r.1 = none) t := by
  obtain ⟨before, hbefore, hclose⟩ := CsvOutputSet.exists_getElem?_of_forall₂ hclosed.targets ht
  obtain ⟨input, hi, hinto⟩ := h.replayed_from hreplayed hbefore
  obtain ⟨alone, rows, labels, halone, hafter, hwithin, hcomplete⟩ := hinto.file
  obtain ⟨labels', hafter', haccepted, htorn, hdone⟩ := hclose labels hafter
  refine ⟨input, hi, alone, rows, labels', halone, hafter', ?_, fun hnone => ?_, hdone⟩
  · rw [haccepted, htorn]
    exact hwithin
  · obtain ⟨herror, -, hrows⟩ := hcomplete hnone
    rw [haccepted]
    exact ⟨herror, hrows⟩

/-- The exit code is that of success exactly when every input replays and nothing failed. -/
theorem OpenedFor.exit_success (h : OpenedFor directory metadata targets)
    (hreplayed : FilesReplayed json env (targets.map OutputTarget.symbol) 0
      (metadata.map ReplayInputMetadata.path) {} (.ofTargets .replay targets) report set)
    {r : Option OutputSetWriteError × CsvOutputSet} (hclosed : set.Closed r) (hclose : r.1 = none) :
    report.failure = none ↔ ∀ input ∈ metadata, ∀ alone rows,
      replayAlone json env input.path input.symbol = some (alone, rows) → alone.error = none := by
  constructor
  · intro hnone input hmem alone rows halone
    obtain ⟨i, hi⟩ := List.mem_iff_getElem?.mp hmem
    obtain ⟨t, ht, hinto⟩ := h.replayed hreplayed hi
    obtain ⟨alone', output, labels, halone', -, -, hcomplete⟩ := hinto.file
    obtain ⟨rfl, -⟩ := Prod.mk.inj (Option.some.inj (halone.symm.trans halone'))
    exact (hcomplete hnone).1
  · intro hall
    by_contra hfailed
    rcases hreplayed.failed hfailed with hfirst | ⟨i, path, alone, output, hi, hne, halone⟩
    · obtain ⟨error, herror⟩ := Option.ne_none_iff_exists'.mp hfirst
      rw [hclosed.first error herror] at hclose
      cases hclose
    · rw [List.getElem?_map, Option.map_eq_some_iff] at hi
      obtain ⟨input, hi, rfl⟩ := hi
      rw [Nat.zero_add, h.symbol hi] at halone
      exact hne (hall input (List.mem_of_getElem? hi) alone output halone)

end Loop

/-- The loop over the inputs and `close_all`. -/
theorem OpenedFor.delivers (h : OpenedFor directory metadata targets) (json : Library)
    (env : ReplaySurroundings)
    (hdistinct : metadata.Pairwise ReplayInputMetadata.Distinct) :
    ∃ report set, replayFiles json env (targets.map OutputTarget.symbol) 0
        (metadata.map ReplayInputMetadata.path) {} (.ofTargets .replay targets) =
          some (report, set) ∧
      ReplayEnd.Delivers json env metadata report (set.closeAll env.closing).1
        (set.closeAll env.closing).2 := by
  have hfresh := h.fresh
  rw [← show (metadata.map ReplayInputMetadata.path).length = metadata.length from
    List.length_map _] at hfresh
  have hstart : ({} : ReplayReport).failure = none := rfl
  obtain ⟨report, set, hloop, hreplayed⟩ : ∃ report set, _ ∧ FilesReplayed json env
      (targets.map OutputTarget.symbol) 0 (metadata.map ReplayInputMetadata.path) {}
      (.ofTargets .replay targets) report set :=
    replayFiles_replayed (targets.map OutputTarget.symbol) hfresh hstart
  have hclosed := set.closeAll_closed (hreplayed.isOpen.trans hfresh.isOpen)
    (h.replayed_after hreplayed) env.closing
  have hzero := hfresh.total
  refine ⟨report, set, hloop, ?_⟩
  generalize set.closeAll env.closing = r at hclosed ⊢
  have hlength : r.2.targets.length = metadata.length := by
    rw [← hclosed.targets.length_eq, h.replayed_length hreplayed]
  refine ⟨hdistinct, hlength, ?_, ?_, ?_, ?_⟩
  · intro i input hi
    have hlt : i < r.2.targets.length := by
      rw [hlength]
      exact (List.getElem?_eq_some_iff.mp hi).1
    have ht := List.getElem?_eq_getElem hlt
    obtain ⟨input', hi', alone, rows, labels, halone, hafter, hwithin, hcomplete, hdone⟩ :=
      h.closed_file hreplayed hclosed ht
    obtain rfl := Option.some.inj (hi.symm.trans hi')
    refine ⟨_, alone, rows, ht, halone, (List.prefix_append _ _).trans hafter.ran.holds.written, ?_,
      fun hexit => ?_⟩
    · refine hafter.ran.holds.within.trans ?_
      rw [List.append_assoc]
      exact List.prefix_append_right_inj _ |>.mpr hwithin
    · obtain ⟨hclose, hnone⟩ := ReplayEnd.exitCode_success.mp hexit
      obtain ⟨herror, hrows⟩ := hcomplete hnone
      exact ⟨herror, hrows ▸ (hdone hclose).1⟩
  · have hbooks := hreplayed.books
    rw [hzero, ← hclosed.orderBookTotal] at hbooks
    exact r.2.metrics_le.2.trans (by simpa using hbooks)
  · intro hexit
    obtain ⟨hclose, hnone⟩ := ReplayEnd.exitCode_success.mp hexit
    obtain ⟨-, hcounts, htotals⟩ := hreplayed.complete hnone
    have hwritten : r.2.metrics.orderBookRowsWritten = r.2.orderBookTotal := by
      refine (CsvOutputSet.metrics_eq ?_).2
      intro t ht
      obtain ⟨i, hi⟩ := List.mem_iff_getElem?.mp ht
      obtain ⟨input, -, alone, rows, labels, -, hafter, -, -, hdone⟩ :=
        h.closed_file hreplayed hclosed hi
      refine ⟨fun sink hsink => ?_, (hdone hclose).2⟩
      rw [hafter.audit] at hsink
      cases hsink
    rw [hzero, ← hclosed.orderBookTotal, ← hwritten] at htotals
    exact ⟨by simpa using hcounts, by simpa using htotals⟩
  · rw [ReplayEnd.exitCode_success, ← hclosed.error]
    exact and_congr_right fun hclose => h.exit_success hreplayed hclosed hclose

end Program

end MarketCapture
