import MarketCapture.Processor.ReplayFile
import MarketCapture.Processor.RowBounds

/-! # Replaying what was audited

The messages of one symbol through `process` in live capture, and the replay of the audit
rows they gave rise to. A message that is refused leaves the state and writes nothing, so
replay does not miss it.
-/

namespace MarketCapture

open Simdjson

/-- One call of `process` in live capture. -/
structure CapturedStep where
  before : SymbolState
  context : EventContext
  payload : Bytes
  result : EventProcessResult
  after : SymbolState
  batch : EventRowBatch

namespace CapturedStep

/-- The message left an audit row. -/
def audited (step : CapturedStep) : Bool := step.batch.hasAuditRow

/-- The audit rows of a run, as the audit file holds them. -/
def auditBytes (steps : List CapturedStep) : Bytes :=
  steps.flatMap fun step => step.batch.auditBytes

def orderBookBytes (steps : List CapturedStep) : Bytes :=
  steps.flatMap fun step => step.batch.orderBookBytes

def row (step : CapturedStep) : MarketDataCsvRow := auditRowOf step.context step.payload

end CapturedStep

/-- `process` in live capture on one message after the other. -/
def EventProcessor.capture (json : Library) :
    List (EventContext × Bytes) → EventProcessor → SymbolState → Option (List CapturedStep)
  | [], _, _ => some []
  | (context, payload) :: events, p, s => do
      let (result, s', batch, p') ← p.process json s context payload .liveCapture
      let steps ← capture json events p' s'
      return ⟨s, context, payload, result, s', batch⟩ :: steps

/-- Connection metadata in lexicographic order. -/
def EventContext.Before (a b : EventContext) : Prop :=
  a.connectionEpoch < b.connectionEpoch ∨
    a.connectionEpoch = b.connectionEpoch ∧ a.connectionSequence < b.connectionSequence

namespace ReplayRun

/-- The run after each record the loop takes. -/
def passes (json : Library) (target : Bytes) : Nat → ReplayRun → List ReplayRun
  | 0, _ => []
  | fuel + 1, run =>
      match run.step json target with
      | some (.inr run') => run' :: passes json target fuel run'
      | _ => []

end ReplayRun

/-- The passes of `replayMarketDataFile` through its loop. -/
def replayPasses (json : Library) (script : List ReadAnswer) (target : Bytes) : List ReplayRun :=
  match MarketDataReplayReader.openScript script with
  | .error _ => []
  | .ok reader => ReplayRun.passes json target
      (reader.buffer.length + (MarketDataReplayReader.scriptBytes reader.script).length + 1)
      { reader := reader }

/-! ## One message -/

/-- An audited message of the state: its row replays to the same result, the same state
and the same order-book row. -/
structure CapturedStep.Replayable (json : Library) (s : SymbolState) (step : CapturedStep) :
    Prop where
  context : contextIsValid s step.context = true
  row : AuditRow s.venue s.symbol step.row
  error : step.result.error = .none
  status : step.result.status ≠ .preAuditRejected
  auditRow : step.batch.auditBytes = auditText step.row
  identity : step.after.venue = s.venue ∧ step.after.symbol = s.symbol
  committed : step.after.Committed step.context
  process : ∀ p : EventProcessor, ∃ p', p.process json s (recordContext step.row)
    step.row.payloadJson .replay = some (step.result, step.after, step.batch.replayed, p')

/-- A message that leaves the state and writes nothing. -/
structure CapturedStep.Refused (step : CapturedStep) : Prop where
  after : step.after = step.before
  batch : step.batch = {}
  error : (step.result.error = .invalidContext ∧
      contextIsValid step.before step.context = false) ∨
    (step.result.error = .sequenceOverflow ∧
      step.before.sequenceNumber.toNat = uint64Maximum)

/-- States with the same identity, metadata and books are equal. -/
theorem SymbolState.eq_of_twin {context : EventContext} {result : EventProcessResult}
    {s a b : SymbolState} (halike : a.Alike b) (ha : a.Committed context) (hb : b.Committed context)
    (htwin : Twin context result s s a b) : b = a := by
  cases htwin with
  | passed _ ha' hb' => exact hb'.trans ha'.symm
  | booked _ hbooks _ =>
      cases a
      cases b
      obtain ⟨rfl, rfl, rfl, rfl⟩ := halike
      obtain ⟨rfl, rfl⟩ := hbooks
      obtain ⟨h₁, h₂, h₃⟩ := ha
      obtain ⟨h₁', h₂', h₃'⟩ := hb
      simp only at h₁ h₂ h₃ h₁' h₂' h₃'
      rw [h₁, h₂, h₃, h₁', h₂', h₃']

/-- What `process` does with a message in live capture. -/
theorem process_captured (p : EventProcessor) (json : Library) {s : SymbolState} (h : s.Printable)
    (context : EventContext) (payload : Bytes) :
    ∃ result s' batch p', p.process json s context payload .liveCapture =
        some (result, s', batch, p') ∧ s'.Printable ∧
      (result.status = .preAuditRejected ∨
        (⟨s, context, payload, result, s', batch⟩ : CapturedStep).Refused ∨
        (batch.hasAuditRow = true ∧
          (⟨s, context, payload, result, s', batch⟩ : CapturedStep).Replayable json s)) := by
  obtain ⟨result, s', batch, p', hcall, houtcome, -⟩ := p.process_outcome json h.ok context payload
    .liveCapture
  refine ⟨result, s', batch, p', hcall, ?_⟩
  cases hcontext : contextIsValid s context with
  | false =>
      simp only [EventProcessor.process, hcontext, Bool.not_false, ↓reduceIte, Option.some.injEq,
        Prod.mk.injEq] at hcall
      obtain ⟨rfl, rfl, rfl, -⟩ := hcall
      exact ⟨h, .inr (.inl ⟨rfl, rfl, .inl ⟨rfl, hcontext⟩⟩)⟩
  | true =>
      obtain ⟨p'', heq⟩ := p.process_eq json payload .liveCapture hcontext
      obtain ⟨⟨result', s'', batch'⟩, hparsed, hsame⟩ :=
        Option.map_eq_some_iff.mp (heq.symm.trans hcall)
      simp only [Prod.mk.injEq] at hsame
      obtain ⟨rfl, rfl, rfl, -⟩ := hsame
      rcases processParsed_printable h hcontext hparsed with ⟨herror, hs'⟩ |
        ⟨herror, hmax, rfl, rfl⟩
      · refine ⟨hs', ?_⟩
        by_cases hstatus : result'.status = .preAuditRejected
        · exact .inl hstatus
        obtain ⟨hrow, haudit, hhas, -⟩ := audited_row h.ok hcontext hparsed herror hstatus
        obtain ⟨b, hreplay, halike, ha, hb, htwin, -, -⟩ :=
          processParsed_twin (.refl s) (fun _ => .refl _) hparsed herror hstatus
        obtain rfl := SymbolState.eq_of_twin halike ha hb htwin
        obtain ⟨-, hsymbol, hvenue⟩ := houtcome.ok h.ok
        refine .inr (.inr ⟨hhas, hcontext, hrow, herror, hstatus, ?_, ⟨hvenue, hsymbol⟩, ha, ?_⟩)
        · simp [EventRowBatch.auditBytes, hhas, haudit, CapturedStep.row]
        · intro q
          obtain ⟨q', hq⟩ := q.process_eq json payload .replay hcontext
          exact ⟨q', hq.trans (by rw [hreplay]; rfl)⟩
      · exact ⟨h, .inr (.inl ⟨rfl, rfl, .inr ⟨herror, hmax⟩⟩)⟩

section Refused

variable {step : CapturedStep}

/-- The metadata of a message of the symbol is in order, so its context is not refused. -/
theorem CapturedStep.Refused.not_addressed (h : step.Refused)
    (hbehind : step.before.Behind step.context) (herror : step.result.error = .invalidContext) :
    ¬ step.context.Addressed step.before.venue step.before.symbol := by
  intro haddressed
  rcases h.error with ⟨-, hinvalid⟩ | ⟨hoverflow, -⟩
  · rw [contextIsValid_iff.mpr ⟨haddressed, hbehind⟩] at hinvalid
    cases hinvalid
  · rw [herror] at hoverflow
    cases hoverflow

/-- A message of the symbol is refused for want of a sequence number only. -/
theorem CapturedStep.Refused.exhausted (h : step.Refused)
    (hbehind : step.before.Behind step.context)
    (haddressed : step.context.Addressed step.before.venue step.before.symbol) :
    step.before.sequenceNumber.toNat = uint64Maximum := by
  rcases h.error with ⟨hinvalid, -⟩ | ⟨-, hmax⟩
  · exact absurd haddressed (h.not_addressed hbehind hinvalid)
  · exact hmax

end Refused

/-! ## Runs -/

namespace CapturedStep

/-- Audited messages, each on the state the one before it left. -/
inductive Chain (json : Library) : SymbolState → List CapturedStep → Prop
  | nil (s : SymbolState) : Chain json s []
  | cons {s : SymbolState} {step : CapturedStep} {steps : List CapturedStep} :
      step.Replayable json s → Chain json step.after steps → Chain json s (step :: steps)

theorem Replayable.behind {json : Library} {s : SymbolState} {step : CapturedStep}
    (h : step.Replayable json s) : s.Behind step.context := (contextIsValid_iff.mp h.context).2

theorem Chain.rows {json : Library} {s : SymbolState} {steps : List CapturedStep}
    (h : Chain json s steps) :
    (∀ r ∈ steps.map row, AuditRow s.venue s.symbol r) ∧
      (steps.map row).IsChain MarketDataCsvRow.Before := by
  induction h with
  | nil s => simp
  | @cons s step steps hstep hrest ih =>
      obtain ⟨hrows, horder⟩ := ih
      rw [hstep.identity.1, hstep.identity.2] at hrows
      refine ⟨List.forall_mem_cons.mpr ⟨hstep.row, hrows⟩, ?_⟩
      cases hrest with
      | nil => simp
      | cons hnext _ =>
          refine List.isChain_cons_cons.mpr ⟨?_, horder⟩
          have hbehind := hnext.behind hstep.committed.observed
          rwa [hstep.committed.epoch, hstep.committed.sequence] at hbehind

theorem Chain.auditBytes {json : Library} {s : SymbolState} {steps : List CapturedStep}
    (h : Chain json s steps) : auditBytes steps = ((steps.map row).map auditText).flatten := by
  induction h with
  | nil s => rfl
  | cons hstep _ ih =>
      simp only [CapturedStep.auditBytes, List.flatMap_cons, List.map_cons,
        List.flatten_cons] at ih ⊢
      rw [hstep.auditRow, ih]

theorem Chain.replayable {json : Library} {s : SymbolState} {steps : List CapturedStep}
    (h : Chain json s steps) {step : CapturedStep} (hstep : step ∈ steps) :
    ∃ t, step.Replayable json t := by
  induction h with
  | nil s => cases hstep
  | cons hhead _ ih =>
      rcases List.mem_cons.mp hstep with rfl | hstep
      · exact ⟨_, hhead⟩
      · exact ih hstep

/-- The first row of the file creates the state the run began with. -/
theorem Chain.opens {json : Library} {s : SymbolState} {steps : List CapturedStep}
    (h : Chain json s steps) (hcreate : SymbolState.create s.venue s.symbol = some s) :
    ∀ step ∈ steps.head?, replayState s.symbol step.row none = .ok s := by
  intro step hstep
  cases h with
  | nil => cases hstep
  | cons hhead _ =>
      obtain rfl := Option.some.inj hstep
      simp [replayState, hhead.row.symbol, hhead.row.venue, hcreate]

/-- What is proved of a run without a rejection before audit. -/
structure Captures (json : Library) (s : SymbolState) (events : List (EventContext × Bytes))
    (steps : List CapturedStep) : Prop where
  chain : Chain json s (steps.filter audited)
  refused : ∀ step ∈ steps, step.audited = false → step.Refused ∧
    (step.result.error = .invalidContext → ¬ step.context.Addressed s.venue s.symbol)
  addressed : s.sequenceNumber.toNat ≠ uint64Maximum →
    (∃ e ∈ events, e.1.Addressed s.venue s.symbol) → ∃ step ∈ steps, step.audited = true

theorem Captures.nil (json : Library) (s : SymbolState) : Captures json s [] [] :=
  ⟨.nil s, by simp, by simp⟩

end CapturedStep

/-- The messages to come stay behind the state. -/
theorem CapturedStep.Replayable.behind_after {json : Library} {s : SymbolState}
    {step : CapturedStep} (h : step.Replayable json s) {context : EventContext}
    (hbefore : step.context.Before context) : step.after.Behind context := by
  intro _
  rw [h.committed.epoch, h.committed.sequence]
  exact hbefore

open CapturedStep in
/-- A run returns. Unless a message is rejected before audit, the audited ones replay one
after the other and the others are refused. -/
theorem EventProcessor.capture_spec (json : Library) {events : List (EventContext × Bytes)}
    (p : EventProcessor) {s : SymbolState} (h : s.Printable)
    (horder : events.Pairwise fun a b => a.1.Before b.1) :
    ∃ steps, p.capture json events s = some steps ∧
      ((∀ step ∈ steps, step.result.status ≠ .preAuditRejected) →
        (∀ e ∈ events, s.Behind e.1) → Captures json s events steps) := by
  induction events generalizing p s with
  | nil => exact ⟨[], rfl, fun _ _ => .nil json s⟩
  | cons event events ih =>
      obtain ⟨context, payload⟩ := event
      obtain ⟨hfirst, horder⟩ := List.pairwise_cons.mp horder
      obtain ⟨result, s', batch, p', hcall, hs', hcases⟩ := process_captured p json h context payload
      obtain ⟨steps, hsteps, hspec⟩ := ih p' hs' horder
      refine ⟨⟨s, context, payload, result, s', batch⟩ :: steps, ?_, fun hnone hbehind => ?_⟩
      · simp only [capture, hcall, hsteps, Option.bind_eq_bind, Option.bind_some, Option.pure_def]
      obtain ⟨hstatus, hrest⟩ := List.forall_mem_cons.mp hnone
      obtain ⟨hhead, htail⟩ := List.forall_mem_cons.mp hbehind
      rcases hcases with hrejected | hstep | ⟨hhas, hstep⟩
      · exact absurd hrejected hstatus
      · -- the state and the rows are those of the messages to come
        obtain rfl : s' = s := hstep.after
        obtain rfl : batch = {} := hstep.batch
        obtain ⟨hchain, hrefused, haddressed⟩ := hspec hrest htail
        refine ⟨?_, List.forall_mem_cons.mpr ⟨fun _ => ⟨hstep, hstep.not_addressed hhead⟩,
          hrefused⟩, ?_⟩
        · rwa [List.filter_cons_of_neg (by simp [audited])]
        · rintro hmax ⟨e, he, haddr⟩
          rcases List.mem_cons.mp he with rfl | he
          · exact absurd (hstep.exhausted hhead haddr) hmax
          · obtain ⟨step, hmem, haudited⟩ := haddressed hmax ⟨e, he, haddr⟩
            exact ⟨step, List.mem_cons_of_mem _ hmem, haudited⟩
      · obtain ⟨hchain, hrefused, -⟩ := hspec hrest fun e he => hstep.behind_after (hfirst e he)
        have hidentity : s'.venue = s.venue ∧ s'.symbol = s.symbol := hstep.identity
        rw [hidentity.1, hidentity.2] at hrefused
        refine ⟨?_, List.forall_mem_cons.mpr ⟨fun hno => ?_, hrefused⟩, fun _ _ => ?_⟩
        · rw [List.filter_cons_of_pos (by exact hhas)]
          exact .cons hstep hchain
        · exact absurd (hhas.symm.trans hno) (by simp)
        · exact ⟨_, List.mem_cons_self, hhas⟩

theorem flatMap_eq_filter {α β : Type} {p : α → Bool} {f : α → List β} (l : List α)
    (h : ∀ x ∈ l, p x = false → f x = []) : l.flatMap f = (l.filter p).flatMap f := by
  induction l with
  | nil => rfl
  | cons x l ih =>
      obtain ⟨hx, hl⟩ := List.forall_mem_cons.mp h
      cases hp : p x with
      | true => rw [List.filter_cons_of_pos hp, List.flatMap_cons, List.flatMap_cons, ih hl]
      | false =>
          rw [List.filter_cons_of_neg (by simp [hp]), List.flatMap_cons, hx hp, List.nil_append,
            ih hl]

namespace ReplayRun

/-- What a pass shows: the result of the message, the state it left and the order-book
bytes so far. -/
def seen (run : ReplayRun) : EventProcessResult × Option SymbolState × Bytes :=
  (run.result.processError, run.state, run.output)

open MarketDataReplayReader CapturedStep in
/-- The loop over the rows of audited messages. -/
theorem loop_of_chain {json : Library} {target : Bytes} {s : SymbolState}
    {steps : List CapturedStep} (h : Chain json s steps) (run : ReplayRun) (fuel : Nat)
    {file : Option FileIdentity} {body : Bytes} (hparses : Parses file body (steps.map row) [])
    (hat : run.reader.At file body)
    (hstate : ∀ step ∈ steps.head?, replayState target step.row run.state = .ok s)
    (hopened : run.state.isSome = true ∨ steps ≠ []) (hfuel : steps.length < fuel) :
    ∃ result, run.loop json target fuel = some (result, run.output ++ orderBookBytes steps) ∧
      result.error = run.result.error ∧
      result.rowsRead = run.result.rowsRead + steps.length ∧
      result.rowsProcessed = run.result.rowsProcessed + steps.length ∧
      ∀ k, (run.passes json target fuel)[k]?.map seen = steps[k]?.map fun step =>
        (step.result, some step.after, run.output ++ orderBookBytes (steps.take (k + 1))) := by
  induction h generalizing run fuel file body with
  | nil s =>
      obtain ⟨fuel, rfl⟩ := Nat.exists_eq_succ_of_ne_zero (by omega : fuel ≠ 0)
      cases hparses
      obtain ⟨state, hsome⟩ := Option.isSome_iff_exists.mp (hopened.resolve_right (by simp))
      have hnext := next_of_empty hat
      have hstep : run.step json target = some (.inl (run.result, run.output)) := by
        have hread : run.reader.next = (.endOfFile, run.reader.next.2) := Prod.ext hnext rfl
        rw [step, produce, hread]
        simp [hsome]
      refine ⟨run.result, ?_, rfl, rfl, rfl, fun k => ?_⟩
      · simp [loop, hstep, orderBookBytes]
      · simp [passes, hstep]
  | @cons s step steps hstep hrest ih =>
      obtain ⟨fuel, rfl⟩ := Nat.exists_eq_succ_of_ne_zero (by omega : fuel ≠ 0)
      cases hparses with
      | cons htext hfollows hparses =>
          obtain ⟨reader, hread, hat'⟩ := next_record hat htext hfollows
          obtain ⟨processor, hcall⟩ := hstep.process run.processor
          have hrun := run.step_record target hread (hstate step rfl) hcall hstep.error hstep.status
          have hbytes : step.batch.replayed.orderBookBytes = step.batch.orderBookBytes := rfl
          obtain ⟨last, hloop, herror, hreadRows, hrows, hseen⟩ :=
            ih (run.advance reader processor step.after step.result step.batch.replayed) fuel
              hparses hat' (fun _ _ => rfl) (.inl rfl) (by simpa using hfuel)
          refine ⟨last, ?_, herror, ?_, ?_, fun k => ?_⟩
          · simp only [loop, hrun, Option.bind_eq_bind, Option.bind_some]
            rw [hloop, advance, hbytes, orderBookBytes, orderBookBytes, List.flatMap_cons,
              List.append_assoc]
          · rw [hreadRows, List.length_cons]
            simp only [advance]
            omega
          · rw [hrows, List.length_cons]
            simp only [advance]
            omega
          · simp only [passes, hrun]
            cases k with
            | zero =>
                simp [seen, advance, hbytes, orderBookBytes]
            | succ k =>
                simp only [List.getElem?_cons_succ, hseen, List.take_succ_cons]
                simp only [advance, hbytes, orderBookBytes, List.flatMap_cons, List.append_assoc]

end ReplayRun

open CapturedStep in
/-- Replaying what the processor audited, for a list of messages in lexicographic order of
their connection metadata none of which is rejected before audit. No audit row is refused
by the formatter; a message is audited unless its context is not of the symbol or the
sequence numbers are used up, and then it leaves the state and writes nothing. If any
message is of the symbol, replaying the audit file goes through the same results and
states and writes the same order-book rows. -/
theorem audit_replay_agreement (json : Library) {venue : PayloadVenue} {symbol : Bytes}
    {events : List (EventContext × Bytes)} (hsym : isNormalizedSymbol symbol = true)
    (horder : events.Pairwise fun a b => a.1.Before b.1) :
    ∃ s₀ steps, SymbolState.create venue symbol = some s₀ ∧
      ({} : EventProcessor).capture json events s₀ = some steps ∧
      ((∀ step ∈ steps, step.result.status ≠ .preAuditRejected) →
        (∀ step ∈ steps,
          (step.audited = true ∧ step.result.error = .none ∧
            step.batch.auditBytes = auditText step.row) ∨
          (step.audited = false ∧ step.Refused ∧
            (step.result.error = .invalidContext → ¬ step.context.Addressed venue symbol))) ∧
        ((∃ e ∈ events, e.1.Addressed venue symbol) →
          ∀ script, MarketDataReplayReader.Supplies script
              (marketDataCsvHeader ++ auditBytes steps) →
            ∃ result, replayMarketDataFile json script symbol =
                some (result, orderBookBytes steps) ∧ result.error = none ∧
              result.rowsRead = (steps.filter audited).length ∧
              result.rowsProcessed = (steps.filter audited).length ∧
              ∀ k, (replayPasses json script symbol)[k]?.map ReplayRun.seen =
                (steps.filter audited)[k]?.map fun step => (step.result, some step.after,
                  orderBookBytes ((steps.filter audited).take (k + 1))))) := by
  obtain ⟨id, hid⟩ := deriveInstrumentId_of_normalized hsym
  obtain ⟨s₀, hcreate⟩ : ∃ s₀, SymbolState.create venue symbol = some s₀ :=
    ⟨_, Option.map_eq_some_iff.mpr ⟨id, hid, rfl⟩⟩
  obtain ⟨-, rfl, rfl, hunobserved, -, hfirst⟩ := SymbolState.create_ok hcreate
  obtain ⟨steps, hsteps, hspec⟩ :=
    EventProcessor.capture_spec json {} (SymbolState.create_printable hcreate) horder
  refine ⟨s₀, steps, hcreate, hsteps, fun hnone => ?_⟩
  obtain ⟨hchain, hrefused, haddressed⟩ := hspec hnone fun _ _ hobs => by
    rw [hunobserved] at hobs
    cases hobs
  refine ⟨fun step hstep => ?_, fun haddr script hscript => ?_⟩
  · cases haudited : step.audited with
    | true =>
        obtain ⟨s, hreplayable⟩ := hchain.replayable (List.mem_filter.mpr ⟨hstep, haudited⟩)
        exact .inl ⟨rfl, hreplayable.error, hreplayable.auditRow⟩
    | false => exact .inr ⟨rfl, hrefused step hstep haudited⟩
  · obtain ⟨first, hmem, hfirstAudited⟩ := haddressed (by rw [hfirst]; decide) haddr
    have hne : steps.filter audited ≠ [] :=
      List.ne_nil_of_mem (List.mem_filter.mpr ⟨hmem, hfirstAudited⟩)
    have hempty : ∀ step ∈ steps, step.audited = false → step.batch = {} :=
      fun step hstep hno => (hrefused step hstep hno).1.batch
    have haudits : auditBytes steps = auditBytes (steps.filter audited) :=
      flatMap_eq_filter steps fun step hstep hno => by rw [hempty step hstep hno]; rfl
    have hbooks : orderBookBytes steps = orderBookBytes (steps.filter audited) :=
      flatMap_eq_filter steps fun step hstep hno => by rw [hempty step hstep hno]; rfl
    obtain ⟨hrows, hsorted⟩ := hchain.rows
    rw [haudits, hchain.auditBytes] at hscript
    obtain ⟨reader, hopen, hat, -⟩ := MarketDataReplayReader.openScript_header hscript
    have hparses := parses_auditText hsym none _ hrows (fun _ _ => trivial) hsorted
    have hbytes := congrArg List.length hat.delivers.bytes
    have hcount := length_le_auditText ((steps.filter audited).map row)
    rw [List.length_append] at hbytes
    rw [List.length_map] at hcount
    obtain ⟨result, hloop, herror, hread, hprocessed, hpasses⟩ := ReplayRun.loop_of_chain hchain
      { reader := reader }
      (reader.buffer.length + (MarketDataReplayReader.scriptBytes reader.script).length + 1)
      hparses hat (hchain.opens hcreate) (.inr hne) (by omega)
    refine ⟨result, ?_, herror, by simpa using hread, by simpa using hprocessed, ?_⟩
    · rw [replayMarketDataFile, hopen, hbooks]
      exact hloop
    · rw [replayPasses, hopen]
      exact hpasses

section Sample

open CapturedStep

private def auditedRefresh : Compact := .refresh 100 [("10", "1")] [("11", "2")]

private def auditedDiff : Compact := .diff 101 101 [("9", "5")] []

private def auditedLibrary : Library := .ofDocuments [auditedRefresh, auditedDiff]

private def auditedContext (kind : StreamKind) (sequence : UInt64) : EventContext :=
  { streamKind := kind, connectionSequence := sequence, symbol := ascii "BTCUSDT" }

/-- A message without a sequence number, a refresh and a differential event. -/
private def auditedEvents : List (EventContext × Bytes) :=
  [(auditedContext .trade 0, []), (auditedContext .depth5 1, auditedRefresh.text),
    (auditedContext .depthDiff 2, auditedDiff.text)]

private def capturedSteps (events : List (EventContext × Bytes)) : Option (List CapturedStep) :=
  (SymbolState.create .spot (ascii "BTCUSDT")).bind
    (({} : EventProcessor).capture auditedLibrary events)

theorem audit_replay_agreement_sample :
    ∃ steps, capturedSteps auditedEvents = some steps ∧ (steps.filter audited).length = 2 ∧
      ∀ script, MarketDataReplayReader.Supplies script
          (marketDataCsvHeader ++ auditBytes steps) →
        ∃ result, replayMarketDataFile auditedLibrary script (ascii "BTCUSDT") =
            some (result, orderBookBytes steps) ∧ result.error = none ∧
          result.rowsProcessed = 2 := by
  have hreport : (capturedSteps auditedEvents).map (fun steps =>
      ((steps.filter audited).length, steps.all fun step =>
        decide (step.result.status ≠ .preAuditRejected))) = some (2, true) := by
    decide +kernel
  obtain ⟨steps, hrun, hfacts⟩ := Option.map_eq_some_iff.mp hreport
  obtain ⟨hcount, hnone⟩ := Prod.mk.inj hfacts
  obtain ⟨s₀, hcreate, hsteps⟩ := Option.bind_eq_some_iff.mp hrun
  obtain ⟨s₀', steps', hcreate', hsteps', hreplay⟩ := audit_replay_agreement auditedLibrary
    (show isNormalizedSymbol (ascii "BTCUSDT") = true by decide)
    (show auditedEvents.Pairwise fun a b => a.1.Before b.1 by
      unfold auditedEvents EventContext.Before
      decide)
  obtain rfl := Option.some.inj (hcreate.symm.trans hcreate')
  obtain rfl := Option.some.inj (hsteps.symm.trans hsteps')
  obtain ⟨-, hscripts⟩ := hreplay fun step hstep => by
    simpa using List.all_eq_true.mp hnone step hstep
  refine ⟨steps, hrun, hcount, fun script hscript => ?_⟩
  obtain ⟨result, hfile, herror, -, hprocessed, -⟩ := hscripts
    ⟨(auditedContext .depth5 1, auditedRefresh.text), by simp [auditedEvents],
      ⟨rfl, rfl, rfl, by decide, by decide⟩⟩ script hscript
  exact ⟨result, hfile, herror, hprocessed.trans hcount⟩

/-- A message without a sequence number is refused, and an audit file without a row is
not replayed. -/
theorem audit_replay_of_nothing :
    ∃ s₀ step script result,
      SymbolState.create .spot (ascii "BTCUSDT") = some s₀ ∧
      ({} : EventProcessor).capture auditedLibrary [(auditedContext .trade 0, [])] s₀ =
        some [step] ∧
      step.result.status ≠ .preAuditRejected ∧ step.result.error = .invalidContext ∧
      MarketDataReplayReader.Supplies script (marketDataCsvHeader ++ auditBytes [step]) ∧
      replayMarketDataFile auditedLibrary script (ascii "BTCUSDT") = some (result, []) ∧
      result.error = some .emptyInput := by
  obtain ⟨s₀, hcreate⟩ : ∃ s₀, SymbolState.create .spot (ascii "BTCUSDT") = some s₀ :=
    Option.isSome_iff_exists.mp (by decide +kernel)
  have hinvalid : contextIsValid s₀ (auditedContext .trade 0) = false := by
    simp [contextIsValid, auditedContext]
  refine ⟨s₀, ⟨s₀, auditedContext .trade 0, [], { error := .invalidContext }, s₀, {}⟩,
    [.bytes marketDataCsvHeader],
    { error := some .emptyInput, logicalRecordNumber := 2 }, hcreate, ?_, by simp, rfl, ?_, ?_, rfl⟩
  · simp [EventProcessor.capture, EventProcessor.process, hinvalid]
  · refine ⟨by simp [auditBytes, EventRowBatch.auditBytes, MarketDataReplayReader.scriptBytes], ?_⟩
    intro answer hanswer
    obtain rfl := List.mem_singleton.mp hanswer
    exact .inr ⟨_, rfl, by decide, by decide⟩
  · decide +kernel

end Sample

end MarketCapture
