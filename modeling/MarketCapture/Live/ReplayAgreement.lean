import MarketCapture.Live.Pipeline
import MarketCapture.Processor.ReplayFile

/-! # Live capture and replay agree

A run of the pipeline against the replay of the audit rows it emitted for one
symbol. Live invalidations leave no audit row; `Agrees` says how far the replayed
state may be from the live one: the books are equal, or the live book is the
invalidated one and the audit rows to come will invalidate the replayed one too
before the next event reaches it.
-/

namespace MarketCapture

open Simdjson

inductive LiveAction where
  | message (message : WebSocketTextMessage)
  | invalidateAll

/-- One call of a run: the pipeline before it, and what it returned. -/
structure LiveStep where
  before : LiveEventPipeline
  action : LiveAction
  result : LivePipelineResult := {}
  output : EventRowBatch := {}

namespace LiveStep

def epoch (step : LiveStep) : UInt64 :=
  match step.action with
  | .message message => message.connectionEpoch
  | .invalidateAll => 0

/-- The call emitted a batch for the symbol at an index. -/
def audits (index : Nat) (step : LiveStep) : Bool :=
  decide (step.result.disposition = .batchReady) && decide (step.result.targetIndex = some index)

/-- The stream of the message was a differential one. -/
def ofDiff (step : LiveStep) : Bool :=
  decide (step.result.route.map LiveRoute.streamKind = some .depthDiff)

/-- The depth event of a message, with its stream. -/
def depth (json : Library) (step : LiveStep) : Option (StreamKind × SpotDepthEvent) :=
  match step.action with
  | .invalidateAll => none
  | .message message => do
      let envelope := LiveEnvelopeParser.parse json message.payload step.before.subscription
      let route ← envelope.route
      let payload ← envelope.payload
      let parsed := parsedMessage json (step.before.contextOf message route) payload
      return (route.streamKind, parsed.event.depth)

/-- A message of a differential stream that was rejected before audit while the live
book of the symbol was valid: an invalidation without an audit row. -/
def conceals (index : Nat) (s : SymbolState) (step : LiveStep) : Bool :=
  decide (step.result.disposition = .preAuditRejected) &&
    decide (step.result.targetIndex = some index) && step.ofDiff &&
    step.before.hasConnectionMetadata && decide (step.before.connectionEpoch = step.epoch) &&
    s.bookValid

/-- No depth event tells the invalidated book from the one that was kept before the audit
rows bring the two together: a later epoch, a schema-rejected differential event, a refresh
that both apply, or a gap or a crossing that invalidates the kept one. -/
def reveals (json : Library) (index : Nat) (epoch : UInt64) (kept : SymbolState) :
    List LiveStep → Bool
  | [] => true
  | step :: rest =>
      if !step.audits index then reveals json index epoch kept rest
      else if epoch < step.epoch then true
      else if step.result.event.hasBookStatus then
        match (step.depth json).bind fun event => applyDepth kept event.1 event.2 with
        | none => false
        | some (applied, _) =>
            match applied.status with
            | .appliedRefresh | .sequenceGap | .crossedBook => true
            | .staleDiff => reveals json index epoch kept rest
            -- the invalidated book applies the refresh, or ignores the differential event
            | .staleRefresh | .appliedDiff | .ignoredWhileInvalid => false
      else (decide (step.result.event.status = .schemaRejected) && step.ofDiff) ||
        reveals json index epoch kept rest

/-- Every invalidation a rejected message caused is shown by the later audit rows. -/
def shown (json : Library) (index : Nat) : List LiveStep → Bool
  | [] => true
  | step :: rest =>
      (step.before.states[index]?).all (fun s =>
        !step.conceals index s || reveals json index step.epoch s rest) && shown json index rest

/-- The audit rows emitted for a symbol. -/
def auditBytes (index : Nat) (steps : List LiveStep) : Bytes :=
  (steps.filter (audits index)).flatMap fun step => step.output.auditRow

/-- The order-book rows emitted for a symbol. -/
def orderBookBytes (index : Nat) (steps : List LiveStep) : Bytes :=
  (steps.filter (audits index)).flatMap fun step => step.output.orderBookBytes

end LiveStep

/-- `invalidate_all` is called at session ends: every later message belongs to a later
connection. -/
def EndsSessions (actions : List LiveAction) : Prop :=
  ∀ pre post, actions = pre ++ .invalidateAll :: post → ∀ m m', .message m ∈ pre →
    .message m' ∈ post → m.connectionEpoch < m'.connectionEpoch

def LiveEventPipeline.run (json : Library) :
    List LiveAction → LiveEventPipeline → Option (List LiveStep)
  | [], _ => some []
  | .invalidateAll :: actions, p => do
      let steps ← run json actions p.invalidateAll
      return { before := p, action := .invalidateAll } :: steps
  | .message message :: actions, p => do
      let (result, output, next) ← p.process json message
      let steps ← run json actions next
      return { before := p, action := .message message, result := result, output := output } :: steps

/-! ## The relation -/

open LiveStep

/-- The audit rows to come bring the book of `b`, which was kept, and the invalidated one
together. -/
structure Revealed (json : Library) (index : Nat) (steps : List LiveStep) (b : SymbolState) :
    Prop where
  observed : b.hasObservedConnection = true
  kept : ∃ kept : SymbolState, kept.SameBooks b ∧ b.venue = kept.venue ∧
    reveals json index b.currentConnectionEpoch kept steps = true

/-- The live state `a` and the replayed state `b` of a symbol, before the steps to come. -/
structure Agrees (json : Library) (index : Nat) (p : LiveEventPipeline) (steps : List LiveStep)
    (a b : SymbolState) : Prop where
  alike : a.Alike b
  idle : b.Idle
  behind : b.hasObservedConnection = true → a.hasObservedConnection = true ∧
    (b.currentConnectionEpoch < a.currentConnectionEpoch ∨
      b.currentConnectionEpoch = a.currentConnectionEpoch ∧
        b.lastConnectionSequence ≤ a.lastConnectionSequence)
  bound : a.hasObservedConnection = true → p.hasConnectionMetadata = true ∧
    a.currentConnectionEpoch ≤ p.connectionEpoch
  books : (a.SameBooks b ∧ (b.bookValid = true → b.hasObservedConnection = true ∧
      b.currentConnectionEpoch = p.connectionEpoch)) ∨
    (a.SameBooks b.invalidate ∧ Revealed json index steps b)

section Relation

variable {json : Library} {index : Nat} {p q : LiveEventPipeline} {steps : List LiveStep}
  {a b : SymbolState}

/-- What the first audited step of the symbol shows. -/
theorem Revealed.step {step : LiveStep} (h : Revealed json index (step :: steps) b)
    (haudits : step.audits index = true) :
    b.currentConnectionEpoch < step.epoch ∨
      (step.result.event.hasBookStatus = false ∧
        ((step.result.event.status = .schemaRejected ∧ step.ofDiff = true) ∨
          Revealed json index steps b)) ∨
      (step.result.event.hasBookStatus = true ∧ ∃ event applied candidate,
        step.depth json = some event ∧ applyDepth b event.1 event.2 = some (applied, candidate) ∧
        (applied.status ≠ .staleRefresh ∧ applied.status ≠ .appliedDiff ∧
          applied.status ≠ .ignoredWhileInvalid) ∧
        (applied.status = .staleDiff → Revealed json index steps b)) := by
  obtain ⟨hobs, kept, hsame, hvenue, hreveals⟩ := h
  simp only [reveals, haudits, Bool.not_true, Bool.false_eq_true, ↓reduceIte] at hreveals
  split at hreveals
  · rename_i hlater
    exact .inl hlater
  split at hreveals
  · rename_i hbook
    refine .inr (.inr ⟨hbook, ?_⟩)
    split at hreveals
    · cases hreveals
    · rename_i applied candidate hcall
      obtain ⟨event, hdepth, hcall⟩ := Option.bind_eq_some_iff.mp hcall
      obtain ⟨candidate', hcall', -⟩ := applyDepth_sameBooks hvenue hsame hcall
      refine ⟨event, applied, candidate', hdepth, hcall', ?_, fun hstale => ?_⟩
      · cases hstatus : applied.status <;> simp_all
      · rw [hstale] at hreveals
        exact ⟨hobs, kept, hsame, hvenue, hreveals⟩
  · rename_i hbook
    refine .inr (.inl ⟨by simpa using hbook, ?_⟩)
    simp only [Bool.or_eq_true, Bool.and_eq_true, decide_eq_true_eq] at hreveals
    exact hreveals.imp id fun hrest => ⟨hobs, kept, hsame, hvenue, hrest⟩

theorem Revealed.skip {step : LiveStep} (h : Revealed json index (step :: steps) b)
    (hquiet : step.audits index = false) : Revealed json index steps b := by
  obtain ⟨hobs, kept, hsame, hvenue, hreveals⟩ := h
  refine ⟨hobs, kept, hsame, hvenue, ?_⟩
  simpa [reveals, hquiet] using hreveals

/-- The state may change apart from its book. -/
theorem Revealed.of_sameBooks {b' : SymbolState} (h : Revealed json index steps b)
    (hsame : b.SameBooks b') (hvenue : b'.venue = b.venue) (hobs : b'.hasObservedConnection = true)
    (hepoch : b'.currentConnectionEpoch = b.currentConnectionEpoch) :
    Revealed json index steps b' := by
  obtain ⟨-, kept, hkept, hkeptVenue, hreveals⟩ := h
  exact ⟨hobs, kept, hkept.trans hsame, hvenue.trans hkeptVenue, hepoch ▸ hreveals⟩

theorem Agrees.epoch_le (h : Agrees json index p steps a b) (hobs : b.hasObservedConnection = true) :
    p.hasConnectionMetadata = true ∧ b.currentConnectionEpoch ≤ a.currentConnectionEpoch ∧
      b.currentConnectionEpoch ≤ p.connectionEpoch := by
  obtain ⟨hobs', hle⟩ := h.behind hobs
  obtain ⟨hknown, hbound⟩ := h.bound hobs'
  have hba : b.currentConnectionEpoch ≤ a.currentConnectionEpoch := by
    rcases hle with hlt | ⟨heq, -⟩
    · exact UInt64.le_of_lt hlt
    · exact heq ▸ UInt64.le_refl _
  exact ⟨hknown, hba, UInt64.le_trans hba hbound⟩

/-- The live book is invalidated without an audit row. -/
theorem Agrees.invalidate (h : Agrees json index p steps a b)
    (hbound : a.hasObservedConnection = true → q.hasConnectionMetadata = true ∧
      a.currentConnectionEpoch ≤ q.connectionEpoch)
    (hreveals : b.bookValid = true → b.hasObservedConnection = true →
      b.currentConnectionEpoch = p.connectionEpoch → a.SameBooks b →
      Revealed json index steps b) :
    Agrees json index q steps a.invalidate b := by
  have hvenue : b.venue = a.venue := h.alike.venue
  refine ⟨?_, h.idle, ?_, ?_, ?_⟩
  · have hinv := a.alike_invalidate
    exact ⟨h.alike.symbol.trans hinv.symbol.symm, h.alike.venue.trans hinv.venue.symm,
      h.alike.instrumentId.trans hinv.instrumentId.symm,
      h.alike.sequenceNumber.trans hinv.sequenceNumber.symm⟩
  · rw [SymbolState.invalidate_observed, SymbolState.invalidate_epoch,
      SymbolState.invalidate_sequence]
    exact h.behind
  · rw [SymbolState.invalidate_observed, SymbolState.invalidate_epoch]
    exact hbound
  · rcases h.books with ⟨hsame, hvalid⟩ | ⟨hsame, hrev⟩
    · have hinv := hsame.invalidate hvenue
      cases hb : b.bookValid with
      | false =>
          rw [h.idle hb] at hinv
          exact .inl ⟨hinv, by simp⟩
      | true =>
          obtain ⟨hobs, hepoch⟩ := hvalid hb
          exact .inr ⟨hinv, hreveals hb hobs hepoch hsame⟩
    · have hinv := hsame.invalidate (by rw [SymbolState.invalidate_venue]; exact hvenue)
      rw [SymbolState.invalidate_invalidate] at hinv
      exact .inr ⟨hinv, hrev⟩

/-- Nothing happens to either state. -/
theorem Agrees.skip {steps' : List LiveStep} (h : Agrees json index p steps a b)
    (hknown : p.hasConnectionMetadata = true → q.hasConnectionMetadata = true ∧
      q.connectionEpoch = p.connectionEpoch)
    (hreveals : Revealed json index steps b → Revealed json index steps' b) :
    Agrees json index q steps' a b := by
  refine ⟨h.alike, h.idle, h.behind, ?_, ?_⟩
  · intro hobs
    obtain ⟨hp, hle⟩ := h.bound hobs
    exact ⟨(hknown hp).1, (hknown hp).2 ▸ hle⟩
  · rcases h.books with ⟨hsame, hvalid⟩ | ⟨hsame, hrev⟩
    · refine .inl ⟨hsame, fun hv => ?_⟩
      obtain ⟨hobs, hepoch⟩ := hvalid hv
      exact ⟨hobs, hepoch.trans (hknown (h.epoch_le hobs).1).2.symm⟩
    · exact .inr ⟨hsame, hreveals hrev⟩

theorem epochChanged_iff {s : SymbolState} {context : EventContext} :
    s.epochChanged context = true ↔ s.hasObservedConnection = true ∧
      s.currentConnectionEpoch < context.connectionEpoch := by
  simp [SymbolState.epochChanged]

variable {context : EventContext}

/-- The live state commits a message that was not audited. -/
theorem Agrees.commit (h : Agrees json index p steps a b) {s : SymbolState}
    (hcontext : contextIsValid s context = true)
    (hs : s.hasObservedConnection = a.hasObservedConnection ∧
      s.currentConnectionEpoch = a.currentConnectionEpoch ∧
      s.lastConnectionSequence = a.lastConnectionSequence)
    (hknown : p.hasConnectionMetadata = true)
    (hepoch : p.connectionEpoch = context.connectionEpoch) :
    Agrees json index p steps (a.commitContext context) b := by
  refine ⟨⟨h.alike.symbol, h.alike.venue, h.alike.instrumentId, h.alike.sequenceNumber⟩, h.idle,
    ?_, ?_, ?_⟩
  · intro hobs
    obtain ⟨hobs', hle⟩ := h.behind hobs
    have hlex := (contextIsValid_iff.mp hcontext).2 (hs.1.trans hobs')
    rw [hs.2.1, hs.2.2] at hlex
    refine ⟨rfl, ?_⟩
    simp only [SymbolState.commitContext, UInt64.lt_iff_toNat_lt, UInt64.le_iff_toNat_le,
      ← UInt64.toNat_inj] at hlex hle ⊢
    omega
  · intro _
    exact ⟨hknown, hepoch ▸ UInt64.le_refl _⟩
  · rcases h.books with ⟨hsame, hvalid⟩ | ⟨hsame, hrev⟩
    · exact .inl ⟨⟨hsame.spot, hsame.usdm⟩, hvalid⟩
    · exact .inr ⟨⟨hsame.spot, hsame.usdm⟩, hrev⟩

/-- A payload rejected before audit. -/
theorem Agrees.payloadRejected (h : Agrees json index p steps a b) (rejectedDiff : Bool)
    (hcontext : contextIsValid a context = true) (hknown : p.hasConnectionMetadata = true)
    (hepoch : p.connectionEpoch = context.connectionEpoch)
    (hreveals : rejectedDiff = true → b.bookValid = true → b.hasObservedConnection = true →
      b.currentConnectionEpoch = p.connectionEpoch → a.SameBooks b →
      Revealed json index steps b) :
    Agrees json index p steps ((a.passed context rejectedDiff).commitContext context) b := by
  have hpassed : Agrees json index p steps (a.passed context rejectedDiff) b := by
    unfold SymbolState.passed
    split
    · rename_i hinv
      refine h.invalidate h.bound fun hv hobs hb hsame => ?_
      cases hdiff : rejectedDiff with
      | true => exact hreveals hdiff hv hobs hb hsame
      | false =>
          -- a valid replayed book is of the epoch of the message, so the live state is as well
          rw [hdiff, Bool.or_false, epochChanged_iff] at hinv
          have hle := (h.epoch_le hobs).2.1
          rw [hb, hepoch] at hle
          exact absurd hinv.2 (UInt64.not_lt.mpr hle)
    · exact h
  refine hpassed.commit hcontext ?_ hknown hepoch
  rcases a.passed_cases context rejectedDiff with heq | ⟨heq, -⟩ <;> rw [heq]
  · exact ⟨a.invalidate_observed.symm, a.invalidate_epoch.symm, a.invalidate_sequence.symm⟩
  · exact ⟨rfl, rfl, rfl⟩

/-- A message reaches equal books. -/
theorem Agrees.entered_of_same (h : Agrees json index p steps a b)
    (hepoch : p.connectionEpoch = context.connectionEpoch) (hsame : a.SameBooks b)
    (hvalid : b.bookValid = true → b.hasObservedConnection = true ∧
      b.currentConnectionEpoch = p.connectionEpoch) :
    (a.entered context).SameBooks (b.entered context) := by
  have hinv := hsame.invalidate h.alike.venue
  cases hb : b.bookValid with
  | true =>
      obtain ⟨hobs, heq⟩ := hvalid hb
      have hle := (h.epoch_le hobs).2.1
      rw [heq, hepoch] at hle
      have hea : a.epochChanged context = false := by
        rw [Bool.eq_false_iff, ne_eq, epochChanged_iff]
        rintro ⟨-, hlt⟩
        exact absurd hlt (UInt64.not_lt.mpr hle)
      have heb : b.epochChanged context = false := by
        rw [Bool.eq_false_iff, ne_eq, epochChanged_iff, heq, hepoch]
        rintro ⟨-, hlt⟩
        exact UInt64.lt_irrefl _ hlt
      simp only [SymbolState.entered, hea, heb, Bool.false_eq_true, ↓reduceIte]
      exact hsame
  | false =>
      -- invalidating changes neither book
      have hbi := h.idle hb
      have hai : a.SameBooks a.invalidate := by
        have hback := hinv.symm
        rw [hbi] at hback
        exact hsame.trans hback
      have hea : a.SameBooks (a.entered context) := by
        unfold SymbolState.entered
        split
        · exact hai
        · exact .refl a
      have heb : b.entered context = b := by
        unfold SymbolState.entered
        split
        · exact hbi
        · rfl
      rw [heb]
      exact hea.symm.trans hsame

/-- A message reaches an invalidated live book, whatever its epoch. -/
theorem Agrees.entered_of_apart (h : Agrees json index p steps a b)
    (hsame : a.SameBooks b.invalidate) : (a.entered context).SameBooks b.invalidate := by
  unfold SymbolState.entered
  split
  · have hinv := hsame.invalidate (by rw [SymbolState.invalidate_venue]; exact h.alike.venue)
    rwa [SymbolState.invalidate_invalidate] at hinv
  · exact hsame

theorem entered_of_epoch_eq (h : b.currentConnectionEpoch = context.connectionEpoch) :
    b.entered context = b := by
  have hunchanged : b.epochChanged context = false := by
    rw [Bool.eq_false_iff, ne_eq, epochChanged_iff, h]
    rintro ⟨-, hlt⟩
    exact UInt64.lt_irrefl _ hlt
  simp [SymbolState.entered, hunchanged]

/-- A message of a later epoch reaches invalidated books. -/
theorem Agrees.entered_of_later (h : Agrees json index p steps a b) (hsame : a.SameBooks b.invalidate)
    (hobs : b.hasObservedConnection = true)
    (hlater : b.currentConnectionEpoch < context.connectionEpoch) :
    (a.entered context).SameBooks (b.entered context) := by
  have heb : b.entered context = b.invalidate := by
    simp [SymbolState.entered, epochChanged_iff.mpr ⟨hobs, hlater⟩]
  rw [heb]
  exact h.entered_of_apart hsame

/-- The books after an audited message that did not reach them. -/
theorem Agrees.passed {step : LiveStep} {rest : List LiveStep} (rejectedDiff : Bool)
    (h : Agrees json index p (step :: rest) a b) (haudits : step.audits index = true)
    (hepoch : p.connectionEpoch = context.connectionEpoch)
    (hstep : step.epoch = context.connectionEpoch) (hcontext : contextIsValid b context = true)
    (hrejected : rejectedDiff = false →
      ¬ (step.result.event.status = .schemaRejected ∧ step.ofDiff = true))
    (hbook : step.result.event.hasBookStatus = false) :
    (a.passed context rejectedDiff).SameBooks (b.passed context rejectedDiff) ∨
      ((a.passed context rejectedDiff).SameBooks b.invalidate ∧
        b.passed context rejectedDiff = b ∧
        b.currentConnectionEpoch = context.connectionEpoch ∧ Revealed json index rest b) := by
  cases hdiff : rejectedDiff with
  | true =>
      simp only [SymbolState.passed, Bool.or_true, ↓reduceIte]
      rcases h.books with ⟨hsame, -⟩ | ⟨hsame, -⟩
      · exact .inl (hsame.invalidate h.alike.venue)
      · have hinv := hsame.invalidate (by rw [SymbolState.invalidate_venue]; exact h.alike.venue)
        rw [SymbolState.invalidate_invalidate] at hinv
        exact .inl hinv
  | false =>
      rw [← SymbolState.entered_eq_passed, ← SymbolState.entered_eq_passed]
      rcases h.books with ⟨hsame, hvalid⟩ | ⟨hsame, hrev⟩
      · exact .inl (h.entered_of_same hepoch hsame hvalid)
      · rcases (contextIsValid_iff.mp hcontext).2 hrev.observed with hlt | ⟨heq, -⟩
        · exact .inl (h.entered_of_later hsame hrev.observed hlt)
        · rcases hrev.step haudits with hlater | ⟨-, hschema | hrest⟩ | ⟨hyes, -⟩
          · rw [hstep, heq] at hlater
            exact absurd hlater (UInt64.lt_irrefl _)
          · exact absurd hschema (hrejected hdiff)
          · exact .inr ⟨h.entered_of_apart hsame, entered_of_epoch_eq heq, heq, hrest⟩
          · rw [hbook] at hyes
            cases hyes

/-- An audited message: replaying its row writes the same, and leaves the states as close. -/
theorem Agrees.audited {step : LiveStep} {rest : List LiveStep} {a' : SymbolState}
    {payload : Bytes} {parsed : SpotParseResult} {batch : EventRowBatch}
    (h : Agrees json index p (step :: rest) a b) (haudits : step.audits index = true)
    (hknown : p.hasConnectionMetadata = true)
    (hepoch : p.connectionEpoch = context.connectionEpoch)
    (hstep : step.epoch = context.connectionEpoch)
    (hkind : step.ofDiff = true → context.streamKind = .depthDiff)
    (hdepth : step.depth json = some (context.streamKind, parsed.event.depth))
    (hcontext : contextIsValid a context = true)
    (hlive : processParsed a context payload .liveCapture parsed =
      some (step.result.event, a', batch))
    (herror : step.result.event.error = .none)
    (hstatus : step.result.event.status ≠ .preAuditRejected) :
    contextIsValid b context = true ∧ ∃ event' b',
      processParsed b context payload .replay parsed = some (event', b', batch.replayed) ∧
      event'.error = .none ∧ event'.status ≠ .preAuditRejected ∧
      b'.Committed context ∧ Agrees json index p rest a' b' := by
  have hcontext' := contextIsValid_of_alike h.alike hcontext h.behind
  refine ⟨hcontext', ?_⟩
  -- what is left once the states and their books after the message are known
  have finish : ∀ b', a'.Alike b' → a'.Committed context → b'.Committed context → b'.Idle →
      (a'.SameBooks b' ∨ a'.SameBooks b'.invalidate ∧ Revealed json index rest b') →
      Agrees json index p rest a' b' := by
    intro b' halike hca hcb hidle hbooks
    refine ⟨halike, hidle, fun _ => ?_, fun _ => ?_, ?_⟩
    · refine ⟨hca.observed, .inr ⟨hcb.epoch.trans hca.epoch.symm, ?_⟩⟩
      rw [hcb.sequence, hca.sequence]
      exact UInt64.le_refl _
    · exact ⟨hknown, hca.epoch ▸ hepoch ▸ UInt64.le_refl _⟩
    · exact hbooks.imp (fun hsame => ⟨hsame, fun _ => ⟨hcb.observed, hcb.epoch.trans hepoch.symm⟩⟩) id
  have hreached : (step.result.event.hasBookStatus = true →
        (a.entered context).SameBooks (b.entered context)) ∨
      (step.result.event.hasBookStatus = true ∧ a.SameBooks b.invalidate ∧
        b.currentConnectionEpoch = context.connectionEpoch ∧
        Revealed json index (step :: rest) b) := by
    rcases h.books with ⟨hsame, hvalid⟩ | ⟨hsame, hrev⟩
    · exact .inl fun _ => h.entered_of_same hepoch hsame hvalid
    · rcases (contextIsValid_iff.mp hcontext').2 hrev.observed with hlt | ⟨heq, -⟩
      · exact .inl fun _ => h.entered_of_later hsame hrev.observed hlt
      · cases hbook : step.result.event.hasBookStatus with
        | false => exact .inl nofun
        | true => exact .inr ⟨rfl, hsame, heq, hrev⟩
  rcases hreached with hbooks | ⟨hbook, hsame, heq, hrev⟩
  · obtain ⟨b', hreplay, halike, hca, hcb, htwin, -, -⟩ :=
      processParsed_twin h.alike hbooks hlive herror hstatus
    refine ⟨_, b', hreplay, herror, hstatus, hcb, ?_⟩
    cases htwin with
    | booked _ hsame hidle => exact finish b' halike hca hcb (hidle h.idle) (.inl hsame)
    | passed hbook ha' hb' =>
        have hidle : b'.Idle := hb' ▸ (h.idle.passed context _).commitContext context
        refine finish b' halike hca hcb hidle ?_
        have hpassed := h.passed (decide (step.result.event.status = .schemaRejected) &&
          decide (context.streamKind = .depthDiff)) haudits hepoch hstep hcontext' (by
            rintro hno ⟨hschema, hdiff⟩
            simp [hschema, hkind hdiff] at hno) hbook
        rcases hpassed with hsame | ⟨hsame, hkept, heq, hrest⟩
        · left
          rw [ha', hb']
          exact ⟨hsame.spot, hsame.usdm⟩
        · right
          rw [hkept] at hb'
          refine ⟨?_, hrest.of_sameBooks (hb' ▸ ⟨rfl, rfl⟩) (hb' ▸ rfl) hcb.observed
            (hcb.epoch.trans heq.symm)⟩
          rw [ha', hb', SymbolState.commitContext_invalidate]
          exact ⟨hsame.spot, hsame.usdm⟩
  · -- the live book is invalid, the replayed one is not, and a depth event reaches both
    rcases hrev.step haudits with hlater | ⟨hno, -⟩ | ⟨-, event, applied, candidate, hevent, hcall,
      hmeets, hrest⟩
    · rw [hstep, heq] at hlater
      exact absurd hlater (UInt64.lt_irrefl _)
    · rw [hbook] at hno
      cases hno
    · obtain rfl := Option.some.inj (hevent.symm.trans hdepth)
      obtain ⟨event', b', hreplay, herror', hstatus', halike, hca, hcb, hidle, hbooks⟩ :=
        processParsed_diverged h.alike h.idle (entered_of_epoch_eq heq) (h.entered_of_apart hsame)
          hlive herror hstatus hbook hcall hmeets
      refine ⟨event', b', hreplay, herror', hstatus', hcb, finish b' halike hca hcb hidle ?_⟩
      refine hbooks.imp id ?_
      rintro ⟨hstale, hsame', hkept⟩
      refine ⟨hsame', (hrest hstale).of_sameBooks (hkept ▸ ⟨rfl, rfl⟩) (hkept ▸ rfl) hcb.observed
        (hcb.epoch.trans heq.symm)⟩

end Relation

/-! ## Runs -/

theorem reveals_of_later (json : Library) (index : Nat) (epoch : UInt64) (kept : SymbolState)
    (steps : List LiveStep)
    (h : ∀ step ∈ steps, step.audits index = true → epoch < step.epoch) :
    reveals json index epoch kept steps = true := by
  induction steps with
  | nil => rfl
  | cons step rest ih =>
      have hrest := ih fun step' h' => h step' (by simp [h'])
      unfold reveals
      cases haudits : step.audits index with
      | false => exact hrest
      | true => simp [h step (by simp) haudits]

theorem Revealed.of_later {json : Library} {index : Nat} {steps : List LiveStep} {b : SymbolState}
    (hobs : b.hasObservedConnection = true)
    (h : ∀ step ∈ steps, step.audits index = true → b.currentConnectionEpoch < step.epoch) :
    Revealed json index steps b :=
  ⟨hobs, b, .refl b, rfl, reveals_of_later json index _ b steps h⟩

namespace LiveEventPipeline

variable {json : Library}

theorem Ok.run_total (json : Library) {p : LiveEventPipeline} (h : p.Ok) (actions : List LiveAction) :
    ∃ steps, p.run json actions = some steps := by
  induction actions generalizing p with
  | nil => exact ⟨[], rfl⟩
  | cons action actions ih =>
      cases action with
      | invalidateAll =>
          obtain ⟨steps, hsteps⟩ := ih h.invalidateAll
          exact ⟨_, by simp only [run, hsteps, Option.bind_eq_bind, Option.bind_some]; rfl⟩
      | message message =>
          have hreturns : ∃ result batch p', p.process json message = some (result, batch, p') ∧
              p'.Ok := by
            rcases process_cases json h message with ⟨error, heq⟩ |
              ⟨-, result, batch, p', heq, hok, -⟩
            · exact ⟨_, _, _, heq, h⟩
            · exact ⟨_, _, _, heq, hok⟩
          obtain ⟨result, batch, p', heq, hok⟩ := hreturns
          obtain ⟨steps, hsteps⟩ := ih hok
          exact ⟨_, by simp only [run, heq, hsteps, Option.bind_eq_bind, Option.bind_some]; rfl⟩

/-- The first call of a run that begins with a message. -/
theorem run_message {p p' : LiveEventPipeline} {message : WebSocketTextMessage}
    {actions : List LiveAction} {steps : List LiveStep} {result : LivePipelineResult}
    {batch : EventRowBatch} (hprocess : p.process json message = some (result, batch, p'))
    (h : p.run json (.message message :: actions) = some steps) :
    ∃ rest, p'.run json actions = some rest ∧
      steps = ⟨p, .message message, result, batch⟩ :: rest := by
  simp only [run, hprocess, Option.bind_eq_bind, Option.bind_some, Option.bind_eq_some_iff] at h
  obtain ⟨rest, hrest, heq⟩ := h
  exact ⟨rest, hrest, (Option.some.inj heq).symm⟩

theorem run_invalidateAll {p : LiveEventPipeline} {actions : List LiveAction}
    {steps : List LiveStep} (h : p.run json (.invalidateAll :: actions) = some steps) :
    ∃ rest, p.invalidateAll.run json actions = some rest ∧
      steps = { before := p, action := .invalidateAll } :: rest := by
  simp only [run, Option.bind_eq_bind, Option.bind_eq_some_iff] at h
  obtain ⟨rest, hrest, heq⟩ := h
  exact ⟨rest, hrest, (Option.some.inj heq).symm⟩

/-- An audited step is a message of the run, not of an earlier epoch. -/
theorem run_audits {p : LiveEventPipeline} (hok : p.Ok) {actions : List LiveAction}
    {steps : List LiveStep} (h : p.run json actions = some steps) {index : Nat} {step : LiveStep}
    (hstep : step ∈ steps) (haudits : step.audits index = true) :
    (∃ message, .message message ∈ actions ∧ step.epoch = message.connectionEpoch) ∧
      (p.hasConnectionMetadata = true → p.connectionEpoch ≤ step.epoch) := by
  induction actions generalizing p steps with
  | nil =>
      obtain rfl := Option.some.inj h
      cases hstep
  | cons action actions ih =>
      cases action with
      | invalidateAll =>
          obtain ⟨rest, hrest, rfl⟩ := run_invalidateAll h
          rcases List.mem_cons.mp hstep with rfl | hstep
          · simp [audits] at haudits
          · obtain ⟨⟨message, hmem, heq⟩, hle⟩ := ih hok.invalidateAll hrest hstep
            exact ⟨⟨message, by simp [hmem], heq⟩, hle⟩
      | message message =>
          have hnext : ∃ result batch p', p.process json message = some (result, batch, p') ∧ p'.Ok ∧
              (p.hasConnectionMetadata = true → p'.hasConnectionMetadata = true ∧
                p.connectionEpoch ≤ p'.connectionEpoch) ∧
              (result.disposition = .batchReady → p.hasConnectionMetadata = true →
                p.connectionEpoch ≤ message.connectionEpoch) := by
            rcases process_cases json hok message with ⟨error, heq⟩ |
              ⟨hvalid, result, batch, p', heq, hok', hsame, -⟩
            · exact ⟨_, _, _, heq, hok, fun hp => ⟨hp, UInt64.le_refl _⟩, nofun⟩
            · refine ⟨_, _, _, heq, hok', fun hp => ?_,
                fun _ hp => epoch_le_of_validMessageMetadata hvalid hp⟩
              exact ⟨hsame.known, hsame.epoch ▸ epoch_le_of_validMessageMetadata hvalid hp⟩
          obtain ⟨result, batch, p', heq, hok', hlater, hready⟩ := hnext
          obtain ⟨rest, hrest, rfl⟩ := run_message heq h
          rcases List.mem_cons.mp hstep with rfl | hstep
          · simp only [audits, Bool.and_eq_true, decide_eq_true_eq] at haudits
            exact ⟨⟨message, by simp, rfl⟩, hready haudits.1⟩
          · obtain ⟨⟨message', hmem, heq'⟩, hle⟩ := ih hok' hrest hstep
            refine ⟨⟨message', by simp [hmem], heq'⟩, fun hp => ?_⟩
            exact UInt64.le_trans (hlater hp).2 (hle (hlater hp).1)

end LiveEventPipeline

/-- `EndsSessions` seen from the pipeline that takes the actions. -/
def EndsAfter (p : LiveEventPipeline) (actions : List LiveAction) : Prop :=
  ∀ pre post, actions = pre ++ .invalidateAll :: post → ∀ m', .message m' ∈ post →
    (p.hasConnectionMetadata = true → p.connectionEpoch < m'.connectionEpoch) ∧
    ∀ m, .message m ∈ pre → m.connectionEpoch < m'.connectionEpoch

theorem EndsAfter.message {p p' : LiveEventPipeline} {m : WebSocketTextMessage}
    {actions : List LiveAction} (h : EndsAfter p (.message m :: actions))
    (hp' : p' = p ∨ p'.connectionEpoch = m.connectionEpoch) : EndsAfter p' actions := by
  rintro pre post rfl m' hm'
  obtain ⟨hlater, hpre⟩ := h (.message m :: pre) post rfl m' hm'
  refine ⟨fun hknown => ?_, fun m₁ h₁ => hpre m₁ (by simp [h₁])⟩
  rcases hp' with rfl | heq
  · exact hlater hknown
  · rw [heq]
    exact hpre m (by simp)

theorem EndsAfter.invalidateAll {p : LiveEventPipeline} {actions : List LiveAction}
    (h : EndsAfter p (.invalidateAll :: actions)) : EndsAfter p.invalidateAll actions := by
  rintro pre post rfl m' hm'
  obtain ⟨hlater, hpre⟩ := h (.invalidateAll :: pre) post rfl m' hm'
  exact ⟨hlater, fun m₁ h₁ => hpre m₁ (by simp [h₁])⟩

/-- The rows emitted for a symbol, and their replay from the state `b`. -/
structure Emits (json : Library) (index : Nat) (venue : PayloadVenue) (symbol : Bytes)
    (steps : List LiveStep) (b : SymbolState) (rows : List MarketDataCsvRow) : Prop where
  bytes : auditBytes index steps = (rows.map auditText).flatten
  accepted : ∀ row ∈ rows, AuditRow venue symbol row
  order : rows.IsChain MarketDataCsvRow.Before
  first : ∀ row ∈ rows.head?, b.hasObservedConnection = true →
    b.currentConnectionEpoch < row.connectionEpoch ∨
      b.currentConnectionEpoch = row.connectionEpoch ∧
        b.lastConnectionSequence < row.connectionSequence
  replays : Replays json b rows (orderBookBytes index steps)

section Emission

variable {json : Library} {index : Nat} {venue : PayloadVenue} {symbol : Bytes}
  {steps : List LiveStep} {step : LiveStep} {b b' : SymbolState} {rows : List MarketDataCsvRow}

theorem Emits.skip (h : Emits json index venue symbol steps b rows)
    (hstep : step.audits index = false) : Emits json index venue symbol (step :: steps) b rows := by
  refine ⟨?_, h.accepted, h.order, h.first, ?_⟩
  · simpa [auditBytes, hstep] using h.bytes
  · simpa [orderBookBytes, hstep] using h.replays

/-- The replay takes the audit row of a step and goes on in `b'`. -/
structure Taken (json : Library) (index : Nat) (venue : PayloadVenue) (symbol : Bytes)
    (step : LiveStep) (b b' : SymbolState) (context : EventContext) (payload : Bytes) : Prop where
  audits : step.audits index = true
  valid : contextIsValid b context = true
  committed : b'.Committed context
  row : AuditRow venue symbol (auditRowOf context payload)
  text : step.output.auditRow = auditText (auditRowOf context payload)
  replay : ∃ event', processParsed b context payload .replay (parsedMessage json context payload) =
      some (event', b', step.output.replayed) ∧
    event'.error = .none ∧ event'.status ≠ .preAuditRejected

theorem Emits.audited {context : EventContext} {payload : Bytes}
    (h : Emits json index venue symbol steps b' rows)
    (htaken : Taken json index venue symbol step b b' context payload) :
    Emits json index venue symbol (step :: steps) b (auditRowOf context payload :: rows) := by
  refine ⟨?_, ?_, ?_, ?_, ?_⟩
  · have hbytes := h.bytes
    simp only [auditBytes] at hbytes
    simp [auditBytes, htaken.audits, hbytes, htaken.text]
  · intro row' hrow'
    rcases List.mem_cons.mp hrow' with rfl | hrow'
    · exact htaken.row
    · exact h.accepted row' hrow'
  · cases rows with
    | nil => simp
    | cons second rows =>
        refine List.isChain_cons_cons.mpr ⟨?_, h.order⟩
        have hfirst := h.first second rfl htaken.committed.observed
        rw [htaken.committed.epoch, htaken.committed.sequence] at hfirst
        exact hfirst
  · intro row' hrow' hobs
    obtain rfl := Option.some.inj hrow'
    exact (contextIsValid_iff.mp htaken.valid).2 hobs
  · have hbytes : orderBookBytes index (step :: steps) =
        step.output.replayed.orderBookBytes ++ orderBookBytes index steps := by
      simp only [orderBookBytes, List.filter_cons, htaken.audits, ↓reduceIte, List.flatMap_cons]
      rfl
    rw [hbytes]
    obtain ⟨event', hreplay, herror, hstatus⟩ := htaken.replay
    refine .cons (fun processor => ?_) herror hstatus h.replays
    obtain ⟨processor', heq⟩ := processor.process_eq json payload .replay htaken.valid
    exact ⟨processor', heq.trans (by rw [hreplay]; rfl)⟩

end Emission

/-- A message admitted by the pipeline: the relation holds with the books it finds. -/
theorem Agrees.receive {json : Library} {index : Nat} {p p' : LiveEventPipeline}
    {message : WebSocketTextMessage} {result : LivePipelineResult} {batch : EventRowBatch}
    {actions : List LiveAction} {rest : List LiveStep} {a b : SymbolState} (hok' : p'.Ok)
    (hvalid : p.validMessageMetadata message = true) (hsame : (p.receive message).SameMetadata p')
    (hrest : p'.run json actions = some rest) (hstate : p.states[index]? = some a)
    (h : Agrees json index p (⟨p, .message message, result, batch⟩ :: rest) a b) :
    ∃ a₁, (p.receive message).states[index]? = some a₁ ∧
      (a₁.bookValid = true → a₁ = a ∧
        (p.hasConnectionMetadata = true → p.connectionEpoch = message.connectionEpoch)) ∧
      Agrees json index (p.receive message) (⟨p, .message message, result, batch⟩ :: rest) a₁ b := by
  by_cases hnew : (p.hasConnectionMetadata && decide (message.connectionEpoch > p.connectionEpoch)) =
      true
  · have hreceived : (p.receive message).states = p.states.map SymbolState.invalidate := by
      simp only [LiveEventPipeline.receive, hnew, ↓reduceIte, LiveEventPipeline.invalidateAll]
    refine ⟨a.invalidate, by rw [hreceived, List.getElem?_map, hstate]; rfl, ?_, ?_⟩
    · intro hv
      simp [SymbolState.bookValid, TopFiveBook.invalidate] at hv
    · simp only [Bool.and_eq_true, decide_eq_true_eq] at hnew
      refine h.invalidate (fun hobs => ⟨rfl, ?_⟩) fun _ hobs hepoch _ => ?_
      · exact UInt64.le_trans (h.bound hobs).2 (UInt64.le_of_lt hnew.2)
      · refine .of_later hobs fun step hstep haudits => ?_
        rw [hepoch]
        rcases List.mem_cons.mp hstep with rfl | hstep
        · exact hnew.2
        · have hle := (LiveEventPipeline.run_audits hok' hrest hstep haudits).2 hsame.known
          rw [hsame.epoch] at hle
          exact UInt64.lt_of_lt_of_le hnew.2 hle
  · have hreceived : (p.receive message).states = p.states := by
      simp only [LiveEventPipeline.receive, hnew, Bool.false_eq_true, ↓reduceIte]
    have hequal : p.hasConnectionMetadata = true → p.connectionEpoch = message.connectionEpoch := by
      intro hknown
      simp only [hknown, Bool.true_and, decide_eq_true_eq, gt_iff_lt] at hnew
      exact UInt64.le_antisymm (LiveEventPipeline.epoch_le_of_validMessageMetadata hvalid hknown)
        (UInt64.not_lt.mp hnew)
    refine ⟨a, by rw [hreceived, hstate], fun _ => ⟨rfl, hequal⟩, ?_⟩
    exact h.skip (fun hknown => ⟨rfl, (hequal hknown).symm⟩) id

/-- The depth event of an audited message is the one the pipeline has parsed. -/
theorem depth_of_carries {json : Library} {p : LiveEventPipeline} {message : WebSocketTextMessage}
    {result : LivePipelineResult} {batch : EventRowBatch} {route : LiveRoute} {payload : Bytes}
    (hsubscription : (p.receive message).subscription = p.subscription)
    (h : LiveEventPipeline.Carries json (p.receive message) message route payload) :
    LiveStep.depth json ⟨p, .message message, result, batch⟩ =
      some (((p.receive message).contextOf message route).streamKind,
        (parsedMessage json ((p.receive message).contextOf message route) payload).event.depth) := by
  obtain ⟨hroute, hpayload⟩ := h
  rw [hsubscription] at hroute hpayload
  have hcontext : (p.receive message).contextOf message route = p.contextOf message route := by
    unfold LiveEventPipeline.contextOf
    rw [hsubscription]
  simp only [LiveStep.depth, hroute, hpayload, hcontext]
  rfl

section Step

variable {json : Library} {index : Nat} {p p' : LiveEventPipeline} {message : WebSocketTextMessage}
  {result : LivePipelineResult} {batch : EventRowBatch} {rest : List LiveStep}
  {a a₁ a' b : SymbolState}

/-- An invalidation of a valid book that leaves no row is shown later. -/
theorem Agrees.revealed {route : LiveRoute}
    (h : Agrees json index p (⟨p, .message message, result, batch⟩ :: rest) a b)
    (hagrees : Agrees json index p' rest a₁ b) (hstate : p.states[index]? = some a)
    (hfound : a₁.bookValid = true → a₁ = a ∧
      (p.hasConnectionMetadata = true → p.connectionEpoch = message.connectionEpoch))
    (hepoch : p'.connectionEpoch = message.connectionEpoch)
    (hshown : shown json index (⟨p, .message message, result, batch⟩ :: rest) = true)
    (hdisposition : result.disposition = .preAuditRejected)
    (htarget : result.targetIndex = some index) (hroute : result.route = some route)
    (hkind : route.streamKind = .depthDiff) (hvalid : b.bookValid = true)
    (hobs : b.hasObservedConnection = true)
    (hb : b.currentConnectionEpoch = p'.connectionEpoch) (hbooks : a₁.SameBooks b) :
    Revealed json index rest b := by
  have hvalid₁ : a₁.bookValid = true := by
    rw [SymbolState.bookValid, ← hbooks.book hagrees.alike.venue]
    exact hvalid
  have hknown := (h.epoch_le hobs).1
  obtain ⟨rfl, hequal⟩ := hfound hvalid₁
  have hconceals : LiveStep.conceals index a₁ ⟨p, .message message, result, batch⟩ = true := by
    simp [conceals, ofDiff, hdisposition, htarget, hroute, hkind, hknown, hvalid₁,
      LiveStep.epoch, hequal hknown]
  simp only [shown, hstate, Option.all_some, hconceals, Bool.not_true, Bool.false_or,
    Bool.and_eq_true] at hshown
  exact ⟨hobs, a₁, hbooks, hagrees.alike.venue, hb.trans hepoch ▸ hshown.1⟩

/-- A message that the pipeline took: it leaves no row, or one that the replay takes, and the
states are as close afterwards. -/
theorem Agrees.taken (hok : p.Ok) (hstate : p.states[index]? = some a)
    (hstate₁ : (p.receive message).states[index]? = some a₁)
    (hfound : a₁.bookValid = true → a₁ = a ∧
      (p.hasConnectionMetadata = true → p.connectionEpoch = message.connectionEpoch))
    (hsame : (p.receive message).SameMetadata p')
    (hshown : shown json index (⟨p, .message message, result, batch⟩ :: rest) = true)
    (h : Agrees json index p (⟨p, .message message, result, batch⟩ :: rest) a b)
    (hreceived : Agrees json index (p.receive message)
      (⟨p, .message message, result, batch⟩ :: rest) a₁ b)
    (heffect : LiveEventPipeline.Effect json (p.receive message) message index a₁ result batch a') :
    LiveStep.audits index ⟨p, .message message, result, batch⟩ = false ∧
        Agrees json index p' rest a' b ∨
      ∃ context payload b', Taken json index a₁.venue a₁.symbol
          ⟨p, .message message, result, batch⟩ b b' context payload ∧
        Agrees json index p' rest a' b' := by
  have hepoch : p'.connectionEpoch = message.connectionEpoch := hsame.epoch
  have quiet : LiveStep.audits index ⟨p, .message message, result, batch⟩ = false →
      Agrees json index p' rest a₁ b := fun hno =>
    hreceived.skip (fun _ => ⟨hsame.known, hsame.epoch⟩) (·.skip hno)
  cases heffect with
  | kept hno =>
      have hquiet : LiveStep.audits index ⟨p, .message message, result, batch⟩ = false := by
        simpa [audits] using hno
      exact .inl ⟨hquiet, quiet hquiet⟩
  | envelopeRejected hdisposition htarget hroute hkind =>
      have hquiet : LiveStep.audits index ⟨p, .message message, result, batch⟩ = false := by
        simp [audits, hdisposition]
      have hskip := quiet hquiet
      exact .inl ⟨hquiet, hskip.invalidate hskip.bound (h.revealed hskip hstate hfound hepoch hshown
        hdisposition htarget hroute hkind)⟩
  | payloadRejected hdisposition htarget hroute hcontext =>
      have hquiet : LiveStep.audits index ⟨p, .message message, result, batch⟩ = false := by
        simp [audits, hdisposition]
      have hskip := quiet hquiet
      exact .inl ⟨hquiet, hskip.payloadRejected _ hcontext hsame.known hepoch fun hdiff =>
        h.revealed hskip hstate hfound hepoch hshown hdisposition htarget hroute
          (by simpa using hdiff)⟩
  | audited hdisposition htarget hroute hcarries hcontext hlive herror hstatus =>
      rename_i route payload
      have haudits : LiveStep.audits index ⟨p, .message message, result, batch⟩ = true := by
        simp [audits, hdisposition, htarget]
      have hkind : LiveStep.ofDiff ⟨p, .message message, result, batch⟩ = true →
          ((p.receive message).contextOf message route).streamKind = .depthDiff := by
        intro hdiff
        change route.streamKind = .depthDiff
        simpa [ofDiff, hroute] using hdiff
      obtain ⟨hcontext', event', b', hreplay, herror', hstatus', hcommitted, hnext⟩ :=
        hreceived.audited haudits rfl rfl rfl hkind
          (depth_of_carries (LiveEventPipeline.receive_subscription p message) hcarries) hcontext hlive herror hstatus
      obtain ⟨hrow, htext, -, -⟩ := audited_row
        ((hok.receive message).state hstate₁).1 hcontext hlive herror hstatus
      exact .inr ⟨_, payload, b', ⟨haudits, hcontext', hcommitted, hrow, htext,
        event', hreplay, herror', hstatus'⟩, hnext.skip (fun _ => ⟨hsame.known, hsame.epoch⟩) id⟩

end Step

/-- What the run emitted for the symbol replays to the same order-book rows. -/
theorem Agrees.run {json : Library} {index : Nat} {actions : List LiveAction}
    {p : LiveEventPipeline} {steps : List LiveStep} {a b : SymbolState} (hok : p.Ok)
    (hstate : p.states[index]? = some a) (hends : EndsAfter p actions)
    (hrun : p.run json actions = some steps) (hshown : shown json index steps = true)
    (h : Agrees json index p steps a b) : ∃ rows, Emits json index a.venue a.symbol steps b rows := by
  induction actions generalizing p steps a b with
  | nil =>
      obtain rfl := Option.some.inj hrun
      exact ⟨[], rfl, by simp, .nil, by simp, .nil b⟩
  | cons action actions ih =>
      have tail : ∀ step rest, steps = step :: rest → shown json index rest = true := by
        rintro step rest rfl
        simp only [shown, Bool.and_eq_true] at hshown
        exact hshown.2
      cases action with
      | invalidateAll =>
          obtain ⟨rest, hrest, rfl⟩ := LiveEventPipeline.run_invalidateAll hrun
          have hstate' : p.invalidateAll.states[index]? = some a.invalidate := by
            simp [LiveEventPipeline.invalidateAll, hstate]
          have hskip : Agrees json index p rest a b := h.skip (fun hk => ⟨hk, rfl⟩) (·.skip rfl)
          have hagrees := hskip.invalidate (q := p.invalidateAll) h.bound (by
            intro _ hobs hepoch _
            refine .of_later hobs fun step hstep haudits => ?_
            rw [hepoch]
            obtain ⟨message, hmem, heq⟩ :=
              (LiveEventPipeline.run_audits hok.invalidateAll hrest hstep haudits).1
            rw [heq]
            exact (hends [] actions rfl message hmem).1 (h.epoch_le hobs).1)
          obtain ⟨rows, hrows⟩ :=
            ih hok.invalidateAll hstate' hends.invalidateAll hrest (tail _ _ rfl) hagrees
          rw [SymbolState.invalidate_venue, SymbolState.invalidate_symbol] at hrows
          exact ⟨rows, hrows.skip rfl⟩
      | message message =>
          rcases LiveEventPipeline.process_cases json hok message with ⟨error, heq⟩ |
            ⟨hvalid, result, batch, p', heq, hok', hsame, heffects⟩
          · obtain ⟨rest, hrest, rfl⟩ := LiveEventPipeline.run_message heq hrun
            obtain ⟨rows, hrows⟩ := ih hok hstate (hends.message (.inl rfl)) hrest (tail _ _ rfl)
              (h.skip (fun hk => ⟨hk, rfl⟩) (·.skip rfl))
            exact ⟨rows, hrows.skip rfl⟩
          · obtain ⟨rest, hrest, rfl⟩ := LiveEventPipeline.run_message heq hrun
            obtain ⟨a₁, hstate₁, hfound, hreceived⟩ := h.receive hok' hvalid hsame hrest hstate
            obtain ⟨a', hstate', heffect⟩ := heffects index a₁ hstate₁
            have hends' := hends.message (.inr hsame.epoch)
            have hsubscription := LiveEventPipeline.receive_subscription p message
            have hid₁ := hok.identity hstate (hok.receive message) hsubscription hstate₁
            have hid' := hok.identity hstate hok' (hsame.subscription.trans hsubscription) hstate'
            rcases h.taken hok hstate hstate₁ hfound hsame hshown hreceived heffect with
              ⟨hquiet, hnext⟩ | ⟨context, payload, b', htaken, hnext⟩
            · obtain ⟨rows, hrows⟩ := ih hok' hstate' hends' hrest (tail _ _ rfl) hnext
              rw [hid'.1, hid'.2] at hrows
              exact ⟨rows, hrows.skip hquiet⟩
            · obtain ⟨rows, hrows⟩ := ih hok' hstate' hends' hrest (tail _ _ rfl) hnext
              rw [hid'.1, hid'.2] at hrows
              rw [hid₁.1, hid₁.2] at htaken
              exact ⟨_, hrows.audited htaken⟩

theorem SymbolState.create_idle {venue : PayloadVenue} {symbol : Bytes} {s : SymbolState}
    (h : SymbolState.create venue symbol = some s) : s.Idle := by
  obtain ⟨id, -, rfl⟩ := Option.map_eq_some_iff.mp h
  intro _
  cases venue <;> rfl

/-- The rows of a run whose hidden invalidations are shown. -/
theorem emits_of_run {json : Library} {venue : PayloadVenue} {symbols : List Bytes}
    {subscription : LiveSubscription} {pipeline : LiveEventPipeline}
    (hsub : LiveSubscription.create venue symbols = .ok subscription)
    (hpipe : LiveEventPipeline.create subscription = .ok pipeline) {actions : List LiveAction}
    (hends : EndsSessions actions) {steps : List LiveStep}
    (hrun : pipeline.run json actions = some steps) {index : Nat} {symbol : Bytes}
    (hsymbol : symbols[index]? = some symbol) (hshown : shown json index steps = true) :
    ∃ s₀ rows, SymbolState.create venue symbol = some s₀ ∧ isNormalizedSymbol symbol = true ∧
      Emits json index venue symbol steps s₀ rows := by
  obtain ⟨hok, hknown, hstates⟩ := LiveEventPipeline.create_ok hsub hpipe
  obtain ⟨hnormalized, s₀, hcreate, hstate⟩ := hstates index symbol hsymbol
  obtain ⟨-, rfl, rfl, hunobserved, hinvalid, -⟩ := SymbolState.create_ok hcreate
  have hagrees : Agrees json index pipeline steps s₀ s₀ :=
    ⟨.refl s₀, SymbolState.create_idle hcreate, by simp [hunobserved], by simp [hunobserved],
      .inl ⟨.refl s₀, by simp [hinvalid]⟩⟩
  have hafter : EndsAfter pipeline actions := by
    intro pre post hsplit m' hm'
    refine ⟨by simp [hknown], fun m hm => hends pre post hsplit m m' hm hm'⟩
  obtain ⟨rows, hrows⟩ := hagrees.run hok hstate hafter hrun hshown
  exact ⟨s₀, rows, hcreate, hnormalized, hrows⟩

/-- Replaying the audit rows a run emitted for a symbol succeeds and writes the
order-book rows of the run, provided every invalidation by a message rejected before
audit is shown by the audit rows that follow it. -/
theorem live_replay_agreement (json : Library) {venue : PayloadVenue} {symbols : List Bytes}
    {subscription : LiveSubscription} {pipeline : LiveEventPipeline}
    (hsub : LiveSubscription.create venue symbols = .ok subscription)
    (hpipe : LiveEventPipeline.create subscription = .ok pipeline) {actions : List LiveAction}
    (hends : EndsSessions actions) :
    ∃ steps, pipeline.run json actions = some steps ∧
      ∀ (index : Nat) (symbol : Bytes), symbols[index]? = some symbol →
        shown json index steps = true →
        ∃ s₀, SymbolState.create venue symbol = some s₀ ∧
          ∀ script, MarketDataReplayReader.Supplies script
              (marketDataCsvHeader ++ auditBytes index steps) →
            ∃ reader result, MarketDataReplayReader.openScript script = .ok reader ∧
              ({ reader := reader, state := some s₀ } : ReplayRun).complete json symbol =
                some (result, orderBookBytes index steps) ∧
              result.error = none := by
  obtain ⟨hok, -, -⟩ := LiveEventPipeline.create_ok hsub hpipe
  obtain ⟨steps, hrun⟩ := hok.run_total json actions
  refine ⟨steps, hrun, fun index symbol hsymbol hshown => ?_⟩
  obtain ⟨s₀, rows, hcreate, hnormalized, hrows⟩ := emits_of_run hsub hpipe hends hrun hsymbol hshown
  refine ⟨s₀, hcreate, fun script hscript => ?_⟩
  rw [hrows.bytes] at hscript
  obtain ⟨reader, result, hopen, hcomplete, herror, -⟩ :=
    ReplayRun.complete_of_replays symbol hnormalized hrows.accepted hrows.order hscript
      (some s₀) (fun _ _ => rfl) (.inl rfl) hrows.replays
  exact ⟨reader, result, hopen, hcomplete, herror⟩

/-! ### Two sessions of one symbol -/

section Sample

private def liveRefresh (id : UInt64) : Compact := .refresh id [("10", "1")] [("11", "2")]

private def liveDiff (id : UInt64) : Compact := .diff id id [("9", "5")] []

private def refreshEnvelope (id : UInt64) : Compact :=
  .envelope "btcusdt@depth5@100ms" (liveRefresh id)

private def diffEnvelope (id : UInt64) : Compact := .envelope "btcusdt@depth@100ms" (liveDiff id)

/-- An envelope of the differential stream without data. -/
private def emptyEnvelope : Compact :=
  .object [(ascii "stream", .string (ascii "btcusdt@depth@100ms"))]

private def liveLibrary : Library :=
  .ofDocuments [liveRefresh 100, liveRefresh 102, liveDiff 101, liveDiff 103, liveDiff 105,
    refreshEnvelope 100, refreshEnvelope 102, diffEnvelope 101, diffEnvelope 103, diffEnvelope 105,
    emptyEnvelope]

private def liveMessage (epoch sequence : UInt64) (document : Compact) : LiveAction :=
  .message { connectionEpoch := epoch, connectionSequence := sequence, payload := document.text }

private def runOf (actions : List LiveAction) : Option (List LiveStep) := do
  let subscription ← (LiveSubscription.create .spot [ascii "BTCUSDT"]).toOption
  let pipeline ← (LiveEventPipeline.create subscription).toOption
  pipeline.run liveLibrary actions

/-- What replaying the audit rows of a run returns and writes. -/
private def replayOf (steps : List LiveStep) : Option (ReplayFileResult × Bytes) := do
  let reader ← (MarketDataReplayReader.openScript
    [.bytes (marketDataCsvHeader ++ auditBytes 0 steps)]).toOption
  let state ← SymbolState.create .spot (ascii "BTCUSDT")
  ({ reader := reader, state := some state } : ReplayRun).complete liveLibrary (ascii "BTCUSDT")

/-- A refresh and a differential event; a rejected envelope, shown by the refresh that follows a
stale event; another one, shown by a gap. -/
private def firstSession : List LiveAction :=
  [liveMessage 0 1 (refreshEnvelope 100), liveMessage 0 2 (diffEnvelope 101),
    liveMessage 0 3 emptyEnvelope, liveMessage 0 4 (diffEnvelope 101),
    liveMessage 0 5 (refreshEnvelope 102), liveMessage 0 6 (diffEnvelope 103),
    liveMessage 0 7 emptyEnvelope, liveMessage 0 8 (diffEnvelope 105)]

private def shownActions : List LiveAction :=
  firstSession ++ .invalidateAll :: [liveMessage 1 1 (refreshEnvelope 100)]

private theorem shownActions_endsSessions : EndsSessions shownActions := by
  intro pre post hsplit m m' hm hm'
  obtain ⟨rfl, -, rfl⟩ := (List.append_cons_inj_of_notMem (by simp [firstSession, liveMessage])
    (by simp [liveMessage])).mp hsplit
  have hfirst : m.connectionEpoch = 0 := by
    simp only [firstSession, liveMessage, List.mem_cons, LiveAction.message.injEq,
      List.not_mem_nil, or_false] at hm
    rcases hm with rfl | rfl | rfl | rfl | rfl | rfl | rfl | rfl <;> rfl
  have hsecond : m'.connectionEpoch = 1 := by
    obtain rfl := LiveAction.message.inj (List.mem_singleton.mp hm')
    rfl
  rw [hfirst, hsecond]
  decide

theorem live_replay_agreement_sample : ∃ steps s₀, runOf shownActions = some steps ∧
    SymbolState.create .spot (ascii "BTCUSDT") = some s₀ ∧
    (steps.filter (audits 0)).length = 7 ∧
    (steps.countP fun step => (step.before.states[0]?).any (step.conceals 0 ·)) = 2 ∧
    ∀ script, MarketDataReplayReader.Supplies script
        (marketDataCsvHeader ++ auditBytes 0 steps) →
      ∃ reader result, MarketDataReplayReader.openScript script = .ok reader ∧
        ({ reader := reader, state := some s₀ } : ReplayRun).complete liveLibrary
          (ascii "BTCUSDT") = some (result, orderBookBytes 0 steps) ∧
        result.error = none := by
  have hreport : (runOf shownActions).map (fun steps => ((steps.filter (audits 0)).length,
      steps.countP fun step => (step.before.states[0]?).any (step.conceals 0 ·),
      shown liveLibrary 0 steps)) = some (7, 2, true) := by
    decide +kernel
  obtain ⟨steps, hrun, hfacts⟩ := Option.map_eq_some_iff.mp hreport
  simp only [Prod.mk.injEq] at hfacts
  obtain ⟨hcount, hconcealed, hshown⟩ := hfacts
  have hrun' := hrun
  simp only [runOf, Option.bind_eq_bind, Option.bind_eq_some_iff] at hrun'
  obtain ⟨subscription, hsub, pipeline, hpipe, hsteps⟩ := hrun'
  obtain ⟨steps', hsteps', hreplay⟩ := live_replay_agreement liveLibrary (ok_of_toOption hsub)
    (ok_of_toOption hpipe) shownActions_endsSessions
  obtain rfl := Option.some.inj (hsteps.symm.trans hsteps')
  obtain ⟨s₀, hcreate, hscripts⟩ := hreplay 0 (ascii "BTCUSDT") rfl hshown
  exact ⟨steps, s₀, hrun, hcreate, hcount, hconcealed, hscripts⟩

/-- A refresh, a rejected envelope of the differential stream, and the next
differential event: live capture ignores it, replay applies it. -/
private def concealedActions : List LiveAction :=
  [liveMessage 0 1 (refreshEnvelope 100), liveMessage 0 2 emptyEnvelope,
    liveMessage 0 3 (diffEnvelope 101)]

private def textsOf (actions : List LiveAction) : List WebSocketTextMessage :=
  actions.filterMap fun
    | .message message => some message
    | .invalidateAll => none

theorem live_replay_disagreement :
    ((textsOf concealedActions).Pairwise fun m m' => m.connectionEpoch < m'.connectionEpoch ∨
        m.connectionEpoch = m'.connectionEpoch ∧ m.connectionSequence < m'.connectionSequence) ∧
    (∀ m ∈ textsOf concealedActions, m.payload.length ≤ maxPayloadBytes ∧
      0 < m.connectionSequence ∧ m.receiveTimestamp.nanoseconds = 0) ∧
    EndsSessions concealedActions ∧
    ∃ steps script reader s₀ result output, runOf concealedActions = some steps ∧
      SymbolState.create .spot (ascii "BTCUSDT") = some s₀ ∧
      MarketDataReplayReader.Supplies script (marketDataCsvHeader ++ auditBytes 0 steps) ∧
      MarketDataReplayReader.openScript script = .ok reader ∧
      ({ reader := reader, state := some s₀ } : ReplayRun).complete liveLibrary
        (ascii "BTCUSDT") = some (result, output) ∧
      result.error = none ∧ output ≠ orderBookBytes 0 steps := by
  refine ⟨by decide +kernel, by decide +kernel, ?_, ?_⟩
  · intro pre post hsplit
    have hmem : LiveAction.invalidateAll ∈ concealedActions := by simp [hsplit]
    simp [concealedActions, liveMessage] at hmem
  · have hreport : ((runOf concealedActions).bind fun steps => (replayOf steps).map fun r =>
        (r.1.error, decide (r.2 = orderBookBytes 0 steps), decide ((marketDataCsvHeader ++
          auditBytes 0 steps).length ≤ replayReadBufferBytes))) = some (none, false, true) := by
      decide +kernel
    obtain ⟨steps, hrun, hreplay⟩ := Option.bind_eq_some_iff.mp hreport
    obtain ⟨⟨result, output⟩, hreplay, hfacts⟩ := Option.map_eq_some_iff.mp hreplay
    simp only [Prod.mk.injEq, decide_eq_false_iff_not, decide_eq_true_eq] at hfacts
    obtain ⟨herror, hdiffers, hlength⟩ := hfacts
    simp only [replayOf, Option.bind_eq_bind, Option.bind_eq_some_iff] at hreplay
    obtain ⟨reader, hopen, s₀, hcreate, hcomplete⟩ := hreplay
    refine ⟨steps, _, reader, s₀, result, output, hrun, hcreate, ?_, ok_of_toOption hopen,
      hcomplete, herror, hdiffers⟩
    refine ⟨by simp [MarketDataReplayReader.scriptBytes], ?_⟩
    intro answer hanswer
    obtain rfl := List.mem_singleton.mp hanswer
    exact .inr ⟨_, rfl, List.append_ne_nil_of_left_ne_nil (by decide) _, hlength⟩

end Sample

end MarketCapture
