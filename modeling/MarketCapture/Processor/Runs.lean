import MarketCapture.Processor.Outcome

/-! # Runs of one symbol

Messages and invalidations on one symbol state, labelled with what each call
returned. The processor behind each call is arbitrary: a live pipeline shares one
between its symbols. `Synced` is the history behind a valid book: an applied
refresh in the current epoch and nothing since that loses updates.
-/

namespace MarketCapture

open Transition Simdjson

inductive ProcessorLabel where
  | processed (context : EventContext) (payload : Bytes) (mode : EventOutputMode)
      (result : EventProcessResult) (batch : EventRowBatch)
  | invalidated

/-- The runs of `process` and `invalidate` on the state of one symbol. -/
def processorRuns (json : Library) (venue : PayloadVenue) (symbol : Bytes) :
    System SymbolState ProcessorLabel where
  init s := SymbolState.create venue symbol = some s
  step s label s' :=
    match label with
    | .processed context payload mode result batch =>
        ∃ p p' : EventProcessor,
          p.process json s context payload mode = some (result, s', batch, p')
    | .invalidated => s' = s.invalidate

namespace ProcessorLabel

/-- The depth event of the message of a label. -/
def depth (json : Library) : ProcessorLabel → SpotDepthEvent
  | .processed context payload _ _ _ => (parsedMessage json context payload).event.depth
  | .invalidated => {}

/-- A refresh of the epoch was applied. -/
def AppliedRefresh (epoch : UInt64) : ProcessorLabel → Prop
  | .processed context _ _ result _ => result.error = .none ∧ result.status = .appliedRefresh ∧
      context.streamKind = .depth5 ∧ context.connectionEpoch = epoch
  | .invalidated => False

/-- A differential event of the epoch was applied and its row written. -/
def AppliedDiff (epoch : UInt64) : ProcessorLabel → Prop
  | .processed context _ _ result batch => result.error = .none ∧ result.status = .appliedDiff ∧
      context.streamKind = .depthDiff ∧ context.connectionEpoch = epoch ∧
      batch.hasOrderBookRow = true
  | .invalidated => False

/-- Nothing that ends the synchronised state: no new refresh, no gap or crossed book,
no rejected differential event, no other epoch, no invalidation. -/
def Quiet (epoch : UInt64) : ProcessorLabel → Prop
  | .processed context _ _ result _ => result.error = .none →
      result.status ≠ .appliedRefresh ∧ result.status ≠ .sequenceGap ∧
      result.status ≠ .crossedBook ∧
      (context.streamKind = .depthDiff →
        result.status ≠ .schemaRejected ∧ result.status ≠ .preAuditRejected) ∧
      context.connectionEpoch = epoch
  | .invalidated => False

end ProcessorLabel

/-- The differential events applied among the labels cover the ids in between. -/
def Covers (json : Library) (epoch : UInt64) (labels : List ProcessorLabel) (low high : Nat) :
    Prop :=
  ∀ id, low < id → id ≤ high → ∃ l ∈ labels, l.AppliedDiff epoch ∧
    (l.depth json).firstUpdateId.toNat ≤ id ∧ id ≤ (l.depth json).finalUpdateId.toNat

/-- The history since the refresh a valid book stands on. -/
def SyncedSince (json : Library) (labels : List ProcessorLabel) (s : SymbolState) : Prop :=
  ∃ pre r mid, labels = pre ++ r :: mid ∧ r.AppliedRefresh s.currentConnectionEpoch ∧
    (∀ m ∈ mid, m.Quiet s.currentConnectionEpoch) ∧
    (s.venue = .spot → Covers json s.currentConnectionEpoch mid
      (r.depth json).finalUpdateId.toNat s.lastUpdateId.toNat)

structure Synced (json : Library) (labels : List ProcessorLabel) (s : SymbolState) : Prop where
  ok : s.Ok
  since : s.bookValid = true → s.hasObservedConnection = true ∧ SyncedSince json labels s

/-! ## The epoch of a message -/

theorem epoch_eq_of_unchanged {s : SymbolState} {context : EventContext}
    (hcontext : contextIsValid s context = true) (hobs : s.hasObservedConnection = true)
    (hsame : s.epochChanged context = false) :
    context.connectionEpoch = s.currentConnectionEpoch := by
  unfold contextIsValid at hcontext
  split at hcontext
  · cases hcontext
  · simp only [hobs, Bool.not_true, Bool.false_eq_true, ↓reduceIte] at hcontext
    split at hcontext
    · cases hcontext
    · rename_i hlow
      simp only [SymbolState.epochChanged, hobs, Bool.true_and, decide_eq_false_iff_not,
        gt_iff_lt, UInt64.not_lt] at hsame
      exact UInt64.le_antisymm hsame (UInt64.not_lt.mp hlow)

/-- A message that finds the book valid belongs to the epoch of the state. -/
theorem entered_of_valid {s : SymbolState} {context : EventContext}
    (h : (s.entered context).bookValid = true) :
    s.epochChanged context = false ∧ s.entered context = s := by
  unfold SymbolState.entered at h ⊢
  split at h
  · simp [SymbolState.bookValid, TopFiveBook.invalidate] at h
  · rename_i hsame
    exact ⟨Bool.eq_false_iff.mpr hsame, if_neg hsame⟩

/-! ## One step -/

/-- A message that leaves the book and the epoch as they were. -/
theorem SyncedSince.extend {json : Library} {labels : List ProcessorLabel} {s s' : SymbolState}
    {l : ProcessorLabel} (h : SyncedSince json labels s)
    (hepoch : s'.currentConnectionEpoch = s.currentConnectionEpoch) (hvenue : s'.venue = s.venue)
    (hlast : s'.lastUpdateId = s.lastUpdateId) (hquiet : l.Quiet s.currentConnectionEpoch) :
    SyncedSince json (labels ++ [l]) s' := by
  obtain ⟨pre, r, mid, rfl, hr, hmid, hcov⟩ := h
  refine ⟨pre, r, mid ++ [l], by simp, hepoch ▸ hr, ?_, ?_⟩
  · intro m hm
    rw [hepoch]
    rcases List.mem_append.mp hm with hm | hm
    · exact hmid m hm
    · rw [List.mem_singleton.mp hm]
      exact hquiet
  · intro hv id hlow hhigh
    rw [hlast] at hhigh
    obtain ⟨m, hm, hrest⟩ := hcov (hvenue ▸ hv) id hlow hhigh
    exact ⟨m, List.mem_append_left _ hm, hepoch ▸ hrest⟩

theorem synced_initial {json : Library} {venue : PayloadVenue} {symbol : Bytes} {s : SymbolState}
    (h : SymbolState.create venue symbol = some s) : Synced json [] s := by
  obtain ⟨hok, -, -, -, hvalid, -⟩ := SymbolState.create_ok h
  exact ⟨hok, fun hv => absurd (hvalid.symm.trans hv) (by simp)⟩

/-- A message that keeps a valid book and only commits its context. -/
theorem Synced.kept {json : Library} {labels : List ProcessorLabel} {s : SymbolState}
    {context : EventContext} {l : ProcessorLabel} (h : Synced json labels s)
    (hcontext : contextIsValid s context = true) (hsame : s.epochChanged context = false)
    (hquiet : context.connectionEpoch = s.currentConnectionEpoch →
      l.Quiet s.currentConnectionEpoch) : Synced json (labels ++ [l]) (s.commitContext context) := by
  refine ⟨h.ok.commitContext context, fun hv => ⟨rfl, ?_⟩⟩
  obtain ⟨hobs, hsince⟩ := h.since hv
  have hepoch := epoch_eq_of_unchanged hcontext hobs hsame
  exact hsince.extend hepoch rfl rfl (hquiet hepoch)

theorem Synced.of_invalid {json : Library} {labels : List ProcessorLabel} {s : SymbolState}
    (hok : s.Ok) (hv : s.bookValid = false) : Synced json labels s :=
  ⟨hok, fun h => absurd (hv.symm.trans h) (by simp)⟩

/-- A book status that keeps the synchronised state. -/
theorem quiet_of_status {context : EventContext} {result : EventProcessResult}
    {status : BookApplyStatus} {epoch : UInt64} (hst : result.status = eventStatus status)
    (h₁ : status ≠ .appliedRefresh) (h₂ : status ≠ .sequenceGap) (h₃ : status ≠ .crossedBook)
    (hepoch : context.connectionEpoch = epoch) :
    result.status ≠ .appliedRefresh ∧ result.status ≠ .sequenceGap ∧
      result.status ≠ .crossedBook ∧
      (context.streamKind = .depthDiff →
        result.status ≠ .schemaRejected ∧ result.status ≠ .preAuditRejected) ∧
      context.connectionEpoch = epoch := by
  rw [hst]
  cases status <;> simp_all [eventStatus]

/-- The depth branch. -/
theorem Synced.depth {json : Library} {labels : List ProcessorLabel}
    {s candidate s' : SymbolState} {context : EventContext} {payload : Bytes}
    {mode : EventOutputMode} {result : EventProcessResult} {batch : EventRowBatch}
    {bookResult : BookApplyResult} (h : Synced json labels s)
    (hcontext : contextIsValid s context = true) (herr : result.error = .none)
    (hk : context.streamKind ≠ .trade) (hstatus : result.status = eventStatus bookResult.status)
    (hsame : (s.entered context).SameButBook candidate)
    (hout : DepthOutcome context.streamKind (parsedMessage json context payload).event.depth
      bookResult.status (s.entered context) candidate)
    (hok : BookOk candidate.book) (hbatch : batch.hasOrderBookRow = bookResult.emitsSnapshot)
    (hs' : s' = { candidate.commitContext context with sequenceNumber := s'.sequenceNumber }) :
    Synced json (labels ++ [.processed context payload mode result batch]) s' := by
  have hcand : candidate.Ok := ⟨hsame.symbol ▸ (h.ok.entered context).symbol,
    hsame.instrumentId ▸ (h.ok.entered context).instrument, hok⟩
  have hok' : s'.Ok := by
    rw [hs']
    exact ⟨hcand.symbol, hcand.instrument, hcand.book⟩
  have hbook : s'.book = candidate.book := by
    rw [hs']
    rfl
  have hepoch' : s'.currentConnectionEpoch = context.connectionEpoch := by
    rw [hs']
    rfl
  have hobs' : s'.hasObservedConnection = true := by
    rw [hs']
    rfl
  have hvenue' : s'.venue = s.venue := by
    rw [hs']
    exact hsame.venue.trans (by simp)
  -- a valid book that the event left in place
  have unchanged : ∀ status, result.status = eventStatus status → status ≠ .appliedRefresh →
      status ≠ .sequenceGap → status ≠ .crossedBook → (s.entered context).bookValid = true →
      candidate.book = (s.entered context).book →
      Synced json (labels ++ [.processed context payload mode result batch]) s' := by
    intro status hst h₁ h₂ h₃ hvalid hsamebook
    obtain ⟨hsameEpoch, hentered⟩ := entered_of_valid hvalid
    rw [hentered] at hvalid hsamebook
    obtain ⟨hobs, hsince⟩ := h.since hvalid
    have hepoch := epoch_eq_of_unchanged hcontext hobs hsameEpoch
    refine ⟨hok', fun _ => ⟨hobs', hsince.extend (hepoch'.trans hepoch) hvenue' ?_ ?_⟩⟩
    · simp [SymbolState.lastUpdateId, hbook, hsamebook]
    · exact fun _ => quiet_of_status hst h₁ h₂ h₃ hepoch
  cases hkind : context.streamKind with
  | trade => exact absurd hkind hk
  | depth5 =>
      have hrefresh := hout.1 hkind
      obtain ⟨status, side⟩ := bookResult
      generalize hcore : candidate.book = core at hrefresh
      cases hrefresh with
      | stale hv _ => exact unchanged _ hstatus (by simp) (by simp) (by simp) hv hcore
      | applied _ hlast _ =>
          refine ⟨hok', fun _ => ⟨hobs', labels, _, [], rfl, ?_, by simp, ?_⟩⟩
          · exact ⟨herr, hstatus, hkind, hepoch'.symm⟩
          · intro _ id hlow hhigh
            rw [SymbolState.lastUpdateId, hbook, hcore, hlast] at hhigh
            exact absurd hlow (Nat.not_lt.mpr hhigh)
  | depthDiff =>
      obtain ⟨hdiff, hfirst⟩ := hout.2 hkind
      obtain ⟨status, side⟩ := bookResult
      generalize hcore : candidate.book = core at hdiff
      cases hdiff with
      | ignored hv =>
          refine .of_invalid hok' ?_
          rw [SymbolState.bookValid, hbook, hcore]
          exact hv
      | stale hv _ => exact unchanged _ hstatus (by simp) (by simp) (by simp) hv hcore
      | gap _ =>
          refine .of_invalid hok' ?_
          rw [SymbolState.bookValid, hbook, hcore]
          rfl
      | crossed _ =>
          refine .of_invalid hok' ?_
          rw [SymbolState.bookValid, hbook, hcore]
          rfl
      | applied hv hlt _ hlast _ =>
          obtain ⟨hsameEpoch, hentered⟩ := entered_of_valid hv
          rw [hentered] at hv hlt hfirst
          obtain ⟨hobs, pre, r, mid, rfl, hr, hmid, hcov⟩ := h.since hv
          have hepoch := epoch_eq_of_unchanged hcontext hobs hsameEpoch
          refine ⟨hok', fun _ => ⟨hobs', pre, r, mid ++ [_], by simp; rfl, ?_, ?_, ?_⟩⟩
          · rw [hepoch', hepoch]
            exact hr
          · intro m hm
            rw [hepoch', hepoch]
            rcases List.mem_append.mp hm with hm | hm
            · exact hmid m hm
            · rw [List.mem_singleton.mp hm]
              intro _
              simp [hstatus, eventStatus, hepoch]
          · intro hspot id hlow hhigh
            rw [hvenue'] at hspot
            rw [SymbolState.lastUpdateId, hbook, hcore, hlast] at hhigh
            rw [hepoch', hepoch]
            by_cases hold : id ≤ s.lastUpdateId.toNat
            · obtain ⟨m, hm, hrest⟩ := hcov hspot id hlow hold
              exact ⟨m, List.mem_append_left _ hm, hrest⟩
            · have hbridge := hfirst hspot rfl
              refine ⟨_, List.mem_append_right _ (List.mem_singleton.mpr rfl), ?_, ?_, hhigh⟩
              · exact ⟨herr, hstatus, hkind, hepoch, hbatch⟩
              · simp only [SymbolState.lastUpdateId] at hold
                simp only [ProcessorLabel.depth]
                omega

theorem Synced.step {json : Library} {venue : PayloadVenue} {symbol : Bytes}
    {labels : List ProcessorLabel} {s s' : SymbolState} {l : ProcessorLabel}
    (h : Synced json labels s) (hs : (processorRuns json venue symbol).step s l s') :
    Synced json (labels ++ [l]) s' := by
  cases l with
  | invalidated =>
      obtain rfl : s' = s.invalidate := hs
      refine .of_invalid h.ok.invalidate ?_
      rw [SymbolState.bookValid, SymbolState.invalidate_book]
      rfl
  | processed context payload mode result batch =>
      obtain ⟨p, p', hprocess⟩ := hs
      obtain ⟨result', s₁, batch', p₁, heq, hout, -⟩ :=
        p.process_outcome json h.ok context payload mode
      rw [hprocess] at heq
      simp only [Option.some.injEq, Prod.mk.injEq] at heq
      obtain ⟨rfl, rfl, rfl, -⟩ := heq
      cases hout with
      | failed herr _ =>
          refine ⟨h.ok, fun hv => ⟨(h.since hv).1, ?_⟩⟩
          exact (h.since hv).2.extend rfl rfl rfl (fun h₀ => absurd h₀ herr)
      | rejected hcontext herr hstatus _ =>
          split
          · rename_i hinv
            refine .of_invalid (h.ok.invalidate.commitContext context) ?_
            rw [SymbolState.bookValid, SymbolState.commitContext_book, SymbolState.invalidate_book]
            rfl
          · rename_i hinv
            simp only [Bool.or_eq_true, decide_eq_true_eq, not_or, Bool.not_eq_true] at hinv
            refine h.kept hcontext hinv.1 fun hepoch _ => ?_
            rcases hstatus with hst | hst <;> simp [hst, hinv.2, hepoch]
      | trade hcontext herr hstatus _ =>
          unfold SymbolState.entered
          split
          · refine .of_invalid (h.ok.invalidate.commitContext context) ?_
            rw [SymbolState.bookValid, SymbolState.commitContext_book, SymbolState.invalidate_book]
            rfl
          · rename_i hsame
            refine h.kept hcontext (Bool.eq_false_iff.mpr hsame) fun hepoch _ => ?_
            simp [hstatus, hepoch]
      | depth hcontext herr _ hk hstatus hsame hdepth hok hbatch hs' =>
          exact h.depth hcontext herr hk hstatus hsame hdepth hok hbatch hs'

theorem processorRuns_synced {json : Library} {venue : PayloadVenue} {symbol : Bytes}
    {labels : List ProcessorLabel} {s₀ s : SymbolState}
    (hinit : SymbolState.create venue symbol = some s₀)
    (h : Exec (processorRuns json venue symbol) s₀ labels s) : Synced json labels s :=
  h.history (P := fun labels s => Synced json labels s) (synced_initial hinit)
    fun _ _ _ _ hsynced hstep => hsynced.step hstep

/-! ## Applied differential events -/

theorem eventStatus_appliedDiff {status : BookApplyStatus}
    (h : eventStatus status = .appliedDiff) : status = .appliedDiff := by
  cases status <;> simp_all [eventStatus]

/-- What an applied differential event did to the state. -/
theorem step_appliedDiff {json : Library} {venue : PayloadVenue} {symbol : Bytes}
    {s s' : SymbolState} {l : ProcessorLabel} {epoch : UInt64} (hok : s.Ok)
    (hs : (processorRuns json venue symbol).step s l s') (hl : l.AppliedDiff epoch) :
    s'.bookValid = true ∧ s'.currentConnectionEpoch = epoch ∧ s'.venue = s.venue ∧
      s'.lastUpdateId = (l.depth json).finalUpdateId ∧ s.lastUpdateId < s'.lastUpdateId ∧
      (s.venue = .spot → (l.depth json).firstUpdateId.toNat ≤ s.lastUpdateId.toNat + 1) := by
  cases l with
  | invalidated => exact absurd hl (by simp [ProcessorLabel.AppliedDiff])
  | processed context payload mode result batch =>
      obtain ⟨herr₀, hst₀, hkind, rfl, -⟩ := hl
      obtain ⟨p, p', hprocess⟩ := hs
      obtain ⟨result', s₁, batch', p₁, heq, hout, -⟩ :=
        p.process_outcome json hok context payload mode
      rw [hprocess] at heq
      simp only [Option.some.injEq, Prod.mk.injEq] at heq
      obtain ⟨rfl, rfl, rfl, -⟩ := heq
      cases hout with
      | failed herr _ => exact absurd herr₀ herr
      | rejected _ _ hstatus _ => rcases hstatus with h | h <;> simp [hst₀] at h
      | trade _ _ hstatus _ => simp [hst₀] at hstatus
      | @depth bookResult candidate _ _ _ _ _ _ hstatus hsame hdepth _ _ hs' =>
          have hbook := eventStatus_appliedDiff (hstatus.symm.trans hst₀)
          obtain ⟨hdiff, hfirst⟩ := hdepth.2 hkind
          rw [hbook] at hdiff hfirst
          have hbook' : s'.book = candidate.book := by
            rw [hs']
            rfl
          have hfields : s'.currentConnectionEpoch = context.connectionEpoch ∧
              s'.venue = s.venue := by
            rw [hs']
            exact ⟨rfl, hsame.venue.trans (by simp)⟩
          generalize hcore : candidate.book = core at hdiff
          cases hdiff with
          | applied hv hlt _ hlast hvalid =>
              obtain ⟨-, hentered⟩ := entered_of_valid hv
              rw [hentered] at hlt hfirst
              refine ⟨?_, hfields.1, hfields.2, ?_, ?_, fun hspot => hfirst hspot rfl⟩
              · rw [SymbolState.bookValid, hbook', hcore]
                exact hvalid
              · rw [SymbolState.lastUpdateId, hbook', hcore]
                exact hlast
              · rw [SymbolState.lastUpdateId, SymbolState.lastUpdateId, hbook', hcore, hlast]
                exact hlt

/-- Sequencing soundness: an applied differential event stands on a refresh of its
epoch with nothing in between that loses updates, and on Spot the events applied
since then cover every id up to the new one. -/
theorem sequencing_sound {json : Library} {venue : PayloadVenue} {symbol : Bytes}
    {labels : List ProcessorLabel} {s₀ s s' : SymbolState} {l : ProcessorLabel} {epoch : UInt64}
    (hinit : SymbolState.create venue symbol = some s₀)
    (hrun : Exec (processorRuns json venue symbol) s₀ labels s)
    (hstep : (processorRuns json venue symbol).step s l s') (hl : l.AppliedDiff epoch) :
    ∃ pre r mid, labels = pre ++ r :: mid ∧ r.AppliedRefresh epoch ∧
      (∀ m ∈ mid, m.Quiet epoch) ∧
      (s.venue = .spot →
        (l.depth json).firstUpdateId.toNat ≤ s.lastUpdateId.toNat + 1 ∧
        s.lastUpdateId.toNat + 1 ≤ (l.depth json).finalUpdateId.toNat ∧
        (s.lastUpdateId + 1).toNat = s.lastUpdateId.toNat + 1 ∧
        s.lastUpdateId < s'.lastUpdateId ∧
        s'.lastUpdateId = (l.depth json).finalUpdateId ∧
        Covers json epoch (mid ++ [l]) (r.depth json).finalUpdateId.toNat
          s'.lastUpdateId.toNat) := by
  have hsynced := processorRuns_synced hinit hrun
  obtain ⟨hvalid, rfl, hvenue, hlast, hlt, hfirst⟩ := step_appliedDiff hsynced.ok hstep hl
  obtain ⟨-, pre, r, mid, hsplit, hr, hquiet, hcov⟩ := (hsynced.step hstep).since hvalid
  rcases concat_eq_split hsplit with ⟨-, rfl, -⟩ | ⟨mid', rfl, rfl⟩
  · -- the refresh is not this event
    cases r with
    | invalidated => exact hr.elim
    | processed context payload mode result batch =>
        have happlied := hr.2.1
        rw [hl.2.1] at happlied
        cases happlied
  · refine ⟨pre, r, mid', rfl, hr, fun m hm => hquiet m (List.mem_append_left _ hm), ?_⟩
    intro hspot
    have hlt' := UInt64.lt_iff_toNat_lt.mp hlt
    refine ⟨hfirst hspot, ?_, toNat_succ_of_lt hlt, hlt, hlast, hcov (hvenue.trans hspot)⟩
    rw [← hlast]
    exact hlt'

/-! ## The book invariant over runs -/

theorem processorRuns_ok {json : Library} {venue : PayloadVenue} {symbol : Bytes} {s : SymbolState}
    (h : Reachable (processorRuns json venue symbol) s) : s.Ok := by
  obtain ⟨s₀, labels, hinit, hrun⟩ := h
  exact (processorRuns_synced hinit hrun).ok

/-- In every reachable book of either venue the representation invariant holds and no
assertion of the core fails on an accepted event; and from every reachable symbol
state a message is processed without the formatter refusing the book. -/
theorem book_representation_invariant (json : Library) :
    (∀ b, Reachable spotRuns b → BookOk b.book ∧
      ∀ call : BookCall, call.Accepted .spot → b.call call ≠ none) ∧
    (∀ b, Reachable usdmRuns b → BookOk b.book ∧
      ∀ call : BookCall, call.Accepted .usdm → b.call call ≠ none) ∧
    (∀ venue symbol s, Reachable (processorRuns json venue symbol) s →
      BookOk s.book ∧
      ∀ (p : EventProcessor) (context : EventContext) (payload : Bytes) (mode : EventOutputMode),
        ∃ result s' batch p', p.process json s context payload mode = some (result, s', batch, p') ∧
          result.csvError ≠ some .invalidBook) := by
  refine ⟨?_, ?_, ?_⟩
  · intro b hb
    refine ⟨spotRuns_ok hb, fun call hcall => ?_⟩
    obtain ⟨result, b', heq, -⟩ := SpotBook.call_ok (spotRuns_ok hb) hcall
    simp [heq]
  · intro b hb
    refine ⟨usdmRuns_ok hb, fun call hcall => ?_⟩
    obtain ⟨result, b', heq, -⟩ := UsdMBook.call_ok (usdmRuns_ok hb) hcall
    simp [heq]
  · intro venue symbol s hs
    have hok := processorRuns_ok hs
    refine ⟨hok.book, fun p context payload mode => ?_⟩
    obtain ⟨result, s', batch, p', heq, -, hcsv⟩ := p.process_outcome json hok context payload mode
    exact ⟨result, s', batch, p', heq, hcsv⟩

/-! ### A refresh and two differential events on Spot -/

section Sample

/-- The labels and the final state of a list of messages. -/
def processAll (json : Library) :
    List (EventContext × Bytes × EventOutputMode) → SymbolState →
      Option (List ProcessorLabel × SymbolState)
  | [], s => some ([], s)
  | (context, payload, mode) :: messages, s => do
      let (result, s', batch, _) ← ({} : EventProcessor).process json s context payload mode
      let (labels, s'') ← processAll json messages s'
      return (.processed context payload mode result batch :: labels, s'')

theorem processAll_exec {json : Library} {venue : PayloadVenue} {symbol : Bytes}
    (messages : List (EventContext × Bytes × EventOutputMode)) {s s' : SymbolState}
    {labels : List ProcessorLabel} (h : processAll json messages s = some (labels, s')) :
    Exec (processorRuns json venue symbol) s labels s' := by
  induction messages generalizing s labels with
  | nil =>
      obtain ⟨rfl, rfl⟩ := Prod.mk.inj (Option.some.inj h)
      exact .nil _
  | cons message messages ih =>
      obtain ⟨context, payload, mode⟩ := message
      simp only [processAll, Option.bind_eq_bind, Option.bind_eq_some_iff] at h
      obtain ⟨⟨result, s₁, batch, p'⟩, hprocess, ⟨labels', s₂⟩, hrest, heq⟩ := h
      obtain ⟨rfl, rfl⟩ := Prod.mk.inj (Option.some.inj heq)
      exact Exec.cons ⟨{}, p', hprocess⟩ (ih hrest)

private def spotRefresh : Compact := .refresh 100 [("10", "1")] [("11", "2")]

private def spotDiff (first final : UInt64) (bids : List (String × String)) : Compact :=
  .diff first final bids []

private def spotLibrary : Library :=
  .ofDocuments [spotRefresh, spotDiff 99 103 [("9", "5")], spotDiff 104 104 [("10", "0")]]

private def spotMessage (kind : StreamKind) (sequence : UInt64) (document : Compact) :
    EventContext × Bytes × EventOutputMode :=
  ({ streamKind := kind, connectionSequence := sequence, symbol := ascii "BTCUSDT" },
    document.text, .liveCapture)

private def spotStart : SymbolState :=
  { symbol := ascii "BTCUSDT", venue := .spot, instrumentId := 1747767916 }

private def spotRun : Option (List ProcessorLabel × SymbolState) :=
  processAll spotLibrary [spotMessage .depth5 1 spotRefresh,
    spotMessage .depthDiff 2 (spotDiff 99 103 [("9", "5")])] spotStart

private def spotThird : EventContext × Bytes × EventOutputMode :=
  spotMessage .depthDiff 4 (spotDiff 104 104 [("10", "0")])

private def spotLast (s : SymbolState) :
    Option (EventProcessResult × SymbolState × EventRowBatch × EventProcessor) :=
  ({} : EventProcessor).process spotLibrary s spotThird.1 spotThird.2.1 spotThird.2.2

theorem sequencing_sound_sample : ∃ labels s l s',
    Exec (processorRuns spotLibrary .spot (ascii "BTCUSDT")) spotStart labels s ∧
    (processorRuns spotLibrary .spot (ascii "BTCUSDT")).step s l s' ∧ l.AppliedDiff 0 ∧
    s.lastUpdateId = 103 ∧ s'.lastUpdateId = 104 ∧
    ∃ pre r mid, labels = pre ++ r :: mid ∧ r.AppliedRefresh 0 ∧ ∀ m ∈ mid, m.Quiet 0 := by
  have hinit : SymbolState.create .spot (ascii "BTCUSDT") = some spotStart := by decide +kernel
  have hreport : spotRun.bind (fun r => (spotLast r.2).map (fun q => (r.2.lastUpdateId, q.1.error,
      q.1.status, q.2.1.lastUpdateId, q.2.2.1.hasOrderBookRow))) =
      some (103, .none, .appliedDiff, 104, true) := by
    decide +kernel
  obtain ⟨⟨labels, s⟩, hrun, hmap⟩ := Option.bind_eq_some_iff.mp hreport
  obtain ⟨⟨result, s', batch, p'⟩, hprocess, heq⟩ := Option.map_eq_some_iff.mp hmap
  simp only [Prod.mk.injEq] at heq
  have hexec : Exec (processorRuns spotLibrary .spot (ascii "BTCUSDT")) spotStart labels s :=
    processAll_exec _ hrun
  have happlied : (ProcessorLabel.processed spotThird.1 spotThird.2.1 spotThird.2.2 result
      batch).AppliedDiff 0 := ⟨heq.2.1, heq.2.2.1, rfl, rfl, heq.2.2.2.2⟩
  have hstep : (processorRuns spotLibrary .spot (ascii "BTCUSDT")).step s
      (.processed spotThird.1 spotThird.2.1 spotThird.2.2 result batch) s' := ⟨{}, p', hprocess⟩
  obtain ⟨pre, r, mid, hsplit, hr, hquiet, -⟩ := sequencing_sound hinit hexec hstep happlied
  exact ⟨labels, s, _, s', hexec, hstep, happlied, heq.1, heq.2.2.2.1, pre, r, mid, hsplit, hr,
    hquiet⟩

/-- The events of `spotRun`, called on the book itself. -/
private def spotCalls : List BookCall :=
  [.refresh (parsedEvent spotLibrary .spot .depth5 spotRefresh),
    .diff (parsedEvent spotLibrary .spot .depthDiff (spotDiff 99 103 [("9", "5")]))]

private def spotCall : BookCall :=
  .diff (parsedEvent spotLibrary .spot .depthDiff (spotDiff 104 104 [("10", "0")]))

private theorem spotCalls_accepted : ∀ call ∈ spotCall :: spotCalls, call.Accepted .spot := by
  intro call hcall
  simp only [spotCalls, spotCall, List.mem_cons, List.not_mem_nil, or_false] at hcall
  rcases hcall with rfl | rfl | rfl
  · exact parsedEvent_accepts (by decide +kernel)
  · exact parsedEvent_accepts (by decide +kernel)
  · exact parsedEvent_accepts (by decide +kernel)

/-- A Spot book, a USD-M book and a symbol state after a refresh and differential events. -/
theorem book_representation_invariant_sample :
    (∃ b, Reachable spotRuns b ∧ b.book.bids.view.length = 2 ∧ BookOk b.book ∧
      b.call spotCall ≠ none) ∧
    (∃ b, Reachable usdmRuns b ∧ b.book.asks.view.length = 1 ∧ BookOk b.book ∧
      ∀ call ∈ usdmCalls, b.call call ≠ none) ∧
    (∃ s, Reachable (processorRuns spotLibrary .spot (ascii "BTCUSDT")) s ∧
      s.book.bids.view.length = 2 ∧ BookOk s.book ∧
      ∃ result s' batch p', ({} : EventProcessor).process spotLibrary s spotThird.1 spotThird.2.1
          spotThird.2.2 = some (result, s', batch, p') ∧ result.csvError ≠ some .invalidBook) := by
  have hspot : (runCalls SpotBook.call spotCalls {}).map
      (fun r => r.2.book.bids.view.length) = some 2 := by decide +kernel
  have husdm : (runCalls UsdMBook.call usdmCalls {}).map
      (fun r => r.2.book.asks.view.length) = some 1 := by decide +kernel
  have hprocessor : spotRun.map (fun r => r.2.book.bids.view.length) = some 2 := by decide +kernel
  obtain ⟨spot, usdm, processor⟩ := book_representation_invariant spotLibrary
  refine ⟨?_, ?_, ?_⟩
  · obtain ⟨⟨labels, b⟩, hcalls, hlength⟩ := Option.map_eq_some_iff.mp hspot
    have hreach : Reachable spotRuns b := ⟨{}, labels, rfl,
      runCalls_exec spotCalls (fun c hc => spotCalls_accepted c (.tail _ hc)) hcalls⟩
    exact ⟨b, hreach, hlength, (spot b hreach).1,
      (spot b hreach).2 _ (spotCalls_accepted _ (.head _))⟩
  · obtain ⟨⟨labels, b⟩, hcalls, hlength⟩ := Option.map_eq_some_iff.mp husdm
    have hreach : Reachable usdmRuns b := ⟨{}, labels, rfl,
      runCalls_exec usdmCalls usdmCalls_accepted hcalls⟩
    exact ⟨b, hreach, hlength, (usdm b hreach).1,
      fun call hcall => (usdm b hreach).2 call (usdmCalls_accepted call hcall)⟩
  · obtain ⟨⟨labels, s⟩, hrun, hlength⟩ := Option.map_eq_some_iff.mp hprocessor
    have hinit : SymbolState.create .spot (ascii "BTCUSDT") = some spotStart := by decide +kernel
    have hreach : Reachable (processorRuns spotLibrary .spot (ascii "BTCUSDT")) s :=
      ⟨spotStart, labels, hinit, processAll_exec _ hrun⟩
    obtain ⟨hbook, hreturns⟩ := processor _ _ s hreach
    exact ⟨s, hreach, hlength, hbook, hreturns _ _ _ _⟩

end Sample

end MarketCapture
