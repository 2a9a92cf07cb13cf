import MarketCapture.Processor.Agreement
import MarketCapture.Processor.Runs

/-! # Commit or reject

Every exit of `process`, on any state. A call that reports an error leaves the
symbol state and an empty batch; every other call commits the context, and only an
applied event changes the levels or the sequence number. The rows a run writes are
numbered from one without a gap, because the number is taken from a candidate that
is committed with the row.
-/

namespace MarketCapture

open Simdjson Transition

/-! ## Levels under one event -/

/-- The same levels and the same last update id. -/
structure TopFiveBook.SameLevels (b b' : TopFiveBook) : Prop where
  bids : b'.bids = b.bids
  asks : b'.asks = b.asks
  lastUpdateId : b'.lastUpdateId = b.lastUpdateId

theorem TopFiveBook.SameLevels.refl (b : TopFiveBook) : b.SameLevels b := ⟨rfl, rfl, rfl⟩

theorem TopFiveBook.SameLevels.invalidate (b : TopFiveBook) : b.SameLevels b.invalidate :=
  ⟨rfl, rfl, rfl⟩

theorem TopFiveBook.SameLevels.trans {a b c : TopFiveBook} (h₁ : a.SameLevels b)
    (h₂ : b.SameLevels c) : a.SameLevels c :=
  ⟨h₂.bids.trans h₁.bids, h₂.asks.trans h₁.asks, h₂.lastUpdateId.trans h₁.lastUpdateId⟩

/-- The status of an applied event of a depth stream. -/
def StreamKind.applied (kind : StreamKind) : BookApplyStatus :=
  if kind = .depth5 then .appliedRefresh else .appliedDiff

/-- An event is applied, or the levels stay. -/
def AppliedOrKept (applied status : BookApplyStatus) (b b' : TopFiveBook) : Prop :=
  status = applied ∨ (status ≠ .appliedRefresh ∧ status ≠ .appliedDiff ∧ b.SameLevels b')

theorem TopFiveBook.applyRefresh_kept {b b' : TopFiveBook} {d : SpotDepthEvent}
    {result : BookApplyResult} (h : b.applyRefresh d = some (result, b')) :
    AppliedOrKept .appliedRefresh result.status b b' := by
  unfold applyRefresh at h
  split at h
  · obtain ⟨rfl, rfl⟩ := Prod.mk.inj (Option.some.inj h)
    exact .inr ⟨by decide, by decide, .refl b⟩
  · simp only [Option.bind_eq_bind, Option.bind_eq_some_iff] at h
    obtain ⟨_, -, _, -, _, -, h⟩ := h
    obtain ⟨rfl, rfl⟩ := Prod.mk.inj (Option.some.inj h)
    exact .inl rfl

theorem TopFiveBook.applyAcceptedDiff_kept {b b' : TopFiveBook} {d : SpotDepthEvent}
    {result : BookApplyResult} (h : b.applyAcceptedDiff d = some (result, b')) :
    AppliedOrKept .appliedDiff result.status b b' := by
  rcases applyAcceptedDiff_valid h with ⟨hstatus, rfl⟩ | ⟨hstatus, -⟩
  · exact .inr ⟨by simp [hstatus], by simp [hstatus], .invalidate b⟩
  · exact .inl hstatus

theorem BookApplyStatus.Withheld.not_applied {status : BookApplyStatus} (h : status.Withheld) :
    status ≠ .appliedRefresh ∧ status ≠ .appliedDiff := by
  rcases h with rfl | rfl | rfl <;> decide

theorem SpotBook.applyDiff_kept {b b' : SpotBook} {d : SpotDepthEvent} {result : BookApplyResult}
    (h : b.applyDiff d = some (result, b')) :
    AppliedOrKept .appliedDiff result.status b.book b'.book := by
  rcases applyDiff_cases h with ⟨-, hcore⟩ | ⟨hstatus, rfl | rfl⟩
  · exact TopFiveBook.applyAcceptedDiff_kept hcore
  · exact .inr ⟨hstatus.not_applied.1, hstatus.not_applied.2, .refl _⟩
  · exact .inr ⟨hstatus.not_applied.1, hstatus.not_applied.2, .invalidate _⟩

theorem UsdMBook.applyDiff_kept {b b' : UsdMBook} {d : SpotDepthEvent} {result : BookApplyResult}
    (h : b.applyDiff d = some (result, b')) :
    AppliedOrKept .appliedDiff result.status b.book b'.book := by
  rcases applyDiff_cases h with ⟨-, hcore⟩ | ⟨hstatus, rfl | rfl⟩
  · exact TopFiveBook.applyAcceptedDiff_kept hcore
  · exact .inr ⟨hstatus.not_applied.1, hstatus.not_applied.2, .refl _⟩
  · exact .inr ⟨hstatus.not_applied.1, hstatus.not_applied.2, .invalidate _⟩

/-- The book of the venue under a depth event. -/
theorem applyDepth_kept {s s' : SymbolState} {kind : StreamKind} {d : SpotDepthEvent}
    {result : BookApplyResult} (h : applyDepth s kind d = some (result, s')) :
    s.SameButBook s' ∧ AppliedOrKept kind.applied result.status s.book s'.book := by
  cases hv : s.venue with
  | spot =>
      rw [applyDepth_spot hv, Option.map_eq_some_iff] at h
      obtain ⟨⟨r, b⟩, hcall, heq⟩ := h
      obtain ⟨rfl, rfl⟩ := Prod.mk.inj heq
      refine ⟨⟨rfl, rfl, rfl, rfl, rfl, rfl, rfl⟩, ?_⟩
      simp only [SymbolState.book, hv, StreamKind.applied]
      split at hcall
      · rename_i hkind
        rw [if_pos hkind]
        exact TopFiveBook.applyRefresh_kept (SpotBook.applyRefresh_core hcall)
      · rename_i hkind
        rw [if_neg hkind]
        exact SpotBook.applyDiff_kept hcall
  | usdm =>
      rw [applyDepth_usdm hv, Option.map_eq_some_iff] at h
      obtain ⟨⟨r, b⟩, hcall, heq⟩ := h
      obtain ⟨rfl, rfl⟩ := Prod.mk.inj heq
      refine ⟨⟨rfl, rfl, rfl, rfl, rfl, rfl, rfl⟩, ?_⟩
      simp only [SymbolState.book, hv, StreamKind.applied]
      split at hcall
      · rename_i hkind
        rw [if_pos hkind]
        exact TopFiveBook.applyRefresh_kept (UsdMBook.applyRefresh_core hcall)
      · rename_i hkind
        rw [if_neg hkind]
        exact UsdMBook.applyDiff_kept hcall

/-! ## The exits of `process` -/

/-- The exits of `process`, with what each leaves of the state and the batch. -/
inductive ProcessExit (s : SymbolState) (context : EventContext) (payload : Bytes)
    (mode : EventOutputMode) : EventProcessResult → SymbolState → EventRowBatch → Prop
  /-- The context is invalid, or the audit row cannot be written. -/
  | refused {result : EventProcessResult} : result.error ≠ .none →
      result.status = .notProcessed → result.hasBookStatus = false →
      ProcessExit s context payload mode result s {}
  /-- The event was applied to the candidate, but there is no next sequence number. -/
  | exhausted {result : EventProcessResult} : result.error = .sequenceOverflow →
      result.status = .notProcessed → ProcessExit s context payload mode result s {}
  /-- The event was applied to the candidate, but its row cannot be written. -/
  | unwritten {result : EventProcessResult} {next : UInt64} : result.error ≠ .none →
      result.status = .notProcessed → checkedNextSequence s.sequenceNumber = some next →
      ProcessExit s context payload mode result s {}
  | preAudit {result : EventProcessResult} {t : SymbolState} : result.error = .none →
      result.status = .preAuditRejected → result.hasBookStatus = false → t = s ∨ t = s.invalidate →
      ProcessExit s context payload mode result (t.commitContext context) {}
  /-- A payload the schema refused, or a trade. -/
  | audited {result : EventProcessResult} {t : SymbolState} {batch : EventRowBatch} :
      result.error = .none → result.status = .schemaRejected ∨ result.status = .tradeAudited →
      result.hasBookStatus = false → auditBatch mode context payload = .ok batch →
      t = s ∨ t = s.invalidate →
      ProcessExit s context payload mode result (t.commitContext context) batch
  /-- A depth event the book did not apply. -/
  | kept {result : EventProcessResult} {candidate : SymbolState} {bookResult : BookApplyResult}
      {batch : EventRowBatch} : result.error = .none →
      result.status = eventStatus bookResult.status → result.bookStatus = bookResult.status →
      bookResult.emitsSnapshot = false → (s.entered context).SameButBook candidate →
      (s.entered context).book.SameLevels candidate.book →
      auditBatch mode context payload = .ok batch →
      ProcessExit s context payload mode result (candidate.commitContext context) batch
  /-- An applied depth event and its row. -/
  | emitted {result : EventProcessResult} {candidate : SymbolState} {side : BookRowSide}
      {next : UInt64} {row : Bytes} {batch : EventRowBatch} : result.error = .none →
      context.streamKind ≠ .trade → result.status = eventStatus context.streamKind.applied →
      (s.entered context).SameButBook candidate →
      checkedNextSequence s.sequenceNumber = some next →
      formatOrderBookCsvRow (orderBookRowOf s context next side candidate) = .ok row →
      auditBatch mode context payload = .ok batch →
      ProcessExit s context payload mode result
        { candidate.commitContext context with sequenceNumber := next }
        { batch with orderBookRow := row, hasOrderBookRow := true }

theorem AppliedOrKept.emits {applied status : BookApplyStatus} {b b' : TopFiveBook}
    (h : AppliedOrKept applied status b b') {side : BookRowSide}
    (he : (BookApplyResult.mk status side).emitsSnapshot = true) : status = applied := by
  rcases h with h | ⟨hrefresh, hdiff, -⟩
  · exact h
  · simp [BookApplyResult.emitsSnapshot, hrefresh, hdiff] at he

theorem processDepth_exit {s s' : SymbolState} {context : EventContext} {payload : Bytes}
    {mode : EventOutputMode} {depth : SpotDepthEvent} {base result : EventProcessResult}
    {batch batch' : EventRowBatch} (hbase : base.error = .none)
    (haudit : auditBatch mode context payload = .ok batch) (hk : context.streamKind ≠ .trade)
    (h : processDepth s context depth base batch = some (result, s', batch')) :
    ProcessExit s context payload mode result s' batch' := by
  obtain ⟨⟨⟨status, side⟩, candidate⟩, happly, h⟩ := Option.bind_eq_some_iff.mp h
  obtain ⟨hsame, hkept⟩ := applyDepth_kept happly
  dsimp only at h
  split at h
  · rename_i hemits
    obtain rfl := hkept.emits hemits
    split at h
    · simp only [Option.pure_def, Option.some.injEq, Prod.mk.injEq] at h
      obtain ⟨rfl, rfl, rfl⟩ := h
      exact .exhausted rfl rfl
    · rename_i next hnext
      split at h
      · simp only [Option.pure_def, Option.some.injEq, Prod.mk.injEq] at h
        obtain ⟨rfl, rfl, rfl⟩ := h
        exact .unwritten (by simp) rfl hnext
      · rename_i row hrow
        simp only [Option.pure_def, Option.some.injEq, Prod.mk.injEq] at h
        obtain ⟨rfl, rfl, rfl⟩ := h
        exact .emitted hbase hk rfl hsame hnext hrow haudit
  · rename_i hemits
    simp only [Option.pure_def, Option.some.injEq, Prod.mk.injEq] at h
    obtain ⟨rfl, rfl, rfl⟩ := h
    have hlevels : (s.entered context).book.SameLevels candidate.book := by
      rcases hkept with happlied | ⟨-, -, hlevels⟩
      · refine absurd ?_ hemits
        obtain rfl : status = context.streamKind.applied := happlied
        unfold BookApplyResult.emitsSnapshot StreamKind.applied
        split <;> rfl
      · exact hlevels
    exact .kept hbase rfl rfl (Bool.eq_false_iff.mpr hemits) hsame hlevels haudit

theorem SymbolState.entered_cases (s : SymbolState) (context : EventContext) :
    s.entered context = s ∨ s.entered context = s.invalidate := by
  unfold SymbolState.entered
  split
  · exact .inr rfl
  · exact .inl rfl

/-- Every call of `process` leaves by one of the exits. -/
theorem EventProcessor.process_exit {p p' : EventProcessor} {json : Library} {s s' : SymbolState}
    {context : EventContext} {payload : Bytes} {mode : EventOutputMode}
    {result : EventProcessResult} {batch : EventRowBatch}
    (h : p.process json s context payload mode = some (result, s', batch, p')) :
    ProcessExit s context payload mode result s' batch := by
  unfold process at h
  split at h
  · simp only [Option.some.injEq, Prod.mk.injEq] at h
    obtain ⟨rfl, rfl, rfl, -⟩ := h
    exact .refused (by simp) rfl rfl
  · obtain ⟨⟨result', s'', batch'⟩, hparsed, heq⟩ := Option.map_eq_some_iff.mp h
    simp only [Prod.mk.injEq] at heq
    obtain ⟨rfl, rfl, rfl, -⟩ := heq
    generalize (p.parser.parse json context.venue context.streamKind s.symbol payload).1 = parsed
      at hparsed
    have hrejected : ∀ c : Bool, (if c then s.invalidate else s) = s ∨
        (if c then s.invalidate else s) = s.invalidate := by
      intro c
      cases c
      · exact .inl rfl
      · exact .inr rfl
    unfold processParsed at hparsed
    dsimp only at hparsed
    split at hparsed
    · simp only [Option.some.injEq, Prod.mk.injEq] at hparsed
      obtain ⟨rfl, rfl, rfl⟩ := hparsed
      exact .preAudit rfl rfl rfl (hrejected _)
    · split at hparsed
      · simp only [Option.some.injEq, Prod.mk.injEq] at hparsed
        obtain ⟨rfl, rfl, rfl⟩ := hparsed
        exact .refused (by simp) rfl rfl
      · rename_i batch₀ haudit
        split at hparsed
        · simp only [Option.some.injEq, Prod.mk.injEq] at hparsed
          obtain ⟨rfl, rfl, rfl⟩ := hparsed
          exact .audited rfl (.inl rfl) rfl haudit (hrejected _)
        · split at hparsed
          · simp only [Option.some.injEq, Prod.mk.injEq] at hparsed
            obtain ⟨rfl, rfl, rfl⟩ := hparsed
            exact .audited rfl (.inr rfl) rfl haudit (s.entered_cases context)
          · rename_i hk
            exact processDepth_exit rfl haudit hk hparsed

/-! ## Commit or reject -/

/-- What a call without an error has committed. -/
structure CommitsMessage (s : SymbolState) (context : EventContext) (mode : EventOutputMode)
    (result : EventProcessResult) (s' : SymbolState) (batch : EventRowBatch) : Prop where
  context : s'.Committed context
  auditRow : batch.hasAuditRow = true ↔ mode = .liveCapture ∧ result.status ≠ .preAuditRejected
  orderBookRow : batch.hasOrderBookRow = true ↔
    result.status = .appliedRefresh ∨ result.status = .appliedDiff
  auditFlag : batch.hasAuditRow = true ↔ batch.auditRow ≠ []
  orderBookFlag : batch.hasOrderBookRow = true ↔ batch.orderBookRow ≠ []
  levels : ¬ (result.status = .appliedRefresh ∨ result.status = .appliedDiff) →
    s.book.SameLevels s'.book ∧ s'.sequenceNumber = s.sequenceNumber

/-- The batch after the audit row: the row in live capture, nothing in replay. -/
theorem auditBatch_flags {mode : EventOutputMode} {context : EventContext} {payload : Bytes}
    {batch : EventRowBatch} (h : auditBatch mode context payload = .ok batch) :
    (batch.hasAuditRow = true ↔ mode = .liveCapture) ∧
      (batch.hasAuditRow = true ↔ batch.auditRow ≠ []) ∧
      batch.hasOrderBookRow = false ∧ batch.orderBookRow = [] := by
  cases mode with
  | replay =>
      obtain rfl := Except.ok.inj h
      simp
  | liveCapture =>
      obtain ⟨row, hrow, rfl⟩ := auditBatch_live h
      simpa using formatMarketDataCsvRow_ne_nil hrow

theorem SymbolState.sameLevels_of_invalidated {s t : SymbolState} (h : t = s ∨ t = s.invalidate) :
    s.book.SameLevels t.book ∧ t.sequenceNumber = s.sequenceNumber := by
  rcases h with rfl | rfl
  · exact ⟨.refl _, rfl⟩
  · rw [invalidate_book]
    exact ⟨.invalidate _, s.invalidate_sequenceNumber⟩

theorem eventStatus_applied (r : BookApplyResult) :
    eventStatus r.status = .appliedRefresh ∨ eventStatus r.status = .appliedDiff ↔
      r.emitsSnapshot = true := by
  cases h : r.status <;> simp [h, eventStatus, BookApplyResult.emitsSnapshot]

theorem eventStatus_ne_preAuditRejected (status : BookApplyStatus) :
    eventStatus status ≠ .preAuditRejected := by
  cases status <;> decide

theorem ProcessExit.commits {s s' : SymbolState} {context : EventContext} {payload : Bytes}
    {mode : EventOutputMode} {result : EventProcessResult} {batch : EventRowBatch}
    (h : ProcessExit s context payload mode result s' batch) (herror : result.error = .none) :
    CommitsMessage s context mode result s' batch := by
  cases h with
  | refused hfailed _ _ => exact absurd herror hfailed
  | exhausted hfailed _ =>
      rw [hfailed] at herror
      cases herror
  | unwritten hfailed _ _ => exact absurd herror hfailed
  | preAudit _ hstatus _ ht =>
      obtain ⟨hlevels, hsequence⟩ := SymbolState.sameLevels_of_invalidated ht
      refine ⟨⟨rfl, rfl, rfl⟩, ?_, ?_, by simp, by simp, fun _ => ⟨hlevels, hsequence⟩⟩
      · simp [hstatus]
      · simp [hstatus]
  | audited _ hstatus _ haudit ht =>
      obtain ⟨haudited, hflag, hrow, hbytes⟩ := auditBatch_flags haudit
      obtain ⟨hlevels, hsequence⟩ := SymbolState.sameLevels_of_invalidated ht
      refine ⟨⟨rfl, rfl, rfl⟩, ?_, ?_, hflag, by simp [hrow, hbytes],
        fun _ => ⟨hlevels, hsequence⟩⟩
      · rcases hstatus with hstatus | hstatus <;> simp [haudited, hstatus]
      · rcases hstatus with hstatus | hstatus <;> simp [hrow, hstatus]
  | kept _ hstatus _ hemits hsame hlevels haudit =>
      obtain ⟨haudited, hflag, hrow, hbytes⟩ := auditBatch_flags haudit
      have hentered := SymbolState.sameLevels_of_invalidated (s.entered_cases context)
      refine ⟨⟨rfl, rfl, rfl⟩, ?_, ?_, hflag, by simp [hrow, hbytes], fun _ => ?_⟩
      · simp [haudited, hstatus, eventStatus_ne_preAuditRejected]
      · rw [hstatus, eventStatus_applied, hrow, hemits]
      · exact ⟨hentered.1.trans hlevels, hsame.sequenceNumber.trans hentered.2⟩
  | emitted _ _ hstatus _ _ hformat haudit =>
      obtain ⟨haudited, hflag, -, -⟩ := auditBatch_flags haudit
      have happlied : result.status = .appliedRefresh ∨ result.status = .appliedDiff := by
        rw [hstatus, StreamKind.applied]
        split
        · exact .inl rfl
        · exact .inr rfl
      refine ⟨⟨rfl, rfl, rfl⟩, ?_, ?_, hflag, ?_, fun hnot => absurd happlied hnot⟩
      · rw [hstatus]
        simp [haudited, eventStatus_ne_preAuditRejected]
      · simpa using happlied
      · simpa using formatOrderBookCsvRow_ne_nil hformat

theorem ProcessExit.rejects {s s' : SymbolState} {context : EventContext} {payload : Bytes}
    {mode : EventOutputMode} {result : EventProcessResult} {batch : EventRowBatch}
    (h : ProcessExit s context payload mode result s' batch) (herror : result.error ≠ .none) :
    s' = s ∧ batch = {} := by
  cases h with
  | refused _ _ _ => exact ⟨rfl, rfl⟩
  | exhausted _ _ => exact ⟨rfl, rfl⟩
  | unwritten _ _ _ => exact ⟨rfl, rfl⟩
  | preAudit hnone _ _ _ => exact absurd hnone herror
  | audited hnone _ _ _ _ => exact absurd hnone herror
  | kept hnone _ _ _ _ _ _ => exact absurd hnone herror
  | emitted hnone _ _ _ _ _ _ => exact absurd hnone herror

/-- `process` returns on every state a run reaches, and on any state it commits the
message or rejects it whole. -/
theorem process_commits_or_rejects (p : EventProcessor) (json : Library) (s : SymbolState)
    (context : EventContext) (payload : Bytes) (mode : EventOutputMode) :
    (s.Ok → ∃ r, p.process json s context payload mode = some r) ∧
    ∀ result s' batch p', p.process json s context payload mode = some (result, s', batch, p') →
      (result.error ≠ .none → s' = s ∧ batch = {}) ∧
      (result.error = .none → CommitsMessage s context mode result s' batch) := by
  refine ⟨fun hok => ?_, fun result s' batch p' h => ?_⟩
  · obtain ⟨result, s', batch, p', h, -⟩ := p.process_outcome json hok context payload mode
    exact ⟨_, h⟩
  · have hexit := EventProcessor.process_exit h
    exact ⟨hexit.rejects, hexit.commits⟩

/-! ## The numbers of the rows -/

namespace ProcessorLabel

/-- An order-book row was emitted. -/
def emits : ProcessorLabel → Bool
  | .processed _ _ _ _ batch => batch.hasOrderBookRow
  | .invalidated => false

/-- A refresh or a differential event was applied. -/
def Applied : ProcessorLabel → Prop
  | .processed _ _ _ result _ => result.status = .appliedRefresh ∨ result.status = .appliedDiff
  | .invalidated => False

/-- The emitted row: its number and instrument id, the timestamp of its message, and the
type that goes with what was applied. -/
def CarriesRow (id number : Nat) : ProcessorLabel → Prop
  | .processed context _ _ result batch => ∃ row : OrderBookCsvRow,
      formatOrderBookCsvRow row = .ok batch.orderBookRow ∧
      [comma].intercalate (orderBookFields row) <+: batch.orderBookRow ∧
      row.sequenceNumber.toNat = number ∧ row.timestamp = context.timestamp ∧ row.instrumentId = id ∧
      ((row.rowType = .partialRefresh ∧ result.status = .appliedRefresh) ∨
        (row.rowType = .differential ∧ result.status = .appliedDiff))
  | .invalidated => False

end ProcessorLabel

/-- The rows emitted so far are numbered from one, and the state holds the last number. -/
structure RowsNumbered (id : Nat) (labels : List ProcessorLabel) (s : SymbolState) : Prop where
  instrumentId : s.instrumentId = id
  sequence : s.sequenceNumber.toNat = (labels.filter ProcessorLabel.emits).length
  rows : ∀ (i : Nat) (l : ProcessorLabel), (labels.filter ProcessorLabel.emits)[i]? = some l →
    l.CarriesRow id (i + 1)
  applied : ∀ l ∈ labels, l.emits = true ↔ l.Applied

theorem checkedNextSequence_some {current next : UInt64}
    (h : checkedNextSequence current = some next) :
    current.toNat ≠ uint64Maximum ∧ next.toNat = current.toNat + 1 := by
  unfold checkedNextSequence at h
  split at h
  · cases h
  · rename_i hmax
    obtain rfl := Option.some.inj h
    refine ⟨hmax, ?_⟩
    have hlt := current.toNat_lt
    rw [UInt64.toNat_add, UInt64.toNat_one]
    simp only [uint64Maximum] at hmax
    omega

theorem SymbolState.SameButBook.entered_instrumentId {s : SymbolState} {context : EventContext} {candidate : SymbolState}
    (h : (s.entered context).SameButBook candidate) :
    candidate.instrumentId = s.instrumentId := by
  rw [h.instrumentId]
  rcases s.entered_cases context with hentered | hentered
  · rw [hentered]
  · rw [hentered, SymbolState.invalidate_instrumentId]

namespace RowsNumbered

variable {id : Nat} {labels : List ProcessorLabel} {s s' : SymbolState} {l : ProcessorLabel}

/-- A step that emits nothing. -/
theorem quiet (h : RowsNumbered id labels s) (hemits : l.emits = false) (happlied : ¬ l.Applied)
    (hid : s'.instrumentId = s.instrumentId) (hsequence : s'.sequenceNumber = s.sequenceNumber) :
    RowsNumbered id (labels ++ [l]) s' := by
  have hfilter : (labels ++ [l]).filter ProcessorLabel.emits =
      labels.filter ProcessorLabel.emits := by simp [hemits]
  refine ⟨hid.trans h.instrumentId, by rw [hfilter, hsequence, h.sequence],
    by rw [hfilter]; exact h.rows, ?_⟩
  intro m hm
  rcases List.mem_append.mp hm with hm | hm
  · exact h.applied m hm
  · obtain rfl := List.mem_singleton.mp hm
    simp [hemits, happlied]

/-- A step that emits the next row. -/
theorem row (h : RowsNumbered id labels s) (hemits : l.emits = true) (happlied : l.Applied)
    (hrow : l.CarriesRow id (s.sequenceNumber.toNat + 1)) (hid : s'.instrumentId = s.instrumentId)
    (hsequence : s'.sequenceNumber.toNat = s.sequenceNumber.toNat + 1) :
    RowsNumbered id (labels ++ [l]) s' := by
  have hfilter : (labels ++ [l]).filter ProcessorLabel.emits =
      labels.filter ProcessorLabel.emits ++ [l] := by simp [hemits]
  refine ⟨hid.trans h.instrumentId, ?_, ?_, ?_⟩
  · rw [hfilter, hsequence, h.sequence, List.length_append]
    rfl
  · rw [hfilter]
    intro i m hm
    rw [List.getElem?_append] at hm
    split at hm
    · exact h.rows i m hm
    · rename_i hi
      obtain ⟨hlast, rfl⟩ : i - (labels.filter ProcessorLabel.emits).length = 0 ∧ l = m := by
        simpa [List.getElem?_singleton, and_comm] using hm
      have hindex : i = s.sequenceNumber.toNat := by
        rw [h.sequence]
        omega
      rw [hindex]
      exact hrow
  · intro m hm
    rcases List.mem_append.mp hm with hm | hm
    · exact h.applied m hm
    · obtain rfl := List.mem_singleton.mp hm
      simp [hemits, happlied]

/-- The row of an applied event of a depth stream has the type of the event. -/
theorem rowType_applied {context : EventContext} (hk : context.streamKind ≠ .trade)
    (s candidate : SymbolState) (next : UInt64) (side : BookRowSide) :
    ((orderBookRowOf s context next side candidate).rowType = .partialRefresh ∧
        eventStatus context.streamKind.applied = .appliedRefresh) ∨
      ((orderBookRowOf s context next side candidate).rowType = .differential ∧
        eventStatus context.streamKind.applied = .appliedDiff) := by
  cases hkind : context.streamKind with
  | trade => exact absurd hkind hk
  | depth5 => exact .inl ⟨by simp [orderBookRowOf, hkind], rfl⟩
  | depthDiff => exact .inr ⟨by simp [orderBookRowOf, hkind], rfl⟩

theorem message (h : RowsNumbered id labels s) {context : EventContext} {payload : Bytes}
    {mode : EventOutputMode} {result : EventProcessResult} {batch : EventRowBatch}
    (hexit : ProcessExit s context payload mode result s' batch) :
    RowsNumbered id (labels ++ [.processed context payload mode result batch]) s' := by
  have hfailed : result.status = .notProcessed →
      ¬ (ProcessorLabel.processed context payload mode result batch).Applied := by
    intro hstatus
    simp [ProcessorLabel.Applied, hstatus]
  have hinvalidated : ∀ {t : SymbolState}, t = s ∨ t = s.invalidate →
      t.instrumentId = s.instrumentId ∧ t.sequenceNumber = s.sequenceNumber := by
    rintro t (rfl | rfl)
    · exact ⟨rfl, rfl⟩
    · exact ⟨s.invalidate_instrumentId, s.invalidate_sequenceNumber⟩
  cases hexit with
  | refused _ hstatus _ => exact h.quiet rfl (hfailed hstatus) rfl rfl
  | exhausted _ hstatus => exact h.quiet rfl (hfailed hstatus) rfl rfl
  | unwritten _ hstatus _ => exact h.quiet rfl (hfailed hstatus) rfl rfl
  | preAudit _ hstatus _ ht =>
      refine h.quiet rfl ?_ (hinvalidated ht).1 (hinvalidated ht).2
      simp [ProcessorLabel.Applied, hstatus]
  | audited _ hstatus _ haudit ht =>
      refine h.quiet (auditBatch_ok haudit) ?_ (hinvalidated ht).1 (hinvalidated ht).2
      rcases hstatus with hstatus | hstatus <;> simp [ProcessorLabel.Applied, hstatus]
  | kept _ hstatus _ hemits hsame _ haudit =>
      have hid := hsame.entered_instrumentId
      refine h.quiet (auditBatch_ok haudit) ?_ hid ?_
      · rw [ProcessorLabel.Applied, hstatus, eventStatus_applied, hemits]
        simp
      · exact hsame.sequenceNumber.trans (hinvalidated (s.entered_cases context)).2
  | @emitted candidate side next _ _ _ hk hstatus hsame hnext hformat _ =>
      obtain ⟨-, hnumber⟩ := checkedNextSequence_some hnext
      have htype := rowType_applied hk s candidate next side
      have hid := hsame.entered_instrumentId
      have hrowId : (orderBookRowOf s context next side candidate).instrumentId = id := by
        rw [← h.instrumentId]
        rfl
      refine h.row rfl ?_ ⟨_, hformat, formatOrderBookCsvRow_fields hformat, hnumber, rfl, hrowId, ?_⟩ hid hnumber
      · rw [ProcessorLabel.Applied, hstatus]
        exact htype.imp And.right And.right
      · rw [hstatus]
        exact htype

end RowsNumbered

/-- At the greatest number a message emits nothing, and one whose event the book applied
is refused whole. -/
theorem ProcessExit.exhausted_sequence {s s' : SymbolState} {context : EventContext}
    {payload : Bytes} {mode : EventOutputMode} {result : EventProcessResult}
    {batch : EventRowBatch} (h : ProcessExit s context payload mode result s' batch)
    (hmax : s.sequenceNumber.toNat = uint64Maximum) :
    batch.hasOrderBookRow = false ∧ s'.sequenceNumber = s.sequenceNumber ∧
      (result.hasBookStatus = true →
        result.bookStatus = .appliedRefresh ∨ result.bookStatus = .appliedDiff →
        result.error = .sequenceOverflow ∧ s' = s ∧ batch = {}) := by
  have hunbooked : ∀ {P : Prop}, result.hasBookStatus = false → result.hasBookStatus = true → P := by
    intro P hfalse htrue
    rw [hfalse] at htrue
    cases htrue
  cases h with
  | refused _ _ hbook => exact ⟨rfl, rfl, fun hbook' => hunbooked hbook hbook'⟩
  | exhausted herror _ => exact ⟨rfl, rfl, fun _ _ => ⟨herror, rfl, rfl⟩⟩
  | unwritten _ _ hnext => exact absurd hmax (checkedNextSequence_some hnext).1
  | preAudit _ _ hbook ht =>
      exact ⟨rfl, (SymbolState.sameLevels_of_invalidated ht).2, fun hbook' => hunbooked hbook hbook'⟩
  | audited _ _ hbook haudit ht =>
      exact ⟨auditBatch_ok haudit, (SymbolState.sameLevels_of_invalidated ht).2,
        fun hbook' => hunbooked hbook hbook'⟩
  | kept _ _ hbook hemits hsame _ haudit =>
      have hentered := (SymbolState.sameLevels_of_invalidated (s.entered_cases context)).2
      refine ⟨auditBatch_ok haudit, hsame.sequenceNumber.trans hentered, fun _ happlied => ?_⟩
      rw [hbook] at happlied
      rcases happlied with happlied | happlied <;>
        simp [BookApplyResult.emitsSnapshot, happlied] at hemits
  | emitted _ _ _ _ hnext _ _ => exact absurd hmax (checkedNextSequence_some hnext).1

/-- Over every run the rows are numbered 1, 2, 3, ..., the state counts them, and at the
greatest number the next one is refused. -/
theorem output_sequence_contiguous {json : Library} {venue : PayloadVenue} {symbol : Bytes}
    {s₀ s : SymbolState} {labels : List ProcessorLabel}
    (hinit : SymbolState.create venue symbol = some s₀)
    (hrun : Exec (processorRuns json venue symbol) s₀ labels s) :
    ∃ id, deriveInstrumentId symbol = some id ∧ 0 < id ∧
      s.sequenceNumber.toNat = (labels.filter ProcessorLabel.emits).length ∧
      (∀ (i : Nat) (l : ProcessorLabel), (labels.filter ProcessorLabel.emits)[i]? = some l →
        l.CarriesRow id (i + 1)) ∧
      (∀ l ∈ labels, l.emits = true ↔ l.Applied) ∧
      (s.sequenceNumber.toNat = uint64Maximum →
        ∀ (p p' : EventProcessor) (context : EventContext) (payload : Bytes)
          (mode : EventOutputMode) (result : EventProcessResult) (s' : SymbolState)
          (batch : EventRowBatch),
          p.process json s context payload mode = some (result, s', batch, p') →
          batch.hasOrderBookRow = false ∧ s'.sequenceNumber = s.sequenceNumber ∧
          (result.hasBookStatus = true →
            result.bookStatus = .appliedRefresh ∨ result.bookStatus = .appliedDiff →
            result.error = .sequenceOverflow ∧ s' = s ∧ batch = {})) := by
  obtain ⟨id, hid, rfl⟩ := Option.map_eq_some_iff.mp hinit
  have h : RowsNumbered id labels s := by
    refine hrun.history (P := RowsNumbered id) ⟨rfl, rfl, by simp, by simp⟩ ?_
    intro labels s l s' h hstep
    cases l with
    | processed context payload mode result batch =>
        obtain ⟨p, p', hprocess⟩ := hstep
        exact h.message (EventProcessor.process_exit hprocess)
    | invalidated =>
        obtain rfl : s' = s.invalidate := hstep
        exact h.quiet rfl not_false s.invalidate_instrumentId s.invalidate_sequenceNumber
  refine ⟨id, hid, (deriveInstrumentId_some hid).2.1, h.sequence, h.rows, h.applied, ?_⟩
  intro hmax p p' context payload mode result s' batch hprocess
  exact (EventProcessor.process_exit hprocess).exhausted_sequence hmax

/-! ### A refresh and a differential event, and the last number -/

section Sample

private def rowRefresh : Compact := .refresh 100 [("10", "1")] [("11", "2")]

private def rowDiff : Compact := .diff 101 102 [("9", "5")] []

private def rowLibrary : Library := .ofDocuments [rowRefresh, rowDiff]

private def rowContext (kind : StreamKind) (sequence : UInt64) : EventContext :=
  { streamKind := kind, connectionSequence := sequence, symbol := ascii "BTCUSDT" }

private def rowStart : SymbolState :=
  { symbol := ascii "BTCUSDT", venue := .spot, instrumentId := 1747767916 }

/-- A state at the greatest sequence number. -/
private def lastState : SymbolState := { rowStart with sequenceNumber := 18446744073709551615 }

theorem process_commits_or_rejects_sample :
    (∃ result s' batch p', ({} : EventProcessor).process rowLibrary rowStart
        (rowContext .depth5 1) rowRefresh.text .liveCapture = some (result, s', batch, p') ∧
      result.error = .none ∧ s'.lastConnectionSequence = 1 ∧ batch.hasAuditRow = true) ∧
    (∃ result s' batch p', ({} : EventProcessor).process rowLibrary lastState
        (rowContext .depth5 1) rowRefresh.text .liveCapture = some (result, s', batch, p') ∧
      result.error = .sequenceOverflow ∧ s' = lastState ∧ batch = {}) := by
  have hfirst : (({} : EventProcessor).process rowLibrary rowStart (rowContext .depth5 1)
      rowRefresh.text .liveCapture).map (fun r => (r.1.error, r.1.status)) =
      some (.none, .appliedRefresh) := by decide +kernel
  have hlast : (({} : EventProcessor).process rowLibrary lastState (rowContext .depth5 1)
      rowRefresh.text .liveCapture).map (fun r => r.1.error) = some .sequenceOverflow := by
    decide +kernel
  obtain ⟨⟨r, s, b, p⟩, hprocess, heq⟩ := Option.map_eq_some_iff.mp hfirst
  obtain ⟨⟨r', s', b', p'⟩, hprocess', heq'⟩ := Option.map_eq_some_iff.mp hlast
  obtain ⟨herror, hstatus⟩ := Prod.mk.inj heq
  have hcommits := ((process_commits_or_rejects _ _ _ _ _ _).2 _ _ _ _ hprocess).2 herror
  have hrejects := ((process_commits_or_rejects _ _ _ _ _ _).2 _ _ _ _ hprocess').1
    (by simp [show r'.error = .sequenceOverflow from heq'])
  refine ⟨⟨r, s, b, p, hprocess, herror, hcommits.context.sequence, ?_⟩,
    ⟨r', s', b', p', hprocess', heq', hrejects⟩⟩
  exact hcommits.auditRow.mpr ⟨rfl, by simp [show r.status = .appliedRefresh from hstatus]⟩

private def rowRun : Option (List ProcessorLabel × SymbolState) :=
  processAll rowLibrary [(rowContext .depth5 1, rowRefresh.text, .liveCapture),
    (rowContext .trade 1, [], .liveCapture), (rowContext .depthDiff 2, rowDiff.text, .replay)] rowStart

/-- Two rows, with a refused message between them. -/
theorem output_sequence_contiguous_sample : ∃ labels s,
    Exec (processorRuns rowLibrary .spot (ascii "BTCUSDT")) rowStart labels s ∧
    labels.length = 3 ∧ s.sequenceNumber = 2 ∧ (labels.filter ProcessorLabel.emits).length = 2 ∧
    ∀ (i : Nat) (l : ProcessorLabel), (labels.filter ProcessorLabel.emits)[i]? = some l →
      l.CarriesRow 1747767916 (i + 1) := by
  have hinit : SymbolState.create .spot (ascii "BTCUSDT") = some rowStart := by decide +kernel
  have hid : deriveInstrumentId (ascii "BTCUSDT") = some 1747767916 := by decide +kernel
  have hreport : rowRun.map (fun r => (r.1.length, r.2.sequenceNumber)) = some (3, 2) := by
    decide +kernel
  obtain ⟨⟨labels, s⟩, hrun, heq⟩ := Option.map_eq_some_iff.mp hreport
  obtain ⟨hlength, hsequence⟩ := Prod.mk.inj heq
  have hexec : Exec (processorRuns rowLibrary .spot (ascii "BTCUSDT")) rowStart labels s :=
    processAll_exec _ hrun
  obtain ⟨id, hid', -, hcount, hrows, -⟩ := output_sequence_contiguous hinit hexec
  obtain rfl := Option.some.inj (hid'.symm.trans hid)
  refine ⟨labels, s, hexec, hlength, hsequence, ?_, hrows⟩
  rw [← hcount, show s.sequenceNumber = 2 from hsequence]
  rfl

end Sample

end MarketCapture
