import MarketCapture.Processor.Outcome

/-! # Two states under one message

A message processed in live capture on one state and in replay on another: if the
states have the same identity and the same books when the event reaches them, the
two results and the two order-book rows are the same.
-/

namespace MarketCapture

open Simdjson

namespace SymbolState

/-- The same symbol with the same number of rows written. -/
structure Alike (a b : SymbolState) : Prop where
  symbol : b.symbol = a.symbol
  venue : b.venue = a.venue
  instrumentId : b.instrumentId = a.instrumentId
  sequenceNumber : b.sequenceNumber = a.sequenceNumber

structure SameBooks (a b : SymbolState) : Prop where
  spot : b.spotBook = a.spotBook
  usdm : b.usdmBook = a.usdmBook

theorem Alike.refl (s : SymbolState) : s.Alike s := ⟨rfl, rfl, rfl, rfl⟩

theorem Alike.trans {a b c : SymbolState} (h₁ : a.Alike b) (h₂ : b.Alike c) : a.Alike c :=
  ⟨h₂.symbol.trans h₁.symbol, h₂.venue.trans h₁.venue, h₂.instrumentId.trans h₁.instrumentId,
    h₂.sequenceNumber.trans h₁.sequenceNumber⟩

theorem SameBooks.symm {a b : SymbolState} (h : a.SameBooks b) : b.SameBooks a :=
  ⟨h.spot.symm, h.usdm.symm⟩

theorem SameBooks.trans {a b c : SymbolState} (h₁ : a.SameBooks b) (h₂ : b.SameBooks c) :
    a.SameBooks c := ⟨h₂.spot.trans h₁.spot, h₂.usdm.trans h₁.usdm⟩

theorem SameBooks.refl (s : SymbolState) : s.SameBooks s := ⟨rfl, rfl⟩

theorem SameBooks.book {a b : SymbolState} (h : a.SameBooks b) (hv : b.venue = a.venue) :
    b.book = a.book := by
  unfold SymbolState.book
  rw [hv, h.spot, h.usdm]

theorem SameBooks.invalidate {a b : SymbolState} (h : a.SameBooks b) (hv : b.venue = a.venue) :
    a.invalidate.SameBooks b.invalidate := by
  unfold SymbolState.invalidate
  rw [hv]
  cases a.venue
  · exact ⟨congrArg SpotBook.invalidate h.spot, h.usdm⟩
  · exact ⟨h.spot, congrArg UsdMBook.invalidate h.usdm⟩

@[simp] theorem invalidate_invalidate (s : SymbolState) : s.invalidate.invalidate = s.invalidate := by
  unfold invalidate
  cases s.venue
  · simp [SpotBook.invalidate, TopFiveBook.invalidate]
  · simp [UsdMBook.invalidate, TopFiveBook.invalidate]

theorem invalidate_sequence (s : SymbolState) :
    s.invalidate.lastConnectionSequence = s.lastConnectionSequence := by
  unfold invalidate
  split <;> rfl

theorem alike_invalidate (s : SymbolState) : s.Alike s.invalidate :=
  ⟨invalidate_symbol s, invalidate_venue s, invalidate_instrumentId s, invalidate_sequenceNumber s⟩

/-- Invalidating a book that is not valid changes nothing. -/
def Idle (s : SymbolState) : Prop := s.bookValid = false → s.invalidate = s

theorem idle_invalidate (s : SymbolState) : s.invalidate.Idle := fun _ => invalidate_invalidate s

theorem commitContext_invalidate (s : SymbolState) (context : EventContext) :
    (s.commitContext context).invalidate = s.invalidate.commitContext context := by
  unfold SymbolState.invalidate SymbolState.commitContext
  cases s.venue <;> rfl

theorem Idle.commitContext {s : SymbolState} (h : s.Idle) (context : EventContext) :
    (s.commitContext context).Idle := by
  intro hv
  have hs : s.invalidate = s := h hv
  rw [commitContext_invalidate, hs]

theorem Idle.withSequence {s : SymbolState} (h : s.Idle) (n : UInt64) :
    ({ s with sequenceNumber := n } : SymbolState).Idle := by
  intro hv
  have hs : s.invalidate = s := h hv
  have hset : ({ s with sequenceNumber := n } : SymbolState).invalidate =
      { s.invalidate with sequenceNumber := n } := by
    unfold SymbolState.invalidate
    cases s.venue <;> rfl
  rw [hset, hs]

/-- What a message that does not reach the book leaves: a later epoch or a rejected
differential event invalidates. -/
def passed (s : SymbolState) (context : EventContext) (rejectedDiff : Bool) : SymbolState :=
  if s.epochChanged context || rejectedDiff then s.invalidate else s

theorem entered_eq_passed (s : SymbolState) (context : EventContext) :
    s.entered context = s.passed context false := by
  unfold entered passed
  rw [Bool.or_false]

theorem passed_cases (s : SymbolState) (context : EventContext) (rejectedDiff : Bool) :
    s.passed context rejectedDiff = s.invalidate ∨
      (s.passed context rejectedDiff = s ∧ s.epochChanged context = false ∧
        rejectedDiff = false) := by
  unfold passed
  split
  · exact .inl rfl
  · rename_i h
    simp only [Bool.or_eq_true, not_or, Bool.not_eq_true] at h
    exact .inr ⟨rfl, h.1, h.2⟩

theorem alike_passed (s : SymbolState) (context : EventContext) (rejectedDiff : Bool) :
    s.Alike (s.passed context rejectedDiff) := by
  rcases s.passed_cases context rejectedDiff with h | ⟨h, -⟩ <;> rw [h]
  · exact alike_invalidate s
  · exact .refl s

theorem Idle.passed {s : SymbolState} (h : s.Idle) (context : EventContext) (rejectedDiff : Bool) :
    (s.passed context rejectedDiff).Idle := by
  rcases s.passed_cases context rejectedDiff with h' | ⟨h', -⟩ <;> rw [h']
  · exact idle_invalidate s
  · exact h

end SymbolState

/-! ## The depth branch -/

theorem TopFiveBook.applyRefresh_valid {b b' : TopFiveBook} {d : SpotDepthEvent}
    {result : BookApplyResult} (h : b.applyRefresh d = some (result, b')) : b'.valid = true := by
  unfold applyRefresh at h
  split at h
  · rename_i hstale
    obtain ⟨-, rfl⟩ := Prod.mk.inj (Option.some.inj h)
    simp only [Bool.and_eq_true] at hstale
    exact hstale.1
  · simp only [Option.bind_eq_bind, Option.bind_eq_some_iff] at h
    obtain ⟨_, -, _, -, _, -, h⟩ := h
    obtain ⟨-, rfl⟩ := Prod.mk.inj (Option.some.inj h)
    rfl

theorem TopFiveBook.applyAcceptedDiff_valid {b b' : TopFiveBook} {d : SpotDepthEvent}
    {result : BookApplyResult} (h : b.applyAcceptedDiff d = some (result, b')) :
    (result.status = .crossedBook ∧ b' = b.invalidate) ∨
      (result.status = .appliedDiff ∧ b'.valid = b.valid) := by
  unfold applyAcceptedDiff at h
  simp only [Option.bind_eq_bind, Option.bind_eq_some_iff] at h
  obtain ⟨_, -, _, -, h⟩ := h
  split at h
  · obtain ⟨rfl, rfl⟩ := Prod.mk.inj (Option.some.inj h)
    exact .inl ⟨rfl, rfl⟩
  · obtain ⟨rfl, rfl⟩ := Prod.mk.inj (Option.some.inj h)
    exact .inr ⟨rfl, rfl⟩

namespace UsdMBook

theorem applyRefresh_valid {b b' : UsdMBook} {d : SpotDepthEvent} {result : BookApplyResult}
    (h : b.applyRefresh d = some (result, b')) : b'.book.valid = true := by
  unfold applyRefresh at h
  simp only [Option.bind_eq_bind, Option.bind_eq_some_iff] at h
  obtain ⟨⟨result₁, book⟩, hcore, h⟩ := h
  have hvalid := TopFiveBook.applyRefresh_valid hcore
  split at h <;> obtain ⟨-, rfl⟩ := Prod.mk.inj (Option.some.inj h) <;> exact hvalid

theorem invalidate_invalidate (b : UsdMBook) : b.invalidate.invalidate = b.invalidate := rfl

theorem applySequenced_idle {b b' : UsdMBook} {d : SpotDepthEvent} {result : BookApplyResult}
    (hv : b.book.valid = true) (h : b.applySequenced d = some (result, b')) :
    b'.book.valid = false → b'.invalidate = b' := by
  intro hinvalid
  unfold applySequenced at h
  simp only [Option.bind_eq_bind, Option.bind_eq_some_iff] at h
  obtain ⟨⟨result₁, book⟩, hcore, h⟩ := h
  rcases TopFiveBook.applyAcceptedDiff_valid hcore with ⟨hstatus, rfl⟩ | ⟨hstatus, hsame⟩
  · simp only [hstatus, reduceCtorEq, ↓reduceIte, Option.pure_def] at h
    obtain ⟨-, rfl⟩ := Prod.mk.inj (Option.some.inj h)
    exact invalidate_invalidate b
  · simp only [hstatus, ↓reduceIte, Option.pure_def] at h
    obtain ⟨-, rfl⟩ := Prod.mk.inj (Option.some.inj h)
    have hvalid : book.valid = false := hinvalid
    rw [hsame, hv] at hvalid
    cases hvalid

/-- A differential event leaves a book valid, or as an invalidation leaves it. -/
theorem applyDiff_idle {b b' : UsdMBook} {d : SpotDepthEvent} {result : BookApplyResult}
    (hidle : b.book.valid = false → b.invalidate = b) (h : b.applyDiff d = some (result, b')) :
    b'.book.valid = false → b'.invalidate = b' := by
  unfold applyDiff at h
  simp only [Option.bind_eq_bind, Option.bind_eq_some_iff] at h
  obtain ⟨_, -, h⟩ := h
  have kept : ∀ status : BookApplyStatus, some (⟨status, rowSide d⟩, b) = some (result, b') →
      b'.book.valid = false → b'.invalidate = b' := by
    intro status heq
    obtain ⟨-, rfl⟩ := Prod.mk.inj (Option.some.inj heq)
    exact hidle
  have gap : some (⟨.sequenceGap, rowSide d⟩, b.invalidate) = some (result, b') →
      b'.book.valid = false → b'.invalidate = b' := by
    intro heq _
    obtain ⟨-, rfl⟩ := Prod.mk.inj (Option.some.inj heq)
    exact invalidate_invalidate b
  cases hv : b.book.valid with
  | false =>
      simp only [hv, Bool.not_false, ↓reduceIte] at h
      exact kept _ h
  | true =>
      simp only [hv, Bool.not_true, Bool.false_eq_true, ↓reduceIte] at h
      split at h
      · split at h
        · exact gap h
        · split at h
          · exact kept _ h
          · exact applySequenced_idle hv h
      · split at h
        · exact kept _ h
        · split at h
          · exact gap h
          · exact applySequenced_idle hv h

end UsdMBook

theorem applyDepth_spot {s : SymbolState} (hv : s.venue = .spot) (kind : StreamKind)
    (d : SpotDepthEvent) :
    applyDepth s kind d =
      (if kind = .depth5 then s.spotBook.applyRefresh d else s.spotBook.applyDiff d).map
        fun r => (r.1, { s with spotBook := r.2 }) := by
  unfold applyDepth
  simp only [hv, Option.map_eq_bind]
  split <;> rfl

theorem applyDepth_usdm {s : SymbolState} (hv : s.venue = .usdm) (kind : StreamKind)
    (d : SpotDepthEvent) :
    applyDepth s kind d =
      (if kind = .depth5 then s.usdmBook.applyRefresh d else s.usdmBook.applyDiff d).map
        fun r => (r.1, { s with usdmBook := r.2 }) := by
  unfold applyDepth
  simp only [hv, Option.map_eq_bind]
  split <;> rfl

/-- A depth event on states with the same books. -/
theorem applyDepth_sameBooks {a a' b : SymbolState} {kind : StreamKind} {d : SpotDepthEvent}
    {result : BookApplyResult} (hv : b.venue = a.venue) (h : a.SameBooks b)
    (heq : applyDepth a kind d = some (result, a')) :
    ∃ b', applyDepth b kind d = some (result, b') ∧ a'.SameBooks b' ∧ a.SameButBook a' ∧
      b.SameButBook b' := by
  have same : ∀ (s : SymbolState) spot usdm,
      s.SameButBook { s with spotBook := spot, usdmBook := usdm } :=
    fun s spot usdm => ⟨rfl, rfl, rfl, rfl, rfl, rfl, rfl⟩
  cases hvenue : a.venue with
  | spot =>
      rw [applyDepth_spot hvenue, Option.map_eq_some_iff] at heq
      obtain ⟨r, hcall, heq⟩ := heq
      obtain ⟨rfl, rfl⟩ := Prod.mk.inj heq
      refine ⟨{ b with spotBook := r.2 }, ?_, ⟨rfl, h.usdm⟩, same a r.2 a.usdmBook,
        same b r.2 b.usdmBook⟩
      rw [applyDepth_spot (hv.trans hvenue), h.spot, hcall]
      rfl
  | usdm =>
      rw [applyDepth_usdm hvenue, Option.map_eq_some_iff] at heq
      obtain ⟨r, hcall, heq⟩ := heq
      obtain ⟨rfl, rfl⟩ := Prod.mk.inj heq
      refine ⟨{ b with usdmBook := r.2 }, ?_, ⟨h.spot, rfl⟩, same a a.spotBook r.2,
        same b b.spotBook r.2⟩
      rw [applyDepth_usdm (hv.trans hvenue), h.usdm, hcall]
      rfl

theorem applyDepth_idle {s s' : SymbolState} {kind : StreamKind} {d : SpotDepthEvent}
    {result : BookApplyResult} (h : s.Idle) (heq : applyDepth s kind d = some (result, s')) :
    s'.Idle := by
  intro hv
  cases hvenue : s.venue with
  | spot =>
      rw [applyDepth_spot hvenue, Option.map_eq_some_iff] at heq
      obtain ⟨r, -, heq⟩ := heq
      obtain ⟨-, rfl⟩ := Prod.mk.inj heq
      -- a Spot book has no cursor besides its core
      have hvalid : r.2.book.valid = false := by
        simpa [SymbolState.bookValid, SymbolState.book, hvenue] using hv
      simp [SymbolState.invalidate, hvenue, SpotBook.invalidate, TopFiveBook.invalidate, ← hvalid]
  | usdm =>
      have hbook : s.usdmBook.book.valid = false → s.usdmBook.invalidate = s.usdmBook := by
        intro hs
        have hidle := h (by simpa [SymbolState.bookValid, SymbolState.book, hvenue] using hs)
        simpa [SymbolState.invalidate, hvenue] using congrArg SymbolState.usdmBook hidle
      rw [applyDepth_usdm hvenue, Option.map_eq_some_iff] at heq
      obtain ⟨r, hcall, heq⟩ := heq
      obtain ⟨-, rfl⟩ := Prod.mk.inj heq
      have hvalid : r.2.book.valid = false := by
        simpa [SymbolState.bookValid, SymbolState.book, hvenue] using hv
      have hidle : r.2.invalidate = r.2 := by
        split at hcall
        · exact absurd ((UsdMBook.applyRefresh_valid hcall).symm.trans hvalid) (by simp)
        · exact UsdMBook.applyDiff_idle hbook hcall hvalid
      simp [SymbolState.invalidate, hvenue, hidle]

/-! ## A book and its invalidated copy

A book that was invalidated keeps its levels and its last update id. One depth event can still be
taken alike by it and by the book that is valid.
-/

/-- A refresh that the valid book applies is applied by its invalidated copy. -/
theorem TopFiveBook.applyRefresh_invalidated {b b' : TopFiveBook} {d : SpotDepthEvent}
    {result : BookApplyResult} (h : b.applyRefresh d = some (result, b')) :
    result.status = .staleRefresh ∨
      result.status = .appliedRefresh ∧ b.invalidate.applyRefresh d = some (result, b') := by
  unfold applyRefresh at h ⊢
  split at h
  · obtain ⟨rfl, -⟩ := Prod.mk.inj (Option.some.inj h)
    exact .inl rfl
  · refine .inr ⟨?_, ?_⟩
    · simp only [Option.bind_eq_bind, Option.bind_eq_some_iff] at h
      obtain ⟨_, -, _, -, _, -, h⟩ := h
      obtain ⟨rfl, -⟩ := Prod.mk.inj (Option.some.inj h)
      rfl
    · exact h

/-- What a depth event comes to on a valid book, and on its invalidated copy. -/
inductive Diverged {β : Type} (b b' dormant : β) (result : BookApplyResult)
    (other : Option (BookApplyResult × β)) : Prop
  /-- One book writes a row and the other one does not. -/
  | apart : result.status = .staleRefresh ∨ result.status = .appliedDiff ∨
      result.status = .ignoredWhileInvalid → Diverged b b' dormant result other
  | refreshed : result.status = .appliedRefresh → other = some (result, b') →
      Diverged b b' dormant result other
  | stale {side : BookRowSide} : result.status = .staleDiff → b' = b →
      other = some (⟨.ignoredWhileInvalid, side⟩, dormant) → Diverged b b' dormant result other
  | dropped {side : BookRowSide} : result.status = .sequenceGap ∨ result.status = .crossedBook →
      b' = dormant → other = some (⟨.ignoredWhileInvalid, side⟩, dormant) →
      Diverged b b' dormant result other

namespace SpotBook

theorem applyRefresh_diverged {b b' : SpotBook} {d : SpotDepthEvent} {result : BookApplyResult}
    (h : b.applyRefresh d = some (result, b')) :
    Diverged b b' b.invalidate result (b.invalidate.applyRefresh d) := by
  unfold applyRefresh at h
  simp only [Option.bind_eq_bind, Option.bind_eq_some_iff] at h
  obtain ⟨⟨result₁, book⟩, hcore, h⟩ := h
  obtain ⟨rfl, rfl⟩ := Prod.mk.inj (Option.some.inj h)
  rcases TopFiveBook.applyRefresh_invalidated hcore with hstale | ⟨happlied, hother⟩
  · exact .apart (.inl hstale)
  · refine .refreshed happlied ?_
    simp [applyRefresh, invalidate, hother]

theorem applyDiff_diverged {b b' : SpotBook} {d : SpotDepthEvent} {result : BookApplyResult}
    (h : b.applyDiff d = some (result, b')) :
    Diverged b b' b.invalidate result (b.invalidate.applyDiff d) := by
  have hother : b.invalidate.applyDiff d = some (⟨.ignoredWhileInvalid, rowSide d⟩, b.invalidate) :=
    rfl
  unfold applyDiff at h
  split at h
  · obtain ⟨rfl, -⟩ := Prod.mk.inj (Option.some.inj h)
    exact .apart (.inr (.inr rfl))
  split at h
  · obtain ⟨rfl, rfl⟩ := Prod.mk.inj (Option.some.inj h)
    exact .stale rfl rfl hother
  dsimp only at h
  split at h
  · obtain ⟨rfl, rfl⟩ := Prod.mk.inj (Option.some.inj h)
    exact .dropped (.inl rfl) rfl hother
  · simp only [Option.bind_eq_bind, Option.bind_eq_some_iff] at h
    obtain ⟨⟨result₁, book⟩, hcore, h⟩ := h
    obtain ⟨rfl, rfl⟩ := Prod.mk.inj (Option.some.inj h)
    rcases TopFiveBook.applyAcceptedDiff_valid hcore with ⟨hcrossed, rfl⟩ | ⟨happlied, -⟩
    · exact .dropped (.inr hcrossed) rfl hother
    · exact .apart (.inr (.inl happlied))

end SpotBook

namespace UsdMBook

theorem applyRefresh_diverged {b b' : UsdMBook} {d : SpotDepthEvent} {result : BookApplyResult}
    (h : b.applyRefresh d = some (result, b')) :
    Diverged b b' b.invalidate result (b.invalidate.applyRefresh d) := by
  unfold applyRefresh at h
  simp only [Option.bind_eq_bind, Option.bind_eq_some_iff] at h
  obtain ⟨⟨result₁, book⟩, hcore, h⟩ := h
  rcases TopFiveBook.applyRefresh_invalidated hcore with hstale | ⟨happlied, hother⟩
  · have hresult : result.status = .staleRefresh := by
      split at h <;> obtain ⟨rfl, -⟩ := Prod.mk.inj (Option.some.inj h) <;> exact hstale
    exact .apart (.inl hresult)
  · rw [if_pos happlied] at h
    obtain ⟨rfl, rfl⟩ := Prod.mk.inj (Option.some.inj h)
    refine .refreshed happlied ?_
    simp [applyRefresh, invalidate, hother]

theorem applySequenced_diverged {b b' : UsdMBook} {d : SpotDepthEvent} {result : BookApplyResult}
    {other : Option (BookApplyResult × UsdMBook)} {side : BookRowSide}
    (hother : other = some (⟨.ignoredWhileInvalid, side⟩, b.invalidate))
    (h : b.applySequenced d = some (result, b')) :
    Diverged b b' b.invalidate result other := by
  unfold applySequenced at h
  simp only [Option.bind_eq_bind, Option.bind_eq_some_iff] at h
  obtain ⟨⟨result₁, book⟩, hcore, h⟩ := h
  rcases TopFiveBook.applyAcceptedDiff_valid hcore with ⟨hcrossed, rfl⟩ | ⟨happlied, -⟩
  · simp only [hcrossed, reduceCtorEq, ↓reduceIte, Option.pure_def] at h
    obtain ⟨rfl, rfl⟩ := Prod.mk.inj (Option.some.inj h)
    exact .dropped (.inr hcrossed) rfl hother
  · simp only [happlied, ↓reduceIte, Option.pure_def] at h
    obtain ⟨rfl, rfl⟩ := Prod.mk.inj (Option.some.inj h)
    exact .apart (.inr (.inl happlied))

theorem applyDiff_diverged {b b' : UsdMBook} {d : SpotDepthEvent} {result : BookApplyResult}
    (h : b.applyDiff d = some (result, b')) :
    Diverged b b' b.invalidate result (b.invalidate.applyDiff d) := by
  unfold applyDiff at h
  simp only [Option.bind_eq_bind, Option.bind_eq_some_iff] at h
  obtain ⟨_, hrequired, h⟩ := h
  have hother : b.invalidate.applyDiff d =
      some (⟨.ignoredWhileInvalid, rowSide d⟩, b.invalidate) := by
    unfold applyDiff
    rw [hrequired]
    rfl
  have kept : some (⟨.staleDiff, rowSide d⟩, b) = some (result, b') →
      Diverged b b' b.invalidate result (b.invalidate.applyDiff d) := by
    intro heq
    obtain ⟨rfl, rfl⟩ := Prod.mk.inj (Option.some.inj heq)
    exact .stale rfl rfl hother
  have gap : some (⟨.sequenceGap, rowSide d⟩, b.invalidate) = some (result, b') →
      Diverged b b' b.invalidate result (b.invalidate.applyDiff d) := by
    intro heq
    obtain ⟨rfl, rfl⟩ := Prod.mk.inj (Option.some.inj heq)
    exact .dropped (.inl rfl) rfl hother
  split at h
  · obtain ⟨rfl, -⟩ := Prod.mk.inj (Option.some.inj h)
    exact .apart (.inr (.inr rfl))
  split at h
  · split at h
    · exact gap h
    split at h
    · exact kept h
    · exact applySequenced_diverged hother h
  · split at h
    · exact kept h
    split at h
    · exact gap h
    · exact applySequenced_diverged hother h

end UsdMBook

/-- A function of the book reads the same on both sides. -/
theorem Diverged.map {β γ : Type} {b b' dormant : β} {result : BookApplyResult}
    {other : Option (BookApplyResult × β)} (f : β → γ) (h : Diverged b b' dormant result other) :
    Diverged (f b) (f b') (f dormant) result (other.map fun r => (r.1, f r.2)) := by
  cases h with
  | apart hstatus => exact .apart hstatus
  | refreshed hstatus hother => exact .refreshed hstatus (by rw [hother]; rfl)
  | stale hstatus hsame hother => exact .stale hstatus (hsame ▸ rfl) (by rw [hother]; rfl)
  | dropped hstatus hsame hother => exact .dropped hstatus (hsame ▸ rfl) (by rw [hother]; rfl)

theorem applyDepth_diverged {s s' : SymbolState} {kind : StreamKind} {d : SpotDepthEvent}
    {result : BookApplyResult} (h : applyDepth s kind d = some (result, s')) :
    Diverged s s' s.invalidate result (applyDepth s.invalidate kind d) := by
  cases hvenue : s.venue with
  | spot =>
      have hinvalid : s.invalidate = { s with spotBook := s.spotBook.invalidate } := by
        simp [SymbolState.invalidate, hvenue]
      rw [applyDepth_spot hvenue, Option.map_eq_some_iff] at h
      obtain ⟨r, hcall, heq⟩ := h
      obtain ⟨rfl, rfl⟩ := Prod.mk.inj heq
      rw [applyDepth_spot (s.invalidate_venue.trans hvenue), hinvalid]
      have hcore : Diverged s.spotBook r.2 s.spotBook.invalidate r.1
          (if kind = .depth5 then s.spotBook.invalidate.applyRefresh d
            else s.spotBook.invalidate.applyDiff d) := by
        split at hcall <;> rename_i hkind
        · rw [if_pos hkind]
          exact SpotBook.applyRefresh_diverged hcall
        · rw [if_neg hkind]
          exact SpotBook.applyDiff_diverged hcall
      exact hcore.map fun book => { s with spotBook := book }
  | usdm =>
      have hinvalid : s.invalidate = { s with usdmBook := s.usdmBook.invalidate } := by
        simp [SymbolState.invalidate, hvenue]
      rw [applyDepth_usdm hvenue, Option.map_eq_some_iff] at h
      obtain ⟨r, hcall, heq⟩ := h
      obtain ⟨rfl, rfl⟩ := Prod.mk.inj heq
      rw [applyDepth_usdm (s.invalidate_venue.trans hvenue), hinvalid]
      have hcore : Diverged s.usdmBook r.2 s.usdmBook.invalidate r.1
          (if kind = .depth5 then s.usdmBook.invalidate.applyRefresh d
            else s.usdmBook.invalidate.applyDiff d) := by
        split at hcall <;> rename_i hkind
        · rw [if_pos hkind]
          exact UsdMBook.applyRefresh_diverged hcall
        · rw [if_neg hkind]
          exact UsdMBook.applyDiff_diverged hcall
      exact hcore.map fun book => { s with usdmBook := book }

/-! ## One message in both modes -/

/-- The rows of a message without its audit row: what replay writes. -/
def EventRowBatch.replayed (batch : EventRowBatch) : EventRowBatch :=
  { batch with auditRow := [], hasAuditRow := false }

theorem auditBatch_live {context : EventContext} {payload : Bytes} {batch : EventRowBatch}
    (h : auditBatch .liveCapture context payload = .ok batch) :
    ∃ row, formatMarketDataCsvRow (auditRowOf context payload) = .ok row ∧
      batch = { auditRow := row, hasAuditRow := true } := by
  unfold auditBatch at h
  simp only at h
  split at h
  · cases h
  · rename_i row hrow
    exact ⟨row, hrow, (Except.ok.inj h).symm⟩

/-- The batch of an audited message: its audit row, and an order-book row or none. -/
structure AuditedBatch (context : EventContext) (payload : Bytes) (batch : EventRowBatch) : Prop where
  audit : batch.hasAuditRow = true
  auditRow : formatMarketDataCsvRow (auditRowOf context payload) = .ok batch.auditRow
  orderBook : batch.hasOrderBookRow = !batch.orderBookRow.isEmpty

/-- The epoch and sequence of the context are the state's. -/
structure SymbolState.Committed (context : EventContext) (s : SymbolState) : Prop where
  observed : s.hasObservedConnection = true
  epoch : s.currentConnectionEpoch = context.connectionEpoch
  sequence : s.lastConnectionSequence = context.connectionSequence

/-- How the states `a` and `b` change alike under an audited message. -/
inductive Twin (context : EventContext) (result : EventProcessResult) (a b a' b' : SymbolState) : Prop
  | passed : result.hasBookStatus = false →
      a' = (a.passed context (decide (result.status = .schemaRejected) &&
        decide (context.streamKind = .depthDiff))).commitContext context →
      b' = (b.passed context (decide (result.status = .schemaRejected) &&
        decide (context.streamKind = .depthDiff))).commitContext context →
      Twin context result a b a' b'
  | booked : result.hasBookStatus = true → a'.SameBooks b' →
      (b.Idle → b'.Idle) → Twin context result a b a' b'

theorem processDepth_twin {a b a' : SymbolState} {context : EventContext} {depth : SpotDepthEvent}
    {base result : EventProcessResult} {batch batch' : EventRowBatch} (halike : a.Alike b)
    (hbooks : result.hasBookStatus = true → (a.entered context).SameBooks (b.entered context))
    (h : processDepth a context depth base batch = some (result, a', batch'))
    (herror : result.error = .none) :
    ∃ b', processDepth b context depth base batch.replayed =
        some (result, b', batch'.replayed) ∧
      a'.Alike b' ∧ a'.Committed context ∧ b'.Committed context ∧ Twin context result a b a' b' ∧
      (batch'.hasAuditRow = batch.hasAuditRow ∧ batch'.auditRow = batch.auditRow) ∧
      (batch.hasOrderBookRow = !batch.orderBookRow.isEmpty →
        batch'.hasOrderBookRow = !batch'.orderBookRow.isEmpty) := by
  unfold processDepth at h ⊢
  simp only [Option.bind_eq_bind, Option.bind_eq_some_iff] at h
  obtain ⟨⟨bookResult, candidate⟩, hcall, h⟩ := h
  have hstatus : result.hasBookStatus = true := by
    simp only at h
    split at h
    · split at h
      · rw [← (Prod.mk.inj (Option.some.inj h)).1]
      · split at h <;> rw [← (Prod.mk.inj (Option.some.inj h)).1]
    · rw [← (Prod.mk.inj (Option.some.inj h)).1]
  have hventered : (b.entered context).venue = (a.entered context).venue := by
    rw [SymbolState.entered_venue, SymbolState.entered_venue, halike.venue]
  obtain ⟨candidate', hcall', hsame, hka, hkb⟩ :=
    applyDepth_sameBooks hventered (hbooks hstatus) hcall
  have halike' : candidate.Alike candidate' := by
    have hea := a.alike_passed context false
    have heb := b.alike_passed context false
    rw [← SymbolState.entered_eq_passed] at hea heb
    exact ⟨by rw [hkb.symbol, hka.symbol, heb.symbol, hea.symbol, halike.symbol],
      by rw [hkb.venue, hka.venue, hventered],
      by rw [hkb.instrumentId, hka.instrumentId, heb.instrumentId, hea.instrumentId,
        halike.instrumentId],
      by rw [hkb.sequenceNumber, hka.sequenceNumber, heb.sequenceNumber, hea.sequenceNumber,
        halike.sequenceNumber]⟩
  have hidle : b.Idle → candidate'.Idle := by
    intro hb
    have hentered := hb.passed context false
    rw [← SymbolState.entered_eq_passed] at hentered
    exact applyDepth_idle hentered hcall'
  have hrow : ∀ next side, orderBookRowOf b context next side candidate' =
      orderBookRowOf a context next side candidate := by
    intro next side
    simp only [orderBookRowOf, halike.instrumentId, hsame.book halike'.venue]
  rw [hcall']
  simp only [Option.bind_eq_bind, Option.bind_some] at h ⊢
  split at h
  · rename_i hemits
    rw [if_pos hemits, halike.sequenceNumber]
    split at h
    · obtain ⟨rfl, -⟩ := Prod.mk.inj (Option.some.inj h)
      cases herror
    · rename_i next hnext
      rw [hrow]
      split at h
      · obtain ⟨rfl, -⟩ := Prod.mk.inj (Option.some.inj h)
        cases herror
      · rename_i row hformat
        simp only [Option.some.injEq, Option.pure_def, Prod.mk.injEq] at h
        obtain ⟨rfl, rfl, rfl⟩ := h
        refine ⟨_, rfl, ⟨halike'.symbol, halike'.venue, halike'.instrumentId, rfl⟩, ⟨rfl, rfl, rfl⟩,
          ⟨rfl, rfl, rfl⟩, .booked rfl ⟨hsame.spot, hsame.usdm⟩ ?_, ⟨rfl, rfl⟩, ?_⟩
        · exact fun hb => ((hidle hb).commitContext context).withSequence next
        · intro _
          have hne := formatOrderBookCsvRow_ne_nil hformat
          cases row with
          | nil => exact absurd rfl hne
          | cons _ _ => rfl
  · rename_i hemits
    rw [if_neg hemits]
    simp only [Option.some.injEq, Option.pure_def, Prod.mk.injEq] at h
    obtain ⟨rfl, rfl, rfl⟩ := h
    exact ⟨_, rfl, ⟨halike'.symbol, halike'.venue, halike'.instrumentId, halike'.sequenceNumber⟩,
      ⟨rfl, rfl, rfl⟩, ⟨rfl, rfl, rfl⟩, .booked rfl ⟨hsame.spot, hsame.usdm⟩
        (fun hb => (hidle hb).commitContext context), ⟨rfl, rfl⟩, id⟩

/-- A message that live capture audits on `a`, replayed on `b`. -/
theorem processParsed_twin {a b a' : SymbolState} {context : EventContext} {payload : Bytes}
    {parsed : SpotParseResult} {result : EventProcessResult} {batch : EventRowBatch}
    (halike : a.Alike b)
    (hbooks : result.hasBookStatus = true → (a.entered context).SameBooks (b.entered context))
    (h : processParsed a context payload .liveCapture parsed = some (result, a', batch))
    (herror : result.error = .none) (haudited : result.status ≠ .preAuditRejected) :
    ∃ b', processParsed b context payload .replay parsed = some (result, b', batch.replayed) ∧
      a'.Alike b' ∧ a'.Committed context ∧ b'.Committed context ∧ Twin context result a b a' b' ∧
      auditEligible parsed.error = true ∧ AuditedBatch context payload batch := by
  unfold processParsed at h ⊢
  simp only at h ⊢
  split at h
  · obtain ⟨rfl, -⟩ := Prod.mk.inj (Option.some.inj h)
    exact absurd rfl haudited
  · rename_i heligible
    rw [if_neg heligible]
    simp only [Bool.not_eq_true', Bool.not_eq_false] at heligible
    split at h
    · obtain ⟨rfl, -⟩ := Prod.mk.inj (Option.some.inj h)
      cases herror
    · rename_i batch₀ hbatch
      obtain ⟨row, hformat, rfl⟩ := auditBatch_live hbatch
      have hpassed : ∀ rejectedDiff, ((a.passed context rejectedDiff).commitContext context).Alike
          ((b.passed context rejectedDiff).commitContext context) := by
        intro rejectedDiff
        have hpa := a.alike_passed context rejectedDiff
        have hpb := b.alike_passed context rejectedDiff
        exact ⟨by change (b.passed _ _).symbol = (a.passed _ _).symbol
                  rw [hpb.symbol, hpa.symbol, halike.symbol],
          by change (b.passed _ _).venue = (a.passed _ _).venue
             rw [hpb.venue, hpa.venue, halike.venue],
          by change (b.passed _ _).instrumentId = (a.passed _ _).instrumentId
             rw [hpb.instrumentId, hpa.instrumentId, halike.instrumentId],
          by change (b.passed _ _).sequenceNumber = (a.passed _ _).sequenceNumber
             rw [hpb.sequenceNumber, hpa.sequenceNumber, halike.sequenceNumber]⟩
      simp only [auditBatch]
      split at h
      · rename_i hvalue
        rw [if_pos hvalue]
        simp only [Option.some.injEq, Prod.mk.injEq] at h
        obtain ⟨rfl, rfl, rfl⟩ := h
        refine ⟨_, rfl, hpassed _, ⟨rfl, rfl, rfl⟩, ⟨rfl, rfl, rfl⟩, .passed rfl ?_ ?_, heligible,
          ⟨rfl, hformat, rfl⟩⟩
        · simp [SymbolState.passed]
        · simp [SymbolState.passed]
      · rename_i hvalue
        rw [if_neg hvalue]
        split at h
        · rename_i hkind
          rw [if_pos hkind]
          simp only [Option.some.injEq, Prod.mk.injEq] at h
          obtain ⟨rfl, rfl, rfl⟩ := h
          rw [SymbolState.entered_eq_passed, SymbolState.entered_eq_passed]
          refine ⟨_, rfl, hpassed _, ⟨rfl, rfl, rfl⟩, ⟨rfl, rfl, rfl⟩, .passed rfl ?_ ?_, heligible,
            ⟨rfl, hformat, rfl⟩⟩
          · simp
          · simp
        · rename_i hkind
          rw [if_neg hkind]
          obtain ⟨b', heq, hal, hca, hcb, htwin, ⟨haudit, hauditRow⟩, hbook⟩ :=
            processDepth_twin halike hbooks h herror
          exact ⟨b', heq, hal, hca, hcb, htwin, heligible,
            ⟨haudit, hauditRow ▸ hformat, hbook rfl⟩⟩

/-! ## One message on an invalidated book and on the valid one -/

/-- A depth event that writes no row. -/
theorem processDepth_quiet {s candidate : SymbolState} {context : EventContext}
    {depth : SpotDepthEvent} {applied : BookApplyResult} (base : EventProcessResult)
    (batch : EventRowBatch)
    (hcall : applyDepth (s.entered context) context.streamKind depth = some (applied, candidate))
    (hquiet : applied.emitsSnapshot = false) :
    processDepth s context depth base batch =
      some ({ base with bookStatus := applied.status, hasBookStatus := true,
                        status := eventStatus applied.status },
        candidate.commitContext context, batch) := by
  unfold processDepth
  simp [hcall, hquiet]

/-- Besides the book, a depth event reads the instrument and the number of rows written. -/
theorem processDepth_congr {s t t' : SymbolState} {context : EventContext}
    {depth : SpotDepthEvent} {base result : EventProcessResult} {batch batch' : EventRowBatch}
    (hsequence : s.sequenceNumber = t.sequenceNumber) (hinstrument : s.instrumentId = t.instrumentId)
    (hcall : applyDepth (s.entered context) context.streamKind depth =
      applyDepth (t.entered context) context.streamKind depth)
    (h : processDepth t context depth base batch = some (result, t', batch'))
    (herror : result.error = .none) :
    processDepth s context depth base batch = some (result, t', batch') := by
  have hrow : ∀ next side candidate, orderBookRowOf s context next side candidate =
      orderBookRowOf t context next side candidate := by
    intro next side candidate
    simp only [orderBookRowOf, hinstrument]
  unfold processDepth at h ⊢
  rw [hcall, hsequence]
  simp only [Option.bind_eq_bind, Option.bind_eq_some_iff] at h ⊢
  obtain ⟨r, hr, h⟩ := h
  refine ⟨r, hr, ?_⟩
  simp only [hrow] at h ⊢
  split at h
  · rename_i hemits
    rw [if_pos hemits]
    split at h
    · obtain ⟨rfl, -⟩ := Prod.mk.inj (Option.some.inj h)
      cases herror
    · rename_i hnext
      split at h
      · obtain ⟨rfl, -⟩ := Prod.mk.inj (Option.some.inj h)
        cases herror
      · exact h
  · rename_i hemits
    rw [if_neg hemits]
    exact h

/-- A message with a book status was a depth event, in both modes. -/
theorem processParsed_booked {s s' : SymbolState} {context : EventContext} {payload : Bytes}
    {parsed : SpotParseResult} {result : EventProcessResult} {batch : EventRowBatch}
    (h : processParsed s context payload .liveCapture parsed = some (result, s', batch))
    (hbook : result.hasBookStatus = true) :
    ∃ (base : EventProcessResult) (audit : EventRowBatch), base.error = .none ∧
      audit.replayed = {} ∧
      processDepth s context parsed.event.depth base audit = some (result, s', batch) ∧
      ∀ t, processParsed t context payload .replay parsed =
        processDepth t context parsed.event.depth base {} := by
  unfold processParsed at h
  simp only at h
  split at h
  · obtain ⟨rfl, -⟩ := Prod.mk.inj (Option.some.inj h)
    cases hbook
  · rename_i heligible
    split at h
    · obtain ⟨rfl, -⟩ := Prod.mk.inj (Option.some.inj h)
      cases hbook
    · rename_i audit haudit
      split at h
      · obtain ⟨rfl, -⟩ := Prod.mk.inj (Option.some.inj h)
        cases hbook
      · rename_i hvalue
        split at h
        · obtain ⟨rfl, -⟩ := Prod.mk.inj (Option.some.inj h)
          cases hbook
        · rename_i hkind
          obtain ⟨row, -, rfl⟩ := auditBatch_live haudit
          refine ⟨_, _, rfl, rfl, h, fun t => ?_⟩
          simp only [processParsed, heligible, auditBatch, hvalue, hkind, Bool.false_eq_true,
            ↓reduceIte]

theorem SymbolState.entered_of_idle {s : SymbolState} (h : s.invalidate = s)
    (context : EventContext) : s.entered context = s := by
  unfold SymbolState.entered
  split
  · exact h
  · rfl

/-- An event that the invalidated book of `a` ignores, and that writes no row from `b` either. -/
theorem processParsed_ignored {a b a' candidate : SymbolState} {context : EventContext}
    {payload : Bytes} {parsed : SpotParseResult} {result : EventProcessResult}
    {batch : EventRowBatch} {applied : BookApplyResult} {side : BookRowSide} (halike : a.Alike b)
    (hentered : b.entered context = b) (hbooks : (a.entered context).SameBooks b.invalidate)
    (h : processParsed a context payload .liveCapture parsed = some (result, a', batch))
    (hbook : result.hasBookStatus = true)
    (hcall : applyDepth b context.streamKind parsed.event.depth = some (applied, candidate))
    (hignored : applyDepth b.invalidate context.streamKind parsed.event.depth =
      some (⟨.ignoredWhileInvalid, side⟩, b.invalidate))
    (hsilent : applied.emitsSnapshot = false) (hcandidate : candidate.Alike b)
    (hidle : candidate.Idle) :
    ∃ result' b', processParsed b context payload .replay parsed =
        some (result', b', batch.replayed) ∧
      result'.error = .none ∧ result'.status ≠ .preAuditRejected ∧
      a'.Alike b' ∧ a'.Committed context ∧ b'.Committed context ∧ b'.Idle ∧
      a'.SameBooks b.invalidate ∧ b' = candidate.commitContext context := by
  obtain ⟨base, audit, hbase, hempty, hlive, hreplay⟩ := processParsed_booked h hbook
  have hvenue : (a.entered context).venue = b.invalidate.venue := by
    rw [SymbolState.entered_venue, SymbolState.invalidate_venue, halike.venue]
  obtain ⟨taken, htaken, hsame, -, hkept⟩ := applyDepth_sameBooks hvenue hbooks.symm hignored
  have hstep := processDepth_quiet base audit htaken rfl
  rw [hlive] at hstep
  simp only [Option.some.injEq, Prod.mk.injEq] at hstep
  obtain ⟨-, rfl, rfl⟩ := hstep
  rw [← hentered] at hcall
  have hparsed := (hreplay b).trans (processDepth_quiet base {} hcall hsilent)
  rw [← hempty] at hparsed
  have hea := a.alike_passed context false
  rw [← SymbolState.entered_eq_passed] at hea
  have htakenAlike : a.Alike taken :=
    hea.trans ⟨hkept.symbol, hkept.venue, hkept.instrumentId, hkept.sequenceNumber⟩
  have halike' : taken.Alike candidate :=
    ⟨by rw [← hcandidate.symbol, halike.symbol, htakenAlike.symbol],
      by rw [← hcandidate.venue, halike.venue, htakenAlike.venue],
      by rw [← hcandidate.instrumentId, halike.instrumentId, htakenAlike.instrumentId],
      by rw [← hcandidate.sequenceNumber, halike.sequenceNumber, htakenAlike.sequenceNumber]⟩
  have hstatus : ∀ status, eventStatus status ≠ .preAuditRejected := by
    intro status
    cases status <;> simp [eventStatus]
  refine ⟨_, _, hparsed, hbase, hstatus _,
    ⟨halike'.symbol, halike'.venue, halike'.instrumentId, halike'.sequenceNumber⟩,
    ⟨rfl, rfl, rfl⟩, ⟨rfl, rfl, rfl⟩, hidle.commitContext context, ?_, rfl⟩
  exact ⟨hsame.symm.spot, hsame.symm.usdm⟩

/-- Live capture has invalidated the book of `a` that replay still has valid in `b`. A depth
event that `b` would apply over an invalidated book as well, or that costs `b` its book, brings
the two together; one that is stale to `b` leaves them as they were. -/
theorem processParsed_diverged {a b a' candidate : SymbolState} {context : EventContext}
    {payload : Bytes} {parsed : SpotParseResult} {result : EventProcessResult}
    {batch : EventRowBatch} {applied : BookApplyResult} (halike : a.Alike b) (hidle : b.Idle)
    (hentered : b.entered context = b) (hbooks : (a.entered context).SameBooks b.invalidate)
    (h : processParsed a context payload .liveCapture parsed = some (result, a', batch))
    (herror : result.error = .none) (haudited : result.status ≠ .preAuditRejected)
    (hbook : result.hasBookStatus = true)
    (hcall : applyDepth b context.streamKind parsed.event.depth = some (applied, candidate))
    (hmeets : applied.status ≠ .staleRefresh ∧ applied.status ≠ .appliedDiff ∧
      applied.status ≠ .ignoredWhileInvalid) :
    ∃ result' b', processParsed b context payload .replay parsed =
        some (result', b', batch.replayed) ∧
      result'.error = .none ∧ result'.status ≠ .preAuditRejected ∧
      a'.Alike b' ∧ a'.Committed context ∧ b'.Committed context ∧ b'.Idle ∧
      (a'.SameBooks b' ∨
        applied.status = .staleDiff ∧ a'.SameBooks b'.invalidate ∧ b' = b.commitContext context) := by
  have hinvalidated : b.invalidate.entered context = b.invalidate :=
    SymbolState.entered_of_idle (SymbolState.invalidate_invalidate b) context
  obtain ⟨base, audit, -, -, -, hreplay⟩ := processParsed_booked h hbook
  cases applyDepth_diverged hcall with
  | apart hstatus =>
      obtain ⟨hstale, happlied, hignored⟩ := hmeets
      rcases hstatus with h | h | h
      · exact absurd h hstale
      · exact absurd h happlied
      · exact absurd h hignored
  | refreshed hstatus hother =>
      have hbooks' : (a.entered context).SameBooks (b.invalidate.entered context) := by
        rw [hinvalidated]
        exact hbooks
      obtain ⟨b', hinvalid, halike', hca, hcb, htwin, -, -⟩ :=
        processParsed_twin (halike.trans b.alike_invalidate) (fun _ => hbooks') h herror haudited
      refine ⟨result, b', ?_, herror, haudited, halike', hca, hcb, ?_⟩
      · rw [hreplay] at hinvalid ⊢
        refine processDepth_congr b.invalidate_sequenceNumber.symm b.invalidate_instrumentId.symm
          ?_ hinvalid herror
        rw [hentered, hinvalidated, hcall, hother]
      · cases htwin with
        | passed hno => rw [hbook] at hno; cases hno
        | booked _ hsame hkeeps => exact ⟨hkeeps b.idle_invalidate, .inl hsame⟩
  | stale hstatus hsame hother =>
      subst hsame
      obtain ⟨result', b', hparsed, herror', hstatus', halike', hca, hcb, hidle', hbooks', rfl⟩ :=
        processParsed_ignored halike hentered hbooks h hbook hcall hother
          (by simp [BookApplyResult.emitsSnapshot, hstatus]) (.refl _) hidle
      refine ⟨result', _, hparsed, herror', hstatus', halike', hca, hcb, hidle',
        .inr ⟨hstatus, ?_, rfl⟩⟩
      rw [SymbolState.commitContext_invalidate]
      exact ⟨hbooks'.spot, hbooks'.usdm⟩
  | dropped hstatus hsame hother =>
      subst hsame
      obtain ⟨result', b', hparsed, herror', hstatus', halike', hca, hcb, hidle', hbooks', rfl⟩ :=
        processParsed_ignored halike hentered hbooks h hbook hcall hother
          (by rcases hstatus with h | h <;> simp [BookApplyResult.emitsSnapshot, h])
          ⟨(b.alike_invalidate).symbol.symm, (b.alike_invalidate).venue.symm,
            (b.alike_invalidate).instrumentId.symm, (b.alike_invalidate).sequenceNumber.symm⟩
          b.idle_invalidate
      exact ⟨result', _, hparsed, herror', hstatus', halike', hca, hcb, hidle', .inl
        ⟨hbooks'.spot, hbooks'.usdm⟩⟩

/-- A message rejected before audit. -/
theorem processParsed_rejected {s s' : SymbolState} {context : EventContext} {payload : Bytes}
    {mode : EventOutputMode} {parsed : SpotParseResult} {result : EventProcessResult}
    {batch : EventRowBatch}
    (h : processParsed s context payload mode parsed = some (result, s', batch))
    (hstatus : result.status = .preAuditRejected) :
    s' = (s.passed context (decide (context.streamKind = .depthDiff))).commitContext context := by
  unfold processParsed at h
  simp only at h
  split at h
  · simp only [Option.some.injEq, Prod.mk.injEq] at h
    obtain ⟨-, rfl, -⟩ := h
    rfl
  · split at h
    · obtain ⟨rfl, -⟩ := Prod.mk.inj (Option.some.inj h)
      cases hstatus
    · split at h
      · obtain ⟨rfl, -⟩ := Prod.mk.inj (Option.some.inj h)
        cases hstatus
      · split at h
        · obtain ⟨rfl, -⟩ := Prod.mk.inj (Option.some.inj h)
          cases hstatus
        · unfold processDepth at h
          simp only [Option.bind_eq_bind, Option.bind_eq_some_iff] at h
          obtain ⟨⟨bookResult, candidate⟩, -, h⟩ := h
          have hne : eventStatus bookResult.status ≠ .preAuditRejected := by
            cases bookResult.status <;> simp [eventStatus]
          simp only at h
          split at h
          · split at h
            · obtain ⟨rfl, -⟩ := Prod.mk.inj (Option.some.inj h)
              cases hstatus
            · split at h
              · obtain ⟨rfl, -⟩ := Prod.mk.inj (Option.some.inj h)
                cases hstatus
              · obtain ⟨rfl, -⟩ := Prod.mk.inj (Option.some.inj h)
                exact absurd hstatus hne
          · obtain ⟨rfl, -⟩ := Prod.mk.inj (Option.some.inj h)
            exact absurd hstatus hne

/-- On a valid context the result is that of the parsed payload, whatever the parser
met before. -/
theorem EventProcessor.process_eq (p : EventProcessor) (json : Library) {s : SymbolState}
    {context : EventContext} (payload : Bytes) (mode : EventOutputMode)
    (h : contextIsValid s context = true) :
    ∃ p', p.process json s context payload mode =
      (processParsed s context payload mode (parsedMessage json context payload)).map
        fun r => (r.1, r.2.1, r.2.2, p') := by
  have hparse : (p.parser.parse json context.venue context.streamKind s.symbol payload).1 =
      parsedMessage json context payload := by
    rw [← (contextIsValid_eq h).2]
    exact SpotPayloadParser.parse_eq _ _ _ _ _ _ _
  refine ⟨⟨(p.parser.parse json context.venue context.streamKind s.symbol payload).2⟩, ?_⟩
  simp only [process, h, Bool.not_true, Bool.false_eq_true, ↓reduceIte, hparse]

/-- The context names the symbol, and nothing in it is refused whatever came before. -/
structure EventContext.Addressed (venue : PayloadVenue) (symbol : Bytes) (context : EventContext) :
    Prop where
  venue : context.venue = venue
  symbol : context.symbol = symbol
  shard : context.shardId = 0
  nanoseconds : 0 ≤ context.timestamp.nanoseconds.toInt ∧
    context.timestamp.nanoseconds.toInt < nanosecondsPerSecond
  sequence : context.connectionSequence ≠ 0

/-- The last message committed, if any, is lexicographically before the context. -/
def SymbolState.Behind (s : SymbolState) (context : EventContext) : Prop :=
  s.hasObservedConnection = true → s.currentConnectionEpoch < context.connectionEpoch ∨
    s.currentConnectionEpoch = context.connectionEpoch ∧
      s.lastConnectionSequence < context.connectionSequence

theorem contextIsValid_iff {s : SymbolState} {context : EventContext} :
    contextIsValid s context = true ↔ context.Addressed s.venue s.symbol ∧ s.Behind context := by
  unfold contextIsValid
  split
  · rename_i hbad
    refine ⟨nofun, fun ⟨haddressed, _⟩ => ?_⟩
    obtain ⟨hvenue, hsymbol, hshard, ⟨hlow, hhigh⟩, hsequence⟩ := haddressed
    rcases hbad with h | h | h | h | h | h
    · exact absurd hvenue h
    · exact absurd hsymbol h
    · exact absurd hshard h
    · omega
    · omega
    · exact absurd h hsequence
  · rename_i hgood
    simp only [not_or, not_not, Int.not_lt, ge_iff_le, Int.not_le] at hgood
    obtain ⟨hvenue, hsymbol, hshard, hlow, hhigh, hsequence⟩ := hgood
    have haddressed : context.Addressed s.venue s.symbol :=
      ⟨hvenue, hsymbol, hshard, ⟨hlow, hhigh⟩, hsequence⟩
    cases hobs : s.hasObservedConnection with
    | false => simp [haddressed, SymbolState.Behind, hobs]
    | true =>
        simp only [haddressed, SymbolState.Behind, hobs, Bool.not_true, Bool.false_eq_true,
          ↓reduceIte, forall_const, true_and]
        split
        · rename_i hlow'
          refine ⟨nofun, fun hbehind => ?_⟩
          simp only [UInt64.lt_iff_toNat_lt, ← UInt64.toNat_inj] at hbehind hlow'
          omega
        · rename_i hlow'
          simp only [ne_eq, Bool.or_eq_true, decide_eq_true_eq, gt_iff_lt, UInt64.lt_iff_toNat_lt,
            ← UInt64.toNat_inj] at hlow' ⊢
          omega

/-- A context that is valid after later metadata is valid after earlier one. -/
theorem contextIsValid_of_alike {a b : SymbolState} {context : EventContext} (halike : a.Alike b)
    (h : contextIsValid a context = true)
    (hbefore : b.hasObservedConnection = true → a.hasObservedConnection = true ∧
      (b.currentConnectionEpoch < a.currentConnectionEpoch ∨
        b.currentConnectionEpoch = a.currentConnectionEpoch ∧
          b.lastConnectionSequence ≤ a.lastConnectionSequence)) :
    contextIsValid b context = true := by
  obtain ⟨haddressed, hbehind⟩ := contextIsValid_iff.mp h
  refine contextIsValid_iff.mpr ⟨?_, fun hobs => ?_⟩
  · rw [halike.venue, halike.symbol]
    exact haddressed
  · obtain ⟨hobs', hle⟩ := hbefore hobs
    have hlt := hbehind hobs'
    simp only [UInt64.lt_iff_toNat_lt, UInt64.le_iff_toNat_le, ← UInt64.toNat_inj] at hle hlt ⊢
    omega

end MarketCapture
