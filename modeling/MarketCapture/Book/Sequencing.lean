import MarketCapture.Book.Invariant

/-! # The venue sequencers

What a refresh and a differential event can do to a book of either venue, as two
relations on the shared core, and the runs of calls on one book. The USD-M book
chains its differential events by the previous update id; `ChainOk` relates its
cursors to the events applied since the last applied refresh.
-/

namespace MarketCapture

/-! ## Outcomes on the core -/

/-- Outcomes of an accepted refresh. -/
inductive RefreshOutcome (b : TopFiveBook) (d : SpotDepthEvent) :
    BookApplyStatus → TopFiveBook → Prop
  | stale : b.valid = true → d.finalUpdateId < b.lastUpdateId →
      RefreshOutcome b d .staleRefresh b
  | applied {b' : TopFiveBook} : BookOk b' → b'.lastUpdateId = d.finalUpdateId →
      b'.valid = true → RefreshOutcome b d .appliedRefresh b'

/-- Outcomes of an accepted differential event. -/
inductive DiffOutcome (b : TopFiveBook) (d : SpotDepthEvent) :
    BookApplyStatus → TopFiveBook → Prop
  | ignored : b.valid = false → DiffOutcome b d .ignoredWhileInvalid b
  | stale : b.valid = true → d.finalUpdateId ≤ b.lastUpdateId → DiffOutcome b d .staleDiff b
  | gap : b.valid = true → DiffOutcome b d .sequenceGap b.invalidate
  | crossed : b.valid = true → DiffOutcome b d .crossedBook b.invalidate
  | applied {b' : TopFiveBook} : b.valid = true → b.lastUpdateId < d.finalUpdateId →
      BookOk b' → b'.lastUpdateId = d.finalUpdateId → b'.valid = true →
      DiffOutcome b d .appliedDiff b'

theorem RefreshOutcome.ok {b b' : TopFiveBook} {d : SpotDepthEvent} {status : BookApplyStatus}
    (h : RefreshOutcome b d status b') (hb : BookOk b) : BookOk b' := by
  cases h with
  | stale _ _ => exact hb
  | applied hok _ _ => exact hok

theorem DiffOutcome.ok {b b' : TopFiveBook} {d : SpotDepthEvent} {status : BookApplyStatus}
    (h : DiffOutcome b d status b') (hb : BookOk b) : BookOk b' := by
  cases h with
  | ignored _ => exact hb
  | stale _ _ => exact hb
  | gap _ => exact hb.invalidate
  | crossed _ => exact hb.invalidate
  | applied _ _ hok _ _ => exact hok

/-- The 64-bit successor of an id below some other id does not wrap. -/
theorem toNat_succ_of_lt {a b : UInt64} (h : a < b) : (a + 1).toNat = a.toNat + 1 := by
  have hb := b.toNat_lt
  have hab := UInt64.lt_iff_toNat_lt.mp h
  rw [UInt64.toNat_add, UInt64.toNat_one]
  omega

theorem TopFiveBook.applyRefresh_outcome (b : TopFiveBook) {d : SpotDepthEvent}
    (hd : AcceptedRefresh d) :
    ∃ result b', b.applyRefresh d = some (result, b') ∧ RefreshOutcome b d result.status b' := by
  rcases b.applyRefresh_spec hd with ⟨hv, hlt, heq⟩ | ⟨_, b', heq, hok, hlast, hvalid⟩
  · exact ⟨_, _, heq, .stale hv hlt⟩
  · exact ⟨_, _, heq, .applied hok hlast hvalid⟩

/-! ## Spot -/

namespace SpotBook

theorem applyRefresh_outcome (b : SpotBook) {d : SpotDepthEvent} (hd : AcceptedRefresh d) :
    ∃ result b', b.applyRefresh d = some (result, b') ∧
      RefreshOutcome b.book d result.status b'.book := by
  obtain ⟨result, b', heq, hout⟩ := b.book.applyRefresh_outcome hd
  exact ⟨result, ⟨b'⟩, by simp [applyRefresh, heq], hout⟩

/-- A differential event is applied to a Spot book only if it bridges the last
update id, compared without wrapping. -/
theorem applyDiff_outcome {b : SpotBook} {venue : PayloadVenue} {d : SpotDepthEvent}
    (h : BookOk b.book) (hd : AcceptedDiff venue d) :
    ∃ result b', b.applyDiff d = some (result, b') ∧
      DiffOutcome b.book d result.status b'.book ∧
      (result.status = .appliedDiff → d.firstUpdateId.toNat ≤ b.book.lastUpdateId.toNat + 1) := by
  unfold applyDiff
  cases hv : b.book.valid with
  | false => exact ⟨_, _, rfl, .ignored hv, by simp⟩
  | true =>
      simp only [Bool.not_true, Bool.false_eq_true, ↓reduceIte]
      split
      · rename_i hstale
        exact ⟨_, _, rfl, .stale hv hstale, by simp⟩
      · rename_i hstale
        have hlt : b.book.lastUpdateId < d.finalUpdateId := UInt64.not_le.mp hstale
        split
        · exact ⟨_, _, rfl, .gap hv, by simp⟩
        · rename_i hgap
          have hle := UInt64.le_iff_toNat_le.mp (UInt64.not_lt.mp hgap)
          rw [toNat_succ_of_lt hlt] at hle
          rcases TopFiveBook.applyAcceptedDiff_spec h hd with heq | ⟨b', heq, hok, hlast, hvalid⟩
          · exact ⟨_, _, by rw [heq]; rfl, .crossed hv, by simp⟩
          · exact ⟨_, ⟨b'⟩, by rw [heq]; rfl, .applied hv hlt hok hlast (hvalid.trans hv),
              fun _ => hle⟩

end SpotBook

/-! ## USD-M -/

namespace UsdMBook

theorem applyRefresh_outcome (b : UsdMBook) {d : SpotDepthEvent} (hd : AcceptedRefresh d) :
    ∃ result b', b.applyRefresh d = some (result, b') ∧
      RefreshOutcome b.book d result.status b'.book ∧
      (result.status = .appliedRefresh → b'.diffChainEstablished = false) ∧
      (result.status = .staleRefresh → b' = b) := by
  rcases b.book.applyRefresh_spec hd with ⟨hv, hlt, heq⟩ | ⟨_, b', heq, hok, hlast, hvalid⟩
  · exact ⟨_, _, by rw [applyRefresh, heq]; rfl, .stale hv hlt, by simp, fun _ => rfl⟩
  · exact ⟨_, _, by rw [applyRefresh, heq]; rfl, .applied hok hlast hvalid, fun _ => rfl, by simp⟩

/-- How an applied differential event continues the chain: it bridges the refresh
or names the event applied before it. -/
def Continues (b : UsdMBook) (d : SpotDepthEvent) : Prop :=
  if b.diffChainEstablished then d.previousUpdateId = b.previousDiffUpdateId
  else d.firstUpdateId.toNat ≤ b.book.lastUpdateId.toNat + 1

theorem applySequenced_outcome {b : UsdMBook} {venue : PayloadVenue} {d : SpotDepthEvent}
    (h : BookOk b.book) (hd : AcceptedDiff venue d) (hv : b.book.valid = true)
    (hlt : b.book.lastUpdateId < d.finalUpdateId) :
    b.applySequenced d = some (⟨.crossedBook, rowSide d⟩, b.invalidate) ∨
    ∃ b', b.applySequenced d = some (⟨.appliedDiff, rowSide d⟩, b') ∧
      DiffOutcome b.book d .appliedDiff b'.book ∧ b'.diffChainEstablished = true ∧
      b'.previousDiffUpdateId = d.finalUpdateId := by
  unfold applySequenced
  rcases TopFiveBook.applyAcceptedDiff_spec h hd with heq | ⟨b', heq, hok, hlast, hvalid⟩
  · exact .inl (by rw [heq]; rfl)
  · exact .inr ⟨_, by rw [heq]; rfl, .applied hv hlt hok hlast (hvalid.trans hv), rfl, rfl⟩

/-- Everything an accepted differential event can do to a USD-M book. -/
inductive Outcome (b : UsdMBook) (d : SpotDepthEvent) : BookApplyStatus → UsdMBook → Prop
  | ignored : b.book.valid = false → Outcome b d .ignoredWhileInvalid b
  | stale : b.book.valid = true → d.finalUpdateId ≤ b.book.lastUpdateId →
      (b.diffChainEstablished = true → d.previousUpdateId = b.previousDiffUpdateId) →
      Outcome b d .staleDiff b
  | gap : b.book.valid = true → Outcome b d .sequenceGap b.invalidate
  | crossed : b.book.valid = true → Outcome b d .crossedBook b.invalidate
  | applied {b' : UsdMBook} : DiffOutcome b.book d .appliedDiff b'.book → b.Continues d →
      b'.diffChainEstablished = true → b'.previousDiffUpdateId = d.finalUpdateId →
      Outcome b d .appliedDiff b'

theorem Outcome.core {b b' : UsdMBook} {d : SpotDepthEvent} {status : BookApplyStatus}
    (h : Outcome b d status b') : DiffOutcome b.book d status b'.book := by
  cases h with
  | ignored hv => exact .ignored hv
  | stale hv hle _ => exact .stale hv hle
  | gap hv => exact .gap hv
  | crossed hv => exact .crossed hv
  | applied hout _ _ _ => exact hout

theorem applyDiff_outcome {b : UsdMBook} {d : SpotDepthEvent} (h : BookOk b.book)
    (hd : AcceptedDiff .usdm d) :
    ∃ result b', b.applyDiff d = some (result, b') ∧ Outcome b d result.status b' := by
  unfold applyDiff
  rw [require_of (hd.previous rfl).1]
  simp only [Option.bind_eq_bind, Option.bind_some]
  have sequenced : b.book.valid = true → ¬ d.finalUpdateId ≤ b.book.lastUpdateId →
      b.Continues d → ∃ result b', b.applySequenced d = some (result, b') ∧
        Outcome b d result.status b' := by
    intro hv hstale hcont
    have hlt := UInt64.not_le.mp hstale
    rcases applySequenced_outcome h hd hv hlt with heq | ⟨b', heq, hout, hchain, hprev⟩
    · exact ⟨_, _, heq, .crossed hv⟩
    · exact ⟨_, _, heq, .applied hout hcont hchain hprev⟩
  cases hv : b.book.valid with
  | false => exact ⟨_, _, rfl, .ignored hv⟩
  | true =>
      simp only [Bool.not_true, Bool.false_eq_true, ↓reduceIte]
      split
      · rename_i hchain
        split
        · exact ⟨_, _, rfl, .gap hv⟩
        · rename_i hprev
          split
          · rename_i hstale
            exact ⟨_, _, rfl, .stale hv hstale fun _ => not_not.mp hprev⟩
          · rename_i hstale
            exact sequenced hv hstale (by simpa [Continues, hchain] using hprev)
      · rename_i hchain
        split
        · rename_i hstale
          exact ⟨_, _, rfl, .stale hv hstale fun h => absurd h hchain⟩
        · rename_i hstale
          split
          · exact ⟨_, _, rfl, .gap hv⟩
          · rename_i hgap
            refine sequenced hv hstale ?_
            have hle := UInt64.le_iff_toNat_le.mp (UInt64.not_lt.mp hgap)
            rw [toNat_succ_of_lt (UInt64.not_le.mp hstale)] at hle
            simpa [Continues, hchain] using hle

end UsdMBook

/-! ## The sequencer and the core

Which part of a call reaches the core, for any book and any event that passes the
assertions. -/

/-- The answers a sequencer gives without asking the core. -/
def BookApplyStatus.Withheld (status : BookApplyStatus) : Prop :=
  status = .ignoredWhileInvalid ∨ status = .staleDiff ∨ status = .sequenceGap

namespace SpotBook

theorem applyRefresh_core {b b' : SpotBook} {refresh : SpotDepthEvent}
    {result : BookApplyResult} (h : b.applyRefresh refresh = some (result, b')) :
    b.book.applyRefresh refresh = some (result, b'.book) := by
  obtain ⟨⟨r, book⟩, hcore, hrest⟩ := Option.bind_eq_some_iff.mp h
  obtain ⟨rfl, rfl⟩ := Prod.mk.inj (Option.some.inj hrest)
  exact hcore

theorem applyDiff_cases {b b' : SpotBook} {event : SpotDepthEvent} {result : BookApplyResult}
    (h : b.applyDiff event = some (result, b')) :
    (b.book.valid = true ∧ b.book.applyAcceptedDiff event = some (result, b'.book)) ∨
      (result.status.Withheld ∧ (b' = b ∨ b' = b.invalidate)) := by
  unfold applyDiff at h
  split at h
  · obtain ⟨rfl, rfl⟩ := Prod.mk.inj (Option.some.inj h)
    exact .inr ⟨.inl rfl, .inl rfl⟩
  · rename_i hvalid
    split at h
    · obtain ⟨rfl, rfl⟩ := Prod.mk.inj (Option.some.inj h)
      exact .inr ⟨.inr (.inl rfl), .inl rfl⟩
    · dsimp only at h
      split at h
      · obtain ⟨rfl, rfl⟩ := Prod.mk.inj (Option.some.inj h)
        exact .inr ⟨.inr (.inr rfl), .inr rfl⟩
      · obtain ⟨⟨r, book⟩, hcore, hrest⟩ := Option.bind_eq_some_iff.mp h
        obtain ⟨rfl, rfl⟩ := Prod.mk.inj (Option.some.inj hrest)
        exact .inl ⟨by simpa using hvalid, hcore⟩

end SpotBook

namespace UsdMBook

theorem applyRefresh_core {b b' : UsdMBook} {refresh : SpotDepthEvent}
    {result : BookApplyResult} (h : b.applyRefresh refresh = some (result, b')) :
    b.book.applyRefresh refresh = some (result, b'.book) := by
  obtain ⟨⟨r, book⟩, hcore, hrest⟩ := Option.bind_eq_some_iff.mp h
  dsimp only at hrest
  split at hrest
  · obtain ⟨rfl, rfl⟩ := Prod.mk.inj (Option.some.inj hrest)
    exact hcore
  · obtain ⟨rfl, rfl⟩ := Prod.mk.inj (Option.some.inj hrest)
    exact hcore

theorem applySequenced_core {b b' : UsdMBook} {event : SpotDepthEvent}
    {result : BookApplyResult} (h : b.applySequenced event = some (result, b')) :
    b.book.applyAcceptedDiff event = some (result, b'.book) := by
  obtain ⟨⟨r, book⟩, hcore, hrest⟩ := Option.bind_eq_some_iff.mp h
  dsimp only at hrest
  split at hrest
  · obtain ⟨rfl, rfl⟩ := Prod.mk.inj (Option.some.inj hrest)
    exact hcore
  · split at hrest
    · obtain ⟨rfl, rfl⟩ := Prod.mk.inj (Option.some.inj hrest)
      exact hcore
    · obtain ⟨rfl, rfl⟩ := Prod.mk.inj (Option.some.inj hrest)
      exact hcore

theorem applyDiff_cases {b b' : UsdMBook} {event : SpotDepthEvent} {result : BookApplyResult}
    (h : b.applyDiff event = some (result, b')) :
    (b.book.valid = true ∧ b.book.applyAcceptedDiff event = some (result, b'.book)) ∨
      (result.status.Withheld ∧ (b' = b ∨ b' = b.invalidate)) := by
  obtain ⟨_, -, h⟩ := Option.bind_eq_some_iff.mp h
  have hwithheld : ∀ {status : BookApplyStatus} {book : UsdMBook}, status.Withheld →
      (book = b ∨ book = b.invalidate) →
      (some (⟨status, rowSide event⟩, book) : Option (BookApplyResult × UsdMBook)) =
        some (result, b') → result.status.Withheld ∧ (b' = b ∨ b' = b.invalidate) := by
    intro status book hstatus hbook heq
    obtain ⟨rfl, rfl⟩ := Prod.mk.inj (Option.some.inj heq)
    exact ⟨hstatus, hbook⟩
  cases hvalid : b.book.valid with
  | false =>
      rw [if_pos (by simp [hvalid])] at h
      exact .inr (hwithheld (.inl rfl) (.inl rfl) h)
  | true =>
      rw [if_neg (by simp [hvalid])] at h
      split at h
      · split at h
        · exact .inr (hwithheld (.inr (.inr rfl)) (.inr rfl) h)
        · split at h
          · exact .inr (hwithheld (.inr (.inl rfl)) (.inl rfl) h)
          · exact .inl ⟨rfl, applySequenced_core h⟩
      · split at h
        · exact .inr (hwithheld (.inr (.inl rfl)) (.inl rfl) h)
        · dsimp only at h
          split at h
          · exact .inr (hwithheld (.inr (.inr rfl)) (.inr rfl) h)
          · exact .inl ⟨rfl, applySequenced_core h⟩

end UsdMBook

end MarketCapture
