import MarketCapture.Book.Differential
import MarketCapture.Book.Sequencing
import MarketCapture.Lib.Transition

/-! # The retained book against the full-depth book

A full-depth book is a map from prices to quantities on each side. It takes every
differential event, while the retained book sees only the five levels a refresh
showed and what later events named. The retained levels are always levels of the
full book: an evicted level is forgotten, never kept with an old quantity. Only an
event that crosses the book is dropped whole, and that event invalidates it.
-/

namespace MarketCapture

open Transition

/-- A book of any depth: the quantity at each price, a map for each side. -/
structure FullBook where
  bids : Int → Option Int
  asks : Int → Option Int

/-- The level an update names. -/
def LevelUpdate.level (u : LevelUpdate) : BookLevel := ⟨u.price, u.quantity⟩

namespace FullBook

/-- Set the positive updates of an event, delete the zero ones. -/
def apply (full : FullBook) (event : SpotDepthEvent) : FullBook :=
  ⟨event.bids.foldl setOrDelete full.bids, event.asks.foldl setOrDelete full.asks⟩

def applyAll (full : FullBook) (events : List SpotDepthEvent) : FullBook :=
  events.foldl apply full

theorem applyAll_concat (full : FullBook) (events : List SpotDepthEvent) (event : SpotDepthEvent) :
    full.applyAll (events ++ [event]) = (full.applyAll events).apply event := by
  simp [applyAll]

/-- Every bid is below every ask. -/
def Uncrossed (full : FullBook) : Prop :=
  ∀ bid ask, (full.bids bid).isSome → (full.asks ask).isSome → bid < ask

/-- The refresh shows the best five levels of each side. -/
structure ShownBy (full : FullBook) (refresh : SpotDepthEvent) : Prop where
  bids : BestFive .bid full.bids (refresh.bids.map LevelUpdate.level)
  asks : BestFive .ask full.asks (refresh.asks.map LevelUpdate.level)

/-- Every retained level is a level of the full book, with its quantity. -/
structure Holds (full : FullBook) (b : TopFiveBook) : Prop where
  bids : ∀ l ∈ b.bids.view, full.bids l.price = some l.quantity
  asks : ∀ l ∈ b.asks.view, full.asks l.price = some l.quantity

end FullBook

/-- No two updates of one side name the same price. -/
structure DistinctPrices (event : SpotDepthEvent) : Prop where
  bids : (event.bids.map LevelUpdate.price).Nodup
  asks : (event.asks.map LevelUpdate.price).Nodup

/-- The sequencer passed the event on to `apply_accepted_diff`. -/
def BookApplyStatus.sequenced (status : BookApplyStatus) : Bool :=
  decide (status = .appliedDiff) || decide (status = .crossedBook)

/-- A differential event and what `apply_diff` answered to it. -/
abbrev SequencedDiff := SpotDepthEvent × BookApplyResult

/-- A book that took a refresh of the full book, then differential events that both take. -/
def shadowRuns {β : Type} (applyRefresh applyDiff : β → SpotDepthEvent → Option (BookApplyResult × β)) :
    System (FullBook × β) SequencedDiff where
  init := fun (full, b) => ∃ before refresh side, full.ShownBy refresh ∧
    applyRefresh before refresh = some (⟨.appliedRefresh, side⟩, b)
  step := fun (full, b) (event, result) (full', b') => DistinctPrices event ∧
    applyDiff b event = some (result, b') ∧ result.status.sequenced = true ∧
    full' = full.apply event

def spotShadow : System (FullBook × SpotBook) SequencedDiff :=
  shadowRuns SpotBook.applyRefresh SpotBook.applyDiff

def usdmShadow : System (FullBook × UsdMBook) SequencedDiff :=
  shadowRuns UsdMBook.applyRefresh UsdMBook.applyDiff

/-! ## What the assertions leave -/

theorem refreshLoop_asserted {side : BookSide} {us : List LevelUpdate} {s t : Side}
    (h : Side.refreshLoop side us s = some t) :
    ∀ u ∈ us, u.side = side ∧ 0 < u.price ∧ 0 < u.quantity := by
  induction us generalizing s with
  | nil => simp
  | cons u us ih =>
      simp only [Side.refreshLoop, Option.bind_eq_bind, Option.bind_eq_some_iff, require_eq_some,
        exists_and_left] at h
      obtain ⟨hside, hprice, hquantity, _, _, _, hrest⟩ := h
      simp only [List.mem_cons, forall_eq_or_imp]
      exact ⟨⟨hside, hprice, hquantity⟩, ih hrest⟩

theorem applyKnown_asserted {side : BookSide} {original : Side} {us : List LevelUpdate}
    {candidate t : Side} (h : Side.applyKnown original side us candidate = some t) :
    ∀ u ∈ us, u.side = side ∧ 0 < u.price ∧ 0 ≤ u.quantity := by
  induction us generalizing candidate with
  | nil => simp
  | cons u us ih =>
      simp only [Side.applyKnown, Option.bind_eq_bind, Option.bind_eq_some_iff, require_eq_some,
        exists_and_left] at h
      obtain ⟨hside, hprice, hquantity, _, _, _, hrest⟩ := h
      simp only [List.mem_cons, forall_eq_or_imp]
      refine ⟨⟨hside, hprice, hquantity⟩, ?_⟩
      split at hrest
      · exact ih hrest
      · simp only [Option.bind_eq_some_iff, require_eq_some, exists_and_left] at hrest
        obtain ⟨-, -, hrest⟩ := hrest
        split at hrest
        · obtain ⟨erased, -, hrest⟩ := Option.bind_eq_some_iff.mp hrest
          exact ih hrest
        · exact ih hrest

/-- A refresh side that was built from the best levels of a map. -/
theorem makeRefreshSide_shows {side : BookSide} {us : List LevelUpdate} {t : Side}
    {quantities : Int → Option Int} (hbest : BestFive side quantities (us.map LevelUpdate.level))
    (h : Side.makeRefreshSide us side = some t) :
    SideOk side t ∧ ∀ l ∈ t.view, quantities l.price = some l.quantity := by
  obtain ⟨all, hordered, hmem, htake⟩ := hbest
  simp only [Side.makeRefreshSide, Option.bind_eq_bind, Option.bind_eq_some_iff, require_eq_some,
    exists_and_left] at h
  obtain ⟨hlength, _, hloop⟩ := h
  have hasserted := refreshLoop_asserted hloop
  have hpairs : (us.map LevelUpdate.level).Pairwise
      (fun a b => betterPrice side a.price b.price = true) := by
    rw [htake]
    exact hordered.sublist (List.take_sublist _ _)
  have hrange : RefreshRange side us := by
    refine ⟨fun u hu => (hasserted u hu).1, fun u hu => (hasserted u hu).2.1,
      fun u hu => (hasserted u hu).2.2, hlength, ?_⟩
    rw [List.pairwise_map] at hpairs
    refine hpairs.isChain.imp ?_
    intro a b hab
    cases side with
    | bid => exact hab
    | ask => exact hab
  obtain ⟨t', ht', hok, hview⟩ := makeRefreshSide_spec hrange
  obtain rfl : t' = t := by
    rw [Side.makeRefreshSide, require_of hlength] at ht'
    exact Option.some.inj (ht'.symm.trans hloop)
  refine ⟨hok, ?_⟩
  intro l hl
  rw [hview] at hl
  have hl' : l ∈ us.map LevelUpdate.level := hl
  rw [htake] at hl'
  exact (hmem l).mp (List.mem_of_mem_take hl')

/-- Levels of a map stay levels of it when both take the same updates. -/
theorem applyUpdates_holds {side : BookSide} {original t : Side} {us : List LevelUpdate}
    {quantities : Int → Option Int} (hok : SideOk side original)
    (hdistinct : (us.map LevelUpdate.price).Nodup)
    (hholds : ∀ l ∈ original.view, quantities l.price = some l.quantity)
    (h : original.applyUpdates us side = some t) :
    SideOk side t ∧ ∀ l ∈ t.view, us.foldl setOrDelete quantities l.price = some l.quantity := by
  have hrange : DiffRange side us := by
    obtain ⟨candidate, hknown, -⟩ := Option.bind_eq_some_iff.mp h
    have hasserted := applyKnown_asserted hknown
    exact ⟨fun u hu => (hasserted u hu).1, fun u hu => (hasserted u hu).2.1,
      fun u hu => (hasserted u hu).2.2, hdistinct⟩
  obtain ⟨t', ht', hok', all, -, hmem, htake⟩ := applyUpdates_shows hok hrange
  obtain rfl : t' = t := Option.some.inj (ht'.symm.trans h)
  refine ⟨hok', ?_⟩
  intro l hl
  rw [htake] at hl
  have hlevel := (hmem l).mp (List.mem_of_mem_take hl)
  -- an update that names the price decides in both maps; no other price changed
  by_cases hprice : l.price ∈ us.map LevelUpdate.price
  · obtain ⟨u, hu, hup⟩ := List.mem_map.mp hprice
    rw [← hup] at hlevel ⊢
    rw [updatedQuantities, foldl_setOrDelete_mem hdistinct hu] at hlevel
    rw [foldl_setOrDelete_mem hdistinct hu, hlevel]
  · rw [updatedQuantities, foldl_setOrDelete_of_not_mem hprice, hok.quantityAt_iff] at hlevel
    rw [foldl_setOrDelete_of_not_mem hprice, hholds l hlevel]

/-! ## One event on the core -/

namespace TopFiveBook

theorem applyRefresh_holds {b b' : TopFiveBook} {refresh : SpotDepthEvent} {side : BookRowSide}
    {full : FullBook} (hshown : full.ShownBy refresh)
    (h : b.applyRefresh refresh = some (⟨.appliedRefresh, side⟩, b')) :
    BookOk b' ∧ full.Holds b' ∧ b'.valid = true := by
  unfold applyRefresh at h
  split at h
  · simp at h
  · simp only [Option.bind_eq_bind, Option.bind_eq_some_iff, require_eq_some, exists_and_left] at h
    obtain ⟨bids, hbids, asks, hasks, huncrossed, _, hbook⟩ := h
    obtain rfl := (Prod.mk.inj (Option.some.inj hbook)).2
    obtain ⟨hbidsOk, hbidsHold⟩ := makeRefreshSide_shows hshown.bids hbids
    obtain ⟨hasksOk, hasksHold⟩ := makeRefreshSide_shows hshown.asks hasks
    exact ⟨⟨hbidsOk, hasksOk, crossed_eq_false_iff.mp huncrossed⟩, ⟨hbidsHold, hasksHold⟩, rfl⟩

/-- A sequenced event keeps the retained levels within the full book, or drops itself
because the full book is crossed. -/
theorem applyAcceptedDiff_holds {b b' : TopFiveBook} {event : SpotDepthEvent}
    {result : BookApplyResult} {full : FullBook} (hok : BookOk b) (hholds : full.Holds b)
    (hdistinct : DistinctPrices event) (h : b.applyAcceptedDiff event = some (result, b')) :
    (result.status = .appliedDiff ∧ BookOk b' ∧ (full.apply event).Holds b' ∧ b'.valid = b.valid) ∨
      (result.status = .crossedBook ∧ b' = b.invalidate ∧ ¬ (full.apply event).Uncrossed) := by
  simp only [applyAcceptedDiff, Option.bind_eq_bind, Option.bind_eq_some_iff] at h
  obtain ⟨bids, hbids, asks, hasks, hbook⟩ := h
  obtain ⟨hbidsOk, hbidsHold⟩ := applyUpdates_holds hok.bids hdistinct.bids hholds.bids hbids
  obtain ⟨hasksOk, hasksHold⟩ := applyUpdates_holds hok.asks hdistinct.asks hholds.asks hasks
  cases hcrossed : crossed bids asks with
  | false =>
      rw [hcrossed] at hbook
      obtain ⟨rfl, rfl⟩ := Prod.mk.inj (Option.some.inj hbook)
      exact .inl ⟨rfl, ⟨hbidsOk, hasksOk, crossed_eq_false_iff.mp hcrossed⟩,
        ⟨hbidsHold, hasksHold⟩, rfl⟩
  | true =>
      rw [hcrossed] at hbook
      obtain ⟨rfl, rfl⟩ := Prod.mk.inj (Option.some.inj hbook)
      refine .inr ⟨rfl, rfl, ?_⟩
      intro huncrossed
      have hfalse : crossed bids asks = false := by
        rw [crossed_eq_false_iff]
        intro bid hbid ask hask
        apply huncrossed
        · exact Option.isSome_iff_exists.mpr ⟨_, hbidsHold bid (List.mem_of_mem_head? hbid)⟩
        · exact Option.isSome_iff_exists.mpr ⟨_, hasksHold ask (List.mem_of_mem_head? hask)⟩
      rw [hcrossed] at hfalse
      cases hfalse

end TopFiveBook

/-! ## The venue sequencers -/

theorem SpotBook.applyDiff_sequenced {b b' : SpotBook} {event : SpotDepthEvent}
    {result : BookApplyResult} (h : b.applyDiff event = some (result, b'))
    (hs : result.status.sequenced = true) :
    b.book.valid = true ∧ b.book.applyAcceptedDiff event = some (result, b'.book) := by
  rcases applyDiff_cases h with hcore | ⟨hstatus, -⟩
  · exact hcore
  · rcases hstatus with hstatus | hstatus | hstatus <;> simp [hstatus, BookApplyStatus.sequenced] at hs

theorem UsdMBook.applyDiff_sequenced {b b' : UsdMBook} {event : SpotDepthEvent}
    {result : BookApplyResult} (h : b.applyDiff event = some (result, b'))
    (hs : result.status.sequenced = true) :
    b.book.valid = true ∧ b.book.applyAcceptedDiff event = some (result, b'.book) := by
  rcases applyDiff_cases h with hcore | ⟨hstatus, -⟩
  · exact hcore
  · rcases hstatus with hstatus | hstatus | hstatus <;> simp [hstatus, BookApplyStatus.sequenced] at hs

/-! ## Runs -/

section Runs

variable {β : Type} {applyRefresh applyDiff : β → SpotDepthEvent → Option (BookApplyResult × β)}
  {core : β → TopFiveBook}

/-- What a run has made of the full book and of the retained one. -/
structure Shadowed (initial : FullBook) (core : β → TopFiveBook) (labels : List SequencedDiff)
    (state : FullBook × β) : Prop where
  full : state.1 = initial.applyAll (labels.map Prod.fst)
  ok : BookOk (core state.2)
  applied : (core state.2).valid = true → ∀ l ∈ labels, l.2.status = .appliedDiff
  last : (∀ l ∈ labels.getLast?, l.2.status ≠ .crossedBook) → (core state.2).valid = true
  holds : (core state.2).valid = true → state.1.Holds (core state.2)
  crossed : (core state.2).valid = false → ¬ state.1.Uncrossed

theorem Shadowed.step {initial : FullBook} {labels : List SequencedDiff}
    {state state' : FullBook × β} {l : SequencedDiff}
    (hdiff : ∀ {b event result b'}, applyDiff b event = some (result, b') →
      result.status.sequenced = true →
      (core b).valid = true ∧ (core b).applyAcceptedDiff event = some (result, core b'))
    (h : Shadowed initial core labels state)
    (hstep : (shadowRuns applyRefresh applyDiff).step state l state') :
    Shadowed initial core (labels ++ [l]) state' := by
  obtain ⟨full, b⟩ := state
  obtain ⟨full', b'⟩ := state'
  obtain ⟨event, result⟩ := l
  obtain ⟨hdistinct, hcall, hsequenced, rfl⟩ := hstep
  obtain ⟨hvalid, hcore⟩ := hdiff hcall hsequenced
  have hfull : full.apply event = initial.applyAll ((labels ++ [(event, result)]).map Prod.fst) := by
    rw [List.map_append, List.map_singleton, FullBook.applyAll_concat, ← h.full]
  rcases TopFiveBook.applyAcceptedDiff_holds h.ok (h.holds hvalid) hdistinct hcore with
    ⟨hstatus, hok, hholds, hsame⟩ | ⟨hstatus, hbook, hcrossed⟩
  · have hvalid' : (core b').valid = true := hsame.trans hvalid
    refine ⟨hfull, hok, fun _ => ?_, fun _ => hvalid', fun _ => hholds, fun hinvalid => ?_⟩
    · intro l hl
      rcases List.mem_append.mp hl with hl | hl
      · exact h.applied hvalid l hl
      · obtain rfl := List.mem_singleton.mp hl
        exact hstatus
    · rw [hvalid'] at hinvalid
      cases hinvalid
  · have hinvalid : ¬ (core b').valid = true := by simp [hbook, TopFiveBook.invalidate]
    refine ⟨hfull, ?_, fun hvalid' => absurd hvalid' hinvalid, fun hlast => ?_,
      fun hvalid' => absurd hvalid' hinvalid, fun _ => hcrossed⟩
    · rw [hbook]
      exact h.ok.invalidate
    · exact absurd hstatus (hlast (event, result) (by simp))

/-- The refresh begins the relation and every sequenced event keeps it. -/
theorem Shadowed.run {initial : FullBook} {b₀ : β} {labels : List SequencedDiff}
    {state : FullBook × β}
    (hrefresh : ∀ {b refresh result b'}, applyRefresh b refresh = some (result, b') →
      (core b).applyRefresh refresh = some (result, core b'))
    (hdiff : ∀ {b event result b'}, applyDiff b event = some (result, b') →
      result.status.sequenced = true →
      (core b).valid = true ∧ (core b).applyAcceptedDiff event = some (result, core b'))
    (hinit : (shadowRuns applyRefresh applyDiff).init (initial, b₀))
    (hexec : Exec (shadowRuns applyRefresh applyDiff) (initial, b₀) labels state) :
    Shadowed initial core labels state := by
  obtain ⟨before, refresh, side, hshown, hcall⟩ := hinit
  obtain ⟨hok, hholds, hvalid⟩ := TopFiveBook.applyRefresh_holds hshown (hrefresh hcall)
  refine hexec.history (P := Shadowed initial core) ?_ ?_
  · refine ⟨rfl, hok, fun _ => by simp, fun _ => hvalid, fun _ => hholds, fun hinvalid => ?_⟩
    rw [hvalid] at hinvalid
    cases hinvalid
  · intro labels s l s' h hstep
    exact h.step hdiff hstep

/-- While the full book stays uncrossed no event is dropped. -/
theorem Shadowed.uncrossed {initial : FullBook} {labels : List SequencedDiff}
    {state : FullBook × β} (h : Shadowed initial core labels state)
    (huncrossed : ∀ events, events ≠ [] → events <+: labels.map Prod.fst →
      (initial.applyAll events).Uncrossed) :
    (core state.2).valid = true := by
  cases labels with
  | nil => exact h.last (by simp)
  | cons l labels =>
      by_contra hinvalid
      refine h.crossed (by simpa using hinvalid) ?_
      rw [h.full]
      exact huncrossed _ (by simp) (List.prefix_refl _)

end Runs

/-- Retained levels are levels of the full book after every event that is not dropped for
crossing, and none is while the full book stays uncrossed. -/
theorem retained_levels_in_full_book {initial full : FullBook} {b₀ b : SpotBook}
    {labels : List SequencedDiff} (hinit : spotShadow.init (initial, b₀))
    (hexec : Exec spotShadow (initial, b₀) labels (full, b)) :
    full = initial.applyAll (labels.map Prod.fst) ∧
    ((∀ l ∈ labels.getLast?, l.2.status ≠ .crossedBook) → full.Holds b.book) ∧
    ((∀ events, events ≠ [] → events <+: labels.map Prod.fst →
        (initial.applyAll events).Uncrossed) →
      full.Holds b.book ∧ ∀ l ∈ labels, l.2.status ≠ .crossedBook) := by
  have h : Shadowed initial SpotBook.book labels (full, b) :=
    Shadowed.run SpotBook.applyRefresh_core SpotBook.applyDiff_sequenced hinit hexec
  refine ⟨h.full, fun hlast => h.holds (h.last hlast), fun huncrossed => ?_⟩
  have hvalid := h.uncrossed huncrossed
  refine ⟨h.holds hvalid, fun l hl => ?_⟩
  rw [h.applied hvalid l hl]
  decide

/-- The same of the USD-M book, whose sequencer follows the chain of previous ids. -/
theorem usdm_retained_levels {initial full : FullBook} {b₀ b : UsdMBook}
    {labels : List SequencedDiff} (hinit : usdmShadow.init (initial, b₀))
    (hexec : Exec usdmShadow (initial, b₀) labels (full, b)) :
    ((∀ l ∈ labels.getLast?, l.2.status ≠ .crossedBook) → full.Holds b.book) ∧
    ((∀ events, events ≠ [] → events <+: labels.map Prod.fst →
        (initial.applyAll events).Uncrossed) → ∀ l ∈ labels, l.2.status ≠ .crossedBook) := by
  have h : Shadowed initial UsdMBook.book labels (full, b) :=
    Shadowed.run UsdMBook.applyRefresh_core UsdMBook.applyDiff_sequenced hinit hexec
  refine ⟨fun hlast => h.holds (h.last hlast), fun huncrossed l hl => ?_⟩
  rw [h.applied (h.uncrossed huncrossed) l hl]
  decide

/-! ## A book six levels deep -/

section Sample

/-- The map that holds the given levels. -/
def quantitiesOf (levels : List BookLevel) : Int → Option Int := fun price =>
  (levels.find? fun l => l.price = price).map BookLevel.quantity

theorem bestFive_quantitiesOf {side : BookSide} {levels : List BookLevel}
    (h : levels.Pairwise fun a b => betterPrice side a.price b.price = true) :
    BestFive side (quantitiesOf levels) (levels.take visibleBookDepth) := by
  refine ⟨levels, h, fun l => ?_, rfl⟩
  have hnodup : (levels.map BookLevel.price).Nodup := by
    rw [List.Nodup, List.pairwise_map]
    exact h.imp fun hab => betterPrice_ne hab
  exact (find_quantity_iff hnodup l).symm

def deepBook : FullBook where
  bids := quantitiesOf [⟨100, 1⟩, ⟨99, 2⟩, ⟨98, 3⟩, ⟨97, 4⟩, ⟨96, 5⟩, ⟨95, 6⟩]
  asks := quantitiesOf [⟨101, 1⟩]

def deepRefresh : SpotDepthEvent where
  finalUpdateId := 400
  bids := [⟨100, 1, .bid⟩, ⟨99, 2, .bid⟩, ⟨98, 3, .bid⟩, ⟨97, 4, .bid⟩, ⟨96, 5, .bid⟩]
  asks := [⟨101, 1, .ask⟩]

theorem deepBook_shown : deepBook.ShownBy deepRefresh where
  bids := bestFive_quantitiesOf (by decide)
  asks := bestFive_quantitiesOf (by decide)

/-- The book after the refresh. -/
def deepRetained : SpotBook := ((({} : SpotBook).applyRefresh deepRefresh).map Prod.snd).getD {}

theorem deepRetained_init : spotShadow.init (deepBook, deepRetained) :=
  ⟨{}, deepRefresh, .neutral, deepBook_shown, by decide +kernel⟩

/-- The best bid goes and a seventh comes, below the sixth the refresh did not show. -/
def deepDiff : SpotDepthEvent where
  firstUpdateId := 401
  finalUpdateId := 401
  bids := [⟨100, 0, .bid⟩, ⟨94, 7, .bid⟩]

/-- The ask goes and one comes below the best bid. -/
def crossingDiff : SpotDepthEvent where
  firstUpdateId := 401
  finalUpdateId := 401
  asks := [⟨101, 0, .ask⟩, ⟨99, 2, .ask⟩]

/-- The run that applies one event after the refresh. -/
theorem deepRetained_exec {event : SpotDepthEvent} {result : BookApplyResult} {b : SpotBook}
    (hbids : (event.bids.map LevelUpdate.price).Nodup)
    (hasks : (event.asks.map LevelUpdate.price).Nodup)
    (hcall : deepRetained.applyDiff event = some (result, b))
    (hsequenced : result.status.sequenced = true) :
    Exec spotShadow (deepBook, deepRetained) [(event, result)] (deepBook.apply event, b) :=
  (Exec.nil _).snoc ⟨⟨hbids, hasks⟩, hcall, hsequenced, rfl⟩

/-- The retained book skips the level it never saw. -/
theorem retained_levels_in_full_book_sample :
    ∃ b result, Exec spotShadow (deepBook, deepRetained) [(deepDiff, result)]
        (deepBook.apply deepDiff, b) ∧
      b.book.bids.view = [⟨99, 2⟩, ⟨98, 3⟩, ⟨97, 4⟩, ⟨96, 5⟩, ⟨94, 7⟩] ∧
      (deepBook.apply deepDiff).bids 95 = some 6 ∧ (deepBook.apply deepDiff).Holds b.book := by
  have hcall : (deepRetained.applyDiff deepDiff).map (fun x => (x.1, x.2.book.bids.view)) =
      some (⟨.appliedDiff, .bid⟩, [⟨99, 2⟩, ⟨98, 3⟩, ⟨97, 4⟩, ⟨96, 5⟩, ⟨94, 7⟩]) := by decide +kernel
  obtain ⟨⟨result, b⟩, happly, heq⟩ := Option.map_eq_some_iff.mp hcall
  obtain ⟨rfl, hview⟩ := Prod.mk.inj heq
  have hexec := deepRetained_exec (by decide) (by decide) happly rfl
  obtain ⟨-, hholds, -⟩ := retained_levels_in_full_book deepRetained_init hexec
  exact ⟨b, _, hexec, hview, by decide, hholds (by simp)⟩

/-- An event that crosses both books leaves the old levels in the invalid one. -/
theorem crossing_diff_keeps_old_levels :
    ¬ ∀ (initial full : FullBook) (b₀ b : SpotBook) (labels : List SequencedDiff),
      spotShadow.init (initial, b₀) → Exec spotShadow (initial, b₀) labels (full, b) →
      full.Holds b.book := by
  intro h
  have hcall : (deepRetained.applyDiff crossingDiff).map (fun x => (x.1, x.2.book.asks.view)) =
      some (⟨.crossedBook, .ask⟩, [⟨101, 1⟩]) := by decide +kernel
  obtain ⟨⟨result, b⟩, happly, heq⟩ := Option.map_eq_some_iff.mp hcall
  obtain ⟨rfl, hview⟩ := Prod.mk.inj heq
  have hexec := deepRetained_exec (by decide) (by decide) happly rfl
  have hask := (h _ _ _ _ _ deepRetained_init hexec).asks ⟨101, 1⟩ (by rw [hview]; simp)
  have hgone : (deepBook.apply crossingDiff).asks 101 = none := by decide
  rw [hgone] at hask
  cases hask

end Sample

end MarketCapture
