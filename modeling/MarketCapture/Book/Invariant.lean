import MarketCapture.Book.Levels
import MarketCapture.Payload.ParserFacts
import MarketCapture.Lib.Transition

/-! # The book invariant

Both sides are at most five levels, strictly best first with positive prices and
quantities, unused slots are cleared, and the sides do not cross. Every operation
of the two books keeps this on accepted events, and no assertion of the core
fails on the way. The invariant does not mention `valid`: a rejected event clears
the flag and leaves the levels in place.
-/

namespace MarketCapture

structure SideOk (side : BookSide) (s : Side) : Prop where
  clean : s.Clean
  ordered : s.view.Pairwise (fun a b => betterPrice side a.price b.price = true)
  price : ∀ l ∈ s.view, 0 < l.price
  quantity : ∀ l ∈ s.view, 0 < l.quantity

namespace SideOk

variable {side : BookSide} {s t : Side}

theorem empty (side : BookSide) : SideOk side {} where
  clean := Side.Clean.empty
  ordered := by simp [Side.view]
  price := by simp [Side.view]
  quantity := by simp [Side.view]

theorem prices_nodup (h : SideOk side s) : (s.view.map BookLevel.price).Nodup := by
  rw [List.Nodup, List.pairwise_map]
  exact h.ordered.imp betterPrice_ne

/-- A side whose levels are a subsequence of an ordered one. -/
theorem of_sublist (h : SideOk side s) (ht : t.Clean) (hsub : t.view.Sublist s.view) :
    SideOk side t where
  clean := ht
  ordered := h.ordered.sublist hsub
  price := fun l hl => h.price l (hsub.subset hl)
  quantity := fun l hl => h.quantity l (hsub.subset hl)

/-- Changing one quantity keeps every price in place. -/
theorem write_quantity (h : SideOk side s) {index : Nat} (hi : index < s.size) {quantity : Int}
    (hq : 0 < quantity) :
    SideOk side (s.write index { s.slot index with quantity := quantity }) ∧
      (s.write index { s.slot index with quantity := quantity }).view.map BookLevel.price =
        s.view.map BookLevel.price := by
  obtain ⟨hclean, hview⟩ := Side.write_spec h.clean hi { s.slot index with quantity := quantity }
  have hprices : (s.view.set index { s.slot index with quantity := quantity }).map BookLevel.price =
      s.view.map BookLevel.price := by
    rw [List.map_set]
    apply List.ext_getElem?
    intro j
    rw [List.getElem?_set, List.getElem?_map, Side.view_getElem?]
    simp only [List.length_map, Side.view_length]
    grind
  refine ⟨⟨hclean, ?_, ?_, ?_⟩, by rw [hview, hprices]⟩
  · have hpair := h.ordered
    rw [← List.pairwise_map (f := BookLevel.price)
      (R := fun a b => betterPrice side a b = true)] at hpair ⊢
    rwa [hview, hprices]
  · intro l hl
    have hm : l.price ∈ s.view.map BookLevel.price := by
      rw [← hprices, ← hview]
      exact List.mem_map_of_mem hl
    obtain ⟨l', hl', hp⟩ := List.mem_map.mp hm
    rw [← hp]
    exact h.price l' hl'
  · intro l hl
    rw [hview] at hl
    rcases List.mem_or_eq_of_mem_set hl with hmem | rfl
    · exact h.quantity l hmem
    · exact hq

theorem placed_ordered {level : BookLevel} {levels : List BookLevel}
    (h : levels.Pairwise (fun a b => betterPrice side a.price b.price = true))
    (hnew : level.price ∉ levels.map BookLevel.price) :
    (Side.placed side level levels).Pairwise
      (fun a b => betterPrice side a.price b.price = true) := by
  unfold Side.placed
  induction levels with
  | nil => simp
  | cons l ls ih =>
      obtain ⟨hl, hls⟩ := List.pairwise_cons.mp h
      obtain ⟨hne, hnot⟩ := not_or.mp (mt List.mem_cons.mpr hnew)
      by_cases hb : betterPrice side l.price level.price = true
      · simp only [List.takeWhile_cons, List.dropWhile_cons, hb, ↓reduceIte, List.cons_append,
          List.pairwise_cons]
        refine ⟨?_, ih hls hnot⟩
        intro x hx
        rcases List.mem_append.mp hx with hx | hx
        · exact hl x ((List.takeWhile_sublist _).subset hx)
        · rcases List.mem_cons.mp hx with rfl | hx
          · exact hb
          · exact hl x ((List.dropWhile_sublist _).subset hx)
      · simp only [List.takeWhile_cons, List.dropWhile_cons, hb, Bool.false_eq_true, ↓reduceIte,
          List.nil_append, List.pairwise_cons]
        have hb' := betterPrice_of_not hb (Ne.symm hne)
        refine ⟨?_, hl, hls⟩
        intro x hx
        rcases List.mem_cons.mp hx with rfl | hx
        · exact hb'
        · exact betterPrice_trans hb' (hl x hx)

theorem mem_placed {level l : BookLevel} {levels : List BookLevel} :
    l ∈ Side.placed side level levels ↔ l = level ∨ l ∈ levels := by
  rw [Side.placed, List.mem_append, List.mem_cons]
  conv_rhs => rw [← List.takeWhile_append_dropWhile
    (p := fun l => betterPrice side l.price level.price) (l := levels), List.mem_append]
  tauto

theorem insertLevel (h : SideOk side s) (level : BookLevel) (hp : 0 < level.price)
    (hq : 0 < level.quantity) (hnew : level.price ∉ s.view.map BookLevel.price) :
    SideOk side (s.insertLevel side level) ∧
      ∀ l ∈ (s.insertLevel side level).view, l = level ∨ l ∈ s.view := by
  obtain ⟨hclean, hview⟩ := Side.insertLevel_spec h.clean side level
  have hmem : ∀ l ∈ (s.insertLevel side level).view, l = level ∨ l ∈ s.view := by
    intro l hl
    rw [hview] at hl
    exact mem_placed.mp (List.mem_of_mem_take hl)
  refine ⟨⟨hclean, ?_, ?_, ?_⟩, hmem⟩
  · rw [hview]
    exact (placed_ordered h.ordered hnew).sublist (List.take_sublist _ _)
  · intro l hl
    rcases hmem l hl with rfl | hl
    · exact hp
    · exact h.price l hl
  · intro l hl
    rcases hmem l hl with rfl | hl
    · exact hq
    · exact h.quantity l hl

end SideOk

/-! ## A refresh builds a side -/

theorem refreshLoop_spec {side : BookSide} (us : List LevelUpdate) {s : Side} (hs : s.Clean)
    (hroom : s.size + us.length ≤ visibleBookDepth)
    (hside : ∀ u ∈ us, u.side = side) (hprice : ∀ u ∈ us, 0 < u.price)
    (hquantity : ∀ u ∈ us, 0 < u.quantity) :
    ∃ t, Side.refreshLoop side us s = some t ∧ t.Clean ∧
      t.view = s.view ++ us.map (fun u => ⟨u.price, u.quantity⟩) := by
  induction us generalizing s with
  | nil => exact ⟨s, rfl, hs, by simp⟩
  | cons u us ih =>
      simp only [List.length_cons, List.mem_cons, forall_eq_or_imp] at hroom hside hprice hquantity
      obtain ⟨next, hnext⟩ : ∃ next, next = ({ s.write s.size ⟨u.price, u.quantity⟩ with
          size := s.size + 1 } : Side) := ⟨_, rfl⟩
      have hslot : ∀ j, next.slot j = if j = s.size then ⟨u.price, u.quantity⟩ else s.slot j := by
        intro j
        rw [hnext, Side.slot_withSize, Side.slot_write (by omega)]
      have hsize : next.size = s.size + 1 := by rw [hnext]
      have hclean : next.Clean := by
        refine ⟨by omega, ?_⟩
        intro j hj
        rw [hslot, if_neg (by omega)]
        exact hs.unused j (by omega)
      have hview : next.view = s.view ++ [⟨u.price, u.quantity⟩] := by
        apply List.ext_getElem?
        intro j
        rw [List.getElem?_append, Side.view_getElem?, Side.view_getElem?, hslot, hsize,
          Side.view_length]
        grind
      obtain ⟨t, ht, htclean, htview⟩ := ih hclean (by omega) hside.2 hprice.2 hquantity.2
      refine ⟨t, ?_, htclean, by simp [htview, hview]⟩
      rw [Side.refreshLoop, require_of hside.1, require_of hprice.1, require_of hquantity.1]
      simpa [hnext] using ht

theorem correctlyOrdered_better {side : BookSide} {a b : Int}
    (h : correctlyOrdered side a b = true) : betterPrice side a b = true := by
  cases side <;> simpa [correctlyOrdered, betterPrice] using h

theorem makeRefreshSide_spec {side : BookSide} {us : List LevelUpdate} (h : RefreshRange side us) :
    ∃ t, Side.makeRefreshSide us side = some t ∧ SideOk side t ∧
      t.view = us.map (fun u => ⟨u.price, u.quantity⟩) := by
  have hlen : us.length ≤ visibleBookDepth := h.length
  obtain ⟨t, ht, hclean, hview⟩ := refreshLoop_spec us Side.Clean.empty
    (by simpa using hlen) h.sides h.price h.quantity
  have hview' : t.view = us.map (fun u => ⟨u.price, u.quantity⟩) := by simpa [Side.view] using hview
  refine ⟨t, ?_, ⟨hclean, ?_, ?_, ?_⟩, hview'⟩
  · rw [Side.makeRefreshSide, require_of hlen]
    exact ht
  · rw [hview', List.pairwise_map]
    have hchain := h.ordered.imp fun _ _ hab => correctlyOrdered_better hab
    have : IsTrans LevelUpdate (fun a b => betterPrice side a.price b.price = true) :=
      ⟨fun _ _ _ => betterPrice_trans⟩
    exact List.isChain_iff_pairwise.mp hchain
  · rw [hview']
    simpa using h.price
  · rw [hview']
    simpa using h.quantity

/-! ## A differential event changes a side -/

theorem DiffRange.tail {side : BookSide} {u : LevelUpdate} {us : List LevelUpdate}
    (h : DiffRange side (u :: us)) : DiffRange side us where
  sides := fun v hv => h.sides v (List.mem_cons_of_mem u hv)
  price := fun v hv => h.price v (List.mem_cons_of_mem u hv)
  quantity := fun v hv => h.quantity v (List.mem_cons_of_mem u hv)
  distinct := (List.nodup_cons.mp h.distinct).2

/-- What the first pass keeps: prices are among the original ones, and an update
still to come finds its price if the original side held it. -/
structure KnownOk (side : BookSide) (original : Side) (us : List LevelUpdate) (candidate : Side) :
    Prop where
  ok : SideOk side candidate
  origin : ∀ p ∈ candidate.view.map BookLevel.price, p ∈ original.view.map BookLevel.price
  kept : ∀ u ∈ us, u.price ∈ original.view.map BookLevel.price →
    u.price ∈ candidate.view.map BookLevel.price

/-- A price stands in one slot. -/
theorem SideOk.slot_unique {side : BookSide} {s : Side} (h : SideOk side s) {i j : Nat}
    (hi : i < s.size) (hj : j < s.size) (hp : (s.slot i).price = (s.slot j).price) : i = j := by
  have hnodup := h.prices_nodup
  have hget : ∀ k (hk : k < s.size), (s.view.map BookLevel.price)[k]? = some (s.slot k).price := by
    intro k hk
    rw [List.getElem?_map, Side.view_getElem?, if_pos hk]
    rfl
  exact (List.getElem?_inj (by simpa using hi) hnodup).mp (by rw [hget i hi, hget j hj, hp])

/-- Erasing the price of the first update. -/
theorem KnownOk.erase {side : BookSide} {original candidate : Side} {u : LevelUpdate}
    {us : List LevelUpdate} (hd : DiffRange side (u :: us))
    (h : KnownOk side original (u :: us) candidate)
    (hidx : candidate.findPrice u.price < candidate.size) :
    ∃ t, candidate.eraseLevel (candidate.findPrice u.price) = some t ∧
      KnownOk side original us t ∧
      ∀ l, l ∈ t.view ↔ l ∈ candidate.view ∧ l.price ≠ u.price := by
  have hnotin : u.price ∉ us.map LevelUpdate.price := (List.nodup_cons.mp hd.distinct).1
  have hslot := Side.slot_findPrice hidx
  obtain ⟨t, ht, hclean, hview⟩ := Side.eraseLevel_spec h.ok.clean hidx
  have hsub : t.view.Sublist candidate.view := by
    rw [hview]
    exact List.eraseIdx_sublist _ _
  have hmem : ∀ l, l ∈ t.view ↔ l ∈ candidate.view ∧ l.price ≠ u.price := by
    intro l
    rw [hview, List.mem_eraseIdx_iff_getElem?, Side.mem_view]
    constructor
    · rintro ⟨j, hji, hget⟩
      rw [Side.view_getElem?] at hget
      split at hget
      · rename_i hj
        obtain rfl := Option.some.inj hget
        exact ⟨⟨j, hj, rfl⟩, fun heq => hji (h.ok.slot_unique hj hidx (heq.trans hslot.symm))⟩
      · cases hget
    · rintro ⟨⟨j, hj, rfl⟩, hne⟩
      refine ⟨j, ?_, by rw [Side.view_getElem?, if_pos hj]⟩
      rintro rfl
      exact hne hslot
  refine ⟨t, ht, ⟨h.ok.of_sublist hclean hsub, ?_, ?_⟩, hmem⟩
  · intro p hp
    exact h.origin p ((hsub.map _).subset hp)
  · -- the erased price is the one of this update, and the rest are others
    intro v hv hvo
    have hne : v.price ≠ u.price := fun heq => hnotin (heq ▸ List.mem_map_of_mem hv)
    obtain ⟨l, hl, hlp⟩ := List.mem_map.mp (h.kept v (by simp [hv]) hvo)
    exact List.mem_map.mpr ⟨l, (hmem l).mpr ⟨hl, hlp ▸ hne⟩, hlp⟩

/-- Changing the quantity at the price of the first update. -/
theorem KnownOk.write {side : BookSide} {original candidate : Side} {u : LevelUpdate}
    {us : List LevelUpdate} (h : KnownOk side original (u :: us) candidate)
    (hidx : candidate.findPrice u.price < candidate.size) (hq : 0 < u.quantity) :
    KnownOk side original us (candidate.write (candidate.findPrice u.price)
        { candidate.slot (candidate.findPrice u.price) with quantity := u.quantity }) ∧
      ∀ l, l ∈ (candidate.write (candidate.findPrice u.price)
        { candidate.slot (candidate.findPrice u.price) with quantity := u.quantity }).view ↔
        (l ∈ candidate.view ∧ l.price ≠ u.price) ∨ l = ⟨u.price, u.quantity⟩ := by
  have hslot := Side.slot_findPrice hidx
  have hdepth := h.ok.clean.depth
  obtain ⟨hok, hprices⟩ := h.ok.write_quantity hidx hq
  refine ⟨⟨hok, ?_, ?_⟩, ?_⟩
  · rw [hprices]
    exact h.origin
  · rw [hprices]
    exact fun v hv => h.kept v (by simp [hv])
  · intro l
    rw [Side.mem_view, Side.mem_view]
    simp only [Side.write_size]
    constructor
    · rintro ⟨j, hj, rfl⟩
      rw [Side.slot_write (by omega)]
      split
      · exact .inr (by rw [hslot])
      · rename_i hji
        exact .inl ⟨⟨j, hj, rfl⟩, fun heq => hji (h.ok.slot_unique hj hidx (heq.trans hslot.symm))⟩
    · rintro (⟨⟨j, hj, rfl⟩, hne⟩ | rfl)
      · refine ⟨j, hj, ?_⟩
        rw [Side.slot_write (by omega), if_neg]
        rintro rfl
        exact hne hslot
      · refine ⟨_, hidx, ?_⟩
        rw [Side.slot_write (by omega), if_pos rfl, hslot]

theorem applyKnown_spec {side : BookSide} {original : Side} (us : List LevelUpdate)
    {candidate : Side} (hd : DiffRange side us) (h : KnownOk side original us candidate) :
    ∃ t, Side.applyKnown original side us candidate = some t ∧ KnownOk side original [] t := by
  induction us generalizing candidate with
  | nil => exact ⟨candidate, rfl, h⟩
  | cons u us ih =>
      have hquantity := hd.quantity u (by simp)
      rw [Side.applyKnown, require_of (hd.sides u (by simp)), require_of (hd.price u (by simp)),
        require_of hquantity]
      simp only [Option.bind_eq_bind, Option.bind_some]
      split
      · exact ih hd.tail ⟨h.ok, h.origin, fun v hv => h.kept v (by simp [hv])⟩
      · rename_i hfound
        have horig : u.price ∈ original.view.map BookLevel.price := by
          by_contra hn
          exact hfound (Side.findPrice_eq_size_iff.mpr hn)
        have hidx : candidate.findPrice u.price < candidate.size :=
          Side.findPrice_lt_iff.mpr (h.kept u (by simp) horig)
        rw [require_of hidx]
        simp only [Option.bind_some]
        split
        · obtain ⟨t, ht, hknown, -⟩ := h.erase hd hidx
          rw [ht]
          exact ih hd.tail hknown
        · rename_i hq
          exact ih hd.tail (h.write hidx (by omega)).1

theorem applyNew_spec {side : BookSide} {original : Side} (us : List LevelUpdate)
    {candidate : Side} (hd : DiffRange side us) (hok : SideOk side candidate)
    (hfresh : ∀ u ∈ us, u.price ∉ original.view.map BookLevel.price →
      u.price ∉ candidate.view.map BookLevel.price) :
    SideOk side (Side.applyNew original side us candidate) := by
  induction us generalizing candidate with
  | nil => exact hok
  | cons u us ih =>
      have hnotin : u.price ∉ us.map LevelUpdate.price := (List.nodup_cons.mp hd.distinct).1
      unfold Side.applyNew
      split
      · exact ih hd.tail hok fun v hv => hfresh v (by simp [hv])
      · rename_i hskip
        obtain ⟨hq, hsize⟩ := not_or.mp hskip
        have hout := Side.findPrice_eq_size_iff.mp (not_not.mp hsize)
        have hquantity := hd.quantity u (by simp)
        obtain ⟨hnew, hmem⟩ := hok.insertLevel ⟨u.price, u.quantity⟩
          (hd.price u (by simp)) (by simp only; omega) (hfresh u (by simp) hout)
        refine ih hd.tail hnew ?_
        intro v hv hvo hin
        obtain ⟨l, hl, hlp⟩ := List.mem_map.mp hin
        rcases hmem l hl with rfl | hl
        · simp only at hlp
          exact hnotin (hlp ▸ List.mem_map_of_mem hv)
        · exact hfresh v (by simp [hv]) hvo (hlp ▸ List.mem_map_of_mem hl)

theorem applyUpdates_spec {side : BookSide} {original : Side} {us : List LevelUpdate}
    (hok : SideOk side original) (hd : DiffRange side us) :
    ∃ t, original.applyUpdates us side = some t ∧ SideOk side t := by
  obtain ⟨c, hc, hknown⟩ := applyKnown_spec us hd ⟨hok, fun _ h => h, fun _ _ h => h⟩
  refine ⟨_, by rw [Side.applyUpdates, hc]; rfl, applyNew_spec us hd hknown.ok ?_⟩
  intro u _ hout hin
  exact hout (hknown.origin _ hin)

/-! ## The whole book -/

structure BookOk (b : TopFiveBook) : Prop where
  bids : SideOk .bid b.bids
  asks : SideOk .ask b.asks
  uncrossed : ∀ bid ∈ b.bids.view.head?, ∀ ask ∈ b.asks.view.head?, bid.price < ask.price

theorem view_head? (s : Side) : s.view.head? = if 0 < s.size then some (s.slot 0) else none := by
  rw [List.head?_eq_getElem?, Side.view_getElem?]

theorem crossed_eq_false_iff {bids asks : Side} : crossed bids asks = false ↔
    ∀ bid ∈ bids.view.head?, ∀ ask ∈ asks.view.head?, bid.price < ask.price := by
  rw [view_head?, view_head?]
  unfold crossed
  by_cases hb : bids.size = 0
  · simp [hb]
  · by_cases ha : asks.size = 0
    · simp [ha]
    · simp [ha, hb, Nat.pos_of_ne_zero]

theorem BookOk.initial : BookOk {} where
  bids := SideOk.empty .bid
  asks := SideOk.empty .ask
  uncrossed := by simp [Side.view]

theorem BookOk.invalidate {b : TopFiveBook} (h : BookOk b) : BookOk b.invalidate :=
  ⟨h.bids, h.asks, h.uncrossed⟩

namespace TopFiveBook

/-- Everything an accepted refresh can do to the core. -/
theorem applyRefresh_spec (b : TopFiveBook) {d : SpotDepthEvent} (hd : AcceptedRefresh d) :
    (b.valid = true ∧ d.finalUpdateId < b.lastUpdateId ∧
      b.applyRefresh d = some (⟨.staleRefresh, .neutral⟩, b)) ∨
    (¬ (b.valid = true ∧ d.finalUpdateId < b.lastUpdateId) ∧
      ∃ b', b.applyRefresh d = some (⟨.appliedRefresh, .neutral⟩, b') ∧ BookOk b' ∧
        b'.lastUpdateId = d.finalUpdateId ∧ b'.valid = true) := by
  unfold applyRefresh
  by_cases hstale : b.valid = true ∧ d.finalUpdateId < b.lastUpdateId
  · left
    exact ⟨hstale.1, hstale.2, by simp [hstale]⟩
  · right
    obtain ⟨bids, hbids, hbok, hbview⟩ := makeRefreshSide_spec hd.bids
    obtain ⟨asks, hasks, haok, haview⟩ := makeRefreshSide_spec hd.asks
    have hun : ∀ bid ∈ bids.view.head?, ∀ ask ∈ asks.view.head?, bid.price < ask.price := by
      rw [hbview, haview]
      simpa using hd.uncrossed
    refine ⟨hstale, ⟨bids, asks, d.finalUpdateId, true⟩, ?_, ⟨hbok, haok, hun⟩, rfl, rfl⟩
    rw [if_neg (by simpa using hstale), hbids, hasks]
    simp [require_of (crossed_eq_false_iff.mpr hun)]

/-- Everything a sequenced differential event can do to the core. -/
theorem applyAcceptedDiff_spec {b : TopFiveBook} {venue : PayloadVenue} {d : SpotDepthEvent}
    (h : BookOk b) (hd : AcceptedDiff venue d) :
    b.applyAcceptedDiff d = some (⟨.crossedBook, rowSide d⟩, b.invalidate) ∨
    ∃ b', b.applyAcceptedDiff d = some (⟨.appliedDiff, rowSide d⟩, b') ∧ BookOk b' ∧
      b'.lastUpdateId = d.finalUpdateId ∧ b'.valid = b.valid := by
  obtain ⟨bids, hbids, hbok⟩ := applyUpdates_spec h.bids hd.bids
  obtain ⟨asks, hasks, haok⟩ := applyUpdates_spec h.asks hd.asks
  unfold applyAcceptedDiff
  simp only [hbids, hasks, Option.bind_eq_bind, Option.bind_some]
  cases hc : crossed bids asks with
  | true => exact Or.inl rfl
  | false => exact Or.inr ⟨_, rfl, ⟨hbok, haok, crossed_eq_false_iff.mp hc⟩, rfl, rfl⟩

end TopFiveBook

end MarketCapture
