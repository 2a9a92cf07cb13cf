import MarketCapture.Book.Invariant

/-! # A differential event against its specification

A side is a map from prices to quantities. An event sets the positive updates and
deletes the zero ones, and the side that results shows the best five of the new map.
The two passes over the array come to this whatever the order of the updates.
-/

namespace MarketCapture

/-! ## The specification -/

/-- The quantity a side holds at a price. -/
def Side.quantityAt (s : Side) (price : Int) : Option Int :=
  (s.view.find? fun l => l.price = price).map BookLevel.quantity

/-- Set a positive update, delete a zero one. -/
def setOrDelete (quantities : Int → Option Int) (u : LevelUpdate) : Int → Option Int :=
  Function.update quantities u.price (if u.quantity = 0 then none else some u.quantity)

/-- The map after all updates. -/
def updatedQuantities (s : Side) (updates : List LevelUpdate) : Int → Option Int :=
  updates.foldl setOrDelete s.quantityAt

/-- The levels of a map, best first, and the five of them that are shown. -/
def BestFive (side : BookSide) (quantities : Int → Option Int) (levels : List BookLevel) : Prop :=
  ∃ all : List BookLevel, all.Pairwise (fun a b => betterPrice side a.price b.price = true) ∧
    (∀ l, l ∈ all ↔ quantities l.price = some l.quantity) ∧ levels = all.take visibleBookDepth

theorem betterPrice_asymm {side : BookSide} {a b : Int} (h : betterPrice side a b = true) :
    ¬ betterPrice side b a = true := by
  cases side <;> simp only [betterPrice, decide_eq_true_eq] at * <;> omega

/-- A map has one best five. -/
theorem BestFive.unique {side : BookSide} {quantities : Int → Option Int}
    {levels levels' : List BookLevel} (h : BestFive side quantities levels)
    (h' : BestFive side quantities levels') : levels = levels' := by
  obtain ⟨all, hordered, hmem, rfl⟩ := h
  obtain ⟨all', hordered', hmem', rfl⟩ := h'
  have nodup : ∀ {ls : List BookLevel},
      ls.Pairwise (fun a b => betterPrice side a.price b.price = true) → ls.Nodup := by
    intro ls hls
    apply hls.imp
    intro a b hab heq
    exact betterPrice_ne hab (by rw [heq])
  have hperm : all.Perm all' := by
    rw [List.perm_ext_iff_of_nodup (nodup hordered) (nodup hordered')]
    intro l
    rw [hmem, hmem']
  rw [hperm.eq_of_pairwise (fun a b _ _ hab hba => absurd hba (betterPrice_asymm hab)) hordered
    hordered']

/-! ## The map -/

theorem foldl_setOrDelete_of_not_mem {updates : List LevelUpdate} {price : Int}
    (h : price ∉ updates.map LevelUpdate.price) (m : Int → Option Int) :
    updates.foldl setOrDelete m price = m price := by
  induction updates generalizing m with
  | nil => rfl
  | cons v vs ih =>
      obtain ⟨hne, hrest⟩ := not_or.mp (mt List.mem_cons.mpr h)
      rw [List.foldl_cons, ih hrest, setOrDelete, Function.update_of_ne hne]

/-- Where an update names the price it decides, whatever its position. -/
theorem foldl_setOrDelete_mem {updates : List LevelUpdate} {u : LevelUpdate}
    (hd : (updates.map LevelUpdate.price).Nodup) (hu : u ∈ updates) (m : Int → Option Int) :
    updates.foldl setOrDelete m u.price = if u.quantity = 0 then none else some u.quantity := by
  induction updates generalizing m with
  | nil => cases hu
  | cons v vs ih =>
      obtain ⟨hnot, hvs⟩ := List.nodup_cons.mp hd
      rcases List.mem_cons.mp hu with rfl | hmem
      · rw [List.foldl_cons, foldl_setOrDelete_of_not_mem hnot, setOrDelete, Function.update_self]
      · exact ih hvs hmem _

/-- The order of updates with distinct prices does not matter. -/
theorem updatedQuantities_perm {updates updates' : List LevelUpdate} (s : Side)
    (hd : (updates.map LevelUpdate.price).Nodup) (hperm : updates'.Perm updates) :
    updatedQuantities s updates' = updatedQuantities s updates := by
  have hd' : (updates'.map LevelUpdate.price).Nodup := (hperm.map _).nodup_iff.mpr hd
  funext price
  by_cases hprice : price ∈ updates.map LevelUpdate.price
  · obtain ⟨u, hu, rfl⟩ := List.mem_map.mp hprice
    rw [updatedQuantities, foldl_setOrDelete_mem hd' (hperm.mem_iff.mpr hu), updatedQuantities,
      foldl_setOrDelete_mem hd hu]
  · have hprice' : price ∉ updates'.map LevelUpdate.price := mt (hperm.map _).mem_iff.mp hprice
    rw [updatedQuantities, foldl_setOrDelete_of_not_mem hprice', updatedQuantities,
      foldl_setOrDelete_of_not_mem hprice]

/-- Looking a price up finds the level that holds it, when no other does. -/
theorem find_quantity_iff {levels : List BookLevel} (h : (levels.map BookLevel.price).Nodup)
    (l : BookLevel) :
    (levels.find? fun x => x.price = l.price).map BookLevel.quantity = some l.quantity ↔
      l ∈ levels := by
  rw [Option.map_eq_some_iff]
  constructor
  · rintro ⟨l', hfind, hquantity⟩
    have hprice : l'.price = l.price := by simpa using List.find?_some hfind
    have heq : l' = l := by
      cases l'
      cases l
      simp_all
    rw [← heq]
    exact List.mem_of_find?_eq_some hfind
  · intro hl
    obtain ⟨l', hfind⟩ : ∃ l', levels.find? (fun x => x.price = l.price) = some l' := by
      rw [← Option.isSome_iff_exists, List.find?_isSome]
      exact ⟨l, hl, by simp⟩
    have hprice : l'.price = l.price := by simpa using List.find?_some hfind
    have heq := List.inj_on_of_nodup_map h (List.mem_of_find?_eq_some hfind) hl hprice
    exact ⟨l', hfind, by rw [heq]⟩

theorem SideOk.quantityAt_iff {side : BookSide} {s : Side} (h : SideOk side s) (l : BookLevel) :
    s.quantityAt l.price = some l.quantity ↔ l ∈ s.view :=
  find_quantity_iff h.prices_nodup l

/-! ## The first pass -/

/-- What the first pass leaves: the levels no update names, and the known prices that
have a positive update, with its quantity. -/
theorem applyKnown_mem {side : BookSide} {original : Side} (us : List LevelUpdate)
    {candidate t : Side} (hd : DiffRange side us) (h : KnownOk side original us candidate)
    (ht : Side.applyKnown original side us candidate = some t) (l : BookLevel) :
    l ∈ t.view ↔ (l.price ∉ us.map LevelUpdate.price ∧ l ∈ candidate.view) ∨
      (l.price ∈ original.view.map BookLevel.price ∧
        ∃ u ∈ us, u.price = l.price ∧ u.quantity ≠ 0 ∧ u.quantity = l.quantity) := by
  induction us generalizing candidate with
  | nil =>
      obtain rfl := Option.some.inj ht
      simp
  | cons u us ih =>
      have hnotin : u.price ∉ us.map LevelUpdate.price := (List.nodup_cons.mp hd.distinct).1
      have hquantity := hd.quantity u (by simp)
      rw [Side.applyKnown, require_of (hd.sides u (by simp)), require_of (hd.price u (by simp)),
        require_of hquantity] at ht
      simp only [Option.bind_eq_bind, Option.bind_some] at ht
      rw [List.map_cons, List.mem_cons]
      split at ht
      · rename_i hunknown
        have hout := Side.findPrice_eq_size_iff.mp hunknown
        rw [ih hd.tail ⟨h.ok, h.origin, fun v hv => h.kept v (by simp [hv])⟩ ht]
        have hcand : l ∈ candidate.view → l.price ≠ u.price := fun hl heq =>
          hout (heq ▸ h.origin _ (List.mem_map_of_mem hl))
        simp only [List.mem_cons, exists_eq_or_imp]
        constructor
        · rintro (⟨hnot, hl⟩ | ⟨hl, v, hv⟩)
          · exact .inl ⟨not_or.mpr ⟨hcand hl, hnot⟩, hl⟩
          · exact .inr ⟨hl, .inr ⟨v, hv⟩⟩
        · rintro (⟨hnot, hl⟩ | ⟨hl, ⟨hp, -⟩ | ⟨v, hv⟩⟩)
          · exact .inl ⟨(not_or.mp hnot).2, hl⟩
          · exact absurd (hp ▸ hl) hout
          · exact .inr ⟨hl, v, hv⟩
      · rename_i hfound
        have horig : u.price ∈ original.view.map BookLevel.price := by
          by_contra hn
          exact hfound (Side.findPrice_eq_size_iff.mpr hn)
        have hidx : candidate.findPrice u.price < candidate.size :=
          Side.findPrice_lt_iff.mpr (h.kept u (by simp) horig)
        rw [require_of hidx] at ht
        simp only [Option.bind_some] at ht
        split at ht
        · rename_i hzero
          obtain ⟨t₁, ht₁, hknown, hmem⟩ := h.erase hd hidx
          rw [ht₁] at ht
          rw [ih hd.tail hknown ht, hmem]
          simp only [List.mem_cons, exists_eq_or_imp]
          constructor
          · rintro (⟨hnot, hl, hne⟩ | ⟨hl, v, hv⟩)
            · exact .inl ⟨not_or.mpr ⟨hne, hnot⟩, hl⟩
            · exact .inr ⟨hl, .inr ⟨v, hv⟩⟩
          · rintro (⟨hnot, hl⟩ | ⟨hl, ⟨-, hq, -⟩ | ⟨v, hv⟩⟩)
            · exact .inl ⟨(not_or.mp hnot).2, hl, (not_or.mp hnot).1⟩
            · exact absurd hzero hq
            · exact .inr ⟨hl, v, hv⟩
        · rename_i hq
          obtain ⟨hknown, hmem⟩ := h.write hidx (by omega)
          rw [ih hd.tail hknown ht, hmem]
          have hself : l = ⟨u.price, u.quantity⟩ ↔ u.price = l.price ∧ u.quantity = l.quantity := by
            cases l
            simp only [BookLevel.mk.injEq, eq_comm]
          simp only [List.mem_cons, exists_eq_or_imp, hself]
          constructor
          · rintro (⟨hnot, ⟨hl, hne⟩ | ⟨hp, hqu⟩⟩ | ⟨hl, v, hv⟩)
            · exact .inl ⟨not_or.mpr ⟨hne, hnot⟩, hl⟩
            · exact .inr ⟨hp ▸ horig, .inl ⟨hp, hq, hqu⟩⟩
            · exact .inr ⟨hl, .inr ⟨v, hv⟩⟩
          · rintro (⟨hnot, hl⟩ | ⟨hl, ⟨hp, -, hqu⟩ | ⟨v, hv⟩⟩)
            · obtain ⟨hne, hnot⟩ := not_or.mp hnot
              exact .inl ⟨hnot, .inl ⟨hl, hne⟩⟩
            · exact .inl ⟨hp ▸ hnotin, .inr ⟨hp, hqu⟩⟩
            · exact .inr ⟨hl, v, hv⟩

/-! ## The second pass -/

/-- What is beyond the visible depth does not come back by an insertion. -/
theorem placed_take (side : BookSide) (level : BookLevel) (n : Nat) (levels : List BookLevel) :
    (Side.placed side level (levels.take n)).take n = (Side.placed side level levels).take n := by
  unfold Side.placed
  induction levels generalizing n with
  | nil => simp
  | cons l ls ih =>
      cases n with
      | zero => simp
      | succ n =>
          by_cases hb : betterPrice side l.price level.price = true
          · simp only [List.take_succ_cons, List.takeWhile_cons, List.dropWhile_cons, hb, ↓reduceIte,
              List.cons_append, ih]
          · simp only [List.take_succ_cons, List.takeWhile_cons, List.dropWhile_cons, hb,
              Bool.false_eq_true, ↓reduceIte, List.nil_append]
            cases n with
            | zero => rfl
            | succ n => simp [List.take_take]

/-- The levels the second pass inserts. -/
def newLevels (original : Side) (us : List LevelUpdate) : List BookLevel :=
  (us.filter fun u => u.quantity ≠ 0 && original.findPrice u.price = original.size).map
    fun u => ⟨u.price, u.quantity⟩

/-- The second pass shows the first five of all levels put in their places. -/
theorem applyNew_view {side : BookSide} (original : Side) (us : List LevelUpdate)
    {candidate : Side} (hclean : candidate.Clean) {all : List BookLevel}
    (hall : candidate.view = all.take visibleBookDepth) :
    (Side.applyNew original side us candidate).Clean ∧
      (Side.applyNew original side us candidate).view =
        ((newLevels original us).foldl (fun levels level => Side.placed side level levels) all).take
          visibleBookDepth := by
  induction us generalizing candidate all with
  | nil => exact ⟨hclean, hall⟩
  | cons u us ih =>
      unfold Side.applyNew
      split
      · rename_i hskip
        have hnew : newLevels original (u :: us) = newLevels original us := by
          simp only [newLevels, List.filter_cons]
          rw [if_neg]
          simpa [← or_iff_not_imp_left] using hskip
        rw [hnew]
        exact ih hclean hall
      · rename_i hinsert
        obtain ⟨hq, hsize⟩ := not_or.mp hinsert
        have hnew : newLevels original (u :: us) = ⟨u.price, u.quantity⟩ :: newLevels original us := by
          simp only [newLevels, List.filter_cons]
          rw [if_pos (by simp [hq, not_not.mp hsize])]
          rfl
        obtain ⟨hclean', hview⟩ := Side.insertLevel_spec hclean side ⟨u.price, u.quantity⟩
        rw [hall, placed_take] at hview
        rw [hnew, List.foldl_cons]
        exact ih hclean' hview

theorem foldl_placed_ordered {side : BookSide} (news : List BookLevel) {all : List BookLevel}
    (hordered : all.Pairwise (fun a b => betterPrice side a.price b.price = true))
    (hdistinct : (news.map BookLevel.price).Nodup)
    (hfresh : ∀ l ∈ news, l.price ∉ all.map BookLevel.price) :
    (news.foldl (fun levels level => Side.placed side level levels) all).Pairwise
        (fun a b => betterPrice side a.price b.price = true) ∧
      ∀ l, l ∈ news.foldl (fun levels level => Side.placed side level levels) all ↔
        l ∈ all ∨ l ∈ news := by
  induction news generalizing all with
  | nil => exact ⟨hordered, fun l => by simp⟩
  | cons n ns ih =>
      obtain ⟨hnot, hns⟩ := List.nodup_cons.mp hdistinct
      have hordered' := SideOk.placed_ordered hordered (hfresh n (by simp))
      have hfresh' : ∀ l ∈ ns, l.price ∉ (Side.placed side n all).map BookLevel.price := by
        intro l hl hin
        obtain ⟨x, hx, hxp⟩ := List.mem_map.mp hin
        rcases SideOk.mem_placed.mp hx with rfl | hx
        · exact hnot (hxp ▸ List.mem_map_of_mem hl)
        · exact hfresh l (by simp [hl]) (hxp ▸ List.mem_map_of_mem hx)
      obtain ⟨hord, hmem⟩ := ih hordered' hns hfresh'
      refine ⟨hord, fun l => ?_⟩
      rw [List.foldl_cons, hmem, SideOk.mem_placed, List.mem_cons]
      tauto

/-! ## Both passes -/

theorem newLevels_mem {original : Side} {us : List LevelUpdate} {l : BookLevel} :
    l ∈ newLevels original us ↔ l.price ∉ original.view.map BookLevel.price ∧
      ∃ u ∈ us, u.price = l.price ∧ u.quantity ≠ 0 ∧ u.quantity = l.quantity := by
  simp only [newLevels, List.mem_map, List.mem_filter, Bool.and_eq_true, decide_eq_true_eq]
  constructor
  · rintro ⟨u, ⟨hu, hq, hsize⟩, rfl⟩
    exact ⟨by simpa using Side.findPrice_eq_size_iff.mp hsize, u, hu, rfl, by simpa using hq, rfl⟩
  · rintro ⟨hout, u, hu, hup, hq, huq⟩
    refine ⟨u, ⟨hu, by simpa using hq, Side.findPrice_eq_size_iff.mpr ?_⟩, ?_⟩
    · rw [hup]
      simpa using hout
    · rw [hup, huq]

theorem newLevels_distinct {original : Side} {us : List LevelUpdate}
    (h : (us.map LevelUpdate.price).Nodup) :
    ((newLevels original us).map BookLevel.price).Nodup := by
  rw [newLevels, List.map_map]
  exact h.sublist (List.filter_sublist.map _)

/-- The levels after both passes are those of the updated map. -/
theorem updatedQuantities_iff {side : BookSide} {original : Side} {us : List LevelUpdate}
    (hok : SideOk side original) (hd : DiffRange side us) (l : BookLevel) :
    updatedQuantities original us l.price = some l.quantity ↔
      (l.price ∉ us.map LevelUpdate.price ∧ l ∈ original.view) ∨
        ∃ u ∈ us, u.price = l.price ∧ u.quantity ≠ 0 ∧ u.quantity = l.quantity := by
  by_cases hprice : l.price ∈ us.map LevelUpdate.price
  · obtain ⟨u, hu, hup⟩ := List.mem_map.mp hprice
    have hvalue := foldl_setOrDelete_mem hd.distinct hu original.quantityAt
    rw [hup] at hvalue
    rw [updatedQuantities, hvalue]
    constructor
    · intro hsome
      split at hsome
      · cases hsome
      · rename_i hq
        exact .inr ⟨u, hu, hup, hq, Option.some.inj hsome⟩
    · rintro (⟨hnot, -⟩ | ⟨v, hv, hvp, hq, hvq⟩)
      · exact absurd hprice hnot
      · obtain rfl : v = u := List.inj_on_of_nodup_map hd.distinct hv hu (hvp.trans hup.symm)
        rw [if_neg hq, hvq]
  · rw [updatedQuantities, foldl_setOrDelete_of_not_mem hprice, hok.quantityAt_iff]
    constructor
    · exact fun hl => .inl ⟨hprice, hl⟩
    · rintro (⟨-, hl⟩ | ⟨u, hu, hup, -⟩)
      · exact hl
      · exact absurd (hup ▸ List.mem_map_of_mem hu) hprice

/-- Two sides that show the same levels are the same array. -/
theorem Side.eq_of_view {s t : Side} (hs : s.Clean) (ht : t.Clean) (h : s.view = t.view) : s = t := by
  have hsize : s.size = t.size := by simpa using congrArg List.length h
  have hslot : ∀ j, s.slot j = t.slot j := by
    intro j
    by_cases hj : j < s.size
    · have hget := congrArg (fun v : List BookLevel => v[j]?) h
      simp only [Side.view_getElem?, ← hsize, if_pos hj] at hget
      exact Option.some.inj hget
    · rw [hs.unused j (by omega), ht.unused j (by omega)]
  cases s with
  | mk levels size =>
      cases t with
      | mk levels' size' =>
          obtain rfl : size = size' := hsize
          congr 1
          apply Vector.ext
          intro j hj
          have := hslot j
          simpa [Side.slot, hj] using this

theorem applyUpdates_shows {side : BookSide} {original : Side} {us : List LevelUpdate}
    (hok : SideOk side original) (hd : DiffRange side us) :
    ∃ t, original.applyUpdates us side = some t ∧ SideOk side t ∧
      BestFive side (updatedQuantities original us) t.view := by
  have hstart : KnownOk side original us original := ⟨hok, fun _ h => h, fun _ _ h => h⟩
  obtain ⟨c, hc, hknown⟩ := applyKnown_spec us hd hstart
  have hfresh : ∀ u ∈ us, u.price ∉ original.view.map BookLevel.price →
      u.price ∉ c.view.map BookLevel.price := fun u _ hout hin => hout (hknown.origin _ hin)
  have hview : c.view = c.view.take visibleBookDepth := by
    rw [List.take_of_length_le]
    simpa using hknown.ok.clean.depth
  obtain ⟨-, hnew⟩ := applyNew_view original us hknown.ok.clean hview
  obtain ⟨hordered, hmem⟩ := foldl_placed_ordered (newLevels original us) hknown.ok.ordered
    (newLevels_distinct hd.distinct)
    (fun l hl hin => (newLevels_mem.mp hl).1 (hknown.origin _ hin))
  refine ⟨_, by rw [Side.applyUpdates, hc]; rfl, applyNew_spec us hd hknown.ok hfresh, _, hordered,
    fun l => ?_, hnew⟩
  rw [hmem, newLevels_mem, applyKnown_mem us hd hstart hc, updatedQuantities_iff hok hd]
  by_cases hold : l.price ∈ original.view.map BookLevel.price
  · simp [hold]
  · simp [hold]

/-- The two passes show the best five of the updated map, in any order of the updates. -/
theorem applyUpdates_best_five {side : BookSide} {original : Side} {us : List LevelUpdate}
    (hok : SideOk side original) (hd : DiffRange side us) :
    ∃ t, original.applyUpdates us side = some t ∧ SideOk side t ∧
      BestFive side (updatedQuantities original us) t.view ∧
      ∀ us', us'.Perm us → original.applyUpdates us' side = some t := by
  obtain ⟨t, ht, htok, hbest⟩ := applyUpdates_shows hok hd
  refine ⟨t, ht, htok, hbest, ?_⟩
  intro us' hperm
  have hd' : DiffRange side us' :=
    ⟨fun u hu => hd.sides u (hperm.mem_iff.mp hu), fun u hu => hd.price u (hperm.mem_iff.mp hu),
      fun u hu => hd.quantity u (hperm.mem_iff.mp hu), (hperm.map _).nodup_iff.mpr hd.distinct⟩
  obtain ⟨t', ht', htok', hbest'⟩ := applyUpdates_shows hok hd'
  rw [updatedQuantities_perm original hd.distinct hperm] at hbest'
  rw [ht', Side.eq_of_view htok'.clean htok.clean (hbest'.unique hbest)]

/-- A bid at 100 goes and one at 101 comes, in either order. -/
theorem applyUpdates_best_five_sample :
    ∃ t, (({} : Side).insertLevel .bid ⟨100, 5⟩).applyUpdates
        [⟨100, 0, .bid⟩, ⟨101, 2, .bid⟩] .bid = some t ∧ t.view = [⟨101, 2⟩] ∧
      (({} : Side).insertLevel .bid ⟨100, 5⟩).applyUpdates
        [⟨101, 2, .bid⟩, ⟨100, 0, .bid⟩] .bid = some t := by
  have hok : SideOk .bid (({} : Side).insertLevel .bid ⟨100, 5⟩) :=
    ((SideOk.empty .bid).insertLevel ⟨100, 5⟩ (by decide) (by decide) (by simp [Side.view])).1
  have hd : DiffRange .bid [⟨100, 0, .bid⟩, ⟨101, 2, .bid⟩] := by constructor <;> simp
  obtain ⟨t, ht, -, -, hperm⟩ := applyUpdates_best_five hok hd
  refine ⟨t, ht, ?_, hperm _ (List.Perm.swap _ _ _)⟩
  have hview : ((({} : Side).insertLevel .bid ⟨100, 5⟩).applyUpdates
      [⟨100, 0, .bid⟩, ⟨101, 2, .bid⟩] .bid).map Side.view = some [⟨101, 2⟩] := by decide +kernel
  rw [ht] at hview
  exact Option.some.inj hview

end MarketCapture
