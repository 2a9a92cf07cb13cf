import MarketCapture.Book.TopFive

/-! # One side as a list of levels

The loops of the source change an array in place. Read through `view`, erasing is
`List.eraseIdx`, writing is `List.set`, and inserting splits the list where the
prices stop being better and keeps the first five.
-/

namespace MarketCapture

/-! ## Price order -/

theorem betterPrice_trans {side : BookSide} {a b c : Int} (h₁ : betterPrice side a b = true)
    (h₂ : betterPrice side b c = true) : betterPrice side a c = true := by
  cases side <;> simp only [betterPrice, decide_eq_true_eq] at * <;> omega

theorem betterPrice_ne {side : BookSide} {a b : Int} (h : betterPrice side a b = true) : a ≠ b := by
  cases side <;> simp only [betterPrice, decide_eq_true_eq] at h <;> omega

theorem betterPrice_of_not {side : BookSide} {a b : Int} (h : ¬ betterPrice side a b = true)
    (hne : a ≠ b) : betterPrice side b a = true := by
  cases side <;> simp only [betterPrice, decide_eq_true_eq] at * <;> omega

@[simp] theorem require_eq_some {p : Prop} [Decidable p] {x : Unit} :
    require p = some x ↔ p := by
  unfold require
  split <;> simp_all

theorem require_of {p : Prop} [Decidable p] (h : p) : require p = some () := if_pos h

namespace Side

/-! ## Slots and views -/

theorem slot_write {s : Side} {i : Nat} (hi : i < visibleBookDepth) (level : BookLevel) (j : Nat) :
    (s.write i level).slot j = if j = i then level else s.slot j := by
  have hi5 : i < 5 := hi
  unfold slot write
  simp only [Vector.getElem?_setIfInBounds]
  by_cases hj : i = j
  · subst hj
    simp [hi5]
  · simp [hj, Ne.symm hj]

@[simp] theorem write_size (s : Side) (i : Nat) (level : BookLevel) :
    (s.write i level).size = s.size := rfl

@[simp] theorem slot_withSize (s : Side) (n j : Nat) : ({ s with size := n }).slot j = s.slot j :=
  rfl

theorem slot_default (j : Nat) : ({} : Side).slot j = {} := by
  unfold slot
  simp only [Vector.getElem?_replicate]
  split <;> rfl

@[simp] theorem view_length (s : Side) : s.view.length = s.size := by simp [view]

theorem view_getElem? (s : Side) (j : Nat) :
    s.view[j]? = if j < s.size then some (s.slot j) else none := by
  unfold view
  split <;> simp_all

theorem mem_view {s : Side} {level : BookLevel} :
    level ∈ s.view ↔ ∃ j < s.size, s.slot j = level := by
  simp [view]

/-- The array behind a view: within the depth, and cleared beyond the size. -/
structure Clean (s : Side) : Prop where
  depth : s.size ≤ visibleBookDepth
  unused : ∀ j, s.size ≤ j → s.slot j = {}

theorem Clean.empty : ({} : Side).Clean where
  depth := by decide
  unused := fun j _ => slot_default j

/-! ## Finding a price -/

theorem findPriceFrom_spec (s : Side) (price : Int) (remaining index : Nat) :
    index ≤ s.findPriceFrom price remaining index ∧
      s.findPriceFrom price remaining index ≤ index + remaining ∧
      (s.findPriceFrom price remaining index < index + remaining →
        (s.slot (s.findPriceFrom price remaining index)).price = price) ∧
      ∀ j, index ≤ j → j < s.findPriceFrom price remaining index → (s.slot j).price ≠ price := by
  induction remaining generalizing index with
  | zero => simp [findPriceFrom]; omega
  | succ remaining ih =>
      unfold findPriceFrom
      split
      · rename_i hp
        exact ⟨Nat.le_refl _, by omega, fun _ => hp, by omega⟩
      · rename_i hp
        obtain ⟨hlow, hhigh, hfound, hbefore⟩ := ih (index + 1)
        refine ⟨by omega, by omega, fun h => hfound (by omega), ?_⟩
        intro j hj hlt
        by_cases hji : j = index
        · rw [hji]
          exact hp
        · exact hbefore j (by omega) hlt

theorem findPrice_le (s : Side) (price : Int) : s.findPrice price ≤ s.size := by
  have h := (findPriceFrom_spec s price s.size 0).2.1
  simpa [findPrice] using h

theorem slot_findPrice {s : Side} {price : Int} (h : s.findPrice price < s.size) :
    (s.slot (s.findPrice price)).price = price :=
  (findPriceFrom_spec s price s.size 0).2.2.1 (by simpa [findPrice] using h)

theorem findPrice_lt_iff {s : Side} {price : Int} :
    s.findPrice price < s.size ↔ price ∈ s.view.map BookLevel.price := by
  constructor
  · intro h
    exact List.mem_map.mpr ⟨_, mem_view.mpr ⟨_, h, rfl⟩, slot_findPrice h⟩
  · intro h
    obtain ⟨level, hl, hp⟩ := List.mem_map.mp h
    obtain ⟨j, hj, rfl⟩ := mem_view.mp hl
    by_contra hn
    exact (findPriceFrom_spec s price s.size 0).2.2.2 j (Nat.zero_le _)
      (by simp only [findPrice] at hn; omega) hp

theorem findPrice_eq_size_iff {s : Side} {price : Int} :
    s.findPrice price = s.size ↔ price ∉ s.view.map BookLevel.price := by
  rw [← findPrice_lt_iff]
  have := s.findPrice_le price
  omega

/-! ## Erasing a level -/

@[simp] theorem shiftDown_size (s : Side) (count destination : Nat) :
    (s.shiftDown count destination).size = s.size := by
  induction count generalizing s destination with
  | zero => rfl
  | succ count ih => simp [shiftDown, ih]

theorem slot_shiftDown {s : Side} {count destination : Nat}
    (h : destination + count ≤ visibleBookDepth) (j : Nat) :
    (s.shiftDown count destination).slot j =
      if destination ≤ j ∧ j < destination + count then s.slot (j + 1) else s.slot j := by
  induction count generalizing s destination with
  | zero => grind [shiftDown]
  | succ count ih =>
      unfold shiftDown
      rw [ih (by omega), slot_write (by omega), slot_write (by omega)]
      grind

theorem eraseLevel_spec {s : Side} (hs : s.Clean) {index : Nat} (h : index < s.size) :
    ∃ t, s.eraseLevel index = some t ∧ t.Clean ∧ t.view = s.view.eraseIdx index := by
  have hd := hs.depth
  have hslot : ∀ j, ((({ s.shiftDown (s.size - 1 - index) index with
      size := s.size - 1 } : Side).write (s.size - 1) {}).slot j) =
      if j = s.size - 1 then {}
      else if index ≤ j ∧ j < s.size - 1 then s.slot (j + 1) else s.slot j := by
    intro j
    rw [slot_write (by omega), slot_withSize, slot_shiftDown (by omega)]
    grind
  refine ⟨_, by simp [eraseLevel, require_of h]; rfl, ⟨?_, ?_⟩, ?_⟩
  · simp only [write_size]
    omega
  · intro j hj
    simp only [write_size] at hj
    rw [hslot]
    split
    · rfl
    · rw [if_neg (by omega)]
      exact hs.unused j (by omega)
  · apply List.ext_getElem?
    intro j
    rw [view_getElem?, List.getElem?_eraseIdx, view_getElem?, view_getElem?, hslot]
    simp only [write_size]
    grind

/-! ## Changing a quantity -/

theorem write_spec {s : Side} (hs : s.Clean) {index : Nat} (h : index < s.size)
    (level : BookLevel) :
    (s.write index level).Clean ∧ (s.write index level).view = s.view.set index level := by
  have hd := hs.depth
  refine ⟨⟨hd, ?_⟩, ?_⟩
  · intro j hj
    simp only [write_size] at hj
    rw [slot_write (by omega), if_neg (by omega)]
    exact hs.unused j hj
  · apply List.ext_getElem?
    intro j
    rw [view_getElem?, List.getElem?_set, view_getElem?, slot_write (by omega)]
    simp only [write_size, view_length]
    grind

/-! ## Inserting a level -/

theorem insertPosition_eq (s : Side) (side : BookSide) (price : Int) (remaining position : Nat) :
    s.insertPosition side price remaining position = position +
      (((List.range' position remaining).map s.slot).takeWhile
        (fun l => betterPrice side l.price price)).length := by
  induction remaining generalizing position with
  | zero => simp [insertPosition]
  | succ remaining ih =>
      unfold insertPosition
      rw [List.range'_succ, List.map_cons, List.takeWhile_cons]
      split
      · rw [ih, List.length_cons]
        omega
      · simp

/-- Where a price belongs among the levels. -/
def rank (s : Side) (side : BookSide) (price : Int) : Nat :=
  (s.view.takeWhile (fun l => betterPrice side l.price price)).length

theorem insertPosition_rank (s : Side) (side : BookSide) (price : Int) :
    s.insertPosition side price s.size 0 = s.rank side price := by
  rw [insertPosition_eq, rank, view, List.range_eq_range']
  omega

@[simp] theorem shiftUp_size (s : Side) (count destination : Nat) :
    (s.shiftUp count destination).size = s.size := by
  induction count generalizing s destination with
  | zero => rfl
  | succ count ih => simp [shiftUp, ih]

theorem slot_shiftUp {s : Side} {count destination : Nat} (h : destination < visibleBookDepth)
    (hc : count ≤ destination) (j : Nat) :
    (s.shiftUp count destination).slot j =
      if destination - count < j ∧ j ≤ destination then s.slot (j - 1) else s.slot j := by
  induction count generalizing s destination with
  | zero => grind [shiftUp]
  | succ count ih =>
      unfold shiftUp
      rw [ih (by omega) (by omega), slot_write (by omega), slot_write (by omega)]
      grind

/-- The list with a level put in its place. -/
def placed (side : BookSide) (level : BookLevel) (levels : List BookLevel) : List BookLevel :=
  levels.takeWhile (fun l => betterPrice side l.price level.price) ++
    level :: levels.dropWhile (fun l => betterPrice side l.price level.price)

theorem placed_eq_insertIdx (side : BookSide) (level : BookLevel) (levels : List BookLevel) :
    placed side level levels = levels.insertIdx
      (levels.takeWhile (fun l => betterPrice side l.price level.price)).length level := by
  unfold placed
  induction levels with
  | nil => rfl
  | cons l ls ih =>
      by_cases hb : betterPrice side l.price level.price = true
      · simp [hb, ih]
      · simp [hb]

theorem rank_le (s : Side) (side : BookSide) (price : Int) : s.rank side price ≤ s.size := by
  have h := (List.takeWhile_sublist (l := s.view)
    (fun l => betterPrice side l.price price)).length_le
  simpa [rank] using h

theorem insertLevel_spec {s : Side} (hs : s.Clean) (side : BookSide) (level : BookLevel) :
    (s.insertLevel side level).Clean ∧
      (s.insertLevel side level).view = (placed side level s.view).take visibleBookDepth := by
  have hd := hs.depth
  have hr := s.rank_le side level.price
  have hplaced : placed side level s.view = s.view.insertIdx (s.rank side level.price) level :=
    placed_eq_insertIdx side level s.view
  unfold insertLevel
  simp only [insertPosition_rank]
  rw [hplaced]
  generalize s.rank side level.price = position at hr
  split
  · rename_i hfull
    refine ⟨hs, ?_⟩
    apply List.ext_getElem?
    intro j
    rw [List.getElem?_take, List.getElem?_insertIdx, view_getElem?, view_getElem?]
    grind
  · rename_i hroom
    have hslot : ∀ limit, limit < visibleBookDepth → position ≤ limit → ∀ j,
        ((s.shiftUp (limit - position) limit).write position level).slot j =
          if j = position then level
          else if position < j ∧ j ≤ limit then s.slot (j - 1) else s.slot j := by
      intro limit hl hp j
      rw [slot_write (by omega), slot_shiftUp hl (by omega)]
      grind
    split
    · rename_i hlt
      refine ⟨⟨?_, ?_⟩, ?_⟩
      · simp only
        omega
      · intro j hj
        simp only at hj
        rw [slot_withSize, hslot _ hlt hr, if_neg (by omega), if_neg (by omega)]
        exact hs.unused j (by omega)
      · apply List.ext_getElem?
        intro j
        rw [List.getElem?_take, List.getElem?_insertIdx, view_getElem?, view_getElem?,
          view_getElem?, slot_withSize, hslot _ hlt hr]
        simp only [view_length]
        grind
    · rename_i hlt
      have hfive : s.size = visibleBookDepth := by omega
      have hp : position ≤ visibleBookDepth - 1 := by omega
      have hpos : visibleBookDepth - 1 < visibleBookDepth := by decide
      refine ⟨⟨by simpa using hd, ?_⟩, ?_⟩
      · intro j hj
        simp only [write_size, shiftUp_size] at hj
        rw [hslot _ hpos hp, if_neg (by omega), if_neg (by omega)]
        exact hs.unused j (by omega)
      · apply List.ext_getElem?
        intro j
        rw [List.getElem?_take, List.getElem?_insertIdx, view_getElem?, view_getElem?,
          view_getElem?, hslot _ hpos hp]
        simp only [write_size, shiftUp_size, view_length]
        grind

end Side

end MarketCapture
