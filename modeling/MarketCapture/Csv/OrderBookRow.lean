import MarketCapture.Csv.Formatter
import MarketCapture.Payload.FixedPoint

/-! # Order-book rows

What `format_order_book_csv_row` writes: 26 fields, the four column groups of the
levels padded with zeros to five. A row that is written determines its input, because
a zero stands for no level of a book.
-/

namespace MarketCapture

open ByteText

/-- A level of 64-bit numbers. -/
def BookLevel.Within (l : BookLevel) : Prop := l.price ≤ int64Maximum ∧ l.quantity ≤ int64Maximum

instance (l : BookLevel) : Decidable l.Within := inferInstanceAs (Decidable (_ ∧ _))

/-- The number in a column of a side: zero where no level is shown. -/
def levelValue (view : List BookLevel) (quantity : Bool) (index : Nat) : Int :=
  match view[index]? with
  | none => 0
  | some level => if quantity then level.quantity else level.price

/-- The columns of a side, prices or quantities. -/
def sideFields (view : List BookLevel) (quantity : Bool) : List Bytes :=
  (List.range visibleBookDepth).map fun index => intText (levelValue view quantity index)

/-- The 20 columns of the levels. -/
def levelFields (row : OrderBookCsvRow) : List Bytes :=
  sideFields row.bids false ++ sideFields row.bids true ++ sideFields row.asks false ++
    sideFields row.asks true

def orderBookText (row : OrderBookCsvRow) : Bytes :=
  [comma].intercalate (orderBookFields row ++ levelFields row) ++ [lineFeed]

theorem intercalate_append {fields more : List Bytes} (h : fields ≠ []) :
    [comma].intercalate (fields ++ more) =
      [comma].intercalate fields ++ more.flatMap (fun f => comma :: f) := by
  induction more generalizing fields with
  | nil => simp
  | cons f more ih =>
      have hstep : [comma].intercalate (fields ++ [f]) =
          [comma].intercalate fields ++ comma :: f := by
        clear ih
        induction fields with
        | nil => exact absurd rfl h
        | cons g fields ihf =>
            cases fields with
            | nil => simp [List.intercalate_cons_cons]
            | cons g' fields =>
                rw [List.cons_append, List.cons_append, List.intercalate_cons_cons,
                  ← List.cons_append, ihf (by simp), List.intercalate_cons_cons,
                  List.append_assoc, List.append_assoc, List.append_assoc]
      rw [List.append_cons, ih (by simp), hstep, List.flatMap_cons, List.append_assoc]

theorem mem_intercalate {b : UInt8} {fields : List Bytes} (h : b ∈ [comma].intercalate fields) :
    b = comma ∨ ∃ f ∈ fields, b ∈ f := by
  cases fields with
  | nil => cases h
  | cons f more =>
      change b ∈ [comma].intercalate ([f] ++ more) at h
      rw [intercalate_append (by simp), List.intercalate_singleton, List.mem_append] at h
      rcases h with h | h
      · exact .inr ⟨f, List.mem_cons_self, h⟩
      · obtain ⟨g, hg, hb⟩ := List.mem_flatMap.mp h
        rcases List.mem_cons.mp hb with hb | hb
        · exact .inl hb
        · exact .inr ⟨g, List.mem_cons_of_mem _ hg, hb⟩

/-! ## Writing -/

theorem intText_zero : intText 0 = [48] := by decide

theorem appendLevelComponent_eq_some {o r : Bytes} {view : List BookLevel} {index : Nat}
    {quantity : Bool} (h : appendLevelComponent o view index quantity = some r) :
    r = o ++ comma :: intText (levelValue view quantity index) := by
  obtain ⟨separated, hcomma, hvalue⟩ := Option.bind_eq_some_iff.mp h
  obtain rfl := appendByte_eq_some hcomma
  unfold levelValue
  cases hlevel : view[index]? with
  | none =>
      rw [hlevel] at hvalue
      rw [appendByte_eq_some hvalue, intText_zero, List.append_assoc, List.singleton_append]
  | some level =>
      rw [hlevel] at hvalue
      rw [appendInteger_eq_some hvalue, List.append_assoc, List.singleton_append]

theorem appendBookSide_eq_some {o r : Bytes} {view : List BookLevel} {quantity : Bool}
    (h : appendBookSide o view quantity = some r) :
    r = o ++ (sideFields view quantity).flatMap (fun f => comma :: f) := by
  unfold appendBookSide at h
  unfold sideFields
  generalize List.range visibleBookDepth = indices at h
  induction indices generalizing o with
  | nil =>
      obtain rfl := Option.some.inj h
      simp
  | cons index indices ih =>
      rw [List.foldlM_cons] at h
      obtain ⟨next, hnext, hrest⟩ := Option.bind_eq_some_iff.mp h
      rw [ih hrest, appendLevelComponent_eq_some hnext, List.map_cons, List.flatMap_cons,
        List.append_assoc]

/-- What the checks let through, and the text that is then written. -/
theorem formatOrderBookCsvRow_eq_ok {row : OrderBookCsvRow} {text : Bytes}
    (h : formatOrderBookCsvRow row = .ok text) :
    validBook row.bids row.asks = true ∧ text = orderBookText row := by
  unfold formatOrderBookCsvRow at h
  split at h
  · cases h
  · split at h
    · cases h
    · split at h
      · cases h
      · split at h
        · cases h
        · rename_i hbook
          dsimp only at h
          split at h
          · cases h
          · rename_i record hcomplete
            obtain rfl := Except.ok.inj h
            refine ⟨by simpa using hbook, ?_⟩
            obtain ⟨o₁, h₁, hcomplete⟩ := Option.bind_eq_some_iff.mp hcomplete
            obtain ⟨o₂, h₂, hcomplete⟩ := Option.bind_eq_some_iff.mp hcomplete
            obtain ⟨o₃, h₃, hcomplete⟩ := Option.bind_eq_some_iff.mp hcomplete
            obtain ⟨o₄, h₄, hcomplete⟩ := Option.bind_eq_some_iff.mp hcomplete
            obtain ⟨o₅, h₅, hcomplete⟩ := Option.bind_eq_some_iff.mp hcomplete
            obtain ⟨o₆, h₆, hcomplete⟩ := Option.bind_eq_some_iff.mp hcomplete
            obtain ⟨o₇, h₇, hcomplete⟩ := Option.bind_eq_some_iff.mp hcomplete
            obtain ⟨o₈, h₈, hcomplete⟩ := Option.bind_eq_some_iff.mp hcomplete
            obtain ⟨o₉, h₉, hcomplete⟩ := Option.bind_eq_some_iff.mp hcomplete
            obtain ⟨o₁₀, h₁₀, hcomplete⟩ := Option.bind_eq_some_iff.mp hcomplete
            obtain ⟨o₁₁, h₁₁, hcomplete⟩ := Option.bind_eq_some_iff.mp hcomplete
            obtain ⟨o₁₂, h₁₂, hcomplete⟩ := Option.bind_eq_some_iff.mp hcomplete
            obtain ⟨o₁₃, h₁₃, hcomplete⟩ := Option.bind_eq_some_iff.mp hcomplete
            obtain ⟨o₁₄, h₁₄, hcomplete⟩ := Option.bind_eq_some_iff.mp hcomplete
            obtain ⟨o₁₅, h₁₅, hlast⟩ := Option.bind_eq_some_iff.mp hcomplete
            have hfields : o₁₁ = [comma].intercalate (orderBookFields row) := by
              rw [appendByte_eq_some h₁₁, appendByte_eq_some h₁₀, appendByte_eq_some h₉,
                appendByte_eq_some h₈, appendInteger_eq_some h₇, appendByte_eq_some h₆,
                appendInteger_eq_some h₅, appendByte_eq_some h₄, appendInteger_eq_some h₃,
                appendByte_eq_some h₂, appendInteger_eq_some h₁]
              simp [orderBookFields, List.intercalate]
            rw [appendByte_eq_some hlast, appendBookSide_eq_some h₁₅, appendBookSide_eq_some h₁₄,
              appendBookSide_eq_some h₁₃, appendBookSide_eq_some h₁₂, hfields, orderBookText,
              intercalate_append (by simp [orderBookFields])]
            simp only [levelFields, List.flatMap_append, List.append_assoc]

/-- A written order-book row begins with its fields. -/
theorem formatOrderBookCsvRow_fields {row : OrderBookCsvRow} {text : Bytes}
    (h : formatOrderBookCsvRow row = .ok text) :
    [comma].intercalate (orderBookFields row) <+: text := by
  rw [(formatOrderBookCsvRow_eq_ok h).2, orderBookText,
    intercalate_append (by simp [orderBookFields]), List.append_assoc]
  exact List.prefix_append _ _

theorem formatOrderBookCsvRow_ne_nil {row : OrderBookCsvRow} {text : Bytes}
    (h : formatOrderBookCsvRow row = .ok text) : text ≠ [] := by
  rw [(formatOrderBookCsvRow_eq_ok h).2]
  simp [orderBookText]

/-! ## Room for a row -/

/-- The checks leave levels with positive numbers, at most five of them. -/
theorem validLevels_positive {side : BookSide} {levels : List BookLevel} {previous : Option Int}
    (h : validLevels side previous levels = true) :
    ∀ l ∈ levels, 0 < l.price ∧ 0 < l.quantity := by
  induction levels generalizing previous with
  | nil => simp
  | cons level rest ih =>
      unfold validLevels at h
      split at h
      · cases h
      · rename_i hpositive
        dsimp only at h
        generalize Option.any _ previous = misplaced at h
        cases misplaced with
        | true => cases h
        | false =>
          intro l hl
          rcases List.mem_cons.mp hl with rfl | hl
          · omega
          · exact ih h l hl

theorem validSide_positive {side : BookSide} {view : List BookLevel}
    (h : validSide view side = true) :
    view.length ≤ visibleBookDepth ∧ ∀ l ∈ view, 0 < l.price ∧ 0 < l.quantity := by
  unfold validSide at h
  split at h
  · cases h
  · exact ⟨by omega, validLevels_positive h⟩

theorem validBook_sides {bids asks : List BookLevel} (h : validBook bids asks = true) :
    validSide bids .bid = true ∧ validSide asks .ask = true := by
  unfold validBook at h
  split at h
  · cases h
  · rename_i hsides
    simpa using hsides

/-- Each piece is appended to an output with room for it. -/
theorem appendInteger_room (value : Int) {output : Bytes} {n : Nat}
    (hlow : -2 ^ 63 ≤ value) (hhigh : value < 2 ^ 64) (hlength : output.length ≤ n)
    (hn : n ≤ 1000) : ∃ next, appendInteger output value = some next ∧ next.length ≤ n + 21 := by
  have htext : (intText value).length ≤ 21 := intText_length_le (k := 19) (by omega)
  have hlimit : maxCsvRecordBytes = 3145728 := rfl
  refine ⟨_, appendInteger_of_fits (by omega) (by omega), ?_⟩
  rw [List.length_append]
  omega

theorem appendByte_room {output : Bytes} {n : Nat} (byte : UInt8) (hlength : output.length ≤ n)
    (hn : n ≤ 1000) : ∃ next, appendByte output byte = some next ∧ next.length ≤ n + 1 := by
  have hlimit : maxCsvRecordBytes = 3145728 := rfl
  refine ⟨_, appendByte_of_fits (by omega), ?_⟩
  rw [List.length_append, List.length_singleton]
  omega

theorem appendLevelComponent_room {output : Bytes} {view : List BookLevel} {n : Nat}
    (index : Nat) (quantity : Bool) (hpositive : ∀ l ∈ view, 0 < l.price ∧ 0 < l.quantity)
    (hwithin : ∀ l ∈ view, l.Within) (hlength : output.length ≤ n) (hn : n + 1 ≤ 1000) :
    ∃ next, appendLevelComponent output view index quantity = some next ∧
      next.length ≤ n + 22 := by
  obtain ⟨o, ho, hlong⟩ := appendByte_room comma hlength (by omega)
  unfold appendLevelComponent appendComma
  rw [ho, Option.bind_eq_bind, Option.bind_some]
  split
  · obtain ⟨next, hnext, hl⟩ := appendByte_room 48 hlong (by omega)
    exact ⟨next, hnext, by omega⟩
  · rename_i level hlevel
    have hmem := List.mem_of_getElem? hlevel
    obtain ⟨hp, hq⟩ := hpositive level hmem
    obtain ⟨hpmax, hqmax⟩ := hwithin level hmem
    simp only [int64Maximum] at hpmax hqmax
    have hrange : -2 ^ 63 ≤ (if quantity = true then level.quantity else level.price) ∧
        (if quantity = true then level.quantity else level.price) < 2 ^ 64 := by
      split <;> omega
    obtain ⟨next, hnext, hl⟩ := appendInteger_room _ hrange.1 hrange.2 hlong (by omega)
    exact ⟨next, hnext, by omega⟩

theorem appendBookSide_room {output : Bytes} {view : List BookLevel} {n : Nat} (quantity : Bool)
    (hpositive : ∀ l ∈ view, 0 < l.price ∧ 0 < l.quantity) (hwithin : ∀ l ∈ view, l.Within)
    (hlength : output.length ≤ n) (hn : n + 110 ≤ 1000) :
    ∃ next, appendBookSide output view quantity = some next ∧ next.length ≤ n + 110 := by
  -- one component for each of the five levels shown
  have loop : ∀ (indices : List Nat) (o : Bytes) (m : Nat), o.length ≤ m →
      m + 22 * indices.length ≤ 1000 →
      ∃ next, indices.foldlM (fun o index => appendLevelComponent o view index quantity) o =
        some next ∧ next.length ≤ m + 22 * indices.length := by
    intro indices
    induction indices with
    | nil =>
        intro o m ho _
        exact ⟨o, rfl, by simpa using ho⟩
    | cons index indices ih =>
        intro o m ho hm
        rw [List.length_cons] at hm
        obtain ⟨o', ho', hlong⟩ := appendLevelComponent_room index quantity hpositive hwithin ho
          (by omega)
        obtain ⟨next, hnext, hl⟩ := ih o' (m + 22) hlong (by omega)
        refine ⟨next, ?_, ?_⟩
        · rw [List.foldlM_cons, ho', Option.bind_eq_bind, Option.bind_some, hnext]
        · rw [List.length_cons]
          omega
  have hrange : (List.range visibleBookDepth).length = 5 := by simp [visibleBookDepth]
  obtain ⟨next, hnext, hl⟩ := loop (List.range visibleBookDepth) output n hlength (by omega)
  exact ⟨next, hnext, by omega⟩

/-- `kOrderBookRecordCapacity`, the bytes reserved for an order-book row. -/
def orderBookRecordCapacity : Nat := 1024

/-- A row that passes the checks is written within the reserved bytes. -/
theorem formatOrderBookCsvRow_ok (row : OrderBookCsvRow)
    (htime : validTimestamp row.timestamp = true) (hsequence : row.sequenceNumber ≠ 0)
    (hid : 0 < row.instrumentId ∧ row.instrumentId < 2 ^ 31)
    (hbook : validBook row.bids row.asks = true) (hbids : ∀ l ∈ row.bids, l.Within)
    (hasks : ∀ l ∈ row.asks, l.Within) :
    ∃ text, formatOrderBookCsvRow row = .ok text ∧ text.length ≤ orderBookRecordCapacity := by
  have hseconds₁ := row.timestamp.seconds.le_toInt
  have hseconds₂ := row.timestamp.seconds.toInt_lt
  have hnanos₁ := row.timestamp.nanoseconds.le_toInt
  have hnanos₂ := row.timestamp.nanoseconds.toInt_lt
  have hnumber := row.sequenceNumber.toNat_lt
  have hbidsOk := (validSide_positive (validBook_sides hbook).1).2
  have hasksOk := (validSide_positive (validBook_sides hbook).2).2
  obtain ⟨o₁, h₁, l₁⟩ := appendInteger_room row.timestamp.seconds.toInt (by omega) (by omega)
    (show ([] : Bytes).length ≤ 0 from Nat.le_refl 0) (by omega)
  obtain ⟨o₂, h₂, l₂⟩ := appendByte_room comma l₁ (by omega)
  obtain ⟨o₃, h₃, l₃⟩ := appendInteger_room row.timestamp.nanoseconds.toInt
    (by omega) (by omega) l₂ (by omega)
  obtain ⟨o₄, h₄, l₄⟩ := appendByte_room comma l₃ (by omega)
  obtain ⟨o₅, h₅, l₅⟩ := appendInteger_room row.sequenceNumber.toNat
    (by omega) (by omega) l₄ (by omega)
  obtain ⟨o₆, h₆, l₆⟩ := appendByte_room comma l₅ (by omega)
  obtain ⟨o₇, h₇, l₇⟩ := appendInteger_room row.instrumentId
    (by omega) (by omega) l₆ (by omega)
  obtain ⟨o₈, h₈, l₈⟩ := appendByte_room comma l₇ (by omega)
  obtain ⟨o₉, h₉, l₉⟩ := appendByte_room (rowTypeText row.rowType) l₈ (by omega)
  obtain ⟨o₁₀, h₁₀, l₁₀⟩ := appendByte_room comma l₉ (by omega)
  obtain ⟨o₁₁, h₁₁, l₁₁⟩ := appendByte_room (sideText row.side) l₁₀ (by omega)
  obtain ⟨o₁₂, h₁₂, l₁₂⟩ := appendBookSide_room false hbidsOk hbids l₁₁ (by omega)
  obtain ⟨o₁₃, h₁₃, l₁₃⟩ := appendBookSide_room true hbidsOk hbids l₁₂ (by omega)
  obtain ⟨o₁₄, h₁₄, l₁₄⟩ := appendBookSide_room false hasksOk hasks l₁₃ (by omega)
  obtain ⟨o₁₅, h₁₅, l₁₅⟩ := appendBookSide_room true hasksOk hasks l₁₄ (by omega)
  obtain ⟨o₁₆, h₁₆, l₁₆⟩ := appendByte_room lineFeed l₁₅ (by omega)
  refine ⟨o₁₆, ?_, by simp only [orderBookRecordCapacity]; omega⟩
  unfold formatOrderBookCsvRow
  rw [htime, hbook, if_neg hsequence, if_neg (Int.not_le.mpr hid.1)]
  simp only [Bool.not_true, Bool.false_eq_true, ↓reduceIte, appendComma, Option.bind_eq_bind,
    Option.bind_some, h₁, h₂, h₃, h₄, h₅, h₆, h₇, h₈, h₉, h₁₀, h₁₁, h₁₂, h₁₃, h₁₄, h₁₅, h₁₆]

/-! ## The fields -/

/-- A decimal integer, or one capital letter. -/
def IsOrderBookField (field : Bytes) : Prop :=
  (∃ value, field = intText value) ∨ ∃ letter : UInt8, field = [letter] ∧ 65 ≤ letter ∧ letter ≤ 90

theorem orderBookFields_shape (row : OrderBookCsvRow) :
    ∀ f ∈ orderBookFields row ++ levelFields row, IsOrderBookField f := by
  have side : ∀ view quantity, ∀ f ∈ sideFields view quantity, IsOrderBookField f := by
    intro view quantity f hf
    obtain ⟨index, -, rfl⟩ := List.mem_map.mp hf
    exact .inl ⟨_, rfl⟩
  intro f hf
  rcases List.mem_append.mp hf with hf | hf
  · simp only [orderBookFields, List.mem_cons, List.not_mem_nil, or_false] at hf
    rcases hf with rfl | rfl | rfl | rfl | rfl | rfl
    · exact .inl ⟨_, rfl⟩
    · exact .inl ⟨_, rfl⟩
    · exact .inl ⟨_, rfl⟩
    · exact .inl ⟨_, rfl⟩
    · refine .inr ⟨_, rfl, ?_⟩
      cases row.rowType <;> decide
    · refine .inr ⟨_, rfl, ?_⟩
      cases row.side <;> decide
  · simp only [levelFields, List.mem_append] at hf
    rcases hf with ((hf | hf) | hf) | hf <;> exact side _ _ f hf

/-- No field holds a separator. -/
theorem IsOrderBookField.plain {field : Bytes} (h : IsOrderBookField field) :
    comma ∉ field ∧ lineFeed ∉ field := by
  have outside : ∀ b ∈ field, b ≠ comma ∧ b ≠ lineFeed := by
    intro b hb
    rcases h with ⟨value, rfl⟩ | ⟨letter, rfl, hlow, hhigh⟩
    · rcases intText_bytes value b hb with hdigit | rfl
      · constructor <;> rintro rfl <;> exact absurd hdigit (by decide)
      · decide
    · obtain rfl := List.mem_singleton.mp hb
      constructor <;> rintro rfl
      · exact absurd hlow (by decide)
      · exact absurd hlow (by decide)
  exact ⟨fun h => (outside _ h).1 rfl, fun h => (outside _ h).2 rfl⟩

theorem levelFields_length (row : OrderBookCsvRow) :
    (orderBookFields row ++ levelFields row).length = 26 := by
  simp [orderBookFields, levelFields, sideFields, visibleBookDepth]

/-- Splitting a written row at the commas gives its fields. -/
theorem orderBookText_split (row : OrderBookCsvRow) :
    (orderBookText row).dropLast.splitOn comma = orderBookFields row ++ levelFields row := by
  rw [orderBookText, List.dropLast_concat]
  exact List.splitOn_intercalate comma
    (fun f hf => (orderBookFields_shape row f hf).plain.1) (by simp [orderBookFields])

theorem lineFeed_not_mem_orderBookText (row : OrderBookCsvRow) :
    lineFeed ∉ (orderBookText row).dropLast := by
  rw [orderBookText, List.dropLast_concat]
  intro hmem
  rcases mem_intercalate hmem with hb | ⟨f, hf, hb⟩
  · exact absurd hb (by decide)
  · exact (orderBookFields_shape row f hf).plain.2 hb

/-! ## A row determines its input -/

theorem sideFields_injective {view view' : List BookLevel} {quantity : Bool}
    (h : sideFields view quantity = sideFields view' quantity) {index : Nat}
    (hindex : index < visibleBookDepth) :
    levelValue view quantity index = levelValue view' quantity index := by
  have hget := congrArg (fun fields : List Bytes => fields[index]?) h
  simp only [sideFields, List.getElem?_map, List.getElem?_range hindex, Option.map_some,
    Option.some.injEq] at hget
  exact intText_injective hget

/-- The columns of a side determine its levels, and how many there are: a shown price is
not zero. -/
theorem side_determined {view view' : List BookLevel}
    (hside : view.length ≤ visibleBookDepth ∧ ∀ l ∈ view, 0 < l.price ∧ 0 < l.quantity)
    (hside' : view'.length ≤ visibleBookDepth ∧ ∀ l ∈ view', 0 < l.price ∧ 0 < l.quantity)
    (hprices : sideFields view false = sideFields view' false)
    (hquantities : sideFields view true = sideFields view' true) : view = view' := by
  apply List.ext_getElem?
  intro index
  by_cases hindex : index < visibleBookDepth
  · have hprice := sideFields_injective hprices hindex
    have hquantity := sideFields_injective hquantities hindex
    unfold levelValue at hprice hquantity
    cases hl : view[index]? with
    | none =>
        cases hl' : view'[index]? with
        | none => rfl
        | some level =>
            have hpositive := (hside'.2 level (List.mem_of_getElem? hl')).1
            simp only [hl, hl', Bool.false_eq_true, ↓reduceIte] at hprice
            omega
    | some level =>
        cases hl' : view'[index]? with
        | none =>
            have hpositive := (hside.2 level (List.mem_of_getElem? hl)).1
            simp only [hl, hl', Bool.false_eq_true, ↓reduceIte] at hprice
            omega
        | some level' =>
            simp only [hl, hl', Bool.false_eq_true, ↓reduceIte] at hprice hquantity
            cases level
            cases level'
            simp only at hprice hquantity
            rw [hprice, hquantity]
  · rw [List.getElem?_eq_none (by have := hside.1; omega),
      List.getElem?_eq_none (by have := hside'.1; omega)]

theorem levelFields_determined {row row' : OrderBookCsvRow}
    (hbook : validBook row.bids row.asks = true) (hbook' : validBook row'.bids row'.asks = true)
    (h : levelFields row = levelFields row') : row.bids = row'.bids ∧ row.asks = row'.asks := by
  have hlength : ∀ view quantity, (sideFields view quantity).length = visibleBookDepth := by
    intro view quantity
    simp [sideFields]
  obtain ⟨hfirst, hfourth⟩ := List.append_inj h (by simp [hlength])
  obtain ⟨hfirst, hthird⟩ := List.append_inj hfirst (by simp [hlength])
  obtain ⟨hfirst, hsecond⟩ := List.append_inj hfirst (by simp [hlength])
  obtain ⟨hb, ha⟩ := validBook_sides hbook
  obtain ⟨hb', ha'⟩ := validBook_sides hbook'
  exact ⟨side_determined (validSide_positive hb) (validSide_positive hb') hfirst hsecond,
    side_determined (validSide_positive ha) (validSide_positive ha') hthird hfourth⟩

theorem orderBookFields_determined {row row' : OrderBookCsvRow}
    (h : orderBookFields row = orderBookFields row') :
    row.timestamp = row'.timestamp ∧ row.sequenceNumber = row'.sequenceNumber ∧
      row.instrumentId = row'.instrumentId ∧ row.rowType = row'.rowType ∧ row.side = row'.side := by
  simp only [orderBookFields, List.cons.injEq, and_true] at h
  obtain ⟨hseconds, hnanos, hnumber, hid, htype, hside⟩ := h
  refine ⟨?_, ?_, intText_injective hid, ?_, ?_⟩
  · have h₁ := Int64.toInt_inj.mp (intText_injective hseconds)
    have h₂ := Int32.toInt_inj.mp (intText_injective hnanos)
    cases hr : row.timestamp
    cases hr' : row'.timestamp
    rw [hr, hr'] at h₁ h₂
    simp only at h₁ h₂
    rw [h₁, h₂]
  · have hvalue := intText_injective hnumber
    exact UInt64.toNat_inj.mp (by omega)
  · revert htype
    cases row.rowType <;> cases row'.rowType <;> decide
  · revert hside
    cases row.side <;> cases row'.side <;> decide

/-- Two rows with the same bytes are the same row. -/
theorem formatOrderBookCsvRow_injective {row row' : OrderBookCsvRow} {text : Bytes}
    (h : formatOrderBookCsvRow row = .ok text) (h' : formatOrderBookCsvRow row' = .ok text) :
    row' = row := by
  obtain ⟨hbook, htext⟩ := formatOrderBookCsvRow_eq_ok h
  obtain ⟨hbook', htext'⟩ := formatOrderBookCsvRow_eq_ok h'
  have hfields : orderBookFields row' ++ levelFields row' = orderBookFields row ++ levelFields row := by
    rw [← orderBookText_split, ← orderBookText_split, ← htext, ← htext']
  obtain ⟨hhead, hlevels⟩ := List.append_inj hfields (by simp [orderBookFields])
  obtain ⟨htime, hnumber, hid, htype, hside⟩ := orderBookFields_determined hhead
  obtain ⟨hbids, hasks⟩ := levelFields_determined hbook' hbook hlevels
  cases row
  cases row'
  simp only at htime hnumber hid htype hside hbids hasks
  rw [htime, hnumber, hid, htype, hside, hbids, hasks]

/-- A valid row is written: 26 fields and the only line feed, within the reserved bytes,
and no other row has the same bytes. -/
theorem orderBookRow_encoding {row : OrderBookCsvRow}
    (htime : validTimestamp row.timestamp = true) (hsequence : row.sequenceNumber ≠ 0)
    (hid : 0 < row.instrumentId ∧ row.instrumentId < 2 ^ 31)
    (hbook : validBook row.bids row.asks = true) (hbids : ∀ l ∈ row.bids, l.Within)
    (hasks : ∀ l ∈ row.asks, l.Within) :
    ∃ text fields, formatOrderBookCsvRow row = .ok text ∧
      text = [comma].intercalate fields ++ [lineFeed] ∧
      text.dropLast.splitOn comma = fields ∧ fields.length = 26 ∧
      (∀ f ∈ fields, IsOrderBookField f) ∧ lineFeed ∉ text.dropLast ∧
      text.length ≤ orderBookRecordCapacity ∧
      ∀ row', formatOrderBookCsvRow row' = .ok text → row' = row := by
  obtain ⟨text, hformat, hlength⟩ := formatOrderBookCsvRow_ok row htime hsequence hid hbook hbids hasks
  obtain ⟨-, rfl⟩ := formatOrderBookCsvRow_eq_ok hformat
  exact ⟨_, orderBookFields row ++ levelFields row, hformat, rfl, orderBookText_split row,
    levelFields_length row, orderBookFields_shape row, lineFeed_not_mem_orderBookText row, hlength,
    fun row' h' => formatOrderBookCsvRow_injective hformat h'⟩

/-- A row with two bids and one ask, at the ends of the integer types. -/
private def sampleBookRow : OrderBookCsvRow :=
  { timestamp := ⟨Int64.minValue, 999999999⟩, sequenceNumber := 18446744073709551615,
    instrumentId := 2147483647, rowType := .partialRefresh, side := .neutral,
    bids := [⟨9223372036854775805, 1⟩, ⟨7, 9223372036854775807⟩], asks := [⟨9223372036854775807, 3⟩] }

theorem orderBookRow_encoding_sample :
    ∃ text, formatOrderBookCsvRow sampleBookRow = .ok text ∧ text.length ≤ 1024 ∧
      ∀ row', formatOrderBookCsvRow row' = .ok text → row' = sampleBookRow := by
  obtain ⟨text, fields, hformat, -, -, -, -, -, hlength, hunique⟩ :=
    orderBookRow_encoding (show validTimestamp sampleBookRow.timestamp = true by decide)
      (by decide) (by decide) (by decide) (by decide) (by decide)
  exact ⟨text, hformat, hlength, hunique⟩

end MarketCapture
