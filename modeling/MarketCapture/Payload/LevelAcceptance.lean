import MarketCapture.Payload.Document
import MarketCapture.Payload.ParserFacts

/-! # Which level arrays are accepted

A level is a pair of strings that are decimals within the limits. The loop over an
array ends without an error exactly when every element is a level, no two have the
same price, a refresh is in order, and the limits on counts are kept; it then has
appended exactly these levels.
-/

namespace MarketCapture

open Simdjson JsonText JsonValidation

/-! ## Scalars -/

/-- The value of a plain integer token within 64 bits. -/
def idOf : Node → Option UInt64
  | .number token _ => (uint64Answer token).toOption
  | _ => none

theorem readJsonString_valueOf (node : Node) (field : SpotField) (text : Bytes) :
    readJsonString (valueOf node) field = .ok text ↔ stringContent node = some text := by
  cases node with
  | string raw after =>
      simp only [readJsonString, valueOf, Value.type, Value.getString, Value.answers, stringAnswer,
        stringContent]
      cases decodeString raw <;> simp
  | _ => simp [readJsonString, valueOf, Value.type, Value.answers, stringContent]

theorem readJsonUint64_valueOf (node : Node) (field : SpotField) (n : UInt64) :
    readJsonUint64 (valueOf node) field = .ok n ↔ idOf node = some n := by
  cases node with
  | number token after =>
      simp only [readJsonUint64, valueOf, Value.type, Value.getUint64, Value.answers, idOf]
      cases uint64Answer token <;> simp [Except.toOption]
  | _ => simp [readJsonUint64, valueOf, Value.type, Value.answers, idOf]

/-! ## One level -/

/-- The two texts of a level. -/
def levelTexts : Node → Option (Bytes × Bytes)
  | .array _ items _ =>
      match items.toList with
      | [price, quantity] => do return (← stringContent price, ← stringContent quantity)
      | _ => none
  | _ => none

/-- A level within the limits on prices and quantities. -/
def readLevel (side : BookSide) (isPartial : Bool) (node : Node) : Option LevelUpdate := do
  let (priceText, quantityText) ← levelTexts node
  let price ← (parseDecimal1e8 priceText).toOption
  let quantity ← (parseDecimal1e8 quantityText).toOption
  if 0 < price ∧ (isPartial = true → 0 < quantity) then some ⟨price, quantity, side⟩ else none

theorem readLevel_eq_some {side : BookSide} {isPartial : Bool} {node : Node} {u : LevelUpdate} :
    readLevel side isPartial node = some u ↔
      ∃ priceText quantityText, levelTexts node = some (priceText, quantityText) ∧
        parseDecimal1e8 priceText = .ok u.price ∧ parseDecimal1e8 quantityText = .ok u.quantity ∧
        0 < u.price ∧ (isPartial = true → 0 < u.quantity) ∧ u.side = side := by
  constructor
  · intro h
    simp only [readLevel, Option.bind_eq_bind, Option.bind_eq_some_iff, Prod.exists] at h
    obtain ⟨priceText, quantityText, htexts, price, hprice, quantity, hquantity, hlimits⟩ := h
    split at hlimits
    · rename_i hbounds
      obtain rfl := Option.some.inj hlimits
      refine ⟨priceText, quantityText, htexts, ?_, ?_, hbounds.1, hbounds.2, rfl⟩
      · cases hp : parseDecimal1e8 priceText <;> simp_all [Except.toOption]
      · cases hq : parseDecimal1e8 quantityText <;> simp_all [Except.toOption]
    · cases hlimits
  · rintro ⟨priceText, quantityText, htexts, hprice, hquantity, hpositive, hnonzero, rfl⟩
    simpa [readLevel, htexts, hprice, hquantity, Except.toOption, hpositive] using hnonzero

/-! ## The components of a level -/

theorem parseComponents_count (items : Items) {c c' : Components}
    (h : parseComponents (elementsOf items) c = .ok c') :
    c'.count = c.count + items.toList.length := by
  match items with
  | .nil =>
      obtain rfl := Except.ok.inj h
      rfl
  | .cons value commaAfter rest =>
      simp only [elementsOf, parseComponents] at h
      have hnext : ∀ {c₁ : Components}, parseComponents (elementsOf rest) c₁ = .ok c' →
          c₁.count = c.count + 1 → c'.count = c.count + (Items.cons value commaAfter rest).toList.length := by
        intro c₁ hrest hcount
        have := parseComponents_count rest hrest
        simp only [Items.toList, List.length_cons]
        omega
      split at h
      · split at h
        · cases h
        · exact hnext h rfl
      · split at h
        · cases h
        · split at h
          · cases h
          · refine hnext h ?_
            split <;> rfl
        · split at h
          · cases h
          · exact hnext h rfl

theorem recordFirst_failed (first : ParseFailure) {error : SpotParseError} (field : SpotField)
    (decimalError : DecimalParseError) (h : error ≠ .none) :
    (recordFirst first error field decimalError).failed = true := by
  unfold recordFirst
  split
  · assumption
  · simpa [ParseFailure.failed] using h

/-- The components read so far are refused, and an error says so. -/
def Components.Refused (c : Components) : Prop := c.valid = false ∧ c.firstError.failed = true

theorem parseComponents_refused (items : Items) {c c' : Components} (hc : c.Refused)
    (h : parseComponents (elementsOf items) c = .ok c') : c'.Refused := by
  match items with
  | .nil =>
      obtain rfl := Except.ok.inj h
      exact hc
  | .cons value commaAfter rest =>
      simp only [elementsOf, parseComponents] at h
      split at h
      · split at h
        · cases h
        · exact parseComponents_refused rest ⟨rfl, recordFirst_failed _ _ _ (by decide)⟩ h
      · split at h
        · cases h
        · split at h
          · cases h
          · refine parseComponents_refused rest ?_ h
            split <;> exact hc
        · split at h
          · cases h
          · exact parseComponents_refused rest ⟨rfl, recordFirst_failed _ _ _ (by decide)⟩ h

/-- A first or second component that is not a string. -/
theorem parseComponents_notString {value : Node} (hvalue : stringContent value = none)
    (commaAfter : Bytes) (rest : Items) {c c' : Components} (hcount : c.count < 2)
    (h : parseComponents (elementsOf (.cons value commaAfter rest)) c = .ok c') : c'.Refused := by
  simp only [elementsOf, parseComponents, if_neg (Nat.not_le.mpr hcount)] at h
  cases value with
  | string raw after =>
      simp only [stringContent] at hvalue
      simp [valueOf, Value.type, Value.getString, Value.answers, stringAnswer, hvalue] at h
  | _ =>
      simp only [valueOf, Value.type, Value.answers] at h
      split at h
      · cases h
      · exact parseComponents_refused rest ⟨rfl, recordFirst_failed _ _ _ (by decide)⟩ h

theorem parseComponents_string {value : Node} {text : Bytes} (hvalue : stringContent value = some text)
    (commaAfter : Bytes) (rest : Items) {c : Components} (hcount : c.count < 2) :
    parseComponents (elementsOf (.cons value commaAfter rest)) c =
      parseComponents (elementsOf rest)
        (if c.count = 0 then { c with priceText := text, count := c.count + 1 }
          else { c with quantityText := text, count := c.count + 1 }) := by
  cases value with
  | string raw after =>
      simp only [stringContent] at hvalue
      simp [elementsOf, parseComponents, Nat.not_le.mpr hcount, valueOf, Value.type,
        Value.getString, Value.answers, stringAnswer, hvalue]
  | _ => cases hvalue

theorem parseComponents_texts {opened closed : Bytes} {items : Items} {priceText quantityText : Bytes}
    (h : levelTexts (.array opened items closed) = some (priceText, quantityText))
    (first : ParseFailure) :
    parseComponents (elementsOf items) { firstError := first } =
      .ok { priceText := priceText, quantityText := quantityText, count := 2, firstError := first } := by
  match items with
  | .nil => cases h
  | .cons price _ .nil => cases h
  | .cons price _ (.cons quantity _ (.cons _ _ _)) => cases h
  | .cons price _ (.cons quantity _ .nil) =>
      simp only [levelTexts, Items.toList, Option.bind_eq_bind, Option.bind_eq_some_iff,
        Option.pure_def, Option.some.injEq, Prod.mk.injEq] at h
      obtain ⟨p, hp, q, hq, rfl, rfl⟩ := h
      rw [parseComponents_string hp _ _ (by simp), parseComponents_string hq _ _ (by simp)]
      rfl

theorem parseComponents_noTexts {opened closed : Bytes} {items : Items}
    (h : levelTexts (.array opened items closed) = none) {first : ParseFailure} {c : Components}
    (hok : parseComponents (elementsOf items) { firstError := first } = .ok c) :
    c.count ≠ 2 ∨ c.Refused := by
  by_cases hlen : items.toList.length = 2
  · right
    match items, hlen with
    | .cons price _ (.cons quantity _ .nil), _ =>
        cases hp : stringContent price with
        | none => exact parseComponents_notString hp _ _ (by simp) hok
        | some p =>
            rw [parseComponents_string hp _ _ (by simp)] at hok
            have hq : stringContent quantity = none := by
              cases hq : stringContent quantity with
              | none => rfl
              | some q => simp [levelTexts, Items.toList, hp, hq] at h
            exact parseComponents_notString hq _ _ (by simp) hok
  · left
    have hcount := parseComponents_count items hok
    simp only [Nat.zero_add] at hcount
    rwa [hcount]

/-! ## One round of the loop -/

/-- A round that ends in an error, of this level or an earlier one. -/
def Refuses : LevelsState × Option ParseFailure → Prop
  | (s, none) => s.firstError.failed = true
  | (_, some failure) => failure.failed = true

/-- The level may be taken after levels with these keys. -/
structure Takes (side : BookSide) (isPartial : Bool) (keys : List (Int × BookSide))
    (s : LevelsState) (node : Node) (u : LevelUpdate) : Prop where
  room : overCapacity isPartial s = false
  level : readLevel side isPartial node = some u
  fresh : u.key ∉ keys
  ordered : isPartial = true → ∀ p ∈ s.previousPrice, correctlyOrdered side p u.price = true

theorem record_refuses (s : LevelsState) {error : SpotParseError} (field : SpotField)
    (decimalError : DecimalParseError) (h : error ≠ .none) :
    Refuses (s.record error field decimalError, none) :=
  recordFirst_failed _ _ _ h

theorem failJson_failed (e : ErrorCode) : (failJson e).failed = true :=
  decide_eq_true (classifyJsonError_ne_none e)

theorem skipLevel_refuses (value : Value) {s : LevelsState} (h : s.firstError.failed = true) :
    Refuses (skipLevel value s) := by
  unfold skipLevel
  split
  · exact failJson_failed _
  · exact h

theorem acceptLevel_failed (side : BookSide) (isPartial : Bool) (c : Components) {s : LevelsState}
    (h : s.firstError.failed = true) : Refuses (acceptLevel side isPartial c s) := by
  unfold acceptLevel
  split
  · exact record_refuses _ _ _ (by decide)
  · split
    · exact record_refuses _ _ _ (by decide)
    · split
      · exact record_refuses _ _ _ (by decide)
      · split
        · exact record_refuses _ _ _ (by decide)
        · simp only
          split
          · exact record_refuses _ _ _ (by decide)
          · rfl
          · split
            · exact record_refuses _ _ _ (by decide)
            · exact h

/-- The components keep an error that was recorded before them. -/
theorem parseComponents_failed (items : Items) {c c' : Components} (hc : c.firstError.failed = true)
    (h : parseComponents (elementsOf items) c = .ok c') : c'.firstError.failed = true := by
  match items with
  | .nil =>
      obtain rfl := Except.ok.inj h
      exact hc
  | .cons value commaAfter rest =>
      simp only [elementsOf, parseComponents] at h
      split at h
      · split at h
        · cases h
        · exact parseComponents_failed rest (recordFirst_failed _ _ _ (by decide)) h
      · split at h
        · cases h
        · split at h
          · cases h
          · refine parseComponents_failed rest ?_ h
            split <;> exact hc
        · split at h
          · cases h
          · exact parseComponents_failed rest (recordFirst_failed _ _ _ (by decide)) h

theorem parseLevel_failed (side : BookSide) (isPartial : Bool) (node : Node) {s : LevelsState}
    (h : s.firstError.failed = true) : Refuses (parseLevel side isPartial (valueOf node) s) := by
  unfold parseLevel
  simp only
  split
  · exact skipLevel_refuses _ (recordFirst_failed _ _ _ (by decide))
  · cases node with
    | array opened items closed =>
        simp only [valueOf, Value.type, Value.answers, Value.elements]
        split
        · exact failJson_failed _
        · rename_i c hc
          have hfirst : c.firstError.failed = true := parseComponents_failed items h hc
          split
          · exact record_refuses _ _ _ (by decide)
          · split
            · exact hfirst
            · exact acceptLevel_failed _ _ _ hfirst
    | _ =>
        simp only [valueOf, Value.type, Value.answers]
        exact skipLevel_refuses _ (recordFirst_failed _ _ _ (by decide))

/-- The state after a level is taken. -/
def LevelsState.taken (s : LevelsState) (table : DuplicateTable) (u : LevelUpdate) : LevelsState :=
  { s.countLevel with
    scratch := { table := table, updates := s.scratch.updates ++ [u],
                 encounteredLevels := s.scratch.encounteredLevels + 1 }
    previousPrice := some u.price }

section Rounds

variable {side : BookSide} {isPartial : Bool} {keys : List (Int × BookSide)} {s : LevelsState}
  {node : Node}

theorem acceptLevel_takes {c : Components} {u : LevelUpdate}
    (hprice : parseDecimal1e8 c.priceText = .ok u.price)
    (hquantity : parseDecimal1e8 c.quantityText = .ok u.quantity) (hpositive : 0 < u.price)
    (hnonzero : isPartial = true → 0 < u.quantity) (hside : u.side = side)
    (hinsert : (s.scratch.table.insertUnique u.price side).1 = .inserted)
    (hordered : isPartial = true → ∀ p ∈ s.previousPrice, correctlyOrdered side p u.price = true) :
    acceptLevel side isPartial c s =
      ({ s with
          scratch := { s.scratch with
            table := (s.scratch.table.insertUnique u.price side).2
            updates := s.scratch.updates ++ [u] }
          previousPrice := some u.price }, none) := by
  have hlimit : (isPartial && decide (u.quantity ≤ 0)) = false := by
    cases isPartial with
    | false => rfl
    | true => simpa using hnonzero rfl
  have horder : (isPartial && s.previousPrice.any fun p => !correctlyOrdered side p u.price) = false := by
    cases isPartial with
    | false => rfl
    | true =>
        cases hprev : s.previousPrice with
        | none => rfl
        | some p => simpa using hordered rfl p hprev
  subst hside
  simp only [acceptLevel, hprice, hquantity, hlimit, hinsert, horder, Bool.false_eq_true, ↓reduceIte]
  rw [if_neg (by omega)]

theorem parseLevel_takes {u : LevelUpdate} (ht : s.scratch.table.Tracks keys)
    (hroom : keys.length < duplicateTableSize) (h : Takes side isPartial keys s node u) :
    ∃ table, table.Tracks (u.key :: keys) ∧
      parseLevel side isPartial (valueOf node) s = (s.taken table u, none) := by
  obtain ⟨priceText, quantityText, htexts, hprice, hquantity, hpositive, hnonzero, hside⟩ :=
    readLevel_eq_some.mp h.level
  have hinsert := DuplicateTable.insertUnique_spec ht u.price side hroom
  rw [if_neg (by rw [← hside]; exact h.fresh)] at hinsert
  obtain ⟨hinserted, htracks⟩ := hinsert
  refine ⟨(s.scratch.table.insertUnique u.price side).2, ?_, ?_⟩
  · rw [LevelUpdate.key, hside]
    exact htracks
  · cases node with
    | array opened items closed =>
        have hcomponents := parseComponents_texts htexts s.firstError
        simp only [parseLevel, h.room, Bool.false_eq_true, ↓reduceIte, valueOf, Value.type,
          Value.answers, Value.elements, LevelsState.countLevel, hcomponents, ne_eq,
          not_true_eq_false, Bool.not_true]
        exact acceptLevel_takes hprice hquantity hpositive hnonzero hside hinserted h.ordered
    | _ => cases htexts

/-- A level whose texts are known but that may not be taken. -/
theorem acceptLevel_refuses {c : Components} (ht : s.scratch.table.Tracks keys)
    (hroom : keys.length < duplicateTableSize)
    (h : ∀ u : LevelUpdate, parseDecimal1e8 c.priceText = .ok u.price →
      parseDecimal1e8 c.quantityText = .ok u.quantity → 0 < u.price →
      (isPartial = true → 0 < u.quantity) → u.side = side → u.key ∉ keys →
      ¬(isPartial = true → ∀ p ∈ s.previousPrice, correctlyOrdered side p u.price = true)) :
    Refuses (acceptLevel side isPartial c s) := by
  unfold acceptLevel
  split
  · exact record_refuses _ _ _ (by decide)
  · rename_i price hprice
    split
    · exact record_refuses _ _ _ (by decide)
    · rename_i hpositive
      split
      · exact record_refuses _ _ _ (by decide)
      · rename_i quantity hquantity
        split
        · exact record_refuses _ _ _ (by decide)
        · rename_i hlimit
          simp only
          split
          · exact record_refuses _ _ _ (by decide)
          · rfl
          · rename_i hinserted
            split
            · exact record_refuses _ _ _ (by decide)
            · -- every condition holds, so the level could have been taken
              rename_i horder
              have hspec := DuplicateTable.insertUnique_spec ht price side hroom
              have hfresh : (price, side) ∉ keys := by
                intro hmem
                rw [if_pos hmem] at hspec
                rw [hspec] at hinserted
                cases hinserted
              exfalso
              refine h ⟨price, quantity, side⟩ hprice hquantity (Int.not_le.mp hpositive) ?_ rfl hfresh ?_
              · intro hpart
                simpa [hpart] using hlimit
              · intro hpart p hp
                rw [Option.mem_def] at hp
                simpa [hpart, hp] using horder

theorem parseLevel_refuses (ht : s.scratch.table.Tracks keys)
    (hroom : keys.length < duplicateTableSize) (h : ¬∃ u, Takes side isPartial keys s node u) :
    Refuses (parseLevel side isPartial (valueOf node) s) := by
  unfold parseLevel
  simp only
  split
  · exact skipLevel_refuses _ (recordFirst_failed _ _ _ (by decide))
  · rename_i hfull
    rw [Bool.not_eq_true] at hfull
    cases node with
    | array opened items closed =>
        simp only [valueOf, Value.type, Value.answers, Value.elements]
        split
        · exact failJson_failed _
        · rename_i c hc
          split
          · exact record_refuses _ _ _ (by decide)
          · rename_i hcount
            rw [not_not] at hcount
            cases htexts : levelTexts (.array opened items closed) with
            | none =>
                rcases parseComponents_noTexts htexts hc with hne | hrefused
                · exact absurd hcount hne
                · split
                  · exact hrefused.2
                  · exact acceptLevel_failed _ _ _ hrefused.2
            | some texts =>
                obtain ⟨priceText, quantityText⟩ := texts
                rw [parseComponents_texts htexts] at hc
                obtain rfl := Except.ok.inj hc
                refine acceptLevel_refuses ht hroom ?_
                intro u hprice hquantity hpositive hnonzero hside hfresh hordered
                refine h ⟨u, hfull, readLevel_eq_some.mpr ⟨priceText, quantityText, htexts, hprice,
                  hquantity, hpositive, hnonzero, hside⟩, hfresh, hordered⟩
    | _ =>
        simp only [valueOf, Value.type, Value.answers]
        exact skipLevel_refuses _ (recordFirst_failed _ _ _ (by decide))

end Rounds

/-! ## The loop -/

/-- Levels of one side that the limits allow after `before` levels of the message. -/
structure Fits (side : BookSide) (isPartial : Bool) (before : Nat) (us : List LevelUpdate) : Prop where
  distinct : (us.map LevelUpdate.price).Nodup
  refresh : isPartial = true → us.length ≤ maxPartialDepthLevelsPerSide ∧
    us.IsChain (fun a b => correctlyOrdered side a.price b.price = true)
  capacity : before + us.length ≤ maxDepthUpdates

/-- The loop after taking `out`, without an error so far. -/
structure Collected (side : BookSide) (base : List LevelUpdate) (before : Nat)
    (keys : List (Int × BookSide)) (out : List LevelUpdate) (s : LevelsState) : Prop where
  clean : s.firstError.failed = false
  updates : s.scratch.updates = base ++ out
  encountered : s.scratch.encounteredLevels = before + out.length
  count : s.sideLevelCount = out.length
  previous : s.previousPrice = out.getLast?.map LevelUpdate.price
  tracks : s.scratch.table.Tracks (out.reverse.map LevelUpdate.key ++ keys)

section Loop

variable {side : BookSide} {isPartial : Bool} {base : List LevelUpdate} {before : Nat}
  {keys : List (Int × BookSide)} {out : List LevelUpdate} {s : LevelsState}

theorem parseLevelsLoop_failed (side : BookSide) (isPartial : Bool) (items : Items)
    {s : LevelsState} (h : s.firstError.failed = true) :
    Refuses (parseLevelsLoop side isPartial (elementsOf items) s) := by
  cases items with
  | nil => exact h
  | cons node commaAfter rest =>
      have hround := parseLevel_failed side isPartial node h
      simp only [elementsOf, parseLevelsLoop]
      split
      · rename_i failure hr
        rw [hr] at hround
        exact hround
      · rename_i hr
        rw [hr] at hround
        exact parseLevelsLoop_failed side isPartial rest hround

/-- A level that continues a list within the limits may be taken. -/
theorem takes_of_fits (hs : Collected side base before keys out s)
    (hkeys : ∀ k ∈ keys, k.2 ≠ side) {node : Node} {u : LevelUpdate} {us : List LevelUpdate}
    (hlevel : readLevel side isPartial node = some u)
    (hfits : Fits side isPartial before (out ++ u :: us)) :
    Takes side isPartial (out.reverse.map LevelUpdate.key ++ keys) s node u := by
  obtain ⟨_, _, _, _, _, _, _, hside⟩ := readLevel_eq_some.mp hlevel
  have hlength : (out ++ u :: us).length = out.length + (us.length + 1) := by simp
  refine ⟨?_, hlevel, ?_, ?_⟩
  · have hcapacity := hfits.capacity
    rw [hlength] at hcapacity
    simp only [overCapacity, hs.encountered, hs.count, Bool.or_eq_false_iff, decide_eq_false_iff_not,
      Bool.and_eq_false_iff]
    refine ⟨by omega, ?_⟩
    cases hpart : isPartial with
    | false => exact .inl rfl
    | true =>
        have hrefresh := (hfits.refresh hpart).1
        rw [hlength] at hrefresh
        exact .inr (by omega)
  · intro hmem
    rcases List.mem_append.mp hmem with hmem | hmem
    · obtain ⟨v, hv, hkey⟩ := List.mem_map.mp hmem
      have hprice : v.price = u.price := congrArg Prod.fst hkey
      have hdistinct := hfits.distinct
      rw [List.map_append, List.nodup_append] at hdistinct
      exact hdistinct.2.2 v.price (List.mem_map_of_mem (List.mem_reverse.mp hv)) u.price
        (by simp) hprice
    · exact hkeys _ hmem hside
  · intro hpart p hp
    rw [hs.previous, Option.mem_def, Option.map_eq_some_iff] at hp
    obtain ⟨v, hv, rfl⟩ := hp
    have hchain := (hfits.refresh hpart).2
    rw [List.isChain_append] at hchain
    exact hchain.2.2 v hv u rfl

theorem collected_taken (hs : Collected side base before keys out s) {u : LevelUpdate}
    {table : DuplicateTable}
    (htable : table.Tracks (u.key :: (out.reverse.map LevelUpdate.key ++ keys))) :
    Collected side base before keys (out ++ [u]) (s.taken table u) where
  clean := hs.clean
  updates := by simp [LevelsState.taken, hs.updates]
  encountered := by
    simp only [LevelsState.taken, hs.encountered, List.length_append, List.length_singleton]
    omega
  count := by simp [LevelsState.taken, LevelsState.countLevel, hs.count]
  previous := by simp [LevelsState.taken]
  tracks := by simpa [LevelsState.taken] using htable

/-- A level that was taken keeps the limits. -/
theorem fits_taken (hs : Collected side base before keys out s)
    (hfits : Fits side isPartial before out) (hside : ∀ u ∈ out, u.side = side) {node : Node}
    {u : LevelUpdate} (h : Takes side isPartial (out.reverse.map LevelUpdate.key ++ keys) s node u) :
    Fits side isPartial before (out ++ [u]) := by
  obtain ⟨_, _, _, _, _, _, _, huside⟩ := readLevel_eq_some.mp h.level
  have hroom := h.room
  simp only [overCapacity, hs.encountered, hs.count, Bool.or_eq_false_iff, decide_eq_false_iff_not,
    Bool.and_eq_false_iff] at hroom
  refine ⟨?_, ?_, ?_⟩
  · rw [List.map_append, List.nodup_append]
    refine ⟨hfits.distinct, by simp, ?_⟩
    intro a ha b hb hab
    obtain ⟨v, hv, rfl⟩ := List.mem_map.mp ha
    simp only [List.map_cons, List.map_nil, List.mem_singleton] at hb
    refine h.fresh (List.mem_append_left _ (List.mem_map.mpr ⟨v, List.mem_reverse.mpr hv, ?_⟩))
    rw [LevelUpdate.key, LevelUpdate.key, hab, hb, hside v hv, huside]
  · intro hpart
    refine ⟨?_, ?_⟩
    · rcases hroom.2 with hfalse | hlt
      · rw [hpart] at hfalse
        cases hfalse
      · simp only [List.length_append, List.length_singleton]
        omega
    · rw [List.isChain_append]
      refine ⟨(hfits.refresh hpart).2, by simp, ?_⟩
      intro v hv w hw
      simp only [List.head?_cons, Option.mem_def, Option.some.injEq] at hw
      subst hw
      exact h.ordered hpart v.price (by rw [hs.previous, Option.mem_def, hv]; rfl)
  · simp only [List.length_append, List.length_singleton]
    omega

/-- The loop ends without an error exactly on levels within the limits, and then has
taken them. -/
theorem parseLevelsLoop_outcome (items : Items) {out : List LevelUpdate} {s : LevelsState}
    (hs : Collected side base before keys out s)
    (hfits : Fits side isPartial before out) (hside : ∀ u ∈ out, u.side = side)
    (hkeys : ∀ k ∈ keys, k.2 ≠ side) (hbound : keys.length ≤ before) :
    (∃ us s', items.toList.mapM (readLevel side isPartial) = some us ∧
      Fits side isPartial before (out ++ us) ∧
      parseLevelsLoop side isPartial (elementsOf items) s = (s', none) ∧
      Collected side base before keys (out ++ us) s') ∨
    ((∀ us, items.toList.mapM (readLevel side isPartial) = some us →
      ¬Fits side isPartial before (out ++ us)) ∧
      Refuses (parseLevelsLoop side isPartial (elementsOf items) s)) := by
  cases items with
  | nil => exact .inl ⟨[], s, rfl, by simpa using hfits, rfl, by simpa using hs⟩
  | cons node commaAfter rest =>
      have hroom : (out.reverse.map LevelUpdate.key ++ keys).length < duplicateTableSize := by
        have hcapacity := hfits.capacity
        simp only [List.length_append, List.length_map, List.length_reverse]
        rw [maxDepthUpdates] at hcapacity
        rw [duplicateTableSize]
        omega
      by_cases htakes : ∃ u, Takes side isPartial (out.reverse.map LevelUpdate.key ++ keys) s node u
      · obtain ⟨u, htakes⟩ := htakes
        obtain ⟨table, htable, hround⟩ := parseLevel_takes hs.tracks hroom htakes
        have huside : ∀ v ∈ out ++ [u], v.side = side := by
          obtain ⟨_, _, _, _, _, _, _, huside⟩ := readLevel_eq_some.mp htakes.level
          intro v hv
          rcases List.mem_append.mp hv with hv | hv
          · exact hside v hv
          · rw [List.mem_singleton.mp hv]
            exact huside
        have hloop : parseLevelsLoop side isPartial (elementsOf (.cons node commaAfter rest)) s =
            parseLevelsLoop side isPartial (elementsOf rest) (s.taken table u) := by
          simp only [elementsOf, parseLevelsLoop, hround]
        rw [hloop]
        rcases parseLevelsLoop_outcome rest (collected_taken hs htable)
          (fits_taken hs hfits hside htakes) huside hkeys hbound with
          ⟨us, s', hus, hfits', hrest, hs'⟩ | ⟨hnone, hrefuses⟩
        · refine .inl ⟨u :: us, s', ?_, by simpa using hfits', hrest, by simpa using hs'⟩
          simp [Items.toList, htakes.level, hus]
        · refine .inr ⟨?_, hrefuses⟩
          intro us hus
          simp only [Items.toList, List.mapM_cons, htakes.level, Option.bind_eq_bind,
            Option.bind_some, Option.bind_eq_some_iff, Option.pure_def, Option.some.injEq] at hus
          obtain ⟨rest', hrest', rfl⟩ := hus
          simpa using hnone rest' hrest'
      · refine .inr ⟨?_, ?_⟩
        · intro us hus hfits'
          simp only [Items.toList, List.mapM_cons, Option.bind_eq_bind, Option.bind_eq_some_iff,
            Option.pure_def, Option.some.injEq] at hus
          obtain ⟨u, hu, rest', -, rfl⟩ := hus
          exact htakes ⟨u, takes_of_fits hs hkeys hu hfits'⟩
        · have hround := parseLevel_refuses hs.tracks hroom htakes
          simp only [elementsOf, parseLevelsLoop]
          split
          · rename_i failure hr
            rw [hr] at hround
            exact hround
          · rename_i hr
            rw [hr] at hround
            exact parseLevelsLoop_failed side isPartial rest hround

end Loop

/-! ## Level arrays -/

/-- The value is an array of levels of a side, with distinct prices and, in a refresh,
at most five of them, best first. -/
def LevelsOf (side : BookSide) (isPartial : Bool) (node : Node) (us : List LevelUpdate) : Prop :=
  ∃ opened items closed, node = .array opened items closed ∧
    items.toList.mapM (readLevel side isPartial) = some us ∧
    (us.map LevelUpdate.price).Nodup ∧
    (isPartial = true → us.length ≤ maxPartialDepthLevelsPerSide ∧
      us.IsChain (fun a b => correctlyOrdered side a.price b.price = true))

theorem LevelsOf.unique {side : BookSide} {isPartial : Bool} {node : Node} {us us' : List LevelUpdate}
    (h : LevelsOf side isPartial node us) (h' : LevelsOf side isPartial node us') : us' = us := by
  obtain ⟨opened, items, closed, rfl, hus, -⟩ := h
  obtain ⟨opened', items', closed', heq, hus', -⟩ := h'
  obtain ⟨rfl, rfl, rfl⟩ := Node.array.inj heq
  rw [hus] at hus'
  exact (Option.some.inj hus').symm

theorem mapM_readLevel_side {side : BookSide} {isPartial : Bool} {nodes : List Node}
    {us : List LevelUpdate} (h : nodes.mapM (readLevel side isPartial) = some us) :
    ∀ u ∈ us, u.side = side := by
  induction nodes generalizing us with
  | nil =>
      obtain rfl := Option.some.inj h
      simp
  | cons node rest ih =>
      simp only [List.mapM_cons, Option.bind_eq_bind, Option.bind_eq_some_iff, Option.pure_def,
        Option.some.injEq] at h
      obtain ⟨u, hu, us', hus', rfl⟩ := h
      obtain ⟨_, _, _, _, _, _, _, hside⟩ := readLevel_eq_some.mp hu
      exact List.forall_mem_cons.mpr ⟨hside, ih hus'⟩

/-- What the scratch knows about the sides read so far. -/
structure Scratch.Reads (s : Scratch) (keys : List (Int × BookSide)) : Prop where
  tracks : s.table.Tracks keys
  bound : keys.length ≤ s.encounteredLevels
  capacity : s.encounteredLevels ≤ maxDepthUpdates

theorem parseLevels_outcome {side : BookSide} (isPartial : Bool) (node : Node) {scratch : Scratch}
    {keys : List (Int × BookSide)} (h : scratch.Reads keys) (hkeys : ∀ k ∈ keys, k.2 ≠ side) :
    (∃ us, LevelsOf side isPartial node us ∧
      (parseLevels (valueOf node) side isPartial scratch).1.failed = false ∧
      (parseLevels (valueOf node) side isPartial scratch).2.1 = us ∧
      (parseLevels (valueOf node) side isPartial scratch).2.2.encounteredLevels =
        scratch.encounteredLevels + us.length ∧
      (parseLevels (valueOf node) side isPartial scratch).2.2.Reads
        (us.reverse.map LevelUpdate.key ++ keys) ∧ ∀ u ∈ us, u.side = side) ∨
    ((∀ us, LevelsOf side isPartial node us →
      maxDepthUpdates < scratch.encounteredLevels + us.length) ∧
      (parseLevels (valueOf node) side isPartial scratch).1.failed = true) := by
  cases node with
  | array opened items closed =>
      have hstart : Collected side scratch.updates scratch.encounteredLevels keys []
          { scratch := scratch } :=
        ⟨rfl, by simp, by simp, rfl, rfl, by simpa using h.tracks⟩
      have hempty : Fits side isPartial scratch.encounteredLevels [] :=
        ⟨by simp, by simp, by simpa using h.capacity⟩
      simp only [parseLevels, valueOf, Value.type, Value.answers, Value.elements]
      rcases parseLevelsLoop_outcome items hstart hempty (by simp) hkeys h.bound with
        ⟨us, s, hus, hfits, hloop, hs⟩ | ⟨hnone, hrefuses⟩
      · rw [List.nil_append] at hfits hs
        refine .inl ⟨us, ⟨opened, items, closed, rfl, hus, hfits.distinct, hfits.refresh⟩, ?_⟩
        rw [hloop]
        refine ⟨hs.clean, by simp [hs.updates], hs.encountered, ⟨hs.tracks, ?_, ?_⟩,
          mapM_readLevel_side hus⟩
        · rw [hs.encountered]
          have := h.bound
          simp only [List.length_append, List.length_map, List.length_reverse]
          omega
        · rw [hs.encountered]
          exact hfits.capacity
      · refine .inr ⟨?_, ?_⟩
        · rintro us ⟨opened', items', closed', heq, hus, hdistinct, hrefresh⟩
          obtain ⟨rfl, rfl, rfl⟩ := Node.array.inj heq
          by_contra hle
          exact hnone us hus ⟨hdistinct, hrefresh, by simpa using Nat.not_lt.mp hle⟩
        · split
          · rename_i hr
            rw [hr] at hrefuses
            exact hrefuses
          · rename_i hr
            rw [hr] at hrefuses
            exact hrefuses
  | _ =>
      refine .inr ⟨?_, ?_⟩
      · rintro us ⟨_, _, _, heq, -⟩
        cases heq
      · simp only [parseLevels, valueOf, Value.type, Value.answers]
        exact decide_eq_true (wrongTypeUnlessInvalid_ne_none _ _)

end MarketCapture
