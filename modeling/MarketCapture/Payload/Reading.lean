import MarketCapture.Payload.Tokens

/-! # Reading valid documents

Over the tokens of a valid text the On-Demand API answers the tree that `valueOf` gives it, in any
spacing, and the minifier leaves its text without insignificant whitespace: what the parsers take
the library to be is what it is.
-/

namespace MarketCapture

open Simdjson JsonText JsonValidation
open ByteText (isDigit digitValue digitsValue parseDigits)

namespace Simdjson

/-! ## Scalars -/

/-- What a number or a literal is followed by. -/
def Ended (rest : Bytes) : Prop :=
  ∃ b tail, rest = b :: tail ∧ isStructuralOrWhitespace b = true

theorem Ended.spaced {after rest : Bytes} (hafter : Spaces after) (h : Ended rest) :
    Ended (after ++ rest) := by
  cases after with
  | nil => exact h
  | cons b after =>
      refine ⟨b, after ++ rest, rfl, ?_⟩
      rw [isStructuralOrWhitespace, hafter b List.mem_cons_self, Bool.or_true]

theorem ended_not_digit {b : UInt8} (h : isStructuralOrWhitespace b = true) :
    isDigit b = false := by
  rw [Bool.eq_false_iff]
  intro hdigit
  simp only [isStructuralOrWhitespace, isStructural, isSpace, Bool.or_eq_true,
    decide_eq_true_eq] at h
  rcases h with (((((rfl | rfl) | rfl) | rfl) | rfl) | rfl) | (((rfl | rfl) | rfl) | rfl) <;>
    cases hdigit

theorem Ended.noDigit {rest : Bytes} (h : Ended rest) : NoDigit rest := by
  obtain ⟨b, tail, rfl, hb⟩ := h
  intro c hc
  obtain rfl : b = c := by simpa using hc
  exact ended_not_digit hb

theorem noDigit_append {after rest : Bytes} (h : NoDigit after) (hrest : Ended rest) :
    NoDigit (after ++ rest) := by
  cases after with
  | nil => exact hrest.noDigit
  | cons b after => exact fun c hc => h c hc

theorem takeWhile_digits {ds rest : Bytes} (hds : Digits ds) (hrest : NoDigit rest) :
    (ds ++ rest).takeWhile isDigit = ds := by
  rw [List.takeWhile_append_of_pos hds]
  cases rest with
  | nil => simp
  | cons b rest => simp [hrest b rfl]

/-- The wrapped sum of a run of digits. -/
theorem foldl_uint64 (ds : Bytes) (i : UInt64) (n : Nat) (h : i = UInt64.ofNat n) :
    ds.foldl (fun (i : UInt64) b => 10 * i + UInt64.ofNat (digitValue b)) i =
      UInt64.ofNat (ds.foldl (fun acc b => 10 * acc + digitValue b) n) := by
  induction ds generalizing i n with
  | nil => exact h
  | cons b ds ih =>
      rw [List.foldl_cons, List.foldl_cons]
      refine ih _ _ ?_
      rw [h]
      simp

theorem headD_ended {rest : Bytes} (h : Ended rest) :
    integerStringFinisher (rest.headD 0) = none := by
  obtain ⟨b, tail, rfl, hb⟩ := h
  rw [List.headD_cons, integerStringFinisher, if_pos hb]

/-- The sum of twenty digits that start with a one has wrapped if and only if it is small. -/
theorem wraps_iff {ds : Bytes} (hds : Digits ds) (hlength : ds.length = 20) {rest : Bytes}
    (hhead : ds = 49 :: rest) :
    (UInt64.ofNat (digitsValue ds)).toNat < 2 ^ 63 ↔ 2 ^ 64 ≤ digitsValue ds := by
  have hrest : rest.length = 19 := by
    rw [hhead, List.length_cons] at hlength
    omega
  have hdigits : Digits rest := fun b hb => hds b (by rw [hhead]; exact List.mem_cons_of_mem _ hb)
  have hlt := ByteText.digitsValue_lt hdigits
  have hvalue : digitsValue ds = 10 ^ 19 + digitsValue rest := by
    rw [hhead, ByteText.digitsValue_cons, hrest]
    simp [digitValue]
  rw [hrest] at hlt
  simp only [UInt64.toNat_ofNat', hvalue]
  omega

/-- `get_uint64` on an integer: within 64 bits it is the number. -/
theorem parseUnsigned_integer {ds rest : Bytes} (h : IsInteger ds) (hrest : Ended rest) :
    parseUnsigned (ds ++ rest) = uint64Answer ds := by
  have hds : Digits ds := by
    rcases h with rfl | ⟨first, tail, rfl, hfirst, -, htail⟩
    · intro b hb
      rw [List.mem_singleton.mp hb]
      rfl
    · exact List.forall_mem_cons.mpr ⟨hfirst, htail⟩
  have hno := hrest.noDigit
  have hne : ds ≠ [] := by
    obtain ⟨first, tail, rfl, -⟩ := isInteger_head h
    exact List.cons_ne_nil _ _
  have hparsed : parseDigits ds = some (digitsValue ds) :=
    ByteText.parseDigits_eq_some.mpr ⟨hne, hds, rfl⟩
  have hsum : ds.foldl (fun (i : UInt64) b => 10 * i + UInt64.ofNat (digitValue b)) 0 =
      UInt64.ofNat (digitsValue ds) := foldl_uint64 ds 0 0 rfl
  have hzero : ¬(ds.head? = some 48 ∧ 1 < ds.length) := by
    rintro ⟨hhead, hlength⟩
    rcases h with rfl | ⟨first, tail, rfl, -, hfirst, -⟩
    · simp at hlength
    · exact hfirst (by simpa using hhead)
  have hpos : ds.length ≠ 0 := fun hlength => hne (List.eq_nil_of_length_eq_zero hlength)
  simp only [parseUnsigned, takeWhile_digits hds hno, hsum, List.drop_left, headD_ended hrest,
    if_neg hzero, uint64Answer, hparsed]
  have hlt := ByteText.digitsValue_lt hds
  by_cases hone : ds.length ≤ 19
  · -- nineteen digits are within 64 bits
    have hvalue : digitsValue ds < 2 ^ 64 :=
      Nat.lt_of_lt_of_le hlt (Nat.le_trans (Nat.pow_le_pow_right (by decide) hone) (by decide))
    rw [if_neg (by omega), if_neg (by omega), if_pos hvalue]
  · -- and more start with a digit other than zero
    rcases h with rfl | ⟨first, tail, rfl, hfirst, hnonzero, htail⟩
    · simp at hone
    · have hlower : digitValue first * 10 ^ tail.length ≤ digitsValue (first :: tail) := by
        rw [ByteText.digitsValue_cons]
        omega
      simp only [isDigit, decide_eq_true_eq] at hfirst
      have hdigit : 1 ≤ digitValue first := by
        have : first.toNat ≠ 48 := fun heq => hnonzero (UInt8.toNat_inj.mp heq)
        rw [digitValue]
        omega
      rw [List.length_cons] at hone hpos
      by_cases hmany : 20 < tail.length + 1
      · have hpow : 10 ^ 20 ≤ 10 ^ tail.length := Nat.pow_le_pow_right (by decide) (by omega)
        have hbig : ¬digitsValue (first :: tail) < 2 ^ 64 := by
          have := Nat.mul_le_mul hdigit hpow
          omega
        rw [List.length_cons, if_pos (.inr hmany), if_neg hbig]
      · have htwenty : tail.length = 19 := by omega
        rw [List.length_cons, if_neg (by omega), htwenty]
        rw [htwenty] at hlower
        by_cases hlead : first = 49
        · subst hlead
          have hwraps := wraps_iff hds (by rw [List.length_cons, htwenty]) rfl
          by_cases hvalue : digitsValue (49 :: tail) < 2 ^ 64
          · rw [if_neg, if_pos hvalue]
            rintro ⟨-, hother | hsmall⟩
            · exact hother rfl
            · exact absurd (hwraps.mp hsmall) (Nat.not_le.mpr hvalue)
          · rw [if_pos ⟨rfl, .inr (hwraps.mpr (Nat.not_lt.mp hvalue))⟩, if_neg hvalue]
        · have htwo : 2 ≤ digitValue first := by
            have : first.toNat ≠ 49 := fun heq => hlead (UInt8.toNat_inj.mp heq)
            rw [digitValue] at hdigit ⊢
            omega
          have hbig : ¬digitsValue (first :: tail) < 2 ^ 64 := by
            have := Nat.mul_le_mul_right (10 ^ 19) htwo
            omega
          rw [if_pos ⟨rfl, .inl (by simpa using hlead)⟩, if_neg hbig]

/-- Digits with a fraction or an exponent after them are of another type. -/
theorem parseUnsigned_fractional {ds tail : Bytes} {b : UInt8} (hds : Digits ds)
    (hzero : ¬(ds.head? = some 48 ∧ 1 < ds.length)) (hb : b = 46 ∨ b = 101 ∨ b = 69) :
    parseUnsigned (ds ++ b :: tail) = .error .incorrectType := by
  have hno : NoDigit (b :: tail) := by
    intro c hc
    obtain rfl : b = c := by simpa using hc
    rcases hb with rfl | rfl | rfl <;> rfl
  have hfinisher : integerStringFinisher b = some .incorrectType := by
    rcases hb with rfl | rfl | rfl <;> rfl
  simp only [parseUnsigned, takeWhile_digits hds hno, List.drop_left, List.headD_cons,
    hfinisher, if_neg hzero, ite_self]

theorem parseUnsigned_no_digit {rest : Bytes} (hno : NoDigit rest) :
    parseUnsigned rest = .error .incorrectType := by
  have hdigits : rest.takeWhile isDigit = [] := by
    cases rest with
    | nil => rfl
    | cons b tail => simp [hno b rfl]
  rw [parseUnsigned]
  simp only [hdigits]
  exact if_pos (.inl rfl)

theorem parseUnsigned_many_digits {ds rest : Bytes} (hds : Digits ds) (hno : NoDigit rest)
    (hmany : 20 < ds.length) : parseUnsigned (ds ++ rest) = .error .incorrectType := by
  rw [parseUnsigned]
  simp only [takeWhile_digits hds hno]
  exact if_pos (.inr hmany)

theorem parseUnsigned_leading_zero {ds rest : Bytes} (hds : Digits ds) (hno : NoDigit rest)
    (hfew : ds.length ≤ 20) (hzero : ds.head? = some 48) (hmore : 1 < ds.length) :
    parseUnsigned (ds ++ rest) = .error .numberError := by
  rw [parseUnsigned]
  simp only [takeWhile_digits hds hno]
  rw [if_neg (by omega), if_pos ⟨hzero, hmore⟩]

theorem uint64Answer_refused {token : Bytes} {b : UInt8} (hb : b ∈ token)
    (hdigit : isDigit b = false) : uint64Answer token = .error .incorrectType := by
  cases hparsed : parseDigits token with
  | none => simp only [uint64Answer, hparsed]
  | some n =>
      have hall := (ByteText.parseDigits_eq_some.mp hparsed).2.1 b hb
      rw [hdigit] at hall
      cases hall

theorem parseUnsigned_number {token rest : Bytes} (h : IsNumber token) (hrest : Ended rest) :
    parseUnsigned (token ++ rest) = uint64Answer token := by
  obtain ⟨sign, integer, fraction, exponent, rfl, hsign, hinteger, hfraction, hexponent⟩ := h
  rcases hsign with rfl | rfl
  · -- what follows the integer part decides
    obtain hnone | ⟨b, tail, htail, hb⟩ : fraction ++ exponent = [] ∨
        ∃ b tail, fraction ++ exponent = b :: tail ∧ (b = 46 ∨ b = 101 ∨ b = 69) := by
      rcases hfraction with rfl | ⟨ds, rfl, -⟩
      · rcases hexponent with rfl | ⟨e, sign, ds, rfl, he, -⟩
        · exact .inl rfl
        · exact .inr ⟨e, _, rfl, .inr he⟩
      · exact .inr ⟨46, _, rfl, .inl rfl⟩
    · rw [hnone, List.append_nil, List.nil_append]
      exact parseUnsigned_integer hinteger hrest
    · have hds : Digits integer := by
        rcases hinteger with rfl | ⟨first, tail, rfl, hfirst, -, htail⟩
        · intro b hb
          rw [List.mem_singleton.mp hb]
          rfl
        · exact List.forall_mem_cons.mpr ⟨hfirst, htail⟩
      have hzero : ¬(integer.head? = some 48 ∧ 1 < integer.length) := by
        rintro ⟨hhead, hlength⟩
        rcases hinteger with rfl | ⟨first, tail, rfl, -, hfirst, -⟩
        · simp at hlength
        · exact hfirst (by simpa using hhead)
      have hdigit : isDigit b = false := by rcases hb with rfl | rfl | rfl <;> rfl
      rw [List.nil_append, htail, uint64Answer_refused (b := b) (by simp) hdigit,
        List.append_assoc, List.cons_append]
      exact parseUnsigned_fractional hds hzero hb
  · have hminus : isDigit 45 = false := rfl
    rw [uint64Answer_refused (b := 45) (by simp) hminus]
    refine parseUnsigned_no_digit fun b hb => ?_
    obtain rfl : 45 = b := by simpa using hb
    exact hminus

theorem parseBool_boolText (value : Bool) {rest : Bytes} (hrest : Ended rest) :
    parseBool (boolText value ++ rest) = .ok value := by
  obtain ⟨b, tail, rfl, hb⟩ := hrest
  have htrue : ascii "true" = [116, 114, 117, 101] := by decide +kernel
  have hfalse : ascii "false" = [102, 97, 108, 115, 101] := by decide +kernel
  cases value with
  | false => simp [parseBool, boolText, htrue, hfalse, hb]
  | true => simp [parseBool, boolText, htrue, hb]

theorem rawString_inside {raw : Bytes} (h : Inside raw) (rest : Bytes) :
    rawString false (raw ++ 34 :: rest) = raw := by
  induction h with
  | nil => simp [rawString]
  | @plain b tail hquote hbackslash _ _ ih => simp [rawString, hquote, hbackslash, ih]
  | @escape b tail _ _ ih => simp [rawString, ih]

theorem typeOf_number {token after : Bytes} (h : IsNumber token) :
    typeOf (token ++ after) = .ok .number := by
  obtain ⟨sign, integer, fraction, exponent, rfl, hsign, hinteger, -, -⟩ := h
  obtain ⟨first, tail, rfl, hfirst⟩ := isInteger_head hinteger
  rcases hsign with rfl | rfl
  · have hne : ∀ c : UInt8, isDigit c = false → first ≠ c := by
      rintro c hc rfl
      rw [hfirst] at hc
      cases hc
    simp [typeOf, hne 123 rfl, hne 91 rfl, hne 34 rfl, hne 110 rfl, hne 116 rfl, hne 102 rfl, hfirst]
  · rfl

theorem typeOf_bool (value : Bool) (after : Bytes) :
    typeOf (boolText value ++ after) = .ok .boolean := by
  cases value <;> rfl

theorem valueAt_scalar {token : Bytes} {rest : List Bytes} {type : JsonType} {fuel : Nat}
    (htype : typeOf token = .ok type) (harray : type ≠ .array) (hobject : type ≠ .object) :
    valueAt (fuel + 1) (token :: rest) =
      (scalarAt type token (token :: rest).flatten, some rest) := by
  rw [valueAt, htype]
  cases type with
  | array => exact absurd rfl harray
  | object => exact absurd rfl hobject
  | _ => rfl

/-! ## Skipping -/

theorem skipRest_scalar {b : UInt8} {tail : Bytes} {rest : List Bytes} (levels : Nat)
    (hb : b ≠ 91 ∧ b ≠ 123 ∧ b ≠ 93 ∧ b ≠ 125) :
    skipRest levels ((b :: tail) :: rest) = skipRest levels rest := by
  simp [skipRest, hb]

theorem skipRest_close {b : UInt8} {closed : Bytes} {rest : List Bytes} {levels : Nat}
    (hlevels : 1 ≤ levels) (hb : b = 93 ∨ b = 125) :
    skipRest (levels + 1) ((b :: closed) :: rest) = skipRest levels rest := by
  rcases hb with rfl | rfl <;> simp [skipRest] <;> omega

theorem skipRest_last {b : UInt8} {closed : Bytes} {rest : List Bytes} (hb : b = 93 ∨ b = 125) :
    skipRest 1 ((b :: closed) :: rest) = some rest := by
  rcases hb with rfl | rfl <;> simp [skipRest]

mutual

/-- A value is passed on the level it stands on. -/
theorem skipRest_node (node : Node) (h : node.WellFormed) {levels : Nat} (hlevels : 1 ≤ levels)
    (rest : List Bytes) : skipRest levels (node.tokens ++ rest) = skipRest levels rest := by
  cases node with
  | null after => exact skipRest_scalar levels (by decide)
  | bool value after => cases value <;> exact skipRest_scalar levels (by decide)
  | number token after =>
      obtain ⟨b, tail, more, htokens, hb⟩ := tokens_head (.number token after) h
      obtain ⟨htoken, rfl⟩ := List.cons.inj htokens
      have hnumber : typeOf (token ++ after) = .ok .number := typeOf_number h.1
      rw [htokens]
      refine skipRest_scalar levels ⟨?_, ?_, (startsValue_ne hb).2.1, (startsValue_ne hb).2.2.1⟩
      · rintro rfl
        rw [htoken] at hnumber
        cases hnumber
      · rintro rfl
        rw [htoken] at hnumber
        cases hnumber
  | string raw after => exact skipRest_scalar levels (by decide)
  | array opened items closed =>
      simp only [Node.WellFormed] at h
      have hopen : skipRest levels ((Node.array opened items closed).tokens ++ rest) =
          skipRest (levels + 1) (items.tokens ++ (93 :: closed) :: rest) := by
        simp [Node.tokens, skipRest]
      rw [hopen, skipRest_items items h.2.1 (Nat.le_add_left 1 levels),
        skipRest_close hlevels (.inl rfl)]
  | object opened members closed =>
      simp only [Node.WellFormed] at h
      have hopen : skipRest levels ((Node.object opened members closed).tokens ++ rest) =
          skipRest (levels + 1) (members.tokens ++ (125 :: closed) :: rest) := by
        simp [Node.tokens, skipRest]
      rw [hopen, skipRest_members members h.2.1 (Nat.le_add_left 1 levels),
        skipRest_close hlevels (.inr rfl)]

theorem skipRest_items (items : Items) (h : items.WellFormed) {levels : Nat}
    (hlevels : 1 ≤ levels) (rest : List Bytes) :
    skipRest levels (items.tokens ++ rest) = skipRest levels rest := by
  cases items with
  | nil => rfl
  | cons value commaAfter more =>
      simp only [Items.WellFormed] at h
      rw [Items.tokens, List.append_assoc, skipRest_node value h.1 hlevels]
      cases hnil : more.isNil with
      | true => simp
      | false =>
          rw [if_neg Bool.false_ne_true, List.cons_append, skipRest_scalar levels (by decide),
            skipRest_items more h.2.2 hlevels]

theorem skipRest_members (members : Members) (h : members.WellFormed) {levels : Nat}
    (hlevels : 1 ≤ levels) (rest : List Bytes) :
    skipRest levels (members.tokens ++ rest) = skipRest levels rest := by
  cases members with
  | nil => rfl
  | cons key keyAfter colonAfter value commaAfter more =>
      simp only [Members.WellFormed] at h
      obtain ⟨-, -, -, hvalue, -, hmore⟩ := h
      rw [Members.tokens, List.cons_append, List.cons_append, skipRest_scalar levels (by decide),
        skipRest_scalar levels (by decide), List.append_assoc, skipRest_node value hvalue hlevels]
      cases hnil : more.isNil with
      | true => simp
      | false =>
          rw [if_neg Bool.false_ne_true, List.cons_append, skipRest_scalar levels (by decide),
            skipRest_members more hmore hlevels]

end

/-- The first element is passed on its own level. -/
theorem skipChild_node (node : Node) (h : node.WellFormed) {rest : List Bytes}
    (hrest : sees 58 rest = false) : skipChild 2 (node.tokens ++ rest) = skipRest 1 rest := by
  obtain ⟨b, tail, more, htokens, hb⟩ := tokens_head node h
  have hpassed := skipRest_node node h (Nat.le_refl 1) rest
  obtain ⟨-, hbracket, hbrace, hcomma, hcolon⟩ := startsValue_ne hb
  by_cases hopen : b = 91 ∨ b = 123
  · -- the loop would count the bracket that the first token has counted already
    rw [htokens] at hpassed ⊢
    rw [← hpassed]
    rcases hopen with rfl | rfl <;> simp [skipChild, skipRest]
  · have hscalar : more = [] := by
      cases node with
      | array opened items closed =>
          obtain ⟨hfirst, -⟩ := List.cons.inj htokens
          exact absurd (.inl (List.cons.inj hfirst).1.symm) hopen
      | object opened members closed =>
          obtain ⟨hfirst, -⟩ := List.cons.inj htokens
          exact absurd (.inr (List.cons.inj hfirst).1.symm) hopen
      | _ => exact (List.cons.inj htokens).2.symm
    rw [not_or] at hopen
    rw [htokens, hscalar]
    simp [skipChild, hopen, hcomma, hcolon, hrest]

theorem sees_cons (b c : UInt8) (tail : Bytes) (rest : List Bytes) :
    sees b ((c :: tail) :: rest) = decide (c = b) := by
  simp [sees]

theorem rawContainer_of_skip {closing b : UInt8} {levels : Nat} {token tail : Bytes}
    {body rest : List Bytes}
    (hskip : (if sees closing (body ++ (b :: tail) :: rest) then
        some (body ++ (b :: tail) :: rest).tail
      else skipChild levels (body ++ (b :: tail) :: rest)) = some rest) :
    rawContainer closing levels token (body ++ (b :: tail) :: rest) =
      .ok (token ++ (body ++ [b :: tail]).flatten) := by
  have htake : (body ++ (b :: tail) :: rest).take
      ((body ++ (b :: tail) :: rest).length - rest.length) = body ++ [b :: tail] := by
    have hsplit : body ++ (b :: tail) :: rest = (body ++ [b :: tail]) ++ rest := by simp
    rw [hsplit, List.length_append, Nat.add_sub_cancel, List.take_left]
  rw [rawContainer, hskip]
  simp only [htake]

theorem sees_items {items : Items} (h : items.WellFormed) (hnil : items.isNil = false)
    (rest : List Bytes) : sees 93 (items.tokens ++ rest) = false := by
  cases items with
  | nil => cases hnil
  | cons value commaAfter more =>
      simp only [Items.WellFormed] at h
      obtain ⟨b, tail, tokens, htokens, hb⟩ := tokens_head value h.1
      rw [Items.tokens, htokens, List.cons_append, List.cons_append, sees_cons,
        decide_eq_false (startsValue_ne hb).2.1]

theorem rawContainer_items {items : Items} (h : items.WellFormed) (opened closed : Bytes)
    (rest : List Bytes) :
    rawContainer 93 2 (91 :: opened) (items.tokens ++ (93 :: closed) :: rest) =
      .ok (Node.array opened items closed).text := by
  have htext : (91 :: opened) ++ (items.tokens ++ [93 :: closed]).flatten =
      (Node.array opened items closed).text := by
    simp [Node.text, Items.tokens_flatten]
  rw [← htext]
  refine rawContainer_of_skip ?_
  cases hnil : items.isNil with
  | true =>
      rw [items_isNil hnil]
      simp [Items.tokens, sees_cons]
  | false =>
      rw [sees_items h hnil, if_neg Bool.false_ne_true]
      cases items with
      | nil => cases hnil
      | cons value commaAfter more =>
          simp only [Items.WellFormed] at h
          rw [Items.tokens, List.append_assoc, skipChild_node value h.1]
          · cases hmore : more.isNil with
            | true => simp [skipRest_last]
            | false =>
                rw [if_neg Bool.false_ne_true, List.cons_append, skipRest_scalar 1 (by decide),
                  skipRest_items more h.2.2 (Nat.le_refl 1), skipRest_last (.inl rfl)]
          · cases hmore : more.isNil with
            | true => simp [sees_cons]
            | false => simp [sees_cons]

theorem rawContainer_members {members : Members} (h : members.WellFormed) (opened closed : Bytes)
    (rest : List Bytes) :
    rawContainer 125 1 (123 :: opened) (members.tokens ++ (125 :: closed) :: rest) =
      .ok (Node.object opened members closed).text := by
  have htext : (123 :: opened) ++ (members.tokens ++ [125 :: closed]).flatten =
      (Node.object opened members closed).text := by
    simp [Node.text, Members.tokens_flatten]
  rw [← htext]
  refine rawContainer_of_skip ?_
  cases members with
  | nil => simp [Members.tokens, sees_cons]
  | cons key keyAfter colonAfter value commaAfter more =>
      simp only [Members.WellFormed] at h
      obtain ⟨-, -, -, hvalue, -, hmore⟩ := h
      rw [Members.tokens, List.cons_append, List.cons_append, sees_cons, if_neg (by decide)]
      simp only [skipChild, List.head?_cons, sees_cons, List.tail_cons]
      rw [if_neg (by decide), if_pos (by decide), List.append_assoc,
        skipRest_node value hvalue (Nat.le_refl 1)]
      cases hnil : more.isNil with
      | true => simp [skipRest_last]
      | false =>
          rw [if_neg Bool.false_ne_true, List.cons_append, skipRest_scalar 1 (by decide),
            skipRest_members more hmore (Nat.le_refl 1), skipRest_last (.inr rfl)]

/-! ## Values -/

/-- An array, over what is read of its elements. -/
theorem valueAt_array {items : Items} {opened closed : Bytes} (h : items.WellFormed)
    (hread : items.isNil = false → ∀ (fuel : Nat) (rest : List Bytes),
      2 * items.tokens.length + 1 ≤ fuel →
      elementsAt fuel (items.tokens ++ (93 :: closed) :: rest) = (elementsOf items, some rest))
    {fuel : Nat} (rest : List Bytes)
    (hfuel : 2 * (Node.array opened items closed).tokens.length ≤ fuel) :
    valueAt fuel ((Node.array opened items closed).tokens ++ rest) =
      (valueOf (.array opened items closed), some rest) := by
  have hraw := rawContainer_items h opened closed rest
  have htokens : (Node.array opened items closed).tokens ++ rest =
      (91 :: opened) :: (items.tokens ++ (93 :: closed) :: rest) := by
    simp [Node.tokens]
  simp only [Node.tokens, List.length_cons, List.length_append, List.length_nil] at hfuel
  rw [htokens]
  cases fuel with
  | zero => omega
  | succ fuel =>
      have htype : typeOf (91 :: opened) = .ok .array := rfl
      rw [valueAt, htype]
      simp only [hraw, valueOf]
      cases hnil : items.isNil with
      | true =>
          rw [items_isNil hnil]
          simp [Items.tokens, sees_cons, elementsOf]
      | false =>
          simp only [sees_items h hnil, Bool.false_eq_true, if_false,
            hread hnil fuel rest (by omega)]

theorem valueAt_object {members : Members} {opened closed : Bytes} (h : members.WellFormed)
    (hread : members.isNil = false → ∀ (fuel : Nat) (rest : List Bytes),
      2 * members.tokens.length + 1 ≤ fuel →
      fieldsAt fuel (members.tokens ++ (125 :: closed) :: rest) = (fieldsOf members, some rest))
    {fuel : Nat} (rest : List Bytes)
    (hfuel : 2 * (Node.object opened members closed).tokens.length ≤ fuel) :
    valueAt fuel ((Node.object opened members closed).tokens ++ rest) =
      (valueOf (.object opened members closed), some rest) := by
  have hraw := rawContainer_members h opened closed rest
  have htokens : (Node.object opened members closed).tokens ++ rest =
      (123 :: opened) :: (members.tokens ++ (125 :: closed) :: rest) := by
    simp [Node.tokens]
  simp only [Node.tokens, List.length_cons, List.length_append, List.length_nil] at hfuel
  rw [htokens]
  cases fuel with
  | zero => omega
  | succ fuel =>
      have htype : typeOf (123 :: opened) = .ok .object := rfl
      rw [valueAt, htype]
      simp only [hraw, valueOf]
      cases members with
      | nil => simp [Members.tokens, sees_cons, fieldsOf]
      | cons key keyAfter colonAfter value commaAfter more =>
          have hsees : sees 125 ((Members.cons key keyAfter colonAfter value commaAfter more).tokens ++
              (125 :: closed) :: rest) = false := by
            simp [Members.tokens, sees_cons]
          simp only [hsees, Bool.false_eq_true, if_false, hread rfl fuel rest (by omega)]

mutual

theorem valueAt_node (node : Node) (h : node.WellFormed) {fuel : Nat} {rest : List Bytes}
    (hfuel : 2 * node.tokens.length ≤ fuel) (hrest : Ended rest.flatten) :
    valueAt fuel (node.tokens ++ rest) = (valueOf node, some rest) := by
  cases node with
  | null after =>
      cases fuel with
      | zero => simp [Node.tokens] at hfuel
      | succ fuel =>
          have htype : typeOf (ascii "null" ++ after) = .ok .null := rfl
          rw [Node.tokens, List.cons_append, List.nil_append,
            valueAt_scalar htype (by decide) (by decide)]
          rfl
  | bool value after =>
      cases fuel with
      | zero => simp [Node.tokens] at hfuel
      | succ fuel =>
          have hbool : parseBool ((boolText value ++ after) ++ rest.flatten) = .ok value := by
            rw [List.append_assoc]
            exact parseBool_boolText value (hrest.spaced h)
          rw [Node.tokens, List.cons_append, List.nil_append,
            valueAt_scalar (typeOf_bool value after) (by decide) (by decide)]
          simp only [scalarAt, scalar, List.flatten_cons, hbool, valueOf]
  | number token after =>
      cases fuel with
      | zero => simp [Node.tokens] at hfuel
      | succ fuel =>
          have hnumber : parseUnsigned ((token ++ after) ++ rest.flatten) = uint64Answer token := by
            rw [List.append_assoc]
            exact parseUnsigned_number h.1 (hrest.spaced h.2)
          rw [Node.tokens, List.cons_append, List.nil_append,
            valueAt_scalar (typeOf_number h.1) (by decide) (by decide)]
          simp only [scalarAt, scalar, List.flatten_cons, hnumber, valueOf]
  | string raw after =>
      cases fuel with
      | zero => simp [Node.tokens] at hfuel
      | succ fuel =>
          have hraw := rawString_inside h.1.inside after
          have htype : typeOf (34 :: (raw ++ 34 :: after)) = .ok .string := rfl
          rw [Node.tokens, List.cons_append, List.nil_append,
            valueAt_scalar htype (by decide) (by decide)]
          simp only [scalarAt, scalar, List.tail_cons, hraw, valueOf]
  | array opened items closed =>
      simp only [Node.WellFormed] at h
      exact valueAt_array h.2.1 (fun hnil fuel rest => elementsAt_items items h.2.1 hnil) rest hfuel
  | object opened members closed =>
      simp only [Node.WellFormed] at h
      exact valueAt_object h.2.1 (fun hnil fuel rest => fieldsAt_members members h.2.1 hnil) rest
        hfuel

theorem elementsAt_items (items : Items) (h : items.WellFormed) (hnil : items.isNil = false)
    {fuel : Nat} {rest : List Bytes} {closed : Bytes}
    (hfuel : 2 * items.tokens.length + 1 ≤ fuel) :
    elementsAt fuel (items.tokens ++ (93 :: closed) :: rest) = (elementsOf items, some rest) := by
  cases items with
  | nil => cases hnil
  | cons value commaAfter more =>
      simp only [Items.WellFormed] at h
      simp only [Items.tokens, List.length_append] at hfuel
      cases fuel with
      | zero => omega
      | succ fuel =>
          cases hmore : more.isNil with
          | true =>
              have hvalue : valueAt fuel (value.tokens ++ (93 :: closed) :: rest) =
                  (valueOf value, some ((93 :: closed) :: rest)) :=
                valueAt_node value h.1 (by omega) ⟨93, _, rfl, rfl⟩
              rw [Items.tokens, hmore, if_pos rfl, List.append_nil, elementsAt, hvalue,
                items_isNil hmore]
              simp [sees_cons, elementsOf]
          | false =>
              rw [hmore, if_neg Bool.false_ne_true, List.length_cons] at hfuel
              have hvalue : valueAt fuel
                  (value.tokens ++ (44 :: commaAfter) :: (more.tokens ++ (93 :: closed) :: rest)) =
                  (valueOf value,
                    some ((44 :: commaAfter) :: (more.tokens ++ (93 :: closed) :: rest))) :=
                valueAt_node value h.1 (by omega) ⟨44, _, rfl, rfl⟩
              have hrest : elementsAt fuel (more.tokens ++ (93 :: closed) :: rest) =
                  (elementsOf more, some rest) := elementsAt_items more h.2.2 hmore (by omega)
              rw [Items.tokens, hmore, if_neg Bool.false_ne_true, List.append_assoc,
                List.cons_append, elementsAt, hvalue]
              simp [sees_cons, elementsOf, hrest]

theorem fieldsAt_members (members : Members) (h : members.WellFormed)
    (hnil : members.isNil = false) {fuel : Nat} {rest : List Bytes} {closed : Bytes}
    (hfuel : 2 * members.tokens.length + 1 ≤ fuel) :
    fieldsAt fuel (members.tokens ++ (125 :: closed) :: rest) = (fieldsOf members, some rest) := by
  cases members with
  | nil => cases hnil
  | cons key keyAfter colonAfter value commaAfter more =>
      simp only [Members.WellFormed] at h
      obtain ⟨hkey, -, -, hvalue, -, hwell⟩ := h
      have hraw := rawString_inside hkey.inside keyAfter
      simp only [Members.tokens, List.length_append, List.length_cons] at hfuel
      cases fuel with
      | zero => omega
      | succ fuel =>
          cases hmore : more.isNil with
          | true =>
              have hvalue : valueAt fuel (value.tokens ++ (125 :: closed) :: rest) =
                  (valueOf value, some ((125 :: closed) :: rest)) :=
                valueAt_node value hvalue (by omega) ⟨125, _, rfl, rfl⟩
              rw [Members.tokens, hmore, if_pos rfl, List.append_nil, List.cons_append,
                List.cons_append, fieldsAt, members_isNil hmore]
              simp [sees_cons, hraw, hvalue, fieldsOf]
          | false =>
              rw [hmore, if_neg Bool.false_ne_true, List.length_cons] at hfuel
              have hvalue : valueAt fuel
                  (value.tokens ++ (44 :: commaAfter) :: (more.tokens ++ (125 :: closed) :: rest)) =
                  (valueOf value,
                    some ((44 :: commaAfter) :: (more.tokens ++ (125 :: closed) :: rest))) :=
                valueAt_node value hvalue (by omega) ⟨44, _, rfl, rfl⟩
              have hrest : fieldsAt fuel (more.tokens ++ (125 :: closed) :: rest) =
                  (fieldsOf more, some rest) := fieldsAt_members more hwell hmore (by omega)
              rw [Members.tokens, hmore, if_neg Bool.false_ne_true, List.cons_append,
                List.cons_append, List.append_assoc, List.cons_append, fieldsAt]
              simp [sees_cons, hraw, hvalue, fieldsOf, hrest]

end

/-! ## Passes over a value -/

theorem items_strip_isNil (items : Items) : items.strip.isNil = items.isNil := by
  cases items <;> rfl

theorem members_strip_isNil (members : Members) : members.strip.isNil = members.isNil := by
  cases members <;> rfl

/-- One structural character and the whitespace after it. -/
theorem passes_structural {b : UInt8} (hb : isStructural b = true) {spaces : Bytes}
    (h : Spaces spaces) : Passes (b :: spaces) [b] := by
  have hbyte : Passes [b] [b] := by
    have hspace := structural_not_space hb
    simp only [isStructural, Bool.or_eq_true, decide_eq_true_eq] at hb
    refine Passes.plain ?_
    intro c hc
    rw [List.mem_singleton.mp hc]
    refine ⟨?_, hspace, ?_, ?_⟩ <;>
      rcases hb with ((((rfl | rfl) | rfl) | rfl) | rfl) | rfl <;> decide
  exact hbyte.append (Passes.spaces h)

theorem passes_scalar {bytes after : Bytes} (hplain : ∀ b ∈ bytes, b.toNat < 128 ∧
    isSpace b = false ∧ b ≠ 34 ∧ b ≠ 92) (hafter : Spaces after) :
    Passes (bytes ++ after) (bytes ++ []) :=
  (Passes.plain hplain).append (Passes.spaces hafter)

theorem passes_quoted {raw after : Bytes} (h : IsString raw) (hafter : Spaces after) :
    Passes (34 :: (raw ++ 34 :: after)) (34 :: (raw ++ 34 :: [])) := by
  simpa using (Passes.string h).append (Passes.spaces hafter)

theorem isNumber_ascii {token : Bytes} (h : IsNumber token) : ∀ b ∈ token,
    b.toNat < 128 ∧ isSpace b = false ∧ b ≠ 34 ∧ b ≠ 92 := by
  intro b hb
  have hbyte := isNumber_bytes h b hb
  have hspace : isSpace b = false := by
    rw [Bool.eq_false_iff]
    intro hspace
    simp only [isSpace, Bool.or_eq_true, decide_eq_true_eq] at hspace
    rcases hspace with ((rfl | rfl) | rfl) | rfl <;> cases hbyte
  refine ⟨?_, hspace, ?_, ?_⟩
  · simp only [numberByte, isDigit, Bool.or_eq_true, decide_eq_true_eq] at hbyte
    rcases hbyte with ((((hdigit | rfl) | rfl) | rfl) | rfl) | rfl
    · omega
    all_goals decide
  · rintro rfl
    cases hbyte
  · rintro rfl
    cases hbyte

mutual

/-- The minifier leaves the text without insignificant whitespace. -/
theorem passes_node (node : Node) (h : node.WellFormed) : Passes node.text node.strip.text := by
  cases node with
  | null after => exact passes_scalar (by decide +kernel) h
  | bool value after =>
      cases value with
      | false => exact passes_scalar (by decide +kernel) h
      | true => exact passes_scalar (by decide +kernel) h
  | number token after => exact passes_scalar (isNumber_ascii h.1) h.2
  | string raw after => exact passes_quoted h.1 h.2
  | array opened items closed =>
      simp only [Node.WellFormed] at h
      have hfirst : Passes (91 :: opened) [91] := passes_structural rfl h.1
      have hlast : Passes (93 :: closed) [93] := passes_structural rfl h.2.2
      simpa [Node.text, Node.strip] using (hfirst.append (passes_items items h.2.1)).append hlast
  | object opened members closed =>
      simp only [Node.WellFormed] at h
      have hfirst : Passes (123 :: opened) [123] := passes_structural rfl h.1
      have hlast : Passes (125 :: closed) [125] := passes_structural rfl h.2.2
      simpa [Node.text, Node.strip] using
        (hfirst.append (passes_members members h.2.1)).append hlast

theorem passes_items (items : Items) (h : items.WellFormed) :
    Passes items.text items.strip.text := by
  cases items with
  | nil => exact Passes.nil
  | cons value commaAfter rest =>
      simp only [Items.WellFormed] at h
      have hvalue := passes_node value h.1
      have hcomma : Passes (44 :: commaAfter) [44] := passes_structural rfl h.2.1
      have hnil := items_strip_isNil rest
      cases hrest : rest.isNil with
      | true => simpa [Items.text, Items.strip, hnil, hrest] using hvalue
      | false =>
          simpa [Items.text, Items.strip, hnil, hrest] using
            hvalue.append (hcomma.append (passes_items rest h.2.2))

theorem passes_members (members : Members) (h : members.WellFormed) :
    Passes members.text members.strip.text := by
  cases members with
  | nil => exact Passes.nil
  | cons key keyAfter colonAfter value commaAfter rest =>
      simp only [Members.WellFormed] at h
      obtain ⟨hkey, hkeyAfter, hcolonAfter, hvalue, hcommaAfter, hwell⟩ := h
      have hname := passes_quoted hkey hkeyAfter
      have hcolon : Passes (58 :: colonAfter) [58] := passes_structural rfl hcolonAfter
      have hcomma : Passes (44 :: commaAfter) [44] := passes_structural rfl hcommaAfter
      have hmember := hname.append (hcolon.append (passes_node value hvalue))
      have hnil := members_strip_isNil rest
      cases hrest : rest.isNil with
      | true => simpa [Members.text, Members.strip, hnil, hrest] using hmember
      | false =>
          simpa [Members.text, Members.strip, hnil, hrest] using
            hmember.append (hcomma.append (passes_members rest hwell))

end

/-! ## Documents -/

theorem segments_spaces {k : Kernel} {spaces rest : Bytes} (h : Spaces spaces) :
    segments k (spaces ++ rest) = segments k rest := by
  induction spaces with
  | nil => rfl
  | cons b spaces ih =>
      have hspace := h b List.mem_cons_self
      have hsingle : Spaces [b] := fun c hc => by rwa [List.mem_singleton.mp hc]
      have hnext : ({} : Scan).next k b = {} := Scan.run_spaces hsingle
      have hstarts : ({} : Scan).starts k b = false := by
        simp [Scan.starts, Scan.isScalar, hspace, k.not_operator_space hspace]
      rw [← ih fun c hc => h c (List.mem_cons_of_mem _ hc)]
      simp [segments, Scan.cut, hnext, hstarts]

/-- The documents whose root is an object or an array. -/
inductive Container : Node → Prop
  | array (opened : Bytes) (items : Items) (closed : Bytes) : Container (.array opened items closed)
  | object (opened : Bytes) (members : Members) (closed : Bytes) :
      Container (.object opened members closed)

/-- The bracket that a document ends with. -/
def closing : Node → UInt8
  | .array .. => 93
  | _ => 125

theorem closedBy_node {node : Node} (hcontainer : Container node) :
    closedBy (closing node) node.tokens = true := by
  cases hcontainer with
  | array opened items closed =>
      rw [closedBy, Node.tokens, ← List.cons_append, List.getLast?_concat]
      rfl
  | object opened members closed =>
      rw [closedBy, Node.tokens, ← List.cons_append, List.getLast?_concat]
      rfl

/-- The root, whatever follows it, as long as it ends as it has to. -/
theorem rootValue_node {node : Node} (hcontainer : Container node) (h : node.WellFormed)
    {rest : List Bytes} (hlast : closedBy (closing node) (node.tokens ++ rest) = true) :
    rootValue (node.tokens ++ rest) = valueOf node := by
  have hfuel : 2 * node.tokens.length ≤ enoughFuel (node.tokens ++ rest) := by
    rw [enoughFuel, List.length_append]
    omega
  cases hcontainer with
  | array opened items closed =>
      simp only [Node.WellFormed] at h
      have hvalue := valueAt_array h.2.1 (fun hnil fuel rest => elementsAt_items items h.2.1 hnil)
        rest hfuel
      rw [rootValue, hvalue]
      simp only [closing] at hlast
      simp [valueOf, Value.type, Value.answers, hlast]
  | object opened members closed =>
      simp only [Node.WellFormed] at h
      have hvalue := valueAt_object h.2.1 (fun hnil fuel rest => fieldsAt_members members h.2.1 hnil)
        rest hfuel
      rw [rootValue, hvalue]
      simp only [closing] at hlast
      simp [valueOf, Value.type, Value.answers, hlast]

theorem removeUtf8Bom_of_head {b : UInt8} {rest : Bytes} (h : b ≠ 0xEF) :
    removeUtf8Bom (b :: rest) = b :: rest := by
  rw [removeUtf8Bom, if_neg]
  rintro ⟨tail, htail⟩
  exact h (List.cons.inj htail).1.symm

/-- The library reads an object or array as its syntax says, in any spacing. -/
theorem iterate_document (k : Kernel) (leading : Bytes) (document : Node)
    (hspaces : Spaces leading) (hcontainer : Container document) (hwell : document.WellFormed) :
    (Library.ondemand k).iterate (leading ++ document.text) = .ok (valueOf document) := by
  have hcut := cuts_node (k := k) document hwell
  have hpasses := (Passes.spaces hspaces).append (passes_node document hwell)
  have hsegments : segments k (leading ++ document.text) = document.tokens := by
    have hall := hcut.cut [] fun b hb => by cases hb
    rw [List.append_nil] at hall
    rw [segments_spaces hspaces, hall]
    exact List.append_nil _
  have hne : document.tokens ≠ [] := by
    obtain ⟨b, tail, rest, htokens, -⟩ := tokens_head document hwell
    rw [htokens]
    exact List.cons_ne_nil _ _
  have hbom : removeUtf8Bom (leading ++ document.text) = leading ++ document.text := by
    cases leading with
    | nil => cases hcontainer <;> exact removeUtf8Bom_of_head (by decide)
    | cons b leading =>
        refine removeUtf8Bom_of_head ?_
        rintro rfl
        exact absurd (hspaces 0xEF List.mem_cons_self) (by decide)
  have hunescaped := hpasses.unescaped []
  rw [List.append_nil] at hunescaped
  have hclosed : (Quoting.run {} (leading ++ document.text)).inString = false := by
    rw [hpasses.run]
  have hstage : stage1 k (leading ++ document.text) = .ok document.tokens := by
    rw [stage1, hsegments, if_neg (by rw [hclosed]; exact Bool.false_ne_true),
      if_neg (by rw [hunescaped]; exact Bool.false_ne_true), if_neg hne, if_pos hpasses.utf8]
  have hroot : rootValue document.tokens = valueOf document := by
    have hall : rootValue (document.tokens ++ []) = valueOf document :=
      rootValue_node hcontainer hwell (by rw [List.append_nil]; exact closedBy_node hcontainer)
    rwa [List.append_nil] at hall
  simp only [Library.ondemand, hbom, hstage, Except.map, hroot]

/-- The library minifies a value to its text without insignificant whitespace. -/
theorem minify_node (k : Kernel) (node : Node) (hwell : node.WellFormed) :
    (Library.ondemand k).minify node.text = .ok node.strip.text := by
  have hpasses := passes_node node hwell
  have hsignificant := hpasses.significant []
  simp only [List.append_nil, Quoting.significant] at hsignificant
  simp only [Library.ondemand, hpasses.run, hsignificant, Bool.false_eq_true, if_false]

/-- Every kernel reads every object and array as its syntax says, in any spacing, and minifies
every value to its text without insignificant whitespace. -/
theorem ondemand_reads (k : Kernel) :
    (∀ leading document, Spaces leading → Container document → document.WellFormed →
      (Library.ondemand k).iterate (leading ++ document.text) = .ok (valueOf document)) ∧
    ∀ node : Node, node.WellFormed → (Library.ondemand k).minify node.text = .ok node.strip.text :=
  ⟨iterate_document k, minify_node k⟩

/-- An object with spaces around its tokens. -/
def spacedDocument : Node :=
  .object [] (.cons (ascii "a") [32] [32] (.array [] (.cons (.number (ascii "7") [32]) []
    (.cons (.bool true []) [] .nil)) []) [] .nil) [32]

theorem spacedDocument_wellFormed : spacedDocument.WellFormed := by
  have hkey : IsString (ascii "a") := ⟨⟨"a".toList, by decide +kernel⟩, by decide +kernel⟩
  have hseven : IsNumber (ascii "7") :=
    ⟨[], ascii "7", [], [], by decide +kernel, .inl rfl,
      .inr ⟨55, [], by decide +kernel, by decide +kernel, by decide, by simp [Digits]⟩,
      .inl rfl, .inl rfl⟩
  simp [spacedDocument, Node.WellFormed, Members.WellFormed, Items.WellFormed, Spaces, isSpace,
    hkey, hseven]

theorem ondemand_reads_spaced :
    (Library.ondemand .x64).iterate (ascii " \x7b\"a\" : [7 ,true]\x7d ") =
        .ok (valueOf spacedDocument) ∧
      (Library.ondemand .x64).minify spacedDocument.text = .ok (ascii "\x7b\"a\":[7,true]\x7d") := by
  have hleading : Spaces [32] := by simp [Spaces, isSpace]
  have htext : ascii " \x7b\"a\" : [7 ,true]\x7d " = [32] ++ spacedDocument.text := by decide +kernel
  have hstrip : ascii "\x7b\"a\":[7,true]\x7d" = spacedDocument.strip.text := by decide +kernel
  rw [htext, hstrip]
  exact ⟨(ondemand_reads .x64).1 [32] spacedDocument hleading (.object _ _ _)
    spacedDocument_wellFormed, (ondemand_reads .x64).2 spacedDocument spacedDocument_wellFormed⟩

end Simdjson

theorem objectNode_wellFormed {fields : List Member} (h : ∀ m ∈ fields, m.WellFormed) :
    (objectNode fields).WellFormed := by
  simp only [objectNode, Node.WellFormed]
  exact ⟨spaces_nil, (Members.ofList_wellFormed fields).mpr h, spaces_nil⟩

/-- What the acceptance theorems ask of the library holds of it. -/
theorem CompactObject.reads {fields : List Member} (h : CompactObject fields) (k : Kernel) :
    (Library.ondemand k).Reads fields where
  iterate := iterate_document k [] (objectNode fields) (fun b hb => by cases hb) (.object _ _ _)
    (objectNode_wellFormed h.valid)
  minify m hm := minify_node k m.value (h.valid m hm).2.2.2.1

end MarketCapture
