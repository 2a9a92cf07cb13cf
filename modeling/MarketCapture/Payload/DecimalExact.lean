import MarketCapture.Payload.FixedPoint

/-! # Fixed-point parsing is exact

The accepted texts are the decimals whose scaled value is an integer of the signed
64-bit range, and that integer is the result. The loops are written a second time
with every signed 64-bit result checked, as the machine computes them: no check
fails on any input.
-/

namespace MarketCapture

open ByteText

namespace FixedPoint

/-! ## What a text denotes -/

/-- One or more digits, and if there is a point one or more digits after it. -/
structure DecimalText (input whole fraction : Bytes) : Prop where
  whole_ne : whole ≠ []
  whole_digits : ∀ b ∈ whole, isDigit b = true
  fraction_digits : ∀ b ∈ fraction, isDigit b = true
  shape : (fraction = [] ∧ input = whole) ∨ (fraction ≠ [] ∧ input = whole ++ point :: fraction)

/-- The rational number a decimal text denotes. -/
def denoted (whole fraction : Bytes) : ℚ :=
  digitsValue whole + digitsValue fraction / 10 ^ fraction.length

/-- Every fractional digit after the eighth is zero. -/
def ZeroTail (fraction : Bytes) : Prop := ∀ b ∈ fraction.drop 8, b = zeroByte

/-- The eight fractional digits that are kept, as an integer. -/
def scaledFraction (fraction : Bytes) : Nat :=
  digitsValue (fraction.take 8) * 10 ^ (8 - fraction.length)

/-- With a zero tail the denoted number is a multiple of the last kept digit. -/
theorem denoted_scaled {whole fraction : Bytes} (h : ZeroTail fraction) :
    denoted whole fraction * 10 ^ 8 =
      ((digitsValue whole * 10 ^ 8 + scaledFraction fraction : Nat) : ℚ) := by
  have hsplit : digitsValue fraction =
      digitsValue (fraction.take 8) * 10 ^ (fraction.length - 8) := by
    conv_lhs => rw [← List.take_append_drop 8 fraction]
    rw [digitsValue_append, digitsValue_zeros h, List.length_drop, Nat.add_zero]
  have hfraction : (digitsValue fraction : ℚ) / 10 ^ fraction.length * 10 ^ 8 =
      (scaledFraction fraction : ℚ) := by
    rw [hsplit, scaledFraction]
    push_cast
    rcases Nat.le_total fraction.length 8 with hshort | hlong
    · have hpow : (10 : ℚ) ^ 8 = 10 ^ fraction.length * 10 ^ (8 - fraction.length) := by
        rw [← pow_add, Nat.add_sub_cancel' hshort]
      rw [Nat.sub_eq_zero_of_le hshort, hpow]
      field_simp
    · have hpow : (10 : ℚ) ^ fraction.length = 10 ^ 8 * 10 ^ (fraction.length - 8) := by
        rw [← pow_add, Nat.add_sub_cancel' hlong]
      rw [Nat.sub_eq_zero_of_le hlong, hpow]
      field_simp
  rw [denoted, add_mul, hfraction]
  push_cast
  ring

theorem scaledFraction_lt {fraction : Bytes} (h : ∀ b ∈ fraction, isDigit b = true) :
    scaledFraction fraction < 10 ^ 8 := by
  have hkept : digitsValue (fraction.take 8) < 10 ^ (fraction.take 8).length :=
    digitsValue_lt fun b hb => h b (List.mem_of_mem_take hb)
  rw [List.length_take] at hkept
  rw [scaledFraction]
  rcases Nat.le_total fraction.length 8 with hshort | hlong
  · rw [min_eq_right hshort] at hkept
    calc digitsValue (fraction.take 8) * 10 ^ (8 - fraction.length)
        < 10 ^ fraction.length * 10 ^ (8 - fraction.length) :=
          Nat.mul_lt_mul_of_pos_right hkept (by positivity)
      _ = 10 ^ 8 := by rw [← pow_add, Nat.add_sub_cancel' hshort]
  · rw [min_eq_left hlong] at hkept
    simpa [Nat.sub_eq_zero_of_le hlong] using hkept

/-! ## The integer digits -/

/-- Read digits into an accumulator, as both loops do. -/
def readDigits (acc : Nat) (bs : Bytes) : Nat :=
  bs.foldl (fun acc b => 10 * acc + digitValue b) acc

theorem readDigits_cons (acc : Nat) (b : UInt8) (bs : Bytes) :
    readDigits acc (b :: bs) = readDigits (10 * acc + digitValue b) bs := by
  simp only [readDigits, List.foldl_cons]

theorem le_readDigits (acc : Nat) (bs : Bytes) : acc ≤ readDigits acc bs := by
  rw [readDigits, foldl_digits]
  have hpos : 1 ≤ 10 ^ bs.length := Nat.one_le_pow _ _ (by norm_num)
  nlinarith

theorem isDigit_ne_point {b : UInt8} (h : isDigit b = true) : b ≠ point := by
  rintro rfl
  simp [isDigit, point] at h

theorem wholeLoop_digits {digits rest : Bytes} {whole : Nat}
    (hdigits : ∀ b ∈ digits, isDigit b = true) (hrest : rest = [] ∨ rest.head? = some point)
    (hbound : (readDigits whole digits : Int) ≤ maximumWhole) :
    wholeLoop (digits ++ rest) whole = .ok ((readDigits whole digits : Nat), rest) := by
  induction digits generalizing whole with
  | nil =>
      cases rest with
      | nil => rfl
      | cons c cs =>
          obtain rfl : c = point := by simpa using hrest
          rfl
  | cons c cs ih =>
      obtain ⟨hc, hcs⟩ := List.forall_mem_cons.mp hdigits
      rw [readDigits_cons] at hbound ⊢
      -- the next value is at most the final one, so the guard lets the digit through
      have hle : ((10 * whole + digitValue c : Nat) : Int) ≤ maximumWhole :=
        le_trans (by exact_mod_cast le_readDigits _ cs) hbound
      have hguard : ¬ (whole : Int) > (maximumWhole - digitValue c) / 10 := by
        push_cast at hle
        omega
      have hnext : (whole : Int) * 10 + digitValue c = ((10 * whole + digitValue c : Nat) : Int) := by
        push_cast
        ring
      rw [List.cons_append, wholeLoop, if_neg (isDigit_ne_point hc), hc]
      simp only [Bool.not_true, Bool.false_eq_true, ↓reduceIte, if_neg hguard, hnext]
      exact ih hcs hbound

theorem wholeLoop_ok {input rest : Bytes} {whole : Nat} {w : Int}
    (hwhole : (whole : Int) ≤ maximumWhole) (h : wholeLoop input whole = .ok (w, rest)) :
    ∃ digits, (∀ b ∈ digits, isDigit b = true) ∧ input = digits ++ rest ∧
      (rest = [] ∨ rest.head? = some point) ∧ w = readDigits whole digits ∧ w ≤ maximumWhole := by
  induction input generalizing whole with
  | nil =>
      obtain ⟨rfl, rfl⟩ := Prod.mk.inj (Except.ok.inj h)
      exact ⟨[], by simp, rfl, .inl rfl, rfl, hwhole⟩
  | cons c cs ih =>
      rw [wholeLoop] at h
      split at h
      · rename_i hpoint
        obtain ⟨rfl, rfl⟩ := Prod.mk.inj (Except.ok.inj h)
        exact ⟨[], by simp, rfl, .inr (by simp [hpoint]), rfl, hwhole⟩
      · split at h
        · cases h
        · rename_i hdigit
          dsimp only at h
          split at h
          · cases h
          · rename_i hguard
            have hnext : (whole : Int) * 10 + digitValue c =
                ((10 * whole + digitValue c : Nat) : Int) := by
              push_cast
              ring
            rw [hnext] at h
            have hle : ((10 * whole + digitValue c : Nat) : Int) ≤ maximumWhole := by
              push_cast
              omega
            obtain ⟨digits, hdigits, hinput, hrest, hw, hbound⟩ := ih hle h
            refine ⟨c :: digits, ?_, by rw [hinput]; rfl, hrest, hw, hbound⟩
            intro b hb
            rcases List.mem_cons.mp hb with rfl | hb
            · simpa using hdigit
            · exact hdigits b hb

theorem wholeLoop_start {input rest : Bytes} {w : Int} (h : wholeLoop input 0 = .ok (w, rest)) :
    ∃ digits, (∀ b ∈ digits, isDigit b = true) ∧ input = digits ++ rest ∧
      (rest = [] ∨ rest.head? = some point) ∧ w = digitsValue digits ∧ w ≤ maximumWhole := by
  have hzero : ((0 : Nat) : Int) ≤ maximumWhole := by decide
  rw [← Nat.cast_zero] at h
  exact wholeLoop_ok hzero h

/-! ## The fractional digits -/

theorem fractionLoop_digits {bs : Bytes} {fraction digits : Nat}
    (hdigits : ∀ b ∈ bs, isDigit b = true) (hzero : ∀ b ∈ bs.drop (8 - digits), b = zeroByte) :
    fractionLoop bs fraction digits =
      .ok ((readDigits fraction (bs.take (8 - digits)) : Nat), digits + bs.length) := by
  induction bs generalizing fraction digits with
  | nil => simp [fractionLoop, readDigits]
  | cons c cs ih =>
      obtain ⟨hc, hcs⟩ := List.forall_mem_cons.mp hdigits
      rw [fractionLoop, hc]
      simp only [Bool.not_true, Bool.false_eq_true, ↓reduceIte]
      split
      · rename_i hlt
        obtain ⟨k, hk⟩ : ∃ k, 8 - digits = k + 1 := ⟨7 - digits, by omega⟩
        have hk' : 8 - (digits + 1) = k := by omega
        have hnext : (fraction : Int) * 10 + digitValue c =
            ((10 * fraction + digitValue c : Nat) : Int) := by
          push_cast
          ring
        rw [hnext, ih hcs (by simpa [hk, hk'] using hzero), hk, hk', List.take_succ_cons,
          readDigits_cons, List.length_cons]
        congr 2
        omega
      · rename_i hlt
        have hfull : 8 - digits = 0 := by omega
        rw [hfull, List.drop_zero] at hzero
        obtain ⟨hz, hzs⟩ := List.forall_mem_cons.mp hzero
        have hfull' : 8 - (digits + 1) = 0 := by omega
        rw [if_neg (by simp [hz]), ih hcs (by simpa [hfull'] using hzs), hfull, hfull',
          List.take_zero, List.take_zero, List.length_cons]
        congr 2
        omega

theorem fractionLoop_ok {bs : Bytes} {fraction : Int} {digits : Nat} {r : Int × Nat}
    (h : fractionLoop bs fraction digits = .ok r) :
    (∀ b ∈ bs, isDigit b = true) ∧ ∀ b ∈ bs.drop (8 - digits), b = zeroByte := by
  induction bs generalizing fraction digits with
  | nil => simp
  | cons c cs ih =>
      rw [fractionLoop] at h
      split at h
      · cases h
      · rename_i hc
        have hc : isDigit c = true := by simpa using hc
        split at h
        · rename_i hlt
          obtain ⟨hcs, hzero⟩ := ih h
          obtain ⟨k, hk⟩ : ∃ k, 8 - digits = k + 1 := ⟨7 - digits, by omega⟩
          have hk' : 8 - (digits + 1) = k := by omega
          refine ⟨List.forall_mem_cons.mpr ⟨hc, hcs⟩, ?_⟩
          rw [hk, List.drop_succ_cons, ← hk']
          exact hzero
        · rename_i hlt
          split at h
          · cases h
          · rename_i hz
            obtain ⟨hcs, hzero⟩ := ih h
            have hfull : 8 - digits = 0 := by omega
            have hfull' : 8 - (digits + 1) = 0 := by omega
            rw [hfull', List.drop_zero] at hzero
            refine ⟨List.forall_mem_cons.mpr ⟨hc, hcs⟩, ?_⟩
            rw [hfull, List.drop_zero]
            exact List.forall_mem_cons.mpr ⟨by simpa using hz, hzero⟩

theorem fractionPart_point {fraction : Bytes} (hne : fraction ≠ [])
    (hdigits : ∀ b ∈ fraction, isDigit b = true) (hzero : ZeroTail fraction) :
    fractionPart (point :: fraction) = .ok (scaledFraction fraction : Nat) := by
  obtain ⟨c, cs, rfl⟩ := List.exists_cons_of_ne_nil hne
  have hloop : fractionLoop (c :: cs) ((0 : Nat) : Int) 0 =
      .ok ((readDigits 0 ((c :: cs).take (8 - 0)) : Nat), 0 + (c :: cs).length) :=
    fractionLoop_digits hdigits hzero
  rw [Nat.cast_zero] at hloop
  simp only [fractionPart, hloop, bind, Except.bind, pure, Except.pure, padFraction, scaledFraction, readDigits,
    digitsValue, Nat.zero_add, Nat.sub_zero]
  push_cast
  rfl

theorem fractionPart_ok {rest : Bytes} {f : Int} (hrest : rest = [] ∨ rest.head? = some point)
    (h : fractionPart rest = .ok f) :
    (rest = [] ∧ f = 0) ∨ ∃ fraction, fraction ≠ [] ∧ rest = point :: fraction ∧
      (∀ b ∈ fraction, isDigit b = true) ∧ ZeroTail fraction ∧ f = (scaledFraction fraction : Nat) := by
  match rest, h with
  | [], h => exact .inl ⟨rfl, (Except.ok.inj h).symm⟩
  | [_], h => cases h
  | p :: c :: cs, h =>
      obtain rfl : p = point := by simpa using hrest
      cases hloop : fractionLoop (c :: cs) 0 0 with
      | error e =>
          simp only [fractionPart, hloop, bind, Except.bind] at h
          cases h
      | ok r =>
          obtain ⟨hdigits, hzero⟩ := fractionLoop_ok hloop
          refine .inr ⟨c :: cs, by simp, rfl, hdigits, hzero, ?_⟩
          rw [fractionPart_point (by simp) hdigits hzero] at h
          exact (Except.ok.inj h).symm

/-! ## Every signed 64-bit result -/

def int64Minimum : Int := -2 ^ 63

/-- A signed 64-bit result; `none` is an overflow. -/
def int64 (value : Int) : Option Int :=
  if int64Minimum ≤ value ∧ value ≤ int64Maximum then some value else none

theorem int64_of_range {value : Int} (hlo : 0 ≤ value) (hhi : value ≤ int64Maximum) :
    int64 value = some value := by
  have hminimum : int64Minimum ≤ value := le_trans (by decide) hlo
  rw [int64, if_pos ⟨hminimum, hhi⟩]

/-- The integer digits, every result checked. -/
def wholeLoopChecked : Bytes → Int → Option (Except DecimalParseError (Int × Bytes))
  | [], whole => some (.ok (whole, []))
  | c :: rest, whole =>
      if c = point then some (.ok (whole, c :: rest))
      else if !isDigit c then some (.error .invalidCharacter)
      else do
        let digit ← int64 (digitValue c)
        let room ← int64 (maximumWhole - digit)
        let bound ← int64 (room.tdiv 10)
        if whole > bound then return .error .overflow
        else
          let scaled ← int64 (whole * 10)
          let next ← int64 (scaled + digit)
          wholeLoopChecked rest next

/-- The fractional digits, every result checked. -/
def fractionLoopChecked : Bytes → Int → Nat → Option (Except DecimalParseError (Int × Nat))
  | [], fraction, digits => some (.ok (fraction, digits))
  | c :: rest, fraction, digits =>
      if !isDigit c then some (.error .invalidCharacter)
      else if digits < 8 then do
        let digit ← int64 (digitValue c)
        let scaled ← int64 (fraction * 10)
        let next ← int64 (scaled + digit)
        fractionLoopChecked rest next (digits + 1)
      else if c ≠ zeroByte then some (.error .nonZeroDiscardedDigit)
      else fractionLoopChecked rest fraction (digits + 1)

/-- The padding loop, with the number of digits that are missing. -/
def padLoopChecked : Nat → Int → Option Int
  | 0, fraction => some fraction
  | missing + 1, fraction => do
      let scaled ← int64 (fraction * 10)
      padLoopChecked missing scaled

def fractionPartChecked : Bytes → Option (Except DecimalParseError Int)
  | [] => some (.ok 0)
  | [_] => some (.error .missingFractionalDigits)
  | _ :: rest => do
      match ← fractionLoopChecked rest 0 0 with
      | .error e => return .error e
      | .ok (fraction, digits) =>
          let padded ← padLoopChecked (8 - digits) fraction
          return .ok padded

/-- `parse_decimal_1e8` as the machine computes it: `none` if a signed 64-bit result
overflows. -/
def parseDecimal1e8Checked (input : Bytes) : Option (Except DecimalParseError Int) :=
  match input with
  | [] => some (.error .empty)
  | c :: _ =>
      if c = point then some (.error .missingIntegerDigits)
      else do
        match ← wholeLoopChecked input 0 with
        | .error e => return .error e
        | .ok (whole, rest) =>
            match ← fractionPartChecked rest with
            | .error e => return .error e
            | .ok fraction =>
                let room ← int64 (int64Maximum - fraction)
                let bound ← int64 (room.tdiv decimalScale)
                if whole > bound then return .error .overflow
                else
                  let scaled ← int64 (whole * decimalScale)
                  let value ← int64 (scaled + fraction)
                  return .ok value

theorem wholeLoopChecked_eq (input : Bytes) {whole : Int} (hlo : 0 ≤ whole)
    (hhi : whole ≤ maximumWhole) : wholeLoopChecked input whole = some (wholeLoop input whole) := by
  induction input generalizing whole with
  | nil => rfl
  | cons c cs ih =>
      rw [wholeLoopChecked, wholeLoop]
      split
      · rfl
      · split
        · rfl
        · rename_i hdigit
          have hnine := digitValue_le_nine (by simpa using hdigit)
          have hmax : maximumWhole = 92233720368 := by decide
          have hlimit : int64Maximum = 9223372036854775807 := by decide
          have hdigit' : int64 (digitValue c) = some (digitValue c : Int) :=
            int64_of_range (by omega) (by omega)
          have hroom : int64 (maximumWhole - digitValue c) = some (maximumWhole - digitValue c) :=
            int64_of_range (by omega) (by omega)
          have hdiv : (maximumWhole - digitValue c).tdiv 10 = (maximumWhole - digitValue c) / 10 :=
            Int.tdiv_eq_ediv_of_nonneg (by omega)
          have hbound : int64 ((maximumWhole - digitValue c) / 10) =
              some ((maximumWhole - digitValue c) / 10) := int64_of_range (by omega) (by omega)
          simp only [hdigit', Option.bind_eq_bind, Option.bind_some, hroom, hdiv, hbound]
          split
          · rfl
          · rename_i hguard
            rw [int64_of_range (by omega) (by omega), Option.bind_some,
              int64_of_range (by omega) (by omega), Option.bind_some]
            exact ih (by omega) (by omega)

/-- The kept fraction has as many digits as were read. -/
theorem fractionLoopChecked_eq (input : Bytes) {fraction : Int} {digits : Nat} (hlo : 0 ≤ fraction)
    (hhi : fraction < 10 ^ min digits 8) :
    fractionLoopChecked input fraction digits = some (fractionLoop input fraction digits) := by
  induction input generalizing fraction digits with
  | nil => rfl
  | cons c cs ih =>
      rw [fractionLoopChecked, fractionLoop]
      split
      · rfl
      · rename_i hdigit
        have hnine := digitValue_le_nine (by simpa using hdigit)
        have hlimit : int64Maximum = 9223372036854775807 := by decide
        split
        · rename_i hlt
          have hpow : (10 : Int) ^ min (digits + 1) 8 = 10 ^ min digits 8 * 10 := by
            rw [min_eq_left (by omega), min_eq_left (by omega), pow_succ]
          have hsmall : (10 : Int) ^ min digits 8 ≤ 10 ^ 8 :=
            pow_le_pow_right₀ (by norm_num) (min_le_right _ _)
          norm_num at hsmall
          rw [int64_of_range (by omega) (by omega), Option.bind_eq_bind, Option.bind_some,
            int64_of_range (by omega) (by omega), Option.bind_some,
            int64_of_range (by omega) (by omega), Option.bind_some]
          exact ih (by omega) (by omega)
        · rename_i hfull
          split
          · rfl
          · apply ih hlo
            rwa [min_eq_right (by omega)] at hhi ⊢

theorem padLoopChecked_eq (missing : Nat) {fraction : Int} (hlo : 0 ≤ fraction)
    (hhi : fraction * 10 ^ missing ≤ int64Maximum) :
    padLoopChecked missing fraction = some (fraction * 10 ^ missing) := by
  induction missing generalizing fraction with
  | zero => simp [padLoopChecked]
  | succ missing ih =>
      have hpow : fraction * 10 ^ (missing + 1) = fraction * 10 * 10 ^ missing := by ring
      have hone : (1 : Int) ≤ 10 ^ missing := one_le_pow₀ (by norm_num)
      have hstep : fraction * 10 ≤ int64Maximum := by
        rw [hpow] at hhi
        nlinarith
      rw [padLoopChecked, int64_of_range (by omega) hstep, Option.bind_eq_bind, Option.bind_some,
        ih (by omega) (hpow ▸ hhi), hpow]

theorem fractionPartChecked_eq (rest : Bytes) :
    fractionPartChecked rest = some (fractionPart rest) := by
  match rest with
  | [] => rfl
  | [_] => rfl
  | p :: c :: cs =>
      have hloop : fractionLoopChecked (c :: cs) 0 0 = some (fractionLoop (c :: cs) 0 0) :=
        fractionLoopChecked_eq (c :: cs) (le_refl 0) (by norm_num)
      simp only [fractionPartChecked, fractionPart, hloop, Option.bind_eq_bind, Option.bind_some]
      cases hr : fractionLoop (c :: cs) 0 0 with
      | error e => rfl
      | ok r =>
          obtain ⟨hdigits, hzero⟩ := fractionLoop_ok hr
          have hpart := fractionPart_point (by simp) hdigits hzero
          simp only [fractionPart, hr, bind, Except.bind, pure, Except.pure, padFraction,
            Except.ok.injEq] at hpart
          have hsmall := scaledFraction_lt hdigits
          have hlimit : int64Maximum = 9223372036854775807 := by decide
          have hpad := padLoopChecked_eq (8 - r.2) (fractionLoop_nonneg (le_refl 0) hr)
            (by rw [hpart]; omega)
          simp only [hpad, Option.bind_some, bind, Except.bind, pure, Except.pure, padFraction]

/-- No signed 64-bit result overflows, whatever the input. -/
theorem parseDecimal1e8Checked_eq (input : Bytes) :
    parseDecimal1e8Checked input = some (parseDecimal1e8 input) := by
  cases input with
  | nil => rfl
  | cons c cs =>
      simp only [parseDecimal1e8Checked, parseDecimal1e8]
      split
      · rfl
      · have hmax : maximumWhole = 92233720368 := by decide
        have hlimit : int64Maximum = 9223372036854775807 := by decide
        have hscale : decimalScale = 100000000 := rfl
        rw [wholeLoopChecked_eq _ (le_refl 0) (by omega), Option.bind_eq_bind, Option.bind_some]
        cases hw : wholeLoop (c :: cs) 0 with
        | error e => rfl
        | ok r =>
            obtain ⟨whole, rest⟩ := r
            have hwhole := wholeLoop_nonneg (le_refl 0) hw
            obtain ⟨-, -, -, hrest, -, hbounded⟩ := wholeLoop_start hw
            simp only [fractionPartChecked_eq, Option.bind_some, bind, Except.bind]
            cases hf : fractionPart rest with
            | error e => rfl
            | ok fraction =>
                have hfraction := fractionPart_nonneg hf
                have hsmall : fraction < 10 ^ 8 := by
                  rcases fractionPart_ok hrest hf with ⟨-, rfl⟩ | ⟨digits, -, -, hdigits, -, rfl⟩
                  · norm_num
                  · exact_mod_cast scaledFraction_lt hdigits
                norm_num at hsmall
                have hdiv : (int64Maximum - fraction).tdiv 100000000 =
                    (int64Maximum - fraction) / 100000000 :=
                  Int.tdiv_eq_ediv_of_nonneg (by omega)
                have hroom : int64 (int64Maximum - fraction) = some (int64Maximum - fraction) :=
                  int64_of_range (by omega) (by omega)
                simp only [hroom, Option.bind_some, hscale, hdiv]
                rw [int64_of_range (by omega) (by omega), Option.bind_some]
                split
                · rfl
                · rename_i hguard
                  rw [int64_of_range (by omega) (by omega), Option.bind_some,
                    int64_of_range (by omega) (by omega), Option.bind_some]
                  rfl

/-! ## The accepted texts -/

theorem scaledFraction_nil : scaledFraction [] = 0 := rfl

/-- The rest of the input after the integer digits. -/
theorem DecimalText.split {input whole fraction : Bytes} (h : DecimalText input whole fraction)
    (hzero : ZeroTail fraction) :
    ∃ rest, input = whole ++ rest ∧ (rest = [] ∨ rest.head? = some point) ∧
      fractionPart rest = .ok (scaledFraction fraction : Nat) := by
  rcases h.shape with ⟨rfl, rfl⟩ | ⟨hne, rfl⟩
  · exact ⟨[], by simp, .inl rfl, rfl⟩
  · exact ⟨point :: fraction, rfl, .inr rfl, fractionPart_point hne h.fraction_digits hzero⟩

/-- A text splits at its point in one way. -/
theorem DecimalText.unique {input whole fraction whole' fraction' : Bytes}
    (h : DecimalText input whole fraction) (h' : DecimalText input whole' fraction') :
    whole = whole' ∧ fraction = fraction' := by
  have hspan : ∀ {w f : Bytes}, DecimalText input w f →
      input.takeWhile isDigit = w ∧ (input.dropWhile isDigit).tail = f := by
    intro w f hw
    rcases hw.shape with ⟨rfl, rfl⟩ | ⟨-, rfl⟩
    · have htake : (input ++ []).takeWhile isDigit = input ++ [].takeWhile isDigit :=
        List.takeWhile_append_of_pos hw.whole_digits
      have hdrop : (input ++ []).dropWhile isDigit = [].dropWhile isDigit :=
        List.dropWhile_append_of_pos hw.whole_digits
      rw [List.append_nil] at htake hdrop
      simp [htake, hdrop]
    · rw [List.takeWhile_append_of_pos hw.whole_digits, List.dropWhile_append_of_pos hw.whole_digits]
      have hpoint : isDigit point = false := by decide
      simp [hpoint]
  obtain ⟨rfl, rfl⟩ := hspan h
  exact hspan h'

theorem parseDecimal1e8_of_text {input whole fraction : Bytes}
    (h : DecimalText input whole fraction) (hzero : ZeroTail fraction)
    (hbound : ((digitsValue whole * 10 ^ 8 + scaledFraction fraction : Nat) : Int) ≤ int64Maximum) :
    parseDecimal1e8 input = .ok (digitsValue whole * 10 ^ 8 + scaledFraction fraction : Nat) := by
  obtain ⟨rest, rfl, hrest, hfraction⟩ := h.split hzero
  obtain ⟨c, cs, rfl⟩ := List.exists_cons_of_ne_nil h.whole_ne
  have hpoint : c ≠ point := isDigit_ne_point (h.whole_digits c (by simp))
  have hscale : decimalScale = 100000000 := rfl
  have hmax : maximumWhole = 92233720368 := by decide
  have hlimit : int64Maximum = 9223372036854775807 := by decide
  have hbounded : (readDigits 0 (c :: cs) : Int) ≤ maximumWhole := by
    change (digitsValue (c :: cs) : Int) ≤ maximumWhole
    omega
  have hloop : wholeLoop (c :: cs ++ rest) 0 = .ok ((digitsValue (c :: cs) : Nat), rest) :=
    wholeLoop_digits h.whole_digits hrest hbounded
  simp only [parseDecimal1e8, List.cons_append, if_neg hpoint]
  rw [List.cons_append] at hloop
  simp only [hloop, bind, Except.bind, hfraction, hscale, pure, Except.pure]
  push_cast at hbound ⊢
  rw [if_neg (by omega)]

theorem text_of_parseDecimal1e8 {input : Bytes} {v : Int} (h : parseDecimal1e8 input = .ok v) :
    ∃ whole fraction, DecimalText input whole fraction ∧ ZeroTail fraction ∧
      v = (digitsValue whole * 10 ^ 8 + scaledFraction fraction : Nat) := by
  have hmax : maximumWhole = 92233720368 := by decide
  have hscale : decimalScale = 100000000 := rfl
  cases input with
  | nil => cases h
  | cons c cs =>
      simp only [parseDecimal1e8] at h
      split at h
      · cases h
      · rename_i hpoint
        cases hw : wholeLoop (c :: cs) 0 with
        | error e =>
            simp only [hw, bind, Except.bind] at h
            cases h
        | ok r =>
            obtain ⟨w, rest⟩ := r
            obtain ⟨digits, hdigits, hinput, hrest, hvalue, -⟩ := wholeLoop_start hw
            have hne : digits ≠ [] := by
              rintro rfl
              rcases hrest with rfl | hhead
              · cases hinput
              · rw [List.nil_append] at hinput
                rw [← hinput] at hhead
                exact hpoint (by simpa using hhead)
            simp only [hw, bind, Except.bind] at h
            cases hf : fractionPart rest with
            | error e =>
                simp only [hf] at h
                cases h
            | ok f =>
                simp only [hf, hscale] at h
                split at h
                · cases h
                · have hv := Except.ok.inj h
                  have hw' : w = (digitsValue digits : Nat) := hvalue
                  rcases fractionPart_ok hrest hf with ⟨rfl, rfl⟩ | ⟨fraction, hfne, rfl, hfd, hz, rfl⟩
                  · refine ⟨digits, [], ⟨hne, hdigits, by simp, .inl ⟨rfl, ?_⟩⟩, by simp [ZeroTail], ?_⟩
                    · simpa using hinput
                    · rw [scaledFraction_nil]
                      push_cast
                      rw [← hv, hw']
                  · refine ⟨digits, fraction, ⟨hne, hdigits, hfd, .inr ⟨hfne, hinput⟩⟩, hz, ?_⟩
                    push_cast
                    rw [← hv, hw']

end FixedPoint

open FixedPoint in
/-- The accepted texts are the decimals in range with a zero tail, the result is the
denoted number scaled, and no signed 64-bit result overflows on any input. -/
theorem parseDecimal1e8_exact (input : Bytes) :
    ((∃ v, parseDecimal1e8 input = .ok v) ↔ ∃ whole fraction,
      DecimalText input whole fraction ∧ ZeroTail fraction ∧
        denoted whole fraction * 10 ^ 8 ≤ 2 ^ 63 - 1) ∧
    (∀ v whole fraction, parseDecimal1e8 input = .ok v → DecimalText input whole fraction →
      (v : ℚ) = denoted whole fraction * 10 ^ 8) ∧
    parseDecimal1e8Checked input = some (parseDecimal1e8 input) := by
  have hlimit : int64Maximum = 2 ^ 63 - 1 := rfl
  refine ⟨⟨?_, ?_⟩, ?_, parseDecimal1e8Checked_eq input⟩
  · rintro ⟨v, hv⟩
    obtain ⟨whole, fraction, htext, hzero, rfl⟩ := text_of_parseDecimal1e8 hv
    refine ⟨whole, fraction, htext, hzero, ?_⟩
    have hrange := (parseDecimal1e8_range hv).2
    rw [denoted_scaled hzero]
    rw [hlimit] at hrange
    exact_mod_cast hrange
  · rintro ⟨whole, fraction, htext, hzero, hbound⟩
    rw [denoted_scaled hzero] at hbound
    refine ⟨_, parseDecimal1e8_of_text htext hzero ?_⟩
    rw [hlimit]
    exact_mod_cast hbound
  · intro v whole fraction hv htext
    obtain ⟨whole', fraction', htext', hzero, rfl⟩ := text_of_parseDecimal1e8 hv
    obtain ⟨rfl, rfl⟩ := htext.unique htext'
    rw [denoted_scaled hzero, Int.cast_natCast]

/-- The greatest accepted decimal, with leading zeros and a zero tail. -/
theorem parseDecimal1e8_exact_sample :
    (9223372036854775807 : ℚ) = FixedPoint.denoted (ascii "0092233720368") (ascii "5477580700") *
      10 ^ 8 ∧ parseDecimal1e8 (ascii "92233720368.54775808") = .error .overflow := by
  have haccepted : parseDecimal1e8 (ascii "0092233720368.5477580700") = .ok 9223372036854775807 := by
    decide +kernel
  have htext : FixedPoint.DecimalText (ascii "0092233720368.5477580700") (ascii "0092233720368")
      (ascii "5477580700") := ⟨by decide +kernel, by decide +kernel, by decide +kernel,
        .inr ⟨by decide +kernel, by decide +kernel⟩⟩
  have hvalue := (parseDecimal1e8_exact _).2.1 _ _ _ haccepted htext
  exact ⟨by exact_mod_cast hvalue, by decide +kernel⟩

end MarketCapture
