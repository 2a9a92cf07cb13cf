import MarketCapture.Payload.Types

/-! # Fixed-point decimals

`parse_decimal_1e8`: integer digits, an optional point and fractional digits,
scaled by `10^8`. The integer part is bounded before every multiplication and
the final sum before it is formed.
-/

namespace MarketCapture

open ByteText

def decimalScale : Int := 100000000
def int64Maximum : Int := 2 ^ 63 - 1

namespace FixedPoint

def point : UInt8 := 46
def zeroByte : UInt8 := 48

def maximumWhole : Int := int64Maximum / decimalScale

/-- The integer digits up to the point, with the unread rest of the input. -/
def wholeLoop : Bytes → Int → Except DecimalParseError (Int × Bytes)
  | [], whole => .ok (whole, [])
  | c :: rest, whole =>
      if c = point then .ok (whole, c :: rest)
      else if !isDigit c then .error .invalidCharacter
      else
        let d : Int := digitValue c
        if whole > (maximumWhole - d) / 10 then .error .overflow
        else wholeLoop rest (whole * 10 + d)

/-- The fractional digits: eight are kept, later ones must be zero. -/
def fractionLoop : Bytes → Int → Nat → Except DecimalParseError (Int × Nat)
  | [], fraction, digits => .ok (fraction, digits)
  | c :: rest, fraction, digits =>
      if !isDigit c then .error .invalidCharacter
      else if digits < 8 then fractionLoop rest (fraction * 10 + digitValue c) (digits + 1)
      else if c ≠ zeroByte then .error .nonZeroDiscardedDigit
      else fractionLoop rest fraction (digits + 1)

/-- `while (fractional_digits < 8) fraction *= 10`. -/
def padFraction (fraction : Int) (digits : Nat) : Int := fraction * 10 ^ (8 - digits)

def fractionPart : Bytes → Except DecimalParseError Int
  | [] => .ok 0
  | [_] => .error .missingFractionalDigits
  | _ :: rest => do
      let (fraction, digits) ← fractionLoop rest 0 0
      return padFraction fraction digits

end FixedPoint

open FixedPoint in
def parseDecimal1e8 (input : Bytes) : Except DecimalParseError Int :=
  match input with
  | [] => .error .empty
  | c :: _ =>
      if c = point then .error .missingIntegerDigits
      else do
        let (whole, rest) ← wholeLoop input 0
        let fraction ← fractionPart rest
        if whole > (int64Maximum - fraction) / decimalScale then .error .overflow
        else return whole * decimalScale + fraction

namespace FixedPoint

theorem wholeLoop_nonneg {input : Bytes} {whole w : Int} {rest : Bytes} (h₀ : 0 ≤ whole)
    (h : wholeLoop input whole = .ok (w, rest)) : 0 ≤ w := by
  induction input generalizing whole with
  | nil =>
      simp only [wholeLoop, Except.ok.injEq, Prod.mk.injEq] at h
      omega
  | cons c cs ih =>
      simp only [wholeLoop] at h
      split at h
      · simp only [Except.ok.injEq, Prod.mk.injEq] at h
        omega
      · split at h
        · cases h
        · split at h
          · cases h
          · exact ih (by omega) h

theorem fractionLoop_nonneg {input : Bytes} {fraction f : Int} {digits n : Nat}
    (h₀ : 0 ≤ fraction) (h : fractionLoop input fraction digits = .ok (f, n)) : 0 ≤ f := by
  induction input generalizing fraction digits with
  | nil =>
      simp only [fractionLoop, Except.ok.injEq, Prod.mk.injEq] at h
      omega
  | cons c cs ih =>
      simp only [fractionLoop] at h
      split at h
      · cases h
      · split at h
        · exact ih (by omega) h
        · split at h
          · cases h
          · exact ih h₀ h

theorem fractionPart_nonneg {rest : Bytes} {f : Int} (h : fractionPart rest = .ok f) : 0 ≤ f := by
  match rest, h with
  | [], h => cases h; exact le_refl 0
  | [_], h => cases h
  | _ :: c :: cs, h =>
      simp only [fractionPart, bind, Except.bind] at h
      cases hl : fractionLoop (c :: cs) 0 0 with
      | error e => simp [hl] at h
      | ok p =>
          simp only [hl, pure, Except.pure, Except.ok.injEq] at h
          rw [← h, padFraction]
          have := fractionLoop_nonneg (le_refl 0) hl
          positivity

end FixedPoint

/-- An accepted decimal is a non-negative value of the signed 64-bit range. -/
theorem parseDecimal1e8_range {input : Bytes} {v : Int} (h : parseDecimal1e8 input = .ok v) :
    0 ≤ v ∧ v ≤ int64Maximum := by
  unfold parseDecimal1e8 at h
  cases input with
  | nil => cases h
  | cons c cs =>
      simp only at h
      split at h
      · cases h
      · simp only [bind, Except.bind] at h
        cases hw : FixedPoint.wholeLoop (c :: cs) 0 with
        | error e => simp [hw] at h
        | ok p =>
            simp only [hw] at h
            cases hf : FixedPoint.fractionPart p.2 with
            | error e => simp [hf] at h
            | ok f =>
                simp only [hf] at h
                split at h
                · cases h
                · rename_i hle
                  simp only [pure, Except.pure, Except.ok.injEq] at h
                  have h1 := FixedPoint.wholeLoop_nonneg (le_refl 0) hw
                  have h2 := FixedPoint.fractionPart_nonneg hf
                  simp only [decimalScale, int64Maximum] at *
                  omega

end MarketCapture
