import MarketCapture.Lib.Cursor
import MarketCapture.Payload.Document

/-! # The number scanner

`is_valid_json_number_token` with its index into the token. A read past the end of the
token is `none`, so a result is also the statement that every read was in range. The
scanner is the one on suffixes, which accepts the numbers of the grammar.
-/

namespace MarketCapture

open Simdjson JsonText
open ByteText (isDigit)

namespace JsonValidation

open Cursor (sees skipWhile)

/-- The integer part from an index: refused, or the index after it. -/
def scanInteger (token : Bytes) (index : Nat) : Option (Option Nat) :=
  if index = token.length then some none
  else do
    let first ← token[index]?
    if first = 48 then
      if ← sees token (index + 1) isDigit then return none else return some (index + 1)
    else if first.toNat < 49 ∨ 57 < first.toNat then return none
    else return some (← skipWhile token isDigit (token.length + 1) (index + 1))

/-- The digits after a point or an exponent: at least one. -/
def scanDigits (token : Bytes) (start : Nat) : Option (Option Nat) := do
  let index ← skipWhile token isDigit (token.length + 1) start
  if index = start then return none else return some index

def scanFraction (token : Bytes) (index : Nat) : Option (Option Nat) := do
  if ← sees token index (fun b => b = 46) then scanDigits token (index + 1)
  else return some index

def scanExponent (token : Bytes) (index : Nat) : Option (Option Nat) := do
  if ← sees token index (fun b => b = 101 || b = 69) then
    if ← sees token (index + 1) (fun b => b = 43 || b = 45) then scanDigits token (index + 2)
    else scanDigits token (index + 1)
  else return some index

/-- `is_valid_json_number_token`. -/
def scanJsonNumberToken (token : Bytes) : Option Bool := do
  let signed ← sees token 0 (fun b => b = 45)
  let some index ← scanInteger token (if signed then 1 else 0) | return false
  let some index ← scanFraction token index | return false
  let some index ← scanExponent token index | return false
  return decide (index = token.length)

/-- A part of the scan reads in range and does what the part on suffixes does. -/
def Reads (token : Bytes) (part : Option (Option Nat)) (rest : Option Bytes) : Prop :=
  ∃ r, part = some r ∧ (∀ index ∈ r, index ≤ token.length) ∧ r.map token.drop = rest

theorem scanDigits_reads {token : Bytes} {start : Nat} (h : start ≤ token.length) :
    Reads token (scanDigits token start)
      (if (digits (token.drop start)).length = (token.drop start).length then none
        else some (digits (token.drop start))) := by
  obtain ⟨index, hloop, hle, hbound, hrest⟩ :=
    Cursor.skipWhile_spec isDigit (token.length + 1) h (by omega)
  have hlength : (digits (token.drop start)).length = token.length - index := by
    rw [digits, ← hrest, List.length_drop]
  unfold scanDigits
  rw [hloop, hlength, List.length_drop]
  by_cases hsame : index = start
  · refine ⟨none, by simp [hsame], by simp, ?_⟩
    rw [if_pos (by omega)]
    rfl
  · refine ⟨some index, by simp [hsame], by simpa using hbound, ?_⟩
    rw [if_neg (by omega), digits, ← hrest]
    rfl

theorem scanInteger_reads {token : Bytes} {index : Nat} (h : index ≤ token.length)
    (hunsigned : (if token.head? = some 45 then token.tail else token) = token.drop index) :
    Reads token (scanInteger token index) (integerPart token) := by
  unfold scanInteger integerPart
  rw [hunsigned]
  by_cases hend : index = token.length
  · rw [if_pos hend, hend, List.drop_length]
    exact ⟨none, rfl, by simp, rfl⟩
  · have hlt : index < token.length := by omega
    rw [if_neg hend, List.getElem?_eq_getElem hlt, List.drop_eq_getElem_cons hlt]
    dsimp only
    by_cases hzero : token[index] = 48
    · simp only [hzero, Option.bind_eq_bind, Option.bind_some, ↓reduceIte, Cursor.sees_eq]
      cases (token.drop (index + 1)).head?.any isDigit with
      | true => exact ⟨none, rfl, by simp, rfl⟩
      | false => exact ⟨some (index + 1), rfl, by simpa using hlt, rfl⟩
    · by_cases hrange : token[index].toNat < 49 ∨ 57 < token[index].toNat
      · simp only [hzero, hrange, Option.bind_eq_bind, Option.bind_some, ↓reduceIte]
        exact ⟨none, rfl, by simp, rfl⟩
      · obtain ⟨next, hloop, -, hbound, hrest⟩ :=
          Cursor.skipWhile_spec isDigit (token.length + 1) (Nat.succ_le_of_lt hlt) (by omega)
        simp only [hzero, hrange, Option.bind_eq_bind, Option.bind_some, ↓reduceIte, hloop]
        exact ⟨some next, rfl, by simpa using hbound, by rw [digits, ← hrest]; rfl⟩

theorem scanFraction_reads {token : Bytes} {index : Nat} (h : index ≤ token.length) :
    Reads token (scanFraction token index) (fractionPart (token.drop index)) := by
  unfold scanFraction fractionPart
  rw [Cursor.sees_eq]
  cases htest : (token.drop index).head?.any (fun b => b = 46) with
  | true =>
      obtain ⟨b, hdrop, hb, hlt⟩ := Cursor.drop_of_sees htest
      obtain rfl : b = 46 := by simpa using hb
      rw [hdrop]
      exact scanDigits_reads hlt
  | false =>
      have hno : (token.drop index).head? ≠ some 46 := by
        intro hhead
        rw [hhead] at htest
        cases htest
      rw [if_neg hno]
      exact ⟨some index, rfl, by simpa using h, rfl⟩

theorem scanExponent_reads {token : Bytes} {index : Nat} (h : index ≤ token.length) :
    Reads token (scanExponent token index) (exponentPart (token.drop index)) := by
  unfold scanExponent exponentPart
  rw [Cursor.sees_eq]
  cases htest : (token.drop index).head?.any (fun b => b = 101 || b = 69) with
  | true =>
      obtain ⟨e, hdrop, he, hlt⟩ := Cursor.drop_of_sees htest
      have hhead : e = 101 ∨ e = 69 := by simpa using he
      have hmark : (e :: token.drop (index + 1)).head? = some 101 ∨
          (e :: token.drop (index + 1)).head? = some 69 := by simpa using hhead
      rw [hdrop, if_pos hmark, List.tail_cons]
      simp only [Option.bind_eq_bind, Option.bind_some, ↓reduceIte, Cursor.sees_eq]
      cases hsign : (token.drop (index + 1)).head?.any (fun b => b = 43 || b = 45) with
      | true =>
          obtain ⟨b, hdrop', hb, hlt'⟩ := Cursor.drop_of_sees hsign
          have hhead' : b = 43 ∨ b = 45 := by simpa using hb
          have hunsigned : (if (token.drop (index + 1)).head? = some 43 ∨
              (token.drop (index + 1)).head? = some 45 then (token.drop (index + 1)).tail
              else token.drop (index + 1)) = token.drop (index + 2) := by
            rw [hdrop']
            exact if_pos (by simpa using hhead')
          rw [hunsigned]
          exact scanDigits_reads hlt'
      | false =>
          have hno : ¬((token.drop (index + 1)).head? = some 43 ∨
              (token.drop (index + 1)).head? = some 45) := by
            rintro (hhead' | hhead') <;> rw [hhead'] at hsign <;> cases hsign
          rw [if_neg hno]
          exact scanDigits_reads hlt
  | false =>
      have hno : ¬((token.drop index).head? = some 101 ∨ (token.drop index).head? = some 69) := by
        rintro (hhead | hhead) <;> rw [hhead] at htest <;> cases htest
      rw [if_neg hno]
      exact ⟨some index, rfl, by simpa using h, rfl⟩

/-- The scanner reads in range, and its answer is that of the scanner on suffixes. -/
theorem scanJsonNumberToken_eq (token : Bytes) :
    scanJsonNumberToken token = some (isValidJsonNumberToken token) := by
  have hsign : ∃ start, start ≤ token.length ∧
      (if (token.drop 0).head?.any (fun b => b = 45) = true then 1 else 0) = start ∧
      (if token.head? = some 45 then token.tail else token) = token.drop start := by
    cases token with
    | nil => exact ⟨0, le_refl _, rfl, rfl⟩
    | cons b rest =>
        by_cases hb : b = 45
        · exact ⟨1, by simp, by simp [hb], by simp [hb]⟩
        · exact ⟨0, Nat.zero_le _, by simp [hb], by simp [hb]⟩
  obtain ⟨start, hstart, heq, hunsigned⟩ := hsign
  obtain ⟨a, ha, habound, hainteger⟩ := scanInteger_reads hstart hunsigned
  unfold scanJsonNumberToken isValidJsonNumberToken
  rw [Cursor.sees_eq]
  simp only [Option.bind_eq_bind, Option.bind_some, heq, ha, ← hainteger]
  cases a with
  | none => rfl
  | some i =>
      have hi := habound i rfl
      obtain ⟨b, hb, hbbound, hbfraction⟩ := scanFraction_reads hi
      simp only [Option.map_some, Option.bind_some, hb, ← hbfraction]
      cases b with
      | none => rfl
      | some j =>
          have hj := hbbound j rfl
          obtain ⟨c, hc, hcbound, hcexponent⟩ := scanExponent_reads hj
          simp only [Option.map_some, Option.bind_some, hc, ← hcexponent]
          cases c with
          | none => rfl
          | some k =>
              have hk := hcbound k rfl
              simp only [Option.map_some]
              cases hrest : token.drop k with
              | nil =>
                  have hend := List.drop_eq_nil_iff.mp hrest
                  simp [Nat.le_antisymm hk hend]
              | cons b rest =>
                  have hlt : k ≠ token.length := by
                    rintro rfl
                    rw [List.drop_length] at hrest
                    cases hrest
                  simp [hlt]

/-- The scanner never reads past the end, and it accepts exactly the numbers of the
grammar. -/
theorem scanJsonNumberToken_grammar (token : Bytes) :
    ∃ accepted, scanJsonNumberToken token = some accepted ∧
      (accepted = true ↔ IsNumber token) :=
  ⟨_, scanJsonNumberToken_eq token, isValidJsonNumberToken_iff token⟩

example : scanJsonNumberToken (ascii "-0.5e+1") = some true := by decide
example : scanJsonNumberToken (ascii "1e-") = some false := by decide

end JsonValidation

end MarketCapture
