import MarketCapture.Lib.Json
import MarketCapture.Payload.Ondemand

/-! # Documents

What the On-Demand API answers about a valid document, by recursion on its syntax,
and what a library has to answer for it. The generic validation accepts a value
within the nesting limit unless a number or a null in it is followed by whitespace,
which the raw token of the library includes.
-/

namespace MarketCapture

open Simdjson JsonText
open ByteText (isDigit)

namespace JsonValidation

/-! ## Numbers -/

/-- The text does not go on with a digit. -/
def NoDigit (bytes : Bytes) : Prop := ∀ b ∈ bytes.head?, isDigit b = false

theorem digits_append {ds rest : Bytes} (hds : Digits ds) (hrest : NoDigit rest) :
    digits (ds ++ rest) = rest := by
  rw [digits, List.dropWhile_append_of_pos hds]
  cases rest with
  | nil => rfl
  | cons b rest =>
      have := hrest b rfl
      simp [this]

/-- The digits that are dropped, and that no digit is left. -/
theorem digits_split (bytes : Bytes) :
    ∃ ds, bytes = ds ++ digits bytes ∧ Digits ds ∧ NoDigit (digits bytes) := by
  refine ⟨bytes.takeWhile isDigit, List.takeWhile_append_dropWhile.symm, ?_, ?_⟩
  · intro b hb
    have hall := List.all_takeWhile (p := isDigit) (l := bytes)
    exact List.all_eq_true.mp hall b hb
  · intro b hb
    have := List.head?_dropWhile_not isDigit bytes
    rw [digits] at hb
    simp only [Option.mem_def] at hb
    rw [hb] at this
    simpa using this

/-- The digit runs of the scanner: at least one digit, and no digit after it. -/
theorem digitRun_eq_some {bytes rest : Bytes} :
    (if (digits bytes).length = bytes.length then none else some (digits bytes)) = some rest ↔
      ∃ ds, bytes = ds ++ rest ∧ ds ≠ [] ∧ Digits ds ∧ NoDigit rest := by
  constructor
  · intro h
    by_cases hlen : (digits bytes).length = bytes.length
    · simp [hlen] at h
    · rw [if_neg hlen] at h
      obtain ⟨ds, hds, hdigits, hno⟩ := digits_split bytes
      obtain rfl := Option.some.inj h
      refine ⟨ds, hds, ?_, hdigits, hno⟩
      rintro rfl
      rw [List.nil_append] at hds
      exact hlen (congrArg List.length hds.symm)
  · rintro ⟨ds, rfl, hne, hds, hno⟩
    have hlen := List.length_pos_iff.mpr hne
    rw [digits_append hds hno, List.length_append, if_neg (by omega)]

theorem isExponent_noDigit {exponent : Bytes} (h : IsExponent exponent) : NoDigit exponent := by
  rcases h with rfl | ⟨e, sign, ds, rfl, he, -⟩
  · simp [NoDigit]
  · rcases he with rfl | rfl <;> simp [NoDigit] <;> decide

theorem isFraction_noDigit {fraction exponent : Bytes} (hf : IsFraction fraction)
    (he : IsExponent exponent) : NoDigit (fraction ++ exponent) := by
  rcases hf with rfl | ⟨ds, rfl, -⟩
  · exact isExponent_noDigit he
  · simp [NoDigit]
    decide

theorem isInteger_head {integer : Bytes} (h : IsInteger integer) :
    ∃ first rest, integer = first :: rest ∧ isDigit first = true := by
  rcases h with rfl | ⟨first, rest, rfl, hfirst, -⟩
  · exact ⟨48, [], rfl, rfl⟩
  · exact ⟨first, rest, rfl, hfirst⟩

theorem integerPart_append {sign integer rest : Bytes} (hs : sign = [] ∨ sign = [45])
    (hi : IsInteger integer) (hrest : NoDigit rest) :
    integerPart (sign ++ (integer ++ rest)) = some rest := by
  -- after the sign the text starts with a digit, so no second sign is taken
  have hunsigned : (if (sign ++ (integer ++ rest)).head? = some 45 then
      (sign ++ (integer ++ rest)).tail else sign ++ (integer ++ rest)) = integer ++ rest := by
    obtain ⟨first, tail, rfl, hfirst⟩ := isInteger_head hi
    have hne : first ≠ 45 := by
      rintro rfl
      cases hfirst
    rcases hs with rfl | rfl
    · simp [hne]
    · simp
  rw [integerPart, hunsigned]
  rcases hi with rfl | ⟨first, tail, rfl, hfirst, hzero, htail⟩
  · cases rest with
    | nil => rfl
    | cons b rest =>
        have := hrest b rfl
        simp [this]
  · simp only [isDigit, decide_eq_true_eq] at hfirst
    have hrange : ¬(first.toNat < 49 ∨ 57 < first.toNat) := by
      have : first.toNat ≠ 48 := fun h => hzero (UInt8.toNat_inj.mp h)
      omega
    simp only [List.cons_append, hzero, ↓reduceIte, hrange, digits_append htail hrest]

theorem integerPart_split {token rest : Bytes} (h : integerPart token = some rest) :
    ∃ sign integer, token = sign ++ (integer ++ rest) ∧ (sign = [] ∨ sign = [45]) ∧
      IsInteger integer := by
  have hsign : ∃ sign, token = sign ++
      (if token.head? = some 45 then token.tail else token) ∧ (sign = [] ∨ sign = [45]) := by
    split
    · rename_i hhead
      obtain ⟨tail, rfl⟩ := List.head?_eq_some_iff.mp hhead
      exact ⟨[45], rfl, .inr rfl⟩
    · exact ⟨[], rfl, .inl rfl⟩
  obtain ⟨sign, htoken, hs⟩ := hsign
  rw [integerPart] at h
  generalize (if token.head? = some 45 then token.tail else token) = unsigned at h htoken
  cases unsigned with
  | nil => cases h
  | cons c tail =>
      simp only at h
      split at h
      · rename_i hc
        split at h
        · cases h
        · obtain rfl := Option.some.inj h
          exact ⟨sign, [c], htoken, hs, .inl (by rw [hc])⟩
      · rename_i hc
        split at h
        · cases h
        · rename_i hrange
          obtain ⟨ds, hds, hdigits, -⟩ := digits_split tail
          obtain rfl := Option.some.inj h
          refine ⟨sign, c :: ds, ?_, hs, .inr ⟨c, ds, rfl, ?_, hc, hdigits⟩⟩
          · rw [htoken, List.cons_append, ← hds]
          · simp only [isDigit, decide_eq_true_eq]
            omega

theorem fractionPart_append {fraction exponent : Bytes} (hf : IsFraction fraction)
    (he : IsExponent exponent) : fractionPart (fraction ++ exponent) = some exponent := by
  rcases hf with rfl | ⟨ds, rfl, hne, hds⟩
  · rcases he with rfl | ⟨e, sign, ds, rfl, he, -⟩
    · rfl
    · rcases he with rfl | rfl <;> rfl
  · rw [fractionPart, if_pos (by rfl)]
    exact digitRun_eq_some.mpr ⟨ds, rfl, hne, hds, isExponent_noDigit he⟩

theorem fractionPart_split {token rest : Bytes} (h : fractionPart token = some rest) :
    ∃ fraction, token = fraction ++ rest ∧ IsFraction fraction := by
  by_cases hhead : token.head? = some 46
  · obtain ⟨tail, rfl⟩ := List.head?_eq_some_iff.mp hhead
    rw [fractionPart, if_pos hhead] at h
    obtain ⟨ds, htail, hne, hds, -⟩ := digitRun_eq_some.mp h
    refine ⟨46 :: ds, ?_, .inr ⟨ds, rfl, hne, hds⟩⟩
    rw [List.cons_append, ← htail, List.tail_cons]
  · rw [fractionPart, if_neg hhead] at h
    obtain rfl := Option.some.inj h
    exact ⟨[], rfl, .inl rfl⟩

theorem exponentPart_complete {exponent : Bytes} (h : IsExponent exponent) :
    exponentPart exponent = some [] := by
  rcases h with rfl | ⟨e, sign, ds, rfl, he, hs, hne, hds⟩
  · rfl
  · have hunsigned : (if (sign ++ ds).head? = some 43 ∨ (sign ++ ds).head? = some 45 then
        (sign ++ ds).tail else sign ++ ds) = ds := by
      obtain ⟨d, rest, rfl⟩ := List.exists_cons_of_ne_nil hne
      have hd := hds d List.mem_cons_self
      have hplus : d ≠ 43 := by rintro rfl; cases hd
      have hminus : d ≠ 45 := by rintro rfl; cases hd
      rcases hs with rfl | rfl | rfl
      · simp [hplus, hminus]
      · simp
      · simp
    have he' : (e :: (sign ++ ds)).head? = some 101 ∨ (e :: (sign ++ ds)).head? = some 69 := by
      rcases he with rfl | rfl <;> simp
    rw [exponentPart, if_pos he']
    refine digitRun_eq_some.mpr ⟨ds, ?_, hne, hds, by simp [NoDigit]⟩
    rw [List.tail_cons, hunsigned, List.append_nil]

theorem exponentPart_split {token rest : Bytes} (h : exponentPart token = some rest) :
    ∃ exponent, token = exponent ++ rest ∧ IsExponent exponent := by
  by_cases hhead : token.head? = some 101 ∨ token.head? = some 69
  · obtain ⟨e, tail, rfl, he⟩ : ∃ e tail, token = e :: tail ∧ (e = 101 ∨ e = 69) := by
      rcases hhead with hhead | hhead
      · obtain ⟨tail, rfl⟩ := List.head?_eq_some_iff.mp hhead
        exact ⟨_, tail, rfl, .inl rfl⟩
      · obtain ⟨tail, rfl⟩ := List.head?_eq_some_iff.mp hhead
        exact ⟨_, tail, rfl, .inr rfl⟩
    have hsign : ∃ sign, tail = sign ++
        (if tail.head? = some 43 ∨ tail.head? = some 45 then tail.tail else tail) ∧
        (sign = [] ∨ sign = [43] ∨ sign = [45]) := by
      split
      · rename_i hhead'
        rcases hhead' with hhead' | hhead'
        · obtain ⟨t, rfl⟩ := List.head?_eq_some_iff.mp hhead'
          exact ⟨[43], rfl, .inr (.inl rfl)⟩
        · obtain ⟨t, rfl⟩ := List.head?_eq_some_iff.mp hhead'
          exact ⟨[45], rfl, .inr (.inr rfl)⟩
      · exact ⟨[], rfl, .inl rfl⟩
    obtain ⟨sign, htail, hs⟩ := hsign
    rw [exponentPart, if_pos hhead] at h
    obtain ⟨ds, hunsigned, hne, hds, -⟩ := digitRun_eq_some.mp h
    rw [List.tail_cons] at hunsigned
    rw [hunsigned] at htail
    refine ⟨e :: (sign ++ ds), ?_, .inr ⟨e, sign, ds, rfl, he, hs, hne, hds⟩⟩
    rw [htail]
    simp
  · rw [exponentPart, if_neg hhead] at h
    obtain rfl := Option.some.inj h
    exact ⟨[], rfl, .inl rfl⟩

/-- The scanner accepts exactly the numbers of the grammar. -/
theorem isValidJsonNumberToken_iff (token : Bytes) :
    isValidJsonNumberToken token = true ↔ IsNumber token := by
  constructor
  · intro h
    unfold isValidJsonNumberToken at h
    split at h
    · rename_i hparts
      obtain ⟨a, ha, hparts⟩ := Option.bind_eq_some_iff.mp hparts
      obtain ⟨b, hb, hc⟩ := Option.bind_eq_some_iff.mp hparts
      obtain ⟨sign, integer, htoken, hs, hi⟩ := integerPart_split ha
      obtain ⟨fraction, rfl, hf⟩ := fractionPart_split hb
      obtain ⟨exponent, rfl, he⟩ := exponentPart_split hc
      exact ⟨sign, integer, fraction, exponent, by simpa using htoken, hs, hi, hf, he⟩
    · cases h
  · rintro ⟨sign, integer, fraction, exponent, rfl, hs, hi, hf, he⟩
    have hint := integerPart_append hs hi (isFraction_noDigit hf he)
    simp only [isValidJsonNumberToken, hint, Option.bind_some, fractionPart_append hf he,
      exponentPart_complete he]

/-- Bytes that occur in numbers. -/
def numberByte (b : UInt8) : Bool := isDigit b || b = 45 || b = 43 || b = 46 || b = 101 || b = 69

theorem isNumber_bytes {token : Bytes} (h : IsNumber token) : ∀ b ∈ token, numberByte b = true := by
  have hdigits : ∀ {ds : Bytes}, Digits ds → ∀ b ∈ ds, numberByte b = true := by
    intro ds hds b hb
    simp [numberByte, hds b hb]
  obtain ⟨sign, integer, fraction, exponent, rfl, hs, hi, hf, he⟩ := h
  simp only [List.mem_append]
  rintro b (hb | hb | hb | hb)
  · rcases hs with rfl | rfl
    · cases hb
    · rw [List.mem_singleton.mp hb]
      rfl
  · rcases hi with rfl | ⟨first, rest, rfl, hfirst, -, hrest⟩
    · rw [List.mem_singleton.mp hb]
      rfl
    · rcases List.mem_cons.mp hb with rfl | hb
      · simp [numberByte, hfirst]
      · exact hdigits hrest b hb
  · rcases hf with rfl | ⟨ds, rfl, -, hds⟩
    · cases hb
    · rcases List.mem_cons.mp hb with rfl | hb
      · rfl
      · exact hdigits hds b hb
  · rcases he with rfl | ⟨e, s, ds, rfl, he, hs, -, hds⟩
    · cases hb
    · rcases List.mem_cons.mp hb with rfl | hb
      · rcases he with rfl | rfl <;> rfl
      · rcases List.mem_append.mp hb with hb | hb
        · rcases hs with rfl | rfl | rfl
          · cases hb
          · rw [List.mem_singleton.mp hb]
            rfl
          · rw [List.mem_singleton.mp hb]
            rfl
        · exact hdigits hds b hb

/-- A number followed by whitespace is not a number token. -/
theorem isValidJsonNumberToken_spaced {token after : Bytes} (h : IsNumber token)
    (hspace : Spaces after) :
    isValidJsonNumberToken (token ++ after) = true ↔ after = [] := by
  constructor
  · intro hvalid
    by_contra hne
    obtain ⟨b, rest, rfl⟩ := List.exists_cons_of_ne_nil hne
    have hb := isNumber_bytes ((isValidJsonNumberToken_iff _).mp hvalid) b (by simp)
    have hs := hspace b List.mem_cons_self
    simp only [isSpace, Bool.or_eq_true, decide_eq_true_eq] at hs
    rcases hs with ((rfl | rfl) | rfl) | rfl <;> cases hb
  · rintro rfl
    rw [List.append_nil]
    exact (isValidJsonNumberToken_iff token).mpr h

end JsonValidation

namespace Simdjson

/-! ## Answers -/

/-- `get_uint64`: digits only, within 64 bits. -/
def uint64Answer (token : Bytes) : Except ErrorCode UInt64 :=
  match ByteText.parseDigits token with
  | some n => if n < 2 ^ 64 then .ok (UInt64.ofNat n) else .error .incorrectType
  | none => .error .incorrectType

/-- `get_string` and `unescaped_key`. -/
def stringAnswer (raw : Bytes) : Except ErrorCode Bytes :=
  match decodeString raw with
  | some content => .ok content
  | none => .error (.other 0)

mutual

def valueOf : Node → Value
  | .null after =>
      let token := ascii "null" ++ after
      .mk { type := .ok .null, rawJsonToken := token, rawJson := .ok token }
        (.error .incorrectType) (.error .incorrectType)
  | .bool value after =>
      let token := boolText value ++ after
      .mk { type := .ok .boolean, bool := .ok value, rawJsonToken := token, rawJson := .ok token }
        (.error .incorrectType) (.error .incorrectType)
  | .number number after =>
      let token := number ++ after
      .mk { type := .ok .number, uint64 := uint64Answer number, rawJsonToken := token,
            rawJson := .ok token }
        (.error .incorrectType) (.error .incorrectType)
  | .string raw after =>
      let token := 34 :: (raw ++ 34 :: after)
      .mk { type := .ok .string, string := stringAnswer raw, rawJsonToken := token,
            rawJson := .ok token }
        (.error .incorrectType) (.error .incorrectType)
  | .array opened items closed =>
      .mk { type := .ok .array, rawJsonToken := 91 :: opened,
            rawJson := .ok (Node.array opened items closed).text }
        (elementsOf items) (.error .incorrectType)
  | .object opened members closed =>
      .mk { type := .ok .object, rawJsonToken := 123 :: opened,
            rawJson := .ok (Node.object opened members closed).text }
        (.error .incorrectType) (fieldsOf members)

def elementsOf : Items → Elements
  | .nil => .done
  | .cons value _ rest => .next (valueOf value) (elementsOf rest)

def fieldsOf : Members → Fields
  | .nil => .done
  | .cons key _ _ value _ rest => .next (stringAnswer key) (valueOf value) (fieldsOf rest)

end

end Simdjson

namespace JsonValidation

/-! ## Validation of documents -/

mutual

/-- A number or a null in the value is followed by whitespace. -/
def Trailed : Node → Prop
  | .null after => after ≠ []
  | .bool .. => False
  | .number _ after => after ≠ []
  | .string .. => False
  | .array _ items _ => TrailedItems items
  | .object _ members _ => TrailedMembers members

def TrailedItems : Items → Prop
  | .nil => False
  | .cons value _ rest => Trailed value ∨ TrailedItems rest

def TrailedMembers : Members → Prop
  | .nil => False
  | .cons _ _ _ value _ rest => Trailed value ∨ TrailedMembers rest

end

theorem stringAnswer_of_isString {raw : Bytes} (h : IsString raw) :
    ∃ content, decodeString raw = some content ∧ stringAnswer raw = .ok content := by
  obtain ⟨content, hcontent⟩ := Option.isSome_iff_exists.mp h.2
  exact ⟨content, hcontent, by simp [stringAnswer, hcontent]⟩

/-- An error of the generic validation that is not about nesting. -/
def TokenError (e : ErrorCode) : Prop := e = .numberError ∨ e = .nAtomError

/-- The outcome of a validation: `bad` if and only if it fails, with a token error. -/
def Outcome (result : Option ErrorCode) (bad : Prop) : Prop :=
  (result = none ∧ ¬bad) ∨ (∃ e, result = some e ∧ TokenError e ∧ bad)

mutual

theorem validateValue_outcome (node : Node) (depth : Nat) (h : node.WellFormed)
    (hdepth : node.depth + depth ≤ maxJsonNestingDepth + 1) :
    Outcome (validateValue (valueOf node) depth) (Trailed node) := by
  match node with
  | .null after =>
      by_cases hafter : after = []
      · exact .inl ⟨by simp [valueOf, validateValue, hafter], by simp [Trailed, hafter]⟩
      · exact .inr ⟨.nAtomError, by simp [valueOf, validateValue, hafter], .inr rfl, hafter⟩
  | .bool value after => exact .inl ⟨by simp [valueOf, validateValue], by simp [Trailed]⟩
  | .number token after =>
      simp only [Node.WellFormed] at h
      have hiff := isValidJsonNumberToken_spaced h.1 h.2
      by_cases hafter : after = []
      · refine .inl ⟨?_, by simp [Trailed, hafter]⟩
        simp only [valueOf, validateValue, hiff.mpr hafter, ↓reduceIte]
      · refine .inr ⟨.numberError, ?_, .inl rfl, hafter⟩
        have : ¬isValidJsonNumberToken (token ++ after) = true := fun hv => hafter (hiff.mp hv)
        simp only [valueOf, validateValue, this, Bool.false_eq_true, ↓reduceIte]
  | .string raw after =>
      simp only [Node.WellFormed] at h
      obtain ⟨content, -, hcontent⟩ := stringAnswer_of_isString h.1
      exact .inl ⟨by simp [valueOf, validateValue, hcontent], by simp [Trailed]⟩
  | .array opened items closed =>
      simp only [Node.WellFormed] at h
      simp only [Node.depth] at hdepth
      simp only [valueOf, validateValue, Trailed]
      rw [if_neg (by omega)]
      exact validateElements_outcome items (depth + 1) h.2.1 (by omega)
  | .object opened members closed =>
      simp only [Node.WellFormed] at h
      simp only [Node.depth] at hdepth
      simp only [valueOf, validateValue, Trailed]
      rw [if_neg (by omega)]
      exact validateFields_outcome members (depth + 1) h.2.1 (by omega)

theorem validateElements_outcome (items : Items) (depth : Nat) (h : items.WellFormed)
    (hdepth : items.depth + depth ≤ maxJsonNestingDepth + 1) :
    Outcome (validateElements (elementsOf items) depth) (TrailedItems items) := by
  match items with
  | .nil => exact .inl ⟨by simp [elementsOf, validateElements], by simp [TrailedItems]⟩
  | .cons value commaAfter rest =>
      simp only [Items.WellFormed] at h
      simp only [Items.depth] at hdepth
      simp only [elementsOf, validateElements, TrailedItems]
      rcases validateValue_outcome value depth h.1 (by omega) with ⟨hv, hgood⟩ | ⟨e, hv, he, hbad⟩
      · rw [hv]
        simp only [hgood, false_or]
        exact validateElements_outcome rest depth h.2.2 (by omega)
      · rw [hv]
        exact .inr ⟨e, rfl, he, .inl hbad⟩

theorem validateFields_outcome (members : Members) (depth : Nat) (h : members.WellFormed)
    (hdepth : members.depth + depth ≤ maxJsonNestingDepth + 1) :
    Outcome (validateFields (fieldsOf members) depth) (TrailedMembers members) := by
  match members with
  | .nil => exact .inl ⟨by simp [fieldsOf, validateFields], by simp [TrailedMembers]⟩
  | .cons key keyAfter colonAfter value commaAfter rest =>
      simp only [Members.WellFormed] at h
      simp only [Members.depth] at hdepth
      obtain ⟨content, -, hcontent⟩ := stringAnswer_of_isString h.1
      simp only [fieldsOf, validateFields, TrailedMembers, hcontent]
      rcases validateValue_outcome value depth h.2.2.2.1 (by omega) with
        ⟨hv, hgood⟩ | ⟨e, hv, he, hbad⟩
      · rw [hv]
        simp only [hgood, false_or]
        exact validateFields_outcome rest depth h.2.2.2.2.2 (by omega)
      · rw [hv]
        exact .inr ⟨e, rfl, he, .inl hbad⟩

end

/-! ## Compact values -/

mutual

theorem not_trailed_strip (node : Node) : ¬Trailed node.strip := by
  match node with
  | .null _ => simp [Node.strip, Trailed]
  | .bool _ _ => simp [Node.strip, Trailed]
  | .number _ _ => simp [Node.strip, Trailed]
  | .string _ _ => simp [Node.strip, Trailed]
  | .array _ items _ =>
      simp only [Node.strip, Trailed]
      exact not_trailedItems_strip items
  | .object _ members _ =>
      simp only [Node.strip, Trailed]
      exact not_trailedMembers_strip members

theorem not_trailedItems_strip (items : Items) : ¬TrailedItems items.strip := by
  match items with
  | .nil => simp [Items.strip, TrailedItems]
  | .cons value _ rest =>
      simp only [Items.strip, TrailedItems, not_or]
      exact ⟨not_trailed_strip value, not_trailedItems_strip rest⟩

theorem not_trailedMembers_strip (members : Members) : ¬TrailedMembers members.strip := by
  match members with
  | .nil => simp [Members.strip, TrailedMembers]
  | .cons _ _ _ value _ rest =>
      simp only [Members.strip, TrailedMembers, not_or]
      exact ⟨not_trailed_strip value, not_trailedMembers_strip rest⟩

end

/-- A compact value within the nesting limit passes the generic validation. -/
theorem validateValue_compact {node : Node} {depth : Nat} (h : node.WellFormed)
    (hcompact : node.strip = node) (hdepth : node.depth + depth ≤ maxJsonNestingDepth + 1) :
    validateValue (valueOf node) depth = none := by
  have hgood : ¬Trailed node := by
    rw [← hcompact]
    exact not_trailed_strip node
  rcases validateValue_outcome node depth h hdepth with ⟨hv, -⟩ | ⟨e, -, -, hbad⟩
  · exact hv
  · exact absurd hbad hgood

end JsonValidation

/-! ## Objects by their members -/

/-- The content of a string value. -/
def stringContent : Node → Option Bytes
  | .string raw _ => decodeString raw
  | _ => none

/-- The key of a member as it is compared. -/
def keyOf (m : Member) : Bytes := (decodeString m.key).getD []

theorem decodeString_key {m : Member} (h : m.WellFormed) : decodeString m.key = some (keyOf m) := by
  obtain ⟨key, hkey, -⟩ := JsonValidation.stringAnswer_of_isString h.1
  simp [keyOf, hkey]

/-- Valid members without insignificant whitespace, within the limits on size and
on open containers. -/
structure CompactObject (fields : List Member) : Prop where
  valid : ∀ m ∈ fields, m.WellFormed
  compact : ∀ m ∈ fields, m.strip = m
  bounded : (objectNode fields).text.length ≤ maxPayloadBytes
  nested : (objectNode fields).depth ≤ maxJsonNestingDepth

namespace CompactObject

theorem text_length {fields : List Member} (h : ∀ m ∈ fields, m.strip = m) :
    (objectNode fields).text.length =
      (fields.map fun m => m.text.length).sum + (fields.length - 1) + 2 := by
  have hcomma : ∀ m ∈ fields, m.commaAfter = [] := by
    intro m hm
    have := congrArg Member.commaAfter (h m hm)
    simpa [Member.strip] using this.symm
  simp [objectNode, Node.text, Members.ofList_text_length fields hcomma]

theorem perm {fields fields' : List Member} (hperm : fields'.Perm fields)
    (h : CompactObject fields) : CompactObject fields' where
  valid := fun m hm => h.valid m (hperm.mem_iff.mp hm)
  compact := fun m hm => h.compact m (hperm.mem_iff.mp hm)
  bounded := by
    have hb := h.bounded
    rw [text_length h.compact] at hb
    rw [text_length (fun m hm => h.compact m (hperm.mem_iff.mp hm)),
      (hperm.map fun m => m.text.length).sum_eq, hperm.length_eq]
    exact hb
  nested := by
    have hn := h.nested
    simp only [objectNode, Node.depth] at hn ⊢
    have hall := (Members.ofList_depth_le fields (maxJsonNestingDepth - 1)).mp (by omega)
    have := (Members.ofList_depth_le fields' (maxJsonNestingDepth - 1)).mpr
      (fun m hm => hall m (hperm.mem_iff.mp hm))
    have hlimit : maxJsonNestingDepth = 64 := rfl
    omega

theorem text_length_perm {fields fields' : List Member} (hperm : fields'.Perm fields)
    (h : CompactObject fields) :
    (objectNode fields').text.length = (objectNode fields).text.length := by
  rw [text_length h.compact, text_length (h.perm hperm).compact,
    (hperm.map fun m => m.text.length).sum_eq, hperm.length_eq]

theorem value_depth {fields : List Member} (h : CompactObject fields) {m : Member} (hm : m ∈ fields) :
    m.value.depth + 2 ≤ maxJsonNestingDepth + 1 := by
  have hn := h.nested
  simp only [objectNode, Node.depth] at hn
  have := (Members.ofList_depth_le fields (maxJsonNestingDepth - 1)).mp (by omega) m hm
  have hlimit : maxJsonNestingDepth = 64 := rfl
  omega

theorem value_compact {fields : List Member} (h : CompactObject fields) {m : Member}
    (hm : m ∈ fields) : m.value.strip = m.value := by
  simpa [Member.strip] using congrArg Member.value (h.compact m hm)

end CompactObject

/-- The library knows the object and minifies its values. -/
structure Simdjson.Library.Reads (json : Library) (fields : List Member) : Prop where
  iterate : json.iterate (objectNode fields).text = .ok (valueOf (objectNode fields))
  minify : ∀ m ∈ fields, json.minify m.value.text = .ok m.value.strip.text

/-- The library on a set of compact documents. -/
def Simdjson.Library.ofNodes (documents : List Node) : Library where
  iterate text :=
    match documents.find? (fun d => decide (d.text = text)) with
    | some d => .ok (valueOf d)
    | none => .error (.other 0)
  minify text := .ok text

/-- The values under a key, in order. -/
def valuesOf (key : Bytes) (fields : List Member) : List Node :=
  (fields.filter fun m => decide (decodeString m.key = some key)).map Member.value

theorem valuesOf_append (key : Bytes) (fields fields' : List Member) :
    valuesOf key (fields ++ fields') = valuesOf key fields ++ valuesOf key fields' := by
  simp [valuesOf]

theorem valuesOf_single (key : Bytes) (m : Member) :
    valuesOf key [m] = if decodeString m.key = some key then [m.value] else [] := by
  by_cases h : decodeString m.key = some key <;> simp [valuesOf, h]

theorem valuesOf_perm (key : Bytes) {fields fields' : List Member} (h : fields'.Perm fields) :
    (valuesOf key fields').Perm (valuesOf key fields) :=
  (h.filter _).map _

theorem mem_valuesOf {key : Bytes} {fields : List Member} {node : Node}
    (h : node ∈ valuesOf key fields) : ∃ m ∈ fields, m.value = node := by
  obtain ⟨m, hm, hnode⟩ := List.mem_map.mp h
  exact ⟨m, (List.mem_filter.mp hm).1, hnode⟩

end MarketCapture
