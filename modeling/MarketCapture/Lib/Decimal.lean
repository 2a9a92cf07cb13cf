import Mathlib.Tactic

/-! # Byte strings and decimal fields

Texts are lists of bytes. Integers are written in shortest base-ten form, with a
leading minus sign for negative values, and read back from a whole field: an
optional minus sign where the target type is signed, then at least one digit,
then the end of the field, with the value inside the target's range. Leading
zeros are accepted by the reader and never produced by the writer.
-/

namespace ByteText

abbrev Bytes := List UInt8

def ascii (text : String) : Bytes := text.toList.map (fun c => UInt8.ofNat c.toNat)

def minus : UInt8 := 45

def isDigit (b : UInt8) : Bool := decide (48 ≤ b.toNat ∧ b.toNat ≤ 57)

def digitValue (b : UInt8) : Nat := b.toNat - 48

def digit (d : Nat) : UInt8 := UInt8.ofNat (48 + d)

/-- Shortest base-ten text of a natural number. -/
def natText (n : Nat) : Bytes := (Nat.toDigits 10 n).map (fun c => UInt8.ofNat c.toNat)

/-- Shortest base-ten text of an integer. -/
def intText : Int → Bytes
  | .ofNat n => natText n
  | .negSucc n => minus :: natText (n + 1)

/-- Value of a digit string, most significant digit first. -/
def digitsValue (bs : Bytes) : Nat := bs.foldl (fun acc b => 10 * acc + digitValue b) 0

def parseDigits (bs : Bytes) : Option Nat :=
  if bs ≠ [] ∧ bs.all isDigit then some (digitsValue bs) else none

/-- Read a whole field as an integer of the range `[lo, hi]`. The minus sign is
part of the syntax only where the range is signed. -/
def parseInt (lo hi : Int) (field : Bytes) : Option Int :=
  if lo < 0 ∧ field.head? = some minus then
    match parseDigits field.tail with
    | some n => if lo ≤ -(n : Int) then some (-(n : Int)) else none
    | none => none
  else
    match parseDigits field with
    | some n => if (n : Int) ≤ hi then some (n : Int) else none
    | none => none

/-! ## Digits -/

theorem digitChar_byte (d : Nat) (h : d < 10) :
    UInt8.ofNat (Nat.digitChar d).toNat = digit d := by
  interval_cases d <;> rfl

theorem digit_toNat {d : Nat} (h : d < 10) : (digit d).toNat = 48 + d := by
  interval_cases d <;> rfl

theorem digit_isDigit {d : Nat} (h : d < 10) : isDigit (digit d) = true := by
  simp only [isDigit, digit_toNat h, decide_eq_true_eq]
  omega

theorem digitValue_digit {d : Nat} (h : d < 10) : digitValue (digit d) = d := by
  rw [digitValue, digit_toNat h]
  omega

/-- The last digit comes off the end. -/
theorem natText_eq (n : Nat) :
    natText n = (if n < 10 then [] else natText (n / 10)) ++ [digit (n % 10)] := by
  have hr : n % 10 < 10 := Nat.mod_lt n (by decide)
  by_cases h : n < 10
  · rw [if_pos h, natText, Nat.toDigits_of_lt_base h, Nat.mod_eq_of_lt h]
    simp [digitChar_byte n h]
  · rw [if_neg h, natText, Nat.toDigits_of_base_le (by decide) (by omega)]
    simp [natText, digitChar_byte _ hr]

theorem natText_ne_nil (n : Nat) : natText n ≠ [] := by
  rw [natText_eq]
  simp

theorem natText_digits (n : Nat) : ∀ b ∈ natText n, isDigit b = true := by
  induction n using Nat.strong_induction_on with
  | _ n ih =>
      intro b hb
      rw [natText_eq] at hb
      have hlast : isDigit (digit (n % 10)) = true := digit_isDigit (Nat.mod_lt _ (by omega))
      rcases List.mem_append.mp hb with hb | hb
      · by_cases hn : n < 10
        · simp [hn] at hb
        · rw [if_neg hn] at hb
          exact ih (n / 10) (by omega) b hb
      · rw [List.mem_singleton.mp hb]
        exact hlast

theorem digitsValue_append_digit (bs : Bytes) {d : Nat} (h : d < 10) :
    digitsValue (bs ++ [digit d]) = 10 * digitsValue bs + d := by
  simp [digitsValue, List.foldl_append, digitValue_digit h]

theorem digitsValue_natText (n : Nat) : digitsValue (natText n) = n := by
  induction n using Nat.strong_induction_on with
  | _ n ih =>
      rw [natText_eq, digitsValue_append_digit _ (Nat.mod_lt _ (by omega))]
      split
      · simp [digitsValue]
        omega
      · rw [ih (n / 10) (by omega)]
        omega

/-- Reading digits on from an accumulator. -/
theorem foldl_digits (acc : Nat) (bs : Bytes) :
    bs.foldl (fun acc b => 10 * acc + digitValue b) acc = acc * 10 ^ bs.length + digitsValue bs := by
  induction bs using List.reverseRecOn with
  | nil => simp [digitsValue]
  | append_singleton bs b ih =>
      have hlast : digitsValue (bs ++ [b]) = 10 * digitsValue bs + digitValue b := by
        simp [digitsValue]
      rw [List.foldl_append, ih, hlast]
      simp only [List.foldl_cons, List.foldl_nil, List.length_append, List.length_singleton, pow_succ]
      ring

theorem digitsValue_cons (b : UInt8) (bs : Bytes) :
    digitsValue (b :: bs) = digitValue b * 10 ^ bs.length + digitsValue bs := by
  rw [digitsValue, List.foldl_cons, foldl_digits]
  simp

theorem digitsValue_append (as bs : Bytes) :
    digitsValue (as ++ bs) = digitsValue as * 10 ^ bs.length + digitsValue bs := by
  rw [digitsValue, List.foldl_append, foldl_digits]
  rfl

theorem digitValue_le_nine {b : UInt8} (h : isDigit b = true) : digitValue b ≤ 9 := by
  simp only [isDigit, decide_eq_true_eq] at h
  simp only [digitValue]
  omega

theorem digitsValue_lt {bs : Bytes} (h : ∀ b ∈ bs, isDigit b = true) :
    digitsValue bs < 10 ^ bs.length := by
  induction bs with
  | nil => simp [digitsValue]
  | cons b bs ih =>
      have hb := digitValue_le_nine (h b (by simp))
      have hbs := ih fun c hc => h c (List.mem_cons_of_mem b hc)
      rw [digitsValue_cons, List.length_cons, pow_succ]
      nlinarith

/-- Zeros at the end only shift. -/
theorem digitsValue_zeros {bs : Bytes} (h : ∀ b ∈ bs, b = 48) : digitsValue bs = 0 := by
  induction bs with
  | nil => rfl
  | cons b bs ih =>
      rw [digitsValue_cons, h b (by simp), ih fun c hc => h c (List.mem_cons_of_mem b hc)]
      simp [digitValue]

theorem natText_length_le (n k : Nat) (h : n < 10 ^ (k + 1)) : (natText n).length ≤ k + 1 := by
  induction k generalizing n with
  | zero =>
      rw [natText_eq, if_pos (by simpa using h)]
      simp
  | succ k ih =>
      rw [natText_eq]
      split
      · simp
      · have hq : n / 10 < 10 ^ (k + 1) := by
          rw [pow_succ] at h
          omega
        simpa using ih (n / 10) hq

/-! ## Round trips -/

theorem isDigit_ne_minus {b : UInt8} (h : isDigit b = true) : b ≠ minus := by
  rintro rfl
  simp [isDigit, minus] at h

theorem intText_bytes (i : Int) : ∀ b ∈ intText i, isDigit b = true ∨ b = minus := by
  cases i with
  | ofNat n => exact fun b hb => .inl (natText_digits n b hb)
  | negSucc n =>
      intro b hb
      rcases List.mem_cons.mp hb with rfl | hb
      · exact .inr rfl
      · exact .inl (natText_digits (n + 1) b hb)

theorem intText_length_le {i : Int} {k : Nat} (h : i.natAbs < 10 ^ (k + 1)) :
    (intText i).length ≤ k + 2 := by
  cases i with
  | ofNat n => exact Nat.le_succ_of_le (natText_length_le n k h)
  | negSucc n => simpa [intText] using natText_length_le (n + 1) k h

/-! ## Accepted fields -/

/-- The syntax of an integer field and the value it denotes. -/
def IsDecimal (signed : Bool) (field : Bytes) (value : Int) : Prop :=
  ∃ ds : Bytes, ds ≠ [] ∧ (∀ b ∈ ds, isDigit b = true) ∧
    ((field = ds ∧ value = digitsValue ds) ∨
      (signed = true ∧ field = minus :: ds ∧ value = -(digitsValue ds : Int)))

theorem parseDigits_eq_some {bs : Bytes} {n : Nat} :
    parseDigits bs = some n ↔ bs ≠ [] ∧ (∀ b ∈ bs, isDigit b = true) ∧ n = digitsValue bs := by
  unfold parseDigits
  simp only [List.all_eq_true, Option.ite_none_right_eq_some, Option.some.injEq, and_assoc,
    @eq_comm _ (digitsValue bs) n]

theorem digits_head_ne_minus {ds : Bytes} (h : ∀ b ∈ ds, isDigit b = true) :
    ds.head? ≠ some minus := by
  intro hhead
  exact isDigit_ne_minus (h minus (List.mem_of_mem_head? hhead)) rfl

/-- The reader accepts exactly the fields of the syntax with a value in range. -/
theorem parseInt_eq_some_iff {lo hi value : Int} {field : Bytes} (hlo : lo ≤ 0) (hhi : 0 ≤ hi) :
    parseInt lo hi field = some value ↔
      IsDecimal (decide (lo < 0)) field value ∧ lo ≤ value ∧ value ≤ hi := by
  constructor
  · intro h
    unfold parseInt at h
    split at h
    · rename_i hneg
      split at h
      · rename_i n hn
        obtain ⟨hne, hall, rfl⟩ := parseDigits_eq_some.mp hn
        simp only [Option.ite_none_right_eq_some, Option.some.injEq] at h
        obtain ⟨hle, rfl⟩ := h
        refine ⟨⟨field.tail, hne, hall, .inr ⟨by simpa using hneg.1, ?_, rfl⟩⟩, hle, by omega⟩
        obtain ⟨rest, hrest⟩ := List.head?_eq_some_iff.mp hneg.2
        simp [hrest]
      · cases h
    · split at h
      · rename_i n hn
        obtain ⟨hne, hall, rfl⟩ := parseDigits_eq_some.mp hn
        simp only [Option.ite_none_right_eq_some, Option.some.injEq] at h
        obtain ⟨hle, rfl⟩ := h
        exact ⟨⟨field, hne, hall, .inl ⟨rfl, rfl⟩⟩, by omega, hle⟩
      · cases h
  · rintro ⟨⟨ds, hne, hall, ⟨rfl, rfl⟩ | ⟨hsigned, rfl, rfl⟩⟩, hlow, hhigh⟩
    · have hparse := parseDigits_eq_some.mpr ⟨hne, hall, rfl⟩
      simp [parseInt, digits_head_ne_minus hall, hparse, hhigh]
    · have hparse := parseDigits_eq_some.mpr ⟨hne, hall, rfl⟩
      simp only [decide_eq_true_eq] at hsigned
      simp [parseInt, hsigned, hparse, hlow]

theorem isDecimal_intText (i : Int) : IsDecimal true (intText i) i := by
  cases i with
  | ofNat n =>
      refine ⟨natText n, natText_ne_nil n, natText_digits n, .inl ⟨rfl, ?_⟩⟩
      rw [digitsValue_natText]
      rfl
  | negSucc n =>
      refine ⟨natText (n + 1), natText_ne_nil _, natText_digits _, .inr ⟨rfl, rfl, ?_⟩⟩
      rw [digitsValue_natText]
      rfl

/-- A field has one value. -/
theorem IsDecimal.unique {signed : Bool} {field : Bytes} {m n : Int} (hm : IsDecimal signed field m)
    (hn : IsDecimal signed field n) : m = n := by
  have mixed : ∀ {ds ds' : Bytes}, (∀ b ∈ ds, isDigit b = true) → ds ≠ minus :: ds' := by
    rintro ds ds' hall rfl
    exact isDigit_ne_minus (hall minus List.mem_cons_self) rfl
  obtain ⟨ds, -, hall, hvalue⟩ := hm
  obtain ⟨ds', -, hall', hvalue'⟩ := hn
  rcases hvalue with ⟨rfl, rfl⟩ | ⟨-, rfl, rfl⟩ <;> rcases hvalue' with ⟨heq, rfl⟩ | ⟨-, heq, rfl⟩
  · rw [heq]
  · exact absurd heq (mixed hall)
  · exact absurd heq.symm (mixed hall')
  · rw [List.tail_eq_of_cons_eq heq]

theorem intText_injective {m n : Int} (h : intText m = intText n) : m = n :=
  (h ▸ isDecimal_intText m).unique (isDecimal_intText n)

theorem isDecimal_natText (n : Nat) : IsDecimal false (natText n) n :=
  ⟨natText n, natText_ne_nil n, natText_digits n, .inl ⟨rfl, by rw [digitsValue_natText]⟩⟩

end ByteText
