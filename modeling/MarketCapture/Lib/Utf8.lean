import MarketCapture.Lib.Json

/-! # UTF-8 texts

A text in UTF-8 can be cut at its ASCII bytes: no longer encoding contains one.
-/

namespace JsonText

open ByteText (Bytes)

theorem validUtf8_iff (bytes : Bytes) : ValidUtf8 bytes ↔ bytes.toByteArray.IsValidUTF8 := by
  constructor
  · rintro ⟨chars, rfl⟩
    exact ⟨chars, rfl⟩
  · rintro ⟨chars, hchars⟩
    refine ⟨chars, ?_⟩
    simpa [List.utf8Encode] using hchars

instance (bytes : Bytes) : Decidable (ValidUtf8 bytes) :=
  decidable_of_iff _ (validUtf8_iff bytes).symm

/-- A character is one ASCII byte, or bytes none of which is ASCII. -/
theorem utf8EncodeChar_bytes (c : Char) :
    (∃ b, String.utf8EncodeChar c = [b]) ∨ ∀ b ∈ String.utf8EncodeChar c, 128 ≤ b.toNat := by
  unfold String.utf8EncodeChar
  simp only
  split
  · exact .inl ⟨_, rfl⟩
  split
  · refine .inr ?_
    simp only [List.forall_mem_cons, UInt8.toNat_ofNat', List.not_mem_nil, false_imp_iff,
      implies_true, and_true]
    omega
  split
  · refine .inr ?_
    simp only [List.forall_mem_cons, UInt8.toNat_ofNat', List.not_mem_nil, false_imp_iff,
      implies_true, and_true]
    omega
  · refine .inr ?_
    simp only [List.forall_mem_cons, UInt8.toNat_ofNat', List.not_mem_nil, false_imp_iff,
      implies_true, and_true]
    omega

theorem ValidUtf8.append {a b : Bytes} (ha : ValidUtf8 a) (hb : ValidUtf8 b) :
    ValidUtf8 (a ++ b) := by
  obtain ⟨as, rfl⟩ := ha
  obtain ⟨bs, rfl⟩ := hb
  exact ⟨as ++ bs, by rw [List.flatMap_append]⟩

theorem validUtf8_byte {b : UInt8} (h : b.toNat < 128) : ValidUtf8 [b] := by
  refine ⟨[Char.ofNat b.toNat], ?_⟩
  have hvalid : b.toNat.isValidChar := .inl (by omega)
  have hval : (Char.ofNat b.toNat).val.toNat = b.toNat := by
    rw [Char.ofNat, dif_pos hvalid]
    rfl
  rw [List.flatMap_singleton, String.utf8EncodeChar]
  simp only [hval]
  rw [if_pos (by omega), UInt8.ofNat_toNat]

/-- Both sides of an ASCII byte are texts. -/
theorem ValidUtf8.split {a b : Bytes} {c : UInt8} (hc : c.toNat < 128)
    (h : ValidUtf8 (a ++ c :: b)) : ValidUtf8 a ∧ ValidUtf8 b := by
  obtain ⟨chars, hchars⟩ := h
  induction chars generalizing a with
  | nil => simp at hchars
  | cons first chars ih =>
      rw [List.flatMap_cons] at hchars
      rcases List.append_eq_append_iff.mp hchars with ⟨d, hfirst, hrest⟩ | ⟨d, ha, hrest⟩
      · -- the byte stands in the encoding of the first character
        cases d with
        | nil =>
            rw [List.append_nil] at hfirst
            obtain ⟨ha', hb'⟩ := ih (a := []) (by rw [List.nil_append]; exact hrest)
            exact ⟨⟨[first], by rw [List.flatMap_singleton, hfirst]⟩, hb'⟩
        | cons d ds =>
            obtain ⟨rfl, hb⟩ := List.cons.inj hrest
            rcases utf8EncodeChar_bytes first with ⟨e, he⟩ | hwide
            · rw [hfirst] at he
              cases a with
              | nil =>
                  rw [List.nil_append] at he
                  obtain ⟨-, rfl⟩ := List.cons.inj he
                  exact ⟨⟨[], rfl⟩, chars, hb⟩
              | cons _ _ => simp at he
            · have := hwide c (by rw [hfirst]; simp)
              omega
      · obtain ⟨ha', hb'⟩ := ih hrest.symm
        refine ⟨?_, hb'⟩
        rw [ha]
        exact ValidUtf8.append ⟨[first], by rw [List.flatMap_singleton]⟩ ha'

end JsonText
