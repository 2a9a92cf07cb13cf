import MarketCapture.Lib.Utf8

/-! # Strings in a text

Which bytes of a text stand in strings, by the quotes that no backslash escapes. Whitespace
outside the strings is insignificant: `significant` leaves it out, and what it leaves of a valid
value is the text of its `strip`.
-/

namespace JsonText

open ByteText (Bytes ascii isDigit)

/-- Before a byte: whether it stands in a string, and whether a backslash escapes it. -/
structure Quoting where
  inString : Bool := false
  escaped : Bool := false
  deriving DecidableEq, Repr

namespace Quoting

/-- A quote that no backslash escapes. -/
def quote (s : Quoting) (b : UInt8) : Bool := decide (b = 34) && !s.escaped

def next (s : Quoting) (b : UInt8) : Quoting where
  inString := s.inString ^^ s.quote b
  escaped := decide (b = 92) && !s.escaped

def run : Quoting → Bytes → Quoting := List.foldl next

/-- Everything but the whitespace outside the strings. -/
def significant : Quoting → Bytes → Bytes
  | _, [] => []
  | s, b :: rest =>
      if isSpace b && !s.inString then significant (s.next b) rest
      else b :: significant (s.next b) rest

/-- A control character stands in a string. -/
def unescaped : Quoting → Bytes → Bool
  | _, [] => false
  | s, b :: rest => decide (b.toNat < 32) && s.inString || unescaped (s.next b) rest

theorem run_append (s : Quoting) (a b : Bytes) : run s (a ++ b) = run (run s a) b :=
  List.foldl_append

end Quoting

/-! ## Between the quotes -/

/-- What may stand between two quotes: a backslash is followed by a byte, no other byte is a
quote, and none is a control character. -/
inductive Inside : Bytes → Prop
  | nil : Inside []
  | plain {b : UInt8} {rest : Bytes} (quote : b ≠ 34) (backslash : b ≠ 92) (control : 32 ≤ b.toNat)
      (inside : Inside rest) : Inside (b :: rest)
  | escape {b : UInt8} {rest : Bytes} (control : 32 ≤ b.toNat) (inside : Inside rest) :
      Inside (92 :: b :: rest)

theorem hexValue_plain {b : UInt8} {n : Nat} (h : hexValue b = some n) :
    b ≠ 34 ∧ b ≠ 92 ∧ 32 ≤ b.toNat := by
  unfold hexValue at h
  refine ⟨?_, ?_, ?_⟩
  · rintro rfl
    cases h
  · rintro rfl
    cases h
  · by_contra hcontrol
    rw [if_neg (by omega), if_neg (by omega), if_neg (by omega)] at h
    cases h

theorem codeUnit_inside {bytes rest : Bytes} {n : Nat} (h : codeUnit bytes = some (n, rest))
    (hrest : Inside rest) : Inside bytes := by
  unfold codeUnit at h
  split at h
  · rename_i a b c d tail
    simp only [Option.pure_def, Option.bind_eq_bind, Option.bind_eq_some_iff, Option.some.injEq,
      Prod.mk.injEq] at h
    obtain ⟨_, ha, _, hb, _, hc, _, hd, -, rfl⟩ := h
    obtain ⟨ha₁, ha₂, ha₃⟩ := hexValue_plain ha
    obtain ⟨hb₁, hb₂, hb₃⟩ := hexValue_plain hb
    obtain ⟨hc₁, hc₂, hc₃⟩ := hexValue_plain hc
    obtain ⟨hd₁, hd₂, hd₃⟩ := hexValue_plain hd
    exact .plain ha₁ ha₂ ha₃ (.plain hb₁ hb₂ hb₃ (.plain hc₁ hc₂ hc₃ (.plain hd₁ hd₂ hd₃ hrest)))
  · cases h

theorem codePoint_inside {bytes rest : Bytes} {n : Nat} (h : codePoint bytes = some (n, rest))
    (hrest : Inside rest) : Inside bytes := by
  unfold codePoint at h
  obtain ⟨⟨high, tail⟩, hhigh, h⟩ := Option.bind_eq_some_iff.mp h
  refine codeUnit_inside hhigh ?_
  simp only at h
  split at h
  · split at h
    · rename_i after
      obtain ⟨⟨low, last⟩, hlow, h⟩ := Option.bind_eq_some_iff.mp h
      simp only at h
      split at h
      · obtain ⟨-, rfl⟩ := Prod.mk.inj (Option.some.inj h)
        exact .escape (by decide) (codeUnit_inside hlow hrest)
      · cases h
    · cases h
  · split at h
    · cases h
    · obtain ⟨-, rfl⟩ := Prod.mk.inj (Option.some.inj h)
      exact hrest

theorem shortEscape_printable {b byte : UInt8} (h : shortEscape b = some byte) : 32 ≤ b.toNat := by
  by_contra hcontrol
  unfold shortEscape at h
  have hne : ∀ c : UInt8, 32 ≤ c.toNat → b ≠ c := by
    rintro c hc rfl
    exact hcontrol hc
  simp only [hne 34 (by decide), hne 92 (by decide), hne 47 (by decide), hne 98 (by decide),
    hne 102 (by decide), hne 110 (by decide), hne 114 (by decide), hne 116 (by decide), or_self,
    ↓reduceIte] at h
  cases h

theorem unescape_inside {bytes decoded rest : Bytes} (h : unescape bytes = some (decoded, rest))
    (hrest : Inside rest) : Inside (92 :: bytes) := by
  cases bytes with
  | nil => cases h
  | cons b tail =>
      simp only [unescape] at h
      split at h
      · rename_i hb
        subst hb
        obtain ⟨⟨point, last⟩, hpoint, hlast⟩ := Option.map_eq_some_iff.mp h
        obtain ⟨-, rfl⟩ := Prod.mk.inj hlast
        exact .escape (by decide) (codePoint_inside hpoint hrest)
      · obtain ⟨byte, hbyte, hlast⟩ := Option.map_eq_some_iff.mp h
        obtain ⟨-, rfl⟩ := Prod.mk.inj hlast
        exact .escape (shortEscape_printable hbyte) hrest

theorem decodeFrom_inside {fuel : Nat} {bytes content : Bytes}
    (h : decodeFrom fuel bytes = some content) : Inside bytes := by
  induction fuel generalizing bytes content with
  | zero =>
      cases bytes with
      | nil => exact .nil
      | cons _ _ => cases h
  | succ fuel ih =>
      cases bytes with
      | nil => exact .nil
      | cons b rest =>
          simp only [decodeFrom] at h
          split at h
          · rename_i hb
            subst hb
            obtain ⟨⟨decoded, tail⟩, hescape, h⟩ := Option.bind_eq_some_iff.mp h
            obtain ⟨content', hcontent, -⟩ := Option.bind_eq_some_iff.mp h
            exact unescape_inside hescape (ih hcontent)
          · rename_i hb
            split at h
            · cases h
            · rename_i hplain
              rw [not_or, Nat.not_lt] at hplain
              obtain ⟨content', hcontent, -⟩ := Option.bind_eq_some_iff.mp h
              exact .plain hplain.1 hb hplain.2 (ih hcontent)

theorem IsString.inside {raw : Bytes} (h : IsString raw) : Inside raw := by
  obtain ⟨content, hcontent⟩ := Option.isSome_iff_exists.mp h.2
  exact decodeFrom_inside hcontent

theorem Inside.run {raw : Bytes} (h : Inside raw) :
    Quoting.run ⟨true, false⟩ raw = ⟨true, false⟩ := by
  induction h with
  | nil => rfl
  | @plain b rest hquote hbackslash _ _ ih =>
      have hnext : Quoting.next ⟨true, false⟩ b = ⟨true, false⟩ := by
        simp [Quoting.next, Quoting.quote, hquote, hbackslash]
      show Quoting.run (Quoting.next ⟨true, false⟩ b) rest = _
      rw [hnext, ih]
  | @escape b rest _ _ ih =>
      have hnext : Quoting.next (Quoting.next ⟨true, false⟩ 92) b = ⟨true, false⟩ := by
        simp [Quoting.next, Quoting.quote]
      show Quoting.run (Quoting.next (Quoting.next ⟨true, false⟩ 92) b) rest = _
      rw [hnext, ih]

/-- The whitespace of a string is significant. -/
theorem Inside.significant {raw : Bytes} (h : Inside raw) (rest : Bytes) :
    Quoting.significant ⟨true, false⟩ (raw ++ rest) =
      raw ++ Quoting.significant ⟨true, false⟩ rest := by
  induction h with
  | nil => rfl
  | @plain b tail hquote hbackslash _ _ ih =>
      have hnext : Quoting.next ⟨true, false⟩ b = ⟨true, false⟩ := by
        simp [Quoting.next, Quoting.quote, hquote, hbackslash]
      simp [Quoting.significant, hnext, ih]
  | @escape b tail _ _ ih =>
      have hnext : Quoting.next (Quoting.next ⟨true, false⟩ 92) b = ⟨true, false⟩ := by
        simp [Quoting.next, Quoting.quote]
      have hbackslash : (Quoting.next ⟨true, false⟩ 92).inString = true := rfl
      simp [Quoting.significant, hnext, hbackslash, ih]

theorem Inside.unescaped {raw : Bytes} (h : Inside raw) (rest : Bytes) :
    Quoting.unescaped ⟨true, false⟩ (raw ++ rest) = Quoting.unescaped ⟨true, false⟩ rest := by
  induction h with
  | nil => rfl
  | @plain b tail hquote hbackslash hcontrol _ ih =>
      have hnext : Quoting.next ⟨true, false⟩ b = ⟨true, false⟩ := by
        simp [Quoting.next, Quoting.quote, hquote, hbackslash]
      simp [Quoting.unescaped, hnext, ih, Nat.not_lt.mpr hcontrol]
  | @escape b tail hcontrol _ ih =>
      have hnext : Quoting.next (Quoting.next ⟨true, false⟩ 92) b = ⟨true, false⟩ := by
        simp [Quoting.next, Quoting.quote]
      simp [Quoting.unescaped, hnext, ih, Nat.not_lt.mpr hcontrol]

/-! ## Values -/

/-- What a pass over the text finds: it ends where it began, outside the strings, leaves
`stripped` of the text, and meets no control character in a string and no invalid encoding. -/
structure Passes (text stripped : Bytes) : Prop where
  run : Quoting.run {} text = {}
  significant : ∀ rest,
    Quoting.significant {} (text ++ rest) = stripped ++ Quoting.significant {} rest
  unescaped : ∀ rest, Quoting.unescaped {} (text ++ rest) = Quoting.unescaped {} rest
  utf8 : ValidUtf8 text

namespace Passes

variable {text stripped : Bytes}

theorem nil : Passes [] [] := ⟨rfl, fun _ => rfl, fun _ => rfl, [], rfl⟩

theorem append {text' stripped' : Bytes} (h : Passes text stripped)
    (h' : Passes text' stripped') : Passes (text ++ text') (stripped ++ stripped') where
  run := by rw [Quoting.run_append, h.run, h'.run]
  significant rest := by
    rw [List.append_assoc, h.significant, h'.significant, List.append_assoc]
  unescaped rest := by rw [List.append_assoc, h.unescaped, h'.unescaped]
  utf8 := h.utf8.append h'.utf8

/-- A byte outside the strings. -/
theorem byte {b : UInt8} (hascii : b.toNat < 128) (hquote : b ≠ 34) (hbackslash : b ≠ 92) :
    Passes [b] (if isSpace b then [] else [b]) := by
  have hnext : Quoting.next {} b = {} := by
    simp [Quoting.next, Quoting.quote, hquote, hbackslash]
  refine ⟨hnext, fun rest => ?_, fun rest => ?_, validUtf8_byte hascii⟩
  · cases hspace : isSpace b <;> simp [Quoting.significant, hspace, hnext]
  · simp [Quoting.unescaped, hnext]

theorem spaces (h : Spaces text) : Passes text [] := by
  induction text with
  | nil => exact nil
  | cons b text ih =>
      have hspace := h b List.mem_cons_self
      have hb : b = 32 ∨ b = 9 ∨ b = 10 ∨ b = 13 := by
        simpa [isSpace, or_assoc] using hspace
      have hbyte : Passes [b] (if isSpace b then [] else [b]) := by
        rcases hb with rfl | rfl | rfl | rfl <;> exact byte (by decide) (by decide) (by decide)
      rw [if_pos hspace] at hbyte
      exact hbyte.append (ih fun c hc => h c (List.mem_cons_of_mem _ hc))

/-- A text of one kind of byte outside the strings: no whitespace, quote or backslash. -/
theorem plain (h : ∀ b ∈ text, b.toNat < 128 ∧ isSpace b = false ∧ b ≠ 34 ∧ b ≠ 92) :
    Passes text text := by
  induction text with
  | nil => exact nil
  | cons b text ih =>
      obtain ⟨⟨hascii, hspace, hquote, hbackslash⟩, hrest⟩ := List.forall_mem_cons.mp h
      have hbyte := byte hascii hquote hbackslash
      rw [if_neg (by rw [hspace]; exact Bool.false_ne_true)] at hbyte
      exact hbyte.append (ih hrest)

theorem string {raw : Bytes} (h : IsString raw) :
    Passes (34 :: (raw ++ [34])) (34 :: (raw ++ [34])) := by
  have hinside := h.inside
  have hopen : Quoting.next {} 34 = ⟨true, false⟩ := rfl
  have hclose : Quoting.next ⟨true, false⟩ 34 = {} := rfl
  refine ⟨?_, fun rest => ?_, fun rest => ?_, ?_⟩
  · show Quoting.run (Quoting.next {} 34) (raw ++ [34]) = {}
    rw [hopen, Quoting.run_append, hinside.run]
    rfl
  · have hstart : isSpace 34 = false := rfl
    simp [Quoting.significant, hopen, hclose, hstart, hinside.significant]
  · have hcontrol : ¬(34 : UInt8).toNat < 32 := by decide
    simp [Quoting.unescaped, hopen, hclose, hinside.unescaped]
  · have hquote : ValidUtf8 [34] := validUtf8_byte (by decide)
    exact hquote.append (h.1.append hquote)

end Passes

end JsonText
