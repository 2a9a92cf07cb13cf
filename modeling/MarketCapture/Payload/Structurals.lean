import MarketCapture.Lib.Quoting
import MarketCapture.Payload.Document

/-! # Structural indexes

Stage one of the library, in the kernels built on `json_structural_indexer` (the fallback kernel
has a scanner of its own). A buffer is cut where a structural character, a string or another
scalar starts outside the strings, and what stands between two such places is a token. A list of
tokens that the scan takes for one token each (`Scanned`) is the one it finds in their text.
-/

namespace MarketCapture

open JsonText

namespace Simdjson

def isStructural (b : UInt8) : Bool :=
  b = 123 || b = 125 || b = 91 || b = 93 || b = 58 || b = 44

/-- Which bytes a kernel of `json_structural_indexer` takes for operators: the structural
characters, and maybe some bytes that are neither whitespace nor printable. -/
structure Kernel where
  operator : UInt8 → Bool
  printable : ∀ b, isSpace b = true ∨ 32 ≤ b.toNat ∧ b.toNat < 127 → operator b = isStructural b

/-- The x64 kernels compare with the sixth bit set, which takes two control characters for a
comma and a colon. -/
def Kernel.x64 : Kernel where
  operator b := isStructural b || b = 12 || b = 26
  printable b h := by
    have hform : b ≠ 12 := by
      rintro rfl
      revert h
      decide
    have hsubstitute : b ≠ 26 := by
      rintro rfl
      revert h
      decide
    simp [hform, hsubstitute]

/-- What the scan carries from one byte to the next. -/
structure Scan extends Quoting where
  followsScalar : Bool := false

namespace Scan

variable (k : Kernel)

def isScalar (b : UInt8) : Bool := !(k.operator b || isSpace b)

/-- `structural_start`: the closing quote belongs to the string. -/
def starts (s : Scan) (b : UInt8) : Bool :=
  (k.operator b || (isScalar k b && !s.followsScalar)) && !s.inString

def next (s : Scan) (b : UInt8) : Scan where
  toQuoting := s.toQuoting.next b
  followsScalar := isScalar k b && !s.quote b

def run : Scan → Bytes → Scan := List.foldl (next k)

/-- The rest of the token that the scan is in, and the tokens after it. -/
def cut : Scan → Bytes → Bytes × List Bytes
  | _, [] => ([], [])
  | s, b :: rest =>
      let (tail, tokens) := cut (s.next k b) rest
      if s.starts k b then ([], (b :: tail) :: tokens) else (b :: tail, tokens)

/-- No token starts in these bytes, and they end outside the strings. -/
def Tail : Scan → Bytes → Prop
  | s, [] => s.inString = false
  | s, b :: rest => s.starts k b = false ∧ Tail (s.next k b) rest

end Scan

/-- The buffer cut at the structural indexes; whitespace stays with the token before it. -/
def segments (k : Kernel) (buffer : Bytes) : List Bytes := (Scan.cut k {} buffer).2

/-- Stage one, with the codes of the source. -/
def stage1 (k : Kernel) (buffer : Bytes) : Except ErrorCode (List Bytes) :=
  if (Quoting.run {} buffer).inString then .error (.other 14)
  else if Quoting.unescaped {} buffer then .error (.other 13)
  else if segments k buffer = [] then .error (.other 12)
  else if ValidUtf8 buffer then .ok (segments k buffer)
  else .error (.other 10)

/-- A text that the scan takes for one token. -/
def Token (k : Kernel) (text : Bytes) : Prop :=
  ∃ b tail, text = b :: tail ∧ isSpace b = false ∧ Scan.Tail k (({} : Scan).next k b) tail

/-- A list of tokens, each of which ends where the next one starts. -/
inductive Scanned (k : Kernel) : List Bytes → Prop
  | nil : Scanned k []
  | cons {token : Bytes} {rest : List Bytes} (single : Token k token)
      (bound : ∀ next ∈ rest.flatten.head?, (Scan.run k {} token).starts k next = true)
      (scanned : Scanned k rest) : Scanned k (token :: rest)

section Scans

variable {k : Kernel}

theorem Kernel.operator_structural {b : UInt8} (h : isStructural b = true) :
    k.operator b = true := by
  rw [k.printable b ?_]
  · exact h
  · simp only [isStructural, Bool.or_eq_true, decide_eq_true_eq] at h
    right
    rcases h with ((((rfl | rfl) | rfl) | rfl) | rfl) | rfl <;> decide

theorem Kernel.not_operator {b : UInt8} (hprint : 32 ≤ b.toNat ∧ b.toNat < 127)
    (h : isStructural b = false) : k.operator b = false := by
  rw [k.printable b (.inr hprint)]
  exact h

theorem Kernel.not_operator_space {b : UInt8} (h : isSpace b = true) : k.operator b = false := by
  rw [k.printable b (.inl h)]
  simp only [isSpace, Bool.or_eq_true, decide_eq_true_eq] at h
  rcases h with ((rfl | rfl) | rfl) | rfl <;> rfl

theorem Kernel.ne_of_operator {b c : UInt8} (h : k.operator b = true)
    (hprint : 32 ≤ c.toNat ∧ c.toNat < 127) (hc : isStructural c = false) : b ≠ c := by
  rintro rfl
  rw [k.not_operator hprint hc] at h
  cases h

namespace Scan

/-- Outside the strings only a scalar escapes the byte after it. -/
def Plain (s : Scan) : Prop := s.escaped = true → s.inString = true ∨ s.followsScalar = true

theorem plain_start : Plain {} := fun h => by cases h

theorem Plain.next (s : Scan) (b : UInt8) : (s.next k b).Plain := by
  intro hescaped
  simp only [Scan.next, Quoting.next, Bool.and_eq_true, decide_eq_true_eq] at hescaped
  obtain ⟨rfl, -⟩ := hescaped
  right
  have hoperator : k.operator 92 = false := k.not_operator (by decide) rfl
  simp [Scan.next, isScalar, hoperator, Quoting.quote, isSpace]

theorem next_operator (s : Scan) (hs : s.inString = false) {b : UInt8}
    (h : k.operator b = true) : s.next k b = {} := by
  have hquote : b ≠ 34 := k.ne_of_operator h (by decide) rfl
  have hbackslash : b ≠ 92 := k.ne_of_operator h (by decide) rfl
  simp [next, Quoting.next, Quoting.quote, hquote, hbackslash, isScalar, h, hs]

/-- A token starts the same way wherever it starts. -/
theorem next_of_starts {s : Scan} {b : UInt8} (hplain : s.Plain) (h : s.starts k b = true) :
    s.next k b = ({} : Scan).next k b := by
  simp only [starts, Bool.and_eq_true, Bool.or_eq_true, Bool.not_eq_true'] at h
  obtain ⟨hstart, hinside⟩ := h
  rcases hstart with hoperator | ⟨-, hfollows⟩
  · rw [next_operator s hinside hoperator, next_operator {} rfl hoperator]
  · obtain ⟨⟨inString, escaped⟩, followsScalar⟩ := s
    obtain rfl : inString = false := hinside
    obtain rfl : followsScalar = false := hfollows
    cases escaped with
    | false => rfl
    | true => rcases hplain rfl with h | h <;> cases h

theorem starts_start {b : UInt8} (h : isSpace b = false) : ({} : Scan).starts k b = true := by
  cases hoperator : k.operator b <;> simp [starts, isScalar, h, hoperator]

theorem starts_operator {s : Scan} {b : UInt8} (hs : s.inString = false)
    (h : k.operator b = true) : s.starts k b = true := by
  simp [starts, h, hs]

theorem inString_of_starts {s : Scan} {b : UInt8} (h : s.starts k b = true) :
    s.inString = false := by
  simp only [starts, Bool.and_eq_true, Bool.not_eq_true'] at h
  exact h.2

theorem not_space_of_starts {s : Scan} {b : UInt8} (h : s.starts k b = true) :
    isSpace b = false := by
  rw [Bool.eq_false_iff]
  intro hb
  simp [starts, isScalar, hb, k.not_operator_space hb] at h

theorem run_toQuoting (s : Scan) (bytes : Bytes) :
    (run k s bytes).toQuoting = s.toQuoting.run bytes := by
  induction bytes generalizing s with
  | nil => rfl
  | cons b rest ih => exact ih (s.next k b)

theorem run_append (s : Scan) (a b : Bytes) : run k s (a ++ b) = run k (run k s a) b :=
  List.foldl_append

theorem run_plain {s : Scan} (h : s.Plain) (bytes : Bytes) : (run k s bytes).Plain := by
  induction bytes generalizing s with
  | nil => exact h
  | cons b rest ih => exact ih (Plain.next s b)

theorem Tail.closed {s : Scan} {tail : Bytes} (h : Tail k s tail) :
    (run k s tail).inString = false := by
  induction tail generalizing s with
  | nil => exact h
  | cons b rest ih => exact ih h.2

/-- What the cut of a text is whose strings are closed. -/
theorem cut_spec {s : Scan} {bytes : Bytes} (hplain : s.Plain)
    (hclosed : (s.toQuoting.run bytes).inString = false) :
    Tail k s (cut k s bytes).1 ∧ bytes = (cut k s bytes).1 ++ (cut k s bytes).2.flatten ∧
      Scanned k (cut k s bytes).2 ∧
      ∀ next ∈ (cut k s bytes).2.flatten.head?,
        (run k s (cut k s bytes).1).starts k next = true := by
  induction bytes generalizing s with
  | nil => exact ⟨hclosed, rfl, .nil, fun next h => by cases h⟩
  | cons b rest ih =>
      obtain ⟨htail, hbytes, hscanned, hbound⟩ := ih (Plain.next s b) hclosed
      simp only [cut]
      cases hstarts : s.starts k b with
      | true =>
          have hnext := next_of_starts hplain hstarts
          refine ⟨inString_of_starts hstarts, by simpa using hbytes,
            .cons ⟨b, _, rfl, not_space_of_starts hstarts, hnext ▸ htail⟩ ?_ hscanned, ?_⟩
          · intro next hhead
            show (run k (({} : Scan).next k b) _).starts k next = true
            rw [← hnext]
            exact hbound next hhead
          · intro next hhead
            obtain rfl : b = next := by simpa using hhead
            exact hstarts
      | false => exact ⟨⟨hstarts, htail⟩, by simpa using hbytes, hscanned, hbound⟩

/-- The cut of a text after a token that it bounds. -/
theorem cut_tail {s : Scan} {tail rest : Bytes} (hplain : s.Plain) (htail : Tail k s tail)
    (hbound : ∀ next ∈ rest.head?, (run k s tail).starts k next = true) :
    cut k s (tail ++ rest) = (tail, segments k rest) := by
  induction tail generalizing s with
  | nil =>
      cases rest with
      | nil => rfl
      | cons b rest =>
          have hstarts : s.starts k b = true := hbound b rfl
          simp only [segments, List.nil_append, cut, hstarts,
            starts_start (not_space_of_starts hstarts), next_of_starts hplain hstarts, ↓reduceIte]
  | cons b tail ih =>
      obtain ⟨hstarts, htail⟩ := htail
      simp only [List.cons_append, cut, ih (Plain.next s b) htail hbound, hstarts,
        Bool.false_eq_true, ↓reduceIte]

end Scan

/-! ## Tokens -/

theorem Token.closed {text : Bytes} (h : Token k text) : (Scan.run k {} text).inString = false := by
  obtain ⟨b, tail, rfl, -, htail⟩ := h
  exact htail.closed

/-- The text after a token starts with a token of its own. -/
theorem segments_token {text rest : Bytes} (h : Token k text)
    (hbound : ∀ next ∈ rest.head?, (Scan.run k {} text).starts k next = true) :
    segments k (text ++ rest) = text :: segments k rest := by
  obtain ⟨b, tail, rfl, hspace, htail⟩ := h
  have hcut := Scan.cut_tail (Scan.Plain.next _ b) htail hbound
  rw [List.cons_append, segments, Scan.cut, hcut]
  simp only [Scan.starts_start hspace, ↓reduceIte]

theorem Scanned.tail {token : Bytes} {rest : List Bytes} (h : Scanned k (token :: rest)) :
    Scanned k rest := by
  cases h with
  | cons _ _ scanned => exact scanned

/-- The tokens of a text whose strings are closed, up to whitespace before the first one. -/
theorem scanned_segments {buffer : Bytes} (hspace : ∀ b ∈ buffer.head?, isSpace b = false)
    (hclosed : (Quoting.run {} buffer).inString = false) :
    Scanned k (segments k buffer) ∧ (segments k buffer).flatten = buffer := by
  obtain ⟨-, hbytes, hscanned, -⟩ := Scan.cut_spec Scan.plain_start hclosed
  refine ⟨hscanned, ?_⟩
  cases buffer with
  | nil => rfl
  | cons b rest =>
      have hstarts : ({} : Scan).starts k b = true := Scan.starts_start (hspace b rfl)
      simp only [segments, Scan.cut, hstarts, if_true] at hbytes ⊢
      simpa using hbytes.symm

end Scans

end Simdjson

end MarketCapture
