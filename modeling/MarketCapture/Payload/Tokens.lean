import MarketCapture.Payload.Iteration

/-! # Reading valid documents

The tokens of a valid text are those of its syntax. Over them the On-Demand API answers the tree
that `valueOf` gives the document, in any spacing, and the minifier leaves the text without
insignificant whitespace.
-/

namespace JsonText

open ByteText (Bytes ascii)

mutual

/-- The tokens of a value, each with the whitespace after it. -/
def Node.tokens : Node → List Bytes
  | .null after => [ascii "null" ++ after]
  | .bool value after => [boolText value ++ after]
  | .number token after => [token ++ after]
  | .string raw after => [34 :: (raw ++ 34 :: after)]
  | .array opened items closed => (91 :: opened) :: (items.tokens ++ [93 :: closed])
  | .object opened members closed => (123 :: opened) :: (members.tokens ++ [125 :: closed])

def Items.tokens : Items → List Bytes
  | .nil => []
  | .cons value commaAfter rest =>
      value.tokens ++ (if rest.isNil then [] else (44 :: commaAfter) :: rest.tokens)

def Members.tokens : Members → List Bytes
  | .nil => []
  | .cons key keyAfter colonAfter value commaAfter rest =>
      (34 :: (key ++ 34 :: keyAfter)) :: (58 :: colonAfter) :: (value.tokens ++
        (if rest.isNil then [] else (44 :: commaAfter) :: rest.tokens))

end

mutual

theorem Node.tokens_flatten (node : Node) : node.tokens.flatten = node.text := by
  cases node with
  | null after => simp [Node.tokens, Node.text]
  | bool value after => simp [Node.tokens, Node.text]
  | number token after => simp [Node.tokens, Node.text]
  | string raw after => simp [Node.tokens, Node.text]
  | array opened items closed =>
      simp [Node.tokens, Node.text, Items.tokens_flatten items]
  | object opened members closed =>
      simp [Node.tokens, Node.text, Members.tokens_flatten members]

theorem Items.tokens_flatten (items : Items) : items.tokens.flatten = items.text := by
  cases items with
  | nil => rfl
  | cons value commaAfter rest =>
      cases hnil : rest.isNil <;>
        simp [Items.tokens, Items.text, hnil, Node.tokens_flatten value, Items.tokens_flatten rest]

theorem Members.tokens_flatten (members : Members) : members.tokens.flatten = members.text := by
  cases members with
  | nil => rfl
  | cons key keyAfter colonAfter value commaAfter rest =>
      cases hnil : rest.isNil <;>
        simp [Members.tokens, Members.text, hnil, Node.tokens_flatten value,
          Members.tokens_flatten rest]

end

end JsonText

namespace MarketCapture

open Simdjson JsonText JsonValidation
open ByteText (isDigit digitValue)

namespace Simdjson

/-- A byte that a value starts with. -/
def startsValue (b : UInt8) : Bool :=
  b = 123 || b = 91 || b = 34 || b = 110 || b = 116 || b = 102 || b = 45 || isDigit b

theorem startsValue_ne {b : UInt8} (h : startsValue b = true) :
    isSpace b = false ∧ b ≠ 93 ∧ b ≠ 125 ∧ b ≠ 44 ∧ b ≠ 58 := by
  refine ⟨?_, ?_, ?_, ?_, ?_⟩
  · rw [Bool.eq_false_iff]
    intro hspace
    simp only [isSpace, Bool.or_eq_true, decide_eq_true_eq] at hspace
    rcases hspace with ((rfl | rfl) | rfl) | rfl <;> cases h
  all_goals
    rintro rfl
    cases h

/-- The first token of a value. -/
theorem tokens_head (node : Node) (h : node.WellFormed) :
    ∃ b tail rest, node.tokens = (b :: tail) :: rest ∧ startsValue b = true := by
  cases node with
  | null after => exact ⟨110, _, [], rfl, rfl⟩
  | bool value after =>
      cases value with
      | false => exact ⟨102, _, [], rfl, rfl⟩
      | true => exact ⟨116, _, [], rfl, rfl⟩
  | number token after =>
      obtain ⟨⟨sign, integer, fraction, exponent, rfl, hsign, hinteger, -, -⟩, -⟩ := h
      obtain ⟨first, tail, rfl, hfirst⟩ := isInteger_head hinteger
      rcases hsign with rfl | rfl
      · exact ⟨first, _, [], rfl, by simp [startsValue, hfirst]⟩
      · exact ⟨45, _, [], rfl, rfl⟩
  | string raw after => exact ⟨34, _, [], rfl, rfl⟩
  | array opened items closed => exact ⟨91, opened, _, rfl, rfl⟩
  | object opened members closed => exact ⟨123, opened, _, rfl, rfl⟩

section Cuts

variable {k : Kernel}

/-! ## Tokens of the scan -/

theorem Scan.tail_spaces {s : Scan} (hs : s.inString = false) {spaces : Bytes}
    (h : Spaces spaces) : Scan.Tail k s spaces := by
  induction spaces generalizing s with
  | nil => exact hs
  | cons b spaces ih =>
      have hspace := h b List.mem_cons_self
      have hquote : b ≠ 34 := by
        rintro rfl
        cases hspace
      refine ⟨?_, ih ?_ fun c hc => h c (List.mem_cons_of_mem _ hc)⟩
      · simp [Scan.starts, Scan.isScalar, hspace, k.not_operator_space hspace]
      · simp [Scan.next, Quoting.next, Quoting.quote, hquote, hs]

theorem Scan.run_spaces {spaces : Bytes} (h : Spaces spaces) : Scan.run k {} spaces = {} := by
  induction spaces with
  | nil => rfl
  | cons b spaces ih =>
      have hspace := h b List.mem_cons_self
      have hquote : b ≠ 34 := by
        rintro rfl
        cases hspace
      have hbackslash : b ≠ 92 := by
        rintro rfl
        cases hspace
      have hnext : ({} : Scan).next k b = {} := by
        simp [Scan.next, Quoting.next, Quoting.quote, hquote, hbackslash, Scan.isScalar, hspace]
      show Scan.run k (({} : Scan).next k b) spaces = {}
      rw [hnext]
      exact ih fun c hc => h c (List.mem_cons_of_mem _ hc)

/-- A byte that goes on with a scalar. -/
def plainByte (b : UInt8) : Bool :=
  decide (32 < b.toNat ∧ b.toNat < 127) && !isStructural b && decide (b ≠ 34)

theorem plainByte_scalar {b : UInt8} (h : plainByte b = true) :
    k.operator b = false ∧ Scan.isScalar k b = true ∧ isSpace b = false ∧ b ≠ 34 := by
  simp only [plainByte, Bool.and_eq_true, decide_eq_true_eq, Bool.not_eq_true'] at h
  obtain ⟨⟨hprint, hstructural⟩, hquote⟩ := h
  have hoperator := k.not_operator ⟨by omega, hprint.2⟩ hstructural
  have hspace : isSpace b = false := by
    rw [Bool.eq_false_iff]
    intro hspace
    simp only [isSpace, Bool.or_eq_true, decide_eq_true_eq] at hspace
    rcases hspace with ((rfl | rfl) | rfl) | rfl <;> revert hprint <;> decide
  exact ⟨hoperator, by simp [Scan.isScalar, hoperator, hspace], hspace, hquote⟩

theorem Scan.tail_plain {s : Scan} (hs : s.inString = false) (hfollows : s.followsScalar = true)
    {bytes after : Bytes} (h : ∀ b ∈ bytes, plainByte b = true) (hafter : Spaces after) :
    Scan.Tail k s (bytes ++ after) := by
  induction bytes generalizing s with
  | nil => exact Scan.tail_spaces hs hafter
  | cons b bytes ih =>
      obtain ⟨hoperator, hscalar, -, hquote⟩ := plainByte_scalar (k := k) (h b List.mem_cons_self)
      refine ⟨?_, ih ?_ ?_ fun c hc => h c (List.mem_cons_of_mem _ hc)⟩
      · simp [Scan.starts, hoperator, hfollows]
      · simp [Scan.next, Quoting.next, Quoting.quote, hquote, hs]
      · simp [Scan.next, Quoting.quote, hquote, hscalar]

theorem token_plain {bytes after : Bytes} (hne : bytes ≠ []) (h : ∀ b ∈ bytes, plainByte b = true)
    (hafter : Spaces after) : Token k (bytes ++ after) := by
  obtain ⟨b, tail, rfl⟩ := List.exists_cons_of_ne_nil hne
  obtain ⟨-, hscalar, hspace, hquote⟩ := plainByte_scalar (k := k) (h b List.mem_cons_self)
  refine ⟨b, tail ++ after, rfl, hspace, Scan.tail_plain ?_ ?_
    (fun c hc => h c (List.mem_cons_of_mem _ hc)) hafter⟩
  · simp [Scan.next, Quoting.next, Quoting.quote, hquote]
  · simp [Scan.next, Quoting.quote, hquote, hscalar]

theorem Scan.tail_inside {s : Scan} (hs : s.toQuoting = ⟨true, false⟩) {raw after : Bytes}
    (h : Inside raw) (hafter : Spaces after) : Scan.Tail k s (raw ++ 34 :: after) := by
  have hinside : s.inString = true := by rw [hs]
  induction h generalizing s with
  | nil =>
      refine ⟨by simp [Scan.starts, hinside], Scan.tail_spaces ?_ hafter⟩
      simp [Scan.next, Quoting.next, Quoting.quote, hs]
  | @plain b rest hquote hbackslash _ _ ih =>
      have hnext : (s.next k b).toQuoting = ⟨true, false⟩ := by
        simp [Scan.next, Quoting.next, Quoting.quote, hs, hquote, hbackslash]
      exact ⟨by simp [Scan.starts, hinside], ih hnext (by rw [hnext])⟩
  | @escape b rest _ _ ih =>
      have hnext : ((s.next k 92).next k b).toQuoting = ⟨true, false⟩ := by
        simp [Scan.next, Quoting.next, Quoting.quote, hs]
      have hbackslash : (s.next k 92).inString = true := by
        simp [Scan.next, Quoting.next, Quoting.quote, hs]
      exact ⟨by simp [Scan.starts, hinside], by simp [Scan.starts, hbackslash],
        ih hnext (by rw [hnext])⟩

theorem token_string {raw after : Bytes} (h : Inside raw) (hafter : Spaces after) :
    Token k (34 :: (raw ++ 34 :: after)) := by
  refine ⟨34, _, rfl, rfl, Scan.tail_inside ?_ h hafter⟩
  simp [Scan.next, Quoting.next, Quoting.quote]

/-! ## Tokens of a value -/

theorem items_isNil {items : Items} (h : items.isNil = true) : items = .nil := by
  cases items with
  | nil => rfl
  | cons value commaAfter rest => cases h

theorem members_isNil {members : Members} (h : members.isNil = true) : members = .nil := by
  cases members with
  | nil => rfl
  | cons key keyAfter colonAfter value commaAfter rest => cases h

theorem structural_not_space {b : UInt8} (h : isStructural b = true) : isSpace b = false := by
  rw [Bool.eq_false_iff]
  intro hspace
  have hoperator := Kernel.x64.operator_structural h
  rw [Kernel.x64.not_operator_space hspace] at hoperator
  cases hoperator

/-- The scan finds these tokens in the text, wherever it stands before a structural character
or at the end. -/
structure Cuts (k : Kernel) (text : Bytes) (tokens : List Bytes) : Prop where
  head : ∃ b rest, text = b :: rest ∧ isSpace b = false
  cut : ∀ rest, (∀ b ∈ rest.head?, isStructural b = true) →
    segments k (text ++ rest) = tokens ++ segments k rest

theorem Token.cuts {text : Bytes} (h : Token k text) : Cuts k text [text] where
  head := by
    obtain ⟨b, tail, htext, hspace, -⟩ := h
    exact ⟨b, tail, htext, hspace⟩
  cut rest hrest := by
    refine segments_token h fun next hnext => ?_
    exact Scan.starts_operator h.closed (k.operator_structural (hrest next hnext))

theorem segments_operator {b : UInt8} {spaces rest : Bytes} (hb : isStructural b = true)
    (hspaces : Spaces spaces) (hrest : ∀ c ∈ rest.head?, isSpace c = false) :
    segments k (b :: (spaces ++ rest)) = (b :: spaces) :: segments k rest := by
  have hnext : ({} : Scan).next k b = {} :=
    Scan.next_operator {} rfl (k.operator_structural hb)
  have htoken : Token k (b :: spaces) := by
    refine ⟨b, spaces, rfl, structural_not_space hb, ?_⟩
    rw [hnext]
    exact Scan.tail_spaces rfl hspaces
  have hrun : Scan.run k {} (b :: spaces) = {} := by
    show Scan.run k (({} : Scan).next k b) spaces = {}
    rw [hnext]
    exact Scan.run_spaces hspaces
  refine segments_token htoken fun next hnext => ?_
  rw [hrun]
  exact Scan.starts_start (hrest next hnext)

theorem Cuts.append {a c : Bytes} {as cs : List Bytes} (ha : Cuts k a as) {b : UInt8}
    (hb : isStructural b = true) {spaces : Bytes} (hspaces : Spaces spaces) (hc : Cuts k c cs) :
    Cuts k (a ++ b :: (spaces ++ c)) (as ++ (b :: spaces) :: cs) where
  head := by
    obtain ⟨first, rest, rfl, hspace⟩ := ha.head
    exact ⟨first, _, rfl, hspace⟩
  cut rest hrest := by
    have hhead : ∀ d ∈ (c ++ rest).head?, isSpace d = false := by
      obtain ⟨first, tail, rfl, hspace⟩ := hc.head
      intro d hd
      obtain rfl : first = d := by simpa using hd
      exact hspace
    have hafter : segments k ((b :: (spaces ++ c)) ++ rest) =
        (b :: spaces) :: (cs ++ segments k rest) := by
      rw [List.cons_append, List.append_assoc, segments_operator hb hspaces hhead,
        hc.cut rest hrest]
    rw [List.append_assoc, ha.cut, hafter]
    · simp
    · intro d hd
      obtain rfl : b = d := by simpa using hd
      exact hb

/-- A container, with or without anything in it. -/
theorem segments_container {first last : UInt8} (hfirst : isStructural first = true)
    (hlast : isStructural last = true) {opened closed body rest : Bytes} {tokens : List Bytes}
    (hopened : Spaces opened) (hclosed : Spaces closed)
    (hbody : body = [] ∧ tokens = [] ∨ Cuts k body tokens)
    (hrest : ∀ b ∈ rest.head?, isSpace b = false) :
    segments k (first :: (opened ++ (body ++ last :: (closed ++ rest)))) =
      (first :: opened) :: (tokens ++ (last :: closed) :: segments k rest) := by
  have hend := segments_operator (k := k) hlast hclosed hrest
  rcases hbody with ⟨rfl, rfl⟩ | hbody
  · rw [List.nil_append, segments_operator hfirst hopened ?_, hend]
    · rfl
    · intro c hc
      obtain rfl : last = c := by simpa using hc
      exact structural_not_space hlast
  · rw [segments_operator hfirst hopened ?_, hbody.cut, hend]
    · intro c hc
      obtain rfl : last = c := by simpa using hc
      exact hlast
    · obtain ⟨b, tail, rfl, hspace⟩ := hbody.head
      intro c hc
      obtain rfl : b = c := by simpa using hc
      exact hspace

theorem Cuts.container {first last : UInt8} (hfirst : isStructural first = true)
    (hlast : isStructural last = true) {opened closed body : Bytes} {tokens : List Bytes}
    (hopened : Spaces opened) (hclosed : Spaces closed)
    (hbody : body = [] ∧ tokens = [] ∨ Cuts k body tokens) :
    Cuts k (first :: (opened ++ (body ++ last :: closed)))
      ((first :: opened) :: (tokens ++ [last :: closed])) where
  head := ⟨first, _, rfl, structural_not_space hfirst⟩
  cut rest hrest := by
    have hcontainer := segments_container (k := k) hfirst hlast hopened hclosed hbody
      fun b hb => structural_not_space (hrest b hb)
    simpa using hcontainer

theorem cuts_items {value : Node} {commaAfter : Bytes} {rest : Items} (hcomma : Spaces commaAfter)
    (hvalue : Cuts k value.text value.tokens)
    (hrest : rest.isNil = false → Cuts k rest.text rest.tokens) :
    Cuts k (Items.cons value commaAfter rest).text (Items.cons value commaAfter rest).tokens := by
  cases hnil : rest.isNil with
  | true => simpa [Items.text, Items.tokens, hnil] using hvalue
  | false => simpa [Items.text, Items.tokens, hnil] using hvalue.append rfl hcomma (hrest hnil)

theorem cuts_members {key keyAfter colonAfter commaAfter : Bytes} {value : Node} {rest : Members}
    (hkey : Inside key) (hkeyAfter : Spaces keyAfter) (hcolon : Spaces colonAfter)
    (hcomma : Spaces commaAfter) (hvalue : Cuts k value.text value.tokens)
    (hrest : rest.isNil = false → Cuts k rest.text rest.tokens) :
    Cuts k (Members.cons key keyAfter colonAfter value commaAfter rest).text
      (Members.cons key keyAfter colonAfter value commaAfter rest).tokens := by
  have hname : Cuts k (34 :: (key ++ 34 :: keyAfter)) [34 :: (key ++ 34 :: keyAfter)] :=
    (token_string hkey hkeyAfter).cuts
  cases hnil : rest.isNil with
  | true => simpa [Members.text, Members.tokens, hnil] using hname.append rfl hcolon hvalue
  | false =>
      simpa [Members.text, Members.tokens, hnil] using
        hname.append rfl hcolon (hvalue.append rfl hcomma (hrest hnil))

theorem isNumber_plain {token : Bytes} (h : IsNumber token) :
    token ≠ [] ∧ ∀ b ∈ token, plainByte b = true := by
  refine ⟨?_, fun b hb => ?_⟩
  · obtain ⟨sign, integer, fraction, exponent, rfl, -, hinteger, -, -⟩ := h
    obtain ⟨first, tail, rfl, -⟩ := isInteger_head hinteger
    simp
  · have hbyte := isNumber_bytes h b hb
    simp only [numberByte, isDigit, Bool.or_eq_true, decide_eq_true_eq] at hbyte
    rcases hbyte with ((((hdigit | rfl) | rfl) | rfl) | rfl) | rfl
    · simp only [plainByte, isStructural, Bool.and_eq_true, Bool.not_eq_true', Bool.or_eq_false_iff,
        decide_eq_true_eq, decide_eq_false_iff_not]
      refine ⟨⟨by omega, ⟨⟨⟨⟨⟨?_, ?_⟩, ?_⟩, ?_⟩, ?_⟩, ?_⟩⟩, ?_⟩ <;>
        (rintro rfl; revert hdigit; decide)
    all_goals rfl

mutual

/-- The tokens of a valid text are those of its syntax. -/
theorem cuts_node (node : Node) (h : node.WellFormed) : Cuts k node.text node.tokens := by
  cases node with
  | null after =>
      exact (token_plain (by decide +kernel) (by decide +kernel) h).cuts
  | bool value after =>
      cases value with
      | false => exact (token_plain (by decide +kernel) (by decide +kernel) h).cuts
      | true => exact (token_plain (by decide +kernel) (by decide +kernel) h).cuts
  | number token after =>
      obtain ⟨hne, hplain⟩ := isNumber_plain h.1
      exact (token_plain hne hplain h.2).cuts
  | string raw after => exact (token_string h.1.inside h.2).cuts
  | array opened items closed =>
      simp only [Node.WellFormed] at h
      refine Cuts.container rfl rfl h.1 h.2.2 ?_
      cases hnil : items.isNil with
      | true => exact .inl (by rw [items_isNil hnil]; exact ⟨rfl, rfl⟩)
      | false => exact .inr (cuts_itemsOf items h.2.1 hnil)
  | object opened members closed =>
      simp only [Node.WellFormed] at h
      refine Cuts.container rfl rfl h.1 h.2.2 ?_
      cases hnil : members.isNil with
      | true => exact .inl (by rw [members_isNil hnil]; exact ⟨rfl, rfl⟩)
      | false => exact .inr (cuts_membersOf members h.2.1 hnil)

theorem cuts_itemsOf (items : Items) (h : items.WellFormed) (hnil : items.isNil = false) :
    Cuts k items.text items.tokens := by
  cases items with
  | nil => cases hnil
  | cons value commaAfter rest =>
      simp only [Items.WellFormed] at h
      exact cuts_items h.2.1 (cuts_node value h.1) (cuts_itemsOf rest h.2.2)

theorem cuts_membersOf (members : Members) (h : members.WellFormed)
    (hnil : members.isNil = false) : Cuts k members.text members.tokens := by
  cases members with
  | nil => cases hnil
  | cons key keyAfter colonAfter value commaAfter rest =>
      simp only [Members.WellFormed] at h
      obtain ⟨hkey, hkeyAfter, hcolon, hvalue, hcomma, hrest⟩ := h
      exact cuts_members hkey.inside hkeyAfter hcolon hcomma (cuts_node value hvalue)
        (cuts_membersOf rest hrest)

end

end Cuts

end Simdjson

end MarketCapture
