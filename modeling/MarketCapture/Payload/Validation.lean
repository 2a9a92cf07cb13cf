import Mathlib.Data.List.TakeWhile
import MarketCapture.Payload.Recognition

/-! # Validated documents

Which texts the library hands out as an object or an array that passes the generic validation: a
byte order mark may stand in front, and the last check looks at no more than the last bracket.
-/

namespace MarketCapture

open Simdjson JsonText JsonValidation

namespace Simdjson

section Texts

variable {k : Kernel}

/-- A text that stage one cuts: it is UTF-8, and its strings are closed and hold no control
character. -/
structure Lexable (text : Bytes) : Prop where
  closed : (Quoting.run {} text).inString = false
  unescaped : Quoting.unescaped {} text = false
  utf8 : ValidUtf8 text

/-- The last byte that is not whitespace is this one, outside the strings. -/
def EndsIn (b : UInt8) (text : Bytes) : Prop :=
  ∃ before spaces, text = before ++ b :: spaces ∧ Spaces spaces ∧
    (Quoting.run {} before).inString = false

theorem stage1_ok {buffer : Bytes} {tokens : List Bytes} :
    stage1 k buffer = .ok tokens ↔
      Lexable buffer ∧ segments k buffer ≠ [] ∧ segments k buffer = tokens := by
  unfold stage1
  constructor
  · intro h
    split_ifs at h with hclosed hunescaped hempty hutf8
    exact ⟨⟨Bool.eq_false_iff.mpr hclosed, Bool.eq_false_iff.mpr hunescaped, hutf8⟩, hempty,
      Except.ok.inj h⟩
  · rintro ⟨⟨hclosed, hunescaped, hutf8⟩, hempty, rfl⟩
    rw [if_neg (by rw [hclosed]; exact Bool.false_ne_true),
      if_neg (by rw [hunescaped]; exact Bool.false_ne_true), if_neg hempty, if_pos hutf8]

theorem Lexable.of_passes {text stripped : Bytes} (h : Passes text stripped) : Lexable text where
  closed := by rw [h.run]
  unescaped := by
    have hunescaped := h.unescaped []
    rwa [List.append_nil] at hunescaped
  utf8 := h.utf8

theorem run_spaces_quoting {spaces rest : Bytes} (h : Spaces spaces) :
    Quoting.run {} (spaces ++ rest) = Quoting.run {} rest := by
  have hrun := Scan.run_toQuoting (k := Kernel.x64) {} spaces
  rw [Scan.run_spaces h] at hrun
  rw [Quoting.run_append]
  exact congrArg (Quoting.run · rest) hrun.symm

/-- The text of the tokens stands behind the whitespace in front of them. -/
theorem lexed_segments {buffer : Bytes} (h : Lexable buffer) :
    ∃ leading, Spaces leading ∧ buffer = leading ++ (segments k buffer).flatten ∧
      Lexed k (segments k buffer) := by
  have hsplit : buffer = buffer.takeWhile isSpace ++ buffer.dropWhile isSpace :=
    List.takeWhile_append_dropWhile.symm
  have hleading : Spaces (buffer.takeWhile isSpace) := fun b hb => List.mem_takeWhile_imp hb
  have hhead : ∀ b ∈ (buffer.dropWhile isSpace).head?, isSpace b = false := by
    intro b hb
    have hne : buffer.dropWhile isSpace ≠ [] := by
      intro hnil
      rw [hnil] at hb
      cases hb
    have hnot := List.head_dropWhile_not isSpace hne
    rw [List.head?_eq_some_head hne, Option.mem_def, Option.some.injEq] at hb
    rwa [hb] at hnot
  have hclosed := h.closed
  have hutf8 := h.utf8
  generalize buffer.takeWhile isSpace = leading at *
  generalize buffer.dropWhile isSpace = body at *
  subst hsplit
  rw [run_spaces_quoting hleading] at hclosed
  obtain ⟨hscanned, hflatten⟩ := scanned_segments (k := k) hhead hclosed
  rw [segments_spaces hleading]
  exact ⟨leading, hleading, by rw [hflatten], hscanned, leading, by rw [hflatten]; exact hutf8⟩

/-- Every token ends outside the strings, also in the text before it. -/
theorem Scanned.closed {tokens rest : List Bytes} (h : Scanned k (tokens ++ rest)) :
    (Scan.run k {} tokens.flatten).inString = false := by
  induction tokens with
  | nil => rfl
  | cons token tokens ih =>
      cases h with
      | cons single bound scanned =>
          have hrest := ih scanned
          rw [List.flatten_cons, Scan.run_append]
          cases hmore : tokens.flatten with
          | nil => exact single.closed
          | cons b tail =>
              have hhead : b ∈ (tokens ++ rest).flatten.head? := by
                rw [List.flatten_append, hmore]
                rfl
              have hstarts := bound b hhead
              have hplain := Scan.run_plain (k := k) Scan.plain_start token
              rw [hmore] at hrest
              show (Scan.run k ((Scan.run k {} token).next k b) tail).inString = false
              rw [Scan.next_of_starts hplain hstarts]
              exact hrest

theorem cut_last {s : Scan} {before spaces : Bytes} {b : UInt8}
    (hclosed : (Scan.run k s before).inString = false) (hb : isStructural b = true)
    (hspaces : Spaces spaces) :
    (Scan.cut k s (before ++ b :: spaces)).2.getLast? = some (b :: spaces) := by
  induction before generalizing s with
  | nil =>
      have hoperator := k.operator_structural hb
      have hs : s.inString = false := hclosed
      have hcut : Scan.cut k {} (spaces ++ []) = (spaces, segments k []) :=
        Scan.cut_tail Scan.plain_start (Scan.tail_spaces rfl hspaces) fun next h => by cases h
      rw [List.append_nil] at hcut
      rw [List.nil_append, Scan.cut, Scan.next_operator s hs hoperator, hcut]
      simp [Scan.starts_operator hs hoperator, segments, Scan.cut]
  | cons c before ih =>
      have hlast := ih (s := s.next k c) hclosed
      rw [List.cons_append, Scan.cut]
      simp only
      split
      · rw [List.getLast?_cons, hlast]
        rfl
      · exact hlast

theorem closedBy_iff {buffer : Bytes} (h : Lexable buffer) {b : UInt8}
    (hb : isStructural b = true) :
    closedBy b (segments k buffer) = true ↔ EndsIn b buffer := by
  constructor
  · intro hlast
    obtain ⟨leading, hleading, hbuffer, hlexed⟩ := lexed_segments (k := k) h
    generalize segments k buffer = tokens at *
    cases hget : tokens.getLast? with
    | none => simp [closedBy, hget] at hlast
    | some token =>
        obtain ⟨before, rfl⟩ := List.getLast?_eq_some_iff.mp hget
        have hhead : token.head? = some b := by simpa [closedBy] using hlast
        obtain ⟨spaces, rfl⟩ := List.head?_eq_some_iff.mp hhead
        have hclosed := hlexed.scanned.closed
        refine ⟨leading ++ before.flatten, spaces, by rw [hbuffer]; simp,
          hlexed.drop.structural hb, ?_⟩
        rw [run_spaces_quoting hleading]
        have hrun := Scan.run_toQuoting (k := k) {} before.flatten
        rw [← hrun]
        exact hclosed
  · rintro ⟨before, spaces, rfl, hspaces, hclosed⟩
    have hrun := Scan.run_toQuoting (k := k) {} before
    have hlast : (Scan.cut k {} (before ++ b :: spaces)).2.getLast? = some (b :: spaces) :=
      cut_last (by rw [hrun]; exact hclosed) hb hspaces
    rw [closedBy, segments, hlast]
    simp

/-! ## The root -/

theorem valueAt_type (fuel : Nat) (token : Bytes) (rest : List Bytes) :
    (valueAt (fuel + 1) (token :: rest)).1.type = typeOf token := by
  rw [valueAt]
  cases htype : typeOf token with
  | error e => rfl
  | ok type => cases type <;> rfl

theorem rootValue_type (tokens : List Bytes) :
    (rootValue tokens).type = (valueAt (enoughFuel tokens) tokens).1.type := by
  unfold rootValue
  generalize (valueAt (enoughFuel tokens) tokens).1 = value
  obtain ⟨answers, elements, fields⟩ := value
  cases htype : answers.type with
  | error e => simp [Value.type, Value.answers, htype]
  | ok type =>
      cases type with
      | object => cases closedBy 125 tokens <;> simp [Value.type, Value.answers, htype]
      | array => cases closedBy 93 tokens <;> simp [Value.type, Value.answers, htype]
      | _ => simp [Value.type, Value.answers, htype, scalar]

theorem ondemand_iterate (k : Kernel) {payload : Bytes} {document : Value} :
    (Library.ondemand k).iterate payload = .ok document ↔
      Lexable (removeUtf8Bom payload) ∧ segments k (removeUtf8Bom payload) ≠ [] ∧
        rootValue (segments k (removeUtf8Bom payload)) = document := by
  simp only [Library.ondemand]
  cases hstage : stage1 k (removeUtf8Bom payload) with
  | error e =>
      refine iff_of_false (by simp [Except.map]) ?_
      rintro ⟨hlexable, hempty, -⟩
      rw [stage1_ok.mpr ⟨hlexable, hempty, rfl⟩] at hstage
      cases hstage
  | ok tokens =>
      obtain ⟨hlexable, hempty, rfl⟩ := stage1_ok.mp hstage
      simp [Except.map, hlexable, hempty]

/-! ## Documents -/

/-- The text of a document, with whitespace in front of it and something behind it that stage one
takes and that ends as the document has to. -/
structure DocumentText (text leading : Bytes) (node : Node) (trailing : Bytes) : Prop where
  text_eq : text = leading ++ (node.text ++ trailing)
  leading : Spaces leading
  container : Container node
  wellFormed : node.WellFormed
  untrailed : ¬Trailed node
  nested : node.depth ≤ maxJsonNestingDepth
  trailing : ∀ b ∈ trailing.head?, isSpace b = false
  lexable : Lexable text
  last : EndsIn (closing node) text

/-- The first token behind an object or an array that is not the last one is no whitespace. -/
theorem Lexed.head {rest : List Bytes} (h : Lexed k rest) :
    ∀ b ∈ rest.flatten.head?, isSpace b = false := by
  intro b hb
  cases rest with
  | nil => cases hb
  | cons token rest =>
      have hscanned := h.scanned
      cases hscanned with
      | cons single _ _ =>
          obtain ⟨c, tail, rfl, hspace, -⟩ := single
          obtain rfl : c = b := by simpa using hb
          exact hspace

/-- A value that starts with a bracket is a container. -/
theorem container_of_typeOf {node : Node} (h : node.WellFormed) {token : Bytes}
    {rest : List Bytes} (htokens : node.tokens = token :: rest)
    (htype : typeOf token = .ok .object ∨ typeOf token = .ok .array) : Container node := by
  cases node with
  | null after =>
      obtain ⟨rfl, -⟩ := List.cons.inj htokens
      rcases htype with htype | htype <;> cases htype
  | bool value after =>
      obtain ⟨rfl, -⟩ := List.cons.inj htokens
      rw [typeOf_bool] at htype
      rcases htype with htype | htype <;> cases htype
  | number number after =>
      obtain ⟨rfl, -⟩ := List.cons.inj htokens
      rw [typeOf_number h.1] at htype
      rcases htype with htype | htype <;> cases htype
  | string raw after =>
      obtain ⟨rfl, -⟩ := List.cons.inj htokens
      rcases htype with htype | htype <;> cases htype
  | array opened items closed => exact .array opened items closed
  | object opened members closed => exact .object opened members closed

/-- The tokens of a document do not depend on what follows it. -/
theorem segments_document {node : Node} (hcontainer : Container node) (h : node.WellFormed)
    {rest : Bytes} (hrest : ∀ b ∈ rest.head?, isSpace b = false) :
    segments k (node.text ++ rest) = node.tokens ++ segments k rest := by
  cases hcontainer with
  | array opened items closed =>
      simp only [Node.WellFormed] at h
      have hbody : items.text = [] ∧ items.tokens = [] ∨ Cuts k items.text items.tokens := by
        cases hnil : items.isNil with
        | true =>
            rw [items_isNil hnil]
            exact .inl ⟨rfl, rfl⟩
        | false => exact .inr (cuts_itemsOf items h.2.1 hnil)
      simpa [Node.text, Node.tokens] using
        segments_container (k := k) rfl rfl h.1 h.2.2 hbody hrest
  | object opened members closed =>
      simp only [Node.WellFormed] at h
      have hbody : members.text = [] ∧ members.tokens = [] ∨
          Cuts k members.text members.tokens := by
        cases hnil : members.isNil with
        | true =>
            rw [members_isNil hnil]
            exact .inl ⟨rfl, rfl⟩
        | false => exact .inr (cuts_membersOf members h.2.1 hnil)
      simpa [Node.text, Node.tokens] using
        segments_container (k := k) rfl rfl h.1 h.2.2 hbody hrest

/-- A document that is valid ends as it has to: the last check fails the iteration otherwise. -/
theorem rootValue_closed {tokens : List Bytes} {type : JsonType} {b : UInt8}
    (htype : (rootValue tokens).type = .ok type)
    (hb : type = .object ∧ b = 125 ∨ type = .array ∧ b = 93) {depth : Nat}
    (hvalid : validateValue (rootValue tokens) depth = none) :
    closedBy b tokens = true ∧
      rootValue tokens = (valueAt (enoughFuel tokens) tokens).1 := by
  rw [rootValue_type] at htype
  cases hlast : closedBy b tokens with
  | true =>
      refine ⟨rfl, ?_⟩
      unfold rootValue
      rcases hb with ⟨rfl, rfl⟩ | ⟨rfl, rfl⟩ <;> simp [htype, hlast]
  | false =>
      exfalso
      unfold rootValue at hvalid
      generalize (valueAt (enoughFuel tokens) tokens).1 = value at htype hvalid
      obtain ⟨answers, elements, fields⟩ := value
      simp only [Value.type, Value.answers] at htype
      rcases hb with ⟨rfl, rfl⟩ | ⟨rfl, rfl⟩ <;>
      · simp only [Value.type, Value.answers, htype, hlast, Bool.false_eq_true, if_false,
          validateValue, validateElements, validateFields] at hvalid
        split at hvalid <;> cases hvalid

/-- The generic validation passes exactly the valid objects and arrays within the limit on open
containers, in any spacing in which no number and no null has whitespace behind it. -/
theorem validated_iff (k : Kernel) (payload : Bytes) :
    (∃ document, (Library.ondemand k).iterate payload = .ok document ∧
      (document.type = .ok .object ∨ document.type = .ok .array) ∧
        validateValue document 1 = none) ↔
    ∃ leading node trailing, DocumentText (removeUtf8Bom payload) leading node trailing := by
  generalize hbuffer : removeUtf8Bom payload = buffer
  constructor
  · rintro ⟨document, hdocument, htype, hvalid⟩
    obtain ⟨hlexable, hempty, rfl⟩ := (ondemand_iterate k).mp hdocument
    rw [hbuffer] at *
    obtain ⟨leading, hleading, htext, hlexed⟩ := lexed_segments (k := k) hlexable
    generalize htokens : segments k buffer = tokens at *
    obtain ⟨type, hroot, hshape⟩ : ∃ type, (rootValue tokens).type = .ok type ∧
        (type = .object ∨ type = .array) := by
      rcases htype with htype | htype
      · exact ⟨_, htype, .inl rfl⟩
      · exact ⟨_, htype, .inr rfl⟩
    obtain ⟨b, hb⟩ : ∃ b : UInt8, type = .object ∧ b = 125 ∨ type = .array ∧ b = 93 := by
      rcases hshape with rfl | rfl
      · exact ⟨125, .inl ⟨rfl, rfl⟩⟩
      · exact ⟨93, .inr ⟨rfl, rfl⟩⟩
    obtain ⟨hlast, hvalue⟩ := rootValue_closed hroot hb hvalid
    rw [hvalue] at hvalid hroot
    obtain ⟨hrecognised, -, -⟩ := recognises (k := k) (enoughFuel tokens)
    obtain ⟨node, rest, -, hnode, hwell, htrailed, hdepth⟩ :=
      hrecognised tokens 1 hlexed (by decide) hvalid
    obtain ⟨first, tail, more, hhead, -⟩ := tokens_head node hwell
    have hfirst : typeOf (first :: tail) = .ok type := by
      rw [hnode, hhead, List.cons_append, enoughFuel, valueAt_type] at hroot
      exact hroot
    have hcontainer : Container node := by
      refine container_of_typeOf hwell hhead ?_
      rw [hfirst]
      rcases hshape with rfl | rfl
      · exact .inl rfl
      · exact .inr rfl
    have hclosing : closing node = b := by
      cases hcontainer with
      | array opened items closed =>
          obtain ⟨hfront, -⟩ := List.cons.inj hhead
          obtain ⟨rfl, rfl⟩ := List.cons.inj hfront
          rcases hb with ⟨rfl, -⟩ | ⟨-, rfl⟩
          · cases hfirst
          · rfl
      | object opened members closed =>
          obtain ⟨hfront, -⟩ := List.cons.inj hhead
          obtain ⟨rfl, rfl⟩ := List.cons.inj hfront
          rcases hb with ⟨-, rfl⟩ | ⟨rfl, -⟩
          · rfl
          · cases hfirst
    have hends : EndsIn b buffer := by
      refine (closedBy_iff (k := k) hlexable ?_).mp (by rw [htokens]; exact hlast)
      rcases hb with ⟨-, rfl⟩ | ⟨-, rfl⟩ <;> rfl
    refine ⟨leading, node, rest.flatten, ?_, hleading, hcontainer, hwell, htrailed, by omega,
      Lexed.head (k := k) ?_, hlexable, by rw [hclosing]; exact hends⟩
    · rw [htext, hnode, List.flatten_append, Node.tokens_flatten]
    · rw [hnode] at hlexed
      exact hlexed.drop
  · rintro ⟨leading, node, trailing, hdoc⟩
    have hsegments : segments k buffer = node.tokens ++ segments k trailing := by
      rw [hdoc.text_eq, segments_spaces hdoc.leading,
        segments_document hdoc.container hdoc.wellFormed hdoc.trailing]
    have hlast : closedBy (closing node) (node.tokens ++ segments k trailing) = true := by
      rw [← hsegments]
      refine (closedBy_iff hdoc.lexable ?_).mpr hdoc.last
      cases hdoc.container <;> rfl
    have hempty : segments k buffer ≠ [] := by
      obtain ⟨first, tail, more, hhead, -⟩ := tokens_head node hdoc.wellFormed
      rw [hsegments, hhead]
      exact List.cons_ne_nil _ _
    refine ⟨valueOf node, (ondemand_iterate k).mpr ⟨by rw [hbuffer]; exact hdoc.lexable,
      by rw [hbuffer]; exact hempty, ?_⟩, ?_, ?_⟩
    · rw [hbuffer, hsegments, rootValue_node hdoc.container hdoc.wellFormed hlast]
    · cases hdoc.container with
      | array opened items closed => exact .inr rfl
      | object opened members closed => exact .inl rfl
    · have hnested := hdoc.nested
      rcases validateValue_outcome node 1 hdoc.wellFormed (by omega) with
        ⟨hnone, -⟩ | ⟨-, -, -, hbad⟩
      · exact hnone
      · exact absurd hbad hdoc.untrailed

end Texts

end Simdjson

end MarketCapture
