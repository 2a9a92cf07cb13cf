import MarketCapture.Payload.Reading

/-! # Recognising documents

The converse of reading: over the tokens of a text in UTF-8, an iteration that passes the generic
validation is over the tokens of a valid value in which no number and no null has whitespace
behind it, and over no others.
-/

namespace MarketCapture

open Simdjson JsonText JsonValidation
open ByteText (isDigit)

namespace Simdjson

/-- The tokens of a text in UTF-8, from some place on. -/
structure Lexed (k : Kernel) (tokens : List Bytes) : Prop where
  scanned : Scanned k tokens
  utf8 : ∃ before, ValidUtf8 (before ++ tokens.flatten)

section Tokens

variable {k : Kernel}

theorem Lexed.tail {token : Bytes} {rest : List Bytes} (h : Lexed k (token :: rest)) :
    Lexed k rest where
  scanned := h.scanned.tail
  utf8 := by
    obtain ⟨before, hutf8⟩ := h.utf8
    exact ⟨before ++ token, by simpa using hutf8⟩

theorem Lexed.drop {tokens rest : List Bytes} (h : Lexed k (tokens ++ rest)) : Lexed k rest := by
  induction tokens with
  | nil => exact h
  | cons token tokens ih => exact ih h.tail

theorem Lexed.start {b : UInt8} {tail : Bytes} {rest : List Bytes}
    (h : Lexed k ((b :: tail) :: rest)) :
    Scan.Tail k (({} : Scan).next k b) tail ∧ ∀ next ∈ rest.flatten.head?,
      (Scan.run k (({} : Scan).next k b) tail).starts k next = true := by
  have hscanned := h.scanned
  cases hscanned with
  | cons single bound _ =>
      obtain ⟨c, tail', heq, -, htail⟩ := single
      obtain ⟨rfl, rfl⟩ := List.cons.inj heq
      exact ⟨htail, bound⟩

theorem Scan.next_space {s : Scan} (hs : s.inString = false) {b : UInt8} (hb : isSpace b = true) :
    s.next k b = {} := by
  have hquote : b ≠ 34 := by
    rintro rfl
    cases hb
  have hbackslash : b ≠ 92 := by
    rintro rfl
    cases hb
  simp [Scan.next, Quoting.next, Quoting.quote, hquote, hbackslash, Scan.isScalar, hb, hs]

/-- Nothing but whitespace follows in a token that is over. -/
theorem Scan.Tail.spaces {tail : Bytes} (h : Scan.Tail k {} tail) : Spaces tail := by
  induction tail with
  | nil => exact fun b hb => by cases hb
  | cons b rest ih =>
      have hspace : isSpace b = true := by
        by_contra hb
        have hstarts := h.1
        rw [Scan.starts_start (Bool.eq_false_iff.mpr hb)] at hstarts
        cases hstarts
      have hrest := h.2
      rw [Scan.next_space rfl hspace] at hrest
      intro c hc
      rcases List.mem_cons.mp hc with rfl | hc
      · exact hspace
      · exact ih hrest c hc

/-- A structural character is a token by itself, up to whitespace. -/
theorem Lexed.structural {b : UInt8} {tail : Bytes} {rest : List Bytes}
    (h : Lexed k ((b :: tail) :: rest)) (hb : isStructural b = true) : Spaces tail := by
  obtain ⟨htail, -⟩ := h.start
  rw [Scan.next_operator {} rfl (k.operator_structural hb)] at htail
  exact htail.spaces

/-- The next token is this structural character. -/
theorem Lexed.sees {b : UInt8} {tokens : List Bytes} (h : Lexed k tokens)
    (hb : isStructural b = true) (hsees : sees b tokens = true) :
    ∃ spaces rest, Spaces spaces ∧ tokens = (b :: spaces) :: rest := by
  cases tokens with
  | nil => cases hsees
  | cons token rest =>
      cases token with
      | nil => cases hsees
      | cons c tail =>
          obtain rfl : c = b := by simpa [Simdjson.sees] using hsees
          exact ⟨tail, rest, h.structural hb, rfl⟩

theorem Scan.Tail.string {s : Scan} {tail : Bytes} (hs : s.inString = true)
    (h : Scan.Tail k s tail) :
    ∃ spaces, Spaces spaces ∧ tail = rawString s.escaped tail ++ 34 :: spaces := by
  induction tail generalizing s with
  | nil =>
      rw [show s.inString = false from h] at hs
      cases hs
  | cons b tail ih =>
      obtain ⟨-, htail⟩ := h
      by_cases hquote : b = 34 ∧ s.escaped = false
      · -- the closing quote: only whitespace follows it in its token
        obtain ⟨rfl, hescaped⟩ := hquote
        have hnext : s.next k 34 = {} := by
          simp [Scan.next, Quoting.next, Quoting.quote, hs, hescaped]
        rw [hnext] at htail
        exact ⟨tail, htail.spaces, by simp [rawString, hescaped]⟩
      · have hinside : (s.next k b).inString = true := by
          have hno : s.quote b = false := by
            rw [Bool.eq_false_iff]
            simpa [Quoting.quote] using hquote
          simp [Scan.next, Quoting.next, hno, hs]
        have hstep : rawString s.escaped (b :: tail) =
            b :: rawString (decide (b = 92) && !s.escaped) tail := by
          rw [rawString, if_neg hquote]
        obtain ⟨spaces, hspaces, heq⟩ := ih hinside htail
        refine ⟨spaces, hspaces, ?_⟩
        rw [hstep, List.cons_append]
        exact congrArg _ heq

/-- A string token is what stands between its quotes, up to whitespace. -/
theorem Lexed.string {tail : Bytes} {rest : List Bytes} (h : Lexed k ((34 :: tail) :: rest)) :
    ∃ spaces, Spaces spaces ∧ tail = rawString false tail ++ 34 :: spaces ∧
      ValidUtf8 (rawString false tail) := by
  obtain ⟨htail, -⟩ := h.start
  obtain ⟨spaces, hspaces, hraw⟩ :=
    htail.string (by simp [Scan.next, Quoting.next, Quoting.quote])
  have hescaped : (({} : Scan).next k 34).escaped = false := rfl
  rw [hescaped] at hraw
  refine ⟨spaces, hspaces, hraw, ?_⟩
  obtain ⟨before, hutf8⟩ := h.utf8
  rw [hraw] at hutf8
  have hquote : (34 : UInt8).toNat < 128 := by decide
  have hafter : ValidUtf8 (rawString false tail ++ 34 :: (spaces ++ rest.flatten)) := by
    refine (ValidUtf8.split (a := before) hquote ?_).2
    simpa using hutf8
  exact (ValidUtf8.split hquote hafter).1

/-- A literal that is followed by a structural character or whitespace is a token. -/
theorem Scan.Tail.eq_of_plain {s : Scan} {tail more plain rest : Bytes} {b : UInt8}
    (hs : s.inString = false) (hfollows : s.followsScalar = true) (h : Scan.Tail k s tail)
    (hbound : ∀ next ∈ more.head?, (Scan.run k s tail).starts k next = true)
    (hplain : ∀ c ∈ plain, plainByte c = true) (hb : isStructuralOrWhitespace b = true)
    (heq : tail ++ more = plain ++ b :: rest) : ∃ spaces, Spaces spaces ∧ tail = plain ++ spaces := by
  induction plain generalizing s tail with
  | nil =>
      refine ⟨tail, ?_, rfl⟩
      cases tail with
      | nil => exact fun b hb => by cases hb
      | cons c tail =>
          obtain ⟨rfl, -⟩ := List.cons.inj heq
          have hspace : isSpace c = true := by
            rw [isStructuralOrWhitespace, Bool.or_eq_true] at hb
            rcases hb with hstructural | hspace
            · have hstarts := h.1
              rw [Scan.starts_operator hs (k.operator_structural hstructural)] at hstarts
              cases hstarts
            · exact hspace
          have hrest := h.2
          rw [Scan.next_space hs hspace] at hrest
          intro d hd
          rcases List.mem_cons.mp hd with rfl | hd
          · exact hspace
          · exact hrest.spaces d hd
  | cons c plain ih =>
      obtain ⟨hoperator, hscalar, -, hquote⟩ := plainByte_scalar (k := k) (hplain c List.mem_cons_self)
      cases tail with
      | nil =>
          have hstarts := hbound c (by rw [List.nil_append] at heq; rw [heq]; rfl)
          exfalso
          simp [Scan.run, Scan.starts, hoperator, hfollows] at hstarts
      | cons d tail =>
          obtain ⟨rfl, hrest⟩ := List.cons.inj heq
          obtain ⟨spaces, hspaces, htail⟩ := ih (s := s.next k d)
            (by simp [Scan.next, Quoting.next, Quoting.quote, hquote, hs])
            (by simp [Scan.next, Quoting.quote, hquote, hscalar]) h.2 hbound
            (fun e he => hplain e (List.mem_cons_of_mem _ he)) hrest
          exact ⟨spaces, hspaces, congrArg _ htail⟩

theorem parseBool_ok {source : Bytes} {value : Bool} (h : parseBool source = .ok value) :
    ∃ b rest, source = boolText value ++ b :: rest ∧ isStructuralOrWhitespace b = true := by
  have hzero : isStructuralOrWhitespace 0 = false := rfl
  have hend : ∀ n, isStructuralOrWhitespace ((source.drop n).headD 0) = true →
      ∃ b rest, source.drop n = b :: rest ∧ isStructuralOrWhitespace b = true := by
    intro n hn
    cases hdrop : source.drop n with
    | nil =>
        rw [hdrop, List.headD_nil, hzero] at hn
        cases hn
    | cons b rest =>
        rw [hdrop] at hn
        exact ⟨b, rest, rfl, hn⟩
  unfold parseBool at h
  split at h
  · rename_i htext
    split at h
    · rename_i hended
      obtain ⟨b, rest, hdrop, hb⟩ := hend 4 hended
      cases h
      refine ⟨b, rest, ?_, hb⟩
      rw [boolText, if_pos rfl, ← htext, ← hdrop, List.take_append_drop]
    · cases h
  · split at h
    · rename_i htext
      split at h
      · rename_i hended
        obtain ⟨b, rest, hdrop, hb⟩ := hend 5 hended
        cases h
        refine ⟨b, rest, ?_, hb⟩
        rw [boolText, if_neg Bool.false_ne_true, ← htext, ← hdrop, List.take_append_drop]
      · cases h
    · cases h

/-- The token of a boolean. -/
theorem Lexed.bool {token : Bytes} {rest : List Bytes} (h : Lexed k (token :: rest)) {value : Bool}
    (hparse : parseBool (token :: rest).flatten = .ok value) :
    ∃ spaces, Spaces spaces ∧ token = boolText value ++ spaces := by
  obtain ⟨b, more, hsource, hb⟩ := parseBool_ok hparse
  rw [List.flatten_cons] at hsource
  have htext : ∃ first plain, boolText value = first :: plain ∧ plainByte first = true ∧
      ∀ c ∈ plain, plainByte c = true := by
    cases value with
    | false => exact ⟨102, [97, 108, 115, 101], by decide +kernel, rfl, by decide +kernel⟩
    | true => exact ⟨116, [114, 117, 101], by decide +kernel, rfl, by decide +kernel⟩
  obtain ⟨first, plain, htext, hfirst, hplain⟩ := htext
  obtain ⟨-, hscalar, -, hquote⟩ := plainByte_scalar (k := k) hfirst
  have hscanned := h.scanned
  cases hscanned with
  | cons single _ _ =>
      obtain ⟨c, tail, rfl, -, -⟩ := single
      rw [htext, List.cons_append] at hsource
      obtain ⟨rfl, hrest⟩ := List.cons.inj hsource
      obtain ⟨htail, hbound⟩ := h.start
      obtain ⟨spaces, hspaces, heq⟩ := htail.eq_of_plain
        (by simp [Scan.next, Quoting.next, Quoting.quote, hquote])
        (by simp [Scan.next, Quoting.quote, hquote, hscalar]) hbound hplain hb hrest
      exact ⟨spaces, hspaces, by rw [htext, heq, List.cons_append]⟩

/-! ## Values -/

/-- A valid value stands before these tokens, within the limit on open containers, and the
iteration ends behind it. -/
def NodeAt (tokens : List Bytes) (depth : Nat) (after : Option (List Bytes)) : Prop :=
  ∃ (node : Node) (rest : List Bytes), after = some rest ∧ tokens = node.tokens ++ rest ∧
    node.WellFormed ∧ ¬Trailed node ∧ node.depth + depth ≤ maxJsonNestingDepth + 1

def ItemsAt (tokens : List Bytes) (depth : Nat) (after : Option (List Bytes)) : Prop :=
  ∃ (items : Items) (closed : Bytes) (rest : List Bytes), after = some rest ∧
    tokens = items.tokens ++ (93 :: closed) :: rest ∧ items.isNil = false ∧ items.WellFormed ∧
    Spaces closed ∧ ¬TrailedItems items ∧ items.depth + depth ≤ maxJsonNestingDepth + 1

def MembersAt (tokens : List Bytes) (depth : Nat) (after : Option (List Bytes)) : Prop :=
  ∃ (members : Members) (closed : Bytes) (rest : List Bytes), after = some rest ∧
    tokens = members.tokens ++ (125 :: closed) :: rest ∧ members.isNil = false ∧
    members.WellFormed ∧ Spaces closed ∧ ¬TrailedMembers members ∧
    members.depth + depth ≤ maxJsonNestingDepth + 1

/-- What the type of a value says about its first byte. -/
theorem typeOf_ok {token : Bytes} {type : JsonType} (h : typeOf token = .ok type) :
    ∃ b tail, token = b :: tail ∧ (type = .array → b = 91) ∧ (type = .object → b = 123) ∧
      (type = .string → b = 34) := by
  cases token with
  | nil => cases h
  | cons b tail =>
      refine ⟨b, tail, rfl, ?_⟩
      simp only [typeOf] at h
      split_ifs at h with h₁ h₂ h₃ h₄ h₅ h₆ <;> cases h <;> simp_all

theorem scalar_sound {token : Bytes} {rest : List Bytes} {type : JsonType} {depth : Nat}
    (h : Lexed k (token :: rest)) (htype : typeOf token = .ok type) (harray : type ≠ .array)
    (hobject : type ≠ .object) (hdepth : depth ≤ maxJsonNestingDepth + 1)
    (hvalid : validateValue (scalarAt type token (token :: rest).flatten) depth = none) :
    NodeAt (token :: rest) depth (some rest) := by
  have hscalar : ∀ node : Node, node.tokens = [token] → node.WellFormed → ¬Trailed node →
      node.depth = 0 → NodeAt (token :: rest) depth (some rest) := by
    intro node htokens hwell htrailed hnone
    exact ⟨node, rest, rfl, by rw [htokens]; rfl, hwell, htrailed, by omega⟩
  cases type with
  | array => exact absurd rfl harray
  | object => exact absurd rfl hobject
  | number =>
      simp only [scalarAt, scalar, validateValue, ite_eq_left_iff, reduceCtorEq, imp_false,
        not_not] at hvalid
      exact hscalar (.number token []) (by simp [Node.tokens])
        ⟨(isValidJsonNumberToken_iff token).mp hvalid, spaces_nil⟩ (by simp [Trailed]) rfl
  | null =>
      simp only [scalarAt, scalar, validateValue, ite_eq_left_iff, reduceCtorEq, imp_false,
        not_not] at hvalid
      exact hscalar (.null []) (by simp [Node.tokens, hvalid]) spaces_nil (by simp [Trailed]) rfl
  | boolean =>
      simp only [scalarAt, scalar, validateValue] at hvalid
      cases hbool : parseBool (token :: rest).flatten with
      | error e =>
          simp only [hbool] at hvalid
          cases hvalid
      | ok value =>
          obtain ⟨spaces, hspaces, heq⟩ := h.bool hbool
          exact hscalar (.bool value spaces) (by simp [Node.tokens, heq]) hspaces id rfl
  | string =>
      obtain ⟨b, tail, rfl, -, -, hquote⟩ := typeOf_ok htype
      obtain rfl := hquote rfl
      obtain ⟨spaces, hspaces, htail, hutf8⟩ := h.string
      simp only [scalarAt, scalar, validateValue, List.tail_cons, stringAnswer] at hvalid
      cases hcontent : decodeString (rawString false tail) with
      | none => simp [hcontent] at hvalid
      | some content =>
          refine hscalar (.string (rawString false tail) spaces) ?_
            ⟨⟨hutf8, by rw [hcontent]; rfl⟩, hspaces⟩ id rfl
          rw [Node.tokens, ← htail]

/-- A value, over what is recognised inside it. -/
theorem value_sound {fuel : Nat}
    (helements : ∀ tokens depth, Lexed k tokens → depth ≤ maxJsonNestingDepth + 1 →
      validateElements (elementsAt fuel tokens).1 depth = none →
      ItemsAt tokens depth (elementsAt fuel tokens).2)
    (hfields : ∀ tokens depth, Lexed k tokens → depth ≤ maxJsonNestingDepth + 1 →
      validateFields (fieldsAt fuel tokens).1 depth = none →
      MembersAt tokens depth (fieldsAt fuel tokens).2)
    {tokens : List Bytes} {depth : Nat} (h : Lexed k tokens)
    (hdepth : depth ≤ maxJsonNestingDepth + 1)
    (hvalid : validateValue (valueAt (fuel + 1) tokens).1 depth = none) :
    NodeAt tokens depth (valueAt (fuel + 1) tokens).2 := by
  cases tokens with
  | nil => simp [valueAt, refused, validateValue] at hvalid
  | cons token rest =>
      cases htype : typeOf token with
      | error e => simp [valueAt, htype, refused, validateValue] at hvalid
      | ok type =>
          by_cases harray : type = .array
          · subst harray
            obtain ⟨b, tail, rfl, hb, -, -⟩ := typeOf_ok htype
            obtain rfl := hb rfl
            have hopened := h.structural rfl
            simp only [valueAt, htype, validateValue] at hvalid ⊢
            split at hvalid
            · cases hvalid
            · rename_i hlimit
              cases hsees : sees 93 rest with
              | true =>
                  obtain ⟨closed, after, hclosed, rfl⟩ := h.tail.sees rfl hsees
                  exact ⟨.array tail .nil closed, after, by simp,
                    by simp [Node.tokens, Items.tokens], ⟨hopened, trivial, hclosed⟩, id,
                    by simp only [Node.depth, Items.depth]; omega⟩
              | false =>
                  rw [hsees] at hvalid
                  obtain ⟨items, closed, after, hafter, htokens, -, hwell, hclosed, htrailed,
                    hinner⟩ := helements rest (depth + 1) h.tail (by omega) hvalid
                  refine ⟨.array tail items closed, after, by simpa using hafter, ?_,
                    ⟨hopened, hwell, hclosed⟩, htrailed, ?_⟩
                  · simp [Node.tokens, htokens]
                  · simp only [Node.depth]
                    omega
          · by_cases hobject : type = .object
            · subst hobject
              obtain ⟨b, tail, rfl, -, hb, -⟩ := typeOf_ok htype
              obtain rfl := hb rfl
              have hopened := h.structural rfl
              simp only [valueAt, htype, validateValue] at hvalid ⊢
              split at hvalid
              · cases hvalid
              · rename_i hlimit
                cases hsees : sees 125 rest with
                | true =>
                    obtain ⟨closed, after, hclosed, rfl⟩ := h.tail.sees rfl hsees
                    exact ⟨.object tail .nil closed, after, by simp,
                      by simp [Node.tokens, Members.tokens], ⟨hopened, trivial, hclosed⟩, id,
                      by simp only [Node.depth, Members.depth]; omega⟩
                | false =>
                    rw [hsees] at hvalid
                    obtain ⟨members, closed, after, hafter, htokens, -, hwell, hclosed, htrailed,
                      hinner⟩ := hfields rest (depth + 1) h.tail (by omega) hvalid
                    refine ⟨.object tail members closed, after, by simpa using hafter, ?_,
                      ⟨hopened, hwell, hclosed⟩, htrailed, ?_⟩
                    · simp [Node.tokens, htokens]
                    · simp only [Node.depth]
                      omega
            · rw [valueAt_scalar htype harray hobject] at hvalid ⊢
              exact scalar_sound h htype harray hobject hdepth hvalid

theorem elements_sound {fuel : Nat}
    (hvalue : ∀ tokens depth, Lexed k tokens → depth ≤ maxJsonNestingDepth + 1 →
      validateValue (valueAt fuel tokens).1 depth = none →
      NodeAt tokens depth (valueAt fuel tokens).2)
    (helements : ∀ tokens depth, Lexed k tokens → depth ≤ maxJsonNestingDepth + 1 →
      validateElements (elementsAt fuel tokens).1 depth = none →
      ItemsAt tokens depth (elementsAt fuel tokens).2)
    {tokens : List Bytes} {depth : Nat} (h : Lexed k tokens)
    (hdepth : depth ≤ maxJsonNestingDepth + 1)
    (hvalid : validateElements (elementsAt (fuel + 1) tokens).1 depth = none) :
    ItemsAt tokens depth (elementsAt (fuel + 1) tokens).2 := by
  have hnode := hvalue tokens depth h hdepth
  rw [elementsAt] at hvalid ⊢
  generalize valueAt fuel tokens = r at hnode hvalid ⊢
  obtain ⟨value, after⟩ := r
  have hfirst : validateValue value depth = none := by
    cases hv : validateValue value depth with
    | none => rfl
    | some e =>
        cases after with
        | none => simp [validateElements, hv] at hvalid
        | some rest =>
            simp only at hvalid
            split_ifs at hvalid <;> simp [validateElements, hv] at hvalid
  obtain ⟨node, rest, hafter, htokens, hwell, htrailed, hnested⟩ := hnode hfirst
  simp only at hafter
  subst hafter
  have hrest : Lexed k rest := by
    rw [htokens] at h
    exact h.drop
  cases hsees : sees 93 rest with
  | true =>
      obtain ⟨closed, after, hclosed, rfl⟩ := hrest.sees rfl hsees
      refine ⟨.cons node [] .nil, closed, after, by simp [hsees], ?_, rfl,
        ⟨hwell, spaces_nil, trivial⟩, hclosed, by simpa [TrailedItems] using htrailed, ?_⟩
      · rw [htokens, Items.tokens, Items.isNil, if_pos rfl, List.append_nil]
      · simp only [Items.depth]
        omega
  | false =>
      cases hcomma : sees 44 rest with
      | false => simp [hsees, hcomma, validateElements, hfirst] at hvalid
      | true =>
          obtain ⟨commaAfter, after, hcommaAfter, rfl⟩ := hrest.sees rfl hcomma
          simp only [hsees, hcomma, Bool.false_eq_true, if_false, if_true, validateElements,
            hfirst, List.tail_cons] at hvalid
          obtain ⟨items, closed, last, hlast, hitems, hnil, hwells, hclosed, htraileds, hdepths⟩ :=
            helements after depth hrest.tail hdepth hvalid
          refine ⟨.cons node commaAfter items, closed, last, by simp [hsees, hcomma, hlast], ?_, rfl,
            ⟨hwell, hcommaAfter, hwells⟩, hclosed, ?_, ?_⟩
          · rw [htokens, Items.tokens, hnil, if_neg Bool.false_ne_true, List.append_assoc,
              List.cons_append, ← hitems]
          · simpa [TrailedItems] using And.intro htrailed htraileds
          · simp only [Items.depth]
            omega

theorem fields_sound {fuel : Nat}
    (hvalue : ∀ tokens depth, Lexed k tokens → depth ≤ maxJsonNestingDepth + 1 →
      validateValue (valueAt fuel tokens).1 depth = none →
      NodeAt tokens depth (valueAt fuel tokens).2)
    (hfields : ∀ tokens depth, Lexed k tokens → depth ≤ maxJsonNestingDepth + 1 →
      validateFields (fieldsAt fuel tokens).1 depth = none →
      MembersAt tokens depth (fieldsAt fuel tokens).2)
    {tokens : List Bytes} {depth : Nat} (h : Lexed k tokens)
    (hdepth : depth ≤ maxJsonNestingDepth + 1)
    (hvalid : validateFields (fieldsAt (fuel + 1) tokens).1 depth = none) :
    MembersAt tokens depth (fieldsAt (fuel + 1) tokens).2 := by
  cases tokens with
  | nil => simp [fieldsAt, validateFields] at hvalid
  | cons key colon =>
      rw [fieldsAt] at hvalid ⊢
      by_cases hname : key.head? = some 34 ∧ sees 58 colon = true
      · rw [if_pos hname] at hvalid ⊢
        obtain ⟨hquote, hcolon⟩ := hname
        obtain ⟨tail, rfl⟩ := List.head?_eq_some_iff.mp hquote
        obtain ⟨keyAfter, hkeyAfter, hkey, hutf8⟩ := h.string
        obtain ⟨colonAfter, values, hcolonAfter, rfl⟩ := h.tail.sees rfl hcolon
        have hvalues : Lexed k values := h.tail.tail
        have hnode := hvalue values depth hvalues hdepth
        simp only [List.tail_cons] at hvalid ⊢
        generalize valueAt fuel values = r at hnode hvalid ⊢
        obtain ⟨value, after⟩ := r
        -- the key is decoded and the value passes, whatever comes after them
        obtain ⟨hname, hfirst⟩ : (∃ content, decodeString (rawString false tail) = some content) ∧
            validateValue value depth = none := by
          cases hcontent : decodeString (rawString false tail) with
          | none =>
              cases after with
              | none => simp [stringAnswer, hcontent, validateFields] at hvalid
              | some rest =>
                  simp only at hvalid
                  split_ifs at hvalid <;> simp [stringAnswer, hcontent, validateFields] at hvalid
          | some content =>
              refine ⟨⟨content, rfl⟩, ?_⟩
              cases hv : validateValue value depth with
              | none => rfl
              | some e =>
                  cases after with
                  | none => simp [stringAnswer, hcontent, validateFields, hv] at hvalid
                  | some rest =>
                      simp only at hvalid
                      split_ifs at hvalid <;>
                        simp [stringAnswer, hcontent, validateFields, hv] at hvalid
        obtain ⟨content, hcontent⟩ := hname
        have hstring : IsString (rawString false tail) := ⟨hutf8, by rw [hcontent]; rfl⟩
        obtain ⟨node, rest, hafter, htokens, hwell, htrailed, hnested⟩ := hnode hfirst
        simp only at hafter
        subst hafter
        have hrest : Lexed k rest := by
          rw [htokens] at hvalues
          exact hvalues.drop
        cases hsees : sees 125 rest with
        | true =>
            obtain ⟨closed, after, hclosed, rfl⟩ := hrest.sees rfl hsees
            refine ⟨.cons (rawString false tail) keyAfter colonAfter node [] .nil, closed, after,
              by simp [hsees], ?_, rfl,
              ⟨hstring, hkeyAfter, hcolonAfter, hwell, spaces_nil, trivial⟩, hclosed,
              by simpa [TrailedMembers] using htrailed, ?_⟩
            · rw [Members.tokens, Members.isNil, if_pos rfl, List.append_nil, List.cons_append,
                List.cons_append, ← hkey, ← htokens]
            · simp only [Members.depth]
              omega
        | false =>
            cases hcomma : sees 44 rest with
            | false =>
                simp [hsees, hcomma, validateFields, stringAnswer, hcontent, hfirst] at hvalid
            | true =>
                obtain ⟨commaAfter, after, hcommaAfter, rfl⟩ := hrest.sees rfl hcomma
                simp only [hsees, hcomma, Bool.false_eq_true, if_false, if_true, validateFields,
                  stringAnswer, hcontent, hfirst, List.tail_cons] at hvalid
                obtain ⟨members, closed, last, hlast, hmembers, hnil, hwells, hclosed, htraileds,
                  hdepths⟩ := hfields after depth hrest.tail hdepth hvalid
                refine ⟨.cons (rawString false tail) keyAfter colonAfter node commaAfter members,
                  closed, last, by simp [hsees, hcomma, hlast], ?_, rfl,
                  ⟨hstring, hkeyAfter, hcolonAfter, hwell, hcommaAfter, hwells⟩, hclosed, ?_, ?_⟩
                · rw [Members.tokens, hnil, if_neg Bool.false_ne_true, List.cons_append,
                    List.cons_append, List.append_assoc, List.cons_append, ← hmembers, ← htokens,
                    ← hkey]
                · simpa [TrailedMembers] using And.intro htrailed htraileds
                · simp only [Members.depth]
                  omega
      · rw [if_neg hname] at hvalid
        simp [validateFields] at hvalid

/-- What passes the generic validation is a valid value. -/
theorem recognises (fuel : Nat) :
    (∀ tokens depth, Lexed k tokens → depth ≤ maxJsonNestingDepth + 1 →
      validateValue (valueAt fuel tokens).1 depth = none →
      NodeAt tokens depth (valueAt fuel tokens).2) ∧
    (∀ tokens depth, Lexed k tokens → depth ≤ maxJsonNestingDepth + 1 →
      validateElements (elementsAt fuel tokens).1 depth = none →
      ItemsAt tokens depth (elementsAt fuel tokens).2) ∧
    ∀ tokens depth, Lexed k tokens → depth ≤ maxJsonNestingDepth + 1 →
      validateFields (fieldsAt fuel tokens).1 depth = none →
      MembersAt tokens depth (fieldsAt fuel tokens).2 := by
  induction fuel with
  | zero =>
      refine ⟨fun tokens depth _ _ h => ?_, fun tokens depth _ _ h => ?_,
        fun tokens depth _ _ h => ?_⟩
      · simp [valueAt, refused, validateValue] at h
      · simp [elementsAt, validateElements] at h
      · simp [fieldsAt, validateFields] at h
  | succ fuel ih =>
      obtain ⟨hvalue, helements, hfields⟩ := ih
      exact ⟨fun tokens depth h hdepth => value_sound helements hfields h hdepth,
        fun tokens depth h hdepth => elements_sound hvalue helements h hdepth,
        fun tokens depth h hdepth => fields_sound hvalue hfields h hdepth⟩

end Tokens

end Simdjson

end MarketCapture
