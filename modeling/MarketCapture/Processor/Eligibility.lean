import MarketCapture.Payload.Validation
import MarketCapture.Processor.Traversal

/-! # Eligible payloads

Which bytes are parsed to an eligible code: an object whose keys and values are valid, apart from
the first number of each id and time, of which only a part is looked at, before what the last
check of the library lets pass behind an object.
-/

namespace MarketCapture

open Simdjson JsonText JsonValidation
open ByteText (isDigit)

/-- A number that `get_uint64` reads or takes for another type: a minus sign or more than twenty
digits with anything behind them, or fewer digits without a leading zero, up to whitespace, a
fraction or an exponent. -/
def LooseNumber (token : Bytes) : Prop :=
  token.head? = some 45 ∨ 20 < (token.takeWhile isDigit).length ∨
    token.takeWhile isDigit ≠ [] ∧
      ((token.takeWhile isDigit).head? = some 48 → (token.takeWhile isDigit).length = 1) ∧
        ∀ b ∈ (token.dropWhile isDigit).head?, isSpace b = true ∨ b = 46 ∨ b = 101 ∨ b = 69

/-- The value of a field as a parse passes it. -/
def PassableNode (k : Kernel) (venue : PayloadVenue) (kind : StreamKind)
    (marked : List DepthField) (name : Bytes) (node : Node) : Prop :=
  (node.WellFormed ∧ ¬Trailed node ∧
    node.depth + rootFieldContainerDepth ≤ maxJsonNestingDepth + 1) ∨
  ReadsNumber venue kind marked name ∧
    ∃ token, node = .number token [] ∧ Token k token ∧ LooseNumber token

/-- The members of an object as a parse passes them, once these fields have been met. -/
def PassableMembers (k : Kernel) (venue : PayloadVenue) (kind : StreamKind) :
    List DepthField → List Member → Prop
  | _, [] => True
  | marked, m :: rest =>
      IsString m.key ∧ Spaces m.keyAfter ∧ Spaces m.colonAfter ∧ Spaces m.commaAfter ∧
        PassableNode k venue kind marked (keyOf m) m.value ∧
          PassableMembers k venue kind (markedBy venue kind marked (keyOf m)) rest

section Loose

variable {k : Kernel} {venue : PayloadVenue} {kind : StreamKind} {marked : List DepthField}

/-! ## Loose numbers -/

theorem digit_plain {b : UInt8} (h : isDigit b = true) : plainByte b = true := by
  simp only [isDigit, decide_eq_true_eq] at h
  simp only [plainByte, isStructural, Bool.and_eq_true, Bool.not_eq_true', Bool.or_eq_false_iff,
    decide_eq_true_eq, decide_eq_false_iff_not]
  refine ⟨⟨by omega, ⟨⟨⟨⟨⟨?_, ?_⟩, ?_⟩, ?_⟩, ?_⟩, ?_⟩⟩, ?_⟩ <;>
    (rintro rfl; revert h; decide)

/-- No structural character stands in a token behind bytes that go on with a scalar. -/
theorem Simdjson.Scan.Tail.not_structural {s : Scan} (hs : s.inString = false) {plain rest : Bytes}
    {b : UInt8} (hplain : ∀ c ∈ plain, plainByte c = true)
    (h : Scan.Tail k s (plain ++ b :: rest)) : isStructural b = false := by
  induction plain generalizing s with
  | nil =>
      rw [Bool.eq_false_iff]
      intro hb
      have hstarts := h.1
      rw [Scan.starts_operator hs (k.operator_structural hb)] at hstarts
      cases hstarts
  | cons c plain ih =>
      obtain ⟨-, -, -, hquote⟩ := plainByte_scalar (k := k) (hplain c List.mem_cons_self)
      refine ih (s := s.next k c) ?_ (fun d hd => hplain d (List.mem_cons_of_mem _ hd)) h.2
      simp [Scan.next, Quoting.next, Quoting.quote, hquote, hs]

theorem Simdjson.Token.not_structural {digits rest : Bytes} {b : UInt8} (hdigits : Digits digits)
    (hne : digits ≠ []) (h : Token k (digits ++ b :: rest)) : isStructural b = false := by
  obtain ⟨first, tail, rfl⟩ := List.exists_cons_of_ne_nil hne
  obtain ⟨c, more, heq, -, htail⟩ := h
  obtain ⟨rfl, rfl⟩ := List.cons.inj heq
  obtain ⟨-, -, -, hquote⟩ :=
    plainByte_scalar (k := k) (digit_plain (hdigits first List.mem_cons_self))
  refine htail.not_structural ?_ fun d hd => digit_plain (hdigits d (List.mem_cons_of_mem _ hd))
  simp [Scan.next, Quoting.next, Quoting.quote, hquote]

theorem finisher_cases {b : UInt8} (h : isStructural b = false) :
    (isSpace b = true ∧ integerStringFinisher b = none) ∨
      ((b = 46 ∨ b = 101 ∨ b = 69) ∧ integerStringFinisher b = some .incorrectType) ∨
        ¬(isSpace b = true ∨ b = 46 ∨ b = 101 ∨ b = 69) ∧
          integerStringFinisher b = some .numberError := by
  unfold integerStringFinisher isStructuralOrWhitespace
  rw [h, Bool.false_or]
  by_cases hspace : isSpace b = true
  · exact .inl ⟨hspace, if_pos hspace⟩
  · rw [if_neg hspace]
    by_cases hpoint : b = 46 ∨ b = 101 ∨ b = 69
    · exact .inr (.inl ⟨hpoint, if_pos hpoint⟩)
    · exact .inr (.inr ⟨not_or.mpr ⟨hspace, hpoint⟩, if_neg hpoint⟩)

theorem typeOf_number_head {b : UInt8} {tail : Bytes} (h : typeOf (b :: tail) = .ok .number) :
    b = 45 ∨ isDigit b = true := by
  by_contra hno
  simp only [typeOf, if_neg hno] at h
  split_ifs at h <;> cases h

/-- The answers of `get_uint64` that do not end a parse. -/
def Lenient : Except ErrorCode UInt64 → Prop
  | .ok _ => True
  | .error e => isSchemaConversionError e = true

theorem tolerated_iff_lenient (token source : Bytes) :
    (scalarAt .number token source).Tolerated ↔ Lenient (parseUnsigned source) := by
  cases hanswer : parseUnsigned source <;>
    simp [Value.Tolerated, scalarAt, scalar, Value.type, Value.answers, Value.getUint64, hanswer,
      Lenient]

/-- Digits that may start a number are read as what stands behind them says. -/
theorem parseUnsigned_plain_digits {digits rest : Bytes} (hdigits : Digits digits)
    (hno : NoDigit rest) (hne : digits ≠ []) (hfew : digits.length ≤ 20)
    (hzero : digits.head? = some 48 → digits.length = 1) :
    Lenient (parseUnsigned (digits ++ rest)) ↔
      ∀ e ∈ integerStringFinisher (rest.headD 0), isSchemaConversionError e = true := by
  have hpos := List.length_pos_iff.mpr hne
  rw [parseUnsigned]
  simp only [takeWhile_digits hdigits hno, List.drop_left]
  rw [if_neg (by omega), if_neg fun h => by
    have hone := hzero h.1
    omega]
  cases integerStringFinisher (rest.headD 0) with
  | some e => simp [Lenient]
  | none =>
      simp only [Option.not_mem_none, false_implies, implies_true, iff_true]
      split
      · exact rfl
      · trivial

/-- The digits at the start of a number token, and what stands behind them in it. -/
theorem number_token_split (token : Bytes) :
    token = token.takeWhile isDigit ++ token.dropWhile isDigit ∧
      Digits (token.takeWhile isDigit) ∧ NoDigit (token.dropWhile isDigit) := by
  refine ⟨List.takeWhile_append_dropWhile.symm, fun b hb => List.mem_takeWhile_imp hb, ?_⟩
  intro b hb
  cases hafter : token.dropWhile isDigit with
  | nil =>
      rw [hafter] at hb
      cases hb
  | cons c tail =>
      have hhead := List.head_dropWhile_not isDigit (l := token) (by rw [hafter]; simp)
      simp only [hafter, List.head_cons, List.head?_cons, Option.mem_def, Option.some.injEq] at hhead hb
      rwa [← hb]

/-- A number token has no digit in front exactly if it starts with a minus sign. -/
theorem no_digit_iff_minus {token : Bytes} (hnumber : typeOf token = .ok .number) :
    token.takeWhile isDigit = [] ↔ token.head? = some 45 := by
  cases token with
  | nil => cases hnumber
  | cons b tail =>
      rcases typeOf_number_head hnumber with rfl | hdigit
      · exact iff_of_true rfl rfl
      · refine iff_of_false (by simp [hdigit]) ?_
        rintro hminus
        obtain rfl : b = 45 := by simpa using hminus
        cases hdigit

/-- What may stand in a token behind its digits, for a parse to go on. -/
theorem finisher_behind_digits {digits after more : Bytes} (htoken : Token k (digits ++ after))
    (hdigits : Digits digits) (hne : digits ≠ []) (hmore : Ended more) :
    (∀ e ∈ integerStringFinisher ((after ++ more).headD 0), isSchemaConversionError e = true) ↔
      ∀ b ∈ after.head?, isSpace b = true ∨ b = 46 ∨ b = 101 ∨ b = 69 := by
  cases after with
  | nil =>
      rw [List.nil_append, headD_ended hmore]
      simp
  | cons b after =>
      have hstructural := Token.not_structural hdigits hne htoken
      simp only [List.cons_append, List.headD_cons, List.head?_cons, Option.mem_def,
        Option.some.injEq, forall_eq']
      rcases finisher_cases hstructural with ⟨hspace, hfinish⟩ | ⟨hpoint, hfinish⟩ |
        ⟨hother, hfinish⟩
      · simp [hfinish, hspace]
      · rw [hfinish]
        refine iff_of_true ?_ (.inr hpoint)
        rintro e ⟨⟩
        rfl
      · rw [hfinish]
        refine iff_of_false ?_ hother
        intro h
        cases h _ rfl

/-- Reading a number token does not end the parse exactly when it is a loose one. -/
theorem tolerated_number {token more : Bytes} (htoken : Token k token)
    (hnumber : typeOf token = .ok .number) (hmore : Ended more) :
    (scalarAt .number token (token ++ more)).Tolerated ↔ LooseNumber token := by
  obtain ⟨hsplit, hdigits, hafter⟩ := number_token_split token
  have hminus := no_digit_iff_minus hnumber
  rw [tolerated_iff_lenient, LooseNumber, ← hminus]
  generalize token.takeWhile isDigit = digits at *
  generalize token.dropWhile isDigit = after at *
  subst hsplit
  have hno := noDigit_append hafter hmore
  rw [List.append_assoc]
  by_cases hempty : digits = []
  · subst hempty
    rw [List.nil_append, parseUnsigned_no_digit hno]
    exact iff_of_true rfl (.inl rfl)
  by_cases hmany : 20 < digits.length
  · rw [parseUnsigned_many_digits hdigits hno hmany]
    exact iff_of_true rfl (.inr (.inl hmany))
  by_cases hzero : digits.head? = some 48 → digits.length = 1
  · rw [parseUnsigned_plain_digits hdigits hno hempty (by omega) hzero,
      finisher_behind_digits htoken hdigits hempty hmore]
    exact ⟨fun h => .inr (.inr ⟨hempty, hzero, h⟩), fun h => by
      rcases h with h | h | ⟨-, -, h⟩
      · exact absurd h hempty
      · exact absurd h hmany
      · exact h⟩
  · obtain ⟨hhead, hlength⟩ := Classical.not_imp.mp hzero
    have hpos := List.length_pos_iff.mpr hempty
    rw [parseUnsigned_leading_zero hdigits hno (by omega) hhead (by omega)]
    refine iff_of_false (by simp [Lenient, isSchemaConversionError]) ?_
    rintro (h | h | ⟨-, h, -⟩)
    · exact hempty h
    · exact hmany h
    · exact hzero h

theorem typeOf_loose {token : Bytes} (h : LooseNumber token) : typeOf token = .ok .number := by
  have hfirst : ∃ b tail, token = b :: tail ∧ (b = 45 ∨ isDigit b = true) := by
    cases token with
    | nil => simp [LooseNumber] at h
    | cons b tail =>
        refine ⟨b, tail, rfl, ?_⟩
        cases hb : isDigit b with
        | true => exact .inr rfl
        | false => exact .inl (by simpa [LooseNumber, hb] using h)
  obtain ⟨b, tail, rfl, hb⟩ := hfirst
  have hne : b ≠ 123 ∧ b ≠ 91 ∧ b ≠ 34 ∧ b ≠ 110 ∧ b ≠ 116 ∧ b ≠ 102 := by
    refine ⟨?_, ?_, ?_, ?_, ?_, ?_⟩ <;>
    · rintro rfl
      rcases hb with hb | hb <;> cases hb
  obtain ⟨h₁, h₂, h₃, h₄, h₅, h₆⟩ := hne
  simp [typeOf, h₁, h₂, h₃, h₄, h₅, h₆, hb]

/-! ## Values -/

/-- A value of another type is tolerated if it is valid, and a number by its answer. -/
theorem tolerated_of_valid {value : Value}
    (hvalid : validateValue value rootFieldContainerDepth = none)
    (hnumber : value.type = .ok .number →
      (∃ n, value.getUint64 = .ok n) ∨ value.getUint64 = .error .incorrectType) :
    value.Tolerated := by
  unfold Value.Tolerated
  cases htype : value.type with
  | error e =>
      obtain ⟨answers, elements, fields⟩ := value
      simp only [Value.type, Value.answers] at htype
      simp [validateValue, htype] at hvalid
  | ok type =>
      cases type with
      | number =>
          rcases hnumber htype with ⟨n, hn⟩ | he
          · simp only [hn]
          · simp only [he]
            rfl
      | _ => exact hvalid

theorem uint64Answer_cases (token : Bytes) :
    (∃ n, uint64Answer token = .ok n) ∨ uint64Answer token = .error .incorrectType := by
  unfold uint64Answer
  split
  · split
    · exact .inl ⟨_, rfl⟩
    · exact .inr rfl
  · exact .inr rfl

theorem valueOf_uint64 (node : Node) (h : (valueOf node).type = .ok .number) :
    (∃ n, (valueOf node).getUint64 = .ok n) ∨ (valueOf node).getUint64 = .error .incorrectType := by
  cases node with
  | number token after => exact uint64Answer_cases token
  | _ => cases h

/-- What a parse passes, the iteration reads as passable. -/
theorem valueAt_passable {name : Bytes} {node : Node}
    (h : PassableNode k venue kind marked name node) (fuel : Nat) (rest : List Bytes)
    (hfuel : 2 * node.tokens.length ≤ fuel) (hrest : Ended rest.flatten) :
    ∃ value, valueAt fuel (node.tokens ++ rest) = (value, some rest) ∧
      Passable venue kind marked name value := by
  rcases h with ⟨hwell, htrailed, hdepth⟩ | ⟨hreads, token, rfl, htoken, hloose⟩
  · have hvalid : validateValue (valueOf node) rootFieldContainerDepth = none := by
      rcases validateValue_outcome node rootFieldContainerDepth hwell hdepth with
        ⟨hnone, -⟩ | ⟨-, -, -, hbad⟩
      · exact hnone
      · exact absurd hbad htrailed
    exact ⟨valueOf node, valueAt_node node hwell hfuel hrest,
      fun _ => tolerated_of_valid hvalid (valueOf_uint64 node), fun _ => hvalid⟩
  · have htype := typeOf_loose hloose
    have htokens : (Node.number token []).tokens = [token] := by simp [Node.tokens]
    rw [htokens] at hfuel ⊢
    cases fuel with
    | zero => simp at hfuel
    | succ fuel =>
        refine ⟨scalarAt .number token (token :: rest).flatten,
          valueAt_scalar htype (by decide) (by decide), fun _ => ?_, fun hno => absurd hreads hno⟩
        rw [List.flatten_cons]
        exact (tolerated_number htoken htype hrest).mpr hloose

theorem stringAnswer_ok {raw name : Bytes} (h : stringAnswer raw = .ok name) :
    decodeString raw = some name := by
  unfold stringAnswer at h
  split at h
  · rename_i hcontent
    rw [hcontent, Except.ok.inj h]
  · cases h

theorem stringAnswer_key {m : Member} (h : IsString m.key) :
    stringAnswer m.key = .ok (keyOf m) := by
  obtain ⟨content, hcontent, hanswer⟩ := stringAnswer_of_isString h
  rw [hanswer, keyOf, hcontent, Option.getD_some]

/-- What the iteration reads as passable, a parse passes. -/
theorem valueAt_sound {name : Bytes} {tokens rest : List Bytes} {fuel : Nat} {value : Value}
    (h : Lexed k tokens) (hvalue : valueAt fuel tokens = (value, some rest))
    (hrest : Ended rest.flatten) (hpass : Passable venue kind marked name value) :
    ∃ node, tokens = node.tokens ++ rest ∧ PassableNode k venue kind marked name node := by
  have hvalid : validateValue value rootFieldContainerDepth = none →
      ∃ node, tokens = node.tokens ++ rest ∧ PassableNode k venue kind marked name node := by
    intro hnone
    obtain ⟨hrecognised, -, -⟩ := recognises (k := k) fuel
    obtain ⟨node, rest', hafter, htokens, hwell, htrailed, hdepth⟩ :=
      hrecognised tokens rootFieldContainerDepth h (by decide) (by rw [hvalue]; exact hnone)
    rw [hvalue] at hafter
    obtain rfl := Option.some.inj hafter
    exact ⟨node, htokens, .inl ⟨hwell, htrailed, hdepth⟩⟩
  by_cases hreads : ReadsNumber venue kind marked name
  · have htolerated := hpass.1 hreads
    by_cases hnumber : value.type = .ok .number
    · cases fuel with
      | zero => simp [valueAt] at hvalue
      | succ fuel =>
          cases tokens with
          | nil => simp [valueAt] at hvalue
          | cons token more =>
              have htype : typeOf token = .ok .number := by
                rw [← hnumber, ← valueAt_type fuel token more, hvalue]
              rw [valueAt_scalar htype (by decide) (by decide), Prod.mk.injEq,
                Option.some.injEq] at hvalue
              obtain ⟨rfl, rfl⟩ := hvalue
              have hscanned := h.scanned
              cases hscanned with
              | cons single _ _ =>
                  rw [List.flatten_cons] at htolerated
                  exact ⟨.number token [], by simp [Node.tokens], .inr ⟨hreads, token, rfl, single,
                    (tolerated_number single htype hrest).mp htolerated⟩⟩
    · refine hvalid ?_
      unfold Value.Tolerated at htolerated
      cases htype : value.type with
      | error e =>
          rw [htype] at htolerated
          exact htolerated.elim
      | ok type =>
          rw [htype] at htolerated hnumber
          cases type with
          | number => exact absurd rfl hnumber
          | _ => exact htolerated
  · exact hvalid (hpass.2 hreads)

/-! ## Members -/

theorem fieldsAt_passable {fields : List Member} (h : PassableMembers k venue kind marked fields)
    (hne : fields ≠ []) (fuel : Nat) {rest : List Bytes} {closed : Bytes}
    (hfuel : 2 * (Members.ofList fields).tokens.length + 1 ≤ fuel) :
    ∃ answer, fieldsAt fuel ((Members.ofList fields).tokens ++ (125 :: closed) :: rest) =
      (answer, some rest) ∧ Traversed venue kind marked answer := by
  induction fields generalizing marked fuel with
  | nil => exact absurd rfl hne
  | cons m more ih =>
      obtain ⟨hkey, -, -, -, hvalue, hwell⟩ := h
      have hraw := rawString_inside hkey.inside m.keyAfter
      have hname := stringAnswer_key hkey
      simp only [Members.ofList, Members.tokens, List.length_append, List.length_cons] at hfuel
      cases fuel with
      | zero => omega
      | succ fuel =>
          cases more with
          | nil =>
              obtain ⟨value, hat, hpass⟩ := valueAt_passable hvalue fuel
                ((125 :: closed) :: rest) (by omega) ⟨125, _, rfl, rfl⟩
              refine ⟨.next (.ok (keyOf m)) value .done, ?_, keyOf m, rfl, hpass, trivial⟩
              rw [Members.ofList, Members.tokens, Members.ofList, Members.isNil, if_pos rfl,
                List.append_nil, List.cons_append, List.cons_append, fieldsAt]
              simp [sees_cons, hraw, hat, hname]
          | cons m' more =>
              have hnil : (Members.ofList (m' :: more)).isNil = false := rfl
              rw [hnil, if_neg Bool.false_ne_true, List.length_cons] at hfuel
              obtain ⟨value, hat, hpass⟩ := valueAt_passable hvalue fuel
                ((44 :: m.commaAfter) ::
                  ((Members.ofList (m' :: more)).tokens ++ (125 :: closed) :: rest))
                (by omega) ⟨44, _, rfl, rfl⟩
              obtain ⟨answer, hanswer, htraversed⟩ :=
                ih hwell (List.cons_ne_nil _ _) fuel (by omega)
              refine ⟨.next (.ok (keyOf m)) value answer, ?_, keyOf m, rfl, hpass, htraversed⟩
              rw [Members.ofList, Members.tokens, hnil, if_neg Bool.false_ne_true,
                List.cons_append, List.cons_append, List.append_assoc, List.cons_append, fieldsAt]
              simp [sees_cons, hraw, hat, hname, hanswer]

theorem sees_ended {b : UInt8} {rest : List Bytes} (hb : isStructural b = true)
    (h : sees b rest = true) : Ended rest.flatten := by
  cases rest with
  | nil => cases h
  | cons token more =>
      cases token with
      | nil => cases h
      | cons c tail =>
          obtain rfl : c = b := by simpa [sees] using h
          exact ⟨c, _, rfl, by rw [isStructuralOrWhitespace, hb, Bool.true_or]⟩

theorem fieldsAt_sound (fuel : Nat) {tokens : List Bytes} (h : Lexed k tokens)
    (htraversed : Traversed venue kind marked (fieldsAt fuel tokens).1) :
    ∃ fields closed rest, fields ≠ [] ∧ Spaces closed ∧
      tokens = (Members.ofList fields).tokens ++ (125 :: closed) :: rest ∧
      PassableMembers k venue kind marked fields := by
  induction fuel generalizing marked tokens with
  | zero => simp [fieldsAt, Traversed] at htraversed
  | succ fuel ih =>
      cases tokens with
      | nil => simp [fieldsAt, Traversed] at htraversed
      | cons key colon =>
          rw [fieldsAt] at htraversed
          by_cases hname : key.head? = some 34 ∧ sees 58 colon = true
          · rw [if_pos hname] at htraversed
            obtain ⟨hquote, hcolon⟩ := hname
            obtain ⟨tail, rfl⟩ := List.head?_eq_some_iff.mp hquote
            obtain ⟨keyAfter, hkeyAfter, hkey, hutf8⟩ := h.string
            obtain ⟨colonAfter, values, hcolonAfter, rfl⟩ := h.tail.sees rfl hcolon
            have hvalues : Lexed k values := h.tail.tail
            simp only [List.tail_cons] at htraversed
            generalize hvalue : valueAt fuel values = r at htraversed
            obtain ⟨value, after⟩ := r
            cases after with
            | none =>
                obtain ⟨_, _, _, htraversed⟩ := htraversed
                exact htraversed.elim
            | some rest =>
                -- the member, given what follows its value
                have hmember : ∀ name, stringAnswer (rawString false tail) = .ok name →
                    Ended rest.flatten → Passable venue kind marked name value →
                    ∃ node, values = node.tokens ++ rest ∧
                      PassableNode k venue kind marked name node ∧
                      IsString (rawString false tail) ∧ ∀ colonAfter commaAfter,
                        keyOf ⟨rawString false tail, keyAfter, colonAfter, node, commaAfter⟩ =
                          name := by
                  intro name hstring hended hpass
                  have hcontent := stringAnswer_ok hstring
                  obtain ⟨node, htokens, hnode⟩ := valueAt_sound hvalues hvalue hended hpass
                  refine ⟨node, htokens, hnode, ⟨hutf8, by rw [hcontent]; rfl⟩, fun _ _ => ?_⟩
                  rw [keyOf, hcontent, Option.getD_some]
                cases hsees : sees 125 rest with
                | true =>
                    simp only [hsees, if_true] at htraversed
                    obtain ⟨name, hstring, hpass, -⟩ := htraversed
                    obtain ⟨node, rfl, hnode, hisString, hkeyOf⟩ :=
                      hmember name hstring (sees_ended rfl hsees) hpass
                    obtain ⟨closed, after, hclosed, rfl⟩ := hvalues.drop.sees rfl hsees
                    refine ⟨[⟨rawString false tail, keyAfter, colonAfter, node, []⟩], closed, after,
                      List.cons_ne_nil _ _, hclosed, ?_, hisString, hkeyAfter, hcolonAfter,
                      spaces_nil, by rw [hkeyOf]; exact hnode, trivial⟩
                    simp [Members.ofList, Members.tokens, Members.isNil, ← hkey]
                | false =>
                    cases hcomma : sees 44 rest with
                    | false =>
                        simp only [hsees, hcomma, Bool.false_eq_true, if_false] at htraversed
                        obtain ⟨_, _, _, htraversed⟩ := htraversed
                        exact htraversed.elim
                    | true =>
                        simp only [hsees, hcomma, Bool.false_eq_true, if_false, if_true]
                          at htraversed
                        obtain ⟨name, hstring, hpass, htraversed⟩ := htraversed
                        obtain ⟨node, rfl, hnode, hisString, hkeyOf⟩ :=
                          hmember name hstring (sees_ended rfl hcomma) hpass
                        obtain ⟨commaAfter, after, hcommaAfter, rfl⟩ :=
                          hvalues.drop.sees rfl hcomma
                        obtain ⟨fields, closed, last, hne, hclosed, hafter, hfields⟩ :=
                          ih hvalues.drop.tail htraversed
                        have hnil : (Members.ofList fields).isNil = false := by
                          rw [Members.ofList_isNil]
                          simpa using hne
                        refine ⟨⟨rawString false tail, keyAfter, colonAfter, node, commaAfter⟩ ::
                          fields, closed, last, List.cons_ne_nil _ _, hclosed, ?_, hisString,
                          hkeyAfter, hcolonAfter, hcommaAfter, by rw [hkeyOf]; exact hnode,
                          by rw [hkeyOf]; exact hfields⟩
                        rw [Members.ofList, Members.tokens, hnil, if_neg Bool.false_ne_true,
                          List.cons_append, List.cons_append, List.append_assoc, List.cons_append,
                          ← hkey, ← hafter]
          · rw [if_neg hname] at htraversed
            exact htraversed.elim

/-! ## The root -/

/-- An object that a parse passes, over the tokens from its opening brace on. -/
def ObjectAt (k : Kernel) (venue : PayloadVenue) (kind : StreamKind) (tokens : List Bytes) : Prop :=
  ∃ opened fields closed rest, Spaces opened ∧ Spaces closed ∧
    tokens = (123 :: opened) :: ((Members.ofList fields).tokens ++ (125 :: closed) :: rest) ∧
    PassableMembers k venue kind [] fields

theorem sees_members {fields : List Member} (hne : fields ≠ []) (rest : List Bytes) :
    sees 125 ((Members.ofList fields).tokens ++ rest) = false := by
  obtain ⟨m, more, rfl⟩ := List.exists_cons_of_ne_nil hne
  rw [Members.ofList, Members.tokens, List.cons_append, sees_cons]
  rfl

theorem rootValue_traversed {tokens : List Bytes} (h : Lexed k tokens) :
    (rootValue tokens).type = .ok .object ∧ Traversed venue kind [] (rootValue tokens).fields ↔
      ObjectAt k venue kind tokens ∧ closedBy 125 tokens = true := by
  have hobject : (valueAt (enoughFuel tokens) tokens).1.type = .ok .object →
      (rootValue tokens).fields = if closedBy 125 tokens = true
        then (valueAt (enoughFuel tokens) tokens).1.fields else .error incompleteArrayOrObject := by
    intro htype
    unfold rootValue
    simp only [htype]
    split <;> rfl
  rw [rootValue_type]
  constructor
  · rintro ⟨htype, htraversed⟩
    rw [hobject htype] at htraversed
    split at htraversed
    · rename_i hclosed
      refine ⟨?_, hclosed⟩
      cases tokens with
      | nil => cases htype
      | cons token rest =>
          rw [enoughFuel, valueAt_type] at htype
          obtain ⟨b, tail, rfl, -, hb, -⟩ := typeOf_ok htype
          obtain rfl := hb rfl
          have hopened := h.structural rfl
          rw [enoughFuel, valueAt, htype] at htraversed
          simp only [Value.fields] at htraversed
          cases hsees : sees 125 rest with
          | true =>
              obtain ⟨closed, after, hspaces, rfl⟩ := h.tail.sees rfl hsees
              exact ⟨tail, [], closed, after, hopened, hspaces,
                by simp [Members.ofList, Members.tokens], trivial⟩
          | false =>
              simp only [hsees, Bool.false_eq_true, if_false] at htraversed
              obtain ⟨fields, closed, after, -, hspaces, rfl, hfields⟩ :=
                fieldsAt_sound _ h.tail htraversed
              exact ⟨tail, fields, closed, after, hopened, hspaces, rfl, hfields⟩
    · exact htraversed.elim
  · rintro ⟨⟨opened, fields, closed, rest, hopened, hclosed, rfl, hfields⟩, hlast⟩
    have htype : typeOf (123 :: opened) = .ok .object := rfl
    have hroot := valueAt_type (2 * ((123 :: opened) ::
      ((Members.ofList fields).tokens ++ (125 :: closed) :: rest)).length) (123 :: opened)
      ((Members.ofList fields).tokens ++ (125 :: closed) :: rest)
    rw [htype] at hroot
    refine ⟨hroot, ?_⟩
    rw [hobject hroot, if_pos hlast, enoughFuel, valueAt, htype]
    simp only [Value.fields]
    cases fields with
    | nil => exact trivial
    | cons m more =>
        have hsees := sees_members (List.cons_ne_nil m more) ((125 :: closed) :: rest)
        have hfuel : 2 * (Members.ofList (m :: more)).tokens.length + 1 ≤ 2 * ((123 :: opened) ::
            ((Members.ofList (m :: more)).tokens ++ (125 :: closed) :: rest)).length := by
          simp only [List.length_cons, List.length_append]
          omega
        obtain ⟨answer, hanswer, htraversed⟩ :=
          fieldsAt_passable hfields (List.cons_ne_nil _ _) _ hfuel
        rw [hsees, if_neg Bool.false_ne_true, hanswer]
        exact htraversed

/-! ## Texts -/

theorem cuts_passable {fields : List Member} (h : PassableMembers k venue kind marked fields)
    (hne : fields ≠ []) :
    Cuts k (Members.ofList fields).text (Members.ofList fields).tokens := by
  induction fields generalizing marked with
  | nil => exact absurd rfl hne
  | cons m more ih =>
      obtain ⟨hkey, hkeyAfter, hcolon, hcomma, hvalue, hmore⟩ := h
      have hcuts : Cuts k m.value.text m.value.tokens := by
        rcases hvalue with ⟨hwell, -, -⟩ | ⟨-, token, htoken, hsingle, -⟩
        · exact cuts_node m.value hwell
        · rw [htoken]
          simpa [Node.text, Node.tokens] using hsingle.cuts
      refine cuts_members hkey.inside hkeyAfter hcolon hcomma hcuts fun hnil => ih hmore ?_
      rintro rfl
      cases hnil

/-- An object of these fields that a parse passes, with nothing around it but whitespace in front
of it and something behind it that stage one takes and that ends in a brace as well. -/
structure PassableText (k : Kernel) (venue : PayloadVenue) (kind : StreamKind)
    (text leading opened : Bytes) (fields : List Member) (closed trailing : Bytes) : Prop where
  text_eq : text =
    leading ++ ((Node.object opened (Members.ofList fields) closed).text ++ trailing)
  leading : Spaces leading
  opened : Spaces opened
  closed : Spaces closed
  trailing : ∀ b ∈ trailing.head?, isSpace b = false
  fields : PassableMembers k venue kind [] fields
  lexable : Lexable text
  last : EndsIn 125 text

theorem PassableText.segments_eq {text leading opened closed trailing : Bytes} {fields : List Member}
    (h : PassableText k venue kind text leading opened fields closed trailing) :
    segments k text = (123 :: opened) :: ((Members.ofList fields).tokens ++
      (125 :: closed) :: segments k trailing) := by
  have hbody : (Members.ofList fields).text = [] ∧ (Members.ofList fields).tokens = [] ∨
      Cuts k (Members.ofList fields).text (Members.ofList fields).tokens := by
    cases fields with
    | nil => exact .inl ⟨rfl, rfl⟩
    | cons m more => exact .inr (cuts_passable h.fields (List.cons_ne_nil _ _))
  have hcontainer := segments_container (k := k) (show isStructural 123 = true from rfl)
    (show isStructural 125 = true from rfl) h.opened h.closed hbody h.trailing
  rw [h.text_eq, segments_spaces h.leading]
  simpa [Node.text] using hcontainer

theorem objectAt_iff {buffer : Bytes} (h : Lexable buffer) :
    ObjectAt k venue kind (segments k buffer) ∧ EndsIn 125 buffer ↔
      ∃ leading opened fields closed trailing,
        PassableText k venue kind buffer leading opened fields closed trailing := by
  constructor
  · rintro ⟨⟨opened, fields, closed, rest, hopened, hclosed, htokens, hfields⟩, hlast⟩
    obtain ⟨leading, hleading, hbuffer, hlexed⟩ := lexed_segments (k := k) h
    rw [htokens] at hbuffer hlexed
    refine ⟨leading, opened, fields, closed, rest.flatten, ?_, hleading, hopened, hclosed, ?_,
      hfields, h, hlast⟩
    · rw [hbuffer]
      simp [Node.text, Members.tokens_flatten]
    · have hrest : Lexed k rest := by
        have hall := hlexed
        rw [show (123 :: opened) :: ((Members.ofList fields).tokens ++ (125 :: closed) :: rest) =
          ((123 :: opened) :: ((Members.ofList fields).tokens ++ [125 :: closed])) ++ rest by simp]
          at hall
        exact hall.drop
      intro b hb
      cases rest with
      | nil => cases hb
      | cons token rest =>
          have hscanned := hrest.scanned
          cases hscanned with
          | cons single _ _ =>
              obtain ⟨c, tail, rfl, hspace, -⟩ := single
              obtain rfl : c = b := by simpa using hb
              exact hspace
  · rintro ⟨leading, opened, fields, closed, trailing, hpass⟩
    exact ⟨⟨opened, fields, closed, segments k trailing, hpass.opened, hpass.closed,
      hpass.segments_eq, hpass.fields⟩, hpass.last⟩

end Loose

section Parse

variable {k : Kernel} {p : SpotPayloadParser} {venue : PayloadVenue} {kind : StreamKind}
variable {expectedSymbol payload : Bytes}

theorem passable_of_eligible (h : auditEligible
      (p.parse (Library.ondemand k) venue kind expectedSymbol payload).1.error = true) :
    payload.length ≤ maxPayloadBytes ∧ ∃ leading opened fields closed trailing,
      PassableText k venue kind (removeUtf8Bom payload) leading opened fields closed trailing := by
  rw [SpotPayloadParser.parse, parsePayload_eligible _ p.aged] at h
  obtain ⟨hlength, document, hdocument, hobject⟩ := h
  refine ⟨hlength, ?_⟩
  obtain ⟨hlexable, -, rfl⟩ := (ondemand_iterate k).mp hdocument
  obtain ⟨-, -, -, hlexed⟩ := lexed_segments (k := k) hlexable
  obtain ⟨hat, hlast⟩ := (rootValue_traversed hlexed).mp hobject
  exact (objectAt_iff hlexable).mp ⟨hat, (closedBy_iff hlexable rfl).mp hlast⟩

theorem eligible_of_passable {leading opened closed trailing : Bytes} {fields : List Member}
    (hlength : payload.length ≤ maxPayloadBytes)
    (h : PassableText k venue kind (removeUtf8Bom payload) leading opened fields closed trailing) :
    auditEligible
      (p.parse (Library.ondemand k) venue kind expectedSymbol payload).1.error = true := by
  rw [SpotPayloadParser.parse, parsePayload_eligible _ p.aged]
  refine ⟨hlength, ?_⟩
  obtain ⟨hat, hlast⟩ := (objectAt_iff h.lexable).mpr ⟨_, _, _, _, _, h⟩
  obtain ⟨-, -, -, hlexed⟩ := lexed_segments (k := k) h.lexable
  have hempty : segments k (removeUtf8Bom payload) ≠ [] := by
    rw [h.segments_eq]
    exact List.cons_ne_nil _ _
  exact ⟨rootValue (segments k (removeUtf8Bom payload)),
    (ondemand_iterate k).mpr ⟨h.lexable, hempty, rfl⟩,
    (rootValue_traversed hlexed).mpr ⟨hat, (closedBy_iff h.lexable rfl).mpr hlast⟩⟩

end Parse

/-- Which payloads are audited: for every kernel, history of the parser, venue, kind and symbol,
a payload is parsed to an eligible code exactly when, up to a byte order mark, it starts with an
object that a parse passes, and the rest of it is cut by stage one and ends in a brace. -/
theorem auditEligible_iff (k : Kernel) (p : SpotPayloadParser) (venue : PayloadVenue)
    (kind : StreamKind) (expectedSymbol payload : Bytes) :
    auditEligible (p.parse (Library.ondemand k) venue kind expectedSymbol payload).1.error = true ↔
    payload.length ≤ maxPayloadBytes ∧ ∃ leading opened fields closed trailing,
      PassableText k venue kind (removeUtf8Bom payload) leading opened fields closed trailing := by
  constructor
  · exact passable_of_eligible
  · rintro ⟨hlength, leading, opened, fields, closed, trailing, hpass⟩
    exact eligible_of_passable hlength hpass

end MarketCapture
