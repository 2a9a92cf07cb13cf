import MarketCapture.Payload.Structurals

/-! # Iteration

What the On-Demand API answers over the tokens of a buffer. A value is read at its first token,
and an iteration goes no further than the closing bracket of what it iterates over, so the root
object is done at its closing brace. The buffers are padded with zeros, which no caller takes for
a token: what would be read behind the last token is an error.
-/

namespace MarketCapture

open Simdjson JsonText
open ByteText (isDigit digitValue)

namespace Simdjson

def tapeError : ErrorCode := .other 3
def incompleteArrayOrObject : ErrorCode := .other 27
def trailingContent : ErrorCode := .other 30

/-- `type()` looks at the first byte. -/
def typeOf : Bytes → Except ErrorCode JsonType
  | [] => .error tapeError
  | b :: _ =>
      if b = 123 then .ok .object
      else if b = 91 then .ok .array
      else if b = 34 then .ok .string
      else if b = 110 then .ok .null
      else if b = 116 ∨ b = 102 then .ok .boolean
      else if b = 45 ∨ isDigit b = true then .ok .number
      else .error tapeError

/-- From behind a quote to the next one that is not escaped. -/
def rawString : Bool → Bytes → Bytes
  | _, [] => []
  | escaped, b :: rest =>
      if b = 34 ∧ escaped = false then [] else b :: rawString (decide (b = 92) && !escaped) rest

def isStructuralOrWhitespace (b : UInt8) : Bool := isStructural b || isSpace b

/-- `integer_string_finisher`; `none` is `SUCCESS`. -/
def integerStringFinisher (b : UInt8) : Option ErrorCode :=
  if isStructuralOrWhitespace b then none
  else if b = 46 ∨ b = 101 ∨ b = 69 then some .incorrectType
  else some .numberError

/-- `parse_unsigned`: the sum wraps, and the last test finds that out. -/
def parseUnsigned (src : Bytes) : Except ErrorCode UInt64 :=
  let digits := src.takeWhile isDigit
  let i := digits.foldl (fun (i : UInt64) b => 10 * i + UInt64.ofNat (digitValue b)) 0
  if digits.length = 0 ∨ 20 < digits.length then .error .incorrectType
  else if digits.head? = some 48 ∧ 1 < digits.length then .error .numberError
  else
    match integerStringFinisher ((src.drop digits.length).headD 0) with
    | some e => .error e
    | none =>
        if digits.length = 20 ∧ (digits.head? ≠ some 49 ∨ i.toNat < 2 ^ 63) then
          .error .incorrectType
        else .ok i

/-- `parse_bool` -/
def parseBool (src : Bytes) : Except ErrorCode Bool :=
  if src.take 4 = ascii "true" then
    if isStructuralOrWhitespace ((src.drop 4).headD 0) then .ok true else .error .incorrectType
  else if src.take 5 = ascii "false" then
    if isStructuralOrWhitespace ((src.drop 5).headD 0) then .ok false else .error .incorrectType
  else .error .incorrectType

/-- A value whose accessors all fail. -/
def refused (e : ErrorCode) : Value :=
  .mk { type := .error e } (.error e) (.error e)

def scalar (answers : Answers) : Value := .mk answers (.error .incorrectType) (.error .incorrectType)

/-- The value of a token that opens no container, with what the buffer holds from it on. -/
def scalarAt (type : JsonType) (token source : Bytes) : Value :=
  let answers : Answers := { type := .ok type, rawJsonToken := token, rawJson := .ok token }
  match type with
  | .string => scalar { answers with string := stringAnswer (rawString false token.tail) }
  | .number => scalar { answers with uint64 := parseUnsigned source }
  | .boolean => scalar { answers with bool := parseBool source }
  | _ => scalar answers

/-- The next token starts with this byte. -/
def sees (b : UInt8) (tokens : List Bytes) : Bool := decide (tokens.head?.bind List.head? = some b)

/-- The loop of `skip_child`: brackets are counted, down to the level of the parent. -/
def skipRest : Nat → List Bytes → Option (List Bytes)
  | _, [] => none
  | levels, token :: rest =>
      if token.head? = some 91 ∨ token.head? = some 123 then skipRest (levels + 1) rest
      else if token.head? = some 93 ∨ token.head? = some 125 then
        if levels ≤ 1 then some rest else skipRest (levels - 1) rest
      else skipRest levels rest

/-- `skip_child`: the first token may be a key, and it has its level already. -/
def skipChild (levels : Nat) : List Bytes → Option (List Bytes)
  | [] => none
  | token :: rest =>
      if token.head? = some 91 ∨ token.head? = some 123 ∨ token.head? = some 58 ∨
          token.head? = some 44 then skipRest levels rest
      else if token.head? = some 34 ∧ sees 58 rest = true then skipRest levels rest.tail
      else if levels ≤ 1 then some rest
      else skipRest (levels - 1) rest

/-- `raw_json` of a container that has been entered: an element has a level of its own at once,
a field only behind its key. -/
def rawContainer (closing : UInt8) (levels : Nat) (token : Bytes) (rest : List Bytes) :
    Except ErrorCode Bytes :=
  match (if sees closing rest then some rest.tail else skipChild levels rest) with
  | some after => .ok (token ++ (rest.take (rest.length - after.length)).flatten)
  | none => .error tapeError

mutual

/-- The value at the first token, and the tokens after it if its iteration ends. -/
def valueAt : Nat → List Bytes → Value × Option (List Bytes)
  | 0, _ => (refused tapeError, none)
  | _ + 1, [] => (refused tapeError, none)
  | fuel + 1, token :: rest =>
      match typeOf token with
      | .error e => (refused e, none)
      | .ok .array =>
          let r := if sees 93 rest then (.done, some rest.tail) else elementsAt fuel rest
          (.mk { type := .ok .array, rawJsonToken := token,
                 rawJson := rawContainer 93 2 token rest } r.1 (.error .incorrectType), r.2)
      | .ok .object =>
          let r := if sees 125 rest then (.done, some rest.tail) else fieldsAt fuel rest
          (.mk { type := .ok .object, rawJsonToken := token,
                 rawJson := rawContainer 125 1 token rest } (.error .incorrectType) r.1, r.2)
      | .ok type => (scalarAt type token (token :: rest).flatten, some rest)

/-- The elements from here on: a value, and a comma or the closing bracket. -/
def elementsAt : Nat → List Bytes → Elements × Option (List Bytes)
  | 0, _ => (.error tapeError, none)
  | fuel + 1, tokens =>
      match valueAt fuel tokens with
      | (value, none) => (.next value (.error tapeError), none)
      | (value, some rest) =>
          if sees 93 rest then (.next value .done, some rest.tail)
          else if sees 44 rest then
            let r := elementsAt fuel rest.tail
            (.next value r.1, r.2)
          else (.next value (.error tapeError), none)

/-- The fields from here on: a key, a colon, a value, and a comma or the closing brace. -/
def fieldsAt : Nat → List Bytes → Fields × Option (List Bytes)
  | 0, _ => (.error tapeError, none)
  | _ + 1, [] => (.error tapeError, none)
  | fuel + 1, key :: rest =>
      if key.head? = some 34 ∧ sees 58 rest = true then
        let name := stringAnswer (rawString false key.tail)
        match valueAt fuel rest.tail with
        | (value, none) => (.next name value (.error tapeError), none)
        | (value, some rest) =>
            if sees 125 rest then (.next name value .done, some rest.tail)
            else if sees 44 rest then
              let r := fieldsAt fuel rest.tail
              (.next name value r.1, r.2)
            else (.next name value (.error tapeError), none)
      else (.error tapeError, none)

end

/-- Two rounds for each token: the value, and the iteration it stands in. -/
def enoughFuel (tokens : List Bytes) : Nat := 2 * tokens.length + 1

theorem tail_shrinks {b : UInt8} {tokens : List Bytes} (h : sees b tokens = true) :
    tokens.tail.length < tokens.length := by
  cases tokens with
  | nil => cases h
  | cons token rest => exact Nat.lt_succ_self _

/-- An iteration that ends has passed at least one token. -/
theorem iteration_shrinks (fuel : Nat) :
    (∀ tokens rest, (valueAt fuel tokens).2 = some rest → rest.length < tokens.length) ∧
    (∀ tokens rest, (elementsAt fuel tokens).2 = some rest → rest.length < tokens.length) ∧
    ∀ tokens rest, (fieldsAt fuel tokens).2 = some rest → rest.length < tokens.length := by
  induction fuel with
  | zero =>
      refine ⟨fun tokens rest h => ?_, fun tokens rest h => ?_, fun tokens rest h => ?_⟩
      · simp [valueAt] at h
      · simp [elementsAt] at h
      · simp [fieldsAt] at h
  | succ fuel ih =>
      obtain ⟨hvalue, helements, hfields⟩ := ih
      refine ⟨fun tokens rest h => ?_, fun tokens rest h => ?_, fun tokens rest h => ?_⟩
      · cases tokens with
        | nil => simp [valueAt] at h
        | cons token more =>
            rw [List.length_cons, Nat.lt_succ_iff]
            rw [valueAt] at h
            cases htype : typeOf token with
            | error e => simp [htype] at h
            | ok type =>
                rw [htype] at h
                cases type with
                | array =>
                    simp only at h
                    split at h
                    · rename_i hsees
                      rw [← Option.some.inj h]
                      exact Nat.le_of_lt (tail_shrinks hsees)
                    · exact Nat.le_of_lt (helements more rest h)
                | object =>
                    simp only at h
                    split at h
                    · rename_i hsees
                      rw [← Option.some.inj h]
                      exact Nat.le_of_lt (tail_shrinks hsees)
                    · exact Nat.le_of_lt (hfields more rest h)
                | _ => exact Nat.le_of_eq (congrArg _ (Option.some.inj h).symm)
      · have hfirst := hvalue tokens
        rw [elementsAt] at h
        generalize valueAt fuel tokens = r at h hfirst
        obtain ⟨value, after⟩ := r
        cases after with
        | none => simp at h
        | some after =>
            have hafter := hfirst after rfl
            simp only at h
            split at h
            · rename_i hsees
              rw [← Option.some.inj h]
              exact Nat.lt_trans (tail_shrinks hsees) hafter
            · split at h
              · rename_i hsees
                exact Nat.lt_trans (helements after.tail rest h)
                  (Nat.lt_trans (tail_shrinks hsees) hafter)
              · simp at h
      · cases tokens with
        | nil => simp [fieldsAt] at h
        | cons key colon =>
            rw [fieldsAt] at h
            split at h
            · have hfirst := hvalue colon.tail
              have hcolon : colon.tail.length ≤ colon.length := by simp
              generalize valueAt fuel colon.tail = r at h hfirst
              obtain ⟨value, after⟩ := r
              rw [List.length_cons]
              cases after with
              | none => simp at h
              | some after =>
                  have hafter := hfirst after rfl
                  simp only at h
                  split at h
                  · rename_i hsees
                    have hlt := tail_shrinks hsees
                    rw [← Option.some.inj h]
                    omega
                  · split at h
                    · rename_i hsees
                      have hlt := tail_shrinks hsees
                      have hrest := hfields after.tail rest h
                      omega
                    · simp at h
            · simp at h

/-- More rounds than `enoughFuel` change nothing: the answers are those of an iteration that is
not limited. -/
theorem iteration_adequate (n : Nat) : ∀ tokens : List Bytes, tokens.length ≤ n →
    (∀ fuel more, 2 * n ≤ fuel → valueAt (fuel + more) tokens = valueAt fuel tokens) ∧
    (∀ fuel more, 2 * n + 1 ≤ fuel → elementsAt (fuel + more) tokens = elementsAt fuel tokens) ∧
    ∀ fuel more, 2 * n + 1 ≤ fuel → fieldsAt (fuel + more) tokens = fieldsAt fuel tokens := by
  induction n with
  | zero =>
      intro tokens hlength
      obtain rfl := List.length_eq_zero_iff.mp (Nat.le_zero.mp hlength)
      have hvalue : ∀ fuel, valueAt fuel [] = (refused tapeError, none) := fun fuel => by
        cases fuel <;> rfl
      refine ⟨fun fuel more _ => ?_, fun fuel more h => ?_, fun fuel more _ => ?_⟩
      · rw [hvalue, hvalue]
      · obtain ⟨fuel, rfl⟩ := Nat.exists_eq_succ_of_ne_zero (by omega : fuel ≠ 0)
        rw [Nat.succ_add, elementsAt, elementsAt, hvalue, hvalue]
      · have hfields : ∀ fuel, fieldsAt fuel [] = (.error tapeError, none) := fun fuel => by
          cases fuel <;> rfl
        rw [hfields, hfields]
  | succ n ih =>
      intro tokens hlength
      have hvalue : ∀ fuel more, 2 * (n + 1) ≤ fuel →
          valueAt (fuel + more) tokens = valueAt fuel tokens := by
        intro fuel more h
        obtain ⟨fuel, rfl⟩ := Nat.exists_eq_succ_of_ne_zero (by omega : fuel ≠ 0)
        cases tokens with
        | nil => rw [Nat.succ_add, valueAt, valueAt]
        | cons token rest =>
            obtain ⟨-, helements, hfields⟩ := ih rest (Nat.succ_le_succ_iff.mp hlength)
            rw [Nat.succ_add, valueAt, valueAt, helements fuel more (by omega),
              hfields fuel more (by omega)]
      refine ⟨hvalue, fun fuel more h => ?_, fun fuel more h => ?_⟩
      · obtain ⟨fuel, rfl⟩ := Nat.exists_eq_succ_of_ne_zero (by omega : fuel ≠ 0)
        have hshrinks := (iteration_shrinks fuel).1 tokens
        rw [Nat.succ_add, elementsAt, elementsAt, hvalue fuel more (by omega)]
        generalize valueAt fuel tokens = r at hshrinks
        obtain ⟨value, after⟩ := r
        cases after with
        | none => rfl
        | some after =>
            have hlt := hshrinks after rfl
            obtain ⟨-, helements, -⟩ := ih after.tail (by rw [List.length_tail]; omega)
            simp only [helements fuel more (by omega)]
      · obtain ⟨fuel, rfl⟩ := Nat.exists_eq_succ_of_ne_zero (by omega : fuel ≠ 0)
        cases tokens with
        | nil => rw [Nat.succ_add, fieldsAt, fieldsAt]
        | cons key colon =>
            have hcolon : colon.tail.length ≤ n := by
              rw [List.length_cons] at hlength
              rw [List.length_tail]
              omega
            have hshrinks := (iteration_shrinks fuel).1 colon.tail
            rw [Nat.succ_add, fieldsAt, fieldsAt, (ih colon.tail hcolon).1 fuel more (by omega)]
            generalize valueAt fuel colon.tail = r at hshrinks
            obtain ⟨value, after⟩ := r
            cases after with
            | none => rfl
            | some after =>
                have hlt := hshrinks after rfl
                obtain ⟨-, -, hfields⟩ := ih after.tail (by rw [List.length_tail]; omega)
                simp only [hfields fuel more (by omega)]

theorem valueAt_enough (tokens : List Bytes) {fuel : Nat} (h : enoughFuel tokens ≤ fuel) :
    valueAt fuel tokens = valueAt (enoughFuel tokens) tokens := by
  obtain ⟨more, rfl⟩ := Nat.exists_eq_add_of_le h
  exact (iteration_adequate tokens.length tokens (Nat.le_refl _)).1 _ more (Nat.le_succ _)

/-- `check_root_object` and `check_root_array` look at the last token only. -/
def closedBy (b : UInt8) (tokens : List Bytes) : Bool :=
  decide (tokens.getLast?.bind List.head? = some b)

/-- `get_root_bool`: the token is copied and padded with spaces, if it is not too long. -/
def parseRootBool (token : Bytes) (tokens : List Bytes) : Except ErrorCode Bool :=
  if 6 < token.length then .error .incorrectType
  else
    match parseBool (token ++ ascii "      ") with
    | .ok b => if tokens.length = 1 then .ok b else .error trailingContent
    | .error e => .error e

/-- The root: a container must end as it began, and a scalar must be the only token. -/
def rootValue (tokens : List Bytes) : Value :=
  let value := (valueAt (enoughFuel tokens) tokens).1
  match value.type with
  | .ok .object =>
      if closedBy 125 tokens then value
      else .mk value.answers value.elements (.error incompleteArrayOrObject)
  | .ok .array =>
      if closedBy 93 tokens then value
      else .mk value.answers (.error incompleteArrayOrObject) value.fields
  | .ok .string =>
      scalar { value.answers with
        string := match value.getString with
          | .ok s => if tokens.length = 1 then .ok s else .error trailingContent
          | .error e => .error e }
  | .ok .boolean =>
      scalar { value.answers with bool := parseRootBool value.rawJsonToken tokens }
  | _ => value

def byteOrderMark : Bytes := [0xEF, 0xBB, 0xBF]

def removeUtf8Bom (buffer : Bytes) : Bytes :=
  if byteOrderMark <+: buffer then buffer.drop 3 else buffer

/-- The library with one of its kernels. -/
def Library.ondemand (k : Kernel) : Library where
  iterate buffer := (stage1 k (removeUtf8Bom buffer)).map rootValue
  minify buffer :=
    if (Quoting.run {} buffer).inString then .error (.other 14)
    else .ok (Quoting.significant {} buffer)

end Simdjson

end MarketCapture
