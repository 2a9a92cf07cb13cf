import MarketCapture.Payload.Types

/-! # The On-Demand document interface

The vendored JSON library is a parameter: what its On-Demand API answers about a
document is a finite tree. A value knows the answer of each accessor, and an
array or object iteration is a stream that ends, fails, or yields a child. Every
caller stops at the first error, so nothing after a failed answer is observed.

The recursive validation of `json_validation.h` is translated over this tree.
-/

namespace MarketCapture

open ByteText (isDigit)

namespace Simdjson

/-- The error codes the callers tell apart, and any other one. -/
inductive ErrorCode where
  | depthError
  | incorrectType
  | numberOutOfRange
  | numberError
  | nAtomError
  | unexpectedError
  | other (code : Nat)
  deriving DecidableEq, Repr

inductive JsonType where
  | array | object | number | string | boolean | null
  deriving DecidableEq, Repr

/-- What the scalar accessors of a value answer. -/
structure Answers where
  type : Except ErrorCode JsonType
  string : Except ErrorCode Bytes := .error .incorrectType
  uint64 : Except ErrorCode UInt64 := .error .incorrectType
  bool : Except ErrorCode Bool := .error .incorrectType
  rawJsonToken : Bytes := []
  rawJson : Except ErrorCode Bytes := .error .incorrectType

mutual

/-- A value; an accessor that fails before the first child is an iteration that
fails at once. -/
inductive Value where
  | mk (answers : Answers) (elements : Elements) (fields : Fields)

inductive Elements where
  | done
  | error (code : ErrorCode)
  | next (value : Value) (rest : Elements)

inductive Fields where
  | done
  | error (code : ErrorCode)
  | next (key : Except ErrorCode Bytes) (value : Value) (rest : Fields)

end

namespace Value

def answers : Value → Answers
  | .mk a _ _ => a

def type (v : Value) : Except ErrorCode JsonType := v.answers.type
def getString (v : Value) : Except ErrorCode Bytes := v.answers.string
def getUint64 (v : Value) : Except ErrorCode UInt64 := v.answers.uint64
def getBool (v : Value) : Except ErrorCode Bool := v.answers.bool
def rawJsonToken (v : Value) : Bytes := v.answers.rawJsonToken
def rawJson (v : Value) : Except ErrorCode Bytes := v.answers.rawJson

def elements : Value → Elements
  | .mk _ e _ => e

def fields : Value → Fields
  | .mk _ _ f => f

end Value

/-- The library as its callers see it: a parse of a padded buffer to the answers
about its root, and the lexical minifier. -/
structure Library where
  iterate : Bytes → Except ErrorCode Value
  minify : Bytes → Except ErrorCode Bytes

/-! ## Compact documents

Documents without insignificant whitespace, escapes or numbers beyond 64 bits, with
their text: on these the answers of the library are plain.
-/

/-- A value and its text. -/
structure Compact where
  text : Bytes
  value : Value

namespace Compact

def string (content : Bytes) : Compact :=
  let text := ascii "\"" ++ content ++ ascii "\""
  ⟨text, .mk { type := .ok .string, string := .ok content, rawJsonToken := text } .done .done⟩

def number (n : UInt64) : Compact :=
  let text := ByteText.natText n.toNat
  ⟨text, .mk { type := .ok .number, uint64 := .ok n, rawJsonToken := text } .done .done⟩

def array (items : List Compact) : Compact :=
  let text := ascii "[" ++ ((items.map Compact.text).intersperse (ascii ",")).flatten ++ ascii "]"
  ⟨text, .mk { type := .ok .array, rawJsonToken := ascii "[", rawJson := .ok text }
    (items.foldr (fun item rest => .next item.value rest) .done) .done⟩

def object (members : List (Bytes × Compact)) : Compact :=
  let member (m : Bytes × Compact) : Bytes := ascii "\"" ++ m.1 ++ ascii "\":" ++ m.2.text
  let text := ascii "\x7b" ++ ((members.map member).intersperse (ascii ",")).flatten ++ ascii "\x7d"
  ⟨text, .mk { type := .ok .object, rawJsonToken := ascii "\x7b", rawJson := .ok text } .done
    (members.foldr (fun m rest => .next (.ok m.1) m.2.value rest) .done)⟩

/-- Prices and quantities. -/
def levels (side : List (String × String)) : Compact :=
  .array (side.map fun l => .array [.string (ascii l.1), .string (ascii l.2)])

/-- A refresh of the Spot feed. -/
def refresh (id : UInt64) (bids asks : List (String × String)) : Compact :=
  .object [(ascii "lastUpdateId", .number id), (ascii "bids", levels bids),
    (ascii "asks", levels asks)]

/-- A differential event of the Spot feed, for BTCUSDT. -/
def diff (first final : UInt64) (bids asks : List (String × String)) : Compact :=
  .object [(ascii "e", .string (ascii "depthUpdate")), (ascii "E", .number 1),
    (ascii "s", .string (ascii "BTCUSDT")), (ascii "U", .number first), (ascii "u", .number final),
    (ascii "b", levels bids), (ascii "a", levels asks)]

/-- A message of a combined stream. -/
def envelope (stream : String) (data : Compact) : Compact :=
  .object [(ascii "stream", .string (ascii stream)), (ascii "data", data)]

end Compact

/-- The library on a set of compact documents: it knows their trees, and minifying
them changes nothing. -/
def Library.ofDocuments (documents : List Compact) : Library where
  iterate text :=
    match documents.find? (fun d => d.text = text) with
    | some d => .ok d.value
    | none => .error (.other 0)
  minify text := .ok text

end Simdjson

open Simdjson

namespace JsonValidation

def digits : Bytes → Bytes := List.dropWhile isDigit

/-- `-?(0|[1-9][0-9]*)`, returning what follows it. -/
def integerPart (token : Bytes) : Option Bytes :=
  match (if token.head? = some 45 then token.tail else token) with
  | [] => none
  | c :: rest =>
      if c = 48 then
        if (rest.head?.any isDigit) then none else some rest
      else if c.toNat < 49 ∨ 57 < c.toNat then none
      else some (digits rest)

/-- An optional fraction. -/
def fractionPart (token : Bytes) : Option Bytes :=
  if token.head? = some 46 then
    let rest := digits token.tail
    if rest.length = token.tail.length then none else some rest
  else some token

/-- An optional exponent. -/
def exponentPart (token : Bytes) : Option Bytes :=
  if token.head? = some 101 ∨ token.head? = some 69 then
    let unsigned :=
      if token.tail.head? = some 43 ∨ token.tail.head? = some 45 then token.tail.tail
      else token.tail
    let rest := digits unsigned
    if rest.length = unsigned.length then none else some rest
  else some token

def isValidJsonNumberToken (token : Bytes) : Bool :=
  match (integerPart token).bind fun a => (fractionPart a).bind exponentPart with
  | some [] => true
  | _ => false

def isJsonWhitespace (b : UInt8) : Bool := b = 32 || b = 9 || b = 10 || b = 13

def trimJsonWhitespace (input : Bytes) : Bytes :=
  ((input.dropWhile isJsonWhitespace).reverse.dropWhile isJsonWhitespace).reverse

mutual

/-- `validate_json_value`; `none` is `SUCCESS`. -/
def validateValue : Value → Nat → Option ErrorCode
  | .mk a elements fields, containerDepth =>
      match a.type with
      | .error e => some e
      | .ok .array =>
          if containerDepth > maxJsonNestingDepth then some .depthError
          else validateElements elements (containerDepth + 1)
      | .ok .object =>
          if containerDepth > maxJsonNestingDepth then some .depthError
          else validateFields fields (containerDepth + 1)
      | .ok .number => if isValidJsonNumberToken a.rawJsonToken then none else some .numberError
      | .ok .string =>
          match a.string with
          | .ok _ => none
          | .error e => some e
      | .ok .boolean =>
          match a.bool with
          | .ok _ => none
          | .error e => some e
      | .ok .null => if a.rawJsonToken = ascii "null" then none else some .nAtomError

def validateElements : Elements → Nat → Option ErrorCode
  | .done, _ => none
  | .error e, _ => some e
  | .next value rest, depth =>
      match validateValue value depth with
      | some e => some e
      | none => validateElements rest depth

def validateFields : Fields → Nat → Option ErrorCode
  | .done, _ => none
  | .error e, _ => some e
  | .next key value rest, depth =>
      match key with
      | .error e => some e
      | .ok _ =>
          match validateValue value depth with
          | some e => some e
          | none => validateFields rest depth

end

/-- `validate_non_object_document` for a root of the given type. -/
def validateNonObjectDocument (document : Value) (type : JsonType) (source : Bytes)
    (childContainerDepth : Nat) : Option ErrorCode :=
  match type with
  | .array => validateElements document.elements childContainerDepth
  | .number =>
      if isValidJsonNumberToken (trimJsonWhitespace source) then none else some .numberError
  | .string =>
      match document.getString with
      | .ok _ => none
      | .error e => some e
  | .boolean =>
      match document.getBool with
      | .ok _ => none
      | .error e => some e
  | .null => if trimJsonWhitespace source = ascii "null" then none else some .nAtomError
  | .object => some .unexpectedError

end JsonValidation

end MarketCapture
