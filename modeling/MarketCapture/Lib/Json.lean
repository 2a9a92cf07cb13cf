import MarketCapture.Lib.Decimal

/-! # JSON texts

The syntax of RFC 8259 over bytes. A node keeps the bytes of its tokens and the
insignificant whitespace after each of them, so that its text is a function of it.
Two nodes that differ in whitespace only have the same `strip`.
-/

namespace JsonText

open ByteText (Bytes ascii isDigit)

/-! ## Tokens -/

def isSpace (b : UInt8) : Bool := b = 32 || b = 9 || b = 10 || b = 13

def Spaces (bytes : Bytes) : Prop := ∀ b ∈ bytes, isSpace b = true

theorem spaces_nil : Spaces [] := fun b hb => by cases hb

def Digits (bytes : Bytes) : Prop := ∀ b ∈ bytes, isDigit b = true

/-- `int`: a zero, or digits that do not start with one. -/
def IsInteger (bytes : Bytes) : Prop :=
  bytes = [48] ∨ ∃ first rest, bytes = first :: rest ∧ isDigit first = true ∧ first ≠ 48 ∧ Digits rest

/-- `[ frac ]` -/
def IsFraction (bytes : Bytes) : Prop :=
  bytes = [] ∨ ∃ digits, bytes = 46 :: digits ∧ digits ≠ [] ∧ Digits digits

/-- `[ exp ]` -/
def IsExponent (bytes : Bytes) : Prop :=
  bytes = [] ∨ ∃ e sign digits, bytes = e :: (sign ++ digits) ∧ (e = 101 ∨ e = 69) ∧
    (sign = [] ∨ sign = [43] ∨ sign = [45]) ∧ digits ≠ [] ∧ Digits digits

/-- `number = [ minus ] int [ frac ] [ exp ]` -/
def IsNumber (token : Bytes) : Prop :=
  ∃ sign integer fraction exponent, token = sign ++ (integer ++ (fraction ++ exponent)) ∧
    (sign = [] ∨ sign = [45]) ∧ IsInteger integer ∧ IsFraction fraction ∧ IsExponent exponent

/-! ## Strings -/

def hexValue (b : UInt8) : Option Nat :=
  if 48 ≤ b.toNat ∧ b.toNat ≤ 57 then some (b.toNat - 48)
  else if 65 ≤ b.toNat ∧ b.toNat ≤ 70 then some (b.toNat - 55)
  else if 97 ≤ b.toNat ∧ b.toNat ≤ 102 then some (b.toNat - 87)
  else none

/-- Four hexadecimal digits, and what follows them. -/
def codeUnit : Bytes → Option (Nat × Bytes)
  | a :: b :: c :: d :: rest => do
      return (((← hexValue a) * 16 + (← hexValue b)) * 256 + (← hexValue c) * 16 + (← hexValue d), rest)
  | _ => none

def utf8 (codePoint : Nat) : Bytes := String.utf8EncodeChar (Char.ofNat codePoint)

def shortEscape (b : UInt8) : Option UInt8 :=
  if b = 34 ∨ b = 92 ∨ b = 47 then some b
  else if b = 98 then some 8
  else if b = 102 then some 12
  else if b = 110 then some 10
  else if b = 114 then some 13
  else if b = 116 then some 9
  else none

/-- The code point after `\u`. A high surrogate is one half of a pair; any other
surrogate is refused. -/
def codePoint (rest : Bytes) : Option (Nat × Bytes) := do
  let (high, rest) ← codeUnit rest
  if 0xD800 ≤ high ∧ high < 0xDC00 then
    match rest with
    | 92 :: 117 :: rest => do
        let (low, rest) ← codeUnit rest
        if 0xDC00 ≤ low ∧ low < 0xE000 then
          some (0x10000 + (high - 0xD800) * 0x400 + (low - 0xDC00), rest)
        else none
    | _ => none
  else if 0xDC00 ≤ high ∧ high < 0xE000 then none
  else some (high, rest)

/-- The bytes an escape stands for, after its backslash. -/
def unescape : Bytes → Option (Bytes × Bytes)
  | [] => none
  | b :: rest =>
      if b = 117 then (codePoint rest).map fun (point, rest) => (utf8 point, rest)
      else (shortEscape b).map fun byte => ([byte], rest)

/-- Decode at most `fuel` characters; every character takes at least one byte. -/
def decodeFrom : Nat → Bytes → Option Bytes
  | _, [] => some []
  | 0, _ :: _ => none
  | fuel + 1, b :: rest =>
      if b = 92 then do
        let (bytes, rest) ← unescape rest
        return bytes ++ (← decodeFrom fuel rest)
      else if b = 34 ∨ b.toNat < 32 then none
      else do return b :: (← decodeFrom fuel rest)

/-- What stands between the quotes of a string, decoded. -/
def decodeString (raw : Bytes) : Option Bytes := decodeFrom raw.length raw

def ValidUtf8 (bytes : Bytes) : Prop := ∃ chars : List Char, bytes = chars.flatMap String.utf8EncodeChar

/-- A string in valid UTF-8 whose escapes all denote characters. -/
def IsString (raw : Bytes) : Prop := ValidUtf8 raw ∧ (decodeString raw).isSome = true

/-! ## Values -/

mutual

/-- A value with the whitespace after each of its tokens. -/
inductive Node where
  | null (after : Bytes)
  | bool (value : Bool) (after : Bytes)
  | number (token after : Bytes)
  | string (raw after : Bytes)
  | array (opened : Bytes) (items : Items) (closed : Bytes)
  | object (opened : Bytes) (members : Members) (closed : Bytes)

inductive Items where
  | nil
  | cons (value : Node) (commaAfter : Bytes) (rest : Items)

inductive Members where
  | nil
  | cons (key keyAfter colonAfter : Bytes) (value : Node) (commaAfter : Bytes) (rest : Members)

end

/-- A member of an object: its key as written, its value, and the whitespace after
the key, the colon and the comma. -/
structure Member where
  key : Bytes
  keyAfter : Bytes := []
  colonAfter : Bytes := []
  value : Node
  commaAfter : Bytes := []

def Items.isNil : Items → Bool
  | .nil => true
  | .cons .. => false

def Items.toList : Items → List Node
  | .nil => []
  | .cons value _ rest => value :: rest.toList

def Members.isNil : Members → Bool
  | .nil => true
  | .cons .. => false

def Members.ofList : List Member → Members
  | [] => .nil
  | m :: rest => .cons m.key m.keyAfter m.colonAfter m.value m.commaAfter (Members.ofList rest)

def Members.toList : Members → List Member
  | .nil => []
  | .cons key keyAfter colonAfter value commaAfter rest =>
      ⟨key, keyAfter, colonAfter, value, commaAfter⟩ :: rest.toList

theorem Members.ofList_toList (members : Members) : Members.ofList members.toList = members := by
  match members with
  | .nil => rfl
  | .cons _ _ _ _ _ rest => simp only [Members.toList, Members.ofList, Members.ofList_toList rest]

def boolText (value : Bool) : Bytes := if value then ascii "true" else ascii "false"

mutual

def Node.text : Node → Bytes
  | .null after => ascii "null" ++ after
  | .bool value after => boolText value ++ after
  | .number token after => token ++ after
  | .string raw after => 34 :: (raw ++ 34 :: after)
  | .array opened items closed => 91 :: (opened ++ (items.text ++ 93 :: closed))
  | .object opened members closed => 123 :: (opened ++ (members.text ++ 125 :: closed))

def Items.text : Items → Bytes
  | .nil => []
  | .cons value commaAfter rest =>
      value.text ++ (if rest.isNil then [] else 44 :: (commaAfter ++ rest.text))

def Members.text : Members → Bytes
  | .nil => []
  | .cons key keyAfter colonAfter value commaAfter rest =>
      34 :: (key ++ 34 :: (keyAfter ++ 58 :: (colonAfter ++ (value.text ++
        (if rest.isNil then [] else 44 :: (commaAfter ++ rest.text))))))

end

mutual

/-- The containers that are open at once. -/
def Node.depth : Node → Nat
  | .null _ | .bool .. | .number .. | .string .. => 0
  | .array _ items _ => items.depth + 1
  | .object _ members _ => members.depth + 1

def Items.depth : Items → Nat
  | .nil => 0
  | .cons value _ rest => max value.depth rest.depth

def Members.depth : Members → Nat
  | .nil => 0
  | .cons _ _ _ value _ rest => max value.depth rest.depth

end

mutual

/-- Valid tokens, and whitespace where whitespace stands. -/
def Node.WellFormed : Node → Prop
  | .null after => Spaces after
  | .bool _ after => Spaces after
  | .number token after => IsNumber token ∧ Spaces after
  | .string raw after => IsString raw ∧ Spaces after
  | .array opened items closed => Spaces opened ∧ items.WellFormed ∧ Spaces closed
  | .object opened members closed => Spaces opened ∧ members.WellFormed ∧ Spaces closed

def Items.WellFormed : Items → Prop
  | .nil => True
  | .cons value commaAfter rest => value.WellFormed ∧ Spaces commaAfter ∧ rest.WellFormed

def Members.WellFormed : Members → Prop
  | .nil => True
  | .cons key keyAfter colonAfter value commaAfter rest =>
      IsString key ∧ Spaces keyAfter ∧ Spaces colonAfter ∧ value.WellFormed ∧
        Spaces commaAfter ∧ rest.WellFormed

end

mutual

/-- The value without insignificant whitespace. -/
def Node.strip : Node → Node
  | .null _ => .null []
  | .bool value _ => .bool value []
  | .number token _ => .number token []
  | .string raw _ => .string raw []
  | .array _ items _ => .array [] items.strip []
  | .object _ members _ => .object [] members.strip []

def Items.strip : Items → Items
  | .nil => .nil
  | .cons value _ rest => .cons value.strip [] rest.strip

def Members.strip : Members → Members
  | .nil => .nil
  | .cons key _ _ value _ rest => .cons key [] [] value.strip [] rest.strip

end

def Member.strip (m : Member) : Member := { key := m.key, value := m.value.strip }

theorem Members.strip_toList (members : Members) :
    members.strip.toList = members.toList.map Member.strip := by
  match members with
  | .nil => rfl
  | .cons _ _ _ _ _ rest =>
      simp only [Members.strip, Members.toList, Members.strip_toList rest, List.map_cons,
        Member.strip]

mutual

theorem Node.strip_wellFormed (node : Node) (h : node.WellFormed) : node.strip.WellFormed := by
  match node with
  | .null _ => exact spaces_nil
  | .bool _ _ => exact spaces_nil
  | .number _ _ => exact ⟨h.1, spaces_nil⟩
  | .string _ _ => exact ⟨h.1, spaces_nil⟩
  | .array _ items _ =>
      simp only [Node.WellFormed] at h
      simp only [Node.strip, Node.WellFormed]
      exact ⟨spaces_nil, items.strip_wellFormed h.2.1, spaces_nil⟩
  | .object _ members _ =>
      simp only [Node.WellFormed] at h
      simp only [Node.strip, Node.WellFormed]
      exact ⟨spaces_nil, members.strip_wellFormed h.2.1, spaces_nil⟩

theorem Items.strip_wellFormed (items : Items) (h : items.WellFormed) :
    items.strip.WellFormed := by
  match items with
  | .nil => simp [Items.strip, Items.WellFormed]
  | .cons value _ rest =>
      simp only [Items.WellFormed] at h
      simp only [Items.strip, Items.WellFormed]
      exact ⟨value.strip_wellFormed h.1, spaces_nil, rest.strip_wellFormed h.2.2⟩

theorem Members.strip_wellFormed (members : Members) (h : members.WellFormed) :
    members.strip.WellFormed := by
  match members with
  | .nil => simp [Members.strip, Members.WellFormed]
  | .cons _ _ _ value _ rest =>
      simp only [Members.WellFormed] at h
      obtain ⟨hkey, -, -, hvalue, -, hrest⟩ := h
      simp only [Members.strip, Members.WellFormed]
      exact ⟨hkey, spaces_nil, spaces_nil, value.strip_wellFormed hvalue, spaces_nil,
        rest.strip_wellFormed hrest⟩

end

mutual

theorem Node.strip_depth (node : Node) : node.strip.depth = node.depth := by
  match node with
  | .null _ | .bool _ _ | .number _ _ | .string _ _ => rfl
  | .array _ items _ => simp only [Node.strip, Node.depth, items.strip_depth]
  | .object _ members _ => simp only [Node.strip, Node.depth, members.strip_depth]

theorem Items.strip_depth (items : Items) : items.strip.depth = items.depth := by
  match items with
  | .nil => rfl
  | .cons value _ rest => simp only [Items.strip, Items.depth, value.strip_depth, rest.strip_depth]

theorem Members.strip_depth (members : Members) : members.strip.depth = members.depth := by
  match members with
  | .nil => rfl
  | .cons _ _ _ value _ rest =>
      simp only [Members.strip, Members.depth, value.strip_depth, rest.strip_depth]

end

/-! ## Objects by their members -/

def Member.WellFormed (m : Member) : Prop :=
  IsString m.key ∧ Spaces m.keyAfter ∧ Spaces m.colonAfter ∧ m.value.WellFormed ∧
    Spaces m.commaAfter

theorem Members.ofList_wellFormed (fields : List Member) :
    (Members.ofList fields).WellFormed ↔ ∀ m ∈ fields, m.WellFormed := by
  induction fields with
  | nil => simp [Members.ofList, Members.WellFormed]
  | cons m fields ih =>
      simp only [Members.ofList, Members.WellFormed, ih, List.forall_mem_cons, Member.WellFormed]
      tauto

theorem Members.ofList_depth_le (fields : List Member) (n : Nat) :
    (Members.ofList fields).depth ≤ n ↔ ∀ m ∈ fields, m.value.depth ≤ n := by
  induction fields with
  | nil => simp [Members.ofList, Members.depth]
  | cons m fields ih =>
      simp only [Members.ofList, Members.depth, max_le_iff, ih, List.forall_mem_cons]

theorem Members.ofList_isNil (fields : List Member) :
    (Members.ofList fields).isNil = fields.isEmpty := by
  cases fields <;> rfl

/-- The bytes of a member up to its comma. -/
def Member.text (m : Member) : Bytes :=
  34 :: (m.key ++ 34 :: (m.keyAfter ++ 58 :: (m.colonAfter ++ m.value.text)))

theorem Members.ofList_text (fields : List Member) :
    (Members.ofList fields).text =
      match fields with
      | [] => []
      | m :: rest => m.text ++
          (if rest.isEmpty then [] else 44 :: (m.commaAfter ++ (Members.ofList rest).text)) := by
  cases fields with
  | nil => rfl
  | cons m rest => simp [Members.ofList, Members.text, Member.text, Members.ofList_isNil]

/-- The members with their commas; the last one has none. -/
theorem Members.ofList_text_length (fields : List Member) (h : ∀ m ∈ fields, m.commaAfter = []) :
    (Members.ofList fields).text.length =
      (fields.map fun m => m.text.length).sum + (fields.length - 1) := by
  induction fields with
  | nil => rfl
  | cons m rest ih =>
      rw [Members.ofList_text]
      have hrest := ih (fun m' hm => h m' (List.mem_cons_of_mem _ hm))
      by_cases hnil : rest = []
      · simp [hnil]
      · have hpos := List.length_pos_iff.mpr hnil
        have hcomma := h m List.mem_cons_self
        simp only [List.isEmpty_iff, hnil, ↓reduceIte, hcomma, List.nil_append, List.length_append,
          List.length_cons, List.map_cons, List.sum_cons, hrest]
        omega

/-- An object without whitespace around its members. -/
def objectNode (fields : List Member) : Node := .object [] (Members.ofList fields) []

end JsonText
