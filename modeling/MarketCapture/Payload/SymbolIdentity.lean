import MarketCapture.Payload.Types

/-! # Symbol identity

Normalized symbols are one to thirty-two bytes of `[A-Z0-9]`. The instrument id
is the FNV-1a hash of the symbol with its sign bit cleared, and one for zero.
-/

namespace MarketCapture

def maxNormalizedSymbolBytes : Nat := 32
def maxConfiguredSymbols : Nat := 32

inductive SymbolValidationError where
  | none
  | emptySymbolSet
  | tooManySymbols
  | invalidSymbol
  | duplicateSymbol
  | instrumentIdCollision
  deriving DecidableEq, Repr

def symbolByte (b : UInt8) : Bool :=
  (decide (65 ≤ b.toNat) && decide (b.toNat ≤ 90)) ||
    (decide (48 ≤ b.toNat) && decide (b.toNat ≤ 57))

def isNormalizedSymbol (symbol : Bytes) : Bool :=
  !(symbol.isEmpty || decide (maxNormalizedSymbolBytes < symbol.length)) && symbol.all symbolByte

def fnvOffsetBasis : UInt32 := 2166136261
def fnvPrime : UInt32 := 16777619
def positiveIdMask : UInt32 := 0x7fffffff

def symbolHash (symbol : Bytes) : UInt32 :=
  symbol.foldl (fun hash byte => (hash ^^^ byte.toUInt32) * fnvPrime) fnvOffsetBasis

/-- `derive_instrument_id`; `none` is `invalid_symbol`. -/
def deriveInstrumentId (symbol : Bytes) : Option Nat :=
  if !isNormalizedSymbol symbol then none
  else
    let value := symbolHash symbol &&& positiveIdMask
    some (if value = 0 then 1 else value.toNat)

/-- The earlier symbols against which the current one is checked, in order. -/
def conflictWith (current : Bytes) (currentId : Nat) : List Bytes → SymbolValidationError
  | [] => .none
  | prior :: rest =>
      if prior = current then .duplicateSymbol
      else if deriveInstrumentId prior = some currentId then .instrumentIdCollision
      else conflictWith current currentId rest

def validateFrom (seen : List Bytes) : List Bytes → SymbolValidationError
  | [] => .none
  | current :: rest =>
      match deriveInstrumentId current with
      | none => .invalidSymbol
      | some currentId =>
          match conflictWith current currentId seen with
          | .none => validateFrom (seen ++ [current]) rest
          | error => error

def validateSymbolSet (symbols : List Bytes) : SymbolValidationError :=
  if symbols.length = 0 then .emptySymbolSet
  else if symbols.length > maxConfiguredSymbols then .tooManySymbols
  else validateFrom [] symbols

theorem isNormalizedSymbol_bytes {symbol : Bytes} (h : isNormalizedSymbol symbol = true) :
    symbol ≠ [] ∧ symbol.length ≤ maxNormalizedSymbolBytes ∧
      ∀ b ∈ symbol, symbolByte b = true := by
  simp only [isNormalizedSymbol, Bool.and_eq_true, Bool.not_eq_true', Bool.or_eq_false_iff,
    List.isEmpty_eq_false_iff, decide_eq_false_iff_not, not_lt, List.all_eq_true] at h
  exact ⟨h.1.1, h.1.2, h.2⟩

theorem deriveInstrumentId_some {symbol : Bytes} {id : Nat}
    (h : deriveInstrumentId symbol = some id) :
    isNormalizedSymbol symbol = true ∧ 0 < id ∧ id < 2 ^ 31 := by
  unfold deriveInstrumentId at h
  split at h
  · cases h
  · rename_i hn
    simp only [Bool.not_eq_true', Bool.not_eq_false] at hn
    refine ⟨hn, ?_⟩
    simp only [Option.some.injEq] at h
    subst h
    split
    · decide
    · rename_i hz
      have hpos : (symbolHash symbol &&& positiveIdMask).toNat ≠ 0 := by
        intro h0
        exact hz (UInt32.toNat_inj.mp (by simpa using h0))
      have hle : (symbolHash symbol &&& positiveIdMask).toNat ≤ positiveIdMask.toNat := by
        rw [UInt32.toNat_and]
        exact Nat.and_le_right
      have hmask : positiveIdMask.toNat = 2 ^ 31 - 1 := by decide
      omega

theorem deriveInstrumentId_of_normalized {symbol : Bytes} (h : isNormalizedSymbol symbol = true) :
    ∃ id, deriveInstrumentId symbol = some id := by
  simp [deriveInstrumentId, h]

end MarketCapture
