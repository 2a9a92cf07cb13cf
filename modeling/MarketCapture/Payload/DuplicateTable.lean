import MarketCapture.Lib.Probing
import MarketCapture.Payload.Types

/-! # Duplicate prices of one message

The parser keeps a table of 32768 slots tagged with the generation of the
message that wrote them, so that starting a message retires every slot at once.
`Tracks` relates the table to the prices inserted since the message started.
-/

namespace MarketCapture

def duplicateTableSize : Nat := 32768

def uint64Maximum : Nat := 2 ^ 64 - 1

/-- The key mixer of the table, over 64-bit words. -/
def mixKey (price : Int) (side : BookSide) : UInt64 :=
  let v0 : UInt64 := UInt64.ofInt price
  let v1 := v0 ^^^ (if side = .bid then 0x9e3779b97f4a7c15 else 0xd1b54a32d192ed03)
  let v2 := v1 ^^^ (v1 >>> 30)
  let v3 := v2 * 0xbf58476d1ce4e5b9
  let v4 := v3 ^^^ (v3 >>> 27)
  let v5 := v4 * 0x94d049bb133111eb
  v5 ^^^ (v5 >>> 31)

structure DuplicateSlot where
  generation : UInt64 := 0
  price : Int := 0
  side : BookSide := .bid
  deriving DecidableEq, Repr

/-- The slots of the table and the generation of the current message. -/
structure DuplicateTable where
  slots : Nat → DuplicateSlot := fun _ => {}
  generation : UInt64 := 0

inductive InsertResult where
  | inserted | duplicate | tableFull
  deriving DecidableEq, Repr

namespace DuplicateTable

/-- The generation step of `begin_message`, with the clear at the wrap. -/
def beginMessage (t : DuplicateTable) : DuplicateTable :=
  if t.generation.toNat = uint64Maximum then
    { slots := fun i => { t.slots i with generation := 0 }, generation := 1 }
  else { t with generation := t.generation + 1 }

/-- The key a slot holds for the current message. -/
def key (t : DuplicateTable) (i : Nat) : Option (Int × BookSide) :=
  if (t.slots i).generation = t.generation then some ((t.slots i).price, (t.slots i).side) else none

def keyHash (k : Int × BookSide) : Nat := (mixKey k.1 k.2).toNat

/-- The probe loop of `insert_unique`: a slot of another generation is taken over. -/
def insertLoop (t : DuplicateTable) (price : Int) (side : BookSide) :
    Nat → Nat → InsertResult × DuplicateTable
  | 0, _ => (.tableFull, t)
  | probes + 1, slot =>
      if (t.slots slot).generation ≠ t.generation then
        (.inserted, { t with slots := Function.update t.slots slot ⟨t.generation, price, side⟩ })
      else if (t.slots slot).price = price ∧ (t.slots slot).side = side then (.duplicate, t)
      else insertLoop t price side probes ((slot + 1) % duplicateTableSize)

def insertUnique (t : DuplicateTable) (price : Int) (side : BookSide) :
    InsertResult × DuplicateTable :=
  insertLoop t price side duplicateTableSize (keyHash (price, side) % duplicateTableSize)

/-- Slots written in earlier messages carry a smaller or equal generation. -/
def Aged (t : DuplicateTable) : Prop :=
  ∀ i, (t.slots i).generation.toNat ≤ t.generation.toNat

/-- The table holds exactly the keys inserted since the message started. -/
structure Tracks (t : DuplicateTable) (keys : List (Int × BookSide)) : Prop where
  holds : Probing.Holds duplicateTableSize keyHash t.key keys
  aged : t.Aged

theorem initial_aged : ({} : DuplicateTable).Aged := fun _ => le_refl _

theorem beginMessage_tracks {t : DuplicateTable} (h : t.Aged) : t.beginMessage.Tracks [] := by
  unfold beginMessage
  split
  · refine ⟨Probing.Holds.empty fun i => ?_, fun i => by simp⟩
    simp [key]
  · rename_i hmax
    have hlt := t.generation.toNat_lt
    have hsucc : (t.generation + 1).toNat = t.generation.toNat + 1 := by
      rw [UInt64.toNat_add]
      simp only [uint64Maximum] at hmax
      simp only [UInt64.reduceToNat]
      omega
    refine ⟨Probing.Holds.empty fun i => ?_, fun i => ?_⟩
    · have hne : (t.slots i).generation ≠ t.generation + 1 := by
        intro heq
        have := h i
        rw [heq, hsucc] at this
        omega
      simp [key, hne]
    · have := h i
      simp only [hsucc]
      omega

theorem key_update {t : DuplicateTable} (slot : Nat) (price : Int) (side : BookSide) :
    ({ t with slots := Function.update t.slots slot ⟨t.generation, price, side⟩ } :
      DuplicateTable).key = Function.update t.key slot (some (price, side)) := by
  funext i
  by_cases hi : i = slot
  · subst hi
    simp [key]
  · simp [key, Function.update_of_ne hi]

theorem aged_update {t : DuplicateTable} (h : t.Aged) (slot : Nat) (price : Int) (side : BookSide) :
    ({ t with slots := Function.update t.slots slot ⟨t.generation, price, side⟩ } :
      DuplicateTable).Aged := by
  intro i
  by_cases hi : i = slot
  · subst hi
    simp
  · simpa [Function.update_of_ne hi] using h i

/-- The probe loop is a linear search of the current message's keys. -/
theorem insertLoop_search (t : DuplicateTable) (price : Int) (side : BookSide) (probes slot : Nat) :
    insertLoop t price side probes slot =
      match Probing.search duplicateTableSize t.key (price, side) probes slot with
      | .exhausted => (.tableFull, t)
      | .found _ => (.duplicate, t)
      | .vacant i =>
          (.inserted, { t with slots := Function.update t.slots i ⟨t.generation, price, side⟩ }) := by
  induction probes generalizing slot with
  | zero => rfl
  | succ probes ih =>
      by_cases hg : (t.slots slot).generation = t.generation
      · have hkey : t.key slot = some ((t.slots slot).price, (t.slots slot).side) := by
          simp [key, hg]
        by_cases hk : (t.slots slot).price = price ∧ (t.slots slot).side = side
        · simp [insertLoop, Probing.search, hg, hkey, hk]
        · have hne : ¬((t.slots slot).price, (t.slots slot).side) = (price, side) := by
            simpa [Prod.ext_iff] using hk
          simp only [insertLoop, hg, ne_eq, not_true_eq_false, ↓reduceIte, hk, Probing.search,
            hkey, hne, ih]
      · have hkey : t.key slot = none := by simp [key, hg]
        simp [insertLoop, Probing.search, hg, hkey]

/-- `insert_unique` reports a duplicate exactly for a key inserted before in the
same message, and otherwise records the key while slots remain. -/
theorem insertUnique_spec {t : DuplicateTable} {keys : List (Int × BookSide)} (h : t.Tracks keys)
    (price : Int) (side : BookSide) (hroom : keys.length < duplicateTableSize) :
    if (price, side) ∈ keys then insertUnique t price side = (.duplicate, t)
    else (insertUnique t price side).1 = .inserted ∧
      (insertUnique t price side).2.Tracks ((price, side) :: keys) := by
  split
  · rename_i hmem
    obtain ⟨slot, hs⟩ := Probing.search_of_mem h.holds hmem
    rw [insertUnique, insertLoop_search, hs]
  · rename_i hmem
    obtain ⟨n, hn, hs, hnone, hpass⟩ := Probing.search_of_not_mem h.holds hmem hroom
    rw [insertUnique, insertLoop_search, hs]
    refine ⟨rfl, ?_, aged_update h.aged _ price side⟩
    rw [key_update]
    exact h.holds.insert_key hn hnone hpass

end DuplicateTable

end MarketCapture
