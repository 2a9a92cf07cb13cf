import Mathlib.Data.List.Basic

/-! # Scanning by index

A scanner walks an input by an index. Its reads are checked: a read at or past the
end is `none`. The suffix from the index is the view its proofs use.
-/

namespace Cursor

variable {α : Type} {input : List α} {index : Nat}

/-- The guarded test `index < size && p(input[index])`. -/
def sees (input : List α) (index : Nat) (p : α → Bool) : Option Bool :=
  if index < input.length then input[index]?.map p else some false

/-- The loop `while (sees p) ++index`, for a number of rounds. -/
def skipWhile (input : List α) (p : α → Bool) : Nat → Nat → Option Nat
  | 0, _ => none
  | fuel + 1, index => do
      if ← sees input index p then skipWhile input p fuel (index + 1) else return index

/-- A guarded test reads inside the input. -/
theorem sees_eq (input : List α) (index : Nat) (p : α → Bool) :
    sees input index p = some ((input.drop index).head?.any p) := by
  unfold sees
  split
  · rename_i hlt
    rw [List.head?_drop, List.getElem?_eq_getElem hlt]
    rfl
  · rename_i hlt
    rw [List.drop_eq_nil_of_le (by omega)]
    rfl

theorem drop_of_sees {p : α → Bool} (h : (input.drop index).head?.any p = true) :
    ∃ a, input.drop index = a :: input.drop (index + 1) ∧ p a = true ∧ index < input.length := by
  have hlt : index < input.length := by
    by_contra hge
    rw [List.drop_eq_nil_of_le (by omega)] at h
    cases h
  rw [List.drop_eq_getElem_cons hlt] at h ⊢
  exact ⟨input[index], rfl, h, hlt⟩

/-- With a round for each element left the loop ends, at the first element that fails the
test or at the end. -/
theorem skipWhile_spec (p : α → Bool) (fuel : Nat) (hindex : index ≤ input.length)
    (hfuel : input.length < fuel + index) :
    ∃ next, skipWhile input p fuel index = some next ∧ index ≤ next ∧ next ≤ input.length ∧
      input.drop next = (input.drop index).dropWhile p := by
  induction fuel generalizing index with
  | zero => omega
  | succ fuel ih =>
      unfold skipWhile
      rw [sees_eq]
      cases htest : (input.drop index).head?.any p with
      | true =>
          obtain ⟨a, hdrop, ha, hlt⟩ := drop_of_sees htest
          obtain ⟨next, hloop, hle, hbound, hrest⟩ := ih (Nat.succ_le_of_lt hlt) (by omega)
          refine ⟨next, by simpa using hloop, by omega, hbound, ?_⟩
          rw [hrest, hdrop, List.dropWhile_cons_of_pos ha]
      | false =>
          refine ⟨index, rfl, Nat.le_refl _, hindex, ?_⟩
          cases hdrop : input.drop index with
          | nil => rfl
          | cons a rest =>
              rw [hdrop] at htest
              rw [List.dropWhile_cons_of_neg (by simpa using htest)]

end Cursor
