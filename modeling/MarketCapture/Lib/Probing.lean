import Mathlib.Data.Finset.Card
import Mathlib.Tactic

/-! # Linear probing

An open-addressed table of `size` slots is searched from the hash of a key,
one slot at a time and wrapping around, until a vacant slot or the key is met.
Nothing is ever removed between two resets. `Holds` relates a table to the list
of keys inserted since the last reset; under it the search meets a key exactly
when the key was inserted, and finds room while fewer keys than slots are in.
-/

namespace Probing

variable {κ : Type}

inductive Outcome where
  | vacant (slot : Nat)
  | found (slot : Nat)
  | exhausted
  deriving DecidableEq, Repr

/-- Probe at most `probes` slots, starting at `slot`. -/
def search [DecidableEq κ] (size : Nat) (view : Nat → Option κ) (key : κ) : Nat → Nat → Outcome
  | 0, _ => .exhausted
  | probes + 1, slot =>
      match view slot with
      | none => .vacant slot
      | some k => if k = key then .found slot else search size view key probes ((slot + 1) % size)

theorem search_found [DecidableEq κ] {size : Nat} {view : Nat → Option κ} {key : κ} {slot : Nat}
    (probes : Nat) {start : Nat} (h : search size view key probes start = .found slot) :
    view slot = some key := by
  induction probes generalizing start with
  | zero => cases h
  | succ probes ih =>
      unfold search at h
      split at h
      · cases h
      · rename_i k hview
        split at h
        · rename_i heq
          obtain rfl := Outcome.found.inj h
          rw [hview, heq]
        · exact ih h

/-- The slot is taken by another key, so a search for `key` moves on. -/
def Passes (view : Nat → Option κ) (key : κ) (slot : Nat) : Prop :=
  ∃ k, view slot = some k ∧ k ≠ key

theorem search_skip [DecidableEq κ] {size : Nat} {view : Nat → Option κ} {key : κ} (start t probes : Nat)
    (hp : ∀ u < t, Passes view key ((start + u) % size)) :
    search size view key (t + probes) (start % size) =
      search size view key probes ((start + t) % size) := by
  induction t generalizing start with
  | zero => simp
  | succ t ih =>
      obtain ⟨k, hk, hne⟩ := hp 0 (by omega)
      have hrest : ∀ u < t, Passes view key ((start + 1 + u) % size) := by
        intro u hu
        have := hp (u + 1) (by omega)
        rwa [show start + (u + 1) = start + 1 + u by omega] at this
      rw [show t + 1 + probes = t + probes + 1 by omega, search]
      simp only [Nat.add_zero] at hk
      simp only [hk, hne, ↓reduceIte, Nat.mod_add_mod]
      rw [ih (start + 1) hrest, show start + 1 + t = start + (t + 1) by omega]

/-- A table whose taken slots are exactly the keys inserted so far, each of them
reachable from its hash without crossing a vacant slot. -/
structure Holds (size : Nat) (hash : κ → Nat) (view : Nat → Option κ) (keys : List κ) : Prop where
  reach : ∀ k ∈ keys, ∃ t < size, view ((hash k + t) % size) = some k ∧
    ∀ u < t, Passes view k ((hash k + u) % size)
  sound : ∀ i k, view i = some k → k ∈ keys
  card : ((Finset.range size).filter (fun i => view i ≠ none)).card ≤ keys.length

variable {size : Nat} {hash : κ → Nat} {view : Nat → Option κ} {keys : List κ}

theorem Holds.empty (hv : ∀ i, view i = none) : Holds size hash view [] where
  reach := by simp
  sound := by simp [hv]
  card := by simp [hv]

theorem search_of_mem [DecidableEq κ] (h : Holds size hash view keys) {key : κ} (hk : key ∈ keys) :
    ∃ slot, search size view key size (hash key % size) = .found slot := by
  obtain ⟨t, ht, hview, hpass⟩ := h.reach key hk
  refine ⟨(hash key + t) % size, ?_⟩
  have hskip := search_skip (hash key) t (size - t) hpass
  rw [show t + (size - t) = size by omega] at hskip
  rw [hskip, show size - t = (size - t - 1) + 1 by omega, search]
  simp [hview]

/-- While slots remain, some probe distance reaches the first vacant one. -/
theorem exists_first_vacant (h : Holds size hash view keys) (hroom : keys.length < size)
    (start : Nat) :
    ∃ t < size, view ((start + t) % size) = none ∧
      ∀ u < t, view ((start + u) % size) ≠ none := by
  have hfree : ∃ i < size, view i = none := by
    by_contra hall
    push Not at hall
    have hfilter : (Finset.range size).filter (fun i => view i ≠ none) = Finset.range size :=
      Finset.filter_true_of_mem (fun i hi => hall i (Finset.mem_range.mp hi))
    have hcard := h.card
    rw [hfilter, Finset.card_range] at hcard
    omega
  obtain ⟨i, hi, hnone⟩ := hfree
  have hexists : ∃ t, view ((start + t) % size) = none := by
    refine ⟨i + (size - start % size), ?_⟩
    have hlt : start % size < size := Nat.mod_lt _ (by omega)
    have hmod : (start + (i + (size - start % size))) % size = i := by
      rw [Nat.add_mod, ← Nat.add_mod_mod, Nat.mod_mod]
      rw [Nat.mod_add_mod, Nat.add_mod_mod]
      have hdiv := Nat.div_add_mod start size
      rw [show start + (i + (size - start % size)) = i + size * (start / size + 1) by
        rw [Nat.mul_add]; omega]
      rw [Nat.add_mul_mod_self_left, Nat.mod_eq_of_lt hi]
    rw [hmod]
    exact hnone
  classical
  refine ⟨Nat.find hexists, ?_, Nat.find_spec hexists, fun u hu => Nat.find_min hexists hu⟩
  by_contra hge
  push Not at hge
  have hmin := Nat.find_min hexists (m := Nat.find hexists - size) (by omega)
  apply hmin
  have hspec := Nat.find_spec hexists
  rwa [show start + Nat.find hexists = start + (Nat.find hexists - size) + size by omega,
    Nat.add_mod_right] at hspec

theorem search_of_not_mem [DecidableEq κ] (h : Holds size hash view keys) {key : κ} (hk : key ∉ keys)
    (hroom : keys.length < size) :
    ∃ t < size, search size view key size (hash key % size) =
        .vacant ((hash key + t) % size) ∧
      view ((hash key + t) % size) = none ∧
      ∀ u < t, Passes view key ((hash key + u) % size) := by
  obtain ⟨t, ht, hnone, htaken⟩ := exists_first_vacant h hroom (hash key)
  have hpass : ∀ u < t, Passes view key ((hash key + u) % size) := by
    intro u hu
    obtain ⟨k, hview⟩ := Option.ne_none_iff_exists'.mp (htaken u hu)
    refine ⟨k, hview, ?_⟩
    rintro rfl
    exact hk (h.sound _ k hview)
  refine ⟨t, ht, ?_, hnone, hpass⟩
  have hskip := search_skip (hash key) t (size - t) hpass
  rw [show t + (size - t) = size by omega] at hskip
  rw [hskip, show size - t = (size - t - 1) + 1 by omega, search]
  simp [hnone]

/-- Taking the vacant slot a search ended on records the key. -/
theorem Holds.insert_key (h : Holds size hash view keys) {key : κ} {t : Nat} (ht : t < size)
    (hnone : view ((hash key + t) % size) = none)
    (hpass : ∀ u < t, Passes view key ((hash key + u) % size)) :
    Holds size hash (Function.update view ((hash key + t) % size) (some key)) (key :: keys) where
  reach := by
    have keep : ∀ k slot, Passes view k slot →
        Passes (Function.update view ((hash key + t) % size) (some key)) k slot := by
      rintro k slot ⟨k', hview, hne⟩
      refine ⟨k', ?_, hne⟩
      rw [Function.update_of_ne]
      · exact hview
      · rintro rfl
        simp [hnone] at hview
    intro k hk
    rcases List.mem_cons.mp hk with rfl | hk
    · exact ⟨t, ht, by simp, fun u hu => keep k _ (hpass u hu)⟩
    · obtain ⟨t', ht', hview, hpass'⟩ := h.reach k hk
      refine ⟨t', ht', ?_, fun u hu => keep k _ (hpass' u hu)⟩
      rw [Function.update_of_ne]
      · exact hview
      · intro heq
        rw [heq, hnone] at hview
        cases hview
  sound := by
    intro i k hview
    by_cases hi : i = (hash key + t) % size
    · subst hi
      simp only [Function.update_self, Option.some.injEq] at hview
      simp [hview]
    · rw [Function.update_of_ne hi] at hview
      exact List.mem_cons_of_mem _ (h.sound i k hview)
  card := by
    have hsub : (Finset.range size).filter
        (fun i => Function.update view ((hash key + t) % size) (some key) i ≠ none) ⊆
        insert ((hash key + t) % size) ((Finset.range size).filter (fun i => view i ≠ none)) := by
      intro i hi
      simp only [Finset.mem_filter, Finset.mem_insert] at hi ⊢
      by_cases heq : i = (hash key + t) % size
      · exact .inl heq
      · rw [Function.update_of_ne heq] at hi
        exact .inr hi
    have hle := (Finset.card_le_card hsub).trans (Finset.card_insert_le _ _)
    have hold := h.card
    simp only [List.length_cons]
    omega

end Probing
