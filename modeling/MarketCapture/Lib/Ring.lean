import Mathlib.Tactic

/-! # A bounded ring between one producer and one consumer

Entries pass through a ring of slots in the order in which they are committed. Each
side counts entries and their weight for itself and shows its counts to the other in
two stores, the weight first and the number second, so the other side may see them
late. Whatever the order of the steps, a slot is not reused before its entry is
released, and the weight that is out is the weight of the entries that are out.
-/

namespace Ring

/-- Where the producer is between taking a slot and showing its entry. -/
inductive Phase where
  | free | held | committed | weighed
  deriving DecidableEq, Repr

namespace Phase

/-- The entries that are committed and not yet shown. -/
def pending : Phase → Nat
  | free => 0
  | held => 0
  | committed => 1
  | weighed => 1

/-- The entries whose weight is shown before they are. -/
def ahead : Phase → Nat
  | free => 0
  | held => 0
  | committed => 0
  | weighed => 1

end Phase

structure State (α : Type) where
  slots : Nat → α
  /-- The committed entries, in order. -/
  log : List α
  /-- The entries as the consumer gave them back, in order. -/
  freed : List α
  phase : Phase
  produced : Nat
  producedWeight : Nat
  published : Nat
  publishedWeight : Nat
  consumed : Nat
  consumedWeight : Nat
  releasing : Bool
  released : Nat
  releasedWeight : Nat

namespace State

variable {α : Type}

/-- The slot the producer fills next. -/
def tail (size : Nat) (s : State α) : Nat := s.produced % size

/-- The slot the consumer takes next. -/
def head (size : Nat) (s : State α) : Nat := s.consumed % size

end State

/-- The steps of both sides. `size` slots hold entries of a weight of at most `capacity`
in all, and the counts stay below `limit`. -/
inductive Step {α : Type} (size capacity limit : Nat) (weight : α → Nat) :
    State α → State α → Prop
  | acquire (s : State α) (a : α) : s.phase = .free → s.produced - s.released < size →
      Step size capacity limit weight s
        { s with phase := .held, slots := Function.update s.slots (s.tail size) a }
  | fill (s : State α) (a : α) : s.phase = .held →
      Step size capacity limit weight s
        { s with slots := Function.update s.slots (s.tail size) a }
  | drop (s : State α) (a : α) : s.phase = .held →
      Step size capacity limit weight s
        { s with phase := .free, slots := Function.update s.slots (s.tail size) a }
  | commit (s : State α) (a : α) : s.phase = .held →
      s.producedWeight - s.releasedWeight + weight a ≤ capacity →
      s.produced + 1 < limit → s.producedWeight + weight a < limit →
      Step size capacity limit weight s
        { s with
          phase := .committed
          slots := Function.update s.slots (s.tail size) a
          log := s.log ++ [a]
          produced := s.produced + 1
          producedWeight := s.producedWeight + weight a }
  | weigh (s : State α) : s.phase = .committed →
      Step size capacity limit weight s
        { s with phase := .weighed, publishedWeight := s.producedWeight }
  | publish (s : State α) : s.phase = .weighed →
      Step size capacity limit weight s { s with phase := .free, published := s.produced }
  | consume (s : State α) (a : α) : s.releasing = false → s.consumed < s.published →
      Step size capacity limit weight s
        { s with
          releasing := true
          slots := Function.update s.slots (s.head size) a
          freed := s.freed ++ [s.slots (s.head size)]
          consumed := s.consumed + 1
          consumedWeight := s.consumedWeight + weight (s.slots (s.head size))
          releasedWeight := s.consumedWeight + weight (s.slots (s.head size)) }
  | release (s : State α) : s.releasing = true →
      Step size capacity limit weight s { s with releasing := false, released := s.consumed }

theorem Step.log_cases {α : Type} {size capacity limit : Nat} {weight : α → Nat} {s s' : State α}
    (h : Step size capacity limit weight s s') : s'.log = s.log ∨ ∃ a, s'.log = s.log ++ [a] := by
  cases h with
  | commit a => exact .inr ⟨a, rfl⟩
  | _ => exact .inl rfl

/-- The weight of the first entries. -/
def total {α : Type} (weight : α → Nat) (log : List α) (count : Nat) : Nat :=
  ((log.take count).map weight).sum

section Total

variable {α : Type} {weight : α → Nat} {log : List α}

theorem total_succ {count : Nat} {a : α} (h : log[count]? = some a) :
    total weight log (count + 1) = total weight log count + weight a := by
  rw [total, List.take_add_one, h, Option.toList_some, List.map_append, List.sum_append, total]
  simp

theorem total_append {count : Nat} (h : count ≤ log.length) (a : α) :
    total weight (log ++ [a]) count = total weight log count := by
  rw [total, List.take_append_of_le_length h, total]

theorem total_length (log : List α) : total weight log log.length = (log.map weight).sum := by
  rw [total, List.take_length]

theorem total_mono {count count' : Nat} (h : count ≤ count') :
    total weight log count ≤ total weight log count' := by
  obtain ⟨extra, rfl⟩ := Nat.exists_eq_add_of_le h
  simp [total, List.take_add]

/-- What is left after the first entries. -/
theorem total_drop (weight : α → Nat) (log : List α) (count : Nat) :
    ((log.drop count).map weight).sum + total weight log count = (log.map weight).sum := by
  rw [total, Nat.add_comm, ← List.sum_append, ← List.map_append, List.take_append_drop]

end Total

/-- Two positions less than the size apart have different slots. -/
theorem slot_ne {size i j : Nat} (h : i < j) (hsize : j < i + size) : i % size ≠ j % size := by
  intro heq
  obtain ⟨k, rfl⟩ := Nat.exists_eq_add_of_lt h
  have hdiv : size ∣ k + 1 := by
    have := (Nat.modEq_iff_dvd' (show i ≤ i + k + 1 by omega)).mp heq
    simpa [Nat.add_assoc] using this
  have := Nat.le_of_dvd (Nat.succ_pos k) hdiv
  omega

variable {α : Type} {size capacity limit : Nat} {weight : α → Nat}

/-- What holds between the counts, the entries and the slots. -/
structure Inv (size capacity limit : Nat) (weight : α → Nat) (s : State α) : Prop where
  produced : s.produced = s.log.length
  producedWeight : s.producedWeight = total weight s.log s.produced
  producedLimit : s.produced < limit
  weightLimit : s.producedWeight < limit
  published : s.published + s.phase.pending = s.produced
  publishedWeight : s.publishedWeight = total weight s.log (s.published + s.phase.ahead)
  consumed : s.consumed ≤ s.published
  consumedWeight : s.consumedWeight = total weight s.log s.consumed
  releasedWeight : s.releasedWeight = s.consumedWeight
  released : s.released + s.releasing.toNat = s.consumed
  freed : s.freed = s.log.take s.consumed
  room : s.produced ≤ s.released + size
  heldRoom : s.phase = .held → s.produced < s.released + size
  weightRoom : s.producedWeight ≤ s.releasedWeight + capacity
  slots : ∀ i, s.consumed ≤ i → i < s.produced → s.log[i]? = some (s.slots (i % size))

namespace Inv

variable {s s' : State α}

theorem published_le (h : Inv size capacity limit weight s) : s.published ≤ s.produced := by
  have := h.published
  omega

theorem released_le (h : Inv size capacity limit weight s) : s.released ≤ s.consumed := by
  have := h.released
  omega

theorem shown_le (h : Inv size capacity limit weight s) :
    s.published + s.phase.ahead ≤ s.produced := by
  have := h.published
  cases hphase : s.phase <;> simp only [hphase, Phase.pending, Phase.ahead] at this ⊢ <;> omega

theorem publishedWeight_le (h : Inv size capacity limit weight s) :
    s.publishedWeight ≤ s.producedWeight := by
  rw [h.publishedWeight, h.producedWeight]
  exact total_mono h.shown_le

theorem consumedWeight_le (h : Inv size capacity limit weight s) :
    s.consumedWeight ≤ s.publishedWeight := by
  have := h.consumed
  rw [h.consumedWeight, h.publishedWeight]
  exact total_mono (by omega)

theorem releasedWeight_le (h : Inv size capacity limit weight s) :
    s.releasedWeight ≤ s.producedWeight := by
  rw [h.releasedWeight]
  exact h.consumedWeight_le.trans h.publishedWeight_le

/-- The entry the consumer finds in its slot is the oldest one that is out. -/
theorem head_entry (h : Inv size capacity limit weight s) (hlt : s.consumed < s.published) :
    s.log[s.consumed]? = some (s.slots (s.head size)) :=
  h.slots s.consumed (Nat.le_refl _) (hlt.trans_le h.published_le)

/-- The weight that is out is the weight of the entries that are not yet freed. -/
theorem outstanding (h : Inv size capacity limit weight s) :
    s.producedWeight - s.releasedWeight = ((s.log.drop s.consumed).map weight).sum := by
  have hsplit := total_drop weight s.log s.consumed
  have hall : s.producedWeight = (s.log.map weight).sum := by
    rw [h.producedWeight, h.produced, total_length]
  have hconsumed := h.consumedWeight
  have hreleased := h.releasedWeight
  omega

/-- Writing the producer's slot leaves the entries that are out. -/
theorem slots_tail (h : Inv size capacity limit weight s) (hheld : s.produced < s.released + size)
    (a : α) (i : Nat) (hi : s.consumed ≤ i) (hlt : i < s.produced) :
    s.log[i]? = some (Function.update s.slots (s.tail size) a (i % size)) := by
  have hreleased := h.released_le
  have hne : i % size ≠ s.tail size := slot_ne hlt (by omega)
  rw [Function.update_of_ne hne]
  exact h.slots i hi hlt

/-- Writing the consumer's slot leaves the entries behind it. -/
theorem slots_head (h : Inv size capacity limit weight s) (a : α) (i : Nat)
    (hi : s.consumed + 1 ≤ i) (hlt : i < s.produced) :
    s.log[i]? = some (Function.update s.slots (s.head size) a (i % size)) := by
  have hreleased := h.released_le
  have hroom := h.room
  have hne : s.head size ≠ i % size := slot_ne (show s.consumed < i by omega) (by omega)
  rw [Function.update_of_ne hne.symm]
  exact h.slots i (by omega) hlt

theorem commit (h : Inv size capacity limit weight s) (a : α) (hphase : s.phase = .held)
    (hweight : s.producedWeight - s.releasedWeight + weight a ≤ capacity)
    (hlimit : s.produced + 1 < limit) (hlimit' : s.producedWeight + weight a < limit) :
    Inv size capacity limit weight
      { s with
        phase := .committed
        slots := Function.update s.slots (s.tail size) a
        log := s.log ++ [a]
        produced := s.produced + 1
        producedWeight := s.producedWeight + weight a } := by
  have hroom := h.heldRoom hphase
  have hproduced := h.produced
  have hpublished := h.published
  have hpublishedWeight := h.publishedWeight
  have hconsumed := h.consumed
  have hreleasedWeight := h.releasedWeight_le
  have hlength : s.published ≤ s.log.length := by omega
  rw [hphase] at hpublished hpublishedWeight
  simp only [Phase.pending, Phase.ahead, Nat.add_zero] at hpublished hpublishedWeight
  refine ⟨?_, ?_, hlimit, hlimit', ?_, ?_, hconsumed, ?_, h.releasedWeight, h.released, ?_, ?_, ?_, ?_,
    ?_⟩
  · simp only [List.length_append, List.length_cons, List.length_nil, hproduced]
  · have hlast : (s.log ++ [a])[s.produced]? = some a := by simp [hproduced]
    simp only [total_succ hlast, total_append hproduced.le, h.producedWeight]
  · simp only [Phase.pending, hpublished]
  · simp only [Phase.ahead, Nat.add_zero, total_append hlength, hpublishedWeight]
  · simp only [total_append (hconsumed.trans hlength), h.consumedWeight]
  · simp only [h.freed, List.take_append_of_le_length (hconsumed.trans hlength)]
  · simp only
    omega
  · simp
  · simp only
    omega
  · intro i hi hlt
    simp only at hi hlt
    rcases Nat.lt_or_ge i s.produced with hold | hnew
    · rw [List.getElem?_append_left (by omega)]
      exact h.slots_tail hroom a i hi hold
    · obtain rfl : i = s.produced := by omega
      simp [hproduced, State.tail]

theorem consume (h : Inv size capacity limit weight s) (a : α) (hreleasing : s.releasing = false)
    (hlt : s.consumed < s.published) :
    Inv size capacity limit weight
      { s with
        releasing := true
        slots := Function.update s.slots (s.head size) a
        freed := s.freed ++ [s.slots (s.head size)]
        consumed := s.consumed + 1
        consumedWeight := s.consumedWeight + weight (s.slots (s.head size))
        releasedWeight := s.consumedWeight + weight (s.slots (s.head size)) } := by
  have hentry := h.head_entry hlt
  have hreleased := h.released
  have hweightRoom := h.weightRoom
  have hreleasedWeight := h.releasedWeight
  rw [hreleasing] at hreleased
  refine ⟨h.produced, h.producedWeight, h.producedLimit, h.weightLimit, h.published,
    h.publishedWeight, hlt, ?_, rfl, ?_, ?_, h.room, h.heldRoom, ?_, h.slots_head a⟩
  · simp only [total_succ hentry, h.consumedWeight]
  · simpa using hreleased
  · simp only [h.freed, List.take_add_one, hentry, Option.toList_some]
  · simp only
    omega

/-- Every step keeps the invariant. -/
theorem step (h : Inv size capacity limit weight s) (hs : Step size capacity limit weight s s') :
    Inv size capacity limit weight s' := by
  have hpublished := h.published
  have hpublishedWeight := h.publishedWeight
  have hproducedWeight := h.producedWeight
  have hreleased := h.released
  have hconsumed := h.consumed
  have hroom := h.room
  cases hs with
  | acquire a hphase hfree =>
      rw [hphase] at hpublished hpublishedWeight
      have hheld : s.produced < s.released + size := by omega
      exact ⟨h.produced, h.producedWeight, h.producedLimit, h.weightLimit, hpublished,
        hpublishedWeight, h.consumed, h.consumedWeight, h.releasedWeight, h.released, h.freed, h.room,
        fun _ => hheld, h.weightRoom, h.slots_tail hheld a⟩
  | fill a hphase =>
      exact ⟨h.produced, h.producedWeight, h.producedLimit, h.weightLimit, hpublished,
        hpublishedWeight, h.consumed, h.consumedWeight, h.releasedWeight, h.released, h.freed, h.room,
        h.heldRoom, h.weightRoom, h.slots_tail (h.heldRoom hphase) a⟩
  | drop a hphase =>
      rw [hphase] at hpublished hpublishedWeight
      exact ⟨h.produced, h.producedWeight, h.producedLimit, h.weightLimit, hpublished,
        hpublishedWeight, h.consumed, h.consumedWeight, h.releasedWeight, h.released, h.freed, h.room,
        by simp, h.weightRoom, h.slots_tail (h.heldRoom hphase) a⟩
  | commit a hphase hweight hlimit hlimit' => exact h.commit a hphase hweight hlimit hlimit'
  | weigh hphase =>
      rw [hphase] at hpublished
      simp only [Phase.pending] at hpublished
      refine ⟨h.produced, h.producedWeight, h.producedLimit, h.weightLimit, hpublished, ?_,
        h.consumed, h.consumedWeight, h.releasedWeight, h.released, h.freed, h.room, by simp,
        h.weightRoom, h.slots⟩
      simp only [Phase.ahead, hpublished, hproducedWeight]
  | publish hphase =>
      rw [hphase] at hpublished hpublishedWeight
      simp only [Phase.pending, Phase.ahead] at hpublished hpublishedWeight
      refine ⟨h.produced, h.producedWeight, h.producedLimit, h.weightLimit, rfl, ?_, by simp only; omega,
        h.consumedWeight, h.releasedWeight, h.released, h.freed, h.room, by simp, h.weightRoom,
        h.slots⟩
      simp only [Phase.ahead, Nat.add_zero, hpublishedWeight, hpublished]
  | consume a hreleasing hlt => exact h.consume a hreleasing hlt
  | release hreleasing =>
      refine ⟨h.produced, h.producedWeight, h.producedLimit, h.weightLimit, hpublished,
        hpublishedWeight, h.consumed, h.consumedWeight, h.releasedWeight, by simp, h.freed, ?_, ?_,
        h.weightRoom, h.slots⟩
      · simp only
        omega
      · intro hphase
        have := h.heldRoom hphase
        simp only
        omega

/-- The counts the sides show to each other only grow. -/
theorem published_mono (h : Inv size capacity limit weight s)
    (hs : Step size capacity limit weight s s') : s.published ≤ s'.published := by
  cases hs with
  | publish => exact h.published_le
  | _ => exact Nat.le_refl _

theorem released_mono (h : Inv size capacity limit weight s)
    (hs : Step size capacity limit weight s s') :
    s.released ≤ s'.released ∧ s.releasedWeight ≤ s'.releasedWeight := by
  cases hs with
  | consume => exact ⟨Nat.le_refl _, h.releasedWeight.le.trans (Nat.le_add_right _ _)⟩
  | release => exact ⟨h.released_le, Nat.le_refl _⟩
  | _ => exact ⟨Nat.le_refl _, Nat.le_refl _⟩

end Inv

end Ring
