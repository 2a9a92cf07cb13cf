import Mathlib.Tactic

/-! # Labelled transition systems

States, labelled steps and the runs they make. An invariant is established once
at the initial states and once for a step; `Reachable.invariant` carries it over
every run. Runs keep their labels in execution order, for statements about what
happened before a state.
-/

namespace Transition

/-- A system is a set of initial states and a labelled step relation. -/
structure System (σ α : Type) where
  init : σ → Prop
  step : σ → α → σ → Prop

variable {σ α : Type} {S : System σ α}

/-- `Exec s labels s'`: the labelled steps lead from `s` to `s'`. -/
inductive Exec (S : System σ α) : σ → List α → σ → Prop
  | nil (s : σ) : Exec S s [] s
  | snoc {s s' s'' : σ} {labels : List α} {a : α} :
      Exec S s labels s' → S.step s' a s'' → Exec S s (labels ++ [a]) s''

def Reachable (S : System σ α) (s : σ) : Prop :=
  ∃ s₀ labels, S.init s₀ ∧ Exec S s₀ labels s

theorem Reachable.of_init {s : σ} (h : S.init s) : Reachable S s :=
  ⟨s, [], h, .nil s⟩

theorem Reachable.step {s s' : σ} {a : α} (h : Reachable S s) (hs : S.step s a s') :
    Reachable S s' := by
  obtain ⟨s₀, labels, hinit, hexec⟩ := h
  exact ⟨s₀, labels ++ [a], hinit, hexec.snoc hs⟩

/-- A run goes on from a state that is reached. -/
theorem Reachable.exec {s s' : σ} {labels : List α} (h : Reachable S s)
    (hexec : Exec S s labels s') : Reachable S s' := by
  induction hexec with
  | nil => exact h
  | snoc _ hs ih => exact ih.step hs

/-- A run from its first step. -/
theorem Exec.cons {s s' s'' : σ} {labels : List α} {a : α} (hs : S.step s a s')
    (h : Exec S s' labels s'') : Exec S s (a :: labels) s'' := by
  induction h with
  | nil => exact (Exec.nil s).snoc hs
  | snoc _ hlast ih => exact ih.snoc hlast

/-- The last step of a run. -/
theorem Exec.concat_inv {s s'' : σ} {labels : List α} {a : α}
    (h : Exec S s (labels ++ [a]) s'') : ∃ s', Exec S s labels s' ∧ S.step s' a s'' := by
  generalize hl : labels ++ [a] = all at h
  cases h with
  | nil => simp at hl
  | snoc hexec hs =>
      obtain ⟨rfl, hlast⟩ := List.append_inj' hl rfl
      obtain rfl := (List.cons.inj hlast).1
      exact ⟨_, hexec, hs⟩

/-- A property of the initial states that every step keeps holds along a run. -/
theorem Exec.invariant {P : σ → Prop} {s₀ s : σ} {labels : List α}
    (hexec : Exec S s₀ labels s) (h₀ : P s₀)
    (hstep : ∀ s a s', P s → S.step s a s' → P s') : P s := by
  induction hexec with
  | nil => exact h₀
  | snoc _ hs ih => exact hstep _ _ _ ih hs

theorem Reachable.invariant {P : σ → Prop} (hinit : ∀ s, S.init s → P s)
    (hstep : ∀ s a s', P s → S.step s a s' → P s') {s : σ} (h : Reachable S s) : P s := by
  obtain ⟨s₀, labels, h₀, hexec⟩ := h
  exact hexec.invariant (hinit s₀ h₀) hstep

/-- As `Exec.invariant`, for a property of the labels seen so far as well. -/
theorem Exec.history {P : List α → σ → Prop} {s₀ s : σ} {labels : List α}
    (hexec : Exec S s₀ labels s) (h₀ : P [] s₀)
    (hstep : ∀ labels s a s', P labels s → S.step s a s' → P (labels ++ [a]) s') :
    P labels s := by
  induction hexec with
  | nil => exact h₀
  | snoc _ hs ih => exact hstep _ _ _ _ ih hs

/-- The run of a step function, for systems that have one. -/
theorem exec_of_foldlM {step : σ → α → Option σ} (hS : ∀ s a s', step s a = some s' → S.step s a s')
    {s s' : σ} {labels : List α} (h : labels.foldlM step s = some s') : Exec S s labels s' := by
  induction labels generalizing s with
  | nil =>
      obtain rfl : s = s' := by simpa using h
      exact .nil s
  | cons a labels ih =>
      obtain ⟨next, hstep, hrest⟩ : ∃ next, step s a = some next ∧
          labels.foldlM step next = some s' := by
        simpa [List.foldlM_cons, Option.bind_eq_some_iff] using h
      exact (ih hrest).cons (hS _ _ _ hstep)

end Transition
