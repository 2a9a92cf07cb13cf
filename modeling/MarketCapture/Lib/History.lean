import Mathlib.Tactic

/-! # Histories

A history is the list of what happened, oldest first. A rule says what may follow
what; a history keeps a rule when each of its entries was allowed by the entries
before it. Rules are checked one entry at a time, and read back at any place.
-/

namespace History

variable {α : Type} {P Q : List α → α → Prop} {log : List α}

/-- Each entry of the history satisfies `P` against the entries before it. -/
def Always (P : List α → α → Prop) (log : List α) : Prop :=
  ∀ earlier entry later, log = earlier ++ entry :: later → P earlier entry

theorem always_nil (P : List α → α → Prop) : Always P [] := by
  intro earlier entry later h
  simp at h

theorem always_concat {entry : α} :
    Always P (log ++ [entry]) ↔ Always P log ∧ P log entry := by
  constructor
  · intro h
    refine ⟨fun earlier e later hlog => h earlier e (later ++ [entry]) ?_, h log entry [] rfl⟩
    rw [hlog, List.append_assoc, List.cons_append]
  · rintro ⟨h, hlast⟩ earlier e later hlog
    rcases List.eq_nil_or_concat later with rfl | ⟨later, last, rfl⟩
    · obtain ⟨rfl, he⟩ := List.append_inj' hlog rfl
      obtain rfl := (List.cons.inj he).1
      exact hlast
    · rw [List.concat_eq_append, ← List.cons_append, ← List.append_assoc] at hlog
      exact h earlier e later (List.append_inj' hlog rfl).1

theorem Always.mono (h : Always P log)
    (hPQ : ∀ earlier entry, P earlier entry → Q earlier entry) : Always Q log :=
  fun earlier entry later hlog => hPQ earlier entry (h earlier entry later hlog)

/-- A rule holds of every initial part of the history. -/
theorem Always.initial {rest : List α} (h : Always P (log ++ rest)) : Always P log := by
  intro earlier entry later hlog
  refine h earlier entry (later ++ rest) ?_
  rw [hlog, List.append_assoc, List.cons_append]

/-- An entry that is never allowed after itself occurs once at most. -/
theorem Always.count_le_one (h : Always P log) {p : α → Bool}
    (hp : ∀ earlier entry, P earlier entry → p entry = true → ∀ e ∈ earlier, p e = false) :
    log.countP p ≤ 1 := by
  induction log using List.reverseRecOn with
  | nil => simp
  | append_singleton log entry ih =>
      obtain ⟨hlog, hentry⟩ := always_concat.mp h
      rw [List.countP_append, List.countP_singleton]
      split
      · next hpe =>
          have hzero : log.countP p = 0 := by
            rw [List.countP_eq_zero]
            intro e he
            simp [hp log entry hentry hpe e he]
          omega
      · exact ih hlog

/-- The number of entries with `p` since the last one with `reset`. -/
def countSince (reset p : α → Bool) (log : List α) : Nat :=
  log.foldl (fun n entry => if reset entry then 0 else if p entry then n + 1 else n) 0

theorem countSince_concat (reset p : α → Bool) (log : List α) (entry : α) :
    countSince reset p (log ++ [entry]) =
      if reset entry then 0
      else if p entry then countSince reset p log + 1 else countSince reset p log := by
  simp [countSince, List.foldl_append]

/-- Whether the last entry with `on` or `off` is one with `on`. -/
def switched (on off : α → Bool) (log : List α) : Bool :=
  log.foldl (fun answer entry => if on entry then true else if off entry then false else answer)
    false

theorem switched_concat (on off : α → Bool) (log : List α) (entry : α) :
    switched on off (log ++ [entry]) =
      if on entry then true else if off entry then false else switched on off log := by
  simp [switched, List.foldl_append]

/-- Once switched on, it stays on as long as nothing switches it off. -/
theorem switched_append {on off : α → Bool} {rest : List α}
    (h : switched on off log = true) (hrest : ∀ entry ∈ rest, off entry = false) :
    switched on off (log ++ rest) = true := by
  induction rest using List.reverseRecOn with
  | nil => simpa using h
  | append_singleton rest entry ih =>
      rw [← List.append_assoc, switched_concat, hrest entry (by simp),
        ih (fun e he => hrest e (by simp [he]))]
      simp

end History
