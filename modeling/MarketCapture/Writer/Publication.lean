import MarketCapture.Writer.Contract

/-! # Which batches are published

The history of the queue has one slot for each `publish` that succeeded, with the batch that
was filled before it. The calls of the producer and what they returned decide it, however the
writer thread runs between them.
-/

namespace MarketCapture

/-- The target and the batch of a slot. -/
def Slot.entry (slot : Slot) : Option Nat × EventRowBatch := (slot.targetIndex, slot.batch)

namespace ProducerView

/-- What a call with its result adds to the history. -/
def entry (v : ProducerView) : Call × CallResult → List (Option Nat × EventRowBatch)
  | (.publish target, .published none) => [(some target, v.held.getD {})]
  | _ => []

/-- What a sequence of calls adds to the history. -/
def entries : ProducerView → List (Call × CallResult) → List (Option Nat × EventRowBatch)
  | _, [] => []
  | v, call :: calls => v.entry call ++ (v.after call).entries calls

theorem entries_append (v : ProducerView) (calls calls' : List (Call × CallResult)) :
    v.entries (calls ++ calls') = v.entries calls ++ (calls.foldl after v).entries calls' := by
  induction calls generalizing v with
  | nil => rfl
  | cons call calls ih =>
      simp only [List.cons_append, entries, List.foldl_cons]
      rw [ih, List.append_assoc]

/-- The sequence number counts the batches. -/
theorem after_sequence (v : ProducerView) (call : Call × CallResult) :
    (v.after call).sequence = v.sequence + (v.entry call).length := by
  obtain ⟨call, result⟩ := call
  cases call with
  | tryAcquire =>
      cases result with
      | acquired error => cases error <;> rfl
      | _ => rfl
  | publish target =>
      cases result with
      | published error => cases error <;> rfl
      | _ => rfl
  | _ => rfl

end ProducerView

namespace CsvWriter

variable {w : CsvWriter}

/-- The history while the call `c` of `w` is under way: that of `w`, or one slot more. -/
def Logged (w : CsvWriter) (c : Call) (s : CsvWriter) : Prop :=
  s.history.log = w.history.log ∨ ∃ target, c = .publish target ∧
    s.history.log.map Slot.entry =
      w.history.log.map Slot.entry ++ [(some target, w.producerSlot.batch)]

theorem call_log {memory : MemoryAnswers} {c : Call} {s : CsvWriter} (hs : w.call memory c = some s) :
    w.Logged c s := .inl (congrArg History.log (call_frame hs).history)

theorem publishBatch_log (s : CsvWriter) (target : Nat) :
    (s.publishBatch target).history.log = s.history.log ∨
      ∃ slot, (s.publishBatch target).history.log = s.history.log ++ [slot] ∧
        slot.entry = (some target, s.producerSlot.batch) := by
  simp only [publishBatch]
  split
  · exact .inl rfl
  · split
    · exact .inr ⟨_, rfl, rfl⟩
    · exact .inl rfl

/-- Only the commit of `publish` adds to the history. -/
theorem producerStep_log {memory : MemoryAnswers} {s s' : CsvWriter}
    (hs : s.producerStep memory = some s') : s'.history.log = s.history.log ∨
      ∃ target, s.producerPc = .publishBytes target ∧ s' = s.publishBatch target := by
  unfold producerStep at hs
  cases hpc : s.producerPc <;> simp only [hpc] at hs
  case publishBytes target => exact .inr ⟨target, rfl, (Option.some.inj hs).symm⟩
  case occupancyOverflow use released releasedBytes =>
    obtain rfl := Option.some.inj hs
    refine .inl ?_
    cases use <;> simp only [useOccupancy]
    case resume => split <;> rfl
    all_goals rfl
  case armExchange =>
    obtain rfl := Option.some.inj hs
    split <;> exact .inl rfl
  case publishFailed => split_ifs at hs <;> cases hs <;> exact .inl rfl
  all_goals (try split at hs) <;> cases hs
  all_goals exact .inl rfl

/-- The commit adds the batch that was in the slot when the call was made. -/
theorem Logged.producer {memory : MemoryAnswers} {s s' : CsvWriter} {c : Call} (hw : w.Inv)
    (hinv : s.Inv) (h : w.Logged c s) (hserving : w.Serving c s)
    (hs : s.producerStep memory = some s') : w.Logged c s' := by
  rcases producerStep_log hs with hsame | ⟨target, hpc, rfl⟩
  · rw [Logged, hsame]
    exact h
  · have hreached := hserving.reached
    rw [hpc] at hreached
    obtain ⟨rfl, hview, -⟩ := hreached
    have hold : s.history.log = w.history.log := by
      rcases h with hold | ⟨target, -, hgrown⟩
      · exact hold
      · -- the sequence number is still the one of the entry
        have hsequence : s.producerSequence = w.producerSequence :=
          congrArg ProducerView.sequence hview
        have hproduced : s.producerSequence = s.history.log.length := hinv.queue.ring.produced
        have hproduced' : w.producerSequence = w.history.log.length := hw.queue.ring.produced
        have hlength := congrArg List.length hgrown
        simp only [List.length_map, List.length_append, List.length_singleton] at hlength
        omega
    rcases publishBatch_log s target with hsame | ⟨slot, hgrown, hentry⟩
    · exact .inl (hsame.trans hold)
    · have hslot : s.slotAcquired = true := hinv.queue.control.holds true (by rw [hpc]; rfl)
      refine .inr ⟨target, rfl, ?_⟩
      rw [hgrown, hold, List.map_append, List.map_singleton, hentry, (view_slot hview).2 hslot]

theorem Underway.logged {entered s : CsvWriter} {c : Call} (h : Underway entered s) (hw : w.Inv)
    (hreachable : Transition.Reachable system entered) (hserving : w.Serving c entered)
    (hentered : w.Logged c entered) : w.Logged c s := by
  induction h with
  | entry => exact hentered
  | producer hold hs ih =>
      exact ih.producer hw (inv_of_reachable (hold.reachable hreachable))
        (hold.serving hreachable hserving) hs
  | writer _ hs ih =>
      rw [Logged, (writerStep_frame hs).log]
      exact ih

/-- What a call that is over has added. -/
theorem Logged.entry {s : CsvWriter} {c : Call} {result : CallResult} (hw : w.Inv) (hinv : s.Inv)
    (hview : s.view = w.view.after (c, result)) (hanswers : w.Answers s c result)
    (hlogged : w.Logged c s) : s.history.log.map Slot.entry =
      w.history.log.map Slot.entry ++ w.view.entry (c, result) := by
  have hsequence : s.producerSequence = w.producerSequence + (w.view.entry (c, result)).length :=
    (congrArg ProducerView.sequence hview).trans (w.view.after_sequence _)
  have hproduced : s.producerSequence = s.history.log.length := hinv.queue.ring.produced
  have hproduced' : w.producerSequence = w.history.log.length := hw.queue.ring.produced
  rcases hlogged with hsame | ⟨target, rfl, hgrown⟩
  · have hnone : w.view.entry (c, result) = [] := by
      rw [← List.length_eq_zero_iff]
      rw [hsame] at hproduced
      omega
    rw [hsame, hnone, List.append_nil]
  · have hlength := congrArg List.length hgrown
    simp only [List.length_map, List.length_append, List.length_singleton] at hlength
    cases result with
    | published error =>
        cases error with
        | none =>
            obtain ⟨hslot, -⟩ := hanswers
            simpa [ProducerView.entry, view, hslot] using hgrown
        | some error =>
            simp only [ProducerView.entry, List.length_nil] at hsequence
            omega
    | _ => exact hanswers.elim

/-- The history of the queue, from the calls that were served. -/
theorem Served.log_eq {first : CsvWriter} {calls : List (Call × CallResult)}
    (h : Served first calls w) (hfirst : system.init first) :
    w.history.log.map Slot.entry =
      first.history.log.map Slot.entry ++ first.view.entries calls := by
  induction h with
  | start => simp [ProducerView.entries]
  | writer _ hs ih =>
      rw [(writerStep_frame hs).log]
      exact ih
  | @call calls w entered w' c memory result hserved hs hunderway hidle hresult ih =>
      have hreachable := hserved.reachable hfirst
      have hinv := inv_of_reachable hreachable
      have hentered := hreachable.step hs
      have hcall := hs
      simp only [step] at hcall
      split at hcall
      · have hserving := hunderway.serving hentered (call_serving hcall)
        have hreached := hserving.reached
        rw [hidle] at hreached
        obtain ⟨hview, hanswers⟩ := hreached _ hresult
        have hlogged := hunderway.logged hinv hentered (call_serving hcall) (call_log hcall)
        have hadded := hlogged.entry hinv (inv_of_reachable (hunderway.reachable hentered)) hview
          hanswers
        rw [hadded, ih, hserved.view_eq hfirst, ProducerView.entries_append, List.append_assoc]
        simp [ProducerView.entries]
      · cases hcall

end CsvWriter

end MarketCapture
