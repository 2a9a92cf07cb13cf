import MarketCapture.Controller.FirstFailure

/-! # The way out

What a controller does not do any more once it has failed or was stopped, how it ends, and
the breaker that ends it after three sessions in a row that broke the message policy.
-/

namespace MarketCapture

open Simdjson

namespace LiveCaptureController

open ControllerEvent Transition

section Quiescence

variable {json : Library} {c : LiveCaptureController}

/-- A session is created or started. -/
def StartsSession : ControllerEvent → Prop
  | .sessionCreated _ _ | .sessionStarted => True
  | _ => False

/-- A controller that winds down, and ends once. -/
structure Quiescent (c : LiveCaptureController) : Prop where
  failed : ∀ earlier event later, c.log = earlier ++ event :: later → LatchedIn earlier →
    event ≠ .published ∧ event ≠ .reconnectScheduled ∧ ¬ StartsSession event
  stopped : ∀ earlier event later, c.log = earlier ++ event :: later → .stopHandled ∈ earlier →
    ¬ StartsSession event
  latched : c.failureLatched = true ↔ LatchedIn c.log
  exclusive : (if c.hasLiveSession then 1 else 0) + c.reconnectWaits ≤ 1
  once : c.log.countP isTerminalCallback ≤ 1
  joined : ∀ earlier result later, c.log = earlier ++ .terminalCallback result :: later →
    .joined ∈ earlier

/-- Whatever comes in which order, a controller that has failed or was stopped starts nothing
new, and tells its owner once, after the writer has ended. -/
theorem controller_quiescence (h : Reachable (system json) c) : Quiescent c := by
  have hcore := core_of_reachable h
  constructor
  · intro earlier event later hlog hlatched
    have hrule := hcore.rules earlier event later hlog
    refine ⟨?_, ?_, ?_⟩
    · rintro rfl
      exact hrule hlatched
    · rintro rfl
      exact hrule.1 hlatched
    · cases event with
      | sessionCreated generation connectionEpoch => exact fun _ => hrule.1 hlatched
      | sessionStarted => exact fun _ => hrule.1 hlatched
      | _ => exact id
  · intro earlier event later hlog hstopped
    have hrule := hcore.rules earlier event later hlog
    cases event with
    | sessionCreated generation connectionEpoch => exact fun _ => hrule.2.1 hstopped
    | sessionStarted => exact fun _ => hrule.2 hstopped
    | _ => exact id
  · exact hcore.latchedLog.symm
  · rw [hasLiveSession_eq hcore.toBase]
    split
    · next hsome =>
        rw [hcore.exclusive hsome]
    · have := hcore.waits
      omega
  · refine hcore.rules.count_le_one fun earlier event hrule hterminal e he => ?_
    cases event with
    | terminalCallback result => exact hrule.2 e he
    | _ => cases hterminal
  · intro earlier result later hlog
    exact (hcore.rules earlier _ later hlog).1

/-- A session fails and a reconnect waits; the stop comes first, and then the timer. -/
private def stoppedRun : List ControllerLabel :=
  [.start {}, .session (.resolved .other) {}, .stop, .requestStopOnIo {},
    .reconnectTimer .none {}]

theorem controller_quiescence_sample : ∃ c, sampleRun stoppedRun = some c ∧
    .reconnectScheduled ∈ c.log ∧ .stopHandled ∈ c.log ∧ c.terminal = true ∧
    c.log.countP isTerminalCallback = 1 ∧ Quiescent c := by
  have hreport : (sampleRun stoppedRun).map (fun c => (c.log.any (· = .reconnectScheduled),
      c.log.any (· = .stopHandled), c.terminal, c.log.countP isTerminalCallback)) =
      some (true, true, true, 1) := by
    decide +kernel
  obtain ⟨c, hrun, hfacts⟩ := Option.map_eq_some_iff.mp hreport
  simp only [Prod.mk.injEq, List.any_eq_true, decide_eq_true_eq, exists_eq_right] at hfacts
  obtain ⟨hscheduled, hstopped, hterminal, htold⟩ := hfacts
  exact ⟨c, hrun, hscheduled, hstopped, hterminal, htold,
    controller_quiescence (sampleRun_reachable hrun)⟩

end Quiescence

/-! ## The breaker -/

section Breaker

variable {json : Library} {c : LiveCaptureController}

theorem policyCount_le {log : List ControllerEvent} (h : History.Always Allowed log) :
    policyCount log ≤ 3 := by
  induction log using List.reverseRecOn with
  | nil => exact Nat.zero_le _
  | append_singleton log event ih =>
      obtain ⟨hlog, hrule⟩ := History.always_concat.mp h
      have hle := ih hlog
      rw [policyCount_concat]
      split
      · exact Nat.zero_le _
      split
      · next hpolicy =>
          cases event with
          | sessionEnded result found =>
              have := hrule hpolicy
              omega
          | _ => cases hpolicy
      · exact hle

/-- The breaker of a run so far. -/
structure BreakerSound (c : LiveCaptureController) : Prop where
  /-- The counter is the number of sessions that ended on a message policy since the last
  batch was published, at every point of the run. -/
  count : c.consecutiveMessagePolicyFailures = policyCount c.log
  bound : ∀ earlier later, c.log = earlier ++ later → policyCount earlier ≤ 3
  third : policyCount c.log = 3 ↔ .breakerTripped ∈ c.log
  notEarlier : ∀ earlier later, c.log = earlier ++ .breakerTripped :: later →
    policyCount earlier = 3
  finalized : .breakerTripped ∈ c.log →
    c.terminal = true ∧ c.failureLatched = true ∧ c.result.error ≠ .none ∧ c.session = none
  noReconnect : ∀ earlier later, c.log = earlier ++ .reconnectScheduled :: later →
    .breakerTripped ∉ earlier

theorem Core.breakerSound (h : Core none c) : BreakerSound c := by
  have htrips : policyCount c.log = 3 ↔ .breakerTripped ∈ c.log :=
    ⟨fun hthree => h.policyLimit.resolve_left (by omega), fun he => (h.tripped he).1⟩
  refine ⟨h.policy, ?_, htrips, ?_, ?_, ?_⟩
  · intro earlier later hlog
    have hrules := h.rules
    rw [hlog] at hrules
    exact policyCount_le hrules.initial
  · intro earlier later hlog
    exact h.rules earlier _ later hlog
  · intro he
    obtain ⟨-, hlatched, hnone⟩ := h.tripped he
    refine ⟨?_, hlatched, h.latchedError hlatched, hnone⟩
    rcases h.live (.inl hlatched) with hterminal | ⟨s, hs, -⟩
    · exact hterminal
    · rw [hnone] at hs
      cases hs
  · intro earlier later hlog
    exact (h.rules earlier _ later hlog).2.2

/-- Three sessions in a row, counted from the last published batch, that end on a binary or an
oversized message end the run. Nothing else counts, and nothing else starts the count anew. -/
theorem message_policy_breaker (h : Reachable (system json) c) :
    BreakerSound c ∧
      ∀ label c', c.step json label = some c' →
        ∃ events, c'.log = c.log ++ events ∧
          ((∀ event ∈ events, event.isPublished = false ∧ event.isPolicyEnd = false) →
            c'.consecutiveMessagePolicyFailures = c.consecutiveMessagePolicyFailures) := by
  have hcore := core_of_reachable h
  refine ⟨hcore.breakerSound, fun label c' hstep => ?_⟩
  obtain ⟨events, hlog, -⟩ := (hcore.follows hstep).events
  refine ⟨events, hlog, fun hplain => ?_⟩
  rw [(core_of_reachable (h.step hstep)).policy, hcore.policy, hlog]
  clear hlog
  induction events using List.reverseRecOn with
  | nil => rw [List.append_nil]
  | append_singleton events event ih =>
      obtain ⟨hpublished, hpolicy⟩ := hplain event (by simp)
      rw [← List.append_assoc, policyCount_concat, hpublished, hpolicy]
      exact ih fun e he => hplain e (List.mem_append_left _ he)

/-- A binary message. -/
private def binaryRead : ControllerLabel := .session (.read { gotText := false }) {}

/-- Three sessions that end on a binary message, with reconnects between them. -/
private def binaryRun : List ControllerLabel :=
  [.start {}] ++ sampleConnect ++ [binaryRead, .reconnectTimer .none {}] ++ sampleConnect ++
    [sampleText, binaryRead, .reconnectTimer .none {}] ++ sampleConnect ++ [binaryRead]

theorem message_policy_breaker_sample : ∃ c, sampleRun binaryRun = some c ∧
    policyCount c.log = 3 ∧ .breakerTripped ∈ c.log ∧ c.terminal = true ∧
    c.result.error = .messagePolicyBreaker ∧ BreakerSound c := by
  have hreport : (sampleRun binaryRun).map (fun c => (policyCount c.log,
      c.log.any (· = .breakerTripped), c.terminal, c.result.error)) =
      some (3, true, true, .messagePolicyBreaker) := by
    decide +kernel
  obtain ⟨c, hrun, hfacts⟩ := Option.map_eq_some_iff.mp hreport
  simp only [Prod.mk.injEq, List.any_eq_true, decide_eq_true_eq, exists_eq_right] at hfacts
  obtain ⟨hcount, htripped, hterminal, herror⟩ := hfacts
  exact ⟨c, hrun, hcount, htripped, hterminal, herror,
    (message_policy_breaker (sampleRun_reachable hrun)).1⟩

end Breaker

end LiveCaptureController

end MarketCapture
