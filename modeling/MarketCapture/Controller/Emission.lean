import MarketCapture.Controller.Headroom
import MarketCapture.Controller.Trace

/-! # From the pipeline to the queue

The history of the controller is a run of the pipeline, and the batches of that run are the ones
that the controller publishes, in their order: all of them while no failure is latched, and all
but the last one otherwise.
-/

namespace MarketCapture

open Simdjson

namespace LiveStep

/-- The target and the batch that a call of the pipeline has for the queue. -/
def entry (step : LiveStep) : Option (Option Nat × EventRowBatch) :=
  if step.result.disposition = .batchReady then some (step.result.targetIndex, step.output) else none

/-- A batch for the queue has an audit row. -/
def IsAudited (step : LiveStep) : Prop :=
  step.result.disposition = .batchReady → step.output.hasAuditRow = true

theorem audited_of_silent {steps : List LiveStep} (h : steps.filterMap entry = []) :
    ∀ step ∈ steps, step.IsAudited := by
  intro step hstep hready
  have hnone := List.filterMap_eq_nil_iff.mp h step hstep
  simp [entry, hready] at hnone

end LiveStep

namespace LiveEventPipeline

/-- A run of the pipeline and the state it leads to, from the last call on. -/
inductive Runs (json : Library) (first : LiveEventPipeline) :
    List LiveAction → List LiveStep → LiveEventPipeline → Prop
  | start : Runs json first [] [] first
  | invalidateAll {actions : List LiveAction} {steps : List LiveStep} {p : LiveEventPipeline} :
      Runs json first actions steps p →
      Runs json first (actions ++ [.invalidateAll])
        (steps ++ [{ before := p, action := .invalidateAll }]) p.invalidateAll
  | message {actions : List LiveAction} {steps : List LiveStep} {p p' : LiveEventPipeline}
      {message : WebSocketTextMessage} {result : LivePipelineResult} {batch : EventRowBatch} :
      Runs json first actions steps p → p.process json message = some (result, batch, p') →
      Runs json first (actions ++ [.message message])
        (steps ++ [⟨p, .message message, result, batch⟩]) p'

section Runs

variable {json : Library} {first p : LiveEventPipeline} {actions : List LiveAction}
  {steps : List LiveStep}

/-- The run goes on from the state it has led to. -/
theorem Runs.append (h : Runs json first actions steps p) (rest : List LiveAction) :
    first.run json (actions ++ rest) = (p.run json rest).map (steps ++ ·) := by
  induction h generalizing rest with
  | start => simp
  | invalidateAll _ ih =>
      rw [List.append_assoc, ih]
      simp only [List.singleton_append, run, Option.bind_eq_bind]
      cases run json rest _ <;> simp
  | message _ hprocess ih =>
      rw [List.append_assoc, ih]
      simp only [List.singleton_append, run, hprocess, Option.bind_eq_bind, Option.bind_some]
      cases run json rest _ <;> simp

theorem Runs.run (h : Runs json first actions steps p) : first.run json actions = some steps := by
  have happend := h.append []
  rw [List.append_nil] at happend
  rw [happend]
  simp [LiveEventPipeline.run]

/-- Sessions that end emit nothing. -/
theorem Runs.ended (h : Runs json first actions steps p) (ended : Nat) :
    ∃ more, Runs json first (actions ++ List.replicate ended .invalidateAll) (steps ++ more)
      (LiveEventPipeline.invalidateAll^[ended] p) ∧ more.filterMap LiveStep.entry = [] := by
  induction ended with
  | zero => exact ⟨[], by simpa using h, rfl⟩
  | succ ended ih =>
      obtain ⟨more, hruns, hnone⟩ := ih
      refine ⟨more ++ [{ before := LiveEventPipeline.invalidateAll^[ended] p, action := .invalidateAll }],
        ?_, ?_⟩
      · rw [List.replicate_succ', ← List.append_assoc, ← List.append_assoc,
          Function.iterate_succ_apply']
        exact hruns.invalidateAll
      · rw [List.filterMap_append, hnone]
        rfl

end Runs

end LiveEventPipeline

namespace LiveCaptureController

open ControllerEvent WebSocketSession

/-! ## One message -/

theorem entries_passive {calls : List (Call × CallResult)}
    (h : ∀ entry ∈ calls, isPassive entry = true) (v : ProducerView) : v.entries calls = [] := by
  induction calls generalizing v with
  | nil => rfl
  | cons call calls ih =>
      have hnone : v.entry call = [] := by
        have hpassive := h call List.mem_cons_self
        obtain ⟨call, result⟩ := call
        cases call <;> first | rfl | cases hpassive
      rw [ProducerView.entries, hnone, ih fun entry he => h entry (List.mem_cons_of_mem _ he)]
      rfl

/-- The calls from one state to a later one, and what they add to the queue. -/
def Calls (c c' : LiveCaptureController) (P : List (Call × CallResult) → Prop) : Prop :=
  ∃ calls, c'.writerCalls = c.writerCalls ++ calls ∧ P calls

/-- Calls that add nothing. -/
def Adding (entries : ProducerView → List (Option Nat × EventRowBatch))
    (calls : List (Call × CallResult)) : Prop := ∀ v : ProducerView, v.entries calls = entries v

section Messages

variable {json : Library} {given : Surroundings} {c d : LiveCaptureController}

/-- Calls of one's own, and then work beside the messages. -/
theorem calls_beside {entries : ProducerView → List (Option Nat × EventRowBatch)}
    (own : List (Call × CallResult)) (hown : d.writerCalls = c.writerCalls ++ own)
    (hadds : Adding entries own) {c' : LiveCaptureController} (hbeside : Beside d c') :
    Calls c c' (Adding entries) := by
  obtain ⟨calls, hcalls, hpassive⟩ := hbeside.calls
  refine ⟨own ++ calls, by rw [hcalls, hown, List.append_assoc], fun v => ?_⟩
  rw [ProducerView.entries_append, entries_passive hpassive, List.append_nil]
  exact hadds v

theorem onward_failMessage (h : Placed c) (given : Surroundings) {error : LiveCaptureErrorCode}
    (herror : error ≠ .none) : Onward given c (c.failMessage given error) := by
  have hrecorded : Onward given c (c.record .messageFailed) := .record h _ rfl
  exact hrecorded.trans (onward_fail hrecorded.placed given herror)

theorem failMessage_latched (hrunning : (c.failureLatched || c.terminal) = false)
    (given : Surroundings) (error : LiveCaptureErrorCode) :
    (c.failMessage given error).failureLatched = true :=
  (beside_fail_latched (c.record .messageFailed) given error hrunning).latched rfl

/-- What becomes of a batch: it is in the queue, or the run is on its way out. -/
def Delivered (c c' : LiveCaptureController)
    (entries : ProducerView → List (Option Nat × EventRowBatch)) : Prop :=
  Calls c c' (Adding entries) ∨ Calls c c' (Adding fun _ => []) ∧ c'.failureLatched = true

theorem publishBatch_delivered (h : Placed c) (hrunning : (c.failureLatched || c.terminal) = false)
    (given : Surroundings) (result : LivePipelineResult) :
    Onward given c (c.publishBatch given result).1 ∧
      Delivered c (c.publishBatch given result).1 fun v =>
        [(some (result.targetIndex.getD (2 ^ 64 - 1)), v.held.getD {})] := by
  unfold publishBatch
  dsimp only
  split
  · next error herror =>
      generalize hd : LiveCaptureController.calling _ .failed _ = d
      have hasked : Onward given c d := by
        rw [← hd]
        refine .of_same h rfl fun entry he => ?_
        exact List.mem_append_left _ (List.mem_append_left _ he)
      have hfailing : (d.failureLatched || d.terminal) = false := by
        rw [← hd]
        exact hrunning
      have hcalls : d.writerCalls = c.writerCalls ++
          [(.publish (result.targetIndex.getD (2 ^ 64 - 1)), .published (some error)),
            (.failed, .failed given.writerFailed)] := by
        rw [← hd]
        simp [calling, count, herror]
      refine ⟨hasked.trans (onward_failMessage hasked.placed given (by split <;> decide)),
        .inr ⟨calls_beside _ hcalls ?_ (beside_failMessage d given _),
          failMessage_latched hfailing given _⟩⟩
      exact fun v => rfl
  · next herror =>
      have taken : ∀ d : LiveCaptureController, d.frame = (c.record .published).frame →
          d.writerCalls = c.writerCalls ++
            [(.publish (result.targetIndex.getD (2 ^ 64 - 1)), .published none)] →
          Onward given c (d.pauseIfFull given).1 ∧ Delivered c (d.pauseIfFull given).1 fun v =>
            [(some (result.targetIndex.getD (2 ^ 64 - 1)), v.held.getD {})] := by
        intro d hframe hcalls
        have hone : Onward given c (c.record .published) := .record h _ rfl
        have hpublished := hone.trans (.of_same hone.placed hframe fun entry he => by
          rw [hcalls]
          exact List.mem_append_left _ he)
        exact ⟨hpublished.trans (onward_pauseIfFull hpublished.placed given),
          .inl (calls_beside _ hcalls (fun v => rfl) (beside_pauseIfFull d given))⟩
      refine taken _ ?_ ?_
      · unfold frame
        rfl
      · simp [calling, count, record, herror]

theorem onPipelineResult_delivered (h : Placed c)
    (hrunning : (c.failureLatched || c.terminal) = false) (given : Surroundings)
    (result : LivePipelineResult) :
    Onward given c (c.onPipelineResult given result).1 ∧
      Delivered c (c.onPipelineResult given result).1 fun v =>
        if result.disposition = .batchReady then
          [(some (result.targetIndex.getD (2 ^ 64 - 1)), v.held.getD {})] else [] := by
  have hcancelled : Onward given c (c.calling .cancel .cancelled) := .calling h _ _
  have failed : Onward given c ((c.calling .cancel .cancelled).failMessage given .pipelineFailure) ∧
      Delivered c ((c.calling .cancel .cancelled).failMessage given .pipelineFailure)
        fun _ => [] := by
    refine ⟨hcancelled.trans (onward_failMessage hcancelled.placed given (by decide)), .inl ?_⟩
    exact calls_beside [(.cancel, .cancelled)] rfl (fun v => rfl) (beside_failMessage _ given _)
  unfold onPipelineResult
  cases hdisposition : result.disposition with
  | batchReady =>
      simp only [↓reduceIte]
      exact publishBatch_delivered h hrunning given result
  | preAuditRejected =>
      simp only [reduceCtorEq, ↓reduceIte]
      refine ⟨hcancelled.trans (.of_same hcancelled.placed rfl fun _ => id), .inl ?_⟩
      exact calls_beside [(.cancel, .cancelled)] rfl (fun v => rfl)
        (.of_same rfl rfl rfl rfl rfl rfl rfl)
  | fatalError =>
      simp only [reduceCtorEq, ↓reduceIte]
      exact failed
  | notProcessed =>
      simp only [reduceCtorEq, ↓reduceIte]
      exact failed

/-- The calls before count as well. -/
theorem Delivered.after {c' : LiveCaptureController}
    {entries entries' : ProducerView → List (Option Nat × EventRowBatch)}
    (h : Delivered d c' entries) (own : List (Call × CallResult))
    (hown : d.writerCalls = c.writerCalls ++ own) (hnone : ∀ v : ProducerView, v.entries own = [])
    (hentries : ∀ v, entries (own.foldl ProducerView.after v) = entries' v) :
    Delivered c c' entries' := by
  have shifted : ∀ {f g : ProducerView → List (Option Nat × EventRowBatch)}, Calls d c' (Adding f) →
      (∀ v, f (own.foldl ProducerView.after v) = g v) → Calls c c' (Adding g) := by
    rintro f g ⟨calls, hcalls, hadds⟩ heq
    refine ⟨own ++ calls, by rw [hcalls, hown, List.append_assoc], fun v => ?_⟩
    rw [ProducerView.entries_append, hnone, hadds, heq]
    rfl
  rcases h with hcalls | ⟨hcalls, hlatched⟩
  · exact .inl (shifted hcalls hentries)
  · exact .inr ⟨shifted hcalls fun _ => rfl, hlatched⟩

/-- What the delivery of a message comes to: nothing for the pipeline, or one call of it. -/
inductive Handling (json : Library) (given : Surroundings) (message : WebSocketTextMessage)
    (c c' : LiveCaptureController) : Prop
  | ignored : Onward given c c' → Calls c c' (Adding fun _ => []) →
      (c.failureLatched = true → c'.failureLatched = true) → Handling json given message c c'
  | processed {result : LivePipelineResult} {batch : EventRowBatch} {p : LiveEventPipeline}
      {d : LiveCaptureController} : c.failureLatched = false →
      c.pipeline.process json message = some (result, batch, p) →
      (result.disposition = .batchReady → batch.hasAuditRow = true) →
      d.frame = ({ c.record (.processed message result) with pipeline := p }).frame →
      Onward given d c' →
      Delivered c c' (fun _ => (LiveStep.entry ⟨c.pipeline, .message message, result, batch⟩).toList) →
      Handling json given message c c'

theorem handling_onTextMessage (h : Placed c) (hpipeline : c.pipeline.Ok ∧ c.pipeline.Behind)
    {generation : UInt64} (hgeneration : generation = c.generation) {message : WebSocketTextMessage}
    {out : LiveCaptureController × Bool}
    (hout : c.onTextMessage json given generation message = some out) :
    Handling json given message c out.1 := by
  unfold onTextMessage at hout
  rw [if_neg (not_not.mpr hgeneration)] at hout
  split at hout
  · cases hout
    exact .ignored (.refl h) ⟨[], by simp, fun v => rfl⟩ id
  next hrunning =>
  have hopen : (c.failureLatched || c.terminal) = false := by
    rw [Bool.or_comm]
    exact Bool.eq_false_iff.mpr hrunning
  have hlatched : c.failureLatched = false := (Bool.or_eq_false_iff.mp hopen).1
  dsimp only at hout
  split at hout
  · next error herror =>
      have failing : ∀ (d : LiveCaptureController) (cause : LiveCaptureErrorCode), cause ≠ .none →
          d.frame = c.frame → d.writerCalls = c.writerCalls ++
            [(.tryAcquire, .acquired (some error)), (.failed, .failed given.writerFailed)] →
          Handling json given message c (d.failMessage given cause) := by
        intro d cause hcause hframe hcalls
        have hasked : Onward given c d := .of_same h hframe fun entry he => by
          rw [hcalls]
          exact List.mem_append_left _ he
        refine .ignored (hasked.trans (onward_failMessage hasked.placed given hcause))
          (calls_beside _ hcalls (fun v => rfl) (beside_failMessage d given cause)) fun hold => ?_
        rw [hlatched] at hold
        cases hold
      cases hout
      refine failing _ _ (by split <;> decide) ?_ ?_
      · unfold frame
        rfl
      · simp [calling, count, herror]
  · next herror =>
      obtain ⟨⟨result, batch, p⟩, hprocess, hout⟩ := Option.bind_eq_some_iff.mp hout
      have handed : ∀ d : LiveCaptureController,
          d.frame = ({ c.record (.processed message result) with pipeline := p }).frame →
          d.writerCalls = c.writerCalls ++ [(.tryAcquire, .acquired none),
            (.fill batch given.auditExcess given.orderBookExcess, .filled)] →
          Handling json given message c (d.onPipelineResult given result).1 := by
        intro d hframe hcalls
        have hrecorded : Placed { c.record (.processed message result) with pipeline := p } := by
          have hone := h.record (.processed message result) fun told heq => (by cases heq)
          refine ⟨hone.generation, hone.session, hone.caused, hone.ended, fun told ht => ?_⟩
          have htold := hone.told told ht
          exact ⟨htold.terminal, htold.joined, htold.stopped, htold.unfailed⟩
        have hplaced : Placed d := hrecorded.same hframe fun entry he => by
          rw [hcalls]
          exact List.mem_append_left _ he
        have hstill : (d.failureLatched || d.terminal) = false := by
          simp only [frame, Prod.mk.injEq] at hframe
          obtain ⟨-, -, -, -, hsame, hsame', -, -, -⟩ := hframe
          rw [hsame, hsame']
          exact hopen
        obtain ⟨honward, hdelivered⟩ := onPipelineResult_delivered hplaced hstill given result
        have hready := (process_ready hpipeline.1 hpipeline.2 hprocess).2
        refine .processed hlatched hprocess (fun h => (hready h).audit) hframe honward
          (hdelivered.after _ hcalls (fun v => rfl) fun v => ?_)
        unfold LiveStep.entry
        dsimp only
        split
        · next hdisposition =>
            obtain ⟨index, htarget, -⟩ := (hready hdisposition).target
            rw [htarget]
            rfl
        · rfl
      cases hout
      refine handed _ ?_ ?_
      · unfold frame
        rfl
      · simp [calling, count, record, herror]

/-- The session's handler goes on. -/
theorem Handling.trans {message : WebSocketTextMessage} {c' : LiveCaptureController}
    (h : Handling json given message c d) (honward : Onward given d c') (hbeside : Beside d c') :
    Handling json given message c c' := by
  have more : ∀ {entries : ProducerView → List (Option Nat × EventRowBatch)},
      Calls c d (Adding entries) → Calls c c' (Adding entries) := by
    rintro entries ⟨calls, hcalls, hadds⟩
    exact calls_beside calls hcalls hadds hbeside
  cases h with
  | ignored hfirst hcalls hlatched =>
      exact .ignored (hfirst.trans honward) (more hcalls) fun hl => hbeside.latched (hlatched hl)
  | processed hlatched hprocess haudited hframe hfirst hdelivered =>
      refine .processed hlatched hprocess haudited hframe (hfirst.trans honward) ?_
      rcases hdelivered with hcalls | ⟨hcalls, hl⟩
      · exact .inl (more hcalls)
      · exact .inr ⟨more hcalls, hbeside.latched hl⟩

end Messages

/-! ## Sessions in their order -/

/-- The messages and the ends of sessions of a history: what came before the end of a session is
of an earlier epoch than what comes after it. -/
structure Separated (opened : Nat) (isOpen : Prop) (actions : List LiveAction) : Prop where
  ends : EndsSessions actions
  seen : ∀ message, .message message ∈ actions → message.connectionEpoch.toNat < opened
  ahead : isOpen → ∀ pre post, actions = pre ++ .invalidateAll :: post →
    ∀ message, .message message ∈ pre → message.connectionEpoch.toNat + 1 < opened

section Separation

variable {opened : Nat} {isOpen isOpen' : Prop} {actions : List LiveAction}

/-- The last action of a history that ends in an action of its own. -/
theorem split_concat {last : LiveAction} {pre post : List LiveAction}
    (h : actions ++ [last] = pre ++ .invalidateAll :: post) :
    (post = [] ∧ actions = pre ∧ last = .invalidateAll) ∨
      ∃ post', post = post' ++ [last] ∧ actions = pre ++ .invalidateAll :: post' := by
  rcases List.eq_nil_or_concat post with rfl | ⟨post', action, rfl⟩
  · obtain ⟨hpre, hlast⟩ := List.append_inj' h rfl
    exact .inl ⟨rfl, hpre, (List.cons.inj hlast).1⟩
  · rw [List.concat_eq_append, ← List.cons_append, ← List.append_assoc] at h
    obtain ⟨hpre, hlast⟩ := List.append_inj' h rfl
    obtain rfl := (List.cons.inj hlast).1
    exact .inr ⟨post', List.concat_eq_append, hpre⟩

theorem endsSessions_invalidateAll (h : EndsSessions actions) :
    EndsSessions (actions ++ [.invalidateAll]) := by
  intro pre post hsplit m m' hm hm'
  rcases split_concat hsplit with ⟨rfl, -, -⟩ | ⟨post', rfl, hpre⟩
  · cases hm'
  · rcases List.mem_append.mp hm' with hm' | hm'
    · exact h pre post' hpre m m' hm hm'
    · cases List.mem_singleton.mp hm'

theorem Separated.ended (h : Separated opened isOpen actions) (ended : Nat)
    (hopen : isOpen' → isOpen ∧ ended = 0) :
    Separated opened isOpen' (actions ++ List.replicate ended .invalidateAll) := by
  refine ⟨?_, ?_, ?_⟩
  · have hmany : ∀ count : Nat,
        EndsSessions (actions ++ List.replicate count .invalidateAll) := by
      intro count
      induction count with
      | zero => simpa using h.ends
      | succ count ih =>
          rw [List.replicate_succ', ← List.append_assoc]
          exact endsSessions_invalidateAll ih
    exact hmany ended
  · intro message hmem
    rcases List.mem_append.mp hmem with hmem | hmem
    · exact h.seen message hmem
    · cases (List.mem_replicate.mp hmem).2
  · intro hlast
    obtain ⟨hfirst, rfl⟩ := hopen hlast
    rw [List.replicate_zero, List.append_nil]
    exact h.ahead hfirst

/-- One more session has opened. -/
theorem Separated.open (h : Separated opened isOpen actions) :
    Separated (opened + 1) isOpen' actions := by
  refine ⟨h.ends, fun message hmem => (h.seen message hmem).trans (Nat.lt_succ_self _), ?_⟩
  intro _ pre post hsplit message hmem
  have hseen := h.seen message (hsplit ▸ List.mem_append_left _ hmem)
  omega

/-- A message of the session that opened last. -/
theorem Separated.message (h : Separated opened isOpen actions) (hopen : isOpen)
    {message : WebSocketTextMessage} (hepoch : message.connectionEpoch.toNat + 1 = opened) :
    Separated opened isOpen (actions ++ [.message message]) := by
  have earlier : ∀ pre post, actions ++ [.message message] = pre ++ .invalidateAll :: post →
      ∃ post', post = post' ++ [.message message] ∧ actions = pre ++ .invalidateAll :: post' := by
    intro pre post hsplit
    rcases split_concat hsplit with ⟨-, -, hlast⟩ | hsplit
    · cases hlast
    · exact hsplit
  refine ⟨?_, ?_, ?_⟩
  · intro pre post hsplit m m' hm hm'
    obtain ⟨post', rfl, hpre⟩ := earlier pre post hsplit
    rcases List.mem_append.mp hm' with hm' | hm'
    · exact h.ends pre post' hpre m m' hm hm'
    · cases List.mem_singleton.mp hm'
      have hahead := h.ahead hopen pre post' hpre m hm
      rw [UInt64.lt_iff_toNat_lt]
      omega
  · intro m hm
    rcases List.mem_append.mp hm with hm | hm
    · exact h.seen m hm
    · cases List.mem_singleton.mp hm
      omega
  · intro _ pre post hsplit
    obtain ⟨post', -, hpre⟩ := earlier pre post hsplit
    exact h.ahead hopen pre post' hpre

end Separation

/-! ## Runs -/

/-- A run of the pipeline, and what the queue has of it: the batch that was lost, if there is one,
has failed the run of the controller. -/
structure Emission (json : Library) (first : LiveEventPipeline) (c : LiveCaptureController)
    (steps : List LiveStep) (lost : List (Option Nat × EventRowBatch)) : Prop where
  runs : LiveEventPipeline.Runs json first (pipelineActions c.log) steps c.pipeline
  entries : steps.filterMap LiveStep.entry = ProducerView.entries {} c.writerCalls ++ lost
  audited : ∀ step ∈ steps, step.IsAudited
  one : lost.length ≤ 1
  failed : c.failureLatched = false → lost = []

/-- The history of a controller is a run of the pipeline, of one session after the other. -/
structure Traces (json : Library) (first : LiveEventPipeline) (c : LiveCaptureController) : Prop where
  emission : ∃ steps lost, Emission json first c steps lost
  separated : Separated (opens c.log) c.HasOpened (pipelineActions c.log)
  told : ∀ result, .terminalCallback result ∈ c.log → c.Told result

section Runs

variable {json : Library} {given : Surroundings} {first : LiveEventPipeline}
  {c c' : LiveCaptureController}

theorem Core.placed (h : Core none c) (htold : ∀ result, .terminalCallback result ∈ c.log →
    c.Told result) : Placed c := by
  refine ⟨h.generation, fun s hs => ⟨(h.session s hs).inv, (h.session s hs).live⟩, h.latchedError, ?_,
    htold⟩
  intro hterminal
  cases hlatched : c.failureLatched with
  | false => exact .inr (h.quietEnd hterminal hlatched)
  | true => exact .inl rfl

theorem Traces.onward (h : Traces json first c) (honward : Onward given c c')
    (hcalls : Calls c c' (Adding fun _ => []))
    (hlatched : c.failureLatched = true → c'.failureLatched = true) : Traces json first c' := by
  obtain ⟨steps, lost, hemission⟩ := h.emission
  obtain ⟨ended, hactions, hpipeline, hopened⟩ := honward.trace
  obtain ⟨more, hmore, hquiet⟩ := hemission.runs.ended ended
  obtain ⟨calls, hwriter, hadds⟩ := hcalls
  refine ⟨⟨steps ++ more, lost, ?_, ?_, ?_, hemission.one, fun hclear => hemission.failed ?_⟩, ?_,
    honward.placed.told⟩
  · rw [hactions, hpipeline]
    exact hmore
  · rw [List.filterMap_append, hquiet, List.append_nil, hemission.entries, hwriter,
      ProducerView.entries_append, hadds, List.append_nil]
  · intro step hstep
    rcases List.mem_append.mp hstep with hstep | hstep
    · exact hemission.audited step hstep
    · exact LiveStep.audited_of_silent hquiet step hstep
  · rw [Bool.eq_false_iff] at hclear ⊢
    exact fun hl => hclear (hlatched hl)
  · rw [hactions, honward.opened]
    exact h.separated.ended ended hopened

theorem calls_of_beside (h : Beside c c') : Calls c c' (Adding fun _ => []) :=
  calls_beside [] (by simp) (fun v => rfl) h

theorem Traces.opening (h : Traces json first c) (hopening : Opening given c c')
    (hbeside : Beside c c') : Traces json first c' := by
  obtain ⟨s, s', hs, hplaced, honward⟩ := hopening
  have hrecorded := hplaced.record (.opened s'.connectionEpoch) fun result heq => (by cases heq)
  generalize hd : LiveCaptureController.record _ _ = d at honward hrecorded
  have hlog : d.log = c.log ++ [.opened s'.connectionEpoch] := by rw [← hd]; rfl
  have hpipeline : d.pipeline = c.pipeline := by rw [← hd]; rfl
  have hwriter : d.writerCalls = c.writerCalls := by rw [← hd]; rfl
  have hlatched : d.failureLatched = c.failureLatched := by rw [← hd]; rfl
  have hactions : pipelineActions d.log = pipelineActions c.log := by
    rw [hlog, pipelineActions_concat]
    exact List.append_nil _
  have hopens : opens d.log = opens c.log + 1 := by
    rw [hlog, opens_concat]
    rfl
  have hopened : Traces json first d := by
    refine ⟨?_, ?_, hrecorded.told⟩
    · obtain ⟨steps, lost, hemission⟩ := h.emission
      refine ⟨steps, lost, ?_, ?_, hemission.audited, hemission.one, ?_⟩
      · rw [hactions, hpipeline]
        exact hemission.runs
      · rw [hwriter]
        exact hemission.entries
      · rw [hlatched]
        exact hemission.failed
    · rw [hactions, hopens]
      exact h.separated.open
  obtain ⟨calls, hcalls, hadds⟩ := calls_of_beside hbeside
  refine hopened.onward honward ⟨calls, by rw [hcalls, hwriter], hadds⟩ fun hl => ?_
  exact hbeside.latched (hlatched ▸ hl)

theorem Traces.handling (h : Traces json first c) (hopen : c.HasOpened)
    {message : WebSocketTextMessage}
    (hepoch : message.connectionEpoch.toNat + 1 = opens c.log)
    (hhandling : Handling json given message c c') : Traces json first c' := by
  cases hhandling with
  | ignored honward hcalls hlatched => exact h.onward honward hcalls hlatched
  | @processed result batch p d hlatched hprocess haudited hframe honward hdelivered =>
      obtain ⟨steps, lost, hemission⟩ := h.emission
      have hentries := hemission.entries
      rw [hemission.failed hlatched, List.append_nil] at hentries
      simp only [frame, Prod.mk.injEq] at hframe
      obtain ⟨hsession, -, -, hlog, -, -, -, -, hpipeline, -⟩ := hframe
      have hactions : pipelineActions d.log = pipelineActions c.log ++ [.message message] := by
        rw [hlog]
        exact pipelineActions_concat _ _
      have hopens : opens d.log = opens c.log := by
        rw [hlog]
        exact opens_concat _ _
      obtain ⟨ended, hended, hlast, hopened⟩ := honward.trace
      obtain ⟨more, hmore, hquiet⟩ := (hemission.runs.message hprocess).ended ended
      have hstepAudited : LiveStep.IsAudited ⟨c.pipeline, .message message, result, batch⟩ := haudited
      generalize hstep : (⟨c.pipeline, .message message, result, batch⟩ : LiveStep) = step at *
      -- the batch of the message is in the queue, or it is the one that is lost
      obtain ⟨lost, hwriter, hlength, hfailed⟩ : ∃ lost,
          ProducerView.entries {} c.writerCalls ++ step.entry.toList =
            ProducerView.entries {} c'.writerCalls ++ lost ∧
            lost.length ≤ 1 ∧ (c'.failureLatched = false → lost = []) := by
        rcases hdelivered with ⟨calls, hcalls, hadds⟩ | ⟨⟨calls, hcalls, hadds⟩, hfailed⟩
        · refine ⟨[], ?_, Nat.zero_le 1, fun _ => rfl⟩
          rw [hcalls, ProducerView.entries_append, hadds, List.append_nil]
        · refine ⟨step.entry.toList, ?_, ?_, fun hclear => ?_⟩
          · rw [hcalls, ProducerView.entries_append, hadds, List.append_nil]
          · cases step.entry <;> simp
          · rw [hclear] at hfailed
            cases hfailed
      refine ⟨⟨steps ++ [step] ++ more, lost, ?_, ?_, ?_, hlength, hfailed⟩, ?_, honward.placed.told⟩
      · rw [hended, hactions, hlast, hpipeline]
        exact hmore
      · have hone : [step].filterMap LiveStep.entry = step.entry.toList := by
          cases hentry : step.entry <;> simp [hentry]
        rw [List.filterMap_append, List.filterMap_append, hquiet, List.append_nil, hone, hentries]
        exact hwriter
      · intro taken htaken
        simp only [List.mem_append, List.mem_singleton] at htaken
        rcases htaken with (htaken | rfl) | htaken
        · exact hemission.audited taken htaken
        · exact hstepAudited
        · exact LiveStep.audited_of_silent hquiet taken htaken
      · rw [hended, hactions, honward.opened, hopens]
        refine (h.separated.message hopen hepoch).ended ended fun hlater => ?_
        obtain ⟨⟨s, hs, hmem⟩, hzero⟩ := hopened hlater
        exact ⟨⟨s, hsession ▸ hs, hmem⟩, hzero⟩

theorem Handling.placed {message : WebSocketTextMessage} (h : Handling json given message c c') :
    Placed c' := by
  cases h with
  | ignored honward _ _ => exact honward.placed
  | processed _ _ _ _ honward _ => exact honward.placed

theorem Traces.delivering (h : Traces json first c) (hcore : Core none c)
    {message : WebSocketTextMessage} (hdelivering : Delivering json given message c c') :
    Traces json first c' := by
  obtain ⟨s, s', out, hs, hmessage, honward, hout, rfl⟩ := hdelivering
  have hok := hcore.session s hs
  have hepoch : message.connectionEpoch.toNat + 1 = opens c.log := by
    rw [hmessage.epoch.1]
    exact (hok.after (hok.inv.isOpen hmessage.isOpen.1).1).1
  have hgeneration : c.sessionGeneration = c.generation := hcore.generation (by rw [hs]; rfl)
  have hrecorded := h.onward honward ⟨[], (List.append_nil _).symm, fun _ => rfl⟩ id
  have hhandled := handling_onTextMessage honward.placed hcore.pipeline hgeneration hout
  have hreturned := onward_afterSessionCallback hhandled.placed given out.2
  refine hrecorded.handling ⟨s', rfl, hmessage.opened⟩ ?_
    (hhandled.trans hreturned (beside_afterSessionCallback _ given _))
  rw [honward.opened]
  exact hepoch

theorem Traces.step (h : Traces json first c) (hcore : Core none c) {label : ControllerLabel}
    (hstep : c.step json label = some c') : Traces json first c' := by
  have hplaced := hcore.placed h.told
  by_cases hsession : ∃ handler given, label = .session handler given
  · obtain ⟨handler, given, rfl⟩ := hsession
    rcases onSession_onward hplaced hstep with ⟨honward | hopening, hbeside⟩ | ⟨message, hdelivering⟩
    · exact h.onward honward (calls_of_beside hbeside) hbeside.latched
    · exact h.opening hopening hbeside
    · exact h.delivering hcore hdelivering
  have hother : ∀ handler given, label ≠ .session handler given := fun handler given heq =>
    hsession ⟨handler, given, heq⟩
  by_cases hstop : label = .stop
  · subst hstop
    cases hstep
    split
    · exact h
    · obtain ⟨steps, lost, hemission⟩ := h.emission
      refine ⟨⟨steps, lost, hemission.runs, hemission.entries, hemission.audited, hemission.one,
        hemission.failed⟩, h.separated, fun result ht => ?_⟩
      have htold := h.told result ht
      exact ⟨htold.terminal, htold.joined, fun _ => rfl, htold.unfailed⟩
  · have hbeside := step_beside hother hstep
    refine h.onward (step_onward hplaced (fun hwaiting => ?_) hother hstop hstep)
      (calls_of_beside hbeside) hbeside.latched
    by_contra hsome
    have hnone := hcore.exclusive (Option.isSome_iff_ne_none.mpr hsome)
    omega

end Runs

/-! ## Stops and ends -/

/-- The terminal callback comes with the end of a run, and only `stop` asks for one. -/
structure Heeds (given : Surroundings) (c c' : LiveCaptureController) : Prop where
  announced : Announces c → Announces c'
  stopped : c'.stopRequested = true → c.stopRequested = true ∨ given.stopsMeanwhile = true

section Heeds

variable {json : Library} {given : Surroundings} {first : LiveEventPipeline}
  {c c' c'' : LiveCaptureController}

theorem Onward.heeds (h : Onward given c c') : Heeds given c c' := ⟨h.announced, h.stopped⟩

theorem Heeds.trans (h : Heeds given c c') (h' : Heeds given c' c'') : Heeds given c c'' := by
  refine ⟨fun ha => h'.announced (h.announced ha), fun hstop => ?_⟩
  rcases h'.stopped hstop with hstop | hstop
  · exact h.stopped hstop
  · exact .inr hstop

theorem Handling.heeds {message : WebSocketTextMessage} (h : Handling json given message c c') :
    Heeds given c c' := by
  cases h with
  | ignored honward _ _ => exact honward.heeds
  | @processed result batch p d _ _ _ hframe honward _ =>
      refine Heeds.trans ?_ honward.heeds
      simp only [frame, Prod.mk.injEq] at hframe
      obtain ⟨-, -, -, hlog, -, hterminal, -, hstop, -, hcallback⟩ := hframe
      have hrecorded : Announces c → Announces (c.record (.processed message result)) := fun ha =>
        ha.record _
      refine ⟨fun ha => ⟨?_, ?_⟩, fun hstopped => .inl ?_⟩
      · rw [hterminal, hcallback]
        exact (hrecorded ha).waiting
      · rw [hterminal, hlog]
        exact (hrecorded ha).called
      · rw [hstop] at hstopped
        exact hstopped

theorem Opening.heeds (h : Opening given c c') : Heeds given c c' := by
  obtain ⟨s, s', -, -, honward⟩ := h
  have hopened : Heeds given c
      ({ c with session := some s' }.record (.opened s'.connectionEpoch)) := by
    refine ⟨fun ha => ?_, .inl⟩
    exact (show Announces { c with session := some s' } from ⟨ha.waiting, ha.called⟩).record _
  exact hopened.trans honward.heeds

/-- Every step but a request to stop. -/
theorem Traces.heeds (h : Traces json first c) (hcore : Core none c) {label : ControllerLabel}
    (hstop : label ≠ .stop) (hstep : c.step json label = some c') : Heeds label.given c c' := by
  have hplaced := hcore.placed h.told
  by_cases hsession : ∃ handler given, label = .session handler given
  · obtain ⟨handler, given, rfl⟩ := hsession
    rcases onSession_onward hplaced hstep with ⟨honward | hopening, -⟩ | ⟨message, hdelivering⟩
    · exact honward.heeds
    · exact hopening.heeds
    · obtain ⟨s, s', out, hs, -, honward, hout, rfl⟩ := hdelivering
      have hgeneration : c.sessionGeneration = c.generation := hcore.generation (by rw [hs]; rfl)
      have hhandled := handling_onTextMessage honward.placed hcore.pipeline hgeneration hout
      exact (honward.heeds.trans hhandled.heeds).trans
        (onward_afterSessionCallback hhandled.placed given out.2).heeds
  · refine (step_onward hplaced (fun hwaiting => ?_) (fun handler given heq =>
      hsession ⟨handler, given, heq⟩) hstop hstep).heeds
    by_contra hsome
    have hnone := hcore.exclusive (Option.isSome_iff_ne_none.mpr hsome)
    omega

end Heeds

end LiveCaptureController

end MarketCapture
