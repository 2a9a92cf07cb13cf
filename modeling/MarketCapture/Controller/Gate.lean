import MarketCapture.Controller.Balance

/-! # Room for the next message

A session reads only while there is room for what it may read: fewer batches and bytes than the
marks at which the controller pauses are out. The mark is tested when a session opens and after
every batch, and the session is paused before it reads again. A read that is under way was issued
below the mark, and its message adds one batch at most. Both the controller and the session
remember that reads are paused; `Gate` is what ties the two together.
-/

namespace MarketCapture

open Simdjson

namespace CsvWriter

variable {first w : CsvWriter} {calls : List (Call × CallResult)}

/-- After these calls there is room below the mark, however far the writer thread has come. -/
def Ample (first : CsvWriter) (calls : List (Call × CallResult)) : Prop :=
  ∀ w, Served first calls w → w.Within pauseSlots pauseBytes

/-- The answers that no full queue gives. -/
def Accepted : Call × CallResult → Prop
  | (.tryAcquire, .acquired (some error)) => error = .failed
  | (.publish _, .published (some error)) => error = .failed ∨ error = .counterOverflow
  | _ => True

/-- The writer has given no other answers. -/
def NeverFull (first : CsvWriter) (calls : List (Call × CallResult)) : Prop :=
  ∀ w, Served first calls w → ∀ entry ∈ calls, Accepted entry

/-- Calls that enter nothing leave the room there is. -/
theorem Ample.concat (h : Ample first calls) (hfirst : system.init first) {call : Call}
    {result : CallResult} (hentered : ∀ target, call ≠ .publish target) :
    Ample first (calls ++ [(call, result)]) := by
  intro w hw
  obtain ⟨w₀, hw₀, hserving, hview, -⟩ := hw.last hfirst
  have hkept : (w₀.view.after (call, result)).sequence = w₀.view.sequence ∧
      (w₀.view.after (call, result)).bytes = w₀.view.bytes := by
    cases call with
    | publish target => exact absurd rfl (hentered target)
    | tryAcquire => cases result with
      | acquired error => cases error <;> exact ⟨rfl, rfl⟩
      | _ => exact ⟨rfl, rfl⟩
    | _ => exact ⟨rfl, rfl⟩
  have hsequence : w.producerSequence = w₀.producerSequence :=
    (congrArg ProducerView.sequence hview).trans hkept.1
  have hbytes : w.producerBytes = w₀.producerBytes :=
    (congrArg ProducerView.bytes hview).trans hkept.2
  have hreleased := hserving.released
  have hbytesReleased := hserving.bytesReleased
  obtain ⟨hslots, hsize⟩ := h w₀ hw₀
  exact ⟨by omega, by omega⟩

theorem Ample.passive (h : Ample first calls) (hfirst : system.init first)
    {calls' : List (Call × CallResult)} (hpassive : ∀ entry ∈ calls', isPassive entry = true) :
    Ample first (calls ++ calls') := by
  induction calls' generalizing calls with
  | nil => rwa [List.append_nil]
  | cons entry calls' ih =>
      obtain ⟨call, result⟩ := entry
      rw [List.append_cons]
      refine ih (h.concat hfirst ?_) fun e he => hpassive e (List.mem_cons_of_mem _ he)
      rintro target rfl
      exact absurd (hpassive _ List.mem_cons_self) Bool.false_ne_true

/-- The pause mark was tested and not reached. -/
theorem ample_shouldPause (hfirst : system.init first) :
    Ample first (calls ++ [(.shouldPause, .shouldPause false)]) := by
  intro w hw
  obtain ⟨w₀, hw₀, hserving, hview, hanswers⟩ := hw.last hfirst
  exact hanswers rfl

/-- The resume mark is below the pause mark. -/
theorem ample_belowResumeWatermark (hfirst : system.init first) :
    Ample first (calls ++ [(.belowResumeWatermark, .belowResumeWatermark true)]) := by
  intro w hw
  obtain ⟨w₀, hw₀, hserving, hview, hanswers⟩ := hw.last hfirst
  obtain ⟨hslots, hbytes⟩ := hanswers rfl
  exact ⟨hslots.trans (by decide), hbytes.trans (by decide)⟩

theorem neverFull_nil : NeverFull first [] := fun _ _ _ he => nomatch he

theorem NeverFull.concat (h : NeverFull first calls) (hfirst : system.init first) {call : Call}
    {result : CallResult} (haccepted : ∀ w₀ w, Served first calls w₀ → w₀.Answers w call result →
      Accepted (call, result)) : NeverFull first (calls ++ [(call, result)]) := by
  intro w hw entry hentry
  obtain ⟨w₀, hw₀, -, -, hanswers⟩ := hw.last hfirst
  rcases List.mem_append.mp hentry with hold | hnew
  · exact h w₀ hw₀ entry hold
  · rw [List.mem_singleton.mp hnew]
    exact haccepted w₀ w hw₀ hanswers

theorem accepted_of_passive {entry : Call × CallResult} (h : isPassive entry = true) :
    Accepted entry := by
  obtain ⟨call, result⟩ := entry
  cases call <;> trivial

theorem NeverFull.passive (h : NeverFull first calls) (hfirst : system.init first)
    {calls' : List (Call × CallResult)} (hpassive : ∀ entry ∈ calls', isPassive entry = true) :
    NeverFull first (calls ++ calls') := by
  intro w hw entry hentry
  obtain ⟨w₀, hw₀⟩ := hw.initial hfirst
  rcases List.mem_append.mp hentry with hold | hnew
  · exact h w₀ hw₀ entry hold
  · exact accepted_of_passive (hpassive entry hnew)

/-- With room and no slot held, `try_acquire` fails with the writer only. -/
theorem NeverFull.tryAcquire (h : NeverFull first calls) (hfirst : system.init first)
    (hample : Ample first calls) (hview : ∀ w, Served first calls w → w.view.held = none ∧
      w.view.closed = false) (result : Option CsvWriterAcquireError) :
    NeverFull first (calls ++ [(.tryAcquire, .acquired result)]) := by
  refine h.concat hfirst fun w₀ w hw₀ hanswers => ?_
  cases result with
  | none => trivial
  | some error =>
      have hreason := hanswers error rfl
      obtain ⟨hheld, hopen⟩ := hview w₀ hw₀
      cases error with
      | failed => rfl
      | closed => exact absurd (hopen.symm.trans hreason) Bool.false_ne_true
      | alreadyAcquired =>
          have hslot : w₀.slotAcquired = true := hreason
          simp [view, hslot] at hheld
      | slotCapacity =>
          have hfull : csvWriterSlotCount ≤ w₀.producerSequence - w₀.releasedSequence := hreason
          have hroom := (hample w₀ hw₀).1
          simp only [csvWriterSlotCount, pauseSlots] at hfull hroom
          omega

/-- With room for it, a batch that is ready is published unless the writer has failed. -/
theorem NeverFull.publish (h : NeverFull first calls) (hfirst : system.init first)
    (hlive : first.output.mode = .liveCapture) (hample : Ample first calls)
    {subscription : LiveSubscription} {pipelineResult : LivePipelineResult} {batch : EventRowBatch}
    (hready : LiveEventPipeline.ReadyBatch subscription pipelineResult batch)
    (htargets : subscription.symbols.length = first.output.targets.length)
    (hview : ∀ w, Served first calls w → w.view.held = some batch ∧ w.view.closed = false)
    (result : Option CsvWriterPublishError) :
    NeverFull first
      (calls ++ [(.publish (pipelineResult.targetIndex.getD (2 ^ 64 - 1)), .published result)]) := by
  refine h.concat hfirst fun w₀ w hw₀ hanswers => ?_
  cases result with
  | none => trivial
  | some error =>
      obtain ⟨hheld, hopen⟩ := hview w₀ hw₀
      obtain ⟨hmode, hlength⟩ := hw₀.output hfirst
      obtain ⟨hslot, hbatch⟩ : w₀.slotAcquired = true ∧ w₀.producerSlot.batch = batch := by
        simp only [view] at hheld
        split at hheld
        · next hslot => exact ⟨hslot, Option.some.inj hheld⟩
        · cases hheld
      cases error with
      | failed => exact .inl rfl
      | counterOverflow => exact .inr rfl
      | closed => exact absurd (hopen.symm.trans hanswers) Bool.false_ne_true
      | noAcquiredSlot => exact absurd (hslot.symm.trans hanswers) (by decide)
      | invalidTarget =>
          have hbeyond : w₀.output.targets.length ≤ pipelineResult.targetIndex.getD (2 ^ 64 - 1) :=
            hanswers
          obtain ⟨index, hindex, hlt⟩ := hready.target
          rw [hindex, Option.getD_some] at hbeyond
          omega
      | invalidBatch =>
          have hinvalid : validBatch w₀.producerSlot.batch w₀.output.mode = false := hanswers
          rw [hbatch, hmode, hlive] at hinvalid
          have hvalid : validBatch batch .liveCapture = true := by
            have hrow := hready.auditRow
            unfold validBatch
            simp only [hready.audit, hready.orderBookRow]
            cases hempty : batch.orderBookRow.isEmpty <;> simp [hrow]
          rw [hvalid] at hinvalid
          cases hinvalid
      | byteCapacity =>
          have hfull : csvWriterByteCapacity <
              batchBytes w₀.producerSlot.batch + (w₀.producerBytes - w₀.bytesReleased) := hanswers
          have hroom := (hample w₀ hw₀).2
          have haudit := hready.auditLength
          have hbook := hready.orderBookLength
          rw [hbatch] at hfull
          simp only [batchBytes, csvWriterByteCapacity, pauseBytes, maxCsvRecordBytes] at *
          omega

end CsvWriter

namespace WebSocketSession

variable {s s' : WebSocketSession} {paused : Bool} {room : Prop}

/-- The controller and the session agree on whether reads are paused, and a read that is under way
was issued while there was room. -/
structure Held (paused : Bool) (room : Prop) (s : WebSocketSession) : Prop where
  agreed : paused = s.readsPaused
  reading : s.readInProgress = true → room

/-- The session reads on only while there is room. -/
structure Gated (paused : Bool) (room : Prop) (s : WebSocketSession) : Prop
    extends Held paused room s where
  passing : s.state = .open → s.readsPaused = false → room

theorem Gated.mono {room' : Prop} (h : s.Gated paused room) (hroom : room → room') :
    s.Gated paused room' :=
  ⟨⟨h.agreed, fun hreading => hroom (h.reading hreading)⟩,
    fun hopen hpassing => hroom (h.passing hopen hpassing)⟩

/-- A step that neither opens the session nor issues a read. -/
theorem Gated.quiet (h : s.Gated paused room) (hpaused : s'.readsPaused = s.readsPaused)
    (hreading : s'.readInProgress = true → s.readInProgress = true)
    (hopen : s'.state = .open → s.state = .open) : s'.Gated paused room :=
  ⟨⟨h.agreed.trans hpaused.symm, fun hread => h.reading (hreading hread)⟩,
    fun hstate hpassing => h.passing (hopen hstate) (hpaused.symm.trans hpassing)⟩

theorem Gated.start (h : s.Gated paused room) : (s.call .start).Gated paused room := by
  have hrecorded : (s.record .startRequested).Gated paused room := h.quiet rfl id id
  simp only [call, WebSocketSession.start]
  split
  · exact hrecorded
  · exact hrecorded.quiet rfl id (fun h => by cases h)

theorem call_stop_gate (s : WebSocketSession) :
    (s.call .stop).readsPaused = s.readsPaused ∧
      (s.call .stop).readInProgress = s.readInProgress := by
  simp only [WebSocketSession.call, WebSocketSession.stop]
  split
  · exact ⟨rfl, rfl⟩
  split
  · exact ⟨rfl, rfl⟩
  split
  · exact ⟨rfl, rfl⟩
  split
  · exact ⟨finish_readsPaused _ _ _, finish_readInProgress _ _ _⟩
  · exact ⟨rfl, rfl⟩

/-- A session that is stopped reads no more. -/
theorem Held.stop (h : s.Held paused room) (hcalm : s.inControlCallback = false) :
    (s.call .stop).Gated paused room := by
  obtain ⟨hpaused, hreading⟩ := s.call_stop_gate
  refine ⟨⟨h.agreed.trans hpaused.symm, fun hread => h.reading (hreading ▸ hread)⟩, ?_⟩
  intro hopen
  rcases call_stop_state hcalm with hclosing | hterminal
  · rw [hclosing] at hopen
    cases hopen
  · rw [hterminal] at hopen
    cases hopen

theorem Held.pauseReads (h : s.Held paused room) (hlive : s.state ≠ .terminal) :
    (s.call .pauseReads).Gated true room := by
  have hcall : s.call .pauseReads = { s.record .pauseRequested with readsPaused := true } := by
    simp only [WebSocketSession.call, WebSocketSession.pauseReads]
    exact if_pos hlive
  rw [hcall]
  exact ⟨⟨rfl, h.reading⟩, fun _ h => by cases h⟩

theorem gated_resumeReads (hlive : s.state ≠ .terminal) (hroom : room) :
    (s.call .resumeReads).Gated false room := by
  have hcall : s.call .resumeReads =
      { s.record .resumeRequested with readsPaused := false }.issueRead := by
    simp only [WebSocketSession.call, WebSocketSession.resumeReads]
    exact if_neg hlive
  rw [hcall]
  unfold issueRead
  split <;> exact ⟨⟨rfl, fun _ => hroom⟩, fun _ _ => hroom⟩

theorem Gated.readOn (h : s.Gated paused room) : s.readOn.Gated paused room := by
  unfold WebSocketSession.readOn
  split
  · next hpassing =>
      have hroom := h.passing hpassing.1 (by simpa using hpassing.2)
      unfold issueRead
      split
      · exact h
      · exact ⟨⟨h.agreed, fun _ => hroom⟩, fun _ _ => hroom⟩
  · exact h

/-- The session's handler after a callback. -/
theorem Gated.returned (h : s.Gated paused room) (callback : SessionCallback) :
    ({ s with running := none }.returned callback false).Gated paused room := by
  have hidle : ({ s with running := none } : WebSocketSession).Gated paused room :=
    h.quiet rfl id id
  cases callback with
  | «open» => exact hidle.readOn
  | text message => exact hidle.readOn
  | control kind => exact hidle.quiet rfl id id

/-- A callback that throws ends the session. -/
theorem returned_threw (s : WebSocketSession) {callback : SessionCallback}
    (hcallback : ∀ kind, callback ≠ .control kind) :
    ({ s with running := none }.returned callback true).state = .terminal := by
  cases callback with
  | «open» =>
      simp only [WebSocketSession.returned, afterCallback, if_true, WebSocketSession.readOn]
      rw [if_neg (by rw [finish_state]; rintro ⟨hopen, -⟩; cases hopen)]
      exact finish_state _ _ _
  | text message => exact finish_state _ _ _
  | control kind => exact absurd rfl (hcallback kind)

end WebSocketSession

namespace LiveCaptureController

open CsvWriter (Ample NeverFull Served)
open WebSocketSession (Held Gated Delivers)

/-! ## The calls of the controller -/

/-- A writer as the controller starts it. -/
structure Opened (first : CsvWriter) : Prop where
  init : CsvWriter.system.init first
  mode : first.output.mode = .liveCapture
  view : first.view = {}

/-- How the controller stands with the writer between messages. -/
structure Lines (first : CsvWriter) (c : LiveCaptureController) : Prop where
  neverFull : NeverFull first c.writerCalls
  closed : c.view.closed = true → c.terminal = true
  held : c.view.held = none
  targets : c.pipeline.subscription.symbols.length = first.output.targets.length

/-- What the gates need of the controller and its session. -/
structure Attended (c : LiveCaptureController) : Prop where
  generation : c.session.isSome = true → c.sessionGeneration = c.generation
  session : ∀ s, c.session = some s →
    s.inControlCallback = false ∧ s.state ≠ .terminal ∧ s.notified = none
  finalized : c.terminalStarted = c.terminal

/-- The run is over, or it will be: no message is handled any more. -/
def Over (c : LiveCaptureController) : Prop := c.failureLatched = true ∨ c.terminal = true

/-- The gates of the controller and of its session, while there is room or not. -/
structure Gate (room : Prop) (c : LiveCaptureController) : Prop where
  gone : c.session = none → c.readsPaused = false
  session : ∀ s, c.session = some s → s.Gated c.readsPaused room

/-- What holds between the callbacks. -/
def Guarded (first : CsvWriter) (c : LiveCaptureController) : Prop :=
  c.Over ∨ c.Gate (Ample first c.writerCalls)

/-- What a callback of the controller leaves to the session that called it: it reads on only if
the callback has not thrown, and then as the gates say. -/
def Verdict (first : CsvWriter) (out : LiveCaptureController × Bool) : Prop :=
  out.1.Over ∨ (out.2 = true ∧ out.1.session.isSome = true) ∨
    (out.2 = false ∧ out.1.Gate (Ample first out.1.writerCalls))

section Calls

variable {first : CsvWriter} {c c' : LiveCaptureController} {room : Prop}

theorem Lines.beside (h : Lines first c) (hopened : Opened first) (hbeside : Beside c c') :
    Lines first c' := by
  obtain ⟨calls, hcalls, hpassive⟩ := hbeside.calls
  refine ⟨?_, ?_, hbeside.view.2.2.2.2 h.held, ?_⟩
  · rw [hcalls]
    exact h.neverFull.passive hopened.init hpassive
  · intro hclosed
    rcases hbeside.closed hclosed with hclosed | hterminal
    · exact hbeside.terminal (h.closed hclosed)
    · exact hterminal
  · rw [hbeside.subscription]
    exact h.targets

theorem Lines.same (h : Lines first c) (hcalls : c'.writerCalls = c.writerCalls)
    (hterminal : c'.terminal = c.terminal)
    (hsubscription : c'.pipeline.subscription = c.pipeline.subscription) : Lines first c' := by
  have hview : c'.view = c.view := by rw [view, hcalls, view]
  refine ⟨hcalls ▸ h.neverFull, ?_, hview ▸ h.held, hsubscription ▸ h.targets⟩
  rw [hview, hterminal]
  exact h.closed

theorem Beside.ample (h : Beside c c') (hopened : Opened first)
    (hample : Ample first c.writerCalls) : Ample first c'.writerCalls := by
  obtain ⟨calls, hcalls, hpassive⟩ := h.calls
  rw [hcalls]
  exact hample.passive hopened.init hpassive

theorem attended_of_core {running : Option SessionCallback} (hcore : Base running c) :
    c.Attended := by
  refine ⟨hcore.generation, fun s hs => ?_, hcore.finalized⟩
  have hok := hcore.session s hs
  exact ⟨hok.calm, hok.live, hok.inv.untold hok.live⟩

theorem Attended.same (h : c.Attended) (hsession : c'.session = c.session)
    (hgeneration : c'.sessionGeneration = c.sessionGeneration ∧ c'.generation = c.generation)
    (hended : c'.terminalStarted = c.terminalStarted ∧ c'.terminal = c.terminal) :
    c'.Attended := by
  refine ⟨?_, ?_, ?_⟩
  · rw [hsession, hgeneration.1, hgeneration.2]
    exact h.generation
  · rw [hsession]
    exact h.session
  · rw [hended.1, hended.2]
    exact h.finalized

theorem Over.beside (h : c.Over) (hbeside : Beside c c') : c'.Over :=
  h.imp hbeside.latched hbeside.terminal

/-- The writer sees the calls as the controller does. -/
theorem served_view (hopened : Opened first) {w : CsvWriter} (hw : Served first c.writerCalls w) :
    w.view = c.view := by
  rw [hw.view_eq hopened.init, hopened.view]
  rfl

theorem Gate.mono {room' : Prop} (h : c.Gate room) (hroom : room → room') : c.Gate room' :=
  ⟨h.gone, fun s hs => (h.session s hs).mono hroom⟩

theorem Gate.same (h : c.Gate room) (hsession : c'.session = c.session)
    (hpaused : c'.readsPaused = c.readsPaused) : c'.Gate room := by
  refine ⟨fun hnone => ?_, fun s hs => ?_⟩
  · rw [hpaused]
    exact h.gone (hsession.symm.trans hnone)
  · rw [hpaused]
    exact h.session s (hsession.symm.trans hs)

theorem Guarded.beside (h : Guarded first c) (hopened : Opened first) (hbeside : Beside c c')
    (hgate : ∀ room, c.Gate room → c'.Over ∨ c'.Gate room) : Guarded first c' := by
  rcases h with hover | hgated
  · exact .inl (hover.beside hbeside)
  · rcases hgate _ hgated with hover | hgated
    · exact .inl hover
    · exact .inr (hgated.mono (hbeside.ample hopened))

end Calls

/-! ## Sessions that end, start and stop -/

section Sessions

variable {c : LiveCaptureController} {room : Prop}

theorem finalizeRun_gate (c : LiveCaptureController) (given : Surroundings) :
    (c.finalizeRun given).session = c.session ∧ (c.finalizeRun given).readsPaused = c.readsPaused := by
  unfold finalizeRun
  split
  · exact ⟨rfl, rfl⟩
  · dsimp only
    split <;> exact ⟨rfl, rfl⟩

theorem over_finalizeRun (hattended : c.Attended) (given : Surroundings) :
    (c.finalizeRun given).Over := by
  unfold finalizeRun
  split
  · next hstarted => exact .inr (hattended.finalized.symm.trans hstarted)
  · dsimp only
    split <;> exact .inr rfl

theorem endOrReconnect_gate (c : LiveCaptureController) (given : Surroundings)
    (sessionResult : WebSocketSessionResult) :
    (c.endOrReconnect given sessionResult).session = c.session ∧
      (c.endOrReconnect given sessionResult).readsPaused = c.readsPaused := by
  unfold endOrReconnect
  split
  · unfold endStopped
    dsimp only
    split
    · split <;> exact finalizeRun_gate _ given
    · split <;> exact finalizeRun_gate _ given
  split
  · exact finalizeRun_gate c given
  split
  · exact finalizeRun_gate _ given
  split
  · exact finalizeRun_gate _ given
  · unfold scheduleReconnect
    dsimp only [selectReconnectDelay]
    split
    · exact finalizeRun_gate _ given
    · exact ⟨rfl, rfl⟩

theorem countSessionEnd_gate (c : LiveCaptureController) (code : WebSocketSessionErrorCode) :
    (c.countSessionEnd code).session = c.session ∧
      (c.countSessionEnd code).readsPaused = c.readsPaused := by
  unfold countSessionEnd
  split
  · exact ⟨rfl, rfl⟩
  · split <;> exact ⟨rfl, rfl⟩

theorem tripBreaker_gate (c : LiveCaptureController) :
    c.tripBreaker.session = c.session ∧ c.tripBreaker.readsPaused = c.readsPaused := by
  unfold tripBreaker
  split <;> exact ⟨rfl, rfl⟩

/-- With its session the pause of reads is over. -/
theorem sessionEnded_gate (hgeneration : c.sessionGeneration = c.generation) (given : Surroundings)
    (sessionResult : WebSocketSessionResult) :
    (c.sessionEnded given sessionResult).session = none ∧
      (c.sessionEnded given sessionResult).readsPaused = false := by
  unfold sessionEnded onSessionTerminal
  rw [if_neg (by exact not_not.mpr hgeneration)]
  dsimp only
  generalize hd : tripBreaker _ = d
  have hgone : d.session = none ∧ d.readsPaused = false := by
    rw [← hd, (tripBreaker_gate _).1, (tripBreaker_gate _).2, (countSessionEnd_gate _ _).1,
      (countSessionEnd_gate _ _).2]
    exact ⟨rfl, rfl⟩
  obtain ⟨hsession, hpaused⟩ := endOrReconnect_gate (if d.resumePostFailed then
    { d with result := { d.result with stopRequested := d.stopRequested } }.latch
      .resumeNotificationFailure
    else { d with result := { d.result with stopRequested := d.stopRequested } }) given sessionResult
  refine ⟨hsession.trans ?_, hpaused.trans ?_⟩
  · split
    · exact hgone.1
    · exact hgone.1
  · split
    · exact hgone.2
    · exact hgone.2

/-- A step of the session: it has ended, and its gate with it, or it is gated. -/
theorem gate_advanceSession (hgeneration : c.sessionGeneration = c.generation)
    (given : Surroundings) {s : WebSocketSession} (h : s.notified = none →
      s.Gated c.readsPaused room) : (c.advanceSession given s).Gate room := by
  unfold advanceSession
  dsimp only
  split
  · next sessionResult hnotified =>
      obtain ⟨hsession, hpaused⟩ := sessionEnded_gate (c := { c with session := some s })
        hgeneration given sessionResult
      refine ⟨fun _ => hpaused, fun t ht => ?_⟩
      rw [hsession] at ht
      cases ht
  · next hnotified =>
      refine ⟨nofun, fun t ht => ?_⟩
      obtain rfl := Option.some.inj ht
      exact h hnotified

theorem gate_callSession (hattended : c.Attended) (h : c.Gate room) (given : Surroundings)
    {call : SessionCall} (completion : Completion)
    (hcall : ∀ s, c.session = some s → (s.call call).Gated c.readsPaused room) :
    (c.callSession given call completion).1.Gate room := by
  unfold callSession
  split
  · exact h
  · next s hs =>
      have hadvanced := gate_advanceSession (hattended.generation (by rw [hs]; rfl)) given
        fun _ => hcall s hs
      cases completion with
      | throwsBefore => exact h
      | returns => exact hadvanced
      | throwsAfter => exact hadvanced

theorem over_handleSessionStopException (c : LiveCaptureController) (given : Surroundings) :
    (c.handleSessionStopException given).Over := by
  unfold handleSessionStopException
  refine .inl ((beside_finalizeRun _ given).latched ?_)
  split
  · assumption
  · rfl

/-- A session that is stopped is gated, whether there was room when it opened or not. -/
theorem gate_stopSession (hattended : c.Attended) (hgone : c.session = none → c.readsPaused = false)
    (hheld : ∀ s, c.session = some s → s.Held c.readsPaused room) (given : Surroundings) :
    (c.stopSession given).Over ∨ (c.stopSession given).Gate room := by
  unfold stopSession callSession
  cases hs : c.session with
  | none =>
      refine .inr ⟨hgone, fun s hsome => ?_⟩
      rw [show c.session = some s from hsome] at hs
      cases hs
  | some s =>
      have hstopped := (hheld s hs).stop (hattended.session s hs).1
      have hadvanced := gate_advanceSession (hattended.generation (by rw [hs]; rfl)) given
        fun _ => hstopped
      cases given.sessionStop with
      | throwsBefore => exact .inl (over_handleSessionStopException c given)
      | returns => exact .inr hadvanced
      | throwsAfter =>
          dsimp only
          split
          · exact .inl (over_handleSessionStopException _ given)
          · exact .inr hadvanced

theorem gate_requestStopOnIo (hattended : c.Attended)
    (hgone : c.session = none → c.readsPaused = false)
    (hheld : ∀ s, c.session = some s → s.Held c.readsPaused room)
    (given : Surroundings) :
    (c.requestStopOnIo given).Over ∨ (c.requestStopOnIo given).Gate room := by
  have hrecorded : (c.record .stopHandled).Attended :=
    ⟨hattended.generation, hattended.session, hattended.finalized⟩
  unfold requestStopOnIo
  dsimp only
  split
  · next hended =>
      refine .inl (.inr ?_)
      rcases Bool.or_eq_true_iff.mp hended with hterminal | hstarted
      · exact hterminal
      · exact hattended.finalized.symm.trans hstarted
  split
  · exact gate_stopSession hrecorded hgone hheld given
  · exact .inl (over_finalizeRun hrecorded given)

/-- A failure is latched, or the run was over before. -/
theorem over_fail (c : LiveCaptureController) (given : Surroundings) (error : LiveCaptureErrorCode) :
    (c.fail given error).Over := by
  cases hrunning : (c.failureLatched || c.terminal) with
  | false => exact .inl ((beside_fail_latched c given error hrunning).latched rfl)
  | true =>
      have hsame : c.fail given error = c := by
        unfold LiveCaptureController.fail
        rw [if_pos hrunning]
      rw [hsame]
      rwa [Bool.or_eq_true] at hrunning

end Sessions

/-! ## The end of a callback -/

section Verdicts

variable {first : CsvWriter} {c : LiveCaptureController}

/-- The session is paused, or the call throws. -/
theorem callSession_pauseReads {s : WebSocketSession} (hs : c.session = some s)
    (huntold : s.notified = none) (given : Surroundings) (completion : Completion) :
    (c.callSession given .pauseReads completion).1.session.isSome = true ∧
      ((c.callSession given .pauseReads completion).2 = true ∨
        c.callSession given .pauseReads completion =
          ({ c with session := some (s.call .pauseReads) }, false)) := by
  have hnotified : (s.call .pauseReads).notified = none := by
    simp only [WebSocketSession.call, WebSocketSession.pauseReads]
    split <;> exact huntold
  have hadvanced : c.advanceSession given (s.call .pauseReads) =
      { c with session := some (s.call .pauseReads) } := by
    unfold advanceSession
    rw [hnotified]
  unfold callSession
  rw [hs]
  cases completion with
  | throwsBefore => exact ⟨by rw [hs]; rfl, .inl rfl⟩
  | throwsAfter =>
      dsimp only
      rw [hadvanced, hnotified]
      exact ⟨rfl, .inl rfl⟩
  | returns =>
      dsimp only
      rw [hadvanced]
      exact ⟨rfl, .inr rfl⟩

theorem verdict_pauseForBackpressure (hopened : Opened first) (hattended : c.Attended)
    (hsome : c.session.isSome = true)
    (hheld : ∀ s, c.session = some s → s.Held c.readsPaused (Ample first c.writerCalls))
    (given : Surroundings) : Verdict first (c.pauseForBackpressure given) := by
  obtain ⟨s, hs⟩ := Option.isSome_iff_exists.mp hsome
  obtain ⟨-, hlive, huntold⟩ := hattended.session s hs
  unfold pauseForBackpressure
  split
  · next hskipped =>
      simp only [hs, Option.isNone_some, Bool.or_false, Bool.or_eq_true] at hskipped
      rcases hskipped with hpaused | hlatched
      · refine .inr (.inr ⟨rfl, fun hnone => ?_, fun t ht => ⟨hheld t ht, fun _ hpassing => ?_⟩⟩)
        · rw [show c.session = none from hnone] at hsome
          cases hsome
        · rw [← (hheld t ht).agreed, hpaused] at hpassing
          cases hpassing
      · exact .inl (.inl hlatched)
  · dsimp only
    generalize hd : LiveCaptureController.callSession _ _ _ _ = out
    obtain ⟨hcurrent, hcases⟩ := callSession_pauseReads (c := { c.count fun m =>
      { m with producerPauses := m.producerPauses + 1 } with readsPaused := true }) hs huntold given
      given.sessionPause
    rw [hd] at hcurrent hcases
    split
    · exact .inr (.inl ⟨rfl, hcurrent⟩)
    · next hreturned =>
        rcases hcases with hthrew | rfl
        · simp [hthrew] at hreturned
        · refine .inr (.inr ⟨rfl, nofun, fun t ht => ?_⟩)
          obtain rfl := Option.some.inj ht
          exact ((hheld s hs).pauseReads hlive).mono fun hample =>
            hample.concat hopened.init nofun

/-- The pause mark is tested, and the session is paused if it is reached. -/
theorem verdict_pauseIfFull (hopened : Opened first) (hattended : c.Attended)
    (hsome : c.session.isSome = true)
    (hheld : ∀ s, c.session = some s → s.Held c.readsPaused (Ample first c.writerCalls))
    (given : Surroundings) : Verdict first (c.pauseIfFull given) := by
  have hheld' : ∀ s, c.session = some s → s.Held c.readsPaused
      (Ample first (c.calling .shouldPause (.shouldPause given.shouldPause)).writerCalls) :=
    fun s hs => ⟨(hheld s hs).agreed, fun hreading =>
      ((hheld s hs).reading hreading).concat hopened.init nofun⟩
  unfold pauseIfFull
  dsimp only
  split
  · exact verdict_pauseForBackpressure (c := c.calling _ _) hopened
      ⟨hattended.generation, hattended.session, hattended.finalized⟩ hsome hheld' given
  · next hroom =>
      refine .inr (.inr ⟨rfl, fun hnone => ?_, fun s hs => ⟨hheld' s hs, fun _ _ => ?_⟩⟩)
      · rw [show c.session = none from hnone] at hsome
        cases hsome
      · simp only [LiveCaptureController.calling, Bool.eq_false_iff.mpr hroom]
        exact CsvWriter.ample_shouldPause hopened.init

theorem verdict_onOpen (hopened : Opened first) (hattended : c.Attended)
    (hsome : c.session.isSome = true)
    (hheld : ∀ s, c.session = some s → s.Held c.readsPaused (Ample first c.writerCalls))
    (given : Surroundings) : Verdict first (c.onOpen given c.sessionGeneration) := by
  unfold onOpen
  rw [if_neg (not_not.mpr (hattended.generation hsome))]
  dsimp only
  generalize hd : useEpoch _ = d
  obtain ⟨hsession, hpaused, hcalls, hattended'⟩ : d.session = c.session ∧
      d.readsPaused = c.readsPaused ∧ d.writerCalls = c.writerCalls ∧ d.Attended := by
    rw [← hd]
    unfold useEpoch
    split <;> exact ⟨rfl, rfl, rfl, hattended.generation, hattended.session, hattended.finalized⟩
  rw [← hsession] at hsome
  rw [← hsession, ← hpaused, ← hcalls] at hheld
  split
  · exact .inr (.inl ⟨rfl, hsome⟩)
  split
  · have hgone : d.session = none → d.readsPaused = false := by
      intro hnone
      rw [hnone] at hsome
      cases hsome
    rcases gate_requestStopOnIo hattended' hgone hheld given with hover | hgate
    · exact .inl hover
    · exact .inr (.inr ⟨rfl, hgate.mono ((beside_requestStopOnIo d given).ample hopened)⟩)
  · exact verdict_pauseIfFull hopened hattended' hsome hheld given

/-- The session takes over again. -/
theorem Verdict.returned {out : LiveCaptureController × Bool} (h : Verdict first out)
    (hopened : Opened first) {callback : SessionCallback} (hcore : Core (some callback) out.1)
    (hcallback : ∀ kind, callback ≠ .control kind) (given : Surroundings) : Guarded first (out.1.afterSessionCallback given out.2) := by
  have hbeside := beside_afterSessionCallback out.1 given out.2
  rcases h with hover | ⟨hthrew, hsome⟩ | ⟨hreturned, hgate⟩
  · exact .inl (hover.beside hbeside)
  · obtain ⟨s, hs⟩ := Option.isSome_iff_exists.mp hsome
    have hok := hcore.session s hs
    have hstep : s.step (.returned true) =
        some ({ s with running := none }.returned callback true) := by
      simp [WebSocketSession.step, hok.running]
    have htold := (hok.inv.returned callback true).told rfl (s.returned_threw hcallback)
    refine .inr ?_
    unfold afterSessionCallback
    rw [hs, hthrew]
    dsimp only
    rw [hstep]
    refine gate_advanceSession (hcore.generation hsome) given fun hnone => ?_
    rw [hnone] at htold
    cases htold
  · refine .inr (Gate.mono ?_ (hbeside.ample hopened))
    unfold afterSessionCallback
    split
    · exact hgate
    · next s hs =>
        have hok := hcore.session s hs
        have hstep : s.step (.returned false) =
            some ({ s with running := none }.returned callback false) := by
          simp [WebSocketSession.step, hok.running]
        rw [hreturned, hstep]
        exact gate_advanceSession (hcore.generation (by rw [hs]; rfl)) given
          fun _ => (hgate.session s hs).returned callback

end Verdicts

end LiveCaptureController

end MarketCapture
