import MarketCapture.Controller.Gate

/-! # No message lost to a full queue

Each callback keeps the gates: a message is handled with room for it, and what it leaves is paused
at the mark or has room for the next. So `try_acquire` and `publish` refuse a message only when the
writer has failed or one of its counters has come to its end.
-/

namespace MarketCapture

open Simdjson

namespace LiveCaptureController

open CsvWriter (Ample NeverFull Served)
open WebSocketSession (Held Gated Delivers)

/-! ## Messages -/

section Messages

variable {first : CsvWriter} {c : LiveCaptureController}

/-- A message is being handled: there is room for it, and its session does not read. -/
structure Serving (first : CsvWriter) (c : LiveCaptureController) : Prop where
  attended : c.Attended
  current : c.session.isSome = true
  ample : Ample first c.writerCalls
  quiet : ∀ s, c.session = some s → c.readsPaused = s.readsPaused ∧ s.readInProgress = false

theorem Serving.held (h : Serving first c) (room : Prop) :
    ∀ s, c.session = some s → s.Held c.readsPaused room := by
  intro s hs
  obtain ⟨hpaused, hquiet⟩ := h.quiet s hs
  refine ⟨hpaused, fun hreading => ?_⟩
  rw [hquiet] at hreading
  cases hreading

theorem Serving.same {c' : LiveCaptureController} (h : Serving first c)
    (hcalls : c'.writerCalls = c.writerCalls)
    (hsession : c'.session = c.session ∧ c'.readsPaused = c.readsPaused)
    (hgeneration : c'.sessionGeneration = c.sessionGeneration ∧ c'.generation = c.generation)
    (hended : c'.terminalStarted = c.terminalStarted ∧ c'.terminal = c.terminal) :
    Serving first c' := by
  refine ⟨h.attended.same hsession.1 hgeneration hended, ?_, hcalls ▸ h.ample, ?_⟩
  · rw [hsession.1]
    exact h.current
  · rw [hsession.1, hsession.2]
    exact h.quiet

/-- The slot of a message holds its batch. -/
structure Filled (first : CsvWriter) (c : LiveCaptureController) (batch : EventRowBatch) : Prop
    extends Serving first c where
  neverFull : NeverFull first c.writerCalls
  opened : c.view.closed = false
  batch : c.view.held = some batch
  targets : c.pipeline.subscription.symbols.length = first.output.targets.length

/-- The slot is given back. -/
theorem Filled.cancel {batch : EventRowBatch} (h : Filled first c batch) (hopened : Opened first) :
    Lines first (c.calling .cancel .cancelled) := by
  refine ⟨?_, ?_, ?_, h.targets⟩
  · exact h.neverFull.concat hopened.init fun _ _ _ _ => trivial
  · rw [view_calling]
    exact fun hclosed => absurd (h.opened.symm.trans hclosed) Bool.false_ne_true
  · rw [view_calling]
    rfl

/-- The batch is published, or the writer has failed. -/
theorem Filled.publish {result : LivePipelineResult} {batch : EventRowBatch}
    (h : Filled first c batch) (hopened : Opened first)
    (hready : LiveEventPipeline.ReadyBatch c.pipeline.subscription result batch)
    (published : Option CsvWriterPublishError) :
    Lines first (c.calling (.publish (result.targetIndex.getD (2 ^ 64 - 1))) (.published published)) := by
  refine ⟨?_, ?_, ?_, h.targets⟩
  · refine h.neverFull.publish hopened.init hopened.mode h.ample hready h.targets (fun w hw => ?_)
      published
    rw [served_view hopened hw]
    exact ⟨h.batch, h.opened⟩
  · rw [view_calling]
    intro hclosed
    cases published <;> exact absurd (h.opened.symm.trans hclosed) Bool.false_ne_true
  · rw [view_calling]
    cases published <;> rfl

theorem beside_failMessage (c : LiveCaptureController) (given : Surroundings)
    (error : LiveCaptureErrorCode) : Beside c (c.failMessage given error) :=
  (beside_record c .messageFailed rfl).trans (beside_fail _ given error)

theorem over_failMessage (c : LiveCaptureController) (given : Surroundings)
    (error : LiveCaptureErrorCode) : (c.failMessage given error).Over := over_fail _ given error

theorem Filled.count {batch : EventRowBatch} (h : Filled first c batch)
    (f : LiveCaptureMetrics → LiveCaptureMetrics) : Filled first (c.count f) batch :=
  ⟨h.toServing.same rfl ⟨rfl, rfl⟩ ⟨rfl, rfl⟩ ⟨rfl, rfl⟩, h.neverFull, h.opened, h.batch, h.targets⟩

/-- A batch that is published or not, and the pause mark. -/
theorem Filled.publishBatch {result : LivePipelineResult} {batch : EventRowBatch}
    (h : Filled first c batch) (hopened : Opened first)
    (hready : LiveEventPipeline.ReadyBatch c.pipeline.subscription result batch)
    (given : Surroundings) :
    Lines first (c.publishBatch given result).1 ∧ Verdict first (c.publishBatch given result) := by
  unfold LiveCaptureController.publishBatch
  dsimp only
  generalize hd : LiveCaptureController.calling _ (.publish _) (.published given.published) = d
  have hlines : Lines first d := by
    rw [← hd]
    exact (h.count _).publish hopened hready given.published
  obtain ⟨hattended, hcurrent, hquiet⟩ : d.Attended ∧ d.session.isSome = true ∧
      ∀ s, d.session = some s → d.readsPaused = s.readsPaused ∧ s.readInProgress = false := by
    rw [← hd]
    exact ⟨h.attended.same rfl ⟨rfl, rfl⟩ ⟨rfl, rfl⟩, h.current, h.quiet⟩
  split
  · refine ⟨hlines.beside hopened ?_, .inl (over_failMessage _ given _)⟩
    refine Beside.trans ?_ ((beside_calling _ _ _ rfl rfl).trans (beside_failMessage _ given _))
    exact .of_same rfl rfl rfl rfl rfl rfl rfl
  · generalize he : ({ LiveCaptureController.record _ .published with
      consecutiveMessagePolicyFailures := 0 } : LiveCaptureController) = e
    have hlines' : Lines first e := by
      rw [← he]
      exact hlines.same rfl rfl rfl
    obtain ⟨hattended', hcurrent', hquiet'⟩ : e.Attended ∧ e.session.isSome = true ∧
        ∀ s, e.session = some s → e.readsPaused = s.readsPaused ∧ s.readInProgress = false := by
      rw [← he]
      exact ⟨hattended.same rfl ⟨rfl, rfl⟩ ⟨rfl, rfl⟩, hcurrent, hquiet⟩
    refine ⟨hlines'.beside hopened (beside_pauseIfFull e given),
      verdict_pauseIfFull hopened hattended' hcurrent' (fun s hs => ⟨(hquiet' s hs).1, ?_⟩) given⟩
    rw [(hquiet' s hs).2]
    nofun

theorem Filled.onPipelineResult {result : LivePipelineResult} {batch : EventRowBatch}
    (h : Filled first c batch) (hopened : Opened first)
    (hready : result.disposition = .batchReady →
      LiveEventPipeline.ReadyBatch c.pipeline.subscription result batch) (given : Surroundings) :
    Lines first (c.onPipelineResult given result).1 ∧
      Verdict first (c.onPipelineResult given result) := by
  have hfatal : ∀ error, Lines first ((c.calling .cancel .cancelled).failMessage given error) ∧
      Verdict first ((c.calling .cancel .cancelled).failMessage given error, false) := by
    intro error
    exact ⟨(h.cancel hopened).beside hopened (beside_failMessage _ given error),
      .inl (over_failMessage _ given error)⟩
  unfold LiveCaptureController.onPipelineResult
  split
  · next hdisposition => exact h.publishBatch hopened (hready hdisposition) given
  · refine ⟨(h.cancel hopened).same rfl rfl rfl, .inr (.inr ⟨rfl, fun hnone => ?_, fun s hs => ?_⟩)⟩
    · have hcurrent := h.current
      rw [show c.session = none from hnone] at hcurrent
      cases hcurrent
    · have hample : Ample first (c.writerCalls ++ [(.cancel, .cancelled)]) :=
        h.ample.concat hopened.init nofun
      exact ⟨h.held _ s hs, fun _ _ => hample⟩
  · exact hfatal _
  · exact hfatal _

/-- A text message is handled with room for it, or not at all. -/
theorem Lines.onTextMessage (h : Lines first c) (hopened : Opened first)
    (hserving : c.Over ∨ Serving first c) (hpipeline : c.pipeline.Ok ∧ c.pipeline.Behind)
    {json : Library} {given : Surroundings} {message : WebSocketTextMessage}
    {out : LiveCaptureController × Bool} (hgeneration : c.sessionGeneration = c.generation)
    (hout : c.onTextMessage json given c.sessionGeneration message = some out) :
    Lines first out.1 ∧ Verdict first out := by
  unfold LiveCaptureController.onTextMessage at hout
  rw [if_neg (not_not.mpr hgeneration)] at hout
  split at hout
  · next hover =>
      cases hout
      rw [Bool.or_eq_true, or_comm] at hover
      exact ⟨h, .inl hover⟩
  · next hguard =>
      have hserving : Serving first c := by
        refine hserving.resolve_left ?_
        rwa [Over, or_comm, ← Bool.or_eq_true]
      have hterminal : c.terminal = false := by
        rw [Bool.or_eq_true, not_or] at hguard
        exact Bool.eq_false_iff.mpr hguard.1
      have hopen : c.view.closed = false := by
        rw [Bool.eq_false_iff]
        intro hclosed
        rw [h.closed hclosed] at hterminal
        cases hterminal
      have hneverFull : NeverFull first (c.writerCalls ++ [(.tryAcquire, .acquired given.acquired)]) := by
        refine h.neverFull.tryAcquire hopened.init hserving.ample (fun w hw => ?_) given.acquired
        rw [served_view hopened hw]
        exact ⟨h.held, hopen⟩
      have hample : Ample first (c.writerCalls ++ [(.tryAcquire, .acquired given.acquired)]) :=
        hserving.ample.concat hopened.init nofun
      dsimp only at hout
      generalize hd : LiveCaptureController.calling _ .tryAcquire (.acquired given.acquired) = d at hout
      have hview : d.view = c.view.after (.tryAcquire, .acquired given.acquired) := by
        rw [← hd, view_calling]
        rfl
      obtain ⟨hcalls, hsession, hpaused, hp⟩ : d.writerCalls = c.writerCalls ++
          [(.tryAcquire, .acquired given.acquired)] ∧ d.session = c.session ∧
          d.readsPaused = c.readsPaused ∧ d.pipeline = c.pipeline := by
        rw [← hd]
        exact ⟨rfl, rfl, rfl, rfl⟩
      have hattended : d.Attended := by
        rw [← hd]
        exact hserving.attended.same rfl ⟨rfl, rfl⟩ ⟨rfl, rfl⟩
      rw [← hcalls] at hneverFull hample
      split at hout
      · next error hfailed =>
          cases hout
          rw [hfailed] at hview
          have hlines : Lines first d := by
            refine ⟨hneverFull, fun hclosed => ?_, ?_, hp ▸ h.targets⟩
            · rw [hview] at hclosed
              exact absurd (hopen.symm.trans hclosed) Bool.false_ne_true
            · rw [hview]
              exact h.held
          refine ⟨hlines.beside hopened ?_, .inl (over_failMessage _ given _)⟩
          refine Beside.trans ?_ ((beside_calling _ _ _ rfl rfl).trans (beside_failMessage _ given _))
          exact .of_same rfl rfl rfl rfl rfl rfl rfl
      · next hacquired =>
          rw [hacquired] at hview
          obtain ⟨⟨result, batch, p⟩, hprocess, hout⟩ := Option.bind_eq_some_iff.mp hout
          cases hout
          obtain ⟨hsubscription, hready⟩ := process_ready hpipeline.1 hpipeline.2 (hp ▸ hprocess)
          rw [← hsubscription] at hready
          have hheld : ∀ e : LiveCaptureController, e.view =
              c.view.after (.tryAcquire, .acquired none) →
              ((e.record (.processed message result)).calling
                (.fill batch given.auditExcess given.orderBookExcess) .filled).view =
                { c.view with held := some batch } := by
            intro e he
            rw [view_calling, show (e.record (.processed message result)).view = e.view from rfl, he]
            rfl
          refine @Filled.onPipelineResult first _ result batch ⟨⟨?_, ?_, ?_, ?_⟩, ?_, ?_, ?_, ?_⟩
            hopened hready given
          · exact hattended.same rfl ⟨rfl, rfl⟩ ⟨rfl, rfl⟩
          · exact hsession ▸ hserving.current
          · exact hample.concat hopened.init nofun
          · show ∀ s, d.session = some s → d.readsPaused = s.readsPaused ∧ s.readInProgress = false
            rw [hsession, hpaused]
            exact hserving.quiet
          · exact hneverFull.concat hopened.init fun _ _ _ _ => trivial
          · exact (congrArg ProducerView.closed (hheld d hview)).trans hopen
          · exact congrArg ProducerView.held (hheld d hview)
          · rw [hsubscription]
            exact h.targets

end Messages

/-! ## Every callback -/

section Steps

variable {first : CsvWriter} {c c' : LiveCaptureController} {room : Prop}

theorem gate_startCurrentSession (hattended : c.Attended) (h : c.Gate room) (given : Surroundings) :
    (c.startCurrentSession given).1.Over ∨ (c.startCurrentSession given).1.Gate room := by
  unfold startCurrentSession
  split
  · exact .inl (over_fail c given _)
  · have hcalled : ∀ d : LiveCaptureController, d.Attended → d.Gate room →
        (d.callSession given .start given.sessionStart).1.Gate room := fun d hd hgate =>
      gate_callSession hd hgate given given.sessionStart fun t ht => (hgate.session t ht).start
    dsimp only
    split
    · exact .inr (hcalled _ (hattended.same rfl ⟨rfl, rfl⟩ ⟨rfl, rfl⟩) (h.same rfl rfl))
    · exact .inr (hcalled _ (hattended.same rfl ⟨rfl, rfl⟩ ⟨rfl, rfl⟩) (h.same rfl rfl))

theorem gate_start (hattended : c.Attended) (h : c.Gate room) (given : Surroundings) :
    (c.start given).Over ∨ (c.start given).Gate room := by
  unfold start
  split
  · exact .inr h
  · have hset : ({ c with started := true } : LiveCaptureController).Gate room := h.same rfl rfl
    have hstarted := gate_startCurrentSession (c := { c with started := true })
      (hattended.same rfl ⟨rfl, rfl⟩ ⟨rfl, rfl⟩) hset given
    dsimp only
    split
    · exact hstarted.imp id fun hgate => hgate.same rfl rfl
    · exact hstarted

theorem over_latch_finalizeRun (c : LiveCaptureController) (given : Surroundings)
    (error : LiveCaptureErrorCode) : ((c.latch error).finalizeRun given).Over :=
  .inl ((beside_finalizeRun _ given).latched rfl)

/-- A new session begins with its gate as the controller's. -/
theorem gate_onReconnectTimer (hattended : c.Attended) (h : c.Gate room) (hnone : c.session = none)
    (given : Surroundings) (error : NativeError) :
    (c.onReconnectTimer given error).Over ∨ (c.onReconnectTimer given error).Gate room := by
  unfold onReconnectTimer
  split
  · exact .inr h
  split
  · exact .inl (over_latch_finalizeRun c given _)
  split
  · exact .inl (over_finalizeRun hattended given)
  split
  · exact .inl (over_latch_finalizeRun c given _)
  dsimp only
  split
  · exact .inl (over_latch_finalizeRun _ given _)
  · generalize hd : createSession _ = d
    obtain ⟨hattended', hgate⟩ : d.Attended ∧ d.Gate room := by
      rw [← hd]
      have hcreated : ∀ s, some (WebSocketSession.create sessionCallbacks c.nextConnectionEpoch) =
          some s → s.inControlCallback = false ∧ s.state = .idle ∧ s.notified = none ∧
          s.readsPaused = false ∧ s.readInProgress = false := by
        rintro s hs
        obtain rfl := Option.some.inj hs
        exact ⟨rfl, rfl, rfl, rfl, rfl⟩
      refine ⟨⟨fun _ => rfl, fun s hs => ?_, hattended.finalized⟩, nofun, fun s hs => ?_⟩
      · obtain ⟨hcalm, hidle, huntold, -⟩ := hcreated s hs
        exact ⟨hcalm, by rw [hidle]; nofun, huntold⟩
      · obtain ⟨-, hidle, -, hpassing, hquiet⟩ := hcreated s hs
        refine ⟨⟨(h.gone hnone).trans hpassing.symm, ?_⟩, ?_⟩
        · rw [hquiet]
          nofun
        · rw [hidle]
          nofun
    have hstarted := gate_startCurrentSession hattended' hgate given
    split
    · exact .inl (over_latch_finalizeRun _ given _)
    · exact hstarted

/-- The reads resume below the resume mark, which is below the pause mark. -/
theorem guarded_onWriterResume (hopened : Opened first) (hattended : c.Attended)
    (h : Guarded first c) (given : Surroundings) : Guarded first (c.onWriterResume given) := by
  have hbeside := beside_onWriterResume c given
  rcases h with hover | hgate
  · exact .inl (hover.beside hbeside)
  have hsame : ∀ d : LiveCaptureController, Beside c d → d.session = c.session →
      d.readsPaused = c.readsPaused → Guarded first d := fun d hd hsession hpaused =>
    .inr ((hgate.same hsession hpaused).mono (hd.ample hopened))
  revert hbeside
  unfold onWriterResume
  split
  · exact fun hbeside => hsame _ hbeside rfl rfl
  split
  · exact fun _ => .inl (over_fail c given _)
  dsimp only
  split
  · exact fun _ => .inl (over_fail _ given _)
  split
  · exact fun hbeside => hsame _ hbeside rfl rfl
  split
  · exact fun hbeside => hsame _ hbeside rfl rfl
  · next hbelow =>
      intro _
      generalize hd : ({ LiveCaptureController.count _ _ with readsPaused := false } :
        LiveCaptureController) = d
      obtain ⟨hsession, hpassing, hattended', hample⟩ : d.session = c.session ∧
          d.readsPaused = false ∧ d.Attended ∧ Ample first d.writerCalls := by
        rw [← hd]
        refine ⟨rfl, rfl, hattended.same rfl ⟨rfl, rfl⟩ ⟨rfl, rfl⟩, ?_⟩
        have hanswer : given.belowResumeWatermark = true := by simpa using hbelow
        simp only [LiveCaptureController.calling, LiveCaptureController.count, hanswer]
        exact CsvWriter.ample_belowResumeWatermark hopened.init
      have hresumed : (d.callSession given .resumeReads given.sessionResume).2 = true ∨
          (d.callSession given .resumeReads given.sessionResume).1.Gate
            (Ample first d.writerCalls) := by
        unfold callSession
        split
        · next hnone =>
            refine .inr ⟨fun _ => hpassing, fun s hs => ?_⟩
            rw [hnone] at hs
            cases hs
        · next s hs =>
            have hadvanced : (d.advanceSession given (s.call .resumeReads)).Gate
                (Ample first d.writerCalls) := by
              refine gate_advanceSession (hattended'.generation (by rw [hs]; rfl)) given fun _ => ?_
              rw [hpassing]
              exact WebSocketSession.gated_resumeReads (hattended'.session s hs).2.1 hample
            cases given.sessionResume with
            | throwsBefore => exact .inl rfl
            | returns => exact .inr hadvanced
            | throwsAfter => exact .inr hadvanced
      split
      · exact .inl (over_fail _ given _)
      · next hreturned =>
          exact .inr ((hresumed.resolve_left hreturned).mono
            ((beside_callSession d given _ _).ample hopened))

theorem gate_onBackpressureTimeout (h : c.Gate room) (given : Surroundings)
    (error : NativeError) :
    (c.onBackpressureTimeout given error).Over ∨ (c.onBackpressureTimeout given error).Gate room := by
  unfold onBackpressureTimeout
  split
  · exact .inr h
  · exact .inl (over_fail _ given _)

/-- The text callback of a session, and the rest of its handler. -/
theorem Guarded.onText (h : Guarded first c) (hopened : Opened first) (hlines : Lines first c)
    (hcore : Core none c) {s s' : WebSocketSession} {message : WebSocketTextMessage}
    (hs : c.session = some s) (hinv : s'.Inv sessionCallbacks s.connectionEpoch)
    (hrunning : s'.running = some (.text message)) (hmessage : Delivers s s' message)
    (hcalm : s'.inControlCallback = false) {json : Library} {given : Surroundings}
    {out : LiveCaptureController × Bool}
    (hout : ({ c with session := some s' }.record (.delivered message)).onTextMessage json given
      c.sessionGeneration message = some out) :
    Lines first (out.1.afterSessionCallback given out.2) ∧
      Guarded first (out.1.afterSessionCallback given out.2) := by
  have hdelivered := hcore.noteDelivered hs hinv hmessage hcalm
  have hfresh := hcore.fresh hs hmessage
  obtain ⟨out', hout', hafter⟩ := hdelivered.onTextMessage rfl hfresh json given
  obtain rfl := Option.some.inj (hout.symm.trans hout')
  rw [hrunning] at hafter
  have hlines' : Lines first ({ c with session := some s' }.record (.delivered message)) :=
    hlines.same rfl rfl rfl
  have hserving : ({ c with session := some s' }.record (.delivered message)).Over ∨
      Serving first ({ c with session := some s' }.record (.delivered message)) := by
    refine h.imp id fun hgate => ?_
    have hgated := hgate.session s hs
    refine ⟨attended_of_core hdelivered.toBase, rfl, hgated.reading hmessage.reading.1, ?_⟩
    intro t ht
    obtain rfl := Option.some.inj ht
    exact ⟨hgated.agreed.trans hmessage.gate.symm, hmessage.reading.2⟩
  obtain ⟨hlines'', hverdict⟩ := hlines'.onTextMessage hopened hserving hcore.pipeline
    (hcore.generation (by rw [hs]; rfl)) hout
  exact ⟨hlines''.beside hopened (beside_afterSessionCallback _ given _),
    hverdict.returned hopened hafter nofun given⟩

/-- The open callback of a session, and the rest of its handler. -/
theorem Gate.onOpen (h : c.Gate (Ample first c.writerCalls)) (hopened : Opened first)
    (hcore : Core none c) {s s' : WebSocketSession} (hs : c.session = some s)
    (hinv : s'.Inv sessionCallbacks s.connectionEpoch) (hnew : .opened ∉ s.log)
    (hrunning : s'.running = some .open) (hstate : s'.state = .open) (hlogged : .opened ∈ s'.log)
    (hepoch : s'.connectionEpoch = s.connectionEpoch)
    (htexts : WebSocketSession.texts s'.log = WebSocketSession.texts s.log)
    (hcalm : s'.inControlCallback = false) (hreading : s'.readInProgress = s.readInProgress)
    (hpaused : s'.readsPaused = s.readsPaused) (given : Surroundings)
    {out : LiveCaptureController × Bool}
    (hout : ({ c with session := some s' }.record (.opened s'.connectionEpoch)).onOpen given
      c.sessionGeneration = out) : Guarded first (out.1.afterSessionCallback given out.2) := by
  have hafter := hcore.onOpen hs hinv hnew hstate hlogged hepoch htexts hcalm given
  have hlive : s'.state ≠ .terminal := by
    rw [hstate]
    nofun
  have hattended : ({ c with session := some s' }.record (.opened s'.connectionEpoch)).Attended := by
    refine ⟨fun _ => hcore.generation (by rw [hs]; rfl), fun t ht => ?_, hcore.finalized⟩
    obtain rfl := Option.some.inj ht
    exact ⟨hcalm, hlive, hinv.untold hlive⟩
  have hverdict := verdict_onOpen hopened hattended rfl (fun t ht => ?_) given
  · rw [← hout]
    rw [hrunning] at hafter
    exact hverdict.returned hopened hafter nofun given
  · obtain rfl := Option.some.inj ht
    have hgated := h.session s hs
    exact ⟨hgated.agreed.trans hpaused.symm, fun hread => hgated.reading (hreading ▸ hread)⟩

/-- Every handler of the session, with the callback it runs. -/
theorem Guarded.onSession (h : Guarded first c) (hopened : Opened first) (hlines : Lines first c)
    (hcore : Core none c) {json : Library} {given : Surroundings} {label : SessionLabel}
    (hstep : c.onSession json given label = some c') : Lines first c' ∧ Guarded first c' := by
  obtain ⟨s, s', hs, hidle, hhandle, hcases⟩ := onSession_cases hstep
  have hok := hcore.session s hs
  have hinv := hok.inv.handle hhandle
  have hframe : (∀ kind, s'.running ≠ some (.control kind)) → s'.inControlCallback = false := by
    intro hother
    rcases (WebSocketSession.handle_calm hhandle).1 with hcalm | ⟨kind, hkind⟩
    · exact hcalm.trans hok.calm
    · exact absurd hkind (hother kind)
  have hset : Beside c { c with session := some s' } := .of_same rfl rfl rfl rfl rfl rfl rfl
  cases WebSocketSession.handlerCase_of_handle hok.inv hok.running hok.live rfl hhandle with
  | quiet hrunning hsteady hread hopen hgate =>
      obtain ⟨-, rfl⟩ | ⟨callback, out, hcallback, -⟩ := hcases
      · have hbeside := beside_advanceSession c given s'
        refine ⟨hlines.beside hopened hbeside, h.beside hopened hbeside fun room hgated => .inr ?_⟩
        exact gate_advanceSession (hcore.generation (by rw [hs]; rfl)) given
          fun _ => (hgated.session s hs).quiet hgate hread hopen
      · rw [hrunning] at hcallback
        cases hcallback
  | opens hrunning hbefore hopen hlogged hepoch htexts hread hgate =>
      obtain ⟨hnone, -⟩ | ⟨callback, out, hcallback, hout, rfl⟩ := hcases
      · rw [hrunning] at hnone
        cases hnone
      · obtain rfl := Option.some.inj (hcallback.symm.trans hrunning)
        obtain rfl := Option.some.inj hout
        have hbeside := ((hset.trans (beside_record _ (.opened s'.connectionEpoch) rfl)).trans
          (beside_onOpen _ given c.sessionGeneration)).trans
            (beside_afterSessionCallback _ given (({ c with session := some s' }.record
              (.opened s'.connectionEpoch)).onOpen given c.sessionGeneration).2)
        refine ⟨hlines.beside hopened hbeside, ?_⟩
        rcases h with hover | hgated
        · exact .inl (hover.beside hbeside)
        · have hnew : .opened ∉ s.log := fun hmem => by
            rcases hok.inv.opened hmem with hstate | hstate | hstate <;>
              · rw [hbefore] at hstate
                cases hstate
          exact hgated.onOpen hopened hcore hs hinv hnew hrunning hopen hlogged hepoch htexts
            (hframe (by rw [hrunning]; nofun)) hread hgate given rfl
  | text message hrunning hmessage =>
      obtain ⟨hnone, -⟩ | ⟨callback, out, hcallback, hout, rfl⟩ := hcases
      · rw [hrunning] at hnone
        cases hnone
      · obtain rfl := Option.some.inj (hcallback.symm.trans hrunning)
        exact h.onText hopened hlines hcore hs hinv hrunning hmessage
          (hframe (by rw [hrunning]; nofun)) hout
  | control kind hrunning hsteady hread hstate hgate hcontrol =>
      obtain ⟨hnone, -⟩ | ⟨callback, out, hcallback, hout, rfl⟩ := hcases
      · rw [hrunning] at hnone
        cases hnone
      · obtain rfl := Option.some.inj (hcallback.symm.trans hrunning)
        obtain rfl := Option.some.inj hout
        have hbeside := (hset.trans (beside_onControl _ c.sessionGeneration kind)).trans
          (beside_afterSessionCallback _ given false)
        refine ⟨hlines.beside hopened hbeside, h.beside hopened hbeside fun room hgated => .inr ?_⟩
        have hstep : s'.step (.returned false) =
            some ({ s' with running := none }.returned (.control kind) false) := by
          simp [WebSocketSession.step, hrunning]
        have hreturned := ((hgated.session s hs).quiet hgate (fun hr => hread ▸ hr)
          (fun hopen => hstate ▸ hopen)).returned (.control kind)
        have hcontrolled : ∀ d : LiveCaptureController, d.session = some s' →
            d.sessionGeneration = d.generation → d.readsPaused = c.readsPaused →
            (d.afterSessionCallback given false).Gate room := by
          intro d hsession hgeneration hpaused
          unfold LiveCaptureController.afterSessionCallback
          rw [hsession]
          dsimp only
          rw [hstep]
          refine gate_advanceSession hgeneration given fun _ => ?_
          rw [hpaused]
          exact hreturned
        have hgeneration := hcore.generation (by rw [hs]; rfl)
        unfold LiveCaptureController.onControl
        rw [if_neg (by exact not_not.mpr hgeneration)]
        cases kind <;> exact hcontrolled _ rfl hgeneration rfl

theorem gate_stop (h : c.Gate room) :
    (if c.terminal then c else { c with stopRequested := true }).Gate room := by
  split
  · exact h
  · exact h.same rfl rfl

theorem gate_onStableConnection (h : c.Gate room) (generation : UInt64) (error : NativeError) :
    (c.onStableConnection generation error).Gate room := by
  unfold onStableConnection
  split
  · exact h
  split <;> exact h.same rfl rfl

theorem Guarded.step (h : Guarded first c) (hopened : Opened first) (hlines : Lines first c)
    (hcore : Core none c) {json : Library} {label : ControllerLabel}
    (hstep : c.step json label = some c') : Lines first c' ∧ Guarded first c' := by
  have hattended := attended_of_core hcore.toBase
  have beside : (∀ handler given, label ≠ .session handler given) →
      (∀ room, c.Gate room → c'.Over ∨ c'.Gate room) → Lines first c' ∧ Guarded first c' := by
    intro hlabel hgate
    have hbeside := step_beside hlabel hstep
    exact ⟨hlines.beside hopened hbeside, h.beside hopened hbeside hgate⟩
  cases label with
  | start given =>
      refine beside (by simp) fun room hgate => ?_
      cases hstep
      exact gate_start hattended hgate given
  | stop =>
      refine beside (by simp) fun room hgate => .inr ?_
      simp only [LiveCaptureController.step, Option.some.injEq] at hstep
      rw [← hstep]
      exact gate_stop hgate
  | requestStopOnIo given =>
      refine beside (by simp) fun room hgate => ?_
      simp only [LiveCaptureController.step] at hstep
      split at hstep <;> cases hstep
      exact gate_requestStopOnIo hattended hgate.gone (fun s hs => (hgate.session s hs).toHeld) given
  | session label given => exact h.onSession hopened hlines hcore hstep
  | superseded generation notice given =>
      refine beside (by simp) fun room hgate => ?_
      simp only [LiveCaptureController.step] at hstep
      split at hstep
      · next hold =>
          rw [onNotice_superseded c json given hold notice] at hstep
          cases hstep
          exact .inr (hgate.same rfl rfl)
      · cases hstep
  | reconnectTimer error given =>
      refine beside (by simp) fun room hgate => ?_
      simp only [LiveCaptureController.step] at hstep
      split at hstep
      · next hwaits =>
          cases hstep
          have hnone : c.session = none := by
            by_contra hsome
            rw [hcore.exclusive (Option.isSome_iff_ne_none.mpr hsome)] at hwaits
            exact Nat.lt_irrefl 0 hwaits
          exact gate_onReconnectTimer (c := { c with reconnectWaits := c.reconnectWaits - 1 })
            (hattended.same rfl ⟨rfl, rfl⟩ ⟨rfl, rfl⟩) (hgate.same rfl rfl) hnone given error
      · cases hstep
  | stableConnection generation error =>
      refine beside (by simp) fun room hgate => .inr ?_
      simp only [LiveCaptureController.step, Option.some.injEq] at hstep
      rw [← hstep]
      exact gate_onStableConnection hgate generation error
  | writerResume given =>
      cases hstep
      exact ⟨hlines.beside hopened (beside_onWriterResume c given),
        guarded_onWriterResume hopened hattended h given⟩
  | resumePostFails =>
      refine beside (by simp) fun room hgate => ?_
      cases hstep
      exact .inr (hgate.same rfl rfl)
  | postedSessionStop given =>
      refine beside (by simp) fun room hgate => ?_
      simp only [LiveCaptureController.step] at hstep
      split at hstep <;> cases hstep
      exact .inr (gate_callSession hattended hgate given .returns fun s hs =>
        (hgate.session s hs).toHeld.stop (hattended.session s hs).1)
  | backpressureTimeout error given =>
      refine beside (by simp) fun room hgate => ?_
      cases hstep
      exact gate_onBackpressureTimeout hgate given error

end Steps

end LiveCaptureController

namespace Capture

open LiveCaptureController

/-- What holds of the controller and the writer it was started with. -/
structure Roomy (json : Library) (first : CsvWriter) (s : Capture) : Prop
    extends Joined json first s where
  opened : Opened first
  lines : Lines first s.controller
  guarded : Guarded first s.controller

theorem Roomy.step {json : Library} {first : CsvWriter} {s s' : Capture} {label : CaptureLabel}
    (h : Roomy json first s) (hstep : Step json s label s') : Roomy json first s' := by
  have hjoined := h.toJoined.step hstep
  cases label with
  | controller label =>
      obtain ⟨hlines, hguarded⟩ := h.guarded.step h.opened h.lines
        (core_of_reachable h.controller) hstep.1
      exact ⟨hjoined, h.opened, hlines, hguarded⟩
  | writer input =>
      have hsame : s'.controller = s.controller := hstep.1
      exact ⟨hjoined, h.opened, hsame ▸ h.lines, hsame ▸ h.guarded⟩

theorem roomy_of_init {json : Library} {s : Capture} (h : (system json).init s) :
    Roomy json s.writer s := by
  have hjoined := joined_of_init h
  obtain ⟨venue, symbols, subscription, pipeline, options, hasTerminalCallback, hsubscription,
    hpipeline, hcreate, hstart⟩ := h
  obtain ⟨-, -, -, hwriter⟩ := CsvWriter.start_some hstart
  have hsame : pipeline.subscription = subscription := by
    unfold LiveEventPipeline.create at hpipeline
    split at hpipeline
    · cases hpipeline
    split at hpipeline <;> cases hpipeline
    rfl
  have hopened : Opened s.writer := ⟨hjoined.init, by rw [hwriter]; rfl, by rw [hwriter]; rfl⟩
  have htargets : s.writer.output.targets.length = subscription.symbols.length := by
    rw [hwriter]
    exact List.length_replicate
  unfold LiveCaptureController.create at hcreate
  split at hcreate
  · cases hcreate
  obtain hc := Option.some.inj hcreate
  refine ⟨hjoined, hopened, ⟨?_, ?_, ?_, ?_⟩, .inr ⟨?_, ?_⟩⟩ <;> rw [← hc]
  · exact CsvWriter.neverFull_nil
  · exact fun h => by cases h
  · rfl
  · rw [htargets, hsame]
  · exact fun h => by cases h
  · intro t ht
    obtain rfl := Option.some.inj ht
    exact ⟨⟨rfl, fun h => by cases h⟩, fun h => by cases h⟩

theorem roomy_of_reachable {json : Library} {s : Capture}
    (h : Transition.Reachable (system json) s) : ∃ first, Roomy json first s := by
  refine Transition.Reachable.invariant (P := fun s => ∃ first, Roomy json first s) ?_ ?_ h
  · exact fun s hinit => ⟨s.writer, roomy_of_init hinit⟩
  · rintro s label s' ⟨first, hroomy⟩ hstep
    exact ⟨first, hroomy.step hstep⟩

/-- No message is lost to a full queue: whenever `try_acquire` refused a message the writer had
failed, and whenever `publish` refused a batch it had failed or a counter was at its end. -/
theorem backpressure_headroom {json : Library} {s : Capture}
    (h : Transition.Reachable (system json) s) :
    (∀ error, (.tryAcquire, .acquired (some error)) ∈ s.controller.writerCalls → error = .failed) ∧
      ∀ target error, (.publish target, .published (some error)) ∈ s.controller.writerCalls →
        error = .failed ∨ error = .counterOverflow := by
  obtain ⟨first, hroomy⟩ := roomy_of_reachable h
  have hneverFull := hroomy.lines.neverFull s.writer hroomy.served
  exact ⟨fun error hmem => hneverFull _ hmem, fun target error hmem => hneverFull _ hmem⟩

/-- A message that fills a slot and is published. -/
theorem backpressure_headroom_sample : ∃ s, sampleRun sampleDelivery = some s ∧
    (.tryAcquire, .acquired none) ∈ s.controller.writerCalls ∧
    (.publish 0, .published none) ∈ s.controller.writerCalls ∧
    (∀ error, (.tryAcquire, .acquired (some error)) ∈ s.controller.writerCalls →
      error = .failed) ∧
    ∀ target error, (.publish target, .published (some error)) ∈ s.controller.writerCalls →
      error = .failed ∨ error = .counterOverflow := by
  have hreport : (sampleRun sampleDelivery).map (fun s =>
      (decide ((.tryAcquire, .acquired none) ∈ s.controller.writerCalls),
        decide ((.publish 0, .published none) ∈ s.controller.writerCalls))) = some (true, true) := by
    decide +kernel
  obtain ⟨s, hrun, hfacts⟩ := Option.map_eq_some_iff.mp hreport
  simp only [Prod.mk.injEq, decide_eq_true_eq] at hfacts
  obtain ⟨hacquired, hpublished⟩ := hfacts
  have hroom := backpressure_headroom (sampleRun_reachable hrun)
  exact ⟨s, hrun, hacquired, hpublished, hroom.1, hroom.2⟩

end Capture

end MarketCapture
