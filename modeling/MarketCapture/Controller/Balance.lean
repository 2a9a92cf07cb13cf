import MarketCapture.Controller.Beside

/-! # The balance of messages

Every message that is counted is published, rejected before audit, or the one that failed. The
counters are raised in different callbacks; `Tally` is what holds between them at every point of a
message, with the messages that are counted and not yet disposed of, and `Balanced` what holds
between the callbacks.
-/

namespace MarketCapture

open Simdjson

def isFailedPublish : Call × CallResult → Bool
  | (.publish _, .published (some _)) => true
  | _ => false

namespace LiveCaptureController

open ControllerEvent

structure Tally (pending : Nat) (c : LiveCaptureController) : Prop where
  complete : c.result.metrics.completeMessages = c.result.metrics.batchesPublished +
    c.result.metrics.preAuditRejections + c.failures + pending
  processed : c.result.metrics.processedEvents = c.result.metrics.outcomes
  audit : c.view.auditRows = c.result.metrics.batchesPublished
  orderBook : c.writerCalls.countP isFailedPublish = 0 → c.view.orderBookRows =
    c.result.metrics.appliedRefreshes + c.result.metrics.appliedDiffs
  joined : c.terminal = true → (.join, .joined c.result.writer) ∈ c.writerCalls

/-- A failed message is the last. -/
structure Balanced (c : LiveCaptureController) : Prop extends Tally 0 c where
  settled : 0 < c.failures → c.failures = 1 ∧ c.failureLatched = true

/-- The calls that leave the rows and the failures alone. -/
def Neutral : Call × CallResult → Bool
  | (.publish _, _) => false
  | (.tryAcquire, .acquired (some _)) => false
  | _ => true

section Frames

variable {c : LiveCaptureController} {pending : Nat}

theorem Neutral.rows {entry : Call × CallResult} (h : Neutral entry = true) (v : ProducerView) :
    (v.after entry).auditRows = v.auditRows ∧ (v.after entry).orderBookRows = v.orderBookRows := by
  obtain ⟨call, result⟩ := entry
  cases call with
  | publish => cases h
  | tryAcquire => cases result with
    | acquired error => cases error <;> exact ⟨rfl, rfl⟩
    | _ => exact ⟨rfl, rfl⟩
  | _ => exact ⟨rfl, rfl⟩

theorem Neutral.failed {entry : Call × CallResult} (h : Neutral entry = true) :
    isFailedCall entry = false ∧ isFailedPublish entry = false := by
  obtain ⟨call, result⟩ := entry
  cases call with
  | publish => cases h
  | tryAcquire => cases result with
    | acquired error => cases error <;> first | exact ⟨rfl, rfl⟩ | cases h
    | _ => exact ⟨rfl, rfl⟩
  | _ => exact ⟨rfl, rfl⟩

theorem failures_count (c : LiveCaptureController) (f : LiveCaptureMetrics → LiveCaptureMetrics) :
    (c.count f).failures = c.failures := by
  unfold failures
  rfl

theorem view_count (c : LiveCaptureController) (f : LiveCaptureMetrics → LiveCaptureMetrics) :
    (c.count f).view = c.view := by
  unfold view
  rfl

/-- Counting other things. -/
theorem Tally.count (h : Tally pending c) {f : LiveCaptureMetrics → LiveCaptureMetrics}
    {pending' : Nat}
    (hcomplete : (f c.result.metrics).completeMessages = (f c.result.metrics).batchesPublished +
      (f c.result.metrics).preAuditRejections + c.failures + pending')
    (hprocessed : (f c.result.metrics).processedEvents = (f c.result.metrics).outcomes)
    (hbatches : (f c.result.metrics).batchesPublished = c.result.metrics.batchesPublished)
    (happlied : (f c.result.metrics).appliedRefreshes + (f c.result.metrics).appliedDiffs =
      c.result.metrics.appliedRefreshes + c.result.metrics.appliedDiffs) :
    Tally pending' (c.count f) := by
  refine ⟨?_, hprocessed, ?_, fun hnone => ?_, h.joined⟩
  · rw [failures_count]
    exact hcomplete
  · rw [view_count]
    exact h.audit.trans hbatches.symm
  · rw [view_count]
    exact (h.orderBook hnone).trans happlied.symm

theorem Tally.calling (h : Tally pending c) {call : Call} {result : CallResult}
    (hneutral : Neutral (call, result) = true) : Tally pending (c.calling call result) := by
  obtain ⟨haudit, hbook⟩ := Neutral.rows hneutral c.view
  obtain ⟨hcall, hpublish⟩ := Neutral.failed hneutral
  have hfailures : (c.calling call result).failures = c.failures := by
    rw [failures_calling, hcall]
    rfl
  refine ⟨?_, h.processed, ?_, fun hnone => ?_, fun hterminal => ?_⟩
  · rw [hfailures]
    exact h.complete
  · rw [view_calling, haudit]
    exact h.audit
  · rw [view_calling, hbook]
    refine h.orderBook ?_
    simpa [LiveCaptureController.calling, List.countP_append, hpublish] using hnone
  · exact List.mem_append_left _ (h.joined hterminal)

theorem Tally.record (h : Tally pending c) (event : ControllerEvent)
    (hfailed : event.isFailedMessage = false) : Tally pending (c.record event) := by
  have hfailures : (c.record event).failures = c.failures := by
    rw [failures_record, hfailed]
    rfl
  refine { h with complete := ?_ }
  rw [hfailures]
  exact h.complete

/-- What the balance depends on. -/
theorem Tally.same (h : Tally pending c) {c' : LiveCaptureController}
    (hmetrics : c'.result.metrics.balance = c.result.metrics.balance)
    (hcalls : c'.writerCalls = c.writerCalls) (hlog : c'.log = c.log)
    (hterminal : c'.terminal = c.terminal) (hwriter : c'.result.writer = c.result.writer) :
    Tally pending c' := by
  simp only [LiveCaptureMetrics.balance, Prod.mk.injEq] at hmetrics
  obtain ⟨hcomplete, hbatches, hrejected, hprocessed, houtcomes, happlied⟩ := hmetrics
  have hfailures : c'.failures = c.failures := by rw [failures, hcalls, hlog, failures]
  have hview : c'.view = c.view := by rw [view, hcalls, view]
  refine ⟨?_, ?_, ?_, ?_, ?_⟩
  · rw [hcomplete, hbatches, hrejected, hfailures]
    exact h.complete
  · rw [hprocessed, houtcomes]
    exact h.processed
  · rw [hview, hbatches]
    exact h.audit
  · rw [hcalls, hview, happlied]
    exact h.orderBook
  · rw [hterminal, hwriter, hcalls]
    exact h.joined

end Frames

/-- Work beside the messages keeps the balance. -/
theorem Balanced.beside {c c' : LiveCaptureController} (h : Balanced c) (hbeside : Beside c c') :
    Balanced c' := by
  obtain ⟨calls, hcalls, hpassive⟩ := hbeside.calls
  obtain ⟨binary, hbalance⟩ := hbeside.balance
  simp only [LiveCaptureMetrics.balance, Prod.mk.injEq] at hbalance
  obtain ⟨hcomplete, hbatches, hrejected, hprocessed, houtcomes, happlied⟩ := hbalance
  obtain ⟨-, -, haudit, hbook, -⟩ := hbeside.view
  refine ⟨⟨?_, ?_, ?_, ?_, ?_⟩, ?_⟩
  · have hold := h.complete
    rw [hcomplete, hbatches, hrejected, hbeside.failures]
    omega
  · rw [hprocessed, houtcomes]
    exact h.processed
  · rw [haudit, hbatches]
    exact h.audit
  · rw [hcalls, hbook, happlied, List.countP_append]
    exact fun hnone => h.orderBook (Nat.add_eq_zero_iff.mp hnone).1
  · intro hterminal
    rcases hbeside.joined hterminal with ⟨hterminal, hwriter⟩ | hjoined
    · rw [hwriter, hcalls]
      exact List.mem_append_left _ (h.joined hterminal)
    · exact hjoined
  · rw [hbeside.failures]
    exact fun hpos => ⟨(h.settled hpos).1, hbeside.latched (h.settled hpos).2⟩

/-! ## Messages -/

section Messages

variable {c : LiveCaptureController}

theorem balance_recordEnvelopeRejection (m : LiveCaptureMetrics) (error : LiveEnvelopeErrorCode) :
    (m.recordEnvelopeRejection error).balance = m.balance := by
  cases error <;> rfl

/-- An event has one of the nine outcomes. -/
theorem balance_recordEventStatus (m : LiveCaptureMetrics) {status : EventProcessStatus}
    (hprocessed : status ≠ .notProcessed) (haudited : status ≠ .preAuditRejected) :
    (m.recordEventStatus status).balance =
      (m.completeMessages, m.batchesPublished, m.preAuditRejections, m.processedEvents,
        m.outcomes + 1, m.appliedRefreshes + m.appliedDiffs + if status.applied then 1 else 0) := by
  cases status with
  | notProcessed => exact absurd rfl hprocessed
  | preAuditRejected => exact absurd rfl haudited
  | _ =>
    simp only [LiveCaptureMetrics.recordEventStatus, LiveCaptureMetrics.balance,
      LiveCaptureMetrics.outcomes, EventProcessStatus.applied, Prod.mk.injEq, true_and]
    constructor <;> first | omega | simp <;> omega

/-- A message that failed leaves the balance when its failure is latched. -/
theorem Tally.failMessage (h : Tally 0 c) (hone : c.failures = 1) (hlatched : c.failureLatched = false)
    (hterminal : c.terminal = false) (given : Surroundings) (error : LiveCaptureErrorCode) :
    Balanced (c.failMessage given error) := by
  have hrecorded : Tally 0 ((c.record .messageFailed).record (.latched error)) :=
    Tally.record (h.record _ rfl) _ rfl
  have hfailures : ((c.record .messageFailed).record (.latched error)).failures = 1 := by
    rw [failures_record, failures_record, hone]
    rfl
  have hbalanced : Balanced ((c.record .messageFailed).latch error) :=
    ⟨hrecorded.same rfl rfl rfl rfl rfl, fun _ => ⟨hfailures, rfl⟩⟩
  have hfail := beside_fail_latched (c.record .messageFailed) given error (by
    simp [LiveCaptureController.record, hlatched, hterminal])
  exact hbalanced.beside hfail

theorem Balanced.unfailed (h : Balanced c) (hlatched : c.failureLatched = false) :
    c.failures = 0 := by
  by_contra hpos
  rw [(h.settled (Nat.pos_of_ne_zero hpos)).2] at hlatched
  cases hlatched

/-- The counters of an event that is to be published. -/
def countEvent (c : LiveCaptureController) (status : EventProcessStatus) : LiveCaptureController :=
  c.count fun m =>
    ({ m with auditEligibleEvents := m.auditEligibleEvents + 1
              processedEvents := m.processedEvents + 1 }).recordEventStatus status

theorem balance_countEvent (c : LiveCaptureController) {status : EventProcessStatus}
    (hprocessed : status ≠ .notProcessed) (haudited : status ≠ .preAuditRejected) :
    (c.countEvent status).result.metrics.balance =
      (c.result.metrics.completeMessages, c.result.metrics.batchesPublished,
        c.result.metrics.preAuditRejections, c.result.metrics.processedEvents + 1,
        c.result.metrics.outcomes + 1, c.result.metrics.appliedRefreshes +
          c.result.metrics.appliedDiffs + if status.applied then 1 else 0) :=
  balance_recordEventStatus _ hprocessed haudited

theorem Tally.publishFailed (h : Tally 1 c) {status : EventProcessStatus}
    (hprocessed : status ≠ .notProcessed) (haudited : status ≠ .preAuditRejected) (target : Nat)
    (error : CsvWriterPublishError) :
    Tally 0 ((c.countEvent status).calling (.publish target) (.published (some error))) := by
  have hbalance := balance_countEvent c hprocessed haudited
  simp only [LiveCaptureMetrics.balance, Prod.mk.injEq] at hbalance
  obtain ⟨hcomplete, hbatches, hrejected, hevents, houtcomes, -⟩ := hbalance
  have hfailures : ((c.countEvent status).calling (.publish target)
      (.published (some error))).failures = c.failures + 1 := failures_calling _ _ _
  refine ⟨?_, ?_, ?_, fun hnone => ?_, fun hterminal => List.mem_append_left _ (h.joined hterminal)⟩
  · rw [hfailures]
    have hold := h.complete
    show (c.countEvent status).result.metrics.completeMessages =
      (c.countEvent status).result.metrics.batchesPublished +
        (c.countEvent status).result.metrics.preAuditRejections + (c.failures + 1) + 0
    omega
  · exact hevents.trans ((congrArg (· + 1) h.processed).trans houtcomes.symm)
  · rw [view_calling]
    exact h.audit.trans hbatches.symm
  · simp [LiveCaptureController.calling, List.countP_append, isFailedPublish] at hnone

theorem Tally.published {subscription : LiveSubscription} {result : LivePipelineResult}
    {batch : EventRowBatch} (h : Tally 1 c) (hheld : c.view.held = some batch)
    (hready : LiveEventPipeline.ReadyBatch subscription result batch) (target : Nat) :
    Tally 0 (((c.countEvent result.event.status).calling (.publish target) (.published none)).count
      fun m => { m with batchesPublished := m.batchesPublished + 1 }) := by
  have hbalance := balance_countEvent c hready.processed hready.audited
  simp only [LiveCaptureMetrics.balance, Prod.mk.injEq] at hbalance
  obtain ⟨hcomplete, hbatches, hrejected, hevents, houtcomes, happlied⟩ := hbalance
  have hfailures : ((c.countEvent result.event.status).calling (.publish target)
      (.published none)).failures = c.failures := failures_calling _ _ _
  have hview : ((c.countEvent result.event.status).calling (.publish target)
      (.published none)).view = c.view.entered batch := by
    rw [view_calling]
    show c.view.entered (c.view.held.getD {}) = _
    rw [hheld]
    rfl
  refine ⟨?_, ?_, ?_, fun hnone => ?_, fun hterminal => List.mem_append_left _ (h.joined hterminal)⟩
  · have hold := h.complete
    show (c.countEvent result.event.status).result.metrics.completeMessages =
      (c.countEvent result.event.status).result.metrics.batchesPublished + 1 +
        (c.countEvent result.event.status).result.metrics.preAuditRejections +
          ((c.countEvent result.event.status).calling (.publish target)
            (.published none)).failures + 0
    rw [hfailures]
    omega
  · exact hevents.trans ((congrArg (· + 1) h.processed).trans houtcomes.symm)
  · show ((c.countEvent result.event.status).calling (.publish target)
      (.published none)).view.auditRows =
        (c.countEvent result.event.status).result.metrics.batchesPublished + 1
    rw [hview, hbatches, ← h.audit]
    simp [ProducerView.entered, EventRowBatch.auditCount, hready.audit]
  · show ((c.countEvent result.event.status).calling (.publish target)
      (.published none)).view.orderBookRows = _ + _
    have hbefore : c.writerCalls.countP isFailedPublish = 0 := by
      simpa [LiveCaptureController.calling, LiveCaptureController.count,
        LiveCaptureController.countEvent, List.countP_append, isFailedPublish] using hnone
    rw [hview]
    refine Eq.trans ?_ happlied.symm
    rw [← h.orderBook hbefore]
    simp [ProducerView.entered, EventRowBatch.orderBookCount, hready.orderBook]

theorem Balanced.publishBatch {subscription : LiveSubscription} {result : LivePipelineResult}
    {batch : EventRowBatch} (h : Tally 1 c) (hnone : c.failures = 0)
    (hlatched : c.failureLatched = false) (hterminal : c.terminal = false)
    (hheld : c.view.held = some batch)
    (hready : LiveEventPipeline.ReadyBatch subscription result batch) (given : Surroundings) :
    Balanced (c.publishBatch given result).1 := by
  unfold LiveCaptureController.publishBatch
  dsimp only
  split
  · next error hpublished =>
      rw [hpublished]
      generalize hd : LiveCaptureController.calling _ (.publish _) _ = d
      have hfailed : Tally 0 d := by
        rw [← hd]
        exact h.publishFailed hready.processed hready.audited _ error
      have hfailures : d.failures = 1 := by
        rw [← hd, failures_calling]
        exact congrArg (· + 1) hnone
      obtain ⟨hl, ht⟩ : d.failureLatched = false ∧ d.terminal = false := by
        rw [← hd]
        exact ⟨hlatched, hterminal⟩
      refine Tally.failMessage ?_ ?_ ?_ ?_ given _
      · refine Tally.calling ?_ rfl
        exact hfailed.same rfl rfl rfl rfl rfl
      · rw [failures_calling]
        exact hfailures
      · exact hl
      · exact ht
  · next hpublished =>
      rw [hpublished]
      refine Balanced.beside ?_ (beside_pauseIfFull _ given)
      generalize hd : LiveCaptureController.count (LiveCaptureController.calling _ (.publish _) _)
        _ = d
      have htally : Tally 0 d := by
        rw [← hd]
        exact h.published hheld hready _
      have hfailures : d.failures = 0 := by
        rw [← hd]
        exact (failures_calling _ _ _).trans hnone
      have hrecorded := htally.record .published rfl
      refine ⟨hrecorded.same rfl rfl rfl rfl rfl, fun hpos => ?_⟩
      have hstill : (d.record .published).failures = 0 := by
        rw [failures_record, hfailures]
        rfl
      exact absurd hstill (Nat.pos_iff_ne_zero.mp hpos)

/-- A batch that is ready, from any message. -/
theorem process_ready {json : Library} {p p' : LiveEventPipeline} (hok : p.Ok) (hbehind : p.Behind)
    {message : WebSocketTextMessage} {result : LivePipelineResult} {batch : EventRowBatch}
    (h : p.process json message = some (result, batch, p')) :
    p'.subscription = p.subscription ∧ (result.disposition = .batchReady →
      LiveEventPipeline.ReadyBatch p.subscription result batch) := by
  by_cases hadmitted : p.validMessageMetadata message = true ∧
      message.payload.length ≤ maxPayloadBytes
  · obtain ⟨result', batch', q, hprocess, -, -, hsame, hhandled⟩ :=
      LiveEventPipeline.process_admitted json hok hbehind hadmitted.1 hadmitted.2
    rw [h] at hprocess
    simp only [Option.some.injEq, Prod.mk.injEq] at hprocess
    obtain ⟨rfl, rfl, rfl⟩ := hprocess
    refine ⟨hsame.subscription.trans ?_, hhandled.ready⟩
    simp only [LiveEventPipeline.receive]
    split <;> rfl
  · unfold LiveEventPipeline.process at h
    split at h
    · cases h
      exact ⟨rfl, fun h => by cases h⟩
    · next hvalid =>
        split at h
        · cases h
          exact ⟨rfl, fun h => by cases h⟩
        · next hlength => exact absurd ⟨by simpa using hvalid, Nat.not_lt.mp hlength⟩ hadmitted

/-- The message is rejected before audit. -/
theorem Tally.rejected (h : Tally 1 c) (error : LiveEnvelopeErrorCode) :
    Tally 0 (c.count fun m =>
      ({ m with preAuditRejections := m.preAuditRejections + 1 }).recordEnvelopeRejection error) := by
  have hcounted : Tally 0 (c.count fun m =>
      { m with preAuditRejections := m.preAuditRejections + 1 }) := by
    refine h.count ?_ h.processed rfl rfl
    have hold := h.complete
    dsimp only
    omega
  exact hcounted.same (balance_recordEnvelopeRejection _ _) rfl rfl rfl rfl

/-- How a message stands once the pipeline has returned: it is to be disposed of, or it failed. -/
def Standing (result : LivePipelineResult) (c : LiveCaptureController) : Prop :=
  (result.disposition = .batchReady ∨ result.disposition = .preAuditRejected →
    Tally 1 c ∧ c.failures = 0) ∧
  (¬ (result.disposition = .batchReady ∨ result.disposition = .preAuditRejected) →
    Tally 0 c ∧ c.failures = 1)

theorem Standing.calling {result : LivePipelineResult} (h : c.Standing result) {call : Call}
    {answer : CallResult} (hneutral : Neutral (call, answer) = true) :
    (c.calling call answer).Standing result := by
  have hfailures : (c.calling call answer).failures = c.failures := by
    rw [failures_calling, (Neutral.failed hneutral).1]
    rfl
  constructor
  · intro hdisposed
    rw [hfailures]
    exact ⟨(h.1 hdisposed).1.calling hneutral, (h.1 hdisposed).2⟩
  · intro hfatal
    rw [hfailures]
    exact ⟨(h.2 hfatal).1.calling hneutral, (h.2 hfatal).2⟩

theorem Tally.recordProcessed (h : Tally 1 c) (hnone : c.failures = 0)
    (message : WebSocketTextMessage) (result : LivePipelineResult) :
    (c.record (.processed message result)).Standing result := by
  have hfailures := failures_record c (.processed message result)
  rw [hnone] at hfailures
  constructor
  · intro hdisposed
    have hfailed : isFailedMessage (.processed message result) = false := by
      rcases hdisposed with hdisposition | hdisposition <;> simp [isFailedMessage, hdisposition]
    rw [hfailed] at hfailures
    exact ⟨h.record _ hfailed, hfailures⟩
  · intro hfatal
    rw [not_or] at hfatal
    have hfailed : isFailedMessage (.processed message result) = true := by
      simp [isFailedMessage, hfatal.1, hfatal.2]
    rw [hfailed] at hfailures
    refine ⟨⟨?_, h.processed, h.audit, h.orderBook, h.joined⟩, hfailures⟩
    have hold := h.complete
    rw [hnone] at hold
    rw [hfailures]
    exact hold

structure Processed (c : LiveCaptureController) (result : LivePipelineResult)
    (batch : EventRowBatch) : Prop where
  standing : c.Standing result
  latched : c.failureLatched = false
  terminal : c.terminal = false
  held : c.view.held = some batch
  ready : result.disposition = .batchReady →
    LiveEventPipeline.ReadyBatch c.pipeline.subscription result batch

theorem Processed.fatal {result : LivePipelineResult} {batch : EventRowBatch}
    (h : c.Processed result batch) (hready : result.disposition ≠ .batchReady)
    (hrejected : result.disposition ≠ .preAuditRejected) (given : Surroundings)
    (error : LiveCaptureErrorCode) :
    Balanced ((c.calling .cancel .cancelled).failMessage given error) := by
  obtain ⟨htally, hone⟩ := h.standing.2 (not_or.mpr ⟨hready, hrejected⟩)
  refine Tally.failMessage (htally.calling rfl) ?_ h.latched h.terminal given error
  rw [failures_calling]
  exact hone

theorem Processed.onPipelineResult {result : LivePipelineResult} {batch : EventRowBatch}
    (given : Surroundings) (h : c.Processed result batch) :
    Balanced (c.onPipelineResult given result).1 := by
  unfold LiveCaptureController.onPipelineResult
  split
  · next hdisposition =>
      have htally := h.standing.1 (.inl hdisposition)
      exact Balanced.publishBatch htally.1 htally.2 h.latched h.terminal h.held
        (h.ready hdisposition) given
  · next hdisposition =>
      have htally := h.standing.1 (.inr hdisposition)
      have hcancelled : Tally 1 (c.calling .cancel .cancelled) := htally.1.calling rfl
      refine ⟨hcancelled.rejected _, fun hpos => ?_⟩
      have hnone : (c.calling .cancel .cancelled).failures = 0 := by
        rw [failures_calling]
        exact htally.2
      exact absurd hnone (Nat.pos_iff_ne_zero.mp hpos)
  · next hdisposition =>
      exact h.fatal (by simp [hdisposition]) (by simp [hdisposition]) given _
  · next hdisposition =>
      exact h.fatal (by simp [hdisposition]) (by simp [hdisposition]) given _

theorem Balanced.onTextMessage (h : Balanced c) (hpipeline : c.pipeline.Ok ∧ c.pipeline.Behind)
    {json : Library} {given : Surroundings} {generation : UInt64} {message : WebSocketTextMessage}
    {out : LiveCaptureController × Bool}
    (hout : c.onTextMessage json given generation message = some out) : Balanced out.1 := by
  unfold LiveCaptureController.onTextMessage at hout
  split at hout
  · cases hout
    exact h.beside (.of_same rfl rfl rfl rfl rfl rfl rfl)
  split at hout
  · cases hout
    exact h
  · next hguard =>
      rw [Bool.or_eq_true, not_or, Bool.not_eq_true, Bool.not_eq_true] at hguard
      obtain ⟨hterminal, hlatched⟩ := hguard
      have hnone := h.unfailed hlatched
      dsimp only at hout
      generalize hd : LiveCaptureController.count c _ = d at hout
      have hcounted : Tally 1 d := by
        rw [← hd]
        refine h.toTally.count ?_ ?_ rfl rfl
        · have hold := h.complete
          dsimp only
          omega
        · dsimp only [LiveCaptureMetrics.outcomes]
          exact h.processed
      obtain ⟨hfailures, hl, ht, hp⟩ : d.failures = 0 ∧ d.failureLatched = false ∧
          d.terminal = false ∧ d.pipeline = c.pipeline := by
        rw [← hd, failures_count]
        exact ⟨hnone, hlatched, hterminal, rfl⟩
      split at hout
      · next error hacquired =>
          cases hout
          rw [hacquired]
          have hcalled : Tally 0 (d.calling .tryAcquire (.acquired (some error))) := by
            refine ⟨?_, hcounted.processed, ?_, ?_, ?_⟩
            · rw [failures_calling]
              exact hcounted.complete
            · rw [view_calling]
              exact hcounted.audit
            · intro hunpublished
              rw [view_calling]
              exact hcounted.orderBook (by
                simpa [LiveCaptureController.calling, List.countP_append, isFailedPublish]
                  using hunpublished)
            · exact fun hover => List.mem_append_left _ (hcounted.joined hover)
          have hone : (d.calling .tryAcquire (.acquired (some error))).failures = 1 := by
            rw [failures_calling, hfailures]
            rfl
          refine Tally.failMessage ?_ ?_ ?_ ?_ given _
          · refine Tally.calling ?_ rfl
            exact hcalled.same rfl rfl rfl rfl rfl
          · rw [failures_calling]
            exact hone
          · exact hl
          · exact ht
      · next hacquired =>
          rw [hacquired] at hout
          obtain ⟨⟨result, batch, p⟩, hprocess, hout⟩ := Option.bind_eq_some_iff.mp hout
          cases hout
          obtain ⟨hsubscription, hready⟩ := process_ready hpipeline.1 hpipeline.2 (hp ▸ hprocess)
          have hacquired : Tally 1 (d.calling .tryAcquire (.acquired none)) := hcounted.calling rfl
          have hunfailed : (d.calling .tryAcquire (.acquired none)).failures = 0 := by
            rw [failures_calling]
            exact hfailures
          generalize he : LiveCaptureController.calling (LiveCaptureController.record _ _)
            (.fill _ _ _) .filled = e
          obtain ⟨hl', ht'⟩ : e.failureLatched = false ∧ e.terminal = false := by
            rw [← he]
            exact ⟨hl, ht⟩
          have hheld : e.view.held = some batch := by
            rw [← he, view_calling]
            rfl
          have hstanding : e.Standing result := by
            rw [← he]
            exact (hacquired.recordProcessed hunfailed message result).calling rfl
          have hresult : e.result = d.result := by
            rw [← he]
            rfl
          have same : ∀ {pending : Nat}, Tally pending e → Tally pending
              { e with pipeline := p, result := { d.result with pipeline := result } } := by
            intro pending htally
            refine htally.same ?_ rfl rfl rfl ?_
            · rw [hresult]
            · rw [hresult]
          refine Processed.onPipelineResult given ⟨⟨fun hdisposed => ?_, fun hfatal => ?_⟩, hl', ht', hheld, ?_⟩
          · obtain ⟨htally, hfailures⟩ := hstanding.1 hdisposed
            exact ⟨same htally, hfailures⟩
          · obtain ⟨htally, hfailures⟩ := hstanding.2 hfatal
            exact ⟨same htally, hfailures⟩
          · rw [hsubscription]
            exact hready

end Messages

/-! ## Every callback -/

theorem Balanced.step {c c' : LiveCaptureController} (h : Balanced c)
    (hpipeline : c.pipeline.Ok ∧ c.pipeline.Behind) {json : Library} {label : ControllerLabel}
    (hstep : c.step json label = some c') : Balanced c' := by
  rcases step_cases hstep with hbeside |
    ⟨s, s', message, given, out, -, -, -, -, hout, rfl⟩
  · exact h.beside hbeside
  · have hset : Beside c { c with session := some s' } := .of_same rfl rfl rfl rfl rfl rfl rfl
    have hdelivered := h.beside (hset.trans (beside_record _ (.delivered message) rfl))
    exact (hdelivered.onTextMessage hpipeline hout).beside
      (beside_afterSessionCallback out.1 given out.2)

theorem balanced_of_reachable {json : Library} {c : LiveCaptureController}
    (h : Transition.Reachable (system json) c) : Balanced c := by
  have hboth : Core none c ∧ Balanced c := by
    refine Transition.Reachable.invariant (P := fun c => Core none c ∧ Balanced c) ?_
      (fun c label c' hc hstep => ⟨hc.1.step hstep, hc.2.step hc.1.pipeline hstep⟩) h
    rintro c ⟨venue, symbols, subscription, pipeline, options, hasTerminalCallback, hsubscription,
      hpipeline, hcreate⟩
    refine ⟨core_create hsubscription hpipeline hcreate, ?_⟩
    unfold create at hcreate
    split at hcreate <;> cases hcreate
    exact ⟨⟨rfl, rfl, rfl, fun _ => rfl, nofun⟩, fun hpos => by cases hpos⟩
  exact hboth.2

/-- A text message ended in a failure: no slot was acquired for it, the pipeline could not handle
it, or its batch was not published. -/
def MessageFailed (c : LiveCaptureController) : Prop :=
  (∃ error, (.tryAcquire, .acquired (some error)) ∈ c.writerCalls) ∨
    (∃ message result, .processed message result ∈ c.log ∧
      result.disposition ≠ .batchReady ∧ result.disposition ≠ .preAuditRejected) ∨
    ∃ target error, (.publish target, .published (some error)) ∈ c.writerCalls

theorem isFailedCall_iff {entry : Call × CallResult} : isFailedCall entry = true ↔
    (∃ error, entry = (.tryAcquire, .acquired (some error))) ∨
      ∃ target error, entry = (.publish target, .published (some error)) := by
  constructor
  · intro h
    unfold isFailedCall at h
    split at h
    · exact .inl ⟨_, rfl⟩
    · exact .inr ⟨_, _, rfl⟩
    · cases h
  · rintro (⟨error, rfl⟩ | ⟨target, error, rfl⟩) <;> rfl

theorem isFailedMessage_iff {event : ControllerEvent} : event.isFailedMessage = true ↔
    ∃ message result, event = .processed message result ∧ result.disposition ≠ .batchReady ∧
      result.disposition ≠ .preAuditRejected := by
  cases event <;> simp [isFailedMessage]

theorem messageFailed_iff {c : LiveCaptureController} : c.MessageFailed ↔ 0 < c.failures := by
  unfold MessageFailed failures
  rw [Nat.add_pos_iff_pos_or_pos, List.countP_pos_iff, List.countP_pos_iff]
  simp only [isFailedCall_iff, isFailedMessage_iff]
  constructor
  · rintro (⟨error, hmem⟩ | ⟨message, result, hmem, hfailed⟩ | ⟨target, error, hmem⟩)
    · exact .inl ⟨_, hmem, .inl ⟨error, rfl⟩⟩
    · exact .inr ⟨_, hmem, message, result, rfl, hfailed⟩
    · exact .inl ⟨_, hmem, .inr ⟨target, error, rfl⟩⟩
  · rintro (⟨_, hmem, ⟨error, rfl⟩ | ⟨target, error, rfl⟩⟩ | ⟨_, hmem, message, result, rfl, hfailed⟩)
    · exact .inl ⟨error, hmem⟩
    · exact .inr (.inr ⟨target, error, hmem⟩)
    · exact .inr (.inl ⟨message, result, hmem, hfailed⟩)

end LiveCaptureController

namespace Capture

open LiveCaptureController

/-- Between the callbacks, in every state that the controller and the writer reach: every message is
published, rejected before audit or the one that failed, and every row that is published is of a
message; and a run that ends in success has written them all. -/
theorem message_accounting {json : Library} {s : Capture}
    (h : Transition.Reachable (system json) s) :
    let m := s.controller.result.metrics
    let written := s.controller.result.writer.metrics
    ((s.controller.MessageFailed →
        m.completeMessages = m.batchesPublished + m.preAuditRejections + 1) ∧
      (¬ s.controller.MessageFailed →
        m.completeMessages = m.batchesPublished + m.preAuditRejections)) ∧
    m.batchesPublished = s.writer.metrics.auditRowsPublished ∧
    m.processedEvents = m.appliedRefreshes + m.appliedDiffs + m.staleRefreshes + m.staleDiffs +
      m.ignoredWhileInvalid + m.sequenceGaps + m.crossedBooks + m.tradesAudited +
      m.schemaRejections ∧
    ((∀ target error, (.publish target, .published (some error)) ∉ s.controller.writerCalls) →
      s.writer.metrics.orderBookRowsPublished = m.appliedRefreshes + m.appliedDiffs) ∧
    (s.controller.terminal = true → s.controller.result.success = true →
      m.completeMessages = written.auditRowsPublished + m.preAuditRejections ∧
      written.auditRowsWritten = written.auditRowsPublished ∧
      written.orderBookRowsWritten = written.orderBookRowsPublished ∧
      written.auditRowsUnwritten = 0 ∧ written.orderBookRowsUnwritten = 0) := by
  obtain ⟨first, hjoined⟩ := joined_of_reachable h
  have hbalanced := balanced_of_reachable hjoined.controller
  have hcore := core_of_reachable hjoined.controller
  have hview : s.writer.view = s.controller.view := hjoined.view
  have haudit : s.controller.result.metrics.batchesPublished = s.writer.metrics.auditRowsPublished :=
    hbalanced.audit.symm.trans (congrArg ProducerView.auditRows hview).symm
  have hcomplete := hbalanced.complete
  refine ⟨⟨fun hfailed => ?_, fun hnone => ?_⟩, haudit, hbalanced.processed, fun hnone => ?_,
    fun hterminal hsuccess => ?_⟩
  · rw [(hbalanced.settled (messageFailed_iff.mp hfailed)).1] at hcomplete
    exact hcomplete
  · rw [messageFailed_iff, Nat.not_lt, Nat.le_zero] at hnone
    rw [hnone] at hcomplete
    exact hcomplete
  · refine (congrArg ProducerView.orderBookRows hview).trans (hbalanced.orderBook ?_)
    rw [List.countP_eq_zero]
    intro entry hmem hfailed
    unfold isFailedPublish at hfailed
    split at hfailed
    · exact hnone _ _ hmem
    · cases hfailed
  · simp only [LiveCaptureResult.success, CsvWriterResult.success, Bool.and_eq_true,
      decide_eq_true_eq] at hsuccess
    obtain ⟨⟨herror, -⟩, ⟨-, hunwritten⟩, hunwritten'⟩ := hsuccess
    have hlatched : s.controller.failureLatched = false := by
      rw [Bool.eq_false_iff]
      exact fun hlatched => hcore.latchedError hlatched herror
    obtain ⟨hdone, hresult⟩ := hjoined.served.joined hjoined.init (hbalanced.joined hterminal)
    have hwritten := hjoined.inv.written hdone (hresult ▸ hunwritten) (hresult ▸ hunwritten')
    have hpublished := (hjoined.inv.result.final hdone).auditPublished
    rw [← hresult] at hwritten hpublished
    refine ⟨?_, hwritten.1, hwritten.2, hunwritten, hunwritten'⟩
    rw [hbalanced.unfailed hlatched] at hcomplete
    rw [hpublished, ← haudit]
    exact hcomplete

/-! ### A message that is published and written -/

section Sample

private def writtenResult : CsvWriterResult :=
  { metrics :=
      { batchesPublished := 1, logicalBytesPublished := 202, auditRowsPublished := 1
        orderBookRowsPublished := 1, auditRowsWritten := 1, orderBookRowsWritten := 1
        slotHighWater := 1, byteHighWater := 202 } }

/-- One message, and a stop. -/
private def stoppedRun : List ControllerLabel :=
  sampleDelivery ++ [.stop, .requestStopOnIo {}, .session (.closed .none) { joined := writtenResult }]

theorem message_accounting_sample : ∃ s, sampleRun stoppedRun = some s ∧
    s.controller.result.success = true ∧ s.controller.result.metrics.completeMessages = 1 ∧
    s.controller.result.metrics.completeMessages =
      s.controller.result.writer.metrics.auditRowsPublished +
        s.controller.result.metrics.preAuditRejections ∧
    s.controller.result.writer.metrics.auditRowsWritten =
      s.controller.result.writer.metrics.auditRowsPublished := by
  have hreport : (sampleRun stoppedRun).map (fun s => (s.controller.terminal,
      s.controller.result.success, s.controller.result.metrics.completeMessages)) =
      some (true, true, 1) := by
    decide +kernel
  obtain ⟨s, hrun, hfacts⟩ := Option.map_eq_some_iff.mp hreport
  simp only [Prod.mk.injEq] at hfacts
  obtain ⟨hterminal, hsuccess, hcount⟩ := hfacts
  obtain ⟨-, -, -, -, hend⟩ := message_accounting (sampleRun_reachable hrun)
  obtain ⟨hcomplete, hwritten, -, -, -⟩ := hend hterminal hsuccess
  exact ⟨s, hrun, hsuccess, hcount, hcomplete, hwritten⟩

end Sample

end Capture

end MarketCapture
