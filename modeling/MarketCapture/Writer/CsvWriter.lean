import MarketCapture.Lib.Transition
import MarketCapture.Writer.OutputSet

/-! # The writer queue

One producer hands batches to the writer thread through a ring of slots. Each step is
at most one atomic operation with the local work around it, so a run is a sequentially
consistent interleaving of the two threads. Calls of the producer start when no other
call is under way; what the operating system and the allocator answer, and when the
age-flush timer is due, comes with the step.
-/

namespace MarketCapture

def csvWriterSlotCount : Nat := 4096
def csvWriterByteCapacity : Nat := 64 * 1024 * 1024
def pauseSlots : Nat := csvWriterSlotCount * 3 / 4
def resumeSlots : Nat := csvWriterSlotCount / 2
def pauseBytes : Nat := csvWriterByteCapacity * 3 / 4
def resumeBytes : Nat := csvWriterByteCapacity / 2

/-- One more than the largest 64-bit counter. -/
def counterLimit : Nat := 2 ^ 64

/-- Subtraction of 64-bit counters, which wraps. -/
def wrappingSub (left right : Nat) : Nat := (left + counterLimit - right) % counterLimit

def CsvWriter.checkedAdd (left right : Nat) : Option Nat :=
  if right > counterLimit - 1 - left then none else some (left + right)

inductive CsvWriterAcquireError where
  | closed | failed | alreadyAcquired | slotCapacity
  deriving DecidableEq, Repr

inductive CsvWriterPublishError where
  | noAcquiredSlot | closed | failed | invalidTarget | invalidBatch | byteCapacity | counterOverflow
  deriving DecidableEq, Repr

structure CsvWriterOccupancy where
  slots : Nat
  logicalBytes : Nat
  overflowCapacityBytes : Nat
  deriving DecidableEq, Repr

structure CsvWriterMetrics where
  batchesPublished : Nat := 0
  logicalBytesPublished : Nat := 0
  auditRowsPublished : Nat := 0
  orderBookRowsPublished : Nat := 0
  auditRowsWritten : Nat := 0
  orderBookRowsWritten : Nat := 0
  auditRowsUnwritten : Nat := 0
  orderBookRowsUnwritten : Nat := 0
  slotHighWater : Nat := 0
  byteHighWater : Nat := 0
  ageFlushes : Nat := 0
  overflowBatchesPublished : Nat := 0
  overflowCapacityBytes : Nat := 0
  overflowCapacityHighWater : Nat := 0
  overflowReleaseFailures : Nat := 0
  deriving DecidableEq, Repr

structure CsvWriterResult where
  outputError : Option OutputSetWriteError := none
  metrics : CsvWriterMetrics := {}
  deriving DecidableEq, Repr

/-- Which callbacks the owner gave. -/
structure CsvWriterNotifications where
  hasResume : Bool
  hasFailure : Bool
  deriving DecidableEq, Repr

/-- A slot of the ring. The rows' buffers may have grown beyond their initial capacity. -/
structure Slot where
  batch : EventRowBatch := {}
  auditExcess : Nat := 0
  orderBookExcess : Nat := 0
  targetIndex : Option Nat := none
  logicalBytes : Nat := 0
  overflowCapacityBytes : Nat := 0
  deriving DecidableEq, Repr

/-- Whether the allocator gives the two smaller buffers. -/
structure MemoryAnswers where
  audit : Bool := true
  orderBook : Bool := true
  deriving DecidableEq, Repr

namespace Slot

/-- `clear` of the batch, with the slot's other fields reset. -/
def clear (slot : Slot) : Slot :=
  { auditExcess := slot.auditExcess, orderBookExcess := slot.orderBookExcess }

/-- `release_excess_capacity` of the batch, with the slot's other fields reset. -/
def release (memory : MemoryAnswers) (slot : Slot) : Slot :=
  { auditExcess := if memory.audit then 0 else slot.auditExcess
    orderBookExcess := if memory.orderBook then 0 else slot.orderBookExcess }

/-- The answer of `release_excess_capacity`. -/
def released (memory : MemoryAnswers) (slot : Slot) : Bool :=
  (slot.auditExcess = 0 || memory.audit) && (slot.orderBookExcess = 0 || memory.orderBook)

end Slot

def validBatch (batch : EventRowBatch) (mode : CsvOutputMode) : Bool :=
  if !batch.hasAuditRow && !batch.hasOrderBookRow then false
  else if batch.hasAuditRow = batch.auditRow.isEmpty ∨
      batch.hasOrderBookRow = batch.orderBookRow.isEmpty then false
  else if mode = .liveCapture then !batch.hasOrderBookRow || batch.hasAuditRow
  else !batch.hasAuditRow

/-- The calls of the producer; `fill` writes the batch it got from `try_acquire`. -/
inductive Call where
  | tryAcquire
  | fill (batch : EventRowBatch) (auditExcess orderBookExcess : Nat)
  | publish (target : Nat)
  | cancel
  | shouldPause
  | belowResumeWatermark
  | armResumeNotification
  | failed
  | close
  | join
  deriving DecidableEq, Repr

inductive CallResult where
  | acquired (error : Option CsvWriterAcquireError)
  | filled
  | published (error : Option CsvWriterPublishError)
  | cancelled
  | shouldPause (answer : Bool)
  | belowResumeWatermark (answer : Bool)
  | armed
  | failed (answer : Bool)
  | closed
  | joined (result : CsvWriterResult)
  deriving DecidableEq, Repr

/-- What the three loads of `occupancy` are for. -/
inductive OccupancyUse where
  | highWater | pause | below | resume
  deriving DecidableEq, Repr

/-- Where the producer is: the next atomic operation of the call under way. -/
inductive ProducerPc where
  | idle
  | acquireClosed | acquireFailed | acquireReleased
  | publishStart (target : Nat) | publishClosed (target : Nat) | publishFailed (target : Nat)
  | publishBytes (target : Nat)
  | publishReject (error : CsvWriterPublishError)
  | occupancyReleased (use : OccupancyUse)
  | occupancyBytes (use : OccupancyUse) (released : Nat)
  | occupancyOverflow (use : OccupancyUse) (released releasedBytes : Nat)
  | publishStoreBytes | publishStoreSequence | publishClear | publishNotify
  | armClosed | armFailed | armStore | armExchange
  | failedLoad
  | closeStore (join : Bool)
  | joinWait
  deriving DecidableEq, Repr

/-- Where `release_slot` goes on: the loop that writes, with the error of its write, or
`discard_published`. Both keep the number of published batches they loaded. -/
inductive ReleaseUse where
  | written (published : Nat) (error : Option OutputSetWriteError)
  | discarded (published : Nat)
  deriving DecidableEq, Repr

/-- Where `latch_output_failure` goes on. -/
inductive LatchUse where
  | written (published : Nat) | flushed | closed
  deriving DecidableEq, Repr

/-- Where the writer thread is in `run`. -/
inductive WriterPc where
  | loadPublished
  | drain (published : Nat)
  | write (published : Nat)
  | releaseBytes (use : ReleaseUse) | releaseOverflow (use : ReleaseUse)
  | releaseSequence (use : ReleaseUse)
  | resumePublished (use : ReleaseUse) | resumeBytes (use : ReleaseUse) (published : Nat)
  | resumeExchange (use : ReleaseUse)
  | latchFailed (use : LatchUse) (error : OutputSetWriteError)
  | latchNotify (use : LatchUse) | latchWait (use : LatchUse)
  | drained
  | discardLoad | discard (published : Nat)
  | ageFlush
  | closeRequested | closePublished
  | sleep | asleep
  | closing | finishing | done
  deriving DecidableEq, Repr

/-- What a run has done so far; nothing of it is read by the code. -/
structure History where
  /-- The slots as published, in order. -/
  log : List Slot := []
  /-- The slots as the writer found them when it released them. -/
  freed : List Slot := []
  /-- The calls of `publish` that returned without an error. -/
  returned : Nat := 0
  arms : Nat := 0
  resumeNotifications : Nat := 0
  failureNotifications : Nat := 0
  /-- The errors of writes, flushes and the close, in order. -/
  errors : List OutputSetWriteError := []
  latchReturned : Bool := false
  deriving DecidableEq, Repr

structure CsvWriter where
  output : CsvOutputSet
  notifications : CsvWriterNotifications
  slots : Nat → Slot := fun _ => {}
  publishedSequence : Nat := 0
  releasedSequence : Nat := 0
  bytesPublished : Nat := 0
  bytesReleased : Nat := 0
  overflowBytesReleased : Nat := 0
  closeRequested : Bool := false
  writerFailed : Bool := false
  publishActive : Bool := false
  writerSleeping : Bool := false
  resumeNotificationArmed : Bool := false
  failureNotificationSent : Bool := false
  producerSequence : Nat := 0
  producerBytes : Nat := 0
  producerOverflowBytes : Nat := 0
  slotAcquired : Bool := false
  consumerSequence : Nat := 0
  consumerBytes : Nat := 0
  consumerOverflowBytes : Nat := 0
  metrics : CsvWriterMetrics := {}
  finalResult : CsvWriterResult := {}
  producerPc : ProducerPc := .idle
  writerPc : WriterPc := .loadPublished
  /-- What the last call returned. -/
  outcome : Option CallResult := none
  history : History := {}

/-- What comes with a step of the writer thread. -/
structure WriterInput where
  answers : FileAnswers := {}
  memory : MemoryAnswers := {}
  flushDue : Bool := false
  deriving DecidableEq, Repr

inductive WriterLabel where
  | call (call : Call) (memory : MemoryAnswers)
  | producer (memory : MemoryAnswers)
  | writer (input : WriterInput)
  deriving DecidableEq, Repr

namespace CsvWriter

def start (output : CsvOutputSet) (notifications : CsvWriterNotifications) : Option CsvWriter :=
  if output.closed || output.firstError.isSome || output.targets.length = 0 then none
  else some { output := output, notifications := notifications }

/-! ## The producer -/

/-- The end of a call. -/
def returns (s : CsvWriter) (result : CallResult) : CsvWriter :=
  { s with producerPc := .idle, outcome := some result }

def producerIndex (s : CsvWriter) : Nat := s.producerSequence % csvWriterSlotCount

def producerSlot (s : CsvWriter) : Slot := s.slots s.producerIndex

def setProducerSlot (s : CsvWriter) (slot : Slot) : CsvWriter :=
  { s with slots := Function.update s.slots s.producerIndex slot }

/-- The local work of `cancel`. -/
def cancel (memory : MemoryAnswers) (s : CsvWriter) : CsvWriter :=
  if s.slotAcquired then
    { s.setProducerSlot (s.producerSlot.release memory) with slotAcquired := false }
  else s

/-- The entry into a call, up to its first atomic operation. -/
def call (memory : MemoryAnswers) (s : CsvWriter) : Call → Option CsvWriter
  | .tryAcquire =>
      if s.slotAcquired then some (s.returns (.acquired (some .alreadyAcquired)))
      else some { s with producerPc := .acquireClosed }
  | .fill batch auditExcess orderBookExcess =>
      if s.slotAcquired then
        some ((s.setProducerSlot { s.producerSlot with
          batch := batch
          auditExcess := auditExcess
          orderBookExcess := orderBookExcess }).returns .filled)
      else none
  | .publish target =>
      if s.slotAcquired then some { s with producerPc := .publishStart target }
      else some (s.returns (.published (some .noAcquiredSlot)))
  | .cancel => some ((s.cancel memory).returns .cancelled)
  | .shouldPause => some { s with producerPc := .occupancyReleased .pause }
  | .belowResumeWatermark => some { s with producerPc := .occupancyReleased .below }
  | .armResumeNotification =>
      if s.notifications.hasResume then some { s with producerPc := .armClosed }
      else some (s.returns .armed)
  | .failed => some { s with producerPc := .failedLoad }
  | .close => some { s.cancel memory with producerPc := .closeStore false }
  | .join => some { s.cancel memory with producerPc := .closeStore true }

def overflowIncrement (slot : Slot) : Nat := slot.auditExcess + slot.orderBookExcess

def batchBytes (batch : EventRowBatch) : Nat := batch.auditRow.length + batch.orderBookRow.length

/-- The counters of `metrics` that `publish` raises. -/
def countPublished (metrics : CsvWriterMetrics) (batch : EventRowBatch)
    (increment nextOverflowBytes : Nat) : CsvWriterMetrics :=
  { metrics with
    batchesPublished := metrics.batchesPublished + 1
    logicalBytesPublished := metrics.logicalBytesPublished + batchBytes batch
    auditRowsPublished := metrics.auditRowsPublished + batch.auditCount
    orderBookRowsPublished := metrics.orderBookRowsPublished + batch.orderBookCount
    overflowBatchesPublished :=
      metrics.overflowBatchesPublished + if increment ≠ 0 then 1 else 0
    overflowCapacityBytes :=
      if increment ≠ 0 then nextOverflowBytes else metrics.overflowCapacityBytes }

/-- The body of `publish` from the load of `bytes_released` to its local stores. -/
def publishBatch (s : CsvWriter) (target : Nat) : CsvWriter :=
  let slot := s.producerSlot
  let logicalBytes := batchBytes slot.batch
  let occupiedBytes := wrappingSub s.producerBytes s.bytesReleased
  if logicalBytes > csvWriterByteCapacity ∨
      occupiedBytes > csvWriterByteCapacity - logicalBytes then
    { s with producerPc := .publishReject .byteCapacity }
  else
    let increment := overflowIncrement slot
    match checkedAdd s.producerSequence 1, checkedAdd s.producerBytes logicalBytes,
        checkedAdd s.metrics.overflowCapacityBytes increment,
        checkedAdd s.producerOverflowBytes increment with
    | some nextSequence, some nextBytes, some nextOverflowBytes, some nextActiveOverflowBytes =>
        let slot := { slot with
          targetIndex := some target
          logicalBytes := logicalBytes
          overflowCapacityBytes := increment }
        { s.setProducerSlot slot with
          producerSequence := nextSequence
          producerBytes := nextBytes
          producerOverflowBytes := nextActiveOverflowBytes
          slotAcquired := false
          metrics := countPublished s.metrics slot.batch increment nextOverflowBytes
          producerPc := .occupancyReleased .highWater
          history := { s.history with log := s.history.log ++ [slot] } }
    | _, _, _, _ => { s with producerPc := .publishReject .counterOverflow }

/-- The answer of `occupancy` for loaded counters. -/
def occupancy (s : CsvWriter) (released releasedBytes releasedOverflow : Nat) :
    CsvWriterOccupancy :=
  { slots := s.producerSequence - released
    logicalBytes := s.producerBytes - releasedBytes
    overflowCapacityBytes := s.producerOverflowBytes - releasedOverflow }

def shouldPause (occupancy : CsvWriterOccupancy) : Bool :=
  occupancy.slots ≥ pauseSlots || occupancy.logicalBytes ≥ pauseBytes

def belowResumeWatermark (occupancy : CsvWriterOccupancy) : Bool :=
  occupancy.slots < resumeSlots && occupancy.logicalBytes < resumeBytes

/-- Where the callers of `occupancy` go on. -/
def useOccupancy (s : CsvWriter) (use : OccupancyUse) (current : CsvWriterOccupancy) :
    CsvWriter :=
  match use with
  | .highWater =>
      { s with
        producerPc := .publishStoreBytes
        metrics := { s.metrics with
          slotHighWater := max s.metrics.slotHighWater current.slots
          byteHighWater := max s.metrics.byteHighWater current.logicalBytes
          overflowCapacityHighWater :=
            max s.metrics.overflowCapacityHighWater current.overflowCapacityBytes } }
  | .pause => s.returns (.shouldPause (shouldPause current))
  | .below => s.returns (.belowResumeWatermark (belowResumeWatermark current))
  | .resume =>
      if belowResumeWatermark current then { s with producerPc := .armExchange }
      else s.returns .armed

/-- The callback `notify_resume`. -/
def notifyResume (s : CsvWriter) : CsvWriter :=
  { s with history := { s.history with
      resumeNotifications := s.history.resumeNotifications + 1 } }

/-- The next atomic operation of the call under way. -/
def producerStep (memory : MemoryAnswers) (s : CsvWriter) : Option CsvWriter :=
  match s.producerPc with
  | .idle => none
  | .acquireClosed =>
      if s.closeRequested then some (s.returns (.acquired (some .closed)))
      else some { s with producerPc := .acquireFailed }
  | .acquireFailed =>
      if s.writerFailed then some (s.returns (.acquired (some .failed)))
      else some { s with producerPc := .acquireReleased }
  | .acquireReleased =>
      if wrappingSub s.producerSequence s.releasedSequence ≥ csvWriterSlotCount then
        some (s.returns (.acquired (some .slotCapacity)))
      else
        some ({ s.setProducerSlot s.producerSlot.clear with
          slotAcquired := true }.returns (.acquired none))
  | .publishStart target =>
      some { s with publishActive := true, producerPc := .publishClosed target }
  | .publishClosed target =>
      if s.closeRequested then some { s with producerPc := .publishReject .closed }
      else some { s with producerPc := .publishFailed target }
  | .publishFailed target =>
      if s.writerFailed then some { s with producerPc := .publishReject .failed }
      else if target ≥ s.output.targets.length then
        some { s with producerPc := .publishReject .invalidTarget }
      else if !validBatch s.producerSlot.batch s.output.mode then
        some { s with producerPc := .publishReject .invalidBatch }
      else some { s with producerPc := .publishBytes target }
  | .publishBytes target => some (s.publishBatch target)
  | .publishReject error =>
      some ({ s.setProducerSlot (s.producerSlot.release memory) with
        slotAcquired := false
        publishActive := false }.returns (.published (some error)))
  | .occupancyReleased use =>
      some { s with producerPc := .occupancyBytes use s.releasedSequence }
  | .occupancyBytes use released =>
      some { s with producerPc := .occupancyOverflow use released s.bytesReleased }
  | .occupancyOverflow use released releasedBytes =>
      some (s.useOccupancy use (s.occupancy released releasedBytes s.overflowBytesReleased))
  | .publishStoreBytes =>
      some { s with bytesPublished := s.producerBytes, producerPc := .publishStoreSequence }
  | .publishStoreSequence =>
      some { s with publishedSequence := s.producerSequence, producerPc := .publishClear }
  | .publishClear => some { s with publishActive := false, producerPc := .publishNotify }
  | .publishNotify =>
      -- the wake-up of a sleeping writer changes no state: a sleep may end at any time
      some ({ s with history := { s.history with
        returned := s.history.returned + 1 } }.returns (.published none))
  | .armClosed =>
      if s.closeRequested then some (s.returns .armed)
      else some { s with producerPc := .armFailed }
  | .armFailed =>
      if s.writerFailed then some (s.returns .armed) else some { s with producerPc := .armStore }
  | .armStore =>
      some { s with
        resumeNotificationArmed := true
        producerPc := .occupancyReleased .resume
        history := { s.history with arms := s.history.arms + 1 } }
  | .armExchange =>
      let s' := { s with resumeNotificationArmed := false }.returns .armed
      some (if s.resumeNotificationArmed then s'.notifyResume else s')
  | .failedLoad => some (s.returns (.failed s.writerFailed))
  | .closeStore join =>
      if join then some { s with closeRequested := true, producerPc := .joinWait }
      else some ({ s with closeRequested := true }.returns .closed)
  | .joinWait =>
      if s.writerPc = .done then some (s.returns (.joined s.finalResult)) else none

/-! ## The writer thread -/

def consumerIndex (s : CsvWriter) : Nat := s.consumerSequence % csvWriterSlotCount

def consumerSlot (s : CsvWriter) : Slot := s.slots s.consumerIndex

/-- The errors of the output set are kept in order. -/
def recordError (s : CsvWriter) (error : Option OutputSetWriteError) : CsvWriter :=
  { s with history := { s.history with errors := s.history.errors ++ error.toList } }

/-- `release_slot` up to its first store. -/
def releaseSlot (memory : MemoryAnswers) (s : CsvWriter) : CsvWriter :=
  let slot := s.consumerSlot
  { s with
    consumerBytes := s.consumerBytes + slot.logicalBytes
    consumerOverflowBytes := s.consumerOverflowBytes + slot.overflowCapacityBytes
    metrics := { s.metrics with
      overflowReleaseFailures :=
        s.metrics.overflowReleaseFailures + if slot.released memory then 0 else 1 }
    slots := Function.update s.slots s.consumerIndex (slot.release memory)
    consumerSequence := s.consumerSequence + 1
    bytesReleased := s.consumerBytes + slot.logicalBytes
    history := { s.history with freed := s.history.freed ++ [slot] } }

/-- Where the callers of `release_slot` go on. -/
def afterRelease : ReleaseUse → WriterPc
  | .written published none => .drain published
  | .written published (some error) => .latchFailed (.written published) error
  | .discarded published => .discard published

/-- Where the callers of `latch_output_failure` go on. -/
def afterLatch : LatchUse → WriterPc
  | .written published => .drain published
  | .flushed => .discardLoad
  | .closed => .finishing

/-- The end of `run`: the counts of the output set and what is missing. -/
def finish (s : CsvWriter) : CsvWriter :=
  let written := s.output.metrics
  let metrics := { s.metrics with
    auditRowsWritten := written.auditRowsWritten
    orderBookRowsWritten := written.orderBookRowsWritten
    auditRowsUnwritten := s.metrics.auditRowsPublished - written.auditRowsWritten
    orderBookRowsUnwritten := s.metrics.orderBookRowsPublished - written.orderBookRowsWritten }
  { s with
    metrics := metrics
    finalResult := { s.finalResult with metrics := metrics }
    writerPc := .done }

/-- The next atomic operation of `run`. -/
def writerStep (input : WriterInput) (s : CsvWriter) : Option CsvWriter :=
  match s.writerPc with
  | .loadPublished => some { s with writerPc := .drain s.publishedSequence }
  | .drain published =>
      if s.consumerSequence < published then
        if s.writerFailed then some { s with writerPc := .drained }
        else some { s with writerPc := .write published }
      else some { s with writerPc := .drained }
  | .write published =>
      let slot := s.consumerSlot
      let r := s.output.writeBatch input.answers slot.targetIndex slot.batch
      some ({ s with output := r.2, writerPc := .releaseBytes (.written published r.1) }.recordError
        r.1)
  | .releaseBytes use => some { s.releaseSlot input.memory with writerPc := .releaseOverflow use }
  | .releaseOverflow use =>
      some { s with
        overflowBytesReleased := s.consumerOverflowBytes
        writerPc := .releaseSequence use }
  | .releaseSequence use =>
      some { s with
        releasedSequence := s.consumerSequence
        writerPc := if s.notifications.hasResume then .resumePublished use else afterRelease use }
  | .resumePublished use => some { s with writerPc := .resumeBytes use s.publishedSequence }
  | .resumeBytes use published =>
      if wrappingSub published s.consumerSequence < resumeSlots ∧
          wrappingSub s.bytesPublished s.consumerBytes < resumeBytes then
        some { s with writerPc := .resumeExchange use }
      else some { s with writerPc := afterRelease use }
  | .resumeExchange use =>
      let s' := { s with resumeNotificationArmed := false, writerPc := afterRelease use }
      some (if s.resumeNotificationArmed then s'.notifyResume else s')
  | .latchFailed use error =>
      some { s with
        finalResult := { s.finalResult with
          outputError := s.finalResult.outputError.orElse fun _ => some error }
        writerFailed := true
        writerPc := .latchNotify use }
  | .latchNotify use =>
      if s.notifications.hasFailure then
        some { s with
          failureNotificationSent := true
          writerPc := .latchWait use
          history := { s.history with
            failureNotifications := s.history.failureNotifications +
              if s.failureNotificationSent then 0 else 1 } }
      else some { s with writerPc := .latchWait use }
  | .latchWait use =>
      if s.publishActive then some s
      else some { s with
        writerPc := afterLatch use
        history := { s.history with latchReturned := true } }
  | .drained =>
      if s.writerFailed then some { s with writerPc := .discardLoad }
      else some { s with writerPc := .ageFlush }
  | .discardLoad => some { s with writerPc := .discard s.publishedSequence }
  | .discard published =>
      if s.consumerSequence < published then
        some { s with writerPc := .releaseBytes (.discarded published) }
      else some { s with writerPc := .closing }
  | .ageFlush =>
      let before := s.output.metrics
      if input.flushDue ∧ (before.auditRowsBuffered ≠ 0 ∨ before.orderBookRowsBuffered ≠ 0) then
        let r := s.output.flushAll input.answers
        match r.1 with
        | some error =>
            some ({ s with output := r.2, writerPc := .latchFailed .flushed error }.recordError
              (some error))
        | none =>
            some { s with
              output := r.2
              metrics := { s.metrics with ageFlushes := s.metrics.ageFlushes + 1 }
              writerPc := .closeRequested }
      else some { s with writerPc := .closeRequested }
  | .closeRequested =>
      some { s with writerPc := if s.closeRequested then .closePublished else .sleep }
  | .closePublished =>
      some { s with
        writerPc := if s.consumerSequence = s.publishedSequence then .closing else .sleep }
  | .sleep => some { s with writerSleeping := true, writerPc := .asleep }
  | .asleep => some { s with writerSleeping := false, writerPc := .loadPublished }
  | .closing =>
      let r := s.output.closeAll input.answers
      match r.1 with
      | some error =>
          some ({ s with output := r.2, writerPc := .latchFailed .closed error }.recordError
            (some error))
      | none => some { s with output := r.2, writerPc := .finishing }
  | .finishing => some s.finish
  | .done => none

/-- A step of either thread; a call starts when none is under way. -/
def step (s : CsvWriter) : WriterLabel → Option CsvWriter
  | .call c memory => if s.producerPc = .idle then s.call memory c else none
  | .producer memory => s.producerStep memory
  | .writer input => s.writerStep input

/-- The writer over files that were just created. -/
def system : Transition.System CsvWriter WriterLabel where
  init s := ∃ mode targetCount notifications,
    start (.opened mode targetCount) notifications = some s
  step s label s' := s.step label = some s'

/-- A run over given labels. -/
def run (s : CsvWriter) : List WriterLabel → Option CsvWriter
  | [] => some s
  | label :: labels => (s.step label).bind fun s' => s'.run labels

theorem exec_of_run {s s' : CsvWriter} {labels : List WriterLabel} (h : s.run labels = some s') :
    Transition.Exec system s labels s' := by
  induction labels generalizing s with
  | nil =>
      obtain rfl := Option.some.inj h
      exact .nil s
  | cons label labels ih =>
      obtain ⟨t, hstep, hrun⟩ := Option.bind_eq_some_iff.mp h
      exact Transition.Exec.cons hstep (ih hrun)

/-- A state that an evaluated run reaches. -/
theorem exists_of_run {mode : CsvOutputMode} {targetCount : Nat}
    {notifications : CsvWriterNotifications} {labels : List WriterLabel} {p : CsvWriter → Bool}
    (h : ((start (.opened mode targetCount) notifications).bind fun s => s.run labels).any p = true) :
    ∃ s, Transition.Reachable system s ∧ p s = true := by
  generalize hs : ((start (.opened mode targetCount) notifications).bind fun s => s.run labels) = r
    at h
  cases r with
  | none => cases h
  | some s =>
      obtain ⟨s₀, hstart, hrun⟩ := Option.bind_eq_some_iff.mp hs
      exact ⟨s, ⟨s₀, labels, ⟨mode, targetCount, notifications, hstart⟩, exec_of_run hrun⟩, h⟩

/-- The labels of a call that runs undisturbed, and of undisturbed steps of the writer. -/
def alone (c : Call) (steps : Nat) : List WriterLabel :=
  .call c {} :: List.replicate steps (.producer {})

def writerAlone (steps : Nat) : List WriterLabel := List.replicate steps (.writer {})

end CsvWriter

end MarketCapture
