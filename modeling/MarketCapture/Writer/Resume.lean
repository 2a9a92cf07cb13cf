import MarketCapture.Writer.Queue

/-! # The resume handshake

The producer arms the notification and then looks at the writer's counts; the writer
shows its counts and then looks at the notification. One of the two sees the other's
store, so an armed notification is not left behind below the low-water mark.
-/

namespace MarketCapture

namespace ProducerPc

/-- Inside `publish`. -/
def inPublish : ProducerPc → Bool
  | publishStart _ => true
  | publishClosed _ => true
  | publishFailed _ => true
  | publishBytes _ => true
  | publishReject _ => true
  | occupancyReleased use => use = .highWater
  | occupancyBytes use _ => use = .highWater
  | occupancyOverflow use _ _ => use = .highWater
  | publishStoreBytes => true
  | publishStoreSequence => true
  | publishClear => true
  | publishNotify => true
  | _ => false

/-- Inside `arm_resume_notification`, before its store. -/
def beforeArm : ProducerPc → Bool
  | armClosed => true
  | armFailed => true
  | armStore => true
  | _ => false

/-- Inside `arm_resume_notification`, after its store. -/
def afterArm : ProducerPc → Bool
  | occupancyReleased use => use = .resume
  | occupancyBytes use _ => use = .resume
  | occupancyOverflow use _ _ => use = .resume
  | armExchange => true
  | _ => false

def inArm (pc : ProducerPc) : Bool := pc.beforeArm || pc.afterArm

/-- The recheck under way has not yet found the queue above the mark. -/
def rechecks (produced producedBytes : Nat) : ProducerPc → Prop
  | occupancyReleased use => use = .resume
  | occupancyBytes use released => use = .resume ∧ produced - released < resumeSlots
  | occupancyOverflow use released releasedBytes =>
      use = .resume ∧ produced - released < resumeSlots ∧
        producedBytes - releasedBytes < resumeBytes
  | armExchange => True
  | _ => False

theorem afterArm_of_rechecks {pc : ProducerPc} {produced producedBytes : Nat}
    (h : pc.rechecks produced producedBytes) : pc.afterArm = true := by
  cases pc <;> simp_all [rechecks, afterArm]

theorem phase_of_outside {pc : ProducerPc} (h : pc.inPublish = false) : pc.phase = none := by
  cases pc with
  | occupancyReleased use => cases use <;> first | rfl | cases h
  | occupancyBytes use => cases use <;> first | rfl | cases h
  | occupancyOverflow use => cases use <;> first | rfl | cases h
  | _ => first | rfl | cases h

end ProducerPc

namespace WriterPc

/-- Inside `release_slot`. -/
def inRelease : WriterPc → Bool
  | releaseBytes _ => true
  | releaseOverflow _ => true
  | releaseSequence _ => true
  | resumePublished _ => true
  | resumeBytes _ _ => true
  | resumeExchange _ => true
  | _ => false

/-- The check of a release has not yet found the queue above the mark. -/
def rechecks (consumed : Nat) : WriterPc → Prop
  | releaseOverflow _ => True
  | releaseSequence _ => True
  | resumePublished _ => True
  | resumeBytes _ published => published - consumed < resumeSlots
  | resumeExchange _ => True
  | _ => False

theorem inRelease_of_rechecks {pc : WriterPc} {consumed : Nat} (h : pc.rechecks consumed) :
    pc.inRelease = true := by
  cases pc <;> simp_all [rechecks, inRelease]

theorem releasing_of_outside {pc : WriterPc} (h : pc.inRelease = false) : pc.releasing = false := by
  cases pc <;> first | rfl | cases h

end WriterPc

namespace CsvWriter

/-- Below the low-water mark, by the counts each side keeps for itself. -/
def Below (s : CsvWriter) : Prop :=
  s.producerSequence - s.consumerSequence < resumeSlots ∧
    s.producerBytes - s.consumerBytes < resumeBytes

/-- One of the two sides will still look at the notification. -/
def Rechecked (s : CsvWriter) : Prop :=
  s.producerPc.rechecks s.producerSequence s.producerBytes ∨
    s.writerPc.rechecks s.consumerSequence

structure Resume (s : CsvWriter) : Prop where
  armed : s.resumeNotificationArmed = true → s.notifications.hasResume = true
  arming : s.producerPc.beforeArm = true → s.notifications.hasResume = true
  handshake : s.resumeNotificationArmed = true → s.Below → s.Rechecked
  notified : s.history.resumeNotifications + s.resumeNotificationArmed.toNat ≤ s.history.arms
  checking : ∀ use published, s.writerPc = .resumeBytes use published →
    s.consumerSequence ≤ published ∧ published ≤ s.publishedSequence

variable {memory : MemoryAnswers} {s s' : CsvWriter}

/-- A producer step that does not touch the notification. -/
theorem Resume.of_producer (h : s.Resume) (hframe : ProducerFrame s s')
    (hpublished : s.publishedSequence ≤ s'.publishedSequence)
    (harmed : s'.resumeNotificationArmed = s.resumeNotificationArmed)
    (hhistory : s'.history.resumeNotifications = s.history.resumeNotifications ∧
      s'.history.arms = s.history.arms)
    (harming : s'.producerPc.beforeArm = true → s.notifications.hasResume = true)
    (hhandshake : s.resumeNotificationArmed = true → s'.Below → s.Rechecked → s'.Rechecked)
    (hbelow : s'.Below → s.Below) : s'.Resume := by
  refine ⟨?_, ?_, ?_, ?_, ?_⟩
  · rw [harmed, hframe.notifications]
    exact h.armed
  · rw [hframe.notifications]
    exact harming
  · rw [harmed]
    intro ha hb
    exact hhandshake ha hb (h.handshake ha (hbelow hb))
  · rw [harmed, hhistory.1, hhistory.2]
    exact h.notified
  · rw [hframe.writerPc, hframe.consumerSequence]
    intro use published hpc
    obtain ⟨hle, hle'⟩ := h.checking use published hpc
    exact ⟨hle, hle'.trans hpublished⟩

/-- A recheck of the writer goes on under a step of the producer. -/
theorem Rechecked.of_producer (hframe : ProducerFrame s s') (h : s.Rechecked)
    (hproducer : s.producerPc.rechecks s.producerSequence s.producerBytes → s'.Rechecked) :
    s'.Rechecked := by
  rcases h with hrechecks | hwriter
  · exact hproducer hrechecks
  · right
    rw [hframe.writerPc, hframe.consumerSequence]
    exact hwriter

/-- A producer that is not rechecking leaves the recheck to the writer. -/
theorem Rechecked.of_idle (hpc : s.producerPc.afterArm = false) (hframe : ProducerFrame s s')
    (h : s.Rechecked) : s'.Rechecked := by
  apply h.of_producer hframe
  intro hproducer
  rw [ProducerPc.afterArm_of_rechecks hproducer] at hpc
  cases hpc

theorem call_resume {c : Call} (h : s.Resume) (hidle : s.producerPc = .idle)
    (hs : s.call memory c = some s') : s'.Resume := by
  have hframe := call_frame hs
  have hpc : s.producerPc.afterArm = false := by rw [hidle]; rfl
  refine h.of_producer hframe.toProducerFrame hframe.publishedSequence.ge
    hframe.resumeNotificationArmed (by rw [hframe.history]; exact ⟨rfl, rfl⟩) ?_
    (fun _ _ => Rechecked.of_idle hpc hframe.toProducerFrame) ?_
  · cases c <;> simp only [call] at hs
    case armResumeNotification =>
      split at hs <;> cases hs
      · rename_i hresume
        exact fun _ => hresume
      · exact fun hb => by cases hb
    all_goals
      (try split at hs) <;> cases hs
      all_goals exact fun hb => by cases hb
  · simp only [Below, hframe.producerSequence, hframe.producerBytes, hframe.consumerSequence,
      hframe.consumerBytes]
    exact id

/-- A commit raises the producer's counts. -/
theorem publishBatch_counts (hqueue : s.Queue) (target : Nat) :
    s.producerSequence ≤ (s.publishBatch target).producerSequence ∧
      s.producerBytes ≤ (s.publishBatch target).producerBytes := by
  simp only [publishBatch]
  split
  · exact ⟨Nat.le_refl _, Nat.le_refl _⟩
  · split
    · rename_i hsequence hbytes _ _
      obtain ⟨rfl, -⟩ := checkedAdd_some hqueue.ring.producedLimit hsequence
      obtain ⟨rfl, -⟩ := checkedAdd_some hqueue.ring.weightLimit hbytes
      exact ⟨Nat.le_add_right _ _, Nat.le_add_right _ _⟩
    · exact ⟨Nat.le_refl _, Nat.le_refl _⟩

theorem publishBatch_resume (hqueue : s.Queue) (h : s.Resume) {target : Nat}
    (hpc : s.producerPc = .publishBytes target) : (s.publishBatch target).Resume := by
  have hframe := publishBatch_frame s target
  obtain ⟨hsequence, hbytes⟩ := publishBatch_counts hqueue target
  have hafter : s.producerPc.afterArm = false := by rw [hpc]; rfl
  have hkept : (s.publishBatch target).publishedSequence = s.publishedSequence ∧
      (s.publishBatch target).resumeNotificationArmed = s.resumeNotificationArmed ∧
      (s.publishBatch target).history.resumeNotifications = s.history.resumeNotifications ∧
      (s.publishBatch target).history.arms = s.history.arms ∧
      (s.publishBatch target).producerPc.beforeArm = false := by
    simp only [publishBatch]
    split
    · exact ⟨rfl, rfl, rfl, rfl, rfl⟩
    · split <;> exact ⟨rfl, rfl, rfl, rfl, rfl⟩
  refine h.of_producer hframe hkept.1.ge hkept.2.1 ⟨hkept.2.2.1, hkept.2.2.2.1⟩ ?_
    (fun _ _ => Rechecked.of_idle hafter hframe) ?_
  · rw [hkept.2.2.2.2]
    exact fun hb => by cases hb
  · rw [Below, Below, hframe.consumerSequence, hframe.consumerBytes]
    rintro ⟨hslots, hbytes'⟩
    exact ⟨by omega, by omega⟩

/-- What the producer reads is what the writer keeps, or the writer is still to look. -/
theorem released_or_rechecks (hqueue : s.Queue) :
    s.releasedSequence = s.consumerSequence ∨ s.writerPc.rechecks s.consumerSequence := by
  have hreleased : s.releasedSequence + s.writerPc.releasing.toNat = s.consumerSequence :=
    hqueue.ring.released
  cases hpc : s.writerPc <;> simp only [hpc, WriterPc.releasing, WriterPc.rechecks] at hreleased ⊢ <;>
    first | exact .inl hreleased | exact .inr trivial

theorem useOccupancy_resume (h : s.Resume) {use : OccupancyUse} {released releasedBytes : Nat}
    (hpc : s.producerPc = .occupancyOverflow use released releasedBytes) (releasedOverflow : Nat) :
    (s.useOccupancy use (s.occupancy released releasedBytes releasedOverflow)).Resume := by
  have hframe := useOccupancy_frame s use (s.occupancy released releasedBytes releasedOverflow)
  cases use <;> simp only [useOccupancy] at hframe ⊢
  case resume =>
    split at hframe
    · rename_i hbelow
      rw [if_pos hbelow]
      exact h.of_producer hframe (Nat.le_refl _) rfl ⟨rfl, rfl⟩ (fun hb => by cases hb)
        (fun _ _ _ => .inl trivial) id
    · rename_i habove
      rw [if_neg habove]
      refine h.of_producer hframe (Nat.le_refl _) rfl ⟨rfl, rfl⟩ (fun hb => by cases hb)
        (fun _ _ hrechecked => hrechecked.of_producer hframe fun hproducer => ?_) id
      rw [hpc] at hproducer
      exact absurd (Bool.and_eq_true_iff.mpr
        ⟨decide_eq_true hproducer.2.1, decide_eq_true hproducer.2.2⟩) habove
  all_goals
    exact h.of_producer hframe (Nat.le_refl _) rfl ⟨rfl, rfl⟩ (fun hb => by cases hb)
      (fun _ _ => Rechecked.of_idle (by rw [hpc]; rfl) hframe) id

theorem producerStep_resume (hqueue : s.Queue) (h : s.Resume)
    (hs : s.producerStep memory = some s') : s'.Resume := by
  have hframe := producerStep_frame hs
  have hpublished := (producerStep_follows hqueue.ring hqueue.control hs).published_mono hqueue.ring
  unfold producerStep at hs
  cases hpc : s.producerPc <;> simp only [hpc] at hs
  case publishBytes target =>
    cases hs
    exact publishBatch_resume hqueue h hpc
  case occupancyReleased use =>
    cases hs
    refine h.of_producer hframe hpublished rfl ⟨rfl, rfl⟩ (fun hb => nomatch hb)
      (fun _ hbelow hrechecked => hrechecked.of_producer hframe fun hproducer => ?_) id
    rw [hpc] at hproducer
    rcases released_or_rechecks hqueue with hreleased | hwriter
    · exact .inl ⟨hproducer, by rw [hreleased]; exact hbelow.1⟩
    · exact .inr hwriter
  case occupancyBytes use released =>
    cases hs
    refine h.of_producer hframe hpublished rfl ⟨rfl, rfl⟩ (fun hb => nomatch hb)
      (fun _ hbelow hrechecked => hrechecked.of_producer hframe fun hproducer => .inl ?_) id
    have hbytes : s.bytesReleased = s.consumerBytes := hqueue.ring.releasedWeight
    rw [hpc] at hproducer
    exact ⟨hproducer.1, hproducer.2, by rw [hbytes]; exact hbelow.2⟩
  case occupancyOverflow use released releasedBytes =>
    cases hs
    exact useOccupancy_resume h hpc _
  case armStore =>
    cases hs
    have hresume := h.arming (by rw [hpc]; rfl)
    refine ⟨fun _ => hresume, (fun hb => nomatch hb), fun _ _ => .inl rfl, ?_, h.checking⟩
    have := h.notified
    simp only [Bool.toNat_true]
    omega
  case armExchange =>
    cases hs
    have hnotified := h.notified
    cases harmed : s.resumeNotificationArmed with
    | true =>
        rw [harmed] at hnotified
        exact ⟨(fun ha => nomatch ha), (fun hb => nomatch hb), (fun ha => nomatch ha), hnotified,
          h.checking⟩
    | false =>
        rw [harmed] at hnotified
        exact ⟨(fun ha => nomatch ha), (fun hb => nomatch hb), (fun ha => nomatch ha), hnotified,
          h.checking⟩
  case armClosed | armFailed =>
    have hresume := h.arming (by rw [hpc]; rfl)
    split at hs <;> cases hs <;>
      exact h.of_producer hframe hpublished rfl ⟨rfl, rfl⟩ (fun _ => hresume)
        (fun _ _ => Rechecked.of_idle (by rw [hpc]; rfl) hframe) id
  case publishFailed =>
    split_ifs at hs <;> cases hs <;>
      exact h.of_producer hframe hpublished rfl ⟨rfl, rfl⟩ (fun hb => nomatch hb)
        (fun _ _ => Rechecked.of_idle (by rw [hpc]; rfl) hframe) id
  all_goals
    (try split at hs) <;> cases hs
    all_goals
      exact h.of_producer hframe hpublished rfl ⟨rfl, rfl⟩ (fun hb => nomatch hb)
        (fun _ _ => Rechecked.of_idle (by rw [hpc]; rfl) hframe) id

/-- A writer step outside the check of a release. -/
theorem Resume.of_writer (h : s.Resume) (hframe : WriterFrame s s')
    (harmed : s'.resumeNotificationArmed = s.resumeNotificationArmed)
    (hnotified : s'.history.resumeNotifications = s.history.resumeNotifications)
    (hhandshake : s.resumeNotificationArmed = true → s'.Below → s'.Rechecked)
    (hchecking : ∀ use published, s'.writerPc = .resumeBytes use published →
      s'.consumerSequence ≤ published ∧ published ≤ s.publishedSequence) : s'.Resume := by
  refine ⟨?_, ?_, ?_, ?_, ?_⟩
  · rw [harmed, hframe.notifications]
    exact h.armed
  · rw [hframe.producerPc, hframe.notifications]
    exact h.arming
  · rw [harmed]
    exact hhandshake
  · rw [harmed, hnotified, hframe.arms]
    exact h.notified
  · rw [hframe.publishedSequence]
    exact hchecking

/-- A writer that is not rechecking leaves the recheck to the producer. -/
theorem Resume.of_quiet (h : s.Resume) (hframe : WriterFrame s s')
    (hpc : s.writerPc.inRelease = false)
    (hpc' : ∀ use published, s'.writerPc ≠ .resumeBytes use published)
    (harmed : s'.resumeNotificationArmed = s.resumeNotificationArmed)
    (hnotified : s'.history.resumeNotifications = s.history.resumeNotifications)
    (hsequence : s'.consumerSequence = s.consumerSequence)
    (hbytes : s'.consumerBytes = s.consumerBytes) : s'.Resume := by
  refine h.of_writer hframe harmed hnotified ?_ ?_
  · intro ha hb
    rw [Below, hframe.producerSequence, hframe.producerBytes, hsequence, hbytes] at hb
    rcases h.handshake ha hb with hproducer | hwriter
    · left
      rw [hframe.producerPc, hframe.producerSequence, hframe.producerBytes]
      exact hproducer
    · rw [WriterPc.inRelease_of_rechecks hwriter] at hpc
      cases hpc
  · exact fun use published hcheck => absurd hcheck (hpc' use published)

theorem afterRelease_ne_resumeBytes (use : ReleaseUse) :
    ∀ use' published, afterRelease use ≠ .resumeBytes use' published := by
  rcases use with ⟨published, _ | error⟩ | published <;> intro use' published' heq <;> cases heq

/-- The differences the writer computes do not wrap. -/
theorem publishedDifference (hqueue : s.Queue) {published : Nat} (hle : s.consumerSequence ≤ published)
    (hle' : published ≤ s.publishedSequence) :
    wrappingSub published s.consumerSequence = published - s.consumerSequence ∧
      wrappingSub s.bytesPublished s.consumerBytes = s.bytesPublished - s.consumerBytes := by
  have hlimit : s.producerSequence < counterLimit := hqueue.ring.producedLimit
  have hlimit' : s.producerBytes < counterLimit := hqueue.ring.weightLimit
  have hpublished : s.publishedSequence ≤ s.producerSequence := hqueue.ring.published_le
  have hbytes : s.bytesPublished ≤ s.producerBytes := hqueue.ring.publishedWeight_le
  exact ⟨wrappingSub_eq hle (by omega), wrappingSub_eq hqueue.ring.consumedWeight_le (by omega)⟩

theorem writerStep_resume {input : WriterInput} (hqueue : s.Queue) (h : s.Resume)
    (hs : s.writerStep input = some s') : s'.Resume := by
  have hframe := writerStep_frame hs
  have not_checking : ∀ {pc : WriterPc}, (∀ use published, pc ≠ .resumeBytes use published) →
      ∀ use published, pc = .resumeBytes use published →
        s'.consumerSequence ≤ published ∧ published ≤ s.publishedSequence :=
    fun hpc use published heq => absurd heq (hpc use published)
  unfold writerStep at hs
  cases hpc : s.writerPc <;> simp only [hpc] at hs
  case releaseBytes use =>
    cases hs
    exact h.of_writer hframe rfl rfl (fun _ _ => .inr trivial) (not_checking (by simp))
  case releaseOverflow use =>
    cases hs
    exact h.of_writer hframe rfl rfl (fun _ _ => .inr trivial) (not_checking (by simp))
  case releaseSequence use =>
    cases hs
    split at hframe
    · rename_i hresume
      rw [if_pos hresume]
      exact h.of_writer hframe rfl rfl (fun _ _ => .inr trivial) (not_checking (by simp))
    · rename_i hresume
      rw [if_neg hresume]
      exact h.of_writer hframe rfl rfl (fun harmed => absurd (h.armed harmed) hresume)
        (not_checking (afterRelease_ne_resumeBytes use))
  case resumePublished use =>
    cases hs
    have hle : s.publishedSequence ≤ s.producerSequence := hqueue.ring.published_le
    have hconsumed : s.consumerSequence ≤ s.publishedSequence := hqueue.ring.consumed
    refine h.of_writer hframe rfl rfl (fun _ hbelow => .inr ?_) ?_
    · have := hbelow.1
      simp only [WriterPc.rechecks]
      simp only at this
      omega
    · intro use' published heq
      cases heq
      exact ⟨hconsumed, Nat.le_refl _⟩
  case resumeBytes use published =>
    split at hs <;> cases hs
    · exact h.of_writer hframe rfl rfl (fun _ _ => .inr trivial) (not_checking (by simp))
    · rename_i habove
      refine h.of_writer hframe rfl rfl (fun harmed hbelow => ?_)
        (not_checking (afterRelease_ne_resumeBytes use))
      rcases h.handshake harmed hbelow with hproducer | hwriter
      · exact .inl hproducer
      · -- the loaded counts are below the mark as well, so the exchange is not left out
        obtain ⟨hle, hle'⟩ := h.checking use published hpc
        have hbytes : s.bytesPublished ≤ s.producerBytes := hqueue.ring.publishedWeight_le
        have hsum : s.producerBytes - s.consumerBytes < resumeBytes := hbelow.2
        rw [hpc] at hwriter
        rw [(publishedDifference hqueue hle hle').1, (publishedDifference hqueue hle hle').2] at habove
        exact absurd ⟨hwriter, by omega⟩ habove
  case resumeExchange use =>
    cases hs
    have hnotified := h.notified
    cases harmed : s.resumeNotificationArmed with
    | true =>
        rw [harmed] at hnotified
        exact ⟨(fun ha => nomatch ha), h.arming, (fun ha => nomatch ha), hnotified,
          fun use' published heq => absurd heq (afterRelease_ne_resumeBytes use use' published)⟩
    | false =>
        rw [harmed] at hnotified
        exact ⟨(fun ha => nomatch ha), h.arming, (fun ha => nomatch ha), hnotified,
          fun use' published heq => absurd heq (afterRelease_ne_resumeBytes use use' published)⟩
  case drain =>
    split_ifs at hs <;> cases hs <;>
      exact h.of_quiet hframe (by rw [hpc]; rfl) (by simp) rfl rfl rfl rfl
  case latchWait use =>
    split at hs <;> cases hs
    · exact h
    · exact h.of_quiet hframe (by rw [hpc]; rfl) (by cases use <;> simp [afterLatch]) rfl rfl rfl rfl
  case ageFlush =>
    split at hs
    · split at hs <;> cases hs <;>
        exact h.of_quiet hframe (by rw [hpc]; rfl) (by simp [recordError]) rfl rfl rfl rfl
    · cases hs
      exact h.of_quiet hframe (by rw [hpc]; rfl) (by simp) rfl rfl rfl rfl
  case closeRequested | closePublished =>
    cases hs
    exact h.of_quiet hframe (by rw [hpc]; rfl) (by intros; split <;> simp) rfl rfl rfl rfl
  all_goals
    (try split at hs) <;> cases hs
    all_goals
      exact h.of_quiet hframe (by rw [hpc]; rfl) (by simp [recordError, finish]) rfl rfl rfl rfl

/-! ## Every run -/

theorem Resume.init (h : system.init s) : s.Resume := by
  obtain ⟨mode, targetCount, notifications, hstart⟩ := h
  obtain ⟨-, -, -, rfl⟩ := start_some hstart
  exact ⟨(fun ha => nomatch ha), (fun hb => nomatch hb), (fun ha => nomatch ha), Nat.le_refl _,
    fun _ _ heq => nomatch heq⟩

theorem Resume.step (hqueue : s.Queue) (h : s.Resume) {label : WriterLabel}
    (hs : s.step label = some s') : s'.Resume := by
  rcases step_cases hs with ⟨c, memory, -, hidle, hcall⟩ | ⟨memory, -, hproducer⟩ | ⟨input, -, hwriter⟩
  · exact call_resume h hidle hcall
  · exact producerStep_resume hqueue h hproducer
  · exact writerStep_resume hqueue h hwriter

theorem resume_of_reachable (h : Transition.Reachable system s) : s.Resume := by
  have hboth : s.Queue ∧ s.Resume := by
    apply Transition.Reachable.invariant (P := fun s => s.Queue ∧ s.Resume) ?_ ?_ h
    · exact fun _ hinit => ⟨Queue.init hinit, Resume.init hinit⟩
    · exact fun _ _ _ hinv hs => ⟨hinv.1.step hs, hinv.2.step hinv.1 hs⟩
  exact hboth.2

/-- Outside `publish`, `arm_resume_notification` and `release_slot` the counts of the two
sides agree with the shown ones. -/
theorem Queue.shown (h : s.Queue) (hpublish : s.producerPc.inPublish = false)
    (hrelease : s.writerPc.inRelease = false) :
    s.publishedSequence = s.producerSequence ∧ s.bytesPublished = s.producerBytes ∧
      s.releasedSequence = s.consumerSequence ∧ s.bytesReleased = s.consumerBytes := by
  have hpublished := h.ring.published
  have hpublishedWeight := h.ring.publishedWeight
  have hproducedWeight := h.ring.producedWeight
  have hreleased := h.ring.released
  have hphase : s.ring.phase.pending = 0 ∧ s.ring.phase.ahead = 0 := by
    have hnone := ProducerPc.phase_of_outside hpublish
    cases hslot : s.slotAcquired with
    | true => rw [phase_held hnone hslot]; exact ⟨rfl, rfl⟩
    | false => rw [phase_free hnone hslot]; exact ⟨rfl, rfl⟩
  have hreleasing : s.ring.releasing = false := WriterPc.releasing_of_outside hrelease
  rw [hphase.1, Nat.add_zero] at hpublished
  rw [hphase.2, Nat.add_zero, hpublished, ← hproducedWeight] at hpublishedWeight
  rw [hreleasing] at hreleased
  exact ⟨hpublished, hpublishedWeight, hreleased, h.ring.releasedWeight⟩

/-- No resume notification is lost: an armed one is never left below the low-water mark,
each arm gives at most one, and the writer's differences do not underflow. -/
theorem resume_handshake (h : Transition.Reachable system s) :
    (s.producerPc.inPublish = false → s.producerPc.inArm = false → s.writerPc.inRelease = false →
      s.resumeNotificationArmed = true →
        belowResumeWatermark (s.occupancy s.releasedSequence s.bytesReleased
          s.overflowBytesReleased) = false) ∧
    s.history.resumeNotifications ≤ s.history.arms ∧
    (∀ use published, s.writerPc = .resumeBytes use published →
      s.consumerSequence ≤ published ∧ s.consumerBytes ≤ s.bytesPublished ∧
      wrappingSub published s.consumerSequence = published - s.consumerSequence ∧
      wrappingSub s.bytesPublished s.consumerBytes = s.bytesPublished - s.consumerBytes) := by
  have hqueue := queue_of_reachable h
  have hresume := resume_of_reachable h
  refine ⟨fun hpublish harm hrelease harmed => ?_, ?_, ?_⟩
  · obtain ⟨-, -, hreleased, hbytes⟩ := hqueue.shown hpublish hrelease
    by_contra hbelow
    have hmark : s.Below := by
      simpa [belowResumeWatermark, occupancy, hreleased, hbytes, Below] using hbelow
    rcases hresume.handshake harmed hmark with hproducer | hwriter
    · simp [ProducerPc.inArm, ProducerPc.afterArm_of_rechecks hproducer] at harm
    · rw [WriterPc.inRelease_of_rechecks hwriter] at hrelease
      cases hrelease
  · have := hresume.notified
    omega
  · intro use published hpc
    obtain ⟨hle, hle'⟩ := hresume.checking use published hpc
    exact ⟨hle, hqueue.ring.consumedWeight_le, publishedDifference hqueue hle hle'⟩

/-- An arm that finds the queue above the mark is left to the writer. -/
theorem arms_above {released releasedBytes : Nat}
    (hpc : s.producerPc = .occupancyOverflow .resume released releasedBytes)
    (habove : resumeBytes ≤ s.producerBytes - releasedBytes) :
    s.step (.producer {}) = some (s.returns .armed) := by
  have hbelow : belowResumeWatermark (s.occupancy released releasedBytes s.overflowBytesReleased) =
      false := by
    rw [belowResumeWatermark, Bool.and_eq_false_iff]
    exact .inr (decide_eq_false (Nat.not_lt.mpr habove))
  simp [step, producerStep, hpc, useOccupancy, hbelow]

/-- A release that empties the queue goes on to the notification. -/
theorem release_empties {use : ReleaseUse} {published : Nat}
    (hpc : s.writerPc = .resumeBytes use published) (hsequence : s.consumerSequence = published)
    (hbytes : s.consumerBytes = s.bytesPublished) :
    s.step (.writer {}) = some { s with writerPc := .resumeExchange use } := by
  have hsub : ∀ n, wrappingSub n n = 0 := fun n => by simp [wrappingSub]
  simp only [step, writerStep, hpc, hsequence, hbytes, hsub]
  rfl

section Sample

variable (tail : Bytes)

/-- A batch whose audit row is a byte longer than this. -/
private def wideBatch : EventRowBatch := { auditRow := 97 :: tail, hasAuditRow := true }

/-- The producer is about to take the row in. -/
private def entering : CsvWriter :=
  let s : CsvWriter := { output := .opened .liveCapture 1, notifications := ⟨true, true⟩ }
  let s := s.setProducerSlot s.producerSlot.clear
  { s.setProducerSlot { s.producerSlot with batch := wideBatch tail } with
    slotAcquired := true
    publishActive := true
    producerPc := .publishBytes 0
    outcome := some .filled }

/-- The row is in the queue. -/
private def crowded : CsvWriter :=
  let slot := { (entering tail).producerSlot with
    targetIndex := some 0
    logicalBytes := resumeBytes }
  { (entering tail).setProducerSlot slot with
    producerSequence := 1
    producerBytes := resumeBytes
    slotAcquired := false
    metrics := countPublished (entering tail).metrics (wideBatch tail) 0 0
    producerPc := .occupancyReleased .highWater
    history := { (entering tail).history with log := [slot] } }

private theorem entering_run : ((start (.opened .liveCapture 1) ⟨true, true⟩).bind fun s =>
    s.run (alone .tryAcquire 3 ++ alone (.fill (wideBatch tail) 0 0) 0 ++ alone (.publish 0) 3)) =
      some (entering tail) := rfl

variable {tail}

private theorem entering_publishes (h : tail.length + 1 = resumeBytes) :
    (entering tail).publishBatch 0 = crowded tail := by
  have hbytes : batchBytes (entering tail).producerSlot.batch = resumeBytes := h
  rw [publishBatch]
  simp only [hbytes]
  have hroom : ¬(resumeBytes > csvWriterByteCapacity ∨
      wrappingSub (entering tail).producerBytes (entering tail).bytesReleased >
        csvWriterByteCapacity - resumeBytes) :=
    show ¬(resumeBytes > csvWriterByteCapacity ∨
      wrappingSub 0 0 > csvWriterByteCapacity - resumeBytes) by decide
  have hsequence : checkedAdd (entering tail).producerSequence 1 = some 1 :=
    show checkedAdd 0 1 = some 1 by decide
  have hproduced : checkedAdd (entering tail).producerBytes resumeBytes = some resumeBytes :=
    show checkedAdd 0 resumeBytes = some resumeBytes by decide
  have hoverflow : checkedAdd (entering tail).metrics.overflowCapacityBytes
      (overflowIncrement (entering tail).producerSlot) = some 0 :=
    show checkedAdd 0 0 = some 0 by decide
  have hactive : checkedAdd (entering tail).producerOverflowBytes
      (overflowIncrement (entering tail).producerSlot) = some 0 :=
    show checkedAdd 0 0 = some 0 by decide
  rw [if_neg hroom, hsequence, hproduced, hoverflow, hactive]
  rfl

variable (tail) in
/-- What the row in the queue leads to. -/
private theorem crowded_run : ∃ arming, (crowded tail).run
      (List.replicate 7 (.producer {}) ++ alone .armResumeNotification 5) = some arming ∧
    (arming.producerPc = .occupancyOverflow .resume 0 0 ∧ arming.producerBytes = resumeBytes) ∧
    ((arming.returns .armed).resumeNotificationArmed = true ∧
      (arming.returns .armed).writerPc = .loadPublished) ∧
    ∃ checking use, (arming.returns .armed).run (writerAlone 7) = some checking ∧
      (checking.writerPc = .resumeBytes use 1 ∧ checking.bytesPublished = resumeBytes ∧
        checking.consumerSequence = 1 ∧ checking.consumerBytes = checking.bytesPublished) ∧
      ∃ notified, { checking with writerPc := .resumeExchange use }.step (.writer {}) =
          some notified ∧
        notified.history.arms = 1 ∧ notified.history.resumeNotifications = 1 :=
  ⟨_, rfl, ⟨rfl, rfl⟩, ⟨rfl, rfl⟩, _, _, rfl, ⟨rfl, rfl, rfl, Nat.zero_add resumeBytes⟩,
    _, rfl, rfl, rfl⟩

private theorem crowded_reachable (h : tail.length + 1 = resumeBytes) :
    Transition.Reachable system (crowded tail) := by
  obtain ⟨s₀, hstart, hrun⟩ := Option.bind_eq_some_iff.mp (entering_run tail)
  have hstep : (entering tail).step (.producer {}) = some (crowded tail) := by
    rw [← entering_publishes h]
    rfl
  exact Transition.Reachable.step ⟨s₀, _, ⟨_, _, _, hstart⟩, exec_of_run hrun⟩ hstep

/-- A producer that arms above the mark is notified when the writer releases its row. -/
theorem resume_handshake_sample : ∃ armed checking notified,
    (Transition.Reachable system armed ∧ armed.resumeNotificationArmed = true ∧
      belowResumeWatermark (armed.occupancy armed.releasedSequence armed.bytesReleased
        armed.overflowBytesReleased) = false) ∧
    (Transition.Reachable system checking ∧ (∃ use, checking.writerPc = .resumeBytes use 1) ∧
      checking.bytesPublished = resumeBytes ∧
      wrappingSub checking.bytesPublished checking.consumerBytes =
        checking.bytesPublished - checking.consumerBytes) ∧
    Transition.Reachable system notified ∧ notified.history.arms = 1 ∧
      notified.history.resumeNotifications = 1 ∧
      notified.history.resumeNotifications ≤ notified.history.arms := by
  have hlength : (List.replicate (resumeBytes - 1) (97 : UInt8)).length + 1 = resumeBytes := by
    rw [List.length_replicate]
    decide
  have hcrowded := crowded_reachable hlength
  obtain ⟨arming, harming, ⟨hoverflow, hproduced⟩, ⟨harmed, hwriter⟩, checking, use, hchecking,
    ⟨hpc, hpublished, hsequence, hconsumed⟩, notified, hnotified, harms, hnotifications⟩ :=
    crowded_run (List.replicate (resumeBytes - 1) 97)
  have harm : arming.step (.producer {}) = some (arming.returns .armed) :=
    arms_above hoverflow (by rw [hproduced]; exact Nat.le_refl _)
  have hreacharmed : Transition.Reachable system (arming.returns .armed) :=
    (hcrowded.exec (exec_of_run harming)).step harm
  have hreachchecking := hreacharmed.exec (exec_of_run hchecking)
  have hreachnotified : Transition.Reachable system notified :=
    (hreachchecking.step (release_empties hpc hsequence hconsumed)).step hnotified
  refine ⟨arming.returns .armed, checking, notified,
    ⟨hreacharmed, harmed, (resume_handshake hreacharmed).1 rfl rfl ?_ harmed⟩,
    ⟨hreachchecking, ⟨use, hpc⟩, hpublished,
      ((resume_handshake hreachchecking).2.2 use 1 hpc).2.2.2⟩,
    hreachnotified, harms, hnotifications, (resume_handshake hreachnotified).2.1⟩
  rw [hwriter]
  rfl

end Sample

end CsvWriter

end MarketCapture
