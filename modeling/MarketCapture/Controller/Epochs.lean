import MarketCapture.Controller.Callbacks

/-! # Epochs and sequence numbers

A session is created for an epoch and uses it up only when it opens, so the sessions that
open count through the epochs. What reaches the pipeline is what they deliver, in their
order, and callbacks of sessions that were replaced reach nothing.
-/

namespace MarketCapture

open Simdjson

/-- The pipeline was given a message. -/
def ControllerEvent.isProcessed : ControllerEvent → Bool
  | .processed _ _ => true
  | _ => false

namespace LiveCaptureController

open ControllerEvent Transition

/-- The epochs of the sessions that opened, in their order. -/
def openedEpochs (log : List ControllerEvent) : List UInt64 :=
  log.filterMap fun
    | .opened connectionEpoch => some connectionEpoch
    | _ => none

/-- The sessions that have opened, and the messages of the one after `k` others. -/
def countMessages (k : Nat) (seen : Nat × List WebSocketTextMessage) :
    ControllerEvent → Nat × List WebSocketTextMessage
  | .opened _ => (seen.1 + 1, seen.2)
  | .delivered message => (seen.1, if seen.1 = k + 1 then seen.2 ++ [message] else seen.2)
  | _ => seen

/-- The messages delivered by the session that opened after `k` others. -/
def deliveredBy (k : Nat) (log : List ControllerEvent) : List WebSocketTextMessage :=
  (log.foldl (countMessages k) (0, [])).2

/-- The messages that reached the pipeline. -/
def processedMessages (log : List ControllerEvent) : List WebSocketTextMessage :=
  log.filterMap fun
    | .processed message _ => some message
    | _ => none

theorem deliveredBy_concat (k : Nat) (log : List ControllerEvent) (event : ControllerEvent) :
    deliveredBy k (log ++ [event]) =
      match event with
      | .delivered message =>
          if opens log = k + 1 then deliveredBy k log ++ [message] else deliveredBy k log
      | _ => deliveredBy k log := by
  have hopened : ∀ log : List ControllerEvent,
      (log.foldl (countMessages k) (0, [])).1 = opens log := by
    intro log
    induction log using List.reverseRecOn with
    | nil => rfl
    | append_singleton log event ih =>
        rw [List.foldl_append, opens_concat, ← ih]
        cases event <;> rfl
  rw [← hopened]
  unfold deliveredBy
  rw [List.foldl_append]
  cases event <;> rfl

/-- The messages of the sessions of a history that keeps the rules. -/
structure Numbered (log : List ControllerEvent) : Prop where
  opened : ∀ (k : Nat) (e : UInt64), (openedEpochs log)[k]? = some e → e.toNat = k
  count : (openedEpochs log).length = opens log
  epochs : ∀ k, ∀ message ∈ deliveredBy k log, message.connectionEpoch.toNat = k
  sequences : ∀ k, (deliveredBy k log).map (fun message => message.connectionSequence.toNat) =
    List.range' 1 (deliveredBy k log).length
  current : ∀ k, opens log = k + 1 → deliveredSince log = (deliveredBy k log).length
  future : ∀ k, opens log ≤ k → deliveredBy k log = []
  processed : (processedMessages log).Pairwise fun message message' =>
    LiveEventPipeline.Precedes message.connectionEpoch message.connectionSequence message'

/-- An event that neither opens a session, nor delivers or processes a message. -/
theorem Numbered.other {log : List ControllerEvent} (h : Numbered log) {event : ControllerEvent}
    (hopened : event.isOpened = false) (hdelivered : event.isDelivered = false)
    (hprocessed : event.isProcessed = false) :
    Numbered (log ++ [event]) := by
  have hopens : LiveCaptureController.opens (log ++ [event]) = LiveCaptureController.opens log := by
    rw [opens_concat, hopened]
    rfl
  have hsince : deliveredSince (log ++ [event]) = deliveredSince log := by
    rw [deliveredSince_concat, hopened, hdelivered]
    rfl
  have hby : ∀ k, deliveredBy k (log ++ [event]) = deliveredBy k log := by
    intro k
    rw [deliveredBy_concat]
    cases event with
    | delivered message => cases hdelivered
    | _ => rfl
  have hepochs : openedEpochs (log ++ [event]) = openedEpochs log := by
    unfold openedEpochs
    rw [List.filterMap_append]
    cases event with
    | opened e => cases hopened
    | _ => simp
  have hmessages : processedMessages (log ++ [event]) = processedMessages log := by
    unfold processedMessages
    rw [List.filterMap_append]
    cases event with
    | processed message result => cases hprocessed
    | _ => simp
  constructor
  · rw [hepochs]
    exact h.opened
  · rw [hepochs, hopens]
    exact h.count
  · intro k
    rw [hby]
    exact h.epochs k
  · intro k
    rw [hby]
    exact h.sequences k
  · intro k
    rw [hby, hopens, hsince]
    exact h.current k
  · intro k
    rw [hby, hopens]
    exact h.future k
  · rw [hmessages]
    exact h.processed

theorem Numbered.open {log : List ControllerEvent} (h : Numbered log) {connectionEpoch : UInt64}
    (hrule : connectionEpoch.toNat = LiveCaptureController.opens log) :
    Numbered (log ++ [.opened connectionEpoch]) := by
  have hopens : LiveCaptureController.opens (log ++ [.opened connectionEpoch]) =
      LiveCaptureController.opens log + 1 := by
    rw [opens_concat]
    rfl
  have hsince : deliveredSince (log ++ [.opened connectionEpoch]) = 0 := by
    rw [deliveredSince_concat]
    rfl
  have hby : ∀ k, deliveredBy k (log ++ [.opened connectionEpoch]) = deliveredBy k log :=
    fun k => deliveredBy_concat k log _
  have hepochs : openedEpochs (log ++ [.opened connectionEpoch]) =
      openedEpochs log ++ [connectionEpoch] := by
    simp [openedEpochs, List.filterMap_append]
  have hmessages : processedMessages (log ++ [.opened connectionEpoch]) =
      processedMessages log := by
    simp [processedMessages, List.filterMap_append]
  constructor
  · intro k e he
    rw [hepochs, List.getElem?_append] at he
    split at he
    · exact h.opened k e he
    · next hk =>
        obtain ⟨hlast, rfl⟩ := List.getElem?_eq_some_iff.mp he
        rw [List.length_singleton] at hlast
        rw [List.getElem_singleton, hrule, ← h.count]
        omega
  · rw [hepochs, hopens, List.length_append, h.count]
    rfl
  · intro k
    rw [hby]
    exact h.epochs k
  · intro k
    rw [hby]
    exact h.sequences k
  · intro k hk
    rw [hopens] at hk
    rw [hby, hsince, h.future k (by omega)]
    rfl
  · intro k hk
    rw [hby]
    exact h.future k (by omega)
  · rw [hmessages]
    exact h.processed

theorem Numbered.deliver {log : List ControllerEvent} (h : Numbered log)
    {message : WebSocketTextMessage}
    (hepoch : message.connectionEpoch.toNat + 1 = LiveCaptureController.opens log)
    (hsequence : message.connectionSequence.toNat = deliveredSince log + 1) :
    Numbered (log ++ [.delivered message]) := by
  have hopens : LiveCaptureController.opens (log ++ [.delivered message]) =
      LiveCaptureController.opens log := by
    rw [opens_concat]
    rfl
  have hsince : deliveredSince (log ++ [.delivered message]) = deliveredSince log + 1 := by
    rw [deliveredSince_concat]
    rfl
  have hby : ∀ k, deliveredBy k (log ++ [.delivered message]) =
      if LiveCaptureController.opens log = k + 1 then deliveredBy k log ++ [message]
      else deliveredBy k log := fun k => deliveredBy_concat k log _
  have hepochs : openedEpochs (log ++ [.delivered message]) = openedEpochs log := by
    simp [openedEpochs, List.filterMap_append]
  have hmessages : processedMessages (log ++ [.delivered message]) = processedMessages log := by
    simp [processedMessages, List.filterMap_append]
  constructor
  · rw [hepochs]
    exact h.opened
  · rw [hepochs, hopens]
    exact h.count
  · intro k m hm
    rw [hby] at hm
    split at hm
    · next hk =>
        rcases List.mem_append.mp hm with hm | hm
        · exact h.epochs k m hm
        · rw [List.mem_singleton.mp hm]
          omega
    · exact h.epochs k m hm
  · intro k
    rw [hby]
    split
    · next hk =>
        rw [List.map_append, h.sequences k, List.length_append, List.length_singleton,
          List.range'_concat, List.map_singleton, hsequence, h.current k hk]
        simp [Nat.add_comm]
    · exact h.sequences k
  · intro k hk
    rw [hopens] at hk
    rw [hby, if_pos hk, hsince, h.current k hk, List.length_append]
    rfl
  · intro k hk
    rw [hopens] at hk
    rw [hby, if_neg (by omega)]
    exact h.future k hk
  · rw [hmessages]
    exact h.processed

theorem Numbered.process {log : List ControllerEvent} (h : Numbered log)
    {message : WebSocketTextMessage} {result : LivePipelineResult}
    (hearlier : ∀ message' result', .processed message' result' ∈ log →
      LiveEventPipeline.Precedes message'.connectionEpoch message'.connectionSequence message) :
    Numbered (log ++ [.processed message result]) := by
  have hopens : LiveCaptureController.opens (log ++ [.processed message result]) =
      LiveCaptureController.opens log := by
    rw [opens_concat]
    rfl
  have hsince : deliveredSince (log ++ [.processed message result]) = deliveredSince log := by
    rw [deliveredSince_concat]
    rfl
  have hby : ∀ k, deliveredBy k (log ++ [.processed message result]) = deliveredBy k log :=
    fun k => deliveredBy_concat k log _
  have hepochs : openedEpochs (log ++ [.processed message result]) = openedEpochs log := by
    simp [openedEpochs, List.filterMap_append]
  have hmessages : processedMessages (log ++ [.processed message result]) =
      processedMessages log ++ [message] := by
    simp [processedMessages, List.filterMap_append]
  constructor
  · rw [hepochs]
    exact h.opened
  · rw [hepochs, hopens]
    exact h.count
  · intro k
    rw [hby]
    exact h.epochs k
  · intro k
    rw [hby]
    exact h.sequences k
  · intro k
    rw [hby, hopens, hsince]
    exact h.current k
  · intro k
    rw [hby, hopens]
    exact h.future k
  · rw [hmessages, List.pairwise_append]
    refine ⟨h.processed, List.pairwise_singleton _ _, ?_⟩
    intro m hm m' hm'
    rw [List.mem_singleton.mp hm']
    obtain ⟨event, hevent, heq⟩ := List.mem_filterMap.mp hm
    cases event with
    | processed message' result' =>
        obtain rfl := Option.some.inj heq
        exact hearlier _ _ hevent
    | _ => cases heq

theorem numbered_of_rules {log : List ControllerEvent} (h : History.Always Allowed log) :
    Numbered log := by
  induction log using List.reverseRecOn with
  | nil =>
      constructor <;> simp [openedEpochs, processedMessages, deliveredBy, opens]
  | append_singleton log event ih =>
      obtain ⟨hlog, hrule⟩ := History.always_concat.mp h
      have hnumbered := ih hlog
      cases event with
      | opened connectionEpoch => exact hnumbered.open hrule
      | delivered message => exact hnumbered.deliver hrule.1 hrule.2
      | processed message result => exact hnumbered.process hrule.2.2.2
      | _ => exact hnumbered.other rfl rfl rfl

/-- The epochs and sequence numbers of a run so far. -/
structure EpochDiscipline (c : LiveCaptureController) : Prop where
  /-- The sessions that opened, counted from zero, have their number as epoch. -/
  opened : ∀ (k : Nat) (e : UInt64), (openedEpochs c.log)[k]? = some e → e.toNat = k
  distinct : (openedEpochs c.log).Nodup
  epochs : ∀ k, ∀ message ∈ deliveredBy k c.log, message.connectionEpoch.toNat = k
  sequences : ∀ k, (deliveredBy k c.log).map (fun message => message.connectionSequence.toNat) =
    List.range' 1 (deliveredBy k c.log).length
  /-- An attempt takes the epoch after those of the sessions that opened before it. -/
  attempts : ∀ earlier generation connectionEpoch later,
    c.log = earlier ++ .sessionCreated generation connectionEpoch :: later →
      connectionEpoch.toNat = (openedEpochs earlier).length
  /-- The session with the last epoch is the last one. -/
  overflow : (openedEpochs c.log).length = 2 ^ 64 →
    c.terminal = true ∨ ∃ s, c.session = some s ∧ s.connectionEpoch.toNat = 2 ^ 64 - 1
  bound : (openedEpochs c.log).length ≤ 2 ^ 64
  increasing : (processedMessages c.log).Pairwise fun message message' =>
    LiveEventPipeline.Precedes message.connectionEpoch message.connectionSequence message'
  /-- The pipeline is given what the session has just delivered. -/
  handed : ∀ earlier message result later, c.log = earlier ++ .processed message result :: later →
    earlier.getLast? = some (.delivered message)
  accepted : ∀ message result, .processed message result ∈ c.log →
    result.error ≠ .invalidMessageMetadata ∧ result.event.error ≠ .invalidContext

theorem Core.epochDiscipline {running : Option SessionCallback} {c : LiveCaptureController}
    (h : Core running c) : EpochDiscipline c := by
  have hnumbered := numbered_of_rules h.rules
  refine
    { opened := hnumbered.opened
      distinct := ?_
      epochs := hnumbered.epochs
      sequences := hnumbered.sequences
      attempts := fun earlier generation connectionEpoch later hlog => ?_
      overflow := fun hall => ?_
      bound := ?_
      increasing := hnumbered.processed
      handed := fun earlier message result later hlog => (h.rules earlier _ later hlog).1
      accepted := fun message result hin => ?_ }
  · rw [List.nodup_iff_getElem?_ne_getElem?]
    intro i j hij hj heq
    obtain ⟨e, he⟩ : ∃ e, (openedEpochs c.log)[j]? = some e := ⟨_, List.getElem?_eq_getElem hj⟩
    rw [he] at heq
    have := hnumbered.opened i e heq
    have := hnumbered.opened j e he
    omega
  · have hcreated := (h.rules earlier _ later hlog).2.2
    rw [(numbered_of_rules (History.Always.initial (hlog ▸ h.rules))).count]
    exact hcreated
  · have hcount := h.opens
    rw [← hnumbered.count, hall] at hcount
    have hexhausted : c.epochExhausted = true := by
      by_contra hmore
      rw [if_neg hmore] at hcount
      have := c.nextConnectionEpoch.toNat_lt
      omega
    rcases h.live (.inr (.inr hexhausted)) with hterminal | ⟨s, hs, -⟩
    · exact .inl hterminal
    · refine .inr ⟨s, hs, ?_⟩
      have hok := h.session s hs
      have hopened : .opened ∈ s.log := by
        by_contra hnew
        rw [(hok.before hnew).2] at hexhausted
        cases hexhausted
      have := (hok.after hopened).1
      rw [← hnumbered.count, hall] at this
      omega
  · rw [hnumbered.count, h.opens]
    have := c.nextConnectionEpoch.toNat_lt
    split <;> omega
  · obtain ⟨earlier, later, hlog⟩ := List.append_of_mem hin
    obtain ⟨-, hmetadata, hcontext, -⟩ := h.rules earlier _ later hlog
    exact ⟨hmetadata, hcontext⟩

/-- Callbacks in any order: the sessions count through the epochs, their messages reach the
pipeline in order, and what comes from a superseded session is only counted. -/
theorem epoch_and_sequence_discipline {json : Library} {c : LiveCaptureController}
    (h : Reachable (system json) c) :
    EpochDiscipline c ∧
      ∀ generation, generation ≠ c.generation →
        (∀ notice given, c.step json (.superseded generation notice given) =
          some { c with result := { c.result with metrics := { c.result.metrics with
            staleSessionCallbacks := c.result.metrics.staleSessionCallbacks + 1 } } }) ∧
        ∀ error, c.step json (.stableConnection generation error) = some c ∨
          c.step json (.stableConnection generation error) =
            some { c with result := { c.result with metrics := { c.result.metrics with
              staleSessionCallbacks := c.result.metrics.staleSessionCallbacks + 1 } } } := by
  refine ⟨(core_of_reachable h).epochDiscipline, fun generation hold => ⟨?_, ?_⟩⟩
  · intro notice given
    simp only [step]
    rw [if_pos hold, onNotice_superseded c json given hold]
    rfl
  · intro error
    simp only [step, onStableConnection]
    split
    · exact .inl rfl
    · rw [if_pos (.inl hold)]
      exact .inr rfl

/-! ### A run with two sessions -/

section Sample

/-- An envelope of a subscribed stream, without data. -/
def sampleEnvelope : Compact :=
  .object [(ascii "stream", .string (ascii "btcusdt@depth@100ms"))]

def sampleLibrary : Library := .ofDocuments [sampleEnvelope]

def sampleController : Option LiveCaptureController := do
  let subscription ← (LiveSubscription.create .spot [ascii "BTCUSDT"]).toOption
  let pipeline ← (LiveEventPipeline.create subscription).toOption
  create pipeline {} true

def sampleRun (labels : List ControllerLabel) : Option LiveCaptureController := do
  let c ← sampleController
  labels.foldlM (step sampleLibrary) c

/-- A session from its first handler to the open callback. -/
def sampleConnect : List ControllerLabel :=
  [.session (.resolved .none) {}, .session (.connected .none true) {},
    .session (.tlsHandshaken .none true) {}, .session (.handshaken .none) {}]

/-- A text message. -/
def sampleText : ControllerLabel :=
  .session (.read { bytesTransferred := sampleEnvelope.text.length
                    buffer := sampleEnvelope.text }) {}

theorem sampleRun_reachable {labels : List ControllerLabel} {c : LiveCaptureController}
    (h : sampleRun labels = some c) : Reachable (system sampleLibrary) c := by
  simp only [sampleRun, sampleController, Option.bind_eq_bind, Option.bind_eq_some_iff] at h
  obtain ⟨c₀, ⟨subscription, hsubscription, pipeline, hpipeline, hcreate⟩, hrun⟩ := h
  exact ⟨c₀, labels, ⟨_, _, _, _, _, _, ok_of_toOption hsubscription, ok_of_toOption hpipeline,
    hcreate⟩, exec_of_foldlM (fun _ _ _ hstep => hstep) hrun⟩

/-- Two messages, the end of the session, an attempt that fails, and another session. -/
private def twoSessions : List ControllerLabel :=
  [.start {}] ++ sampleConnect ++ [sampleText, sampleText,
    .session (.read { error := .closed }) {}, .reconnectTimer .none {},
    .session (.resolved .other) {}, .reconnectTimer .none {}] ++ sampleConnect ++
    [sampleText, .superseded 1 .open {}]

theorem epoch_and_sequence_discipline_sample : ∃ c, sampleRun twoSessions = some c ∧
    openedEpochs c.log = [0, 1] ∧ (deliveredBy 0 c.log).length = 2 ∧
    (deliveredBy 1 c.log).length = 1 ∧ c.generation = 3 ∧ EpochDiscipline c := by
  have hreport : (sampleRun twoSessions).map (fun c => (openedEpochs c.log,
      (deliveredBy 0 c.log).length, (deliveredBy 1 c.log).length, c.generation)) =
      some ([0, 1], 2, 1, 3) := by
    decide +kernel
  obtain ⟨c, hrun, hfacts⟩ := Option.map_eq_some_iff.mp hreport
  simp only [Prod.mk.injEq] at hfacts
  obtain ⟨hopened, hfirst, hsecond, hgeneration⟩ := hfacts
  exact ⟨c, hrun, hopened, hfirst, hsecond, hgeneration,
    (epoch_and_sequence_discipline (sampleRun_reachable hrun)).1⟩

end Sample

end LiveCaptureController

end MarketCapture
