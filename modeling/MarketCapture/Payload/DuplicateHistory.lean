import MarketCapture.Payload.ParserFacts

/-! # The calls of the duplicate table

The calls of `insert_unique` that a message issues, in their order and with their
answers. `Recorded` relates the scratch between two levels to the calls so far. It is
established by the start of any message, whatever earlier messages left in the slots.
-/

namespace MarketCapture

open Simdjson JsonValidation

/-- A call of `insert_unique`: its key, the accepted levels before it, its answer. -/
structure InsertCall where
  price : Int
  side : BookSide
  updateCount : Nat
  result : InsertResult
  deriving DecidableEq, Repr

def InsertCall.key (call : InsertCall) : Int × BookSide := (call.price, call.side)

/-! ## The calls of a message -/

/-- The call of a level whose two texts are known. -/
def acceptLevelCalls (side : BookSide) (isPartial : Bool) (c : Components) (s : LevelsState) :
    List InsertCall :=
  match parseDecimal1e8 c.priceText with
  | .error _ => []
  | .ok price =>
      if price ≤ 0 then []
      else
        match parseDecimal1e8 c.quantityText with
        | .error _ => []
        | .ok quantity =>
            if isPartial && decide (quantity ≤ 0) then []
            else [⟨price, side, s.scratch.updates.length,
              (s.scratch.table.insertUnique price side).1⟩]

def parseLevelCalls (side : BookSide) (isPartial : Bool) (value : Value) (s : LevelsState) :
    List InsertCall :=
  let full := overCapacity isPartial s
  let s := s.countLevel
  if full then []
  else
    match value.type with
    | .ok .array =>
        match parseComponents value.elements { firstError := s.firstError } with
        | .error _ => []
        | .ok c =>
            if c.count ≠ 2 then []
            else if !c.valid then []
            else acceptLevelCalls side isPartial c { s with firstError := c.firstError }
    | _ => []

def parseLevelsLoopCalls (side : BookSide) (isPartial : Bool) :
    Elements → LevelsState → List InsertCall
  | .done, _ => []
  | .error _, _ => []
  | .next value rest, s =>
      parseLevelCalls side isPartial value s ++
        match parseLevel side isPartial value s with
        | (_, some _) => []
        | (s, none) => parseLevelsLoopCalls side isPartial rest s

/-- A call of `parse_levels`. -/
structure LevelArray where
  value : Value
  side : BookSide
  isPartial : Bool

def LevelArray.scratch (a : LevelArray) (scratch : Scratch) : Scratch :=
  (parseLevels a.value a.side a.isPartial scratch).2.2

def LevelArray.calls (a : LevelArray) (scratch : Scratch) : List InsertCall :=
  match a.value.type with
  | .ok .array => parseLevelsLoopCalls a.side a.isPartial a.value.elements { scratch := scratch }
  | _ => []

def arraysScratch : List LevelArray → Scratch → Scratch
  | [], scratch => scratch
  | a :: rest, scratch => arraysScratch rest (a.scratch scratch)

def arraysCalls : List LevelArray → Scratch → List InsertCall
  | [], _ => []
  | a :: rest, scratch => a.calls scratch ++ arraysCalls rest (a.scratch scratch)

/-- The `parse_levels` call of a field that has not been seen before. -/
def visitArrays (venue : PayloadVenue) (kind : StreamKind) (key : Bytes) (value : Value)
    (s : DepthState) : List LevelArray :=
  match depthField venue kind key with
  | some .bids => if .bids ∈ s.marked then [] else [⟨value, .bid, decide (kind = .depth5)⟩]
  | some .asks => if .asks ∈ s.marked then [] else [⟨value, .ask, decide (kind = .depth5)⟩]
  | _ => []

def depthArrays (venue : PayloadVenue) (kind : StreamKind) (expectedSymbol : Bytes) :
    Fields → DepthState → List LevelArray
  | .done, _ => []
  | .error _, _ => []
  | .next key value rest, s =>
      match key with
      | .error _ => []
      | .ok key =>
          visitArrays venue kind key value s ++
            if (s.visit venue kind expectedSymbol key value).stopped then []
            else depthArrays venue kind expectedSymbol rest
              (s.visit venue kind expectedSymbol key value)

/-- The `parse_levels` calls of a message. -/
def payloadArrays (json : Library) (scratch : Scratch) (venue : PayloadVenue) (kind : StreamKind)
    (expectedSymbol payload : Bytes) : List LevelArray :=
  if payload.length > maxPayloadBytes then []
  else
    match json.iterate payload with
    | .error _ => []
    | .ok document =>
        match document.type with
        | .ok .object =>
            if kind = .trade then []
            else depthArrays venue kind expectedSymbol document.fields
              { result := { event := { kind := kind } }, scratch := scratch.beginMessage }
        | _ => []

/-- The `insert_unique` calls of a message. -/
def payloadCalls (json : Library) (scratch : Scratch) (venue : PayloadVenue) (kind : StreamKind)
    (expectedSymbol payload : Bytes) : List InsertCall :=
  arraysCalls (payloadArrays json scratch venue kind expectedSymbol payload) scratch.beginMessage

/-! ## The invariant between two levels -/

/-- The answers of the calls, each decided by the keys of the calls before it. -/
def Answered (calls : List InsertCall) : Prop :=
  ∀ pre call post, calls = pre ++ call :: post →
    call.result = (if call.key ∈ pre.map InsertCall.key then .duplicate else .inserted) ∧
      call.updateCount < maxDepthUpdates

theorem Answered.concat {calls : List InsertCall} (call : InsertCall) (h : Answered calls)
    (hresult : call.result =
      if call.key ∈ calls.map InsertCall.key then .duplicate else .inserted)
    (hcount : call.updateCount < maxDepthUpdates) : Answered (calls ++ [call]) := by
  intro pre last post heq
  rcases List.eq_nil_or_concat post with rfl | ⟨front, final, rfl⟩
  · obtain ⟨rfl, hlast⟩ := List.append_inj' heq rfl
    obtain rfl := List.singleton_inj.mp hlast
    exact ⟨hresult, hcount⟩
  · have hsplit : calls ++ [call] = (pre ++ last :: front) ++ [final] := by
      rw [heq]
      simp
    exact h pre last front (List.append_inj' hsplit rfl).1

/-- The table tracks the keys of the calls of this message, and there is room for
another level. -/
structure Recorded (s : Scratch) (calls : List InsertCall) : Prop where
  keys : ∃ keys, s.table.Tracks keys ∧ (∀ k, k ∈ keys ↔ k ∈ calls.map InsertCall.key) ∧
    s.updates.length ≤ keys.length ∧ keys.length ≤ s.encounteredLevels ∧
    keys.length ≤ maxDepthUpdates
  answered : Answered calls

theorem Recorded.start {s : Scratch} (h : s.table.Aged) : Recorded s.beginMessage [] where
  keys := ⟨[], DuplicateTable.beginMessage_tracks h, by simp, by simp [Scratch.beginMessage],
    by simp, by simp⟩
  answered := by
    intro pre call post heq
    exact absurd heq (by simp)

theorem Recorded.updates {s : Scratch} {calls : List InsertCall} (h : Recorded s calls) :
    s.updates.length ≤ maxDepthUpdates := by
  obtain ⟨keys, -, -, hupdates, -, hbound⟩ := h.keys
  exact hupdates.trans hbound

/-- A level that was counted while there was room makes one call at most. -/
theorem acceptLevel_recorded {side : BookSide} {isPartial : Bool} {c : Components} {s : LevelsState}
    {calls : List InsertCall} {keys : List (Int × BookSide)} (htracks : s.scratch.table.Tracks keys)
    (hcovers : ∀ k, k ∈ keys ↔ k ∈ calls.map InsertCall.key)
    (hupdates : s.scratch.updates.length ≤ keys.length)
    (hcounted : keys.length < s.scratch.encounteredLevels) (hmax : keys.length < maxDepthUpdates)
    (hanswered : Answered calls) :
    Recorded (acceptLevel side isPartial c s).1.scratch
      (calls ++ acceptLevelCalls side isPartial c s) := by
  have quiet : Recorded s.scratch (calls ++ []) := by
    rw [List.append_nil]
    exact ⟨⟨keys, htracks, hcovers, hupdates, hcounted.le, hmax.le⟩, hanswered⟩
  unfold acceptLevel acceptLevelCalls
  cases parseDecimal1e8 c.priceText with
  | error e => exact quiet
  | ok price =>
      by_cases hprice : price ≤ 0
      · simp only [hprice, ↓reduceIte]
        exact quiet
      · simp only [hprice, ↓reduceIte]
        cases parseDecimal1e8 c.quantityText with
        | error e => exact quiet
        | ok quantity =>
            by_cases hquantity : (isPartial && decide (quantity ≤ 0)) = true
            · simp only [hquantity, ↓reduceIte]
              exact quiet
            · simp only [hquantity, Bool.false_eq_true, ↓reduceIte]
              have hspec := DuplicateTable.insertUnique_spec htracks price side (by
                simp only [maxDepthUpdates] at hmax
                simp only [duplicateTableSize]
                omega)
              by_cases hmem : (price, side) ∈ keys
              · -- a key of this message: the scratch stays
                rw [if_pos hmem] at hspec
                rw [hspec]
                refine ⟨⟨keys, htracks, fun k => ?_, hupdates, hcounted.le, hmax.le⟩,
                  hanswered.concat _ ?_ (hupdates.trans_lt hmax)⟩
                · rw [List.map_append, List.mem_append, ← hcovers]
                  refine ⟨.inl, ?_⟩
                  rintro (hk | hk)
                  · exact hk
                  · obtain rfl := List.mem_singleton.mp hk
                    exact hmem
                · exact (if_pos ((hcovers _).mp hmem)).symm
              · rw [if_neg hmem] at hspec
                obtain ⟨hresult, htracks'⟩ := hspec
                have hcovers' : ∀ k, k ∈ (price, side) :: keys ↔
                    k ∈ (calls ++ [(⟨price, side, s.scratch.updates.length,
                      (s.scratch.table.insertUnique price side).1⟩ : InsertCall)]).map
                        InsertCall.key := by
                  intro k
                  rw [List.map_append, List.mem_append, ← hcovers, List.mem_cons, or_comm]
                  simp [InsertCall.key]
                have hanswered' := hanswered.concat
                  ⟨price, side, s.scratch.updates.length,
                    (s.scratch.table.insertUnique price side).1⟩
                  (by rw [hresult]; exact (if_neg (mt (hcovers _).mpr hmem)).symm)
                  (hupdates.trans_lt hmax)
                generalize s.scratch.table.insertUnique price side = answer at *
                obtain ⟨result, table⟩ := answer
                simp only at hresult htracks'
                subst hresult
                dsimp only
                split
                · exact ⟨⟨_, htracks', hcovers', Nat.le_succ_of_le hupdates, hcounted, hmax⟩,
                    hanswered'⟩
                · exact ⟨⟨_, htracks', hcovers', by simpa using hupdates, hcounted, hmax⟩, hanswered'⟩

theorem parseLevel_recorded (side : BookSide) (isPartial : Bool) (value : Value) {s : LevelsState}
    {calls : List InsertCall} (h : Recorded s.scratch calls) :
    Recorded (parseLevel side isPartial value s).1.scratch
      (calls ++ parseLevelCalls side isPartial value s) := by
  have counted : Recorded s.countLevel.scratch (calls ++ []) := by
    rw [List.append_nil]
    obtain ⟨keys, htracks, hcovers, hupdates, hcount, hmax⟩ := h.keys
    exact ⟨⟨keys, htracks, hcovers, hupdates, Nat.le_succ_of_le hcount, hmax⟩, h.answered⟩
  unfold parseLevel parseLevelCalls
  dsimp only
  cases hfull : overCapacity isPartial s with
  | true =>
      simp only [↓reduceIte, skipLevel_scratch]
      exact counted
  | false =>
      simp only [Bool.false_eq_true, ↓reduceIte]
      cases htype : value.type with
      | error e => exact counted
      | ok type =>
          cases type with
          | array =>
              dsimp only
              cases parseComponents value.elements { firstError := s.countLevel.firstError } with
              | error e => exact counted
              | ok c =>
                  dsimp only
                  split
                  · exact counted
                  · split
                    · exact counted
                    · obtain ⟨keys, htracks, hcovers, hupdates, hcount, -⟩ := h.keys
                      simp only [overCapacity, Bool.or_eq_false_iff, decide_eq_false_iff_not,
                        not_le] at hfull
                      exact acceptLevel_recorded htracks hcovers hupdates
                        (Nat.lt_succ_of_le hcount) (by omega) h.answered
          | _ =>
              dsimp only
              rw [skipLevel_scratch]
              exact counted

theorem parseLevelsLoop_recorded (side : BookSide) (isPartial : Bool) (es : Elements)
    {s : LevelsState} {calls : List InsertCall} (h : Recorded s.scratch calls) :
    Recorded (parseLevelsLoop side isPartial es s).1.scratch
      (calls ++ parseLevelsLoopCalls side isPartial es s) := by
  match es with
  | .done =>
      rw [parseLevelsLoopCalls, List.append_nil]
      exact h
  | .error _ =>
      rw [parseLevelsLoopCalls, List.append_nil]
      exact h
  | .next value rest =>
      have hone := parseLevel_recorded side isPartial value h
      unfold parseLevelsLoop parseLevelsLoopCalls
      rw [← List.append_assoc]
      cases hcall : parseLevel side isPartial value s with
      | mk s' failure =>
          rw [hcall] at hone
          cases failure with
          | some failure =>
              rw [List.append_nil]
              exact hone
          | none => exact parseLevelsLoop_recorded side isPartial rest hone

theorem LevelArray.recorded (a : LevelArray) {scratch : Scratch} {calls : List InsertCall}
    (h : Recorded scratch calls) : Recorded (a.scratch scratch) (calls ++ a.calls scratch) := by
  unfold LevelArray.scratch LevelArray.calls parseLevels
  cases a.value.type with
  | error e =>
      rw [List.append_nil]
      exact h
  | ok type =>
      cases type with
      | array =>
          have hloop := parseLevelsLoop_recorded a.side a.isPartial a.value.elements
            (s := { scratch := scratch }) h
          dsimp only
          split
          · rename_i hcall
            rw [hcall] at hloop
            exact hloop
          · rename_i hcall
            rw [hcall] at hloop
            exact hloop
      | _ =>
          rw [List.append_nil]
          exact h

theorem arrays_recorded (arrays : List LevelArray) {scratch : Scratch} {calls : List InsertCall}
    (h : Recorded scratch calls) :
    Recorded (arraysScratch arrays scratch) (calls ++ arraysCalls arrays scratch) := by
  induction arrays generalizing scratch calls with
  | nil =>
      rw [arraysCalls, List.append_nil]
      exact h
  | cons a arrays ih =>
      rw [arraysScratch, arraysCalls, ← List.append_assoc]
      exact ih (a.recorded h)

/-! ## The arrays of a message -/

namespace DepthState

theorem readLevels_scratch (s : DepthState) (value : Value) (side : BookSide) (isPartial : Bool) :
    (s.readLevels value side isPartial).scratch =
      (parseLevels value side isPartial s.scratch).2.2 := by
  unfold readLevels
  dsimp only
  split
  · split
    · rfl
    · rw [record_scratch]
      rfl
  · rfl

theorem duplicateField_scratch (s : DepthState) (field : DepthField) (value : Value) :
    (s.duplicateField field value).scratch = s.scratch := by
  unfold duplicateField
  dsimp only
  split
  · exact record_scratch s _ _ _
  · exact record_scratch s _ _ _

/-- Only a level array changes the scratch. -/
theorem readField_scratch (s : DepthState) (kind : StreamKind) (expectedSymbol : Bytes)
    {field : DepthField} (value : Value) (hb : field ≠ .bids) (ha : field ≠ .asks) :
    (s.readField kind expectedSymbol field value).scratch = s.scratch := by
  unfold readField
  cases field with
  | bids => exact absurd rfl hb
  | asks => exact absurd rfl ha
  | eventType | symbol =>
      dsimp only
      split
      · exact applyFailure_scratch s _
      · split
        · exact record_scratch s _ _ _
        · rfl
  | eventTime | transactionTime | firstUpdateId | finalUpdateId | previousUpdateId
  | lastUpdateId => exact readId_scratch s _ _ _

theorem visit_scratch (s : DepthState) (venue : PayloadVenue) (kind : StreamKind)
    (expectedSymbol key : Bytes) (value : Value) :
    (s.visit venue kind expectedSymbol key value).scratch =
      arraysScratch (visitArrays venue kind key value s) s.scratch := by
  unfold visit visitArrays
  cases depthField venue kind key with
  | none =>
      dsimp only
      split <;> rfl
  | some field =>
      dsimp only
      by_cases hmarked : field ∈ s.marked
      · rw [if_pos hmarked, duplicateField_scratch]
        cases field <;> simp only [hmarked, ↓reduceIte] <;> rfl
      · rw [if_neg hmarked]
        cases field with
        | bids =>
            rw [if_neg hmarked]
            exact readLevels_scratch _ value .bid _
        | asks =>
            rw [if_neg hmarked]
            exact readLevels_scratch _ value .ask _
        | _ => exact readField_scratch _ kind expectedSymbol value (by simp) (by simp)

end DepthState

theorem arraysScratch_append (first second : List LevelArray) (scratch : Scratch) :
    arraysScratch (first ++ second) scratch =
      arraysScratch second (arraysScratch first scratch) := by
  induction first generalizing scratch with
  | nil => rfl
  | cons a first ih => exact ih (a.scratch scratch)

theorem parseDepthLoop_scratch (venue : PayloadVenue) (kind : StreamKind) (expectedSymbol : Bytes)
    (fields : Fields) (s : DepthState) :
    (parseDepthLoop venue kind expectedSymbol fields s).1.scratch =
      arraysScratch (depthArrays venue kind expectedSymbol fields s) s.scratch := by
  match fields with
  | .done => rfl
  | .error e => rfl
  | .next key value rest =>
      unfold parseDepthLoop depthArrays
      cases key with
      | error e => rfl
      | ok key =>
          dsimp only
          rw [arraysScratch_append, ← DepthState.visit_scratch s venue kind expectedSymbol]
          split
          · rfl
          · exact parseDepthLoop_scratch venue kind expectedSymbol rest _

theorem parseDepth_scratch (fields : Fields) (venue : PayloadVenue) (kind : StreamKind)
    (expectedSymbol : Bytes) (scratch : Scratch) :
    (parseDepth fields venue kind expectedSymbol scratch).2 =
      (parseDepthLoop venue kind expectedSymbol fields
        { result := { event := { kind := kind } }, scratch := scratch }).1.scratch := by
  unfold parseDepth
  split
  · rename_i hcall
    rw [hcall]
  · rename_i hcall
    rw [hcall]
    split <;> rfl

/-- A message that is not refused for its size begins, and then only its level arrays
change the scratch. -/
theorem parsePayload_scratch (json : Library) (scratch : Scratch) (venue : PayloadVenue)
    (kind : StreamKind) (expectedSymbol : Bytes) {payload : Bytes}
    (h : payload.length ≤ maxPayloadBytes) :
    (parsePayload json scratch venue kind expectedSymbol payload).2 =
      arraysScratch (payloadArrays json scratch venue kind expectedSymbol payload)
        scratch.beginMessage := by
  unfold parsePayload payloadArrays
  rw [if_neg (Nat.not_lt.mpr h), if_neg (Nat.not_lt.mpr h)]
  cases json.iterate payload with
  | error e => rfl
  | ok document =>
      dsimp only
      cases document.type with
      | error e => rfl
      | ok type =>
          cases type with
          | object =>
              dsimp only
              split
              · rfl
              · rw [parseDepth_scratch, parseDepthLoop_scratch]
          | _ =>
              dsimp only
              split <;> rfl

/-! ## Any history -/

/-- A payload handed to the parser. -/
structure PayloadMessage where
  json : Library
  venue : PayloadVenue
  kind : StreamKind
  expectedSymbol : Bytes
  payload : Bytes

namespace SpotPayloadParser

def receive (p : SpotPayloadParser) (m : PayloadMessage) : SpotPayloadParser :=
  (p.parse m.json m.venue m.kind m.expectedSymbol m.payload).2

/-- The calls of `insert_unique` while a message is parsed. -/
def calls (p : SpotPayloadParser) (m : PayloadMessage) : List InsertCall :=
  payloadCalls m.json p.scratch m.venue m.kind m.expectedSymbol m.payload

/-- Whatever the slots and the generation are, the calls of a message are answered from
its own keys. -/
theorem calls_recorded (p : SpotPayloadParser) (m : PayloadMessage) :
    Answered (p.calls m) ∧ (m.payload.length ≤ maxPayloadBytes →
      (p.receive m).scratch.updates.length ≤ maxDepthUpdates) := by
  have hrecorded := arrays_recorded
    (payloadArrays m.json p.scratch m.venue m.kind m.expectedSymbol m.payload)
    (Recorded.start p.aged)
  refine ⟨hrecorded.answered, fun hsize => ?_⟩
  have hscratch : (p.receive m).scratch = _ :=
    parsePayload_scratch m.json p.scratch m.venue m.kind m.expectedSymbol hsize
  rw [hscratch]
  exact hrecorded.updates

theorem receive_oversized (p : SpotPayloadParser) {m : PayloadMessage}
    (h : maxPayloadBytes < m.payload.length) : (p.receive m).scratch = p.scratch := by
  simp [receive, parse, parsePayload, h]

theorem history_updates (history : List PayloadMessage) :
    (history.foldl receive {}).scratch.updates.length ≤ maxDepthUpdates := by
  induction history using List.reverseRecOn with
  | nil => exact Nat.zero_le _
  | append_singleton history m ih =>
      rw [List.foldl_append]
      change ((history.foldl receive {}).receive m).scratch.updates.length ≤ _
      rcases Nat.lt_or_ge maxPayloadBytes m.payload.length with hlarge | hsize
      · rw [receive_oversized _ hlarge]
        exact ih
      · exact (calls_recorded _ m).2 hsize

/-- After any history of messages, so also after the generation has wrapped: a call of
`insert_unique` reports a duplicate exactly if its key was passed before in the message,
the table is never full, and every accepted level has its place in the buffer. -/
theorem insertUnique_answers (history : List PayloadMessage) (m : PayloadMessage) :
    let p := history.foldl receive {}
    (∀ pre call post, p.calls m = pre ++ call :: post →
      (call.result = .duplicate ↔ call.key ∈ pre.map InsertCall.key) ∧
      (call.result = .inserted ↔ call.key ∉ pre.map InsertCall.key) ∧
      call.result ≠ .tableFull ∧ call.updateCount < maxDepthUpdates) ∧
    p.scratch.updates.length ≤ maxDepthUpdates ∧
    (p.receive m).scratch.updates.length ≤ maxDepthUpdates := by
  intro p
  have hnext := history_updates (history ++ [m])
  rw [List.foldl_append] at hnext
  refine ⟨fun pre call post heq => ?_, history_updates history, hnext⟩
  obtain ⟨hresult, hcount⟩ := (calls_recorded p m).1 pre call post heq
  by_cases hmem : call.key ∈ pre.map InsertCall.key
  · rw [if_pos hmem] at hresult
    simp [hresult, hmem, hcount]
  · rw [if_neg hmem] at hresult
    simp [hresult, hmem, hcount]

section Sample

/-- A differential event with one price twice. -/
private def repeatedPrice : Compact := .diff 1 1 [("10", "1"), ("9", "1"), ("10", "2")] []

private def repeatedMessage : PayloadMessage :=
  { json := .ofDocuments [repeatedPrice], venue := .spot, kind := .depthDiff,
    expectedSymbol := ascii "BTCUSDT", payload := repeatedPrice.text }

/-- The second message finds the keys of the first one in its slots. -/
theorem insertUnique_answers_sample : ∃ first second third,
    (([repeatedMessage].foldl receive {} : SpotPayloadParser).calls repeatedMessage =
      [first, second, third]) ∧
    first.key = third.key ∧ first.result = .inserted ∧ third.result = .duplicate := by
  have hkeys : (([repeatedMessage].foldl receive {} : SpotPayloadParser).calls repeatedMessage).map
      InsertCall.key = [(1000000000, .bid), (900000000, .bid), (1000000000, .bid)] := by
    decide +kernel
  obtain ⟨first, rest, hcalls, hfirst, hrest⟩ := List.map_eq_cons_iff.mp hkeys
  obtain ⟨second, rest, rfl, -, hrest⟩ := List.map_eq_cons_iff.mp hrest
  obtain ⟨third, rest, rfl, hthird, hrest⟩ := List.map_eq_cons_iff.mp hrest
  obtain rfl := List.map_eq_nil_iff.mp hrest
  have answers := (insertUnique_answers [repeatedMessage] repeatedMessage).1
  refine ⟨first, second, third, hcalls, hfirst.trans hthird.symm, ?_, ?_⟩
  · exact (answers [] first [second, third] hcalls).2.1.mpr (by simp)
  · exact (answers [first, second] third [] hcalls).1.mpr (by simp [hfirst, hthird])

end Sample

end SpotPayloadParser

end MarketCapture
