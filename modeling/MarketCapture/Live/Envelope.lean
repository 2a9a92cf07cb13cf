import MarketCapture.Live.Subscription
import MarketCapture.Payload.Ondemand

/-! # The combined-stream envelope

`{"stream": name, "data": payload}` over the On-Demand answers. A first semantic
error is recorded and the traversal goes on; an error of the document ends it. A
failure names a route only if the stream name was read once and is known. The
buffer checks hold of every message by construction of the pipeline's buffer.
-/

namespace MarketCapture

open Simdjson JsonValidation

inductive LiveEnvelopeErrorCode where
  | none
  | invalidInputBuffer
  | messageTooLarge
  | jsonNestingTooDeep
  | malformedJson
  | rootNotObject
  | missingStream
  | missingData
  | duplicateStream
  | duplicateData
  | streamWrongType
  | streamNameTooLong
  | unknownStream
  | dataNotObject
  | payloadMinifyFailed
  deriving DecidableEq, Repr

inductive LiveEnvelopeField where
  | none | root | stream | data | unknown
  deriving DecidableEq, Repr

structure LiveEnvelopeResult where
  route : Option LiveRoute := none
  payload : Option Bytes := none
  error : LiveEnvelopeErrorCode := .none
  field : LiveEnvelopeField := .none
  deriving DecidableEq, Repr

def LiveEnvelopeResult.success (r : LiveEnvelopeResult) : Bool :=
  decide (r.error = .none) && r.route.isSome && r.payload.isSome

namespace LiveEnvelopeParser

def envelopeChildContainerDepth : Nat := 2

def classifyJsonError (e : ErrorCode) : LiveEnvelopeErrorCode :=
  if e = .depthError then .jsonNestingTooDeep else .malformedJson

def fail (error : LiveEnvelopeErrorCode) (field : LiveEnvelopeField)
    (route : Option LiveRoute := none) : LiveEnvelopeResult :=
  { route := route, error := error, field := field }

/-- The locals of the field loop. -/
structure Seen where
  streamSeen : Bool := false
  streamValid : Bool := false
  streamAmbiguous : Bool := false
  dataSeen : Bool := false
  streamName : Bytes := []
  rawData : Bytes := []
  semanticError : LiveEnvelopeErrorCode := .none
  semanticField : LiveEnvelopeField := .none

def Seen.recordSemanticError (s : Seen) (code : LiveEnvelopeErrorCode)
    (field : LiveEnvelopeField) : Seen :=
  if s.semanticError = .none then { s with semanticError := code, semanticField := field } else s

def Seen.knownRoute (s : Seen) (subscription : LiveSubscription) : Option LiveRoute :=
  if !s.streamValid || s.streamAmbiguous then none
  else (subscription.findRoute s.streamName).route

def readStream (s : Seen) (value : Value) (subscription : LiveSubscription) :
    Except LiveEnvelopeResult Seen :=
  if s.streamSeen then
    let s := { s with streamAmbiguous := true }.recordSemanticError .duplicateStream .stream
    match validateValue value envelopeChildContainerDepth with
    | some e => .error (fail (classifyJsonError e) .stream)
    | none => .ok s
  else
    let s := { s with streamSeen := true }
    match value.type with
    | .error e => .error (fail (classifyJsonError e) .stream (s.knownRoute subscription))
    | .ok .string =>
        match value.getString with
        | .error e => .error (fail (classifyJsonError e) .stream)
        | .ok name => .ok { s with streamName := name, streamValid := true }
    | .ok _ =>
        match validateValue value envelopeChildContainerDepth with
        | some e => .error (fail (classifyJsonError e) .stream)
        | none => .ok (s.recordSemanticError .streamWrongType .stream)

def readData (s : Seen) (value : Value) (subscription : LiveSubscription) :
    Except LiveEnvelopeResult Seen :=
  let failed (e : ErrorCode) : LiveEnvelopeResult :=
    fail (classifyJsonError e) .data (s.knownRoute subscription)
  if s.dataSeen then
    match validateValue value envelopeChildContainerDepth with
    | some e => .error (failed e)
    | none => .ok (s.recordSemanticError .duplicateData .data)
  else
    let s := { s with dataSeen := true }
    match value.type with
    | .error e => .error (failed e)
    | .ok .object =>
        match value.rawJson with
        | .error e => .error (failed e)
        | .ok raw => .ok { s with rawData := raw }
    | .ok _ =>
        match validateValue value envelopeChildContainerDepth with
        | some e => .error (failed e)
        | none => .ok (s.recordSemanticError .dataNotObject .data)

def readField (s : Seen) (key : Bytes) (value : Value) (subscription : LiveSubscription) :
    Except LiveEnvelopeResult Seen :=
  if key = ascii "stream" then readStream s value subscription
  else if key = ascii "data" then readData s value subscription
  else
    match validateValue value envelopeChildContainerDepth with
    | some e => .error (fail (classifyJsonError e) .unknown (s.knownRoute subscription))
    | none => .ok s

def readFields (subscription : LiveSubscription) : Fields → Seen → Except LiveEnvelopeResult Seen
  | .done, s => .ok s
  | .error e, s => .error (fail (classifyJsonError e) .root (s.knownRoute subscription))
  | .next key value rest, s =>
      match key with
      | .error e => .error (fail (classifyJsonError e) .root (s.knownRoute subscription))
      | .ok key =>
          match readField s key value subscription with
          | .error failure => .error failure
          | .ok s => readFields subscription rest s

/-- The checks after the field loop, and the minified payload. -/
def finish (json : Library) (subscription : LiveSubscription) (s : Seen) : LiveEnvelopeResult :=
  if !s.streamSeen then fail .missingStream .stream
  else
    let route := subscription.findRoute s.streamName
    let safeRoute := if s.streamValid && !s.streamAmbiguous then route.route else none
    if s.semanticError ≠ .none then fail s.semanticError s.semanticField safeRoute
    else if !s.dataSeen then fail .missingData .data safeRoute
    else if !route.success then
      fail (if route.error = .streamNameTooLong then .streamNameTooLong else .unknownStream) .stream
    else
      match json.minify s.rawData with
      | .error _ => fail .payloadMinifyFailed .data route.route
      | .ok payload => { route := route.route, payload := some payload }

def parse (json : Library) (combinedMessage : Bytes) (subscription : LiveSubscription) :
    LiveEnvelopeResult :=
  if combinedMessage.length > maxPayloadBytes then fail .messageTooLarge .root
  else
    match json.iterate combinedMessage with
    | .error e => fail (classifyJsonError e) .root
    | .ok document =>
        match document.type with
        | .error e => fail (classifyJsonError e) .root
        | .ok .object =>
            match readFields subscription document.fields {} with
            | .error failure => failure
            | .ok s => finish json subscription s
        | .ok type =>
            match validateNonObjectDocument document type combinedMessage
                envelopeChildContainerDepth with
            | none => fail .rootNotObject .root
            | some e => fail (classifyJsonError e) .root

/-! ## Routes of envelopes -/

/-- A result names no route that the subscription does not have. -/
def Known (subscription : LiveSubscription) (r : LiveEnvelopeResult) : Prop :=
  ∀ route, r.route = some route → route ∈ subscription.routes

theorem known_fail (subscription : LiveSubscription) (error : LiveEnvelopeErrorCode)
    (field : LiveEnvelopeField) : Known subscription (fail error field) :=
  fun _ h => nomatch h

theorem known_knownRoute (s : Seen) (subscription : LiveSubscription)
    (error : LiveEnvelopeErrorCode) (field : LiveEnvelopeField) :
    Known subscription (fail error field (s.knownRoute subscription)) := by
  intro route h
  simp only [fail, Seen.knownRoute] at h
  split at h
  · cases h
  · exact LiveSubscription.findRoute_mem h

theorem readStream_known {s : Seen} {value : Value} {subscription : LiveSubscription}
    {r : LiveEnvelopeResult} (h : readStream s value subscription = .error r) :
    Known subscription r := by
  unfold readStream at h
  simp only at h
  split at h
  · split at h
    · obtain rfl := Except.error.inj h
      exact known_fail _ _ _
    · cases h
  · split at h
    · obtain rfl := Except.error.inj h
      exact known_knownRoute _ _ _ _
    · split at h
      · obtain rfl := Except.error.inj h
        exact known_fail _ _ _
      · cases h
    · split at h
      · obtain rfl := Except.error.inj h
        exact known_fail _ _ _
      · cases h

theorem readData_known {s : Seen} {value : Value} {subscription : LiveSubscription}
    {r : LiveEnvelopeResult} (h : readData s value subscription = .error r) :
    Known subscription r := by
  suffices hs : ∃ e, r = fail (classifyJsonError e) .data (s.knownRoute subscription) by
    obtain ⟨e, rfl⟩ := hs
    exact known_knownRoute _ _ _ _
  unfold readData at h
  simp only at h
  split at h
  · split at h
    · exact ⟨_, (Except.error.inj h).symm⟩
    · cases h
  · split at h
    · exact ⟨_, (Except.error.inj h).symm⟩
    · split at h
      · exact ⟨_, (Except.error.inj h).symm⟩
      · cases h
    · split at h
      · exact ⟨_, (Except.error.inj h).symm⟩
      · cases h

theorem readField_known {s : Seen} {key : Bytes} {value : Value} {subscription : LiveSubscription}
    {r : LiveEnvelopeResult} (h : readField s key value subscription = .error r) :
    Known subscription r := by
  unfold readField at h
  split at h
  · exact readStream_known h
  · split at h
    · exact readData_known h
    · split at h
      · obtain rfl := Except.error.inj h
        exact known_knownRoute _ _ _ _
      · cases h

theorem readFields_known {subscription : LiveSubscription} (fields : Fields) (s : Seen)
    {r : LiveEnvelopeResult} (h : readFields subscription fields s = .error r) :
    Known subscription r := by
  match fields with
  | .done => cases h
  | .error e =>
      obtain rfl := Except.error.inj h
      exact known_knownRoute _ _ _ _
  | .next key value rest =>
      unfold readFields at h
      split at h
      · obtain rfl := Except.error.inj h
        exact known_knownRoute _ _ _ _
      · split at h
        · rename_i hfield
          obtain rfl := Except.error.inj h
          exact readField_known hfield
        · exact readFields_known rest _ h

theorem finish_known (json : Library) (subscription : LiveSubscription) (s : Seen) :
    Known subscription (finish json subscription s) := by
  have found : ∀ route, (subscription.findRoute s.streamName).route = some route →
      route ∈ subscription.routes := fun _ h => LiveSubscription.findRoute_mem h
  have safe : ∀ route, (if s.streamValid && !s.streamAmbiguous then
      (subscription.findRoute s.streamName).route else none) = some route →
      route ∈ subscription.routes := by
    intro route h
    split at h
    · exact found route h
    · cases h
  unfold finish
  simp only
  split
  · exact known_fail _ _ _
  · split
    · exact safe
    · split
      · exact safe
      · split
        · exact known_fail _ _ _
        · split
          · exact found
          · exact found

/-- Every route in a result is a route of the subscription. -/
theorem parse_known (json : Library) (combinedMessage : Bytes) (subscription : LiveSubscription) :
    Known subscription (parse json combinedMessage subscription) := by
  unfold parse
  split
  · exact known_fail _ _ _
  · split
    · exact known_fail _ _ _
    · split
      · exact known_fail _ _ _
      · split
        · rename_i hfields
          exact readFields_known _ _ hfields
        · exact finish_known _ _ _
      · split
        · exact known_fail _ _ _
        · exact known_fail _ _ _

end LiveEnvelopeParser

end MarketCapture
