import MarketCapture.Live.Pipeline
import MarketCapture.Live.Routing
import MarketCapture.Payload.Document

/-! # Routing of envelopes

On a valid compact object the field loop never fails, and what it has seen depends
on the values under `stream` and `data` alone. A route is resolved exactly for a
single stream name, so neither it nor the payload depends on the order of fields.
-/

namespace MarketCapture

open Simdjson JsonText JsonValidation

namespace LiveEnvelopeParser

/-! ## What the field loop has seen -/

def objectText : Node → Option Bytes
  | .object opened members closed => some (Node.object opened members closed).text
  | _ => none

/-- The locals of the loop after these streams and these data values. -/
structure Tracks (streams datas : List Node) (s : Seen) : Prop where
  streamSeen : s.streamSeen = !streams.isEmpty
  ambiguous : s.streamAmbiguous = decide (2 ≤ streams.length)
  streamValid : s.streamValid = (streams.head?.bind stringContent).isSome
  streamName : s.streamName = (streams.head?.bind stringContent).getD []
  dataSeen : s.dataSeen = !datas.isEmpty
  rawData : s.rawData = (datas.head?.bind objectText).getD []
  semantic : s.semanticError = .none ↔
    streams.length ≤ 1 ∧ datas.length ≤ 1 ∧ (∀ v ∈ streams, (stringContent v).isSome = true) ∧
      ∀ v ∈ datas, (objectText v).isSome = true

theorem recordSemanticError_error (s : Seen) {code : LiveEnvelopeErrorCode}
    (field : LiveEnvelopeField) (h : code ≠ .none) :
    (s.recordSemanticError code field).semanticError ≠ .none := by
  by_cases hs : s.semanticError = .none <;> simp [Seen.recordSemanticError, hs, h]

@[simp] theorem recordSemanticError_streamSeen (s : Seen) (code : LiveEnvelopeErrorCode)
    (field : LiveEnvelopeField) : (s.recordSemanticError code field).streamSeen = s.streamSeen := by
  by_cases hs : s.semanticError = .none <;> simp [Seen.recordSemanticError, hs]

@[simp] theorem recordSemanticError_streamAmbiguous (s : Seen) (code : LiveEnvelopeErrorCode)
    (field : LiveEnvelopeField) : (s.recordSemanticError code field).streamAmbiguous = s.streamAmbiguous := by
  by_cases hs : s.semanticError = .none <;> simp [Seen.recordSemanticError, hs]

@[simp] theorem recordSemanticError_streamValid (s : Seen) (code : LiveEnvelopeErrorCode)
    (field : LiveEnvelopeField) : (s.recordSemanticError code field).streamValid = s.streamValid := by
  by_cases hs : s.semanticError = .none <;> simp [Seen.recordSemanticError, hs]

@[simp] theorem recordSemanticError_streamName (s : Seen) (code : LiveEnvelopeErrorCode)
    (field : LiveEnvelopeField) : (s.recordSemanticError code field).streamName = s.streamName := by
  by_cases hs : s.semanticError = .none <;> simp [Seen.recordSemanticError, hs]

@[simp] theorem recordSemanticError_dataSeen (s : Seen) (code : LiveEnvelopeErrorCode)
    (field : LiveEnvelopeField) : (s.recordSemanticError code field).dataSeen = s.dataSeen := by
  by_cases hs : s.semanticError = .none <;> simp [Seen.recordSemanticError, hs]

@[simp] theorem recordSemanticError_rawData (s : Seen) (code : LiveEnvelopeErrorCode)
    (field : LiveEnvelopeField) : (s.recordSemanticError code field).rawData = s.rawData := by
  by_cases hs : s.semanticError = .none <;> simp [Seen.recordSemanticError, hs]

/-! ## One field -/

/-- The locals after a `stream` field that passes its checks. -/
def Seen.visitStream (s : Seen) (node : Node) : Seen :=
  if s.streamSeen then { s with streamAmbiguous := true }.recordSemanticError .duplicateStream .stream
  else
    match stringContent node with
    | some name => { s with streamSeen := true, streamName := name, streamValid := true }
    | none => { s with streamSeen := true }.recordSemanticError .streamWrongType .stream

/-- The locals after a `data` field that passes its checks. -/
def Seen.visitData (s : Seen) (node : Node) : Seen :=
  if s.dataSeen then s.recordSemanticError .duplicateData .data
  else
    match objectText node with
    | some text => { s with dataSeen := true, rawData := text }
    | none => { s with dataSeen := true }.recordSemanticError .dataNotObject .data

def Seen.visit (s : Seen) (key : Bytes) (node : Node) : Seen :=
  if key = ascii "stream" then s.visitStream node
  else if key = ascii "data" then s.visitData node
  else s

/-- The generic validation reads the value of this field. -/
def Seen.Checks (s : Seen) (key : Bytes) (node : Node) : Prop :=
  (key = ascii "stream" → s.streamSeen = true ∨ stringContent node = none) ∧
    (key = ascii "data" → s.dataSeen = true ∨ objectText node = none)

theorem stringContent_of_wellFormed {node : Node} (h : node.WellFormed) :
    (∃ raw after name, node = .string raw after ∧ decodeString raw = some name) ∨
      ((∀ raw after, node ≠ .string raw after) ∧ stringContent node = none) := by
  cases node with
  | string raw after =>
      simp only [Node.WellFormed] at h
      obtain ⟨name, hname, -⟩ := stringAnswer_of_isString h.1
      exact .inl ⟨raw, after, name, rfl, hname⟩
  | _ => exact .inr ⟨fun _ _ => nofun, rfl⟩

section Fields

variable {s : Seen} {subscription : LiveSubscription} {node : Node}

theorem readStream_visit (hnode : node.WellFormed)
    (hvalid : s.streamSeen = true ∨ stringContent node = none →
      validateValue (valueOf node) envelopeChildContainerDepth = none) :
    readStream s (valueOf node) subscription = .ok (s.visitStream node) := by
  by_cases hs : s.streamSeen = true
  · simp only [readStream, Seen.visitStream, hs, ↓reduceIte, hvalid (.inl hs)]
  · rw [readStream, if_neg hs, Seen.visitStream, if_neg hs]
    obtain ⟨raw, after, name, rfl, hname⟩ | ⟨hstring, hnone⟩ := stringContent_of_wellFormed hnode
    · simp [valueOf, Value.type, Value.getString, Value.answers, stringAnswer, stringContent, hname]
    · have hv := hvalid (.inr hnone)
      cases node with
      | string raw after => exact absurd rfl (hstring raw after)
      | _ => simp_all [valueOf, Value.type, Value.answers]

theorem readData_visit
    (hvalid : s.dataSeen = true ∨ objectText node = none →
      validateValue (valueOf node) envelopeChildContainerDepth = none) :
    readData s (valueOf node) subscription = .ok (s.visitData node) := by
  by_cases hs : s.dataSeen = true
  · simp only [readData, Seen.visitData, hs, ↓reduceIte, hvalid (.inl hs)]
  · simp only [readData, Seen.visitData, hs, Bool.false_eq_true, ↓reduceIte]
    cases node with
    | object opened members closed => rfl
    | _ =>
        have hv := hvalid (.inr rfl)
        simp_all [valueOf, Value.type, Value.answers, objectText]

theorem readField_visit {key : Bytes} (hnode : node.WellFormed)
    (hvalid : s.Checks key node → validateValue (valueOf node) envelopeChildContainerDepth = none) :
    readField s key (valueOf node) subscription = .ok (s.visit key node) := by
  have hdistinct : ascii "data" ≠ ascii "stream" := by decide
  by_cases hstream : key = ascii "stream"
  · simp only [readField, Seen.visit, hstream, ↓reduceIte]
    refine readStream_visit hnode (fun hs => hvalid ⟨fun _ => hs, fun hkey => ?_⟩)
    exact absurd (hkey.symm.trans hstream) hdistinct
  · by_cases hdata : key = ascii "data"
    · simp only [readField, Seen.visit, hdata, hdistinct, ↓reduceIte]
      exact readData_visit (fun hs => hvalid ⟨fun hkey => absurd hkey hstream, fun _ => hs⟩)
    · have hv := hvalid ⟨fun hkey => absurd hkey hstream, fun hkey => absurd hkey hdata⟩
      simp only [readField, Seen.visit, hstream, hdata, ↓reduceIte, hv]

variable {streams datas : List Node}

theorem Tracks.visitStream (h : Tracks streams datas s) (node : Node) :
    Tracks (streams ++ [node]) datas (s.visitStream node) := by
  by_cases hseen : streams = []
  · subst hseen
    have hs : ¬s.streamSeen = true := by simp [h.streamSeen]
    cases hname : stringContent node with
    | some name =>
        simp only [Seen.visitStream, hs, Bool.false_eq_true, ↓reduceIte, hname, List.nil_append]
        refine ⟨rfl, h.ambiguous, ?_, ?_, h.dataSeen, h.rawData, ?_⟩
        · simp [hname]
        · simp [hname]
        · simpa [hname] using h.semantic
    | none =>
        simp only [Seen.visitStream, hs, Bool.false_eq_true, ↓reduceIte, hname, List.nil_append]
        refine ⟨?_, ?_, ?_, ?_, ?_, ?_, ?_⟩
        · simp
        · simp [h.ambiguous]
        · simp [h.streamValid, hname]
        · simp [h.streamName, hname]
        · simp [h.dataSeen]
        · simp [h.rawData]
        · have herror := recordSemanticError_error { s with streamSeen := true } .stream
            (show LiveEnvelopeErrorCode.streamWrongType ≠ .none by decide)
          simp [herror, hname]
  · obtain ⟨first, rest, rfl⟩ := List.exists_cons_of_ne_nil hseen
    have hs : s.streamSeen = true := by simp [h.streamSeen]
    rw [Seen.visitStream, if_pos hs]
    refine ⟨?_, ?_, ?_, ?_, ?_, ?_, ?_⟩
    · simp [h.streamSeen]
    · simp
    · simp [h.streamValid]
    · simp [h.streamName]
    · simp [h.dataSeen]
    · simp [h.rawData]
    · have herror := recordSemanticError_error { s with streamAmbiguous := true } .stream
        (show LiveEnvelopeErrorCode.duplicateStream ≠ .none by decide)
      simp [herror]

theorem Tracks.visitData (h : Tracks streams datas s) (node : Node) :
    Tracks streams (datas ++ [node]) (s.visitData node) := by
  by_cases hseen : datas = []
  · subst hseen
    have hs : ¬s.dataSeen = true := by simp [h.dataSeen]
    cases htext : objectText node with
    | some text =>
        simp only [Seen.visitData, hs, Bool.false_eq_true, ↓reduceIte, htext, List.nil_append]
        refine ⟨h.streamSeen, h.ambiguous, h.streamValid, h.streamName, rfl, ?_, ?_⟩
        · simp [htext]
        · simpa [htext] using h.semantic
    | none =>
        simp only [Seen.visitData, hs, Bool.false_eq_true, ↓reduceIte, htext, List.nil_append]
        refine ⟨?_, ?_, ?_, ?_, ?_, ?_, ?_⟩
        · simp [h.streamSeen]
        · simp [h.ambiguous]
        · simp [h.streamValid]
        · simp [h.streamName]
        · simp
        · simp [h.rawData, htext]
        · have herror := recordSemanticError_error { s with dataSeen := true } .data
            (show LiveEnvelopeErrorCode.dataNotObject ≠ .none by decide)
          simp [herror, htext]
  · obtain ⟨first, rest, rfl⟩ := List.exists_cons_of_ne_nil hseen
    have hs : s.dataSeen = true := by simp [h.dataSeen]
    rw [Seen.visitData, if_pos hs]
    refine ⟨?_, ?_, ?_, ?_, ?_, ?_, ?_⟩
    · simp [h.streamSeen]
    · simp [h.ambiguous]
    · simp [h.streamValid]
    · simp [h.streamName]
    · simp [h.dataSeen]
    · simp [h.rawData]
    · have herror := recordSemanticError_error s .data
        (show LiveEnvelopeErrorCode.duplicateData ≠ .none by decide)
      simp [herror]

end Fields

/-- The locals after these fields. -/
def TracksFields (done : List Member) (s : Seen) : Prop :=
  Tracks (valuesOf (ascii "stream") done) (valuesOf (ascii "data") done) s

theorem tracksFields_nil : TracksFields [] {} :=
  ⟨rfl, rfl, rfl, rfl, rfl, rfl, by simp [valuesOf]⟩

/-- One member: its value is added to those under its key. -/
theorem TracksFields.visit {done : List Member} {s : Seen} (h : TracksFields done s) {m : Member}
    {key : Bytes} (hkey : decodeString m.key = some key) :
    TracksFields (done ++ [m]) (s.visit key m.value) := by
  have hdistinct : ascii "data" ≠ ascii "stream" := by decide
  rw [TracksFields, valuesOf_append, valuesOf_append, valuesOf_single, valuesOf_single, hkey]
  by_cases hstream : key = ascii "stream"
  · subst hstream
    simp only [Seen.visit, ↓reduceIte, Option.some.injEq, hdistinct.symm, List.append_nil]
    exact Tracks.visitStream h m.value
  · by_cases hdata : key = ascii "data"
    · subst hdata
      simp only [Seen.visit, hdistinct, ↓reduceIte, Option.some.injEq, List.append_nil]
      exact Tracks.visitData h m.value
    · simp only [Seen.visit, hstream, hdata, ↓reduceIte, Option.some.injEq, List.append_nil]
      exact h

/-- The generic validation reads the value of a field that comes after these ones. -/
def Checked (done : List Member) (m : Member) : Prop :=
  (decodeString m.key = some (ascii "stream") →
    valuesOf (ascii "stream") done ≠ [] ∨ stringContent m.value = none) ∧
  (decodeString m.key = some (ascii "data") →
    valuesOf (ascii "data") done ≠ [] ∨ objectText m.value = none)

/-- The generic validation meets a number or a null with whitespace after it. -/
def TrailedAt (done : List Member) (m : Member) : Prop := Checked done m ∧ Trailed m.value

def NeverTrailed (done : List Member) : List Member → Prop
  | [] => True
  | m :: rest => ¬TrailedAt done m ∧ NeverTrailed (done ++ [m]) rest

theorem TracksFields.checks_iff {done : List Member} {s : Seen} (h : TracksFields done s) {m : Member}
    {key : Bytes} (hkey : decodeString m.key = some key) : s.Checks key m.value ↔ Checked done m := by
  simp [Seen.Checks, Checked, hkey, h.streamSeen, h.dataSeen]

def Seen.visitAll (s : Seen) : List Member → Seen
  | [] => s
  | m :: rest => (s.visit (keyOf m) m.value).visitAll rest

/-- The members are valid, and nested no deeper than members of an envelope may be. -/
structure Valid (fields : List Member) : Prop where
  wellFormed : ∀ m ∈ fields, m.WellFormed
  nested : ∀ m ∈ fields, m.value.depth + envelopeChildContainerDepth ≤ maxJsonNestingDepth + 1

theorem Valid.tail {m : Member} {rest : List Member} (h : Valid (m :: rest)) : Valid rest :=
  ⟨fun m' hm' => h.wellFormed m' (List.mem_cons_of_mem _ hm'),
    fun m' hm' => h.nested m' (List.mem_cons_of_mem _ hm')⟩

theorem readField_untrailed {done : List Member} {s : Seen} {m : Member}
    (subscription : LiveSubscription) (h : TracksFields done s) (hm : m.WellFormed)
    (hdepth : m.value.depth + envelopeChildContainerDepth ≤ maxJsonNestingDepth + 1)
    (hgood : ¬TrailedAt done m) :
    readField s (keyOf m) (valueOf m.value) subscription = .ok (s.visit (keyOf m) m.value) := by
  refine readField_visit hm.2.2.2.1 (fun hchecks => ?_)
  rcases validateValue_outcome m.value envelopeChildContainerDepth hm.2.2.2.1 hdepth with
    ⟨hv, -⟩ | ⟨e, -, -, htrailed⟩
  · exact hv
  · exact absurd ⟨(h.checks_iff (decodeString_key hm)).mp hchecks, htrailed⟩ hgood

/-- Without trailing whitespace in the way, the loop visits every field. -/
theorem readFields_visitAll (subscription : LiveSubscription) (fields : List Member)
    {done : List Member} {s : Seen} (h : TracksFields done s) (hvalid : Valid fields)
    (hnever : NeverTrailed done fields) :
    readFields subscription (fieldsOf (Members.ofList fields)) s = .ok (s.visitAll fields) ∧
      TracksFields (done ++ fields) (s.visitAll fields) := by
  induction fields generalizing done s with
  | nil => exact ⟨rfl, by simpa [Seen.visitAll] using h⟩
  | cons m rest ih =>
      have hm := hvalid.wellFormed m List.mem_cons_self
      have hkey := decodeString_key hm
      have hread := readField_untrailed subscription h hm (hvalid.nested m List.mem_cons_self)
        hnever.1
      obtain ⟨hrest, htracks⟩ := ih (h.visit hkey) hvalid.tail hnever.2
      refine ⟨?_, by simpa [Seen.visitAll] using htracks⟩
      simp only [Members.ofList, fieldsOf, readFields, stringAnswer, hkey, hread, Seen.visitAll]
      exact hrest

theorem neverTrailed_of_compact {fields : List Member} (done : List Member)
    (h : ∀ m ∈ fields, m.value.strip = m.value) : NeverTrailed done fields := by
  induction fields generalizing done with
  | nil => trivial
  | cons m rest ih =>
      refine ⟨fun htrailed => ?_, ih _ (fun m' hm' => h m' (List.mem_cons_of_mem _ hm'))⟩
      have hbad := htrailed.2
      rw [← h m List.mem_cons_self] at hbad
      exact not_trailed_strip m.value hbad

/-! ## What the parser returns -/

/-- The route of a single stream value that is a known name. -/
def routeOf (subscription : LiveSubscription) : List Node → Option LiveRoute
  | [stream] => (stringContent stream).bind fun name => (subscription.findRoute name).route
  | _ => none

/-- The minified text of a single data value that is an object. -/
def payloadOf : List Node → Option Bytes
  | [data] => (objectText data).map fun _ => data.strip.text
  | _ => none

theorem findRoute_success (subscription : LiveSubscription) (streamName : Bytes) :
    (subscription.findRoute streamName).success = (subscription.findRoute streamName).route.isSome := by
  have hloop : ∀ probes slot, (subscription.findLoop streamName probes slot).success =
      (subscription.findLoop streamName probes slot).route.isSome := by
    intro probes
    induction probes with
    | zero => intro slot; rfl
    | succ probes ih =>
        intro slot
        unfold LiveSubscription.findLoop
        split
        · rfl
        · split
          · rfl
          · split
            · rfl
            · exact ih _
  unfold LiveSubscription.findRoute
  split
  · rfl
  · exact hloop _ _

/-- A result with this route and payload; it is a success exactly when it has one. -/
structure Returns (route : Option LiveRoute) (payload : Option Bytes) (r : LiveEnvelopeResult) :
    Prop where
  sameRoute : r.route = route
  samePayload : r.payload = payload
  success : r.success = payload.isSome

theorem returns_fail (route : Option LiveRoute) {error : LiveEnvelopeErrorCode}
    (field : LiveEnvelopeField) : Returns route none (fail error field route) := by
  refine ⟨rfl, rfl, ?_⟩
  simp [LiveEnvelopeResult.success, fail]

section Finish

variable {json : Library} {subscription : LiveSubscription} {streams datas : List Node} {s : Seen}

theorem finish_unseen (h : Tracks [] datas s) : Returns none none (finish json subscription s) := by
  have hs : s.streamSeen = false := h.streamSeen
  rw [finish, hs]
  exact returns_fail none .stream

/-- A recorded error is reported with the route of a single valid stream. -/
theorem finish_semantic (h : Tracks streams datas s) (hseen : streams ≠ [])
    (herror : s.semanticError ≠ .none) :
    Returns (routeOf subscription streams) none (finish json subscription s) := by
  have hs : s.streamSeen = true := by simp [h.streamSeen, hseen]
  have hroute : (if s.streamValid && !s.streamAmbiguous then
      (subscription.findRoute s.streamName).route else none) = routeOf subscription streams := by
    rw [h.streamValid, h.ambiguous, h.streamName]
    match streams with
    | [] => exact absurd rfl hseen
    | [v] => cases hv : stringContent v <;> simp [routeOf, hv]
    | v :: w :: rest => simp [routeOf]
  simp only [finish, hs, Bool.not_true, Bool.false_eq_true, ↓reduceIte, ne_eq, herror,
    not_false_eq_true, hroute]
  exact returns_fail _ _

/-- One valid stream and no recorded error: what is left is the data and the lookup. -/
theorem finish_valid {v : Node} {name : Bytes} (h : Tracks [v] datas s)
    (hname : stringContent v = some name) (herror : s.semanticError = .none)
    (hminify : ∀ v ∈ datas, json.minify v.text = .ok v.strip.text) :
    Returns (subscription.findRoute name).route
      ((subscription.findRoute name).route.bind fun _ => payloadOf datas)
      (finish json subscription s) := by
  have hs : s.streamSeen = true := h.streamSeen
  have hvalid : s.streamValid = true := by simp [h.streamValid, hname]
  have hsingle : s.streamAmbiguous = false := by simp [h.ambiguous]
  have hstream : s.streamName = name := by simp [h.streamName, hname]
  have hsuccess := findRoute_success subscription name
  simp only [finish, hs, Bool.not_true, Bool.false_eq_true, ↓reduceIte, herror, ne_eq,
    not_true_eq_false, hvalid, hsingle, Bool.not_false, Bool.and_self, hstream]
  obtain ⟨-, hdatas, -, hobjects⟩ := h.semantic.mp herror
  rcases datas with _ | ⟨d, _ | ⟨e, rest⟩⟩
  · have hd : s.dataSeen = false := h.dataSeen
    simp only [hd, Bool.not_false, ↓reduceIte]
    convert returns_fail (subscription.findRoute name).route .data using 1
    cases (subscription.findRoute name).route <;> rfl
  · have hd : s.dataSeen = true := h.dataSeen
    obtain ⟨text, htext⟩ := Option.isSome_iff_exists.mp (hobjects d List.mem_cons_self)
    have hraw : s.rawData = d.text := by
      rw [h.rawData]
      cases d with
      | object opened members closed => rfl
      | _ => cases htext
    have hpayload : payloadOf [d] = some d.strip.text := by simp [payloadOf, htext]
    simp only [hd, Bool.not_true, Bool.false_eq_true, ↓reduceIte, hsuccess, hraw,
      hminify d List.mem_cons_self, hpayload]
    cases hroute : (subscription.findRoute name).route with
    | none =>
        simp only [Option.isSome_none, Bool.not_false, ↓reduceIte, Option.bind_none]
        exact returns_fail none .stream
    | some route =>
        simp only [Option.isSome_some, Bool.not_true, Bool.false_eq_true, ↓reduceIte,
          Option.bind_some]
        exact ⟨rfl, rfl, rfl⟩
  · simp at hdatas

theorem finish_returns (h : Tracks streams datas s)
    (hminify : ∀ v ∈ datas, json.minify v.text = .ok v.strip.text) :
    Returns (routeOf subscription streams)
      ((routeOf subscription streams).bind fun _ => payloadOf datas)
      (finish json subscription s) := by
  by_cases hseen : streams = []
  · subst hseen
    exact finish_unseen h
  · by_cases herror : s.semanticError = .none
    · obtain ⟨hlen, -, hstrings, -⟩ := h.semantic.mp herror
      match streams with
      | [] => exact absurd rfl hseen
      | v :: w :: rest => simp at hlen
      | [v] =>
          obtain ⟨name, hname⟩ := Option.isSome_iff_exists.mp (hstrings v List.mem_cons_self)
          have hroute : routeOf subscription [v] = (subscription.findRoute name).route := by
            simp [routeOf, hname]
          rw [hroute]
          exact finish_valid h hname herror hminify
    · have hnone : ((routeOf subscription streams).bind fun _ => payloadOf datas) = none := by
        by_contra hsome
        refine herror (h.semantic.mpr ?_)
        match streams, datas with
        | [], _ => exact absurd rfl hseen
        | v :: w :: rest, _ => exact absurd rfl hsome
        | [v], [] => exact absurd (by simp [payloadOf]) hsome
        | [v], d :: e :: rest => exact absurd (by simp [payloadOf]) hsome
        | [v], [d] =>
            cases hv : stringContent v with
            | none => exact absurd (by simp [routeOf, hv]) hsome
            | some name =>
                cases hd : objectText d with
                | none => exact absurd (by simp [payloadOf, hd]) hsome
                | some text => simp [hv, hd]
      rw [hnone]
      exact finish_semantic h hseen herror

end Finish

/-- The parser on a compact object, in terms of its values under `stream` and `data`. -/
theorem parse_returns {json : Library} {fields : List Member} (subscription : LiveSubscription)
    (h : CompactObject fields) (hreads : json.Reads fields) :
    Returns (routeOf subscription (valuesOf (ascii "stream") fields))
      ((routeOf subscription (valuesOf (ascii "stream") fields)).bind fun _ =>
        payloadOf (valuesOf (ascii "data") fields))
      (parse json (objectNode fields).text subscription) := by
  obtain ⟨hread, htracks⟩ := readFields_visitAll subscription fields tracksFields_nil
    ⟨h.valid, fun m hm => h.value_depth hm⟩
    (neverTrailed_of_compact [] (fun m hm => h.value_compact hm))
  rw [parse, if_neg (Nat.not_lt.mpr h.bounded), hreads.iterate]
  simp only [objectNode, valueOf, Value.type, Value.answers, Value.fields, hread]
  refine finish_returns htracks ?_
  intro v hv
  obtain ⟨m, hm, rfl⟩ := mem_valuesOf hv
  exact hreads.minify m hm

/-! ## The order of fields -/

theorem routeOf_perm (subscription : LiveSubscription) {streams streams' : List Node}
    (h : streams'.Perm streams) : routeOf subscription streams' = routeOf subscription streams := by
  match streams, h with
  | [], h => rw [h.eq_nil]
  | [v], h => rw [List.perm_singleton.mp h]
  | v :: w :: rest, h =>
      match streams', h.length_eq with
      | _ :: _ :: _, _ => rfl

theorem payloadOf_perm {datas datas' : List Node} (h : datas'.Perm datas) :
    payloadOf datas' = payloadOf datas := by
  match datas, h with
  | [], h => rw [h.eq_nil]
  | [v], h => rw [List.perm_singleton.mp h]
  | v :: w :: rest, h =>
      match datas', h.length_eq with
      | _ :: _ :: _, _ => rfl

/-- Success, route and payload agree. -/
structure Agree (r r' : LiveEnvelopeResult) : Prop where
  success : r'.success = r.success
  route : r'.route = r.route
  payload : r'.payload = r.payload

theorem parse_perm {json : Library} {fields fields' : List Member} (subscription : LiveSubscription)
    (hperm : fields'.Perm fields) (h : CompactObject fields) (hreads : json.Reads fields)
    (hreads' : json.Reads fields') :
    Agree (parse json (objectNode fields).text subscription)
      (parse json (objectNode fields').text subscription) := by
  have hr := parse_returns subscription h hreads
  have hr' := parse_returns subscription (h.perm hperm) hreads'
  rw [routeOf_perm subscription (valuesOf_perm _ hperm), payloadOf_perm (valuesOf_perm _ hperm)] at hr'
  exact ⟨hr'.success.trans hr.success.symm, hr'.sameRoute.trans hr.sameRoute.symm,
    hr'.samePayload.trans hr.samePayload.symm⟩

/-- The single stream field of the object names the route. -/
def NamesRoute (fields : List Member) (route : LiveRoute) : Prop :=
  ∃ stream, valuesOf (ascii "stream") fields = [stream] ∧
    stringContent stream = some route.streamName

/-- The object has a single data field, and it is this object. -/
def HoldsData (fields : List Member) (data : Node) : Prop :=
  valuesOf (ascii "data") fields = [data] ∧ (objectText data).isSome = true

theorem routeOf_eq_some {subscription : LiveSubscription} {venue : PayloadVenue}
    {symbols : List Bytes} (hexact : subscription.Exact venue symbols) {fields : List Member}
    {route : LiveRoute} :
    routeOf subscription (valuesOf (ascii "stream") fields) = some route ↔
      route ∈ subscription.routes ∧ NamesRoute fields route := by
  constructor
  · intro h
    match hstreams : valuesOf (ascii "stream") fields, h with
    | [stream], h =>
        simp only [routeOf, Option.bind_eq_some_iff] at h
        obtain ⟨name, hname, hroute⟩ := h
        have hmem := LiveSubscription.findRoute_mem hroute
        refine ⟨hmem, stream, hstreams, ?_⟩
        -- a name that no route carries would not have been found
        have hcarried : ∃ other ∈ subscription.routes, other.streamName = name := by
          by_contra hnone
          push Not at hnone
          rw [hexact.unknown name hnone] at hroute
          cases hroute
        obtain ⟨other, hother, rfl⟩ := hcarried
        rw [hexact.found other hother] at hroute
        obtain rfl := Option.some.inj hroute
        exact hname
  · rintro ⟨hmem, stream, hstreams, hname⟩
    simp only [hstreams, routeOf, hname, Option.bind_some, hexact.found route hmem]

theorem payloadOf_eq_some {fields : List Member} {payload : Bytes} :
    payloadOf (valuesOf (ascii "data") fields) = some payload ↔
      ∃ data, HoldsData fields data ∧ payload = data.strip.text := by
  constructor
  · intro h
    match hdatas : valuesOf (ascii "data") fields, h with
    | [data], h =>
        simp only [payloadOf, Option.map_eq_some_iff] at h
        obtain ⟨text, htext, hpayload⟩ := h
        exact ⟨data, ⟨hdatas, by simp [htext]⟩, hpayload.symm⟩
  · rintro ⟨data, ⟨hdatas, htext⟩, rfl⟩
    obtain ⟨text, htext⟩ := Option.isSome_iff_exists.mp htext
    simp [hdatas, payloadOf, htext]

end LiveEnvelopeParser

namespace LiveEventPipeline

open LiveEnvelopeParser

/-- The pipeline after an accepted envelope does not depend on the report so far. -/
theorem processRouted_state (p : LiveEventPipeline) (json : Library) (message : WebSocketTextMessage)
    (route : LiveRoute) (payload text : Bytes) (result result' : LivePipelineResult) :
    (p.processRouted json { message with payload := text } route payload result').map (·.2.2) =
      (p.processRouted json message route payload result).map (·.2.2) := by
  unfold processRouted
  split
  · rfl
  · simp only [contextOf, Option.bind_eq_bind, Option.map_bind]
    congr 1
    funext processed
    simp only [Function.comp_apply]
    split
    · rfl
    · split
      · rfl
      · split <;> rfl

theorem processReceived_accepted {p : LiveEventPipeline} {json : Library}
    {message : WebSocketTextMessage} {route : LiveRoute} {payload : Bytes}
    (hsuccess : (parse json message.payload p.subscription).success = true)
    (hroute : (parse json message.payload p.subscription).route = some route)
    (hpayload : (parse json message.payload p.subscription).payload = some payload) :
    ∃ result, p.processReceived json message = p.processRouted json message route payload result := by
  simp only [LiveEnvelopeResult.success, Bool.and_eq_true, decide_eq_true_eq] at hsuccess
  simp only [processReceived, hsuccess.1.1, hroute, hpayload]
  exact ⟨_, rfl⟩

theorem processReceived_rejected {p : LiveEventPipeline} {json : Library}
    {message : WebSocketTextMessage}
    (hfailed : (parse json message.payload p.subscription).success = false) :
    (p.processReceived json message).map (·.2.2) =
      some (p.rejectRoute (parse json message.payload p.subscription).route) := by
  unfold processReceived
  simp only
  split
  · rename_i herror hroute hpayload
    simp [LiveEnvelopeResult.success, herror, hroute, hpayload] at hfailed
  · rfl

theorem processReceived_state {p : LiveEventPipeline} {json : Library}
    {message : WebSocketTextMessage} {text : Bytes}
    (h : Agree (parse json message.payload p.subscription) (parse json text p.subscription)) :
    (p.processReceived json { message with payload := text }).map (·.2.2) =
      (p.processReceived json message).map (·.2.2) := by
  cases hsuccess : (parse json message.payload p.subscription).success with
  | false =>
      have hfailed : (parse json text p.subscription).success = false := h.success.trans hsuccess
      have hother : (p.processReceived json { message with payload := text }).map (·.2.2) =
          some (p.rejectRoute (parse json text p.subscription).route) :=
        processReceived_rejected hfailed
      rw [hother, processReceived_rejected hsuccess, h.route]
  | true =>
      have hparts := hsuccess
      simp only [LiveEnvelopeResult.success, Bool.and_eq_true] at hparts
      obtain ⟨route, hroute⟩ := Option.isSome_iff_exists.mp hparts.1.2
      obtain ⟨payload, hpayload⟩ := Option.isSome_iff_exists.mp hparts.2
      obtain ⟨result, hresult⟩ := processReceived_accepted hsuccess hroute hpayload
      have hother : ∃ result', p.processReceived json { message with payload := text } =
          p.processRouted json { message with payload := text } route payload result' :=
        processReceived_accepted (h.success.trans hsuccess) (h.route.trans hroute)
          (h.payload.trans hpayload)
      obtain ⟨result', hresult'⟩ := hother
      rw [hresult, hresult']
      exact processRouted_state p json message route payload text result result'

/-- Two messages of the same size whose envelopes agree leave the same pipeline. -/
theorem process_state {p : LiveEventPipeline} {json : Library} {message : WebSocketTextMessage}
    {text : Bytes} (hsize : text.length = message.payload.length)
    (h : Agree (parse json message.payload p.subscription) (parse json text p.subscription)) :
    (p.process json { message with payload := text }).map (·.2.2) =
      (p.process json message).map (·.2.2) := by
  have hreceive : (p.receive { message with payload := text }) = p.receive message := rfl
  have hvalid : p.validMessageMetadata { message with payload := text } =
      p.validMessageMetadata message := rfl
  have hsubscription : (p.receive message).subscription = p.subscription := by
    simp only [receive]
    split <;> rfl
  simp only [process, hreceive, hvalid, hsize]
  split
  · rfl
  · split
    · rfl
    · exact processReceived_state (by rw [hsubscription]; exact h)

end LiveEventPipeline

open LiveEnvelopeParser in
/-- Envelopes: when they are accepted, which route they name, and that the order of
their fields plays no part. -/
theorem envelope_routing {json : Library} {venue : PayloadVenue} {symbols : List Bytes}
    {subscription : LiveSubscription}
    (hcreate : LiveSubscription.create venue symbols = .ok subscription) {fields : List Member}
    (h : CompactObject fields) (hreads : ∀ fields', fields'.Perm fields → json.Reads fields') :
    ((parse json (objectNode fields).text subscription).success = true ↔
      (∃ route ∈ subscription.routes, NamesRoute fields route) ∧ ∃ data, HoldsData fields data) ∧
    ((parse json (objectNode fields).text subscription).success = true →
      ∃ data, HoldsData fields data ∧
        (parse json (objectNode fields).text subscription).payload = some data.strip.text) ∧
    (∀ route, (parse json (objectNode fields).text subscription).route = some route →
      route ∈ subscription.routes ∧ NamesRoute fields route) ∧
    ∀ fields', fields'.Perm fields →
      Agree (parse json (objectNode fields).text subscription)
        (parse json (objectNode fields').text subscription) ∧
      ∀ (p : LiveEventPipeline) (message : WebSocketTextMessage), p.subscription = subscription →
        message.payload = (objectNode fields).text →
        (p.process json { message with payload := (objectNode fields').text }).map (·.2.2) =
          (p.process json message).map (·.2.2) := by
  have hexact := LiveSubscription.exact_of_create hcreate
  have hself := hreads fields (List.Perm.refl fields)
  have hreturns := parse_returns subscription h hself
  refine ⟨?_, ?_, ?_, ?_⟩
  · rw [hreturns.success, Option.isSome_iff_exists]
    constructor
    · rintro ⟨payload, hpayload⟩
      obtain ⟨route, hroute, hdata⟩ := Option.bind_eq_some_iff.mp hpayload
      obtain ⟨data, hholds, -⟩ := payloadOf_eq_some.mp hdata
      exact ⟨⟨route, (routeOf_eq_some hexact).mp hroute⟩, data, hholds⟩
    · rintro ⟨⟨route, hmem, hnames⟩, data, hholds⟩
      refine ⟨data.strip.text, Option.bind_eq_some_iff.mpr ⟨route, ?_, ?_⟩⟩
      · exact (routeOf_eq_some hexact).mpr ⟨hmem, hnames⟩
      · exact payloadOf_eq_some.mpr ⟨data, hholds, rfl⟩
  · intro hsuccess
    rw [hreturns.success, Option.isSome_iff_exists] at hsuccess
    obtain ⟨payload, hpayload⟩ := hsuccess
    obtain ⟨route, -, hdata⟩ := Option.bind_eq_some_iff.mp hpayload
    obtain ⟨data, hholds, rfl⟩ := payloadOf_eq_some.mp hdata
    exact ⟨data, hholds, hreturns.samePayload.trans hpayload⟩
  · intro route hroute
    exact (routeOf_eq_some hexact).mp (hreturns.sameRoute.symm.trans hroute)
  · intro fields' hperm
    have hagree := parse_perm subscription hperm h hself (hreads fields' hperm)
    refine ⟨hagree, ?_⟩
    intro p message hsubscription hpayload
    refine LiveEventPipeline.process_state ?_ ?_
    · rw [hpayload]
      exact h.text_length_perm hperm
    · rw [hpayload, hsubscription]
      exact hagree

/-- A trade envelope with both fields, and the library on its two orders. -/
def sampleEnvelope : List Member :=
  [{ key := ascii "stream", value := .string (ascii "btcusdt@trade") [] },
   { key := ascii "data",
     value := objectNode [{ key := ascii "e", value := .string (ascii "trade") [] }] }]

def sampleEnvelopeLibrary : Library :=
  .ofNodes [objectNode sampleEnvelope, objectNode sampleEnvelope.reverse]

theorem sampleEnvelope_compact : CompactObject sampleEnvelope where
  valid := by
    have hstream : IsString (ascii "stream") := ⟨⟨"stream".toList, by decide +kernel⟩, by decide +kernel⟩
    have hname : IsString (ascii "btcusdt@trade") :=
      ⟨⟨"btcusdt@trade".toList, by decide +kernel⟩, by decide +kernel⟩
    have hdata : IsString (ascii "data") := ⟨⟨"data".toList, by decide +kernel⟩, by decide +kernel⟩
    have he : IsString (ascii "e") := ⟨⟨"e".toList, by decide +kernel⟩, by decide +kernel⟩
    have htrade : IsString (ascii "trade") := ⟨⟨"trade".toList, by decide +kernel⟩, by decide +kernel⟩
    simp [sampleEnvelope, Member.WellFormed, Node.WellFormed, Members.WellFormed, Members.ofList,
      objectNode, Spaces, hstream, hname, hdata, he, htrade]
  compact := by simp [sampleEnvelope, Member.strip, Node.strip, objectNode, Members.ofList, Members.strip]
  bounded := by decide +kernel
  nested := by decide +kernel

theorem sampleEnvelope_reads (fields : List Member) (h : fields.Perm sampleEnvelope) :
    sampleEnvelopeLibrary.Reads fields := by
  have hminify : ∀ m ∈ sampleEnvelope, sampleEnvelopeLibrary.minify m.value.text = .ok m.value.strip.text := by
    intro m hm
    rw [sampleEnvelope_compact.value_compact hm]
    rfl
  refine ⟨?_, fun m hm => hminify m (h.mem_iff.mp hm)⟩
  rcases List.perm_pair.mp h with rfl | rfl
  · rfl
  · rfl

theorem envelope_routing_sample :
    ∃ subscription, LiveSubscription.create .spot [ascii "BTCUSDT"] = .ok subscription ∧
      ((LiveEnvelopeParser.parse sampleEnvelopeLibrary (objectNode sampleEnvelope).text
          subscription).success = true ↔
        (∃ route ∈ subscription.routes, LiveEnvelopeParser.NamesRoute sampleEnvelope route) ∧
          ∃ data, LiveEnvelopeParser.HoldsData sampleEnvelope data) ∧
      LiveEnvelopeParser.Agree
        (LiveEnvelopeParser.parse sampleEnvelopeLibrary (objectNode sampleEnvelope).text subscription)
        (LiveEnvelopeParser.parse sampleEnvelopeLibrary (objectNode sampleEnvelope.reverse).text
          subscription) := by
  obtain ⟨subscription, hcreate, -⟩ := LiveSubscription.create_exact
    (show validateSymbolSet [ascii "BTCUSDT"] = .none by decide +kernel) .spot
  have hrouting := envelope_routing hcreate sampleEnvelope_compact sampleEnvelope_reads
  exact ⟨subscription, hcreate, hrouting.1,
    (hrouting.2.2.2 sampleEnvelope.reverse sampleEnvelope.reverse_perm).1⟩

end MarketCapture
