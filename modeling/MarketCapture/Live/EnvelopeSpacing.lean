import MarketCapture.Live.EnvelopeRouting

/-! # Whitespace in envelopes

Two spacings of the same tokens are read alike as long as the generic validation
meets no number and no null with whitespace after it. Such a token makes the
document malformed in its eyes, and the route is the one known at that point.
-/

namespace MarketCapture

open Simdjson JsonText JsonValidation

namespace LiveEnvelopeParser

/-! ## The first trailed field -/

/-- `bad` is the first field whose validation meets trailing whitespace, and
`before` are the fields before it. -/
def FirstTrailed (done : List Member) : List Member → List Member → Member → Prop
  | [], _, _ => False
  | m :: rest, before, bad =>
      (TrailedAt done m ∧ before = done ∧ bad = m) ∨
        (¬TrailedAt done m ∧ FirstTrailed (done ++ [m]) rest before bad)

theorem never_or_first (done fields : List Member) :
    NeverTrailed done fields ∨ ∃ before bad, FirstTrailed done fields before bad := by
  induction fields generalizing done with
  | nil => exact .inl trivial
  | cons m rest ih =>
      by_cases hm : TrailedAt done m
      · exact .inr ⟨done, m, .inl ⟨hm, rfl, rfl⟩⟩
      · rcases ih (done ++ [m]) with hnever | ⟨before, bad, hfirst⟩
        · exact .inl ⟨hm, hnever⟩
        · exact .inr ⟨before, bad, .inr ⟨hm, hfirst⟩⟩

theorem not_first_of_never {done fields before : List Member} {bad : Member}
    (h : NeverTrailed done fields) : ¬FirstTrailed done fields before bad := by
  induction fields generalizing done with
  | nil => exact id
  | cons m rest ih =>
      rintro (⟨hm, -, -⟩ | ⟨-, hfirst⟩)
      · exact h.1 hm
      · exact ih h.2 hfirst

theorem first_unique {done fields before before' : List Member} {bad bad' : Member}
    (h : FirstTrailed done fields before bad) (h' : FirstTrailed done fields before' bad') :
    before' = before ∧ bad' = bad := by
  induction fields generalizing done with
  | nil => exact h.elim
  | cons m rest ih =>
      rcases h with ⟨hm, rfl, rfl⟩ | ⟨hm, hrest⟩
      · rcases h' with ⟨-, rfl, rfl⟩ | ⟨hm', -⟩
        · exact ⟨rfl, rfl⟩
        · exact absurd hm hm'
      · rcases h' with ⟨hm', -, -⟩ | ⟨-, hrest'⟩
        · exact absurd hm' hm
        · exact ih hrest hrest'

/-- The route reported when a field fails: none for a stream field, and otherwise the
one that the fields before it name. -/
def routeAt (subscription : LiveSubscription) (before : List Member) (bad : Member) :
    Option LiveRoute :=
  if keyOf bad = ascii "stream" then none
  else routeOf subscription (valuesOf (ascii "stream") before)

theorem TracksFields.knownRoute {done : List Member} {s : Seen} (h : TracksFields done s)
    (subscription : LiveSubscription) :
    s.knownRoute subscription = routeOf subscription (valuesOf (ascii "stream") done) := by
  rw [Seen.knownRoute, h.streamValid, h.ambiguous, h.streamName]
  rcases valuesOf (ascii "stream") done with _ | ⟨v, _ | ⟨w, rest⟩⟩
  · simp [routeOf]
  · cases hv : stringContent v <;> simp [routeOf, hv]
  · simp [routeOf]

theorem classify_tokenError {e : ErrorCode} (h : TokenError e) :
    LiveEnvelopeParser.classifyJsonError e = .malformedJson := by
  rcases h with rfl | rfl <;> rfl

/-- A failed field: malformed, with the route of `routeAt`. -/
def Malformed (route : Option LiveRoute) (r : LiveEnvelopeResult) : Prop :=
  r.error = .malformedJson ∧ r.route = route ∧ r.payload = none

theorem readStream_trailed {s : Seen} {node : Node} {e : ErrorCode} (subscription : LiveSubscription)
    (hnode : node.WellFormed)
    (hv : validateValue (valueOf node) envelopeChildContainerDepth = some e)
    (hchecks : s.streamSeen = true ∨ stringContent node = none) :
    readStream s (valueOf node) subscription =
      .error (fail (LiveEnvelopeParser.classifyJsonError e) .stream) := by
  by_cases hs : s.streamSeen = true
  · simp only [readStream, hs, ↓reduceIte, hv]
  · rw [readStream, if_neg hs]
    have hcontent := hchecks.resolve_left hs
    obtain ⟨raw, after, name, rfl, hname⟩ | ⟨hstring, -⟩ := stringContent_of_wellFormed hnode
    · simp [stringContent, hname] at hcontent
    · cases node with
      | string raw after => exact absurd rfl (hstring raw after)
      | _ => simp_all [valueOf, Value.type, Value.answers]

theorem readData_trailed {s : Seen} {node : Node} {e : ErrorCode} (subscription : LiveSubscription)
    (hv : validateValue (valueOf node) envelopeChildContainerDepth = some e)
    (hchecks : s.dataSeen = true ∨ objectText node = none) :
    readData s (valueOf node) subscription =
      .error (fail (LiveEnvelopeParser.classifyJsonError e) .data (s.knownRoute subscription)) := by
  by_cases hs : s.dataSeen = true
  · simp only [readData, hs, ↓reduceIte, hv]
  · have htext := hchecks.resolve_left hs
    simp only [readData, hs, Bool.false_eq_true, ↓reduceIte]
    cases node with
    | object opened members closed => cases htext
    | _ => simp_all [valueOf, Value.type, Value.answers]

theorem readField_trailed {done : List Member} {s : Seen} {m : Member}
    (subscription : LiveSubscription) (h : TracksFields done s) (hm : m.WellFormed)
    (hdepth : m.value.depth + envelopeChildContainerDepth ≤ maxJsonNestingDepth + 1)
    (htrailed : TrailedAt done m) :
    ∃ r, readField s (keyOf m) (valueOf m.value) subscription = .error r ∧
      Malformed (routeAt subscription done m) r := by
  obtain ⟨e, hv, he⟩ : ∃ e, validateValue (valueOf m.value) envelopeChildContainerDepth = some e ∧
      TokenError e := by
    rcases validateValue_outcome m.value envelopeChildContainerDepth hm.2.2.2.1 hdepth with
      ⟨-, hgood⟩ | ⟨e, hv, he, -⟩
    · exact absurd htrailed.2 hgood
    · exact ⟨e, hv, he⟩
  have hclass := classify_tokenError he
  have hchecks := (h.checks_iff (decodeString_key hm)).mpr htrailed.1
  have hknown := h.knownRoute subscription
  by_cases hstream : keyOf m = ascii "stream"
  · refine ⟨fail (LiveEnvelopeParser.classifyJsonError e) .stream, ?_, hclass,
      by simp [routeAt, hstream, fail], rfl⟩
    rw [readField, if_pos hstream]
    exact readStream_trailed subscription hm.2.2.2.1 hv (hchecks.1 hstream)
  · by_cases hdata : keyOf m = ascii "data"
    · refine ⟨fail (LiveEnvelopeParser.classifyJsonError e) .data (s.knownRoute subscription), ?_,
        hclass, by simp [routeAt, hstream, fail, hknown], rfl⟩
      rw [readField, if_neg hstream, if_pos hdata]
      exact readData_trailed subscription hv (hchecks.2 hdata)
    · refine ⟨fail (LiveEnvelopeParser.classifyJsonError e) .unknown (s.knownRoute subscription), ?_,
        hclass, by simp [routeAt, hstream, fail, hknown], rfl⟩
      simp only [readField, hstream, hdata, ↓reduceIte, hv]

/-- The loop stops at the first trailed field. -/
theorem readFields_first (subscription : LiveSubscription) (fields : List Member)
    {done before : List Member} {bad : Member} {s : Seen} (h : TracksFields done s)
    (hvalid : Valid fields) (hfirst : FirstTrailed done fields before bad) :
    ∃ r, readFields subscription (fieldsOf (Members.ofList fields)) s = .error r ∧
      Malformed (routeAt subscription before bad) r := by
  induction fields generalizing done s with
  | nil => exact hfirst.elim
  | cons m rest ih =>
      have hm := hvalid.wellFormed m List.mem_cons_self
      have hdepth := hvalid.nested m List.mem_cons_self
      have hkey := decodeString_key hm
      simp only [Members.ofList, fieldsOf, readFields, stringAnswer, hkey]
      rcases hfirst with ⟨htrailed, rfl, rfl⟩ | ⟨hgood, hrest⟩
      · obtain ⟨r, hr, hmalformed⟩ := readField_trailed subscription h hm hdepth htrailed
        exact ⟨r, by rw [hr], hmalformed⟩
      · rw [readField_untrailed subscription h hm hdepth hgood]
        exact ih (h.visit hkey) hvalid.tail hrest

/-! ## Two spacings of the same fields -/

/-- The locals of two runs: they differ in the bytes of the data object only, and
these minify to the same text. -/
structure Alike (json : Library) (s s' : Seen) : Prop where
  streamSeen : s'.streamSeen = s.streamSeen
  streamValid : s'.streamValid = s.streamValid
  streamAmbiguous : s'.streamAmbiguous = s.streamAmbiguous
  dataSeen : s'.dataSeen = s.dataSeen
  streamName : s'.streamName = s.streamName
  rawData : json.minify s'.rawData = json.minify s.rawData
  semanticError : s'.semanticError = s.semanticError
  semanticField : s'.semanticField = s.semanticField

theorem Alike.finish {json : Library} {s s' : Seen} (h : Alike json s s')
    (subscription : LiveSubscription) : finish json subscription s' = finish json subscription s := by
  simp only [LiveEnvelopeParser.finish, h.streamSeen, h.streamValid, h.streamAmbiguous, h.dataSeen,
    h.streamName, h.rawData, h.semanticError, h.semanticField]

theorem Alike.recordSemanticError {json : Library} {s s' : Seen} (h : Alike json s s')
    (code : LiveEnvelopeErrorCode) (field : LiveEnvelopeField) :
    Alike json (s.recordSemanticError code field) (s'.recordSemanticError code field) := by
  by_cases hs : s.semanticError = .none
  · have hs' : s'.semanticError = .none := h.semanticError.trans hs
    simp only [Seen.recordSemanticError, hs, hs', ↓reduceIte]
    exact ⟨h.streamSeen, h.streamValid, h.streamAmbiguous, h.dataSeen, h.streamName, h.rawData, rfl, rfl⟩
  · have hs' : ¬s'.semanticError = .none := by rwa [h.semanticError]
    simp only [Seen.recordSemanticError, hs, hs', ↓reduceIte]
    exact h

theorem stringContent_strip (node : Node) : stringContent node.strip = stringContent node := by
  cases node <;> rfl

theorem objectText_strip_isSome (node : Node) :
    (objectText node.strip).isSome = (objectText node).isSome := by
  cases node <;> rfl

theorem stringContent_same {node node' : Node} (h : node'.strip = node.strip) :
    stringContent node' = stringContent node := by
  rw [← stringContent_strip, h, stringContent_strip]

theorem objectText_same {node node' : Node} (h : node'.strip = node.strip) :
    (objectText node').isSome = (objectText node).isSome := by
  rw [← objectText_strip_isSome, h, objectText_strip_isSome]

theorem objectText_eq {node : Node} {text : Bytes} (h : objectText node = some text) :
    text = node.text := by
  cases node with
  | object opened members closed => exact (Option.some.inj h).symm
  | _ => cases h

section Alike

variable {json : Library} {s s' : Seen} {node node' : Node}

theorem Alike.visitStream (h : Alike json s s') (hnode : node'.strip = node.strip) :
    Alike json (s.visitStream node) (s'.visitStream node') := by
  by_cases hs : s.streamSeen = true
  · have hs' : s'.streamSeen = true := h.streamSeen.trans hs
    rw [Seen.visitStream, if_pos hs, Seen.visitStream, if_pos hs']
    refine Alike.recordSemanticError ?_ _ _
    exact { h with streamAmbiguous := rfl }
  · have hs' : ¬s'.streamSeen = true := by rwa [h.streamSeen]
    rw [Seen.visitStream, if_neg hs, Seen.visitStream, if_neg hs', stringContent_same hnode]
    cases stringContent node with
    | some name => exact { h with streamSeen := rfl, streamName := rfl, streamValid := rfl }
    | none =>
        refine Alike.recordSemanticError ?_ _ _
        exact { h with streamSeen := rfl }

theorem Alike.visitData (h : Alike json s s') (hnode : node'.strip = node.strip)
    (hminify : json.minify node'.text = json.minify node.text) :
    Alike json (s.visitData node) (s'.visitData node') := by
  by_cases hs : s.dataSeen = true
  · have hs' : s'.dataSeen = true := h.dataSeen.trans hs
    rw [Seen.visitData, if_pos hs, Seen.visitData, if_pos hs']
    exact h.recordSemanticError _ _
  · have hs' : ¬s'.dataSeen = true := by rwa [h.dataSeen]
    have hsome := objectText_same hnode
    rw [Seen.visitData, if_neg hs, Seen.visitData, if_neg hs']
    cases htext : objectText node with
    | some text =>
        rw [htext, Option.isSome_some] at hsome
        obtain ⟨text', htext'⟩ := Option.isSome_iff_exists.mp hsome
        rw [htext', objectText_eq htext, objectText_eq htext']
        exact { h with dataSeen := rfl, rawData := hminify }
    | none =>
        rw [htext, Option.isSome_none, Option.isSome_eq_false_iff, Option.isNone_iff_eq_none] at hsome
        rw [hsome]
        refine Alike.recordSemanticError ?_ _ _
        exact { h with dataSeen := rfl }

theorem Alike.visit (h : Alike json s s') (key : Bytes) (hnode : node'.strip = node.strip)
    (hminify : key = ascii "data" → json.minify node'.text = json.minify node.text) :
    Alike json (s.visit key node) (s'.visit key node') := by
  unfold Seen.visit
  split
  · exact h.visitStream hnode
  · split
    · rename_i hdata
      exact h.visitData hnode (hminify hdata)
    · exact h

/-- Members with the same tokens, in the same order. -/
def SameTokens (fields fields' : List Member) : Prop :=
  fields'.map Member.strip = fields.map Member.strip

theorem Alike.visitAll (h : Alike json s s') {fields fields' : List Member}
    (hsame : SameTokens fields fields')
    (hminify : ∀ m ∈ fields, keyOf m = ascii "data" →
      json.minify m.value.text = .ok m.value.strip.text)
    (hminify' : ∀ m ∈ fields', keyOf m = ascii "data" →
      json.minify m.value.text = .ok m.value.strip.text) :
    Alike json (s.visitAll fields) (s'.visitAll fields') := by
  induction fields generalizing fields' s s' with
  | nil =>
      rw [SameTokens, List.map_nil, List.map_eq_nil_iff] at hsame
      subst hsame
      exact h
  | cons m rest ih =>
      match fields', hsame with
      | m' :: rest', hsame =>
          simp only [SameTokens, List.map_cons, List.cons.injEq, Member.strip, Member.mk.injEq,
            true_and, and_true] at hsame
          obtain ⟨⟨hkey, hvalue⟩, hrest⟩ := hsame
          have hkeys : keyOf m' = keyOf m := by simp [keyOf, hkey]
          have htexts : keyOf m = ascii "data" →
              json.minify m'.value.text = json.minify m.value.text := by
            intro hdata
            rw [hminify' m' List.mem_cons_self (hkeys.trans hdata),
              hminify m List.mem_cons_self hdata, hvalue]
          simp only [Seen.visitAll, hkeys]
          exact ih (h.visit (keyOf m) hvalue htexts) hrest
            (fun n hn => hminify n (List.mem_cons_of_mem _ hn))
            (fun n hn => hminify' n (List.mem_cons_of_mem _ hn))

end Alike

/-! ## Errors after the field loop -/

theorem recordSemanticError_wellFormed {s : Seen} {code : LiveEnvelopeErrorCode}
    (field : LiveEnvelopeField) (hcode : code ≠ .malformedJson)
    (h : s.semanticError ≠ .malformedJson) :
    (s.recordSemanticError code field).semanticError ≠ .malformedJson := by
  unfold Seen.recordSemanticError
  split
  · exact hcode
  · exact h

theorem visit_wellFormed {s : Seen} (key : Bytes) (node : Node)
    (h : s.semanticError ≠ .malformedJson) : (s.visit key node).semanticError ≠ .malformedJson := by
  unfold Seen.visit
  split
  · unfold Seen.visitStream
    split
    · exact recordSemanticError_wellFormed _ (by decide) h
    · split
      · exact h
      · exact recordSemanticError_wellFormed _ (by decide) h
  · split
    · unfold Seen.visitData
      split
      · exact recordSemanticError_wellFormed _ (by decide) h
      · split
        · exact h
        · exact recordSemanticError_wellFormed _ (by decide) h
    · exact h

theorem visitAll_wellFormed {s : Seen} (fields : List Member)
    (h : s.semanticError ≠ .malformedJson) : (s.visitAll fields).semanticError ≠ .malformedJson := by
  induction fields generalizing s with
  | nil => exact h
  | cons m rest ih => exact ih (visit_wellFormed (keyOf m) m.value h)

theorem finish_wellFormed {s : Seen} (json : Library) (subscription : LiveSubscription)
    (h : s.semanticError ≠ .malformedJson) :
    (finish json subscription s).error ≠ .malformedJson := by
  unfold finish
  simp only
  split
  · simp [fail]
  · split
    · exact h
    · split
      · simp [fail]
      · split
        · simp only [fail]
          split <;> decide
        · split
          · simp [fail]
          · simp

/-! ## Documents -/

section Documents

variable {json : Library} {subscription : LiveSubscription} {leading : Bytes}

/-- A spaced document that the library reads. -/
structure ReadsSpaced (json : Library) (leading : Bytes) (document : Node) : Prop where
  spaces : Spaces leading
  wellFormed : document.WellFormed
  nested : document.depth ≤ maxJsonNestingDepth
  bounded : (leading ++ document.text).length ≤ maxPayloadBytes
  iterate : json.iterate (leading ++ document.text) = .ok (valueOf document)
  minify : ∀ opened members closed, document = .object opened members closed →
    ∀ m ∈ members.toList, keyOf m = ascii "data" → json.minify m.value.text = .ok m.value.strip.text

theorem ReadsSpaced.valid {opened closed : Bytes} {members : Members}
    (h : ReadsSpaced json leading (.object opened members closed)) : Valid members.toList := by
  have hwell := h.wellFormed
  have hnested := h.nested
  simp only [Node.WellFormed, Node.depth] at hwell hnested
  rw [← Members.ofList_toList members] at hwell hnested
  have hlimit : maxJsonNestingDepth = 64 := rfl
  have hdepth := (Members.ofList_depth_le members.toList (maxJsonNestingDepth - 1)).mp (by omega)
  refine ⟨(Members.ofList_wellFormed _).mp hwell.2.1, fun m hm => ?_⟩
  have := hdepth m hm
  rw [envelopeChildContainerDepth]
  omega

theorem parse_object {opened closed : Bytes} {members : Members}
    (h : ReadsSpaced json leading (.object opened members closed)) :
    parse json (leading ++ (Node.object opened members closed).text) subscription =
      match readFields subscription (fieldsOf (Members.ofList members.toList)) {} with
      | .error failure => failure
      | .ok s => finish json subscription s := by
  rw [parse, if_neg (Nat.not_lt.mpr h.bounded), h.iterate, Members.ofList_toList]
  rfl

theorem parse_never (subscription : LiveSubscription) {opened closed : Bytes} {members : Members}
    (h : ReadsSpaced json leading (.object opened members closed))
    (hnever : NeverTrailed [] members.toList) :
    parse json (leading ++ (Node.object opened members closed).text) subscription =
      finish json subscription (Seen.visitAll {} members.toList) := by
  rw [parse_object h, (readFields_visitAll subscription members.toList tracksFields_nil h.valid
    hnever).1]

theorem parse_first (subscription : LiveSubscription) {opened closed : Bytes} {members : Members}
    {before : List Member} {bad : Member} (h : ReadsSpaced json leading (.object opened members closed))
    (hfirst : FirstTrailed [] members.toList before bad) :
    Malformed (routeAt subscription before bad)
      (parse json (leading ++ (Node.object opened members closed).text) subscription) := by
  obtain ⟨r, hr, hmalformed⟩ := readFields_first subscription members.toList tracksFields_nil
    h.valid hfirst
  rw [parse_object h, hr]
  exact hmalformed

theorem trimJsonWhitespace_spaced {token after : Bytes} (hleading : Spaces leading)
    (hafter : Spaces after) (hne : token ≠ []) (htoken : ∀ b ∈ token, isSpace b = false) :
    trimJsonWhitespace (leading ++ (token ++ after)) = token := by
  have hfirst : (leading ++ (token ++ after)).dropWhile isJsonWhitespace = token ++ after := by
    have hspaces : ∀ b ∈ leading, isJsonWhitespace b = true := hleading
    rw [List.dropWhile_append_of_pos hspaces]
    obtain ⟨b, rest, rfl⟩ := List.exists_cons_of_ne_nil hne
    have hb : isJsonWhitespace b = false := htoken b List.mem_cons_self
    simp [hb]
  have hlast : (token ++ after).reverse.dropWhile isJsonWhitespace = token.reverse := by
    have hspaces : ∀ b ∈ after.reverse, isJsonWhitespace b = true :=
      fun b hb => hafter b (List.mem_reverse.mp hb)
    rw [List.reverse_append, List.dropWhile_append_of_pos hspaces]
    have hne' : token.reverse ≠ [] := by simpa using hne
    obtain ⟨b, rest, hrev⟩ := List.exists_cons_of_ne_nil hne'
    have hmem : b ∈ token := by
      rw [← List.mem_reverse, hrev]
      exact List.mem_cons_self
    have hb : isJsonWhitespace b = false := htoken b hmem
    rw [hrev]
    simp [hb]
  rw [trimJsonWhitespace, hfirst, hlast, List.reverse_reverse]

theorem isNumber_notSpace {token : Bytes} (h : IsNumber token) :
    token ≠ [] ∧ ∀ b ∈ token, isSpace b = false := by
  constructor
  · rintro rfl
    have := (isValidJsonNumberToken_iff []).mpr h
    cases this
  · intro b hb
    have hbyte := isNumber_bytes h b hb
    by_contra hspace
    simp only [Bool.not_eq_false, isSpace, Bool.or_eq_true, decide_eq_true_eq] at hspace
    rcases hspace with ((rfl | rfl) | rfl) | rfl <;> cases hbyte

/-- A document whose root is not an object. -/
inductive Scalar : Node → Prop where
  | null (after : Bytes) : Scalar (.null after)
  | bool (value : Bool) (after : Bytes) : Scalar (.bool value after)
  | number (token after : Bytes) : Scalar (.number token after)
  | string (raw after : Bytes) : Scalar (.string raw after)

theorem parse_scalar {document : Node} (h : ReadsSpaced json leading document)
    (hscalar : Scalar document) :
    parse json (leading ++ document.text) subscription = fail .rootNotObject .root := by
  have hwell := h.wellFormed
  rw [parse, if_neg (Nat.not_lt.mpr h.bounded), h.iterate]
  cases hscalar with
  | null after =>
      simp only [Node.WellFormed] at hwell
      have htrim : trimJsonWhitespace (leading ++ (ascii "null" ++ after)) = ascii "null" :=
        trimJsonWhitespace_spaced h.spaces hwell (by decide +kernel) (by decide +kernel)
      simp only [valueOf, Value.type, Value.answers, validateNonObjectDocument, Node.text, htrim,
        ↓reduceIte]
  | bool value after => rfl
  | number token after =>
      simp only [Node.WellFormed] at hwell
      obtain ⟨hne, htoken⟩ := isNumber_notSpace hwell.1
      have htrim := trimJsonWhitespace_spaced h.spaces hwell.2 hne htoken
      simp only [valueOf, Value.type, Value.answers, validateNonObjectDocument, Node.text, htrim,
        (isValidJsonNumberToken_iff token).mpr hwell.1, ↓reduceIte]
  | string raw after =>
      simp only [Node.WellFormed] at hwell
      obtain ⟨content, -, hcontent⟩ := stringAnswer_of_isString hwell.1
      simp only [valueOf, Value.type, Value.answers, validateNonObjectDocument, Value.getString,
        hcontent]

theorem parse_array (subscription : LiveSubscription) {opened closed : Bytes} {items : Items}
    (h : ReadsSpaced json leading (.array opened items closed)) :
    (¬TrailedItems items ∧
      parse json (leading ++ (Node.array opened items closed).text) subscription =
        fail .rootNotObject .root) ∨
    (TrailedItems items ∧
      parse json (leading ++ (Node.array opened items closed).text) subscription =
        fail .malformedJson .root) := by
  have hwell := h.wellFormed
  have hnested := h.nested
  simp only [Node.WellFormed, Node.depth] at hwell hnested
  have hparse : parse json (leading ++ (Node.array opened items closed).text) subscription =
      (validateElements (elementsOf items) envelopeChildContainerDepth).elim
        (fail .rootNotObject .root)
        fun e => fail (LiveEnvelopeParser.classifyJsonError e) .root := by
    rw [parse, if_neg (Nat.not_lt.mpr h.bounded), h.iterate]
    simp only [valueOf, Value.type, Value.answers, Value.elements, validateNonObjectDocument]
    cases validateElements (elementsOf items) envelopeChildContainerDepth <;> rfl
  rcases validateElements_outcome items envelopeChildContainerDepth hwell.2.1
    (by rw [envelopeChildContainerDepth]; omega) with ⟨hv, hgood⟩ | ⟨e, hv, he, hbad⟩
  · exact .inl ⟨hgood, by rw [hparse, hv, Option.elim_none]⟩
  · exact .inr ⟨hbad, by rw [hparse, hv, Option.elim_some, classify_tokenError he]⟩

end Documents

/-- The error code, the route and the payload agree. -/
def SameResult (r r' : LiveEnvelopeResult) : Prop :=
  r'.error = r.error ∧ r'.route = r.route ∧ r'.payload = r.payload

/-- In both spacings the generic validation meets no token with trailing whitespace,
or in both it does and the same route is known by then. -/
def SameTrail (subscription : LiveSubscription) : Node → Node → Prop
  | .object _ members _, .object _ members' _ =>
      (NeverTrailed [] members.toList ∧ NeverTrailed [] members'.toList) ∨
        ∃ before bad before' bad', FirstTrailed [] members.toList before bad ∧
          FirstTrailed [] members'.toList before' bad' ∧
          routeAt subscription before' bad' = routeAt subscription before bad
  | .array _ items _, .array _ items' _ => TrailedItems items ↔ TrailedItems items'
  | _, _ => True

theorem sameTokens_of_strip {members members' : Members} (h : members'.strip = members.strip) :
    SameTokens members.toList members'.toList := by
  rw [SameTokens, ← Members.strip_toList, ← Members.strip_toList, h]

section Spacings

variable {json : Library} {subscription : LiveSubscription} {leading leading' : Bytes}

theorem same_of_sameTrail {opened closed opened' closed' : Bytes} {members members' : Members}
    (h : ReadsSpaced json leading (.object opened members closed))
    (h' : ReadsSpaced json leading' (.object opened' members' closed'))
    (hsame : SameTokens members.toList members'.toList) :
    SameResult (parse json (leading ++ (Node.object opened members closed).text) subscription)
      (parse json (leading' ++ (Node.object opened' members' closed').text) subscription) ↔
    SameTrail subscription (.object opened members closed) (.object opened' members' closed') := by
  have hclean : ∀ fields : List Member,
      (finish json subscription (Seen.visitAll {} fields)).error ≠ .malformedJson := fun fields =>
    finish_wellFormed json subscription (visitAll_wellFormed fields (by decide))
  rcases never_or_first [] members.toList with hnever | ⟨before, bad, hfirst⟩ <;>
    rcases never_or_first [] members'.toList with hnever' | ⟨before', bad', hfirst'⟩
  · -- neither run meets such a token
    have halike : Alike json (Seen.visitAll {} members.toList) (Seen.visitAll {} members'.toList) :=
      Alike.visitAll ⟨rfl, rfl, rfl, rfl, rfl, rfl, rfl, rfl⟩ hsame (h.minify _ _ _ rfl)
        (h'.minify _ _ _ rfl)
    rw [parse_never subscription h hnever, parse_never subscription h' hnever', halike.finish]
    exact iff_of_true ⟨rfl, rfl, rfl⟩ (.inl ⟨hnever, hnever'⟩)
  · -- only the second one does
    have hbad := parse_first subscription h' hfirst'
    rw [parse_never subscription h hnever]
    refine iff_of_false (fun hresult => ?_) (fun htrail => ?_)
    · exact hclean _ (hresult.1.symm.trans hbad.1)
    · rcases htrail with ⟨-, hnever'⟩ | ⟨_, _, _, _, hfirst, -⟩
      · exact not_first_of_never hnever' hfirst'
      · exact not_first_of_never hnever hfirst
  · -- only the first one does
    have hbad := parse_first subscription h hfirst
    rw [parse_never subscription h' hnever']
    refine iff_of_false (fun hresult => ?_) (fun htrail => ?_)
    · exact hclean _ (hresult.1.trans hbad.1)
    · rcases htrail with ⟨hnever, -⟩ | ⟨_, _, _, _, -, hfirst', -⟩
      · exact not_first_of_never hnever hfirst
      · exact not_first_of_never hnever' hfirst'
  · -- both do, so the results can differ in the route only
    obtain ⟨herror, hroute, hpayload⟩ := parse_first subscription h hfirst
    obtain ⟨herror', hroute', hpayload'⟩ := parse_first subscription h' hfirst'
    constructor
    · intro hresult
      refine .inr ⟨before, bad, before', bad', hfirst, hfirst', ?_⟩
      rw [← hroute, ← hroute', hresult.2.1]
    · rintro (⟨hnever, -⟩ | ⟨_, _, _, _, hf, hf', heq⟩)
      · exact absurd hfirst (not_first_of_never hnever)
      · obtain ⟨rfl, rfl⟩ := first_unique hfirst hf
        obtain ⟨rfl, rfl⟩ := first_unique hfirst' hf'
        exact ⟨herror'.trans herror.symm, by rw [hroute, hroute', heq], hpayload'.trans hpayload.symm⟩

end Spacings

end LiveEnvelopeParser

open LiveEnvelopeParser

/-- Two spacings of a document have the same result exactly when the generic
validation treats their trailing whitespace alike. -/
theorem envelope_spacing {json : Library} {leading leading' : Bytes} {document document' : Node}
    (h : ReadsSpaced json leading document) (h' : ReadsSpaced json leading' document')
    (hstrip : document'.strip = document.strip) (subscription : LiveSubscription) :
    SameResult (parse json (leading ++ document.text) subscription)
      (parse json (leading' ++ document'.text) subscription) ↔
    SameTrail subscription document document' := by
  have scalars : ∀ {d d' : Node}, ReadsSpaced json leading d → ReadsSpaced json leading' d' →
      Scalar d → Scalar d' → SameTrail subscription d d' →
      (SameResult (parse json (leading ++ d.text) subscription)
        (parse json (leading' ++ d'.text) subscription) ↔ SameTrail subscription d d') := by
    intro d d' hd hd' hs hs' htrail
    rw [parse_scalar hd hs, parse_scalar hd' hs']
    exact iff_of_true ⟨rfl, rfl, rfl⟩ htrail
  cases document with
  | null after =>
      cases document' with
      | null after' => exact scalars h h' (.null _) (.null _) trivial
      | _ => cases hstrip
  | bool value after =>
      cases document' with
      | bool value' after' => exact scalars h h' (.bool _ _) (.bool _ _) trivial
      | _ => cases hstrip
  | number token after =>
      cases document' with
      | number token' after' => exact scalars h h' (.number _ _) (.number _ _) trivial
      | _ => cases hstrip
  | string raw after =>
      cases document' with
      | string raw' after' => exact scalars h h' (.string _ _) (.string _ _) trivial
      | _ => cases hstrip
  | array opened items closed =>
      cases document' with
      | array opened' items' closed' =>
          rcases parse_array subscription h with ⟨hi, hr⟩ | ⟨hi, hr⟩ <;>
            rcases parse_array subscription h' with ⟨hi', hr'⟩ | ⟨hi', hr'⟩ <;>
            simp [hr, hr', SameResult, SameTrail, hi, hi', fail]
      | _ => cases hstrip
  | object opened members closed =>
      cases document' with
      | object opened' members' closed' =>
          simp only [Node.strip, Node.object.injEq, true_and, and_true] at hstrip
          exact same_of_sameTrail h h' (sameTokens_of_strip hstrip)
      | _ => cases hstrip

/-- An envelope with an extra number, and whitespace after the number and its comma. -/
def spacedEnvelope (after commaAfter : Bytes) : Node :=
  objectNode
    [{ key := ascii "x", value := .number (ascii "1") after, commaAfter := commaAfter },
     { key := ascii "stream", value := .string (ascii "btcusdt@trade") [] },
     { key := ascii "data", value := objectNode [] }]

def spacedLibrary : Library :=
  .ofNodes [spacedEnvelope [] [], spacedEnvelope [] [32], spacedEnvelope [32] []]

theorem spacedEnvelope_reads {after commaAfter : Bytes}
    (h : (after, commaAfter) ∈ [([], []), ([], [32]), ([32], [])]) :
    ReadsSpaced spacedLibrary [] (spacedEnvelope after commaAfter) := by
  have hwellFormed : Spaces after ∧ Spaces commaAfter →
      (spacedEnvelope after commaAfter).WellFormed := by
    have hx : IsString (ascii "x") := ⟨⟨"x".toList, by decide +kernel⟩, by decide +kernel⟩
    have hstream : IsString (ascii "stream") := ⟨⟨"stream".toList, by decide +kernel⟩, by decide +kernel⟩
    have hname : IsString (ascii "btcusdt@trade") :=
      ⟨⟨"btcusdt@trade".toList, by decide +kernel⟩, by decide +kernel⟩
    have hdata : IsString (ascii "data") := ⟨⟨"data".toList, by decide +kernel⟩, by decide +kernel⟩
    have hone : IsNumber (ascii "1") := (isValidJsonNumberToken_iff _).mp (by decide +kernel)
    simp [spacedEnvelope, objectNode, Members.ofList, Node.WellFormed, Members.WellFormed, hx,
      hstream, hname, hdata, hone, Spaces]
  have hminify : ∀ opened members closed,
      spacedEnvelope after commaAfter = .object opened members closed →
      ∀ m ∈ members.toList, keyOf m = ascii "data" →
        spacedLibrary.minify m.value.text = .ok m.value.strip.text := by
    rintro opened members closed heq m hm hkey
    obtain ⟨rfl, rfl, rfl⟩ := Node.object.inj heq
    simp only [Members.ofList, Members.toList, List.mem_cons, List.not_mem_nil, or_false] at hm
    have hnot : ∀ key : Bytes, key = ascii "x" ∨ key = ascii "stream" →
        (decodeString key).getD [] ≠ ascii "data" := by
      rintro key (rfl | rfl) <;> decide +kernel
    rcases hm with rfl | rfl | rfl
    · exact absurd hkey (hnot _ (.inl rfl))
    · exact absurd hkey (hnot _ (.inr rfl))
    · rfl
  simp only [List.mem_cons, Prod.mk.injEq, List.not_mem_nil, or_false] at h
  rcases h with ⟨rfl, rfl⟩ | ⟨rfl, rfl⟩ | ⟨rfl, rfl⟩
  · exact ⟨by simp [Spaces], hwellFormed (by simp [Spaces]), by decide +kernel, by decide +kernel,
      rfl, hminify⟩
  · exact ⟨by simp [Spaces], hwellFormed (by simp [Spaces, isSpace]), by decide +kernel,
      by decide +kernel, rfl, hminify⟩
  · exact ⟨by simp [Spaces], hwellFormed (by simp [Spaces, isSpace]), by decide +kernel,
      by decide +kernel, rfl, hminify⟩

theorem envelope_spacing_sample :
    ∃ subscription, LiveSubscription.create .spot [ascii "BTCUSDT"] = .ok subscription ∧
      SameResult (parse spacedLibrary ([] ++ (spacedEnvelope [] []).text) subscription)
        (parse spacedLibrary ([] ++ (spacedEnvelope [] [32]).text) subscription) := by
  obtain ⟨subscription, hcreate, -⟩ := LiveSubscription.create_exact
    (show validateSymbolSet [ascii "BTCUSDT"] = .none by decide +kernel) .spot
  refine ⟨subscription, hcreate, ?_⟩
  refine (envelope_spacing (spacedEnvelope_reads (by simp)) (spacedEnvelope_reads (by simp)) rfl
    subscription).mpr ?_
  refine .inl ⟨?_, ?_⟩ <;>
    simp [Members.ofList, Members.toList, NeverTrailed, TrailedAt, Trailed, objectNode,
      TrailedMembers]

/-- Whitespace after an extra number turns an accepted envelope into a malformed one. -/
theorem spaced_number_malformed :
    ∃ subscription, LiveSubscription.create .spot [ascii "BTCUSDT"] = .ok subscription ∧
      (spacedEnvelope [32] []).strip = (spacedEnvelope [] []).strip ∧
      ReadsSpaced spacedLibrary [] (spacedEnvelope [] []) ∧
      ReadsSpaced spacedLibrary [] (spacedEnvelope [32] []) ∧
      ¬SameResult (parse spacedLibrary ([] ++ (spacedEnvelope [] []).text) subscription)
        (parse spacedLibrary ([] ++ (spacedEnvelope [32] []).text) subscription) := by
  obtain ⟨subscription, hcreate, -⟩ := LiveSubscription.create_exact
    (show validateSymbolSet [ascii "BTCUSDT"] = .none by decide +kernel) .spot
  have hcompact : ReadsSpaced spacedLibrary [] (spacedEnvelope [] []) :=
    spacedEnvelope_reads (by simp)
  have hspaced : ReadsSpaced spacedLibrary [] (spacedEnvelope [32] []) :=
    spacedEnvelope_reads (by simp)
  refine ⟨subscription, hcreate, rfl, hcompact, hspaced, fun hsame => ?_⟩
  have hkey : ∀ name : Bytes, name = ascii "stream" ∨ name = ascii "data" →
      decodeString (ascii "x") ≠ some name := by
    rintro name (rfl | rfl) <;> decide +kernel
  have hbad := parse_first subscription hspaced (.inl ⟨⟨⟨fun h => absurd h (hkey _ (.inl rfl)),
    fun h => absurd h (hkey _ (.inr rfl))⟩, List.cons_ne_nil 32 []⟩, rfl, rfl⟩)
  have hnever := neverTrailed_of_compact []
    (show ∀ m ∈ (Members.ofList
        [{ key := ascii "x", value := .number (ascii "1") [] },
         { key := ascii "stream", value := .string (ascii "btcusdt@trade") [] },
         { key := ascii "data", value := objectNode [] }]).toList, m.value.strip = m.value by
      simp [Members.ofList, Members.toList, Node.strip, objectNode, Members.strip])
  have hgood := congrArg LiveEnvelopeResult.error (parse_never subscription hcompact hnever)
  have herror := hgood.symm.trans (hsame.1.symm.trans hbad.1)
  exact finish_wellFormed spacedLibrary subscription (visitAll_wellFormed _ (by decide)) herror

end MarketCapture
