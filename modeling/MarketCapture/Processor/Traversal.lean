import MarketCapture.Payload.DepthAcceptance
import MarketCapture.Processor.EventProcessor

/-! # Traversals

What a parse requires of the syntax of an object. A schema error is recorded and the traversal
goes on, so a parse ends with an eligible code exactly when every key can be read and every value
passes the generic validation, apart from a number that is read as an id or a time: there the
answer of `get_uint64` decides.
-/

namespace MarketCapture

open Simdjson JsonValidation

/-- The field is read as an unsigned number: an id or a time that has not been met before. -/
def ReadsNumber (venue : PayloadVenue) (kind : StreamKind) (marked : List DepthField)
    (name : Bytes) : Prop :=
  kind ≠ .trade ∧ ∃ field, depthField venue kind name = some field ∧ DepthState.IsId field ∧ field ∉ marked

/-- The fields met once this name has been read. -/
def markedBy (venue : PayloadVenue) (kind : StreamKind) (marked : List DepthField)
    (name : Bytes) : List DepthField :=
  match depthField venue kind name with
  | some field => if field ∈ marked then marked else field :: marked
  | none => marked

/-- Reading the value as an unsigned number does not end the parse. -/
def Simdjson.Value.Tolerated (value : Value) : Prop :=
  match value.type with
  | .error _ => False
  | .ok .number =>
      match value.getUint64 with
      | .ok _ => True
      | .error e => isSchemaConversionError e = true
  | .ok _ => validateValue value rootFieldContainerDepth = none

/-- The value of a field lets the traversal go on. -/
def Passable (venue : PayloadVenue) (kind : StreamKind) (marked : List DepthField) (name : Bytes)
    (value : Value) : Prop :=
  (ReadsNumber venue kind marked name → value.Tolerated) ∧
    (¬ReadsNumber venue kind marked name → validateValue value rootFieldContainerDepth = none)

/-- The fields are read to their end, once these have been met. -/
def Traversed (venue : PayloadVenue) (kind : StreamKind) : List DepthField → Fields → Prop
  | _, .done => True
  | _, .error _ => False
  | marked, .next key value rest =>
      ∃ name, key = .ok name ∧ Passable venue kind marked name value ∧
        Traversed venue kind (markedBy venue kind marked name) rest

theorem classifyJsonError_fatal (e : ErrorCode) :
    isFatalDocumentError (classifyJsonError e) = true := by
  unfold classifyJsonError
  split <;> rfl

theorem not_eligible_of_fatal {e : SpotParseError} (h : isFatalDocumentError e = true) :
    auditEligible e = false := by
  cases e <;> first | rfl | cases h

theorem not_fatal_of_eligible {e : SpotParseError} (h : auditEligible e = true) :
    isFatalDocumentError e = false := by
  cases e <;> first | rfl | cases h

/-- A check that may end the parse: it fails with the code of the validation, or with one that is
eligible. -/
structure Settles (validation : Option ErrorCode) (failure : ParseFailure) : Prop where
  invalid : ∀ e, validation = some e → failure = failJson e
  valid : validation = none → auditEligible failure.error = true

theorem Settles.of_error (e : ErrorCode) : Settles (some e) (failJson e) where
  invalid e' h := by rw [Option.some.inj h]
  valid h := by cases h

theorem Settles.of_valid {validation : Option ErrorCode} {failure : ParseFailure}
    (hvalid : validation = none) (h : auditEligible failure.error = true) :
    Settles validation failure where
  invalid e he := by
    rw [hvalid] at he
    cases he
  valid _ := h

theorem Settles.fatal {validation : Option ErrorCode} {failure : ParseFailure}
    (h : Settles validation failure) (hinvalid : validation ≠ none) :
    isFatalDocumentError failure.error = true := by
  obtain ⟨e, he⟩ := Option.ne_none_iff_exists'.mp hinvalid
  rw [h.invalid e he]
  exact classifyJsonError_fatal e

/-! ## Strings and numbers -/

theorem wrongTypeUnlessInvalid_settles (value : Value) (field : SpotField) :
    Settles (validateValue value rootFieldContainerDepth) (wrongTypeUnlessInvalid value field) := by
  unfold wrongTypeUnlessInvalid
  cases validateValue value rootFieldContainerDepth with
  | none => exact .of_valid rfl rfl
  | some e => exact .of_error e

/-- A string is read as the generic validation reads it. -/
theorem readJsonString_settles {value : Value} {field : SpotField} {failure : ParseFailure}
    (h : readJsonString value field = .error failure) :
    Settles (validateValue value rootFieldContainerDepth) failure := by
  have hwrong := wrongTypeUnlessInvalid_settles value field
  obtain ⟨answers, elements, fields⟩ := value
  unfold readJsonString at h
  cases htype : answers.type with
  | error e =>
      simp only [Value.type, Value.answers, htype, Except.error.injEq] at h
      simp only [validateValue, htype, ← h]
      exact .of_error e
  | ok type =>
      cases type with
      | string =>
          cases hstring : answers.string with
          | ok s => simp [Value.type, Value.getString, Value.answers, htype, hstring] at h
          | error e =>
              simp only [Value.type, Value.getString, Value.answers, htype, hstring,
                Except.error.injEq] at h
              simp only [validateValue, htype, hstring, ← h]
              exact .of_error e
      | _ =>
          simp only [Value.type, Value.answers, htype, Except.error.injEq] at h
          rwa [← h]

theorem readJsonString_ok {value : Value} {field : SpotField} {s : Bytes}
    (h : readJsonString value field = .ok s) :
    validateValue value rootFieldContainerDepth = none := by
  obtain ⟨answers, elements, fields⟩ := value
  unfold readJsonString at h
  cases htype : answers.type with
  | error e => simp [Value.type, Value.answers, htype] at h
  | ok type =>
      cases type with
      | string =>
          cases hstring : answers.string with
          | ok s => simp only [validateValue, htype, hstring]
          | error e => simp [Value.type, Value.getString, Value.answers, htype, hstring] at h
      | _ => simp [Value.type, Value.answers, htype] at h

theorem readJsonUint64_of_tolerated {value : Value} {field : SpotField} {failure : ParseFailure}
    (htolerated : value.Tolerated) (h : readJsonUint64 value field = .error failure) :
    failure.error = .wrongType := by
  unfold Value.Tolerated at htolerated
  unfold readJsonUint64 wrongTypeUnlessInvalid at h
  cases htype : value.type with
  | error e =>
      rw [htype] at htolerated
      exact htolerated.elim
  | ok type =>
      rw [htype] at htolerated h
      cases type with
      | number =>
          cases hnumber : value.getUint64 with
          | ok n => simp [hnumber] at h
          | error e =>
              rw [hnumber] at htolerated
              simp only [hnumber, htolerated, ↓reduceIte, Except.error.injEq] at h
              rw [← h]
      | _ =>
          simp only at htolerated
          simp only [htolerated, Except.error.injEq] at h
          rw [← h]

theorem readJsonUint64_of_not_tolerated {value : Value} (field : SpotField)
    (h : ¬value.Tolerated) : ∃ failure, readJsonUint64 value field = .error failure ∧
      isFatalDocumentError failure.error = true := by
  unfold Value.Tolerated at h
  unfold readJsonUint64 wrongTypeUnlessInvalid
  cases htype : value.type with
  | error e => exact ⟨_, rfl, classifyJsonError_fatal e⟩
  | ok type =>
      rw [htype] at h
      cases type with
      | number =>
          cases hnumber : value.getUint64 with
          | ok n =>
              rw [hnumber] at h
              exact absurd trivial h
          | error e =>
              rw [hnumber] at h
              refine ⟨_, rfl, ?_⟩
              rw [if_neg h]
              exact classifyJsonError_fatal e
      | _ =>
          simp only at h
          obtain ⟨e, he⟩ := Option.ne_none_iff_exists'.mp h
          exact ⟨failJson e, by simp only [he], classifyJsonError_fatal e⟩

/-! ## Levels -/

theorem recordFirst_eligible {first : ParseFailure} {error : SpotParseError} {field : SpotField}
    {decimalError : DecimalParseError} (hfirst : auditEligible first.error = true)
    (h : auditEligible error = true) :
    auditEligible (recordFirst first error field decimalError).error = true := by
  unfold recordFirst
  split
  · exact hfirst
  · exact h

/-- The components of a level are validated as the elements of any array. -/
theorem parseComponents_settles (elements : Elements) {c : Components}
    (hc : auditEligible c.firstError.error = true) :
    (∀ e, validateElements elements levelComponentContainerDepth = some e →
      parseComponents elements c = .error e) ∧
    (validateElements elements levelComponentContainerDepth = none →
      ∃ c', parseComponents elements c = .ok c' ∧ auditEligible c'.firstError.error = true) := by
  cases elements with
  | done => exact ⟨fun e h => (by cases h), fun _ => ⟨c, rfl, hc⟩⟩
  | error e => exact ⟨fun e' h => by rw [parseComponents, Option.some.inj h], fun h => by cases h⟩
  | next value rest =>
      have hrecorded : ∀ error field, auditEligible error = true →
          auditEligible (recordFirst c.firstError error field).error = true :=
        fun error field h => recordFirst_eligible hc h
      rw [validateElements, parseComponents]
      cases hvalue : validateValue value levelComponentContainerDepth with
      | some e =>
          refine ⟨fun e' h => ?_, fun h => by cases h⟩
          obtain rfl := Option.some.inj h
          split
          · rfl
          · obtain ⟨answers, es, fs⟩ := value
            cases htype : answers.type with
            | error e' =>
                simp only [validateValue, htype, Option.some.injEq] at hvalue
                simp only [Value.type, Value.answers, htype, hvalue]
            | ok type =>
                cases type with
                | string =>
                    cases hstring : answers.string with
                    | ok text => simp [validateValue, htype, hstring] at hvalue
                    | error e' =>
                        simp only [validateValue, htype, hstring, Option.some.injEq] at hvalue
                        simp only [Value.type, Value.getString, Value.answers, htype, hstring,
                          hvalue]
                | _ => simp only [Value.type, Value.answers, htype]
      | none =>
          simp only
          split
          · exact parseComponents_settles rest (hrecorded _ _ rfl)
          · cases htype : value.type with
            | error e' =>
                obtain ⟨answers, es, fs⟩ := value
                simp only [Value.type, Value.answers] at htype
                simp [validateValue, htype] at hvalue
            | ok type =>
                cases type with
                | string =>
                    cases hstring : value.getString with
                    | error e' =>
                        obtain ⟨answers, es, fs⟩ := value
                        simp only [Value.type, Value.getString, Value.answers] at htype hstring
                        simp [validateValue, htype, hstring] at hvalue
                    | ok text =>
                        refine parseComponents_settles rest ?_
                        split <;> exact hc
                | _ => exact parseComponents_settles rest (hrecorded _ _ rfl)

/-- The error of a level ends the traversal, or the first error stays eligible. -/
structure LevelSettles (validation : Option ErrorCode)
    (outcome : LevelsState × Option ParseFailure) : Prop where
  invalid : ∀ e, validation = some e → outcome.2 = some (failJson e)
  valid : validation = none →
    outcome.2 = none ∧ auditEligible outcome.1.firstError.error = true

theorem skipLevel_settles (value : Value) {s : LevelsState}
    (hs : auditEligible s.firstError.error = true) :
    LevelSettles (validateValue value levelContainerDepth) (skipLevel value s) := by
  unfold skipLevel
  cases validateValue value levelContainerDepth with
  | none => exact ⟨fun e h => (by cases h), fun _ => ⟨rfl, hs⟩⟩
  | some e => exact ⟨fun e' h => by rw [Option.some.inj h], fun h => by cases h⟩

/-- With a free slot in the table, a level does not end the traversal. -/
theorem acceptLevel_eligible {side : BookSide} {isPartial : Bool} {c : Components} {s : LevelsState}
    {keys : List (Int × BookSide)} (ht : s.scratch.table.Tracks keys)
    (hroom : keys.length < duplicateTableSize) (hs : auditEligible s.firstError.error = true) :
    (acceptLevel side isPartial c s).2 = none ∧
      auditEligible (acceptLevel side isPartial c s).1.firstError.error = true := by
  have hrecorded : ∀ (s' : LevelsState) error field decimalError,
      s'.firstError = s.firstError → auditEligible error = true →
      auditEligible (s'.record error field decimalError).firstError.error = true :=
    fun s' error field decimalError heq h => recordFirst_eligible (by rw [heq]; exact hs) h
  unfold acceptLevel
  split
  · exact ⟨rfl, hrecorded _ _ _ _ rfl rfl⟩
  · rename_i price _
    split
    · exact ⟨rfl, hrecorded _ _ _ _ rfl rfl⟩
    · split
      · exact ⟨rfl, hrecorded _ _ _ _ rfl rfl⟩
      · split
        · exact ⟨rfl, hrecorded _ _ _ _ rfl rfl⟩
        · have hinsert := DuplicateTable.insertUnique_spec ht price side hroom
          split at hinsert
          · rw [hinsert]
            exact ⟨rfl, hrecorded _ _ _ _ rfl rfl⟩
          · obtain ⟨hinserted, -⟩ := hinsert
            generalize s.scratch.table.insertUnique price side = r at hinserted
            obtain ⟨outcome, table⟩ := r
            simp only at hinserted
            subst hinserted
            simp only
            split
            · exact ⟨rfl, hrecorded _ _ _ _ rfl rfl⟩
            · exact ⟨rfl, hs⟩

theorem parseLevel_settles (side : BookSide) (isPartial : Bool) (value : Value) {s : LevelsState}
    {keys : List (Int × BookSide)} (ht : s.scratch.Tracked keys)
    (hs : auditEligible s.firstError.error = true) :
    LevelSettles (validateValue value levelContainerDepth)
      (parseLevel side isPartial value s) := by
  unfold parseLevel
  simp only
  split
  · exact skipLevel_settles value (recordFirst_eligible hs rfl)
  · rename_i hroom
    cases htype : value.type with
    | error e =>
        obtain ⟨answers, es, fs⟩ := value
        simp only [Value.type, Value.answers] at htype
        simp only [validateValue, htype]
        exact ⟨fun e' h => by rw [Option.some.inj h], fun h => by cases h⟩
    | ok type =>
        cases type with
        | array =>
            have hvalidation : validateValue value levelContainerDepth =
                validateElements value.elements levelComponentContainerDepth := by
              obtain ⟨answers, es, fs⟩ := value
              simp only [Value.type, Value.answers] at htype
              simp only [validateValue, htype, Value.elements]
              rfl
            obtain ⟨hinvalid, hvalid⟩ := parseComponents_settles value.elements
              (c := { firstError := s.countLevel.firstError }) hs
            rw [hvalidation]
            refine ⟨fun e he => ?_, fun hnone => ?_⟩
            · rw [hinvalid e he]
            · obtain ⟨c, hc, heligible⟩ := hvalid hnone
              rw [hc]
              simp only
              split
              · exact ⟨rfl, recordFirst_eligible heligible rfl⟩
              · split
                · exact ⟨rfl, heligible⟩
                · refine acceptLevel_eligible ht.tracks ?_ heligible
                  have hbound := ht.bound
                  have hcount : ¬maxDepthUpdates ≤ s.scratch.encounteredLevels :=
                    fun h => hroom (by simp [overCapacity, h])
                  simp only [maxDepthUpdates, duplicateTableSize] at hcount ⊢
                  omega
        | _ => exact skipLevel_settles value (recordFirst_eligible hs rfl)

theorem parseLevelsLoop_settles (side : BookSide) (isPartial : Bool) {base : List LevelUpdate}
    (elements : Elements) {s : LevelsState} {keys : List (Int × BookSide)}
    (ht : s.scratch.Tracked keys) (ha : Appended side isPartial base s)
    (hs : auditEligible s.firstError.error = true) :
    LevelSettles (validateElements elements levelContainerDepth)
      (parseLevelsLoop side isPartial elements s) := by
  cases elements with
  | done => exact ⟨fun e h => (by cases h), fun _ => ⟨rfl, hs⟩⟩
  | error e => exact ⟨fun e' h => by rw [parseLevelsLoop, Option.some.inj h], fun h => by cases h⟩
  | next value rest =>
      obtain ⟨keys', ht', ha'⟩ := parseLevel_spec value ht ha
      obtain ⟨hinvalid, hvalid⟩ := parseLevel_settles side isPartial value ht hs
      rw [validateElements, parseLevelsLoop]
      generalize parseLevel side isPartial value s = outcome at *
      obtain ⟨s', failure⟩ := outcome
      cases hvalue : validateValue value levelContainerDepth with
      | some e =>
          obtain rfl : failure = some (failJson e) := hinvalid e hvalue
          exact ⟨fun e' h => by rw [Option.some.inj h], fun h => by cases h⟩
      | none =>
          obtain ⟨hnone, heligible⟩ := hvalid hvalue
          obtain rfl : failure = none := hnone
          exact parseLevelsLoop_settles side isPartial rest ht' ha' heligible

/-- A level array is validated as any value of a root field. -/
theorem parseLevels_settles (value : Value) (side : BookSide) (isPartial : Bool)
    {scratch : Scratch} {keys : List (Int × BookSide)} (ht : scratch.Tracked keys) :
    Settles (validateValue value rootFieldContainerDepth)
      (parseLevels value side isPartial scratch).1 := by
  unfold parseLevels
  cases htype : value.type with
  | error e =>
      obtain ⟨answers, es, fs⟩ := value
      simp only [Value.type, Value.answers] at htype
      simp only [validateValue, htype]
      exact .of_error e
  | ok type =>
      cases type with
      | array =>
          have hvalidation : validateValue value rootFieldContainerDepth =
              validateElements value.elements levelContainerDepth := by
            obtain ⟨answers, es, fs⟩ := value
            simp only [Value.type, Value.answers] at htype
            simp only [validateValue, htype, Value.elements]
            rfl
          have hnone : Appended side isPartial scratch.updates { scratch := scratch } :=
            ⟨[], by simp⟩
          have hloop := parseLevelsLoop_settles side isPartial value.elements ht hnone rfl
          rw [hvalidation]
          simp only
          generalize parseLevelsLoop side isPartial value.elements { scratch := scratch } =
            outcome at hloop
          obtain ⟨s', failure⟩ := outcome
          cases hvalue : validateElements value.elements levelContainerDepth with
          | some e =>
              obtain rfl : failure = some (failJson e) := hloop.invalid e hvalue
              exact .of_error e
          | none =>
              obtain ⟨hnone, heligible⟩ := hloop.valid hvalue
              obtain rfl : failure = none := hnone
              exact .of_valid rfl heligible
      | _ => exact wrongTypeUnlessInvalid_settles value (sideField side)

/-! ## Fields -/

namespace DepthState

/-- A field is passed with an eligible error, or it ends the traversal. -/
structure Resolved (s : DepthState) (passed : Prop) : Prop where
  passes : passed → auditEligible s.result.error = true
  ends : ¬passed → isFatalDocumentError s.result.error = true

theorem Resolved.of_iff {s : DepthState} {p q : Prop} (hiff : p ↔ q) (h : s.Resolved p) :
    s.Resolved q where
  passes hq := h.passes (hiff.mpr hq)
  ends hq := h.ends fun hp => hq (hiff.mp hp)

variable {s : DepthState} {kind : StreamKind}

theorem record_eligible (hs : auditEligible s.result.error = true) {error : SpotParseError}
    (field : SpotField) (decimalError : DecimalParseError) (h : auditEligible error = true) :
    auditEligible (s.record error field decimalError).result.error = true := by
  unfold record
  split
  · exact h
  · exact hs

theorem applyFailure_eligible (hs : auditEligible s.result.error = true) {failure : ParseFailure}
    (h : auditEligible failure.error = true) :
    auditEligible (s.applyFailure failure).result.error = true := by
  rw [applyFailure, not_fatal_of_eligible h, if_neg Bool.false_ne_true]
  exact record_eligible hs _ _ h

theorem applyFailure_fatal {failure : ParseFailure}
    (h : isFatalDocumentError failure.error = true) :
    isFatalDocumentError (s.applyFailure failure).result.error = true := by
  rw [applyFailure, if_pos h]
  exact h

theorem applyFailure_resolved (hs : auditEligible s.result.error = true)
    {validation : Option ErrorCode} {failure : ParseFailure} (h : Settles validation failure) :
    (s.applyFailure failure).Resolved (validation = none) where
  passes hvalid := applyFailure_eligible hs (h.valid hvalid)
  ends hinvalid := applyFailure_fatal (h.fatal hinvalid)

theorem duplicateField_resolved (hs : auditEligible s.result.error = true) (field : DepthField)
    (value : Value) : (s.duplicateField field value).Resolved
      (validateValue value rootFieldContainerDepth = none) := by
  unfold duplicateField
  cases validateValue value rootFieldContainerDepth with
  | none => exact ⟨fun _ => record_eligible hs _ _ rfl, fun h => absurd rfl h⟩
  | some e => exact ⟨fun h => (by cases h), fun _ => classifyJsonError_fatal e⟩

theorem readId_resolved (hs : auditEligible s.result.error = true) (value : Value)
    (field : DepthField) (store : UInt64 → SpotDepthEvent → SpotDepthEvent) :
    (s.readId value field store).Resolved value.Tolerated := by
  unfold readId
  by_cases htolerated : value.Tolerated
  · refine ⟨fun _ => ?_, fun h => absurd htolerated h⟩
    cases hread : readJsonUint64 value field.spotField with
    | ok n => exact hs
    | error failure =>
        refine applyFailure_eligible hs ?_
        rw [readJsonUint64_of_tolerated htolerated hread]
        rfl
  · obtain ⟨failure, hread, hfatal⟩ := readJsonUint64_of_not_tolerated field.spotField htolerated
    refine ⟨fun h => absurd h htolerated, fun _ => ?_⟩
    rw [hread]
    exact applyFailure_fatal hfatal

theorem readLevels_resolved (hs : auditEligible s.result.error = true)
    {keys : List (Int × BookSide)} (ht : s.scratch.Tracked keys) (value : Value) (side : BookSide)
    (isPartial : Bool) : (s.readLevels value side isPartial).Resolved
      (validateValue value rootFieldContainerDepth = none) := by
  have hlevels := parseLevels_settles value side isPartial ht
  unfold readLevels
  generalize parseLevels value side isPartial s.scratch = outcome at hlevels
  obtain ⟨failure, range, scratch⟩ := outcome
  simp only at hlevels ⊢
  refine ⟨fun hvalid => ?_, fun hinvalid => ?_⟩
  · have heligible := hlevels.valid hvalid
    have hcapacity : failure.error ≠ .internalCapacityError := by
      intro h
      rw [h] at heligible
      cases heligible
    split
    · rw [not_fatal_of_eligible heligible, decide_eq_false hcapacity, Bool.or_false,
        if_neg Bool.false_ne_true]
      refine record_eligible ?_ _ _ heligible
      exact hs
    · exact hs
  · obtain ⟨e, he⟩ := Option.ne_none_iff_exists'.mp hinvalid
    have hfatal := classifyJsonError_fatal e
    rw [hlevels.invalid e he, if_pos (by simp [ParseFailure.failed, failJson,
      classifyJsonError_ne_none]), if_pos (by simp [failJson, hfatal])]
    exact hfatal

theorem readField_resolved (hs : auditEligible s.result.error = true)
    {keys : List (Int × BookSide)} (ht : s.scratch.Tracked keys) (expectedSymbol : Bytes)
    {field : DepthField} (hid : ¬IsId field) (value : Value) :
    (s.readField kind expectedSymbol field value).Resolved
      (validateValue value rootFieldContainerDepth = none) := by
  cases field with
  | eventType =>
      simp only [readField]
      cases hread : readJsonString value .eventType with
      | error failure => exact applyFailure_resolved hs (readJsonString_settles hread)
      | ok text =>
          refine ⟨fun _ => ?_, fun hinvalid => absurd (readJsonString_ok hread) hinvalid⟩
          simp only
          split
          · exact record_eligible hs _ _ rfl
          · exact hs
  | symbol =>
      simp only [readField]
      cases hread : readJsonString value .symbol with
      | error failure => exact applyFailure_resolved hs (readJsonString_settles hread)
      | ok text =>
          refine ⟨fun _ => ?_, fun hinvalid => absurd (readJsonString_ok hread) hinvalid⟩
          simp only
          split
          · exact record_eligible hs _ _ rfl
          · exact hs
  | bids => exact readLevels_resolved hs ht value .bid _
  | asks => exact readLevels_resolved hs ht value .ask _
  | eventTime | transactionTime | firstUpdateId | finalUpdateId | previousUpdateId | lastUpdateId =>
      exact absurd trivial hid

/-- One field: it is passed exactly when its value is passable. -/
theorem visit_resolved (venue : PayloadVenue) (hkind : kind ≠ .trade) (hs : auditEligible s.result.error = true)
    {keys : List (Int × BookSide)} (ht : s.scratch.Tracked keys) (expectedSymbol key : Bytes)
    (value : Value) : (s.visit venue kind expectedSymbol key value).Resolved
      (Passable venue kind s.marked key value) := by
  have hplain : ¬ReadsNumber venue kind s.marked key →
      (validateValue value rootFieldContainerDepth = none ↔
        Passable venue kind s.marked key value) := fun h =>
    ⟨fun hvalid => ⟨fun hreads => absurd hreads h, fun _ => hvalid⟩, fun hpass => hpass.2 h⟩
  unfold visit
  cases hfield : depthField venue kind key with
  | none =>
      refine .of_iff (hplain ?_) ?_
      · intro hreads
        obtain ⟨-, field, hsome, -⟩ := hreads
        rw [hfield] at hsome
        cases hsome
      · cases validateValue value rootFieldContainerDepth with
        | none => exact ⟨fun _ => hs, fun h => absurd rfl h⟩
        | some e => exact ⟨fun h => (by cases h), fun _ => classifyJsonError_fatal e⟩
  | some field =>
      simp only
      by_cases hmarked : field ∈ s.marked
      · rw [if_pos hmarked]
        refine .of_iff (hplain ?_) (duplicateField_resolved hs field value)
        intro hreads
        obtain ⟨-, other, hsome, -, hnew⟩ := hreads
        rw [hfield] at hsome
        exact hnew (Option.some.inj hsome ▸ hmarked)
      · rw [if_neg hmarked]
        by_cases hid : IsId field
        · have hreads : ReadsNumber venue kind s.marked key := ⟨hkind, field, hfield, hid, hmarked⟩
          rw [readField_id _ kind expectedSymbol value hid]
          refine .of_iff ?_
            (readId_resolved (s := { s with marked := field :: s.marked }) hs value field _)
          exact ⟨fun h => ⟨fun _ => h, fun hno => absurd hreads hno⟩, fun h => h.1 hreads⟩
        · refine .of_iff (hplain ?_) (readField_resolved
            (s := { s with marked := field :: s.marked }) hs ht expectedSymbol hid value)
          intro hreads
          obtain ⟨-, other, hsome, hother, -⟩ := hreads
          rw [hfield] at hsome
          exact hid (Option.some.inj hsome ▸ hother)

end DepthState

theorem DepthState.record_marked (s : DepthState) (error : SpotParseError) (field : SpotField)
    (decimalError : DecimalParseError) : (s.record error field decimalError).marked = s.marked := by
  unfold DepthState.record
  split <;> rfl

theorem DepthState.applyFailure_marked (s : DepthState) (failure : ParseFailure) :
    (s.applyFailure failure).marked = s.marked := by
  unfold DepthState.applyFailure
  split
  · rfl
  · exact DepthState.record_marked s _ _ _

theorem DepthState.readField_marked (s : DepthState) (kind : StreamKind) (expectedSymbol : Bytes)
    (field : DepthField) (value : Value) :
    (s.readField kind expectedSymbol field value).marked = s.marked := by
  have hlevels : ∀ side isPartial, (s.readLevels value side isPartial).marked = s.marked := by
    intro side isPartial
    simp only [DepthState.readLevels]
    split
    · split
      · rfl
      · rw [DepthState.record_marked]
        rfl
    · rfl
  have hid : ∀ store, (s.readId value field store).marked = s.marked := by
    intro store
    unfold DepthState.readId
    split
    · exact DepthState.applyFailure_marked s _
    · rfl
  cases field with
  | eventType | symbol =>
      simp only [DepthState.readField]
      split
      · exact DepthState.applyFailure_marked s _
      · split
        · exact DepthState.record_marked s _ _ _
        · rfl
  | bids | asks => exact hlevels _ _
  | eventTime | transactionTime | firstUpdateId | finalUpdateId | previousUpdateId | lastUpdateId =>
      exact hid _

theorem DepthState.visit_marked (s : DepthState) (venue : PayloadVenue) (kind : StreamKind)
    (expectedSymbol key : Bytes) (value : Value) :
    (s.visit venue kind expectedSymbol key value).marked = markedBy venue kind s.marked key := by
  unfold DepthState.visit markedBy
  cases depthField venue kind key with
  | none =>
      simp only
      split <;> rfl
  | some field =>
      simp only
      split
      · unfold DepthState.duplicateField
        simp only
        split <;> exact DepthState.record_marked s _ _ _
      · exact DepthState.readField_marked _ _ _ _ _

/-! ## Objects -/

theorem parseDepthLoop_eligible (venue : PayloadVenue) {kind : StreamKind} (hkind : kind ≠ .trade)
    (expectedSymbol : Bytes) (fields : Fields) {s : DepthState} (hok : s.Ok kind)
    (hs : auditEligible s.result.error = true) :
    auditEligible (parseDepthLoop venue kind expectedSymbol fields s).1.result.error = true ↔
      Traversed venue kind s.marked fields := by
  have hfatal : ∀ {e : SpotParseError}, isFatalDocumentError e = true →
      ¬auditEligible e = true := fun h => by
    rw [not_eligible_of_fatal h]
    exact Bool.false_ne_true
  cases fields with
  | done => exact ⟨fun _ => trivial, fun _ => hs⟩
  | error e => exact iff_of_false (hfatal (classifyJsonError_fatal e)) id
  | next key value rest =>
      rw [Traversed]
      cases key with
      | error e =>
          refine iff_of_false (hfatal (classifyJsonError_fatal e)) ?_
          rintro ⟨name, hname, -⟩
          cases hname
      | ok name =>
          rw [parseDepthLoop]
          obtain ⟨keys, ht⟩ := hok.tracked
          have hvisit := DepthState.visit_resolved venue hkind hs ht expectedSymbol name
            value
          have hmarked := s.visit_marked venue kind expectedSymbol name value
          have hok' := DepthState.visit_ok hok venue expectedSymbol name value
          generalize s.visit venue kind expectedSymbol name value = s' at *
          by_cases hpass : Passable venue kind s.marked name value
          · have heligible := hvisit.passes hpass
            have hgoes : s'.stopped = false := by
              rw [DepthState.stopped, not_fatal_of_eligible heligible, Bool.false_or,
                decide_eq_false_iff_not]
              intro h
              rw [h] at heligible
              cases heligible
            rw [hgoes, if_neg Bool.false_ne_true,
              parseDepthLoop_eligible venue hkind expectedSymbol rest hok' heligible, hmarked]
            constructor
            · exact fun h => ⟨name, rfl, hpass, h⟩
            · rintro ⟨other, hname, -, h⟩
              cases hname
              exact h
          · have hends := hvisit.ends hpass
            have hstops : s'.stopped = true := by
              rw [DepthState.stopped, hends, Bool.true_or]
            rw [hstops, if_pos rfl]
            refine iff_of_false (hfatal hends) ?_
            rintro ⟨other, hname, h, -⟩
            cases hname
            exact hpass h

theorem finishDepth_eligible {venue : PayloadVenue} {kind : StreamKind} {s : DepthState}
    (hs : s.result.error = .none) : auditEligible (finishDepth venue kind s).error = true := by
  have hnone : auditEligible s.result.error = true := by
    rw [hs]
    rfl
  unfold finishDepth
  simp only
  split
  · rfl
  · split
    · rfl
    · split
      · rfl
      · split
        · rfl
        · exact hnone

theorem parseDepth_eligible {venue : PayloadVenue} {kind : StreamKind} (hkind : kind ≠ .trade)
    (expectedSymbol : Bytes) (fields : Fields) {scratch : Scratch} (ht : scratch.Tracked []) :
    auditEligible (parseDepth fields venue kind expectedSymbol scratch).1.error = true ↔
      Traversed venue kind [] fields := by
  have hok : DepthState.Ok kind { result := { event := { kind := kind } }, scratch := scratch } :=
    ⟨⟨[], ht⟩, fun _ => ⟨DiffRange.nil _, DiffRange.nil _,
      fun _ => ⟨RefreshRange.nil _, RefreshRange.nil _⟩, by simp⟩⟩
  have hloop := parseDepthLoop_eligible venue hkind expectedSymbol fields hok rfl
  unfold parseDepth
  generalize hr : parseDepthLoop venue kind expectedSymbol fields
    { result := { event := { kind := kind } }, scratch := scratch } = outcome at *
  obtain ⟨s, complete⟩ := outcome
  simp only at hloop
  rw [← hloop]
  cases complete with
  | false => exact Iff.rfl
  | true =>
      simp only
      split
      · exact Iff.rfl
      · rename_i hs
        simp only [ne_eq, not_not] at hs
        refine iff_of_true (finishDepth_eligible hs) ?_
        rw [hs]
        rfl

theorem parseTradeLoop_eligible (venue : PayloadVenue) (marked : List DepthField)
    (expectedSymbol : Bytes) (fields : Fields) {r : SpotParseResult}
    (hr : auditEligible r.error = true) :
    auditEligible (parseTradeLoop expectedSymbol fields r).error = true ↔
      Traversed venue .trade marked fields := by
  have hfatal : ∀ {e : SpotParseError}, isFatalDocumentError e = true →
      ¬auditEligible e = true := fun h => by
    rw [not_eligible_of_fatal h]
    exact Bool.false_ne_true
  cases fields with
  | done => exact ⟨fun _ => trivial, fun _ => hr⟩
  | error e => exact iff_of_false (hfatal (classifyJsonError_fatal e)) id
  | next key value rest =>
      rw [Traversed]
      cases key with
      | error e =>
          refine iff_of_false (hfatal (classifyJsonError_fatal e)) ?_
          rintro ⟨name, hname, -⟩
          cases hname
      | ok name =>
          -- no field of a trade is read as a number
          have hpassable : Passable venue .trade marked name value ↔
              validateValue value rootFieldContainerDepth = none :=
            ⟨fun h => h.2 fun hreads => hreads.1 rfl,
              fun h => ⟨fun hreads => absurd rfl hreads.1, fun _ => h⟩⟩
          have hpasses : validateValue value rootFieldContainerDepth = none →
              ((∃ other, (Except.ok name : Except ErrorCode Bytes) = .ok other ∧
                Passable venue .trade marked other value ∧
                  Traversed venue .trade (markedBy venue .trade marked other) rest) ↔
                Traversed venue .trade (markedBy venue .trade marked name) rest) := by
            intro hvalid
            constructor
            · rintro ⟨other, hname, -, h⟩
              cases hname
              exact h
            · exact fun h => ⟨name, rfl, hpassable.mpr hvalid, h⟩
          have hends : validateValue value rootFieldContainerDepth ≠ none →
              ¬∃ other, (Except.ok name : Except ErrorCode Bytes) = .ok other ∧
                Passable venue .trade marked other value ∧
                  Traversed venue .trade (markedBy venue .trade marked other) rest := by
            rintro hinvalid ⟨other, hname, h, -⟩
            cases hname
            exact hinvalid (hpassable.mp h)
          have hgoes := fun (r' : SpotParseResult) (hr' : auditEligible r'.error = true)
              (hvalid : validateValue value rootFieldContainerDepth = none) =>
            (parseTradeLoop_eligible venue (markedBy venue .trade marked name) expectedSymbol rest
              hr').trans (hpasses hvalid).symm
          rw [parseTradeLoop]
          simp only
          split
          · cases hread : readJsonString value .eventType with
            | ok text => exact hgoes _ hr (readJsonString_ok hread)
            | error failure =>
                have hsettles := readJsonString_settles hread
                by_cases hvalid : validateValue value rootFieldContainerDepth = none
                · simp only [not_fatal_of_eligible (hsettles.valid hvalid), Bool.false_eq_true,
                    if_false]
                  exact hgoes _ hr hvalid
                · simp only [hsettles.fatal hvalid, if_true]
                  exact iff_of_false (hfatal (hsettles.fatal hvalid)) (hends hvalid)
          · split
            · cases hread : readJsonString value .symbol with
              | ok text => exact hgoes _ hr (readJsonString_ok hread)
              | error failure =>
                  have hsettles := readJsonString_settles hread
                  by_cases hvalid : validateValue value rootFieldContainerDepth = none
                  · simp only [not_fatal_of_eligible (hsettles.valid hvalid), Bool.false_eq_true,
                      if_false]
                    exact hgoes _ hr hvalid
                  · simp only [hsettles.fatal hvalid, if_true]
                    exact iff_of_false (hfatal (hsettles.fatal hvalid)) (hends hvalid)
            · cases hvalue : validateValue value rootFieldContainerDepth with
              | some e =>
                  exact iff_of_false (hfatal (classifyJsonError_fatal e))
                    (hends (by rw [hvalue]; exact Option.some_ne_none e))
              | none => exact hgoes _ hr hvalue

/-- Which payloads are parsed to an eligible code, by what the library answers. -/
theorem parsePayload_eligible (json : Library) {scratch : Scratch} (hscratch : scratch.table.Aged)
    (venue : PayloadVenue) (kind : StreamKind) (expectedSymbol payload : Bytes) :
    auditEligible (parsePayload json scratch venue kind expectedSymbol payload).1.error = true ↔
      payload.length ≤ maxPayloadBytes ∧ ∃ document, json.iterate payload = .ok document ∧
        document.type = .ok .object ∧ Traversed venue kind [] document.fields := by
  have hfatal : ∀ e, ¬auditEligible (classifyJsonError e) = true := fun e => by
    rw [not_eligible_of_fatal (classifyJsonError_fatal e)]
    exact Bool.false_ne_true
  have ht := Scratch.beginMessage_tracked hscratch
  unfold parsePayload
  simp only
  by_cases hsize : payload.length ≤ maxPayloadBytes
  · rw [if_neg (by omega)]
    cases hiterate : json.iterate payload with
    | error e =>
        refine iff_of_false (hfatal e) ?_
        rintro ⟨-, document, hdocument, -⟩
        cases hdocument
    | ok document =>
        simp only
        have hroot : (∃ d, (Except.ok document : Except ErrorCode Value) = .ok d ∧
            d.type = .ok .object ∧ Traversed venue kind [] d.fields) ↔
            document.type = .ok .object ∧ Traversed venue kind [] document.fields := by
          constructor
          · rintro ⟨d, hd, h⟩
            cases hd
            exact h
          · exact fun h => ⟨document, rfl, h⟩
        rw [hroot]
        cases htype : document.type with
        | error e =>
            refine iff_of_false (hfatal e) ?_
            rintro ⟨-, h, -⟩
            cases h
        | ok type =>
            by_cases hobject : type = .object
            · subst hobject
              simp only [hsize, true_and]
              by_cases hkind : kind = .trade
              · subst hkind
                rw [if_pos rfl]
                exact parseTradeLoop_eligible venue [] expectedSymbol document.fields rfl
              · rw [if_neg hkind]
                exact parseDepth_eligible hkind expectedSymbol document.fields ht
            · refine iff_of_false ?_ ?_
              · cases type with
                | object => exact absurd rfl hobject
                | _ =>
                    simp only
                    split
                    · exact Bool.false_ne_true
                    · exact hfatal _
              · rintro ⟨-, h, -⟩
                exact hobject (Except.ok.inj h)
  · rw [if_pos (by omega)]
    refine iff_of_false Bool.false_ne_true ?_
    rintro ⟨h, -⟩
    exact hsize h

end MarketCapture
