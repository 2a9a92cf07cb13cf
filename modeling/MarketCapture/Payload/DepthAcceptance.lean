import MarketCapture.Payload.LevelAcceptance

/-! # Which depth payloads are accepted

An object is accepted exactly when each required field occurs once with a value of
its type within the limits; the event then carries these values. Errors are
collected while the fields are read in their order, but whether there is one does
not depend on it.
-/

namespace MarketCapture

open Simdjson JsonText JsonValidation

/-! ## Fields and their values -/

/-- The typed fields of an object, in order, with their values. -/
def typedFields (venue : PayloadVenue) (kind : StreamKind) (fields : List Member) :
    List (DepthField × Node) :=
  fields.filterMap fun m => (depthField venue kind (keyOf m)).map fun f => (f, m.value)

/-- The event carries the value of a field, and it is an admissible one. -/
def Carries (kind : StreamKind) (expectedSymbol : Bytes) (d : SpotDepthEvent) :
    DepthField → Node → Prop
  | .eventType, node => stringContent node = some (ascii "depthUpdate")
  | .eventTime, node => idOf node = some d.eventTimeMs ∧ d.hasEventTime = true
  | .transactionTime, node => idOf node = some d.transactionTimeMs ∧ d.hasTransactionTime = true
  | .symbol, node => ∃ text, stringContent node = some text ∧
      equalsAsciiCaseInsensitive text expectedSymbol = true
  | .firstUpdateId, node => idOf node = some d.firstUpdateId
  | .finalUpdateId, node => idOf node = some d.finalUpdateId
  | .previousUpdateId, node => idOf node = some d.previousUpdateId ∧ d.hasPreviousUpdateId = true
  | .lastUpdateId, node => idOf node = some d.finalUpdateId ∧ d.firstUpdateId = d.finalUpdateId
  | .bids, node => LevelsOf .bid (decide (kind = .depth5)) node d.bids
  | .asks, node => LevelsOf .ask (decide (kind = .depth5)) node d.asks

/-- The parts of the event whose fields have not been read are as they were. -/
structure Untouched (seen : List DepthField) (d : SpotDepthEvent) : Prop where
  eventTime : .eventTime ∉ seen → d.eventTimeMs = 0 ∧ d.hasEventTime = false
  transactionTime : .transactionTime ∉ seen → d.transactionTimeMs = 0 ∧ d.hasTransactionTime = false
  previousUpdateId : .previousUpdateId ∉ seen → d.previousUpdateId = 0 ∧ d.hasPreviousUpdateId = false
  firstUpdateId : .firstUpdateId ∉ seen → .lastUpdateId ∉ seen → d.firstUpdateId = 0
  finalUpdateId : .finalUpdateId ∉ seen → .lastUpdateId ∉ seen → d.finalUpdateId = 0
  bids : .bids ∉ seen → d.bids = []
  asks : .asks ∉ seen → d.asks = []

/-- `lastUpdateId` and the two ids of an update stand in different shapes. -/
def Compatible (f g : DepthField) : Prop :=
  ¬(f = .lastUpdateId ∧ (g = .firstUpdateId ∨ g = .finalUpdateId)) ∧
    ¬(g = .lastUpdateId ∧ (f = .firstUpdateId ∨ f = .finalUpdateId))

theorem depthField_required {venue : PayloadVenue} {kind : StreamKind} (hkind : kind ≠ .trade)
    {key : Bytes} {f : DepthField} (h : depthField venue kind key = some f) :
    f ∈ requiredFields venue kind := by
  cases venue <;> cases kind <;>
    simp [depthField, usesDepthUpdateShape, requiredFields] at h hkind ⊢ <;>
    grind

theorem required_compatible {venue : PayloadVenue} {kind : StreamKind} {f g : DepthField}
    (hf : f ∈ requiredFields venue kind) (hg : g ∈ requiredFields venue kind) : Compatible f g := by
  cases venue <;> cases kind <;> simp [requiredFields] at hf hg <;>
    rcases hf with rfl | hf <;> simp [Compatible] <;> grind

/-! ## Reading one field into an event -/

/-- The event with an id or a time stored under its field. -/
def storeId (n : UInt64) (d : SpotDepthEvent) : DepthField → SpotDepthEvent
  | .eventTime => { d with eventTimeMs := n, hasEventTime := true }
  | .transactionTime => { d with transactionTimeMs := n, hasTransactionTime := true }
  | .firstUpdateId => { d with firstUpdateId := n }
  | .finalUpdateId => { d with finalUpdateId := n }
  | .previousUpdateId => { d with previousUpdateId := n, hasPreviousUpdateId := true }
  | .lastUpdateId => { d with finalUpdateId := n, firstUpdateId := n }
  | _ => d

def storeLevels (us : List LevelUpdate) (d : SpotDepthEvent) : BookSide → SpotDepthEvent
  | .bid => { d with bids := us }
  | .ask => { d with asks := us }

/-- The field of the levels of a side. -/
def levelsField : BookSide → DepthField
  | .bid => .bids
  | .ask => .asks

def sideLevels (d : SpotDepthEvent) : BookSide → List LevelUpdate
  | .bid => d.bids
  | .ask => d.asks

section Store

variable {kind : StreamKind} {expectedSymbol : Bytes} {d : SpotDepthEvent} {f g : DepthField}
  {node : Node}

theorem carries_storeId (n : UInt64) (hne : g ≠ f) (hcompatible : Compatible f g)
    (h : Carries kind expectedSymbol d g node) :
    Carries kind expectedSymbol (storeId n d f) g node := by
  cases f <;> cases g <;> simp_all [Carries, storeId, Compatible]

theorem carries_storeLevels (us : List LevelUpdate) {side : BookSide} (hne : g ≠ levelsField side)
    (h : Carries kind expectedSymbol d g node) :
    Carries kind expectedSymbol (storeLevels us d side) g node := by
  cases side <;> cases g <;> simp_all [Carries, storeLevels, levelsField]

theorem untouched_storeId {seen : List DepthField} (n : UInt64) (h : Untouched seen d) :
    Untouched (f :: seen) (storeId n d f) := by
  refine ⟨fun hs => ?_, fun hs => ?_, fun hs => ?_, fun hs hl => ?_, fun hs hl => ?_,
    fun hs => ?_, fun hs => ?_⟩
  all_goals simp only [List.mem_cons, not_or] at hs
  · have := h.eventTime hs.2
    cases f <;> simp_all [storeId]
  · have := h.transactionTime hs.2
    cases f <;> simp_all [storeId]
  · have := h.previousUpdateId hs.2
    cases f <;> simp_all [storeId]
  · simp only [List.mem_cons, not_or] at hl
    have := h.firstUpdateId hs.2 hl.2
    cases f <;> simp_all [storeId]
  · simp only [List.mem_cons, not_or] at hl
    have := h.finalUpdateId hs.2 hl.2
    cases f <;> simp_all [storeId]
  · have := h.bids hs.2
    cases f <;> simp_all [storeId]
  · have := h.asks hs.2
    cases f <;> simp_all [storeId]

theorem Untouched.mono {seen : List DepthField} (f : DepthField) (h : Untouched seen d) :
    Untouched (f :: seen) d := by
  refine ⟨fun hs => ?_, fun hs => ?_, fun hs => ?_, fun hs hl => ?_, fun hs hl => ?_,
    fun hs => ?_, fun hs => ?_⟩
  all_goals simp only [List.mem_cons, not_or] at hs
  · exact h.eventTime hs.2
  · exact h.transactionTime hs.2
  · exact h.previousUpdateId hs.2
  · simp only [List.mem_cons, not_or] at hl
    exact h.firstUpdateId hs.2 hl.2
  · simp only [List.mem_cons, not_or] at hl
    exact h.finalUpdateId hs.2 hl.2
  · exact h.bids hs.2
  · exact h.asks hs.2

theorem untouched_storeLevels {seen : List DepthField} (us : List LevelUpdate) {side : BookSide}
    (h : Untouched seen d) : Untouched (levelsField side :: seen) (storeLevels us d side) := by
  have hm := h.mono (levelsField side)
  cases side with
  | bid =>
      exact { eventTime := hm.eventTime, transactionTime := hm.transactionTime,
              previousUpdateId := hm.previousUpdateId, firstUpdateId := hm.firstUpdateId,
              finalUpdateId := hm.finalUpdateId, asks := hm.asks,
              bids := fun hs => absurd (List.mem_cons_self) hs }
  | ask =>
      exact { eventTime := hm.eventTime, transactionTime := hm.transactionTime,
              previousUpdateId := hm.previousUpdateId, firstUpdateId := hm.firstUpdateId,
              finalUpdateId := hm.finalUpdateId, bids := hm.bids,
              asks := fun hs => absurd (List.mem_cons_self) hs }

theorem sideLevels_storeId (n : UInt64) (side : BookSide) :
    sideLevels (storeId n d f) side = sideLevels d side := by
  cases f <;> cases side <;> rfl

theorem sideLevels_storeLevels (us : List LevelUpdate) (side : BookSide) :
    sideLevels (storeLevels us d side) side = us := by
  cases side <;> rfl

theorem sideLevels_storeLevels_other (us : List LevelUpdate) {side other : BookSide}
    (h : other ≠ side) : sideLevels (storeLevels us d side) other = sideLevels d other := by
  cases side <;> cases other <;> first | exact absurd rfl h | rfl

end Store

/-! ## The state of the field loop -/

/-- The state after these fields, without an error so far. -/
structure DepthState.Holds (venue : PayloadVenue) (kind : StreamKind) (expectedSymbol : Bytes)
    (done : List Member) (s : DepthState) : Prop where
  clean : s.result.error = .none
  event : s.result.event = { kind := kind, depth := s.result.event.depth }
  marked : s.marked = ((typedFields venue kind done).map Prod.fst).reverse
  nodup : ((typedFields venue kind done).map Prod.fst).Nodup
  carries : ∀ p ∈ typedFields venue kind done,
    Carries kind expectedSymbol s.result.event.depth p.1 p.2
  untouched : Untouched s.marked s.result.event.depth
  levels : s.scratch.encounteredLevels =
    s.result.event.depth.bids.length + s.result.event.depth.asks.length
  reads : ∃ keys, s.scratch.Reads keys ∧ ∀ k ∈ keys, levelsField k.2 ∈ s.marked

/-- The event carries the fields, each of which occurs once. -/
structure Describes (venue : PayloadVenue) (kind : StreamKind) (expectedSymbol : Bytes)
    (fields : List Member) (d : SpotDepthEvent) : Prop where
  nodup : ((typedFields venue kind fields).map Prod.fst).Nodup
  carries : ∀ p ∈ typedFields venue kind fields, Carries kind expectedSymbol d p.1 p.2
  capacity : d.bids.length + d.asks.length ≤ maxDepthUpdates

theorem typedFields_append (venue : PayloadVenue) (kind : StreamKind) (fields fields' : List Member) :
    typedFields venue kind (fields ++ fields') =
      typedFields venue kind fields ++ typedFields venue kind fields' := by
  simp [typedFields]

theorem typedFields_single {venue : PayloadVenue} {kind : StreamKind} {m : Member} {f : DepthField}
    (h : depthField venue kind (keyOf m) = some f) : typedFields venue kind [m] = [(f, m.value)] := by
  simp [typedFields, h]

theorem typedFields_required {venue : PayloadVenue} {kind : StreamKind} (hkind : kind ≠ .trade)
    {fields : List Member} {p : DepthField × Node} (h : p ∈ typedFields venue kind fields) :
    p.1 ∈ requiredFields venue kind := by
  obtain ⟨m, -, hm⟩ := List.mem_filterMap.mp h
  obtain ⟨f, hf, rfl⟩ := Option.map_eq_some_iff.mp hm
  exact depthField_required hkind hf

namespace DepthState

variable {venue : PayloadVenue} {kind : StreamKind} {expectedSymbol : Bytes} {done : List Member}
  {s : DepthState} {m : Member} {f : DepthField}

/-- No event carries the fields and this one within the limits. -/
def Refuses (venue : PayloadVenue) (kind : StreamKind) (expectedSymbol : Bytes)
    (done : List Member) (f : DepthField) (node : Node) : Prop :=
  ∀ d, (∀ p ∈ typedFields venue kind done, Carries kind expectedSymbol d p.1 p.2) →
    Carries kind expectedSymbol d f node → maxDepthUpdates < d.bids.length + d.asks.length

theorem mem_marked (hs : s.Holds venue kind expectedSymbol done) (g : DepthField) :
    g ∈ s.marked ↔ ∃ node, (g, node) ∈ typedFields venue kind done := by
  rw [hs.marked, List.mem_reverse, List.mem_map]
  constructor
  · rintro ⟨⟨_, node⟩, hp, rfl⟩
    exact ⟨node, hp⟩
  · rintro ⟨node, hp⟩
    exact ⟨(g, node), hp, rfl⟩

theorem Holds.extend (hs : s.Holds venue kind expectedSymbol done)
    (hf : depthField venue kind (keyOf m) = some f) (hnew : f ∉ s.marked) {s' : DepthState}
    (hclean : s'.result.error = .none)
    (hevent : s'.result.event = { kind := kind, depth := s'.result.event.depth })
    (hmarked : s'.marked = f :: s.marked)
    (hcarries : Carries kind expectedSymbol s'.result.event.depth f m.value)
    (hkeep : ∀ g ∈ s.marked, ∀ node, Carries kind expectedSymbol s.result.event.depth g node →
      Carries kind expectedSymbol s'.result.event.depth g node)
    (huntouched : Untouched (f :: s.marked) s'.result.event.depth)
    (hlevels : s'.scratch.encounteredLevels =
      s'.result.event.depth.bids.length + s'.result.event.depth.asks.length)
    (hreads : ∃ keys, s'.scratch.Reads keys ∧ ∀ k ∈ keys, levelsField k.2 ∈ f :: s.marked) :
    s'.Holds venue kind expectedSymbol (done ++ [m]) := by
  have htyped : typedFields venue kind (done ++ [m]) = typedFields venue kind done ++ [(f, m.value)] := by
    rw [typedFields_append, typedFields_single hf]
  refine ⟨hclean, hevent, ?_, ?_, ?_, ?_, hlevels, ?_⟩
  · rw [hmarked, hs.marked, htyped]
    simp
  · rw [htyped, List.map_append, List.nodup_append]
    refine ⟨hs.nodup, by simp, ?_⟩
    rintro a ha b hb rfl
    simp only [List.map_cons, List.map_nil, List.mem_singleton] at hb
    subst hb
    rw [hs.marked, List.mem_reverse] at hnew
    exact hnew ha
  · rw [htyped]
    intro p hp
    rcases List.mem_append.mp hp with hp | hp
    · exact hkeep p.1 ((mem_marked hs p.1).mpr ⟨p.2, hp⟩) p.2 (hs.carries p hp)
    · rw [List.mem_singleton.mp hp]
      exact hcarries
  · rw [hmarked]
    exact huntouched
  · rw [hmarked]
    exact hreads

theorem Holds.reads_mono (hs : s.Holds venue kind expectedSymbol done) (f : DepthField) :
    ∃ keys, s.scratch.Reads keys ∧ ∀ k ∈ keys, levelsField k.2 ∈ f :: s.marked := by
  obtain ⟨keys, hreads, hkeys⟩ := hs.reads
  exact ⟨keys, hreads, fun k hk => List.mem_cons_of_mem _ (hkeys k hk)⟩

/-- A field whose value does not go into the event. -/
theorem Holds.mark (hs : s.Holds venue kind expectedSymbol done)
    (hf : depthField venue kind (keyOf m) = some f) (hnew : f ∉ s.marked)
    (hcarries : Carries kind expectedSymbol s.result.event.depth f m.value) :
    ({ s with marked := f :: s.marked } : DepthState).Holds venue kind expectedSymbol (done ++ [m]) :=
  hs.extend hf hnew hs.clean hs.event rfl hcarries (fun _ _ _ h => h) (hs.untouched.mono f) hs.levels
    (hs.reads_mono f)

/-- The fields that hold an id or a time. -/
def IsId : DepthField → Prop
  | .eventType | .symbol | .bids | .asks => False
  | _ => True

theorem readField_id (s : DepthState) (kind : StreamKind) (expectedSymbol : Bytes) (value : Value)
    (hid : IsId f) :
    s.readField kind expectedSymbol f value = s.readId value f (fun n d => storeId n d f) := by
  cases f <;> first | rfl | exact hid.elim

theorem carries_id {d : SpotDepthEvent} {node : Node} {n : UInt64} (hid : IsId f)
    (hnode : idOf node = some n) : Carries kind expectedSymbol (storeId n d f) f node := by
  cases f <;> first | exact hid.elim | simp [Carries, storeId, hnode]

theorem idOf_of_carries {d : SpotDepthEvent} {node : Node} (hid : IsId f)
    (h : Carries kind expectedSymbol d f node) : ∃ n, idOf node = some n := by
  cases f <;> first | exact hid.elim | exact ⟨_, h⟩ | exact ⟨_, h.1⟩

theorem readId_outcome (hkind : kind ≠ .trade) (hs : s.Holds venue kind expectedSymbol done)
    (hf : depthField venue kind (keyOf m) = some f) (hnew : f ∉ s.marked) (hid : IsId f) :
    (({ s with marked := f :: s.marked } : DepthState).readField kind expectedSymbol f
      (valueOf m.value)).Holds venue kind expectedSymbol (done ++ [m]) ∨
    ((({ s with marked := f :: s.marked } : DepthState).readField kind expectedSymbol f
      (valueOf m.value)).result.error ≠ .none ∧
      Refuses venue kind expectedSymbol done f m.value) := by
  rw [readField_id _ _ _ _ hid, readId]
  cases hread : readJsonUint64 (valueOf m.value) f.spotField with
  | error failure =>
      refine .inr ⟨applyFailure_error_ne_none _ (readJsonUint64_error hread), ?_⟩
      intro d _ hcarries
      obtain ⟨n, hn⟩ := idOf_of_carries hid hcarries
      rw [(readJsonUint64_valueOf m.value f.spotField n).mpr hn] at hread
      cases hread
  | ok n =>
      have hn := (readJsonUint64_valueOf m.value f.spotField n).mp hread
      have hsides := fun side => sideLevels_storeId (d := s.result.event.depth) (f := f) n side
      refine .inl (hs.extend hf hnew hs.clean ?_ rfl (carries_id hid hn) ?_
        (untouched_storeId n hs.untouched) ?_ (hs.reads_mono f))
      · simp only [setDepth]
        rw [hs.event]
      · intro g hg node hcarries
        refine carries_storeId n (fun heq => hnew (heq ▸ hg)) ?_ hcarries
        obtain ⟨node', hmem⟩ := (mem_marked hs g).mp hg
        exact required_compatible (depthField_required hkind hf) (typedFields_required hkind hmem)
      · have hbids : (storeId n s.result.event.depth f).bids = s.result.event.depth.bids :=
          hsides .bid
        have hasks : (storeId n s.result.event.depth f).asks = s.result.event.depth.asks :=
          hsides .ask
        simp only [setDepth, hbids, hasks]
        exact hs.levels

theorem readEventType_outcome (hs : s.Holds venue kind expectedSymbol done)
    (hf : depthField venue kind (keyOf m) = some .eventType) (hnew : .eventType ∉ s.marked) :
    (({ s with marked := .eventType :: s.marked } : DepthState).readField kind expectedSymbol
      .eventType (valueOf m.value)).Holds venue kind expectedSymbol (done ++ [m]) ∨
    ((({ s with marked := .eventType :: s.marked } : DepthState).readField kind expectedSymbol
      .eventType (valueOf m.value)).result.error ≠ .none ∧
      Refuses venue kind expectedSymbol done .eventType m.value) := by
  simp only [readField]
  cases hread : readJsonString (valueOf m.value) .eventType with
  | error failure =>
      refine .inr ⟨applyFailure_error_ne_none _ (readJsonString_error hread), ?_⟩
      intro d _ hcarries
      rw [(readJsonString_valueOf m.value .eventType _).mpr hcarries] at hread
      cases hread
  | ok text =>
      have htext := (readJsonString_valueOf m.value .eventType text).mp hread
      by_cases hmatch : text = ascii "depthUpdate"
      · simp only [hmatch, ne_eq, not_true_eq_false, ↓reduceIte]
        exact .inl (hs.mark hf hnew (htext.trans (congrArg some hmatch)))
      · simp only [ne_eq, hmatch, not_false_eq_true, ↓reduceIte]
        refine .inr ⟨record_error_ne_none _ _ _ (by decide), ?_⟩
        intro d _ hcarries
        exact absurd (Option.some.inj (htext.symm.trans hcarries)) hmatch

theorem readSymbol_outcome (hs : s.Holds venue kind expectedSymbol done)
    (hf : depthField venue kind (keyOf m) = some .symbol) (hnew : .symbol ∉ s.marked) :
    (({ s with marked := .symbol :: s.marked } : DepthState).readField kind expectedSymbol
      .symbol (valueOf m.value)).Holds venue kind expectedSymbol (done ++ [m]) ∨
    ((({ s with marked := .symbol :: s.marked } : DepthState).readField kind expectedSymbol
      .symbol (valueOf m.value)).result.error ≠ .none ∧
      Refuses venue kind expectedSymbol done .symbol m.value) := by
  simp only [readField]
  cases hread : readJsonString (valueOf m.value) .symbol with
  | error failure =>
      refine .inr ⟨applyFailure_error_ne_none _ (readJsonString_error hread), ?_⟩
      rintro d _ ⟨text, htext, -⟩
      rw [(readJsonString_valueOf m.value .symbol text).mpr htext] at hread
      cases hread
  | ok text =>
      have htext := (readJsonString_valueOf m.value .symbol text).mp hread
      cases hmatch : equalsAsciiCaseInsensitive text expectedSymbol with
      | true =>
          simp only [hmatch, Bool.not_true, Bool.false_eq_true, ↓reduceIte]
          exact .inl (hs.mark hf hnew ⟨text, htext, hmatch⟩)
      | false =>
          simp only [hmatch, Bool.not_false, ↓reduceIte]
          refine .inr ⟨record_error_ne_none _ _ _ (by decide), ?_⟩
          rintro d _ ⟨text', htext', hmatch'⟩
          obtain rfl := Option.some.inj (htext.symm.trans htext')
          rw [hmatch] at hmatch'
          cases hmatch'

theorem carries_levels {d : SpotDepthEvent} {node : Node} (side : BookSide) :
    Carries kind expectedSymbol d (levelsField side) node ↔
      LevelsOf side (decide (kind = .depth5)) node (sideLevels d side) := by
  cases side <;> rfl

theorem readField_levels (s : DepthState) (kind : StreamKind) (expectedSymbol : Bytes)
    (side : BookSide) (value : Value) :
    s.readField kind expectedSymbol (levelsField side) value =
      s.readLevels value side (decide (kind = .depth5)) := by
  cases side <;> rfl

/-- The levels of the other side so far are no more than an event carrying them has. -/
theorem Holds.sideLevels_le (hs : s.Holds venue kind expectedSymbol done) {d : SpotDepthEvent}
    (hd : ∀ p ∈ typedFields venue kind done, Carries kind expectedSymbol d p.1 p.2) (side : BookSide) :
    (sideLevels s.result.event.depth side).length ≤ (sideLevels d side).length := by
  by_cases hseen : levelsField side ∈ s.marked
  · obtain ⟨node, hp⟩ := (mem_marked hs _).mp hseen
    have hmine := (carries_levels side).mp (hs.carries _ hp)
    have htheirs := (carries_levels side).mp (hd _ hp)
    rw [hmine.unique htheirs]
  · have hnil : sideLevels s.result.event.depth side = [] := by
      cases side with
      | bid => exact hs.untouched.bids hseen
      | ask => exact hs.untouched.asks hseen
    simp [hnil]

theorem levels_length (d : SpotDepthEvent) (side other : BookSide) (h : other ≠ side) :
    d.bids.length + d.asks.length = (sideLevels d other).length + (sideLevels d side).length := by
  cases side <;> cases other <;> first | exact absurd rfl h | rfl | exact Nat.add_comm _ _

theorem setLevels_eq (s : DepthState) (side : BookSide) (us : List LevelUpdate) :
    s.setLevels side us = s.setDepth (fun d => storeLevels us d side) := by
  cases side <;> rfl

theorem readLevels_outcome (side : BookSide) (hs : s.Holds venue kind expectedSymbol done)
    (hf : depthField venue kind (keyOf m) = some (levelsField side))
    (hnew : levelsField side ∉ s.marked) :
    (({ s with marked := levelsField side :: s.marked } : DepthState).readField kind expectedSymbol
      (levelsField side) (valueOf m.value)).Holds venue kind expectedSymbol (done ++ [m]) ∨
    ((({ s with marked := levelsField side :: s.marked } : DepthState).readField kind expectedSymbol
      (levelsField side) (valueOf m.value)).result.error ≠ .none ∧
      Refuses venue kind expectedSymbol done (levelsField side) m.value) := by
  obtain ⟨keys, hreads, hkeys⟩ := hs.reads
  have hother : ∀ k ∈ keys, k.2 ≠ side := by
    rintro k hk rfl
    exact hnew (hkeys k hk)
  have hempty : sideLevels s.result.event.depth side = [] := by
    cases side with
    | bid => exact hs.untouched.bids hnew
    | ask => exact hs.untouched.asks hnew
  obtain ⟨other, hne⟩ : ∃ other : BookSide, other ≠ side := by
    cases side with
    | bid => exact ⟨.ask, by decide⟩
    | ask => exact ⟨.bid, by decide⟩
  rw [readField_levels, readLevels]
  simp only
  rcases parseLevels_outcome (decide (kind = .depth5)) m.value hreads hother with
    ⟨us, hus, hclean, hrange, hcount, hscratch, hside⟩ | ⟨hnone, hfailed⟩
  · left
    simp only [hclean, Bool.false_eq_true, ↓reduceIte, hrange, setLevels_eq]
    refine hs.extend hf hnew hs.clean ?_ rfl ?_ ?_ (untouched_storeLevels us hs.untouched) ?_
      ⟨_, hscratch, ?_⟩
    · simp only [setDepth]
      rw [hs.event]
    · rw [carries_levels]
      simp only [setDepth, sideLevels_storeLevels]
      exact hus
    · intro g hg node hcarries
      exact carries_storeLevels us (fun heq => hnew (heq ▸ hg)) hcarries
    · have hbefore := hs.levels
      rw [levels_length _ side other hne, hempty] at hbefore
      simp only [List.length_nil, Nat.add_zero] at hbefore
      rw [levels_length _ side other hne]
      simp only [setDepth, sideLevels_storeLevels, sideLevels_storeLevels_other us hne]
      rw [hcount, hbefore]
    · intro k hk
      rcases List.mem_append.mp hk with hk | hk
      · obtain ⟨u, hu, rfl⟩ := List.mem_map.mp hk
        simp [LevelUpdate.key, hside u (List.mem_reverse.mp hu)]
      · exact List.mem_cons_of_mem _ (hkeys k hk)
  · right
    simp only [hfailed, ↓reduceIte]
    refine ⟨?_, ?_⟩
    · have hfailure := of_decide_eq_true hfailed
      split
      · exact hfailure
      · exact record_error_ne_none _ _ _ hfailure
    · intro d hd hcarries
      have hlevels := hnone _ ((carries_levels side).mp hcarries)
      have hle := hs.sideLevels_le hd other
      rw [levels_length d side other hne]
      rw [hs.levels, levels_length _ side other hne, hempty] at hlevels
      simp only [List.length_nil, Nat.add_zero] at hlevels
      omega

/-- A typed field that has not been seen before. -/
theorem readField_outcome (hkind : kind ≠ .trade) (hs : s.Holds venue kind expectedSymbol done)
    (hf : depthField venue kind (keyOf m) = some f) (hnew : f ∉ s.marked) :
    (({ s with marked := f :: s.marked } : DepthState).readField kind expectedSymbol f
      (valueOf m.value)).Holds venue kind expectedSymbol (done ++ [m]) ∨
    ((({ s with marked := f :: s.marked } : DepthState).readField kind expectedSymbol f
      (valueOf m.value)).result.error ≠ .none ∧
      Refuses venue kind expectedSymbol done f m.value) := by
  cases f with
  | eventType => exact readEventType_outcome hs hf hnew
  | symbol => exact readSymbol_outcome hs hf hnew
  | bids => exact readLevels_outcome .bid hs hf hnew
  | asks => exact readLevels_outcome .ask hs hf hnew
  | _ => exact readId_outcome hkind hs hf hnew trivial

/-! ## Errors stay -/

theorem record_failed (s : DepthState) (e : SpotParseError) (field : SpotField)
    (decimalError : DecimalParseError) (h : s.result.error ≠ .none) :
    (s.record e field decimalError).result.error ≠ .none := by
  rw [record, if_neg h]
  exact h

theorem readId_failed (value : Value) (field : DepthField)
    (store : UInt64 → SpotDepthEvent → SpotDepthEvent) (h : s.result.error ≠ .none) :
    (s.readId value field store).result.error ≠ .none := by
  unfold readId
  split
  · rename_i hread
    exact applyFailure_error_ne_none s (readJsonUint64_error hread)
  · exact h

theorem readLevels_failed (value : Value) (side : BookSide) (isPartial : Bool)
    (h : s.result.error ≠ .none) : (s.readLevels value side isPartial).result.error ≠ .none := by
  unfold readLevels
  simp only
  split
  · rename_i hfailed
    have hfailure := of_decide_eq_true hfailed
    split
    · exact hfailure
    · exact record_error_ne_none _ _ _ hfailure
  · exact h

theorem readField_failed (kind : StreamKind) (expectedSymbol : Bytes) (f : DepthField) (value : Value)
    (h : s.result.error ≠ .none) :
    (s.readField kind expectedSymbol f value).result.error ≠ .none := by
  unfold readField
  split
  · split
    · rename_i hread
      exact applyFailure_error_ne_none s (readJsonString_error hread)
    · split
      · exact record_failed _ _ _ _ h
      · exact h
  · exact readId_failed _ _ _ h
  · exact readId_failed _ _ _ h
  · split
    · rename_i hread
      exact applyFailure_error_ne_none s (readJsonString_error hread)
    · split
      · exact record_failed _ _ _ _ h
      · exact h
  · exact readId_failed _ _ _ h
  · exact readId_failed _ _ _ h
  · exact readId_failed _ _ _ h
  · exact readId_failed _ _ _ h
  · exact readLevels_failed _ _ _ h
  · exact readLevels_failed _ _ _ h

theorem duplicateField_error (s : DepthState) (f : DepthField) (value : Value) :
    (s.duplicateField f value).result.error ≠ .none := by
  unfold duplicateField
  simp only
  split
  · exact classifyJsonError_ne_none _
  · exact record_error_ne_none _ _ _ (by decide)

theorem visit_failed (venue : PayloadVenue) (kind : StreamKind) (expectedSymbol key : Bytes)
    (value : Value) (h : s.result.error ≠ .none) :
    (s.visit venue kind expectedSymbol key value).result.error ≠ .none := by
  unfold visit
  split
  · split
    · exact duplicateField_error _ _ _
    · exact readField_failed _ _ _ _ h
  · split
    · exact classifyJsonError_ne_none _
    · exact h

/-! ## One field -/

/-- A field is either read, or no event carries it with the fields around it. -/
theorem visit_outcome (hkind : kind ≠ .trade) (hs : s.Holds venue kind expectedSymbol done)
    (hvalid : validateValue (valueOf m.value) rootFieldContainerDepth = none) :
    (s.visit venue kind expectedSymbol (keyOf m) (valueOf m.value)).Holds venue kind expectedSymbol
      (done ++ [m]) ∨
    ((s.visit venue kind expectedSymbol (keyOf m) (valueOf m.value)).result.error ≠ .none ∧
      ∀ rest d, ¬Describes venue kind expectedSymbol (done ++ m :: rest) d) := by
  cases hf : depthField venue kind (keyOf m) with
  | none =>
      have htyped : typedFields venue kind (done ++ [m]) = typedFields venue kind done := by
        simp [typedFields, hf]
      simp only [visit, hf, hvalid]
      left
      exact ⟨hs.clean, hs.event, by rw [htyped]; exact hs.marked, by rw [htyped]; exact hs.nodup,
        by rw [htyped]; exact hs.carries, hs.untouched, hs.levels, hs.reads⟩
  | some f =>
      have htyped : ∀ rest, typedFields venue kind (done ++ m :: rest) =
          typedFields venue kind done ++ (f, m.value) :: typedFields venue kind rest := by
        intro rest
        rw [← List.singleton_append, typedFields_append, typedFields_append, typedFields_single hf,
          List.singleton_append]
      simp only [visit, hf]
      by_cases hseen : f ∈ s.marked
      · rw [if_pos hseen]
        refine .inr ⟨duplicateField_error _ _ _, ?_⟩
        intro rest d hd
        have hnodup := hd.nodup
        rw [htyped, List.map_append, List.nodup_append] at hnodup
        rw [hs.marked, List.mem_reverse] at hseen
        exact hnodup.2.2 f hseen f (by simp) rfl
      · rw [if_neg hseen]
        rcases readField_outcome hkind hs hf hseen with hholds | ⟨herror, hrefuses⟩
        · exact .inl hholds
        · refine .inr ⟨herror, ?_⟩
          intro rest d hd
          have hcarries := hd.carries
          rw [htyped] at hcarries
          have hover := hrefuses d (fun p hp => hcarries p (List.mem_append_left _ hp))
            (hcarries (f, m.value) (by simp))
          exact absurd hd.capacity (by omega)

end DepthState

/-! ## The field loop -/

theorem parseDepthLoop_failed (venue : PayloadVenue) (kind : StreamKind) (expectedSymbol : Bytes)
    (fields : Fields) {s : DepthState} (h : s.result.error ≠ .none) :
    (parseDepthLoop venue kind expectedSymbol fields s).1.result.error ≠ .none := by
  match fields with
  | .done => exact h
  | .error e => exact classifyJsonError_ne_none _
  | .next key value rest =>
      unfold parseDepthLoop
      split
      · exact classifyJsonError_ne_none _
      · simp only
        split
        · exact DepthState.visit_failed _ _ _ _ _ h
        · exact parseDepthLoop_failed venue kind expectedSymbol rest
            (DepthState.visit_failed _ _ _ _ _ h)

theorem parseDepthLoop_outcome {venue : PayloadVenue} {kind : StreamKind} {expectedSymbol : Bytes}
    (hkind : kind ≠ .trade) (fields : List Member) {done : List Member} {s : DepthState}
    (hs : s.Holds venue kind expectedSymbol done) (hwell : ∀ m ∈ fields, m.WellFormed)
    (hvalid : ∀ m ∈ fields, validateValue (valueOf m.value) rootFieldContainerDepth = none) :
    (∃ s', parseDepthLoop venue kind expectedSymbol (fieldsOf (Members.ofList fields)) s = (s', true) ∧
      s'.Holds venue kind expectedSymbol (done ++ fields)) ∨
    ((parseDepthLoop venue kind expectedSymbol (fieldsOf (Members.ofList fields)) s).1.result.error ≠
        .none ∧
      ∀ d, ¬Describes venue kind expectedSymbol (done ++ fields) d) := by
  induction fields generalizing done s with
  | nil => exact .inl ⟨s, rfl, by simpa using hs⟩
  | cons m rest ih =>
      have hkey := decodeString_key (hwell m List.mem_cons_self)
      simp only [Members.ofList, fieldsOf, stringAnswer, hkey, parseDepthLoop]
      rcases DepthState.visit_outcome hkind hs (hvalid m List.mem_cons_self) with
        hholds | ⟨herror, hnone⟩
      · have hgoes : (s.visit venue kind expectedSymbol (keyOf m) (valueOf m.value)).stopped = false := by
          simp [DepthState.stopped, hholds.clean, isFatalDocumentError]
        rw [if_neg (by simp [hgoes])]
        have hrest := ih hholds (fun m' hm' => hwell m' (List.mem_cons_of_mem _ hm'))
          (fun m' hm' => hvalid m' (List.mem_cons_of_mem _ hm'))
        simpa using hrest
      · refine .inr ⟨?_, hnone rest⟩
        split
        · exact herror
        · exact parseDepthLoop_failed _ _ _ _ herror

/-! ## Accepted objects -/

/-- The key of a field in this venue and kind. -/
def depthKey (venue : PayloadVenue) (kind : StreamKind) : DepthField → Bytes
  | .eventType => ascii "e"
  | .eventTime => ascii "E"
  | .transactionTime => ascii "T"
  | .symbol => ascii "s"
  | .firstUpdateId => ascii "U"
  | .finalUpdateId => ascii "u"
  | .previousUpdateId => ascii "pu"
  | .lastUpdateId => ascii "lastUpdateId"
  | .bids => if usesDepthUpdateShape venue kind then ascii "b" else ascii "bids"
  | .asks => if usesDepthUpdateShape venue kind then ascii "a" else ascii "asks"

theorem depthField_eq_iff {venue : PayloadVenue} {kind : StreamKind} (hkind : kind ≠ .trade)
    {f : DepthField} (hf : f ∈ requiredFields venue kind) (key : Bytes) :
    depthField venue kind key = some f ↔ key = depthKey venue kind f := by
  constructor
  · intro h
    cases venue <;> cases kind <;>
      simp [depthField, usesDepthUpdateShape, depthKey] at h hkind ⊢ <;> grind
  · rintro rfl
    cases venue <;> cases kind <;> cases f <;>
      first | exact absurd rfl hkind | decide +kernel | simp [requiredFields] at hf

/-- The values of a typed field, in order. -/
def fieldValues (venue : PayloadVenue) (kind : StreamKind) (f : DepthField) (fields : List Member) :
    List Node :=
  ((typedFields venue kind fields).filter fun p => decide (p.1 = f)).map Prod.snd

/-- What a depth object has to be, and the event it stands for. -/
structure AcceptedDepth (venue : PayloadVenue) (kind : StreamKind) (expectedSymbol : Bytes)
    (fields : List Member) (d : SpotDepthEvent) : Prop where
  once : ∀ f ∈ requiredFields venue kind, ∃ node,
    valuesOf (depthKey venue kind f) fields = [node] ∧ Carries kind expectedSymbol d f node
  untouched : Untouched (requiredFields venue kind) d
  capacity : d.bids.length + d.asks.length ≤ maxDepthUpdates
  range : usesDepthUpdateShape venue kind = true → d.firstUpdateId ≤ d.finalUpdateId
  previous : venue = .usdm → d.previousUpdateId < d.finalUpdateId
  uncrossed : kind = .depth5 → ∀ b ∈ d.bids.head?, ∀ a ∈ d.asks.head?, b.price < a.price

theorem filter_fst_of_nodup {l : List (DepthField × Node)} (h : (l.map Prod.fst).Nodup) {f : DepthField}
    {node : Node} (hmem : (f, node) ∈ l) :
    (l.filter fun p => decide (p.1 = f)).map Prod.snd = [node] := by
  induction l with
  | nil => cases hmem
  | cons p rest ih =>
      simp only [List.map_cons, List.nodup_cons] at h
      rcases List.mem_cons.mp hmem with rfl | hmem
      · have hrest : rest.filter (fun p => decide (p.1 = f)) = [] := by
          rw [List.filter_eq_nil_iff]
          intro q hq hqf
          simp only [decide_eq_true_eq] at hqf
          exact h.1 (List.mem_map.mpr ⟨q, hq, hqf⟩)
        simp [hrest]
      · have hne : p.1 ≠ f := by
          rintro rfl
          exact h.1 (List.mem_map.mpr ⟨(p.1, node), hmem, rfl⟩)
        simpa [List.filter_cons, hne] using ih h.2 hmem

theorem fieldValues_length (venue : PayloadVenue) (kind : StreamKind) (f : DepthField)
    (fields : List Member) :
    (fieldValues venue kind f fields).length =
      ((typedFields venue kind fields).map Prod.fst).count f := by
  rw [fieldValues, List.length_map, List.count, List.countP_map, List.countP_eq_length_filter]
  congr 1

theorem valuesOf_depthKey {venue : PayloadVenue} {kind : StreamKind} (hkind : kind ≠ .trade)
    {f : DepthField} (hf : f ∈ requiredFields venue kind) {fields : List Member}
    (hwell : ∀ m ∈ fields, m.WellFormed) :
    valuesOf (depthKey venue kind f) fields = fieldValues venue kind f fields := by
  induction fields with
  | nil => rfl
  | cons m rest ih =>
      have hrest := ih (fun m' hm' => hwell m' (List.mem_cons_of_mem _ hm'))
      have hkey := decodeString_key (hwell m List.mem_cons_self)
      have hiff := depthField_eq_iff hkind hf (keyOf m)
      by_cases heq : depthField venue kind (keyOf m) = some f
      · have hname : decodeString m.key = some (depthKey venue kind f) :=
          hkey.trans (congrArg some (hiff.mp heq))
        simp only [valuesOf, fieldValues, typedFields] at hrest ⊢
        simp [heq, hname, hrest]
      · have hname : decodeString m.key ≠ some (depthKey venue kind f) := by
          rw [hkey]
          exact fun h => heq (hiff.mpr (Option.some.inj h))
        simp only [valuesOf, fieldValues, typedFields] at hrest ⊢
        cases hfield : depthField venue kind (keyOf m) with
        | none => simp [hfield, hname, hrest]
        | some g =>
            have hne : g ≠ f := fun h => heq (hfield.trans (congrArg some h))
            simp [hfield, hname, hne, hrest]

section Accepted

variable {venue : PayloadVenue} {kind : StreamKind} {expectedSymbol : Bytes} {fields : List Member}
  {d d' : SpotDepthEvent}

theorem AcceptedDepth.describes (hkind : kind ≠ .trade) (hwell : ∀ m ∈ fields, m.WellFormed)
    (h : AcceptedDepth venue kind expectedSymbol fields d) :
    Describes venue kind expectedSymbol fields d where
  nodup := by
    rw [List.nodup_iff_count_le_one]
    intro f
    rw [← fieldValues_length]
    by_cases hf : f ∈ requiredFields venue kind
    · obtain ⟨node, hnode, -⟩ := h.once f hf
      rw [← valuesOf_depthKey hkind hf hwell, hnode]
      exact Nat.le_refl 1
    · rw [fieldValues_length, List.count_eq_zero_of_not_mem]
      · omega
      · intro hmem
        obtain ⟨p, hp, rfl⟩ := List.mem_map.mp hmem
        exact hf (typedFields_required hkind hp)
  carries := by
    intro p hp
    obtain ⟨node, hnode, hcarries⟩ := h.once p.1 (typedFields_required hkind hp)
    have hmem : p.2 ∈ fieldValues venue kind p.1 fields :=
      List.mem_map.mpr ⟨p, List.mem_filter.mpr ⟨hp, by simp⟩, rfl⟩
    rw [← valuesOf_depthKey hkind (typedFields_required hkind hp) hwell, hnode,
      List.mem_singleton] at hmem
    rwa [hmem]
  capacity := h.capacity

theorem Untouched.of_subset {seen seen' : List DepthField} (h : Untouched seen d)
    (hsub : ∀ f ∈ seen, f ∈ seen') : Untouched seen' d where
  eventTime := fun hs => h.eventTime (fun hm => hs (hsub _ hm))
  transactionTime := fun hs => h.transactionTime (fun hm => hs (hsub _ hm))
  previousUpdateId := fun hs => h.previousUpdateId (fun hm => hs (hsub _ hm))
  firstUpdateId := fun hs hl => h.firstUpdateId (fun hm => hs (hsub _ hm)) (fun hm => hl (hsub _ hm))
  finalUpdateId := fun hs hl => h.finalUpdateId (fun hm => hs (hsub _ hm)) (fun hm => hl (hsub _ hm))
  bids := fun hs => h.bids (fun hm => hs (hsub _ hm))
  asks := fun hs => h.asks (fun hm => hs (hsub _ hm))

/-- An event is determined by the fields it carries and the ones it does not. -/
theorem event_unique {seen : List DepthField}
    (h : ∀ f ∈ seen, ∃ node, Carries kind expectedSymbol d f node ∧ Carries kind expectedSymbol d' f node)
    (hu : Untouched seen d) (hu' : Untouched seen d') : d' = d := by
  have heventTime : d'.eventTimeMs = d.eventTimeMs ∧ d'.hasEventTime = d.hasEventTime := by
    by_cases hs : .eventTime ∈ seen
    · obtain ⟨node, hd, hd'⟩ := h _ hs
      exact ⟨Option.some.inj (hd'.1.symm.trans hd.1), hd'.2.trans hd.2.symm⟩
    · exact ⟨(hu'.eventTime hs).1.trans (hu.eventTime hs).1.symm,
        (hu'.eventTime hs).2.trans (hu.eventTime hs).2.symm⟩
  have htransactionTime : d'.transactionTimeMs = d.transactionTimeMs ∧
      d'.hasTransactionTime = d.hasTransactionTime := by
    by_cases hs : .transactionTime ∈ seen
    · obtain ⟨node, hd, hd'⟩ := h _ hs
      exact ⟨Option.some.inj (hd'.1.symm.trans hd.1), hd'.2.trans hd.2.symm⟩
    · exact ⟨(hu'.transactionTime hs).1.trans (hu.transactionTime hs).1.symm,
        (hu'.transactionTime hs).2.trans (hu.transactionTime hs).2.symm⟩
  have hprevious : d'.previousUpdateId = d.previousUpdateId ∧
      d'.hasPreviousUpdateId = d.hasPreviousUpdateId := by
    by_cases hs : .previousUpdateId ∈ seen
    · obtain ⟨node, hd, hd'⟩ := h _ hs
      exact ⟨Option.some.inj (hd'.1.symm.trans hd.1), hd'.2.trans hd.2.symm⟩
    · exact ⟨(hu'.previousUpdateId hs).1.trans (hu.previousUpdateId hs).1.symm,
        (hu'.previousUpdateId hs).2.trans (hu.previousUpdateId hs).2.symm⟩
  have hids : d'.firstUpdateId = d.firstUpdateId ∧ d'.finalUpdateId = d.finalUpdateId := by
    by_cases hlast : .lastUpdateId ∈ seen
    · obtain ⟨node, hd, hd'⟩ := h _ hlast
      have hfinal : d'.finalUpdateId = d.finalUpdateId := Option.some.inj (hd'.1.symm.trans hd.1)
      exact ⟨hd'.2.trans (hfinal.trans hd.2.symm), hfinal⟩
    · constructor
      · by_cases hs : .firstUpdateId ∈ seen
        · obtain ⟨node, hd, hd'⟩ := h _ hs
          exact Option.some.inj (hd'.symm.trans hd)
        · exact (hu'.firstUpdateId hs hlast).trans (hu.firstUpdateId hs hlast).symm
      · by_cases hs : .finalUpdateId ∈ seen
        · obtain ⟨node, hd, hd'⟩ := h _ hs
          exact Option.some.inj (hd'.symm.trans hd)
        · exact (hu'.finalUpdateId hs hlast).trans (hu.finalUpdateId hs hlast).symm
  have hbids : d'.bids = d.bids := by
    by_cases hs : .bids ∈ seen
    · obtain ⟨node, hd, hd'⟩ := h _ hs
      exact LevelsOf.unique hd hd'
    · exact (hu'.bids hs).trans (hu.bids hs).symm
  have hasks : d'.asks = d.asks := by
    by_cases hs : .asks ∈ seen
    · obtain ⟨node, hd, hd'⟩ := h _ hs
      exact LevelsOf.unique hd hd'
    · exact (hu'.asks hs).trans (hu.asks hs).symm
  cases d
  cases d'
  simp_all

/-- At most one event is accepted for an object. -/
theorem AcceptedDepth.unique (h : AcceptedDepth venue kind expectedSymbol fields d)
    (h' : AcceptedDepth venue kind expectedSymbol fields d') : d' = d := by
  have hboth : ∀ f ∈ requiredFields venue kind, ∃ node, Carries kind expectedSymbol d f node ∧
      Carries kind expectedSymbol d' f node := by
    intro f hf
    obtain ⟨node, hnode, hcarries⟩ := h.once f hf
    obtain ⟨node', hnode', hcarries'⟩ := h'.once f hf
    rw [hnode] at hnode'
    obtain rfl : node = node' := by simpa using hnode'
    exact ⟨node, hcarries, hcarries'⟩
  exact event_unique hboth h.untouched h'.untouched

/-- The order of the fields does not matter. -/
theorem AcceptedDepth.perm {fields' : List Member} (hperm : fields'.Perm fields)
    (h : AcceptedDepth venue kind expectedSymbol fields d) :
    AcceptedDepth venue kind expectedSymbol fields' d where
  once := by
    intro f hf
    obtain ⟨node, hnode, hcarries⟩ := h.once f hf
    refine ⟨node, ?_, hcarries⟩
    have hvalues : (valuesOf (depthKey venue kind f) fields').Perm
        (valuesOf (depthKey venue kind f) fields) := (hperm.filter _).map _
    rw [hnode] at hvalues
    exact List.perm_singleton.mp hvalues
  untouched := h.untouched
  capacity := h.capacity
  range := h.range
  previous := h.previous
  uncrossed := h.uncrossed

end Accepted

/-! ## The checks at the end -/

section Finish

variable {venue : PayloadVenue} {kind : StreamKind} {expectedSymbol : Bytes} {fields : List Member}
  {s : DepthState} {d : SpotDepthEvent}

/-- The last checks pass on an event with all fields, ordered ids and uncrossed sides. -/
theorem finishDepth_error_iff (hclean : s.result.error = .none) :
    (finishDepth venue kind s).error = .none ↔
      (∀ f ∈ requiredFields venue kind, f ∈ s.marked) ∧
      (usesDepthUpdateShape venue kind = true →
        s.result.event.depth.firstUpdateId ≤ s.result.event.depth.finalUpdateId) ∧
      (venue = .usdm → s.result.event.depth.previousUpdateId < s.result.event.depth.finalUpdateId) ∧
      (kind = .depth5 → ∀ b ∈ s.result.event.depth.bids.head?,
        ∀ a ∈ s.result.event.depth.asks.head?, b.price < a.price) := by
  unfold finishDepth
  simp only
  split
  · rename_i missing hmissing
    have hnot := List.find?_some hmissing
    have hmem := List.mem_of_find?_eq_some hmissing
    simp only [decide_eq_true_eq] at hnot
    simp only [reduceCtorEq, false_iff]
    exact fun h => hnot (h.1 missing hmem)
  · rename_i hfound
    have hall : ∀ f ∈ requiredFields venue kind, f ∈ s.marked := by
      simpa using hfound
    split
    · rename_i hrange
      simp only [Bool.and_eq_true, decide_eq_true_eq] at hrange
      simp only [reduceCtorEq, false_iff]
      exact fun h => absurd (h.2.1 hrange.1) (UInt64.not_le.mpr hrange.2)
    · rename_i hrange
      split
      · rename_i hprevious
        simp only [Bool.and_eq_true, decide_eq_true_eq] at hprevious
        simp only [reduceCtorEq, false_iff]
        exact fun h => absurd (h.2.2.1 hprevious.1) (UInt64.not_lt.mpr hprevious.2)
      · rename_i hprevious
        simp only [Bool.and_eq_true, decide_eq_true_eq, not_and, gt_iff_lt, ge_iff_le,
          UInt64.not_lt, UInt64.not_le] at hrange hprevious
        split
        · rename_i hcrossed
          simp only [Bool.and_eq_true, decide_eq_true_eq, Option.any_eq_true] at hcrossed
          obtain ⟨hkind, b, hb, a, ha, hba⟩ := hcrossed
          simp only [reduceCtorEq, false_iff]
          exact fun h => absurd (h.2.2.2 hkind b hb a ha) (Int.not_lt.mpr hba)
        · rename_i hcrossed
          simp only [Bool.and_eq_true, decide_eq_true_eq, Option.any_eq_true, not_and] at hcrossed
          refine ⟨fun _ => ⟨hall, hrange, hprevious, ?_⟩, fun _ => hclean⟩
          intro hkind b hb a ha
          by_contra hle
          exact hcrossed hkind ⟨b, hb, a, ha, Int.not_lt.mp hle⟩

theorem DepthState.Holds.describes (hs : s.Holds venue kind expectedSymbol fields) :
    Describes venue kind expectedSymbol fields s.result.event.depth := by
  obtain ⟨keys, hreads, -⟩ := hs.reads
  refine ⟨hs.nodup, hs.carries, ?_⟩
  rw [← hs.levels]
  exact hreads.capacity

/-- The state at the end against an event of the object. -/
theorem DepthState.Holds.event_eq (hkind : kind ≠ .trade)
    (hwell : ∀ m ∈ fields, m.WellFormed) (hs : s.Holds venue kind expectedSymbol fields)
    (hd : AcceptedDepth venue kind expectedSymbol fields d) :
    (∀ f ∈ requiredFields venue kind, f ∈ s.marked) ∧ s.result.event.depth = d := by
  have hfield : ∀ f ∈ requiredFields venue kind, ∃ node, (f, node) ∈ typedFields venue kind fields ∧
      Carries kind expectedSymbol d f node := by
    intro f hf
    obtain ⟨node, hnode, hcarries⟩ := hd.once f hf
    rw [valuesOf_depthKey hkind hf hwell] at hnode
    have hmem : node ∈ fieldValues venue kind f fields := by simp [hnode]
    obtain ⟨⟨g, node'⟩, hp, rfl⟩ := List.mem_map.mp hmem
    obtain ⟨htyped, hg⟩ := List.mem_filter.mp hp
    obtain rfl : g = f := of_decide_eq_true hg
    exact ⟨node', htyped, hcarries⟩
  constructor
  · intro f hf
    obtain ⟨node, hp, -⟩ := hfield f hf
    exact (mem_marked hs f).mpr ⟨node, hp⟩
  · have hboth : ∀ f ∈ requiredFields venue kind, ∃ node, Carries kind expectedSymbol d f node ∧
        Carries kind expectedSymbol s.result.event.depth f node := by
      intro f hf
      obtain ⟨node, hp, hcarries⟩ := hfield f hf
      exact ⟨node, hcarries, hs.carries _ hp⟩
    refine event_unique hboth hd.untouched (hs.untouched.of_subset ?_)
    intro f hf
    obtain ⟨node, hp⟩ := (mem_marked hs f).mp hf
    exact typedFields_required hkind hp

/-- The event of the state is accepted when the last checks pass. -/
theorem DepthState.Holds.accepted (hkind : kind ≠ .trade)
    (hwell : ∀ m ∈ fields, m.WellFormed) (hs : s.Holds venue kind expectedSymbol fields)
    (herror : (finishDepth venue kind s).error = .none) :
    AcceptedDepth venue kind expectedSymbol fields s.result.event.depth := by
  obtain ⟨hall, hrange, hprevious, huncrossed⟩ := (finishDepth_error_iff hs.clean).mp herror
  refine ⟨?_, ?_, hs.describes.capacity, hrange, hprevious, huncrossed⟩
  · intro f hf
    obtain ⟨node, hnode⟩ := (mem_marked hs f).mp (hall f hf)
    refine ⟨node, ?_, hs.carries _ hnode⟩
    rw [valuesOf_depthKey hkind hf hwell]
    exact filter_fst_of_nodup hs.nodup hnode
  · refine hs.untouched.of_subset ?_
    intro f hf
    obtain ⟨node, hnode⟩ := (mem_marked hs f).mp hf
    exact typedFields_required hkind hnode

end Finish

/-! ## Whole payloads -/

section Payloads

variable {venue : PayloadVenue} {kind : StreamKind} {fields : List Member}

theorem DepthState.start_holds (venue : PayloadVenue) (kind : StreamKind) (expectedSymbol : Bytes)
    {scratch : Scratch} (haged : scratch.table.Aged) :
    ({ result := { event := { kind := kind } }, scratch := scratch.beginMessage } : DepthState).Holds
      venue kind expectedSymbol [] where
  clean := rfl
  event := rfl
  marked := rfl
  nodup := List.nodup_nil
  carries := by simp [typedFields]
  untouched := ⟨fun _ => ⟨rfl, rfl⟩, fun _ => ⟨rfl, rfl⟩, fun _ => ⟨rfl, rfl⟩, fun _ _ => rfl,
    fun _ _ => rfl, fun _ => rfl, fun _ => rfl⟩
  levels := rfl
  reads := ⟨[], ⟨DuplicateTable.beginMessage_tracks haged, Nat.le_refl 0, Nat.zero_le _⟩, by simp⟩

/-- The parser's answer on an object, against the events it stands for. -/
theorem parse_outcome {json : Library} (p : SpotPayloadParser) (expectedSymbol : Bytes)
    (hkind : kind ≠ .trade) (h : CompactObject fields)
    (hread : json.iterate (objectNode fields).text = .ok (valueOf (objectNode fields))) :
    ((p.parse json venue kind expectedSymbol (objectNode fields).text).1.error = .none ∧
      ∃ d, AcceptedDepth venue kind expectedSymbol fields d ∧
        (p.parse json venue kind expectedSymbol (objectNode fields).text).1.event =
          { kind := kind, depth := d }) ∨
    ((p.parse json venue kind expectedSymbol (objectNode fields).text).1.error ≠ .none ∧
      ∀ d, ¬AcceptedDepth venue kind expectedSymbol fields d) := by
  have hvalid : ∀ m ∈ fields, validateValue (valueOf m.value) rootFieldContainerDepth = none :=
    fun m hm => validateValue_compact (h.valid m hm).2.2.2.1 (h.value_compact hm) (h.value_depth hm)
  have hstart := DepthState.start_holds venue kind expectedSymbol p.aged
  simp only [SpotPayloadParser.parse, parsePayload, if_neg (Nat.not_lt.mpr h.bounded), hread]
  simp only [objectNode, valueOf, Value.type, Value.answers, Value.fields, if_neg hkind, parseDepth]
  rcases parseDepthLoop_outcome hkind fields hstart h.valid hvalid with
    ⟨s, hloop, hs⟩ | ⟨herror, hnone⟩
  · rw [List.nil_append] at hs
    rw [hloop]
    simp only [hs.clean, ne_eq, not_true_eq_false, ↓reduceIte, finishDepth_event]
    by_cases hfinish : (finishDepth venue kind s).error = .none
    · exact .inl ⟨hfinish, s.result.event.depth, hs.accepted hkind h.valid hfinish, hs.event⟩
    · refine .inr ⟨hfinish, fun d hd => ?_⟩
      obtain ⟨hall, rfl⟩ := hs.event_eq hkind h.valid hd
      exact hfinish ((finishDepth_error_iff hs.clean).mpr
        ⟨hall, hd.range, hd.previous, hd.uncrossed⟩)
  · refine .inr ⟨?_, fun d hd => hnone d (hd.describes hkind h.valid)⟩
    split
    · rename_i hloop
      rw [hloop] at herror
      exact herror
    · rename_i hloop
      rw [hloop] at herror
      simp only [if_pos herror]
      exact herror

/-- Depth payloads: which of them are accepted, the event they give, and that the order
of their fields plays no part. -/
theorem depth_acceptance {json : Library} (p : SpotPayloadParser) (venue : PayloadVenue)
    (expectedSymbol : Bytes) (hkind : kind = .depthDiff ∨ kind = .depth5) (h : CompactObject fields)
    (hreads : ∀ fields', fields'.Perm fields →
      json.iterate (objectNode fields').text = .ok (valueOf (objectNode fields'))) :
    ((p.parse json venue kind expectedSymbol (objectNode fields).text).1.error = .none ↔
      ∃ d, AcceptedDepth venue kind expectedSymbol fields d) ∧
    (∀ d, AcceptedDepth venue kind expectedSymbol fields d →
      (p.parse json venue kind expectedSymbol (objectNode fields).text).1.event =
        { kind := kind, depth := d }) ∧
    ∀ fields', fields'.Perm fields → ∀ q : SpotPayloadParser,
      ((q.parse json venue kind expectedSymbol (objectNode fields').text).1.error = .none ↔
        (p.parse json venue kind expectedSymbol (objectNode fields).text).1.error = .none) ∧
      ((p.parse json venue kind expectedSymbol (objectNode fields).text).1.error = .none →
        (q.parse json venue kind expectedSymbol (objectNode fields').text).1.event =
          (p.parse json venue kind expectedSymbol (objectNode fields).text).1.event) := by
  have hdepth : kind ≠ .trade := by
    rcases hkind with rfl | rfl <;> decide
  have haccepted : ∀ fields', fields'.Perm fields → ∀ q : SpotPayloadParser,
      (q.parse json venue kind expectedSymbol (objectNode fields').text).1.error = .none ↔
        ∃ d, AcceptedDepth venue kind expectedSymbol fields' d := by
    intro fields' hperm q
    rcases parse_outcome q expectedSymbol hdepth (h.perm hperm) (hreads fields' hperm) with
      ⟨hnone, d, hd, -⟩ | ⟨herror, hnone⟩
    · exact ⟨fun _ => ⟨d, hd⟩, fun _ => hnone⟩
    · exact ⟨fun hn => absurd hn herror, fun ⟨d, hd⟩ => absurd hd (hnone d)⟩
  have hevent : ∀ fields', fields'.Perm fields → ∀ (q : SpotPayloadParser) (d : SpotDepthEvent),
      AcceptedDepth venue kind expectedSymbol fields' d →
      (q.parse json venue kind expectedSymbol (objectNode fields').text).1.event =
        { kind := kind, depth := d } := by
    intro fields' hperm q d hd
    rcases parse_outcome q expectedSymbol hdepth (h.perm hperm) (hreads fields' hperm) with
      ⟨-, d', hd', heq⟩ | ⟨-, hnone⟩
    · rw [heq, hd.unique hd']
    · exact absurd hd (hnone d)
  have hself := List.Perm.refl fields
  refine ⟨haccepted fields hself p, hevent fields hself p, ?_⟩
  intro fields' hperm q
  constructor
  · rw [haccepted fields' hperm q, haccepted fields hself p]
    constructor
    · rintro ⟨d, hd⟩
      exact ⟨d, hd.perm hperm.symm⟩
    · rintro ⟨d, hd⟩
      exact ⟨d, hd.perm hperm⟩
  · intro hnone
    obtain ⟨d, hd⟩ := (haccepted fields hself p).mp hnone
    rw [hevent fields hself p d hd, hevent fields' hperm q d (hd.perm hperm)]

end Payloads

/-- A spot refresh with one level a side, and the library on its orders. -/
def sampleDepthObject : List Member :=
  [{ key := ascii "lastUpdateId", value := .number (ascii "7") [] },
   { key := ascii "bids", value := .array [] (.cons (.array [] (.cons (.string (ascii "1.5") []) []
      (.cons (.string (ascii "2") []) [] .nil)) []) [] .nil) [] },
   { key := ascii "asks", value := .array [] .nil [] }]

def sampleDepthObjectLibrary : Library := .ofNodes (sampleDepthObject.permutations'.map objectNode)

def sampleDepthObjectEvent : SpotDepthEvent :=
  { firstUpdateId := 7, finalUpdateId := 7, bids := [⟨150000000, 200000000, .bid⟩] }

theorem sampleDepthObject_compact : CompactObject sampleDepthObject where
  valid := by
    have hid : IsString (ascii "lastUpdateId") :=
      ⟨⟨"lastUpdateId".toList, by decide +kernel⟩, by decide +kernel⟩
    have hbids : IsString (ascii "bids") := ⟨⟨"bids".toList, by decide +kernel⟩, by decide +kernel⟩
    have hasks : IsString (ascii "asks") := ⟨⟨"asks".toList, by decide +kernel⟩, by decide +kernel⟩
    have hprice : IsString (ascii "1.5") := ⟨⟨"1.5".toList, by decide +kernel⟩, by decide +kernel⟩
    have hquantity : IsString (ascii "2") := ⟨⟨"2".toList, by decide +kernel⟩, by decide +kernel⟩
    have hseven : IsNumber (ascii "7") :=
      ⟨[], ascii "7", [], [], by decide +kernel, .inl rfl,
        .inr ⟨55, [], by decide +kernel, by decide +kernel, by decide, by simp [Digits]⟩, .inl rfl, .inl rfl⟩
    simp [sampleDepthObject, Member.WellFormed, Node.WellFormed, Items.WellFormed, Spaces, hid, hbids,
      hasks, hprice, hquantity, hseven]
  compact := by simp [sampleDepthObject, Member.strip, Node.strip, Items.strip]
  bounded := by decide +kernel
  nested := by decide +kernel

theorem sampleDepthObject_reads (fields : List Member) (h : fields.Perm sampleDepthObject) :
    sampleDepthObjectLibrary.iterate (objectNode fields).text = .ok (valueOf (objectNode fields)) := by
  have hmem := List.mem_permutations'.mpr h
  simp only [sampleDepthObject, List.permutations', List.permutations'Aux, List.flatMap_cons,
    List.flatMap_nil, List.map_cons, List.map_nil, List.append_nil, List.cons_append, List.nil_append,
    List.mem_cons, List.not_mem_nil, or_false] at hmem
  rcases hmem with rfl | rfl | rfl | rfl | rfl | rfl <;> rfl

theorem sampleDepthObject_accepted :
    AcceptedDepth .spot .depth5 (ascii "BTCUSDT") sampleDepthObject sampleDepthObjectEvent where
  once := by
    intro f hf
    simp only [requiredFields, List.mem_cons, List.not_mem_nil, or_false] at hf
    rcases hf with rfl | rfl | rfl
    · exact ⟨_, rfl, rfl, rfl⟩
    · exact ⟨_, rfl, _, _, _, rfl, by decide +kernel, by decide +kernel, fun _ => by decide +kernel⟩
    · exact ⟨_, rfl, _, _, _, rfl, rfl, by decide +kernel, fun _ => by decide +kernel⟩
  untouched := ⟨fun _ => ⟨rfl, rfl⟩, fun _ => ⟨rfl, rfl⟩, fun _ => ⟨rfl, rfl⟩,
    fun _ h => absurd (by decide) h, fun _ h => absurd (by decide) h,
    fun h => absurd (by decide) h, fun _ => rfl⟩
  capacity := by decide
  range := by decide
  previous := by decide
  uncrossed := by decide

theorem depth_acceptance_sample :
    (({} : SpotPayloadParser).parse sampleDepthObjectLibrary .spot .depth5 (ascii "BTCUSDT")
      (objectNode sampleDepthObject).text).1.error = .none ∧
    (({} : SpotPayloadParser).parse sampleDepthObjectLibrary .spot .depth5 (ascii "BTCUSDT")
      (objectNode sampleDepthObject.reverse).text).1.event =
        { kind := .depth5, depth := sampleDepthObjectEvent } := by
  have haccepts := depth_acceptance {} .spot (ascii "BTCUSDT") (.inr rfl)
    sampleDepthObject_compact sampleDepthObject_reads
  have hnone := haccepts.1.mpr ⟨_, sampleDepthObject_accepted⟩
  have hreverse := (haccepts.2.2 _ sampleDepthObject.reverse_perm {}).2 hnone
  exact ⟨hnone, hreverse.trans (haccepts.2.1 _ sampleDepthObject_accepted)⟩

end MarketCapture
