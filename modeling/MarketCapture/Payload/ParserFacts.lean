import MarketCapture.Payload.Parser

/-! # What the parser guarantees

Two facts about `parsePayload` carry the development. Its result does not depend
on the history of the scratch it runs on, and an accepted depth event is well
formed: sides are tagged, prices positive and distinct, a refresh is at most
five levels per side, strictly best first and uncrossed, and the update ids obey
the venue's ranges. Both rest on the duplicate table tracking the prices of the
current message.
-/

namespace MarketCapture

open Simdjson JsonValidation

def LevelUpdate.key (u : LevelUpdate) : Int × BookSide := (u.price, u.side)

/-- Levels of one side of a differential event. -/
structure DiffRange (side : BookSide) (us : List LevelUpdate) : Prop where
  sides : ∀ u ∈ us, u.side = side
  price : ∀ u ∈ us, 0 < u.price
  quantity : ∀ u ∈ us, 0 ≤ u.quantity
  distinct : (us.map LevelUpdate.price).Nodup

/-- Levels of one side of a partial refresh. -/
structure RefreshRange (side : BookSide) (us : List LevelUpdate) : Prop where
  sides : ∀ u ∈ us, u.side = side
  price : ∀ u ∈ us, 0 < u.price
  quantity : ∀ u ∈ us, 0 < u.quantity
  length : us.length ≤ maxPartialDepthLevelsPerSide
  ordered : us.IsChain (fun a b => correctlyOrdered side a.price b.price = true)

theorem DiffRange.nil (side : BookSide) : DiffRange side [] := by
  constructor <;> simp

theorem RefreshRange.nil (side : BookSide) : RefreshRange side [] := by
  constructor <;> simp

/-! ## The scratch within one message -/

/-- The scratch of a message being parsed: its table tracks every price met, and
the accepted levels are among them, each once. -/
structure Scratch.Tracked (s : Scratch) (keys : List (Int × BookSide)) : Prop where
  tracks : s.table.Tracks keys
  bound : keys.length ≤ s.encounteredLevels
  covered : ∀ u ∈ s.updates, u.key ∈ keys
  distinct : (s.updates.map LevelUpdate.key).Nodup

theorem Scratch.beginMessage_tracked {s : Scratch} (h : s.table.Aged) :
    s.beginMessage.Tracked [] where
  tracks := DuplicateTable.beginMessage_tracks h
  bound := by simp
  covered := by simp [Scratch.beginMessage]
  distinct := by simp [Scratch.beginMessage]

/-- What one side's loop has appended to the level buffer `base`. -/
structure Appended (side : BookSide) (isPartial : Bool) (base : List LevelUpdate)
    (s : LevelsState) : Prop where
  split : ∃ out, s.scratch.updates = base ++ out ∧
    (∀ u ∈ out, u.side = side) ∧ (∀ u ∈ out, 0 < u.price) ∧ (∀ u ∈ out, 0 ≤ u.quantity) ∧
    (isPartial = true → (∀ u ∈ out, 0 < u.quantity) ∧
      out.length ≤ s.sideLevelCount ∧ out.length ≤ maxPartialDepthLevelsPerSide ∧
      s.previousPrice = out.getLast?.map LevelUpdate.price ∧
      out.IsChain (fun a b => correctlyOrdered side a.price b.price = true))

@[simp] theorem LevelsState.record_scratch (s : LevelsState) (e : SpotParseError) (f : SpotField)
    (d : DecimalParseError) : (s.record e f d).scratch = s.scratch := rfl

@[simp] theorem LevelsState.record_sideLevelCount (s : LevelsState) (e : SpotParseError)
    (f : SpotField) (d : DecimalParseError) : (s.record e f d).sideLevelCount = s.sideLevelCount :=
  rfl

@[simp] theorem LevelsState.record_previousPrice (s : LevelsState) (e : SpotParseError)
    (f : SpotField) (d : DecimalParseError) : (s.record e f d).previousPrice = s.previousPrice :=
  rfl

theorem Appended.of_same {side : BookSide} {isPartial : Bool} {base : List LevelUpdate}
    {s s' : LevelsState} (h : Appended side isPartial base s)
    (hu : s'.scratch.updates = s.scratch.updates) (hn : s.sideLevelCount ≤ s'.sideLevelCount)
    (hp : s'.previousPrice = s.previousPrice) : Appended side isPartial base s' := by
  obtain ⟨out, hsplit, hside, hprice, hquantity, hnonzero⟩ := h.split
  refine ⟨out, by rw [hu, hsplit], hside, hprice, hquantity, fun hpart => ?_⟩
  obtain ⟨h1, h2, h3, h4, h5⟩ := hnonzero hpart
  exact ⟨h1, by omega, h3, by rw [hp, h4], h5⟩

/-- A state in which the next level may be accepted: it has been counted, within
both limits. -/
structure Room (isPartial : Bool) (keys : List (Int × BookSide)) (base : List LevelUpdate)
    (s : LevelsState) : Prop where
  keys : keys.length < s.scratch.encounteredLevels
  levels : s.scratch.encounteredLevels ≤ maxDepthUpdates
  side : isPartial = true → s.scratch.updates.length < base.length + maxPartialDepthLevelsPerSide ∧
    s.scratch.updates.length < base.length + s.sideLevelCount

theorem chain_concat {side : BookSide} {out : List LevelUpdate} {u : LevelUpdate}
    (h : out.IsChain (fun a b => correctlyOrdered side a.price b.price = true))
    (hlast : (out.getLast?.map LevelUpdate.price).any
      (fun p => !correctlyOrdered side p u.price) = false) :
    (out ++ [u]).IsChain (fun a b => correctlyOrdered side a.price b.price = true) := by
  rw [List.isChain_append]
  refine ⟨h, by simp, ?_⟩
  intro x hx y hy
  simp only [List.head?_cons, Option.mem_def, Option.some.injEq] at hy
  subst hy
  rw [Option.mem_def] at hx
  simpa [hx] using hlast

/-- One accepted or rejected level keeps the scratch tracked and extends the
appended range in order. -/
theorem acceptLevel_spec {side : BookSide} {isPartial : Bool} {c : Components} {s : LevelsState}
    {keys : List (Int × BookSide)} {base : List LevelUpdate} (ht : s.scratch.Tracked keys)
    (ha : Appended side isPartial base s) (hroom : Room isPartial keys base s) :
    ∃ keys', (acceptLevel side isPartial c s).1.scratch.Tracked keys' ∧
      Appended side isPartial base (acceptLevel side isPartial c s).1 := by
  have hspec := fun price => DuplicateTable.insertUnique_spec ht.tracks price side
    (by have := hroom.keys; have := hroom.levels; simp only [maxDepthUpdates] at *
        simp only [duplicateTableSize]; omega)
  unfold acceptLevel
  split
  · exact ⟨keys, ht, ha.of_same rfl (le_refl _) rfl⟩
  · rename_i price _
    split
    · exact ⟨keys, ht, ha.of_same rfl (le_refl _) rfl⟩
    · rename_i hprice
      split
      · exact ⟨keys, ht, ha.of_same rfl (le_refl _) rfl⟩
      · rename_i quantity hquantity
        have hq := parseDecimal1e8_range hquantity
        split
        · exact ⟨keys, ht, ha.of_same rfl (le_refl _) rfl⟩
        · rename_i hnonzero
          have hs := hspec price
          split at hs
          · rw [hs]
            exact ⟨keys, ht, ha.of_same rfl (le_refl _) rfl⟩
          · rename_i hmem
            obtain ⟨hres, htab⟩ := hs
            generalize s.scratch.table.insertUnique price side = r at hres htab
            obtain ⟨res, table⟩ := r
            simp only at hres htab
            subst hres
            have hbound : ((price, side) :: keys).length ≤ s.scratch.encounteredLevels := by
              have := hroom.keys
              simpa using this
            simp only
            split
            · refine ⟨(price, side) :: keys, ⟨htab, hbound, ?_, ht.distinct⟩,
                ha.of_same rfl (le_refl _) rfl⟩
              exact fun u hu => List.mem_cons_of_mem _ (ht.covered u hu)
            · rename_i hordered
              refine ⟨(price, side) :: keys, ⟨htab, hbound, ?_, ?_⟩, ?_⟩
              · intro u hu
                rcases List.mem_append.mp hu with hu | hu
                · exact List.mem_cons_of_mem _ (ht.covered u hu)
                · rw [List.mem_singleton.mp hu]
                  exact List.mem_cons_self
              · simp only [List.map_append, List.map_cons, List.map_nil]
                refine List.nodup_append.mpr ⟨ht.distinct, by simp, ?_⟩
                intro a ha' b hb
                simp only [List.mem_singleton] at hb
                obtain ⟨u, hu, rfl⟩ := List.mem_map.mp ha'
                rintro rfl
                exact hmem (show (price, side) ∈ keys from (show u.key = (price, side) from hb) ▸ ht.covered u hu)
              · obtain ⟨out, hsplit, hside, hpos, hnonneg, hpart⟩ := ha.split
                refine ⟨out ++ [⟨price, quantity, side⟩], ?_, ?_, ?_, ?_, ?_⟩
                · simp [hsplit]
                · simpa [or_imp, forall_and] using hside
                · simp only [List.mem_append, List.mem_singleton, or_imp, forall_and, forall_eq]
                  exact ⟨hpos, by omega⟩
                · simp only [List.mem_append, List.mem_singleton, or_imp, forall_and, forall_eq]
                  exact ⟨hnonneg, hq.1⟩
                · intro hp
                  obtain ⟨hq', hn, _, hprev, hchain⟩ := hpart hp
                  obtain ⟨hlim, hcount⟩ := hroom.side hp
                  simp only [hsplit, List.length_append] at hlim hcount
                  simp only [hp, Bool.true_and, decide_eq_true_eq, not_le] at hnonzero
                  simp only [hp, Bool.true_and, Bool.not_eq_true, hprev] at hordered
                  refine ⟨?_, ?_, ?_, ?_, chain_concat hchain hordered⟩
                  · simp only [List.mem_append, List.mem_singleton, or_imp, forall_and, forall_eq]
                    exact ⟨hq', hnonzero⟩
                  · simp only [List.length_append, List.length_singleton]
                    omega
                  · simp only [List.length_append, List.length_singleton]
                    omega
                  · simp

/-- Counting a level makes room for it unless a limit is reached. -/
theorem countLevel_room {side : BookSide} {isPartial : Bool} {s : LevelsState}
    {keys : List (Int × BookSide)} {base : List LevelUpdate} (ht : s.scratch.Tracked keys)
    (ha : Appended side isPartial base s) (hover : overCapacity isPartial s = false) :
    Room isPartial keys base s.countLevel := by
  simp only [overCapacity, Bool.or_eq_false_iff, decide_eq_false_iff_not, not_le,
    Bool.and_eq_false_iff] at hover
  obtain ⟨out, hsplit, _, _, _, hpart⟩ := ha.split
  refine ⟨?_, hover.1, fun hp => ?_⟩
  · have := ht.bound
    simp only [LevelsState.countLevel]
    omega
  · obtain ⟨_, hn, _⟩ := hpart hp
    have hlim : s.sideLevelCount < maxPartialDepthLevelsPerSide := by
      rcases hover.2 with h | h
      · simp [hp] at h
      · exact h
    simp only [LevelsState.countLevel, hsplit, List.length_append]
    omega

theorem Scratch.Tracked.countLevel {s : LevelsState} {keys : List (Int × BookSide)}
    (h : s.scratch.Tracked keys) : s.countLevel.scratch.Tracked keys :=
  ⟨h.tracks, Nat.le_succ_of_le h.bound, h.covered, h.distinct⟩

theorem parseLevel_spec {side : BookSide} {isPartial : Bool} (value : Value) {s : LevelsState}
    {keys : List (Int × BookSide)} {base : List LevelUpdate} (ht : s.scratch.Tracked keys)
    (ha : Appended side isPartial base s) :
    ∃ keys', (parseLevel side isPartial value s).1.scratch.Tracked keys' ∧
      Appended side isPartial base (parseLevel side isPartial value s).1 := by
  have hc := ht.countLevel
  have hac : Appended side isPartial base s.countLevel :=
    ha.of_same rfl (Nat.le_succ _) rfl
  have keep : ∀ s' : LevelsState, s'.scratch = s.countLevel.scratch →
      s'.sideLevelCount = s.countLevel.sideLevelCount →
      s'.previousPrice = s.countLevel.previousPrice →
      ∃ keys', s'.scratch.Tracked keys' ∧ Appended side isPartial base s' := by
    intro s' h1 h2 h3
    exact ⟨keys, h1 ▸ hc, hac.of_same (by rw [h1]) (by rw [h2]) h3⟩
  simp only [parseLevel]
  split
  · unfold skipLevel
    split <;> exact keep _ rfl rfl rfl
  · rename_i hover
    simp only [Bool.not_eq_true] at hover
    split
    · exact keep _ rfl rfl rfl
    · split
      · exact keep _ rfl rfl rfl
      · split
        · exact keep _ rfl rfl rfl
        · split
          · exact keep _ rfl rfl rfl
          · rename_i c _ _ _
            have hroom := countLevel_room ht ha hover
            exact acceptLevel_spec (s := { s.countLevel with firstError := c.firstError })
              ⟨hc.tracks, hc.bound, hc.covered, hc.distinct⟩ (hac.of_same rfl (le_refl _) rfl)
              ⟨hroom.keys, hroom.levels, hroom.side⟩
    · unfold skipLevel
      split <;> exact keep _ rfl rfl rfl

theorem parseLevelsLoop_spec {side : BookSide} (isPartial : Bool) {base : List LevelUpdate}
    (es : Elements) {s : LevelsState} {keys : List (Int × BookSide)}
    (ht : s.scratch.Tracked keys) (ha : Appended side isPartial base s) :
    ∃ keys', (parseLevelsLoop side isPartial es s).1.scratch.Tracked keys' ∧
      Appended side isPartial base (parseLevelsLoop side isPartial es s).1 := by
  match es with
  | .done => exact ⟨keys, ht, ha⟩
  | .error _ => exact ⟨keys, ht, ha⟩
  | .next value rest =>
      obtain ⟨keys', ht', ha'⟩ := parseLevel_spec value ht ha
      unfold parseLevelsLoop
      split
      · rename_i h
        rw [h] at ht' ha'
        exact ⟨keys', ht', ha'⟩
      · rename_i h
        rw [h] at ht' ha'
        exact parseLevelsLoop_spec isPartial rest ht' ha'

/-- The levels of one side: the scratch stays tracked, and without a failure the
range is that of a diff, and of a refresh where one was asked for. -/
theorem parseLevels_spec (value : Value) (side : BookSide) (isPartial : Bool) {scratch : Scratch}
    {keys : List (Int × BookSide)} (ht : scratch.Tracked keys) :
    (∃ keys', (parseLevels value side isPartial scratch).2.2.Tracked keys') ∧
      ((parseLevels value side isPartial scratch).1.failed = false →
        DiffRange side (parseLevels value side isPartial scratch).2.1 ∧
        (isPartial = true → RefreshRange side (parseLevels value side isPartial scratch).2.1)) := by
  unfold parseLevels
  split
  · exact ⟨⟨keys, ht⟩, fun _ => ⟨DiffRange.nil side, fun _ => RefreshRange.nil side⟩⟩
  · have h₀ : Appended side isPartial scratch.updates { scratch := scratch } :=
      ⟨[], by simp⟩
    obtain ⟨keys', ht', ha'⟩ := parseLevelsLoop_spec isPartial value.elements
      (s := { scratch := scratch }) ht h₀
    split
    · rename_i h
      rw [h] at ht'
      exact ⟨⟨keys', ht'⟩, fun _ => ⟨DiffRange.nil side, fun _ => RefreshRange.nil side⟩⟩
    · rename_i s h
      rw [h] at ht' ha'
      refine ⟨⟨keys', ht'⟩, fun _ => ?_⟩
      obtain ⟨out, hsplit, hside, hprice, hquantity, hpart⟩ := ha'.split
      have hdrop : s.scratch.updates.drop scratch.updates.length = out := by
        rw [hsplit, List.drop_left]
      simp only [hdrop]
      refine ⟨⟨hside, hprice, hquantity, ?_⟩, fun hp => ?_⟩
      · have hd := ht'.distinct
        rw [hsplit, List.map_append] at hd
        have hout := (List.nodup_append.mp hd).2.1
        refine (List.nodup_map_iff_inj_on ?_).mpr ?_
        · exact hout.of_map _
        · intro a ha b hb hab
          have hkey : a.key = b.key := by
            simp only [LevelUpdate.key, hab, hside a ha, hside b hb]
          exact List.inj_on_of_nodup_map hout ha hb hkey
      · obtain ⟨h1, _, h3, _, h5⟩ := hpart hp
        exact ⟨hside, hprice, h1, h3, h5⟩
  · exact ⟨⟨keys, ht⟩, fun _ => ⟨DiffRange.nil side, fun _ => RefreshRange.nil side⟩⟩

/-! ## Depth objects -/

theorem classifyJsonError_ne_none (e : ErrorCode) : classifyJsonError e ≠ .none := by
  unfold classifyJsonError
  split <;> simp

theorem wrongTypeUnlessInvalid_ne_none (value : Value) (field : SpotField) :
    (wrongTypeUnlessInvalid value field).error ≠ .none := by
  unfold wrongTypeUnlessInvalid
  split
  · simp
  · exact classifyJsonError_ne_none _

theorem readJsonString_error {value : Value} {field : SpotField} {f : ParseFailure}
    (h : readJsonString value field = .error f) : f.error ≠ .none := by
  unfold readJsonString at h
  split at h
  · cases h; exact classifyJsonError_ne_none _
  · split at h
    · cases h
    · cases h; exact classifyJsonError_ne_none _
  · cases h; exact wrongTypeUnlessInvalid_ne_none _ _

theorem readJsonUint64_error {value : Value} {field : SpotField} {f : ParseFailure}
    (h : readJsonUint64 value field = .error f) : f.error ≠ .none := by
  unfold readJsonUint64 at h
  split at h
  · cases h; exact classifyJsonError_ne_none _
  · split at h
    · cases h
    · simp only [Except.error.injEq] at h
      subst h
      split
      · simp
      · exact classifyJsonError_ne_none _
  · cases h; exact wrongTypeUnlessInvalid_ne_none _ _

/-- The event collected so far, as long as no error was recorded. -/
structure DepthEventOk (kind : StreamKind) (marked : List DepthField) (d : SpotDepthEvent) :
    Prop where
  bids : DiffRange .bid d.bids
  asks : DiffRange .ask d.asks
  refresh : kind = .depth5 → RefreshRange .bid d.bids ∧ RefreshRange .ask d.asks
  previous : DepthField.previousUpdateId ∈ marked → d.hasPreviousUpdateId = true

structure DepthState.Ok (kind : StreamKind) (s : DepthState) : Prop where
  tracked : ∃ keys, s.scratch.Tracked keys
  event : s.result.error = .none → DepthEventOk kind s.marked s.result.event.depth

namespace DepthState

theorem Ok.of_failed {kind : StreamKind} {s : DepthState} (ht : ∃ keys, s.scratch.Tracked keys)
    (h : s.result.error ≠ .none) : s.Ok kind :=
  ⟨ht, fun h' => absurd h' h⟩

@[simp] theorem record_scratch (s : DepthState) (e : SpotParseError) (f : SpotField)
    (d : DecimalParseError) : (s.record e f d).scratch = s.scratch := by
  unfold record
  split <;> rfl

theorem record_error_ne_none (s : DepthState) {e : SpotParseError} (f : SpotField)
    (d : DecimalParseError) (he : e ≠ .none) : (s.record e f d).result.error ≠ .none := by
  unfold record
  split
  · exact he
  · assumption

@[simp] theorem applyFailure_scratch (s : DepthState) (f : ParseFailure) :
    (s.applyFailure f).scratch = s.scratch := by
  unfold applyFailure
  split
  · rfl
  · simp

theorem applyFailure_error_ne_none (s : DepthState) {f : ParseFailure} (hf : f.error ≠ .none) :
    (s.applyFailure f).result.error ≠ .none := by
  unfold applyFailure
  split
  · exact hf
  · exact record_error_ne_none s _ _ hf

theorem record_ok {kind : StreamKind} {s : DepthState} (ht : ∃ keys, s.scratch.Tracked keys)
    {e : SpotParseError} (f : SpotField) (d : DecimalParseError) (he : e ≠ .none) :
    (s.record e f d).Ok kind :=
  .of_failed (by simpa using ht) (record_error_ne_none s f d he)

theorem applyFailure_ok {kind : StreamKind} {s : DepthState} (ht : ∃ keys, s.scratch.Tracked keys)
    {f : ParseFailure} (hf : f.error ≠ .none) : (s.applyFailure f).Ok kind :=
  .of_failed (by simpa using ht) (applyFailure_error_ne_none s hf)

theorem setError_ok {kind : StreamKind} {s : DepthState} (ht : ∃ keys, s.scratch.Tracked keys)
    {f : ParseFailure} (hf : f.error ≠ .none) : (s.setError f).Ok kind :=
  .of_failed ht hf

theorem duplicateField_ok {kind : StreamKind} {s : DepthState} (h : s.Ok kind)
    (field : DepthField) (value : Value) : (s.duplicateField field value).Ok kind := by
  unfold duplicateField
  split
  · exact setError_ok (by simpa using h.tracked) (classifyJsonError_ne_none _)
  · exact record_ok h.tracked _ _ (by simp)

/-- A numeric field that keeps the level ranges keeps the event well formed; the
predecessor id sets its flag. -/
theorem readId_ok {kind : StreamKind} {s : DepthState} (ht : ∃ keys, s.scratch.Tracked keys)
    (value : Value) (field : DepthField) (store : UInt64 → SpotDepthEvent → SpotDepthEvent)
    (hstore : ∀ n, s.result.error = .none →
      DepthEventOk kind s.marked (store n s.result.event.depth)) :
    (s.readId value field store).Ok kind := by
  unfold readId
  split
  · rename_i hf
    exact applyFailure_ok ht (readJsonUint64_error hf)
  · exact ⟨ht, hstore _⟩

theorem readLevels_ok {kind : StreamKind} {s : DepthState} (h : s.Ok kind) (value : Value)
    (side : BookSide) : (s.readLevels value side (decide (kind = .depth5))).Ok kind := by
  obtain ⟨keys, ht⟩ := h.tracked
  obtain ⟨ht', hrange⟩ := parseLevels_spec value side (decide (kind = .depth5)) ht
  unfold readLevels
  generalize parseLevels value side (decide (kind = .depth5)) s.scratch = r at ht' hrange
  obtain ⟨failure, range, scratch⟩ := r
  simp only at ht' hrange ⊢
  split
  · rename_i hfailed
    have hne : failure.error ≠ .none := by simpa [ParseFailure.failed] using hfailed
    split
    · exact setError_ok ht' hne
    · exact record_ok ht' _ _ hne
  · rename_i hfailed
    obtain ⟨hdiff, hrefresh⟩ := hrange (by simpa using hfailed)
    refine ⟨ht', fun hnone => ?_⟩
    have hev := h.event hnone
    cases side with
    | bid => exact ⟨hdiff, hev.asks,
        fun hk => ⟨hrefresh (by simp [hk]), (hev.refresh hk).2⟩, hev.previous⟩
    | ask => exact ⟨hev.bids, hdiff,
        fun hk => ⟨(hev.refresh hk).1, hrefresh (by simp [hk])⟩, hev.previous⟩

theorem marked_other_ok {kind : StreamKind} {s : DepthState} (h : s.Ok kind) {field : DepthField}
    (hf : field ≠ .previousUpdateId) : ({ s with marked := field :: s.marked }).Ok kind :=
  ⟨h.tracked, fun hnone =>
    let hev := h.event hnone
    ⟨hev.bids, hev.asks, hev.refresh, fun hm => hev.previous (by simpa [hf.symm] using hm)⟩⟩

/-- A numeric field beside the level ranges and the predecessor flag. -/
theorem readId_keep_ok {kind : StreamKind} {s : DepthState} (h : s.Ok kind) (value : Value)
    (field : DepthField) {store : UInt64 → SpotDepthEvent → SpotDepthEvent}
    (hstore : ∀ n d, (store n d).bids = d.bids ∧ (store n d).asks = d.asks ∧
      (store n d).hasPreviousUpdateId = d.hasPreviousUpdateId) :
    (s.readId value field store).Ok kind := by
  refine readId_ok h.tracked value field store fun n hnone => ?_
  obtain ⟨h1, h2, h3⟩ := hstore n s.result.event.depth
  have hev := h.event hnone
  exact ⟨h1 ▸ hev.bids, h2 ▸ hev.asks,
    fun hk => ⟨h1 ▸ (hev.refresh hk).1, h2 ▸ (hev.refresh hk).2⟩,
    fun hm => h3 ▸ hev.previous hm⟩

theorem readField_ok {kind : StreamKind} {s : DepthState} (h : s.Ok kind) (expectedSymbol : Bytes)
    (field : DepthField) (value : Value) :
    (({ s with marked := field :: s.marked }).readField kind expectedSymbol field value).Ok
      kind := by
  -- every field but the predecessor id leaves the flag condition as it was
  by_cases hprev : field = .previousUpdateId
  · subst hprev
    unfold readField
    refine readId_ok (s := { s with marked := .previousUpdateId :: s.marked }) h.tracked _ _ _
      fun n hnone => ?_
    have hev := h.event hnone
    exact ⟨hev.bids, hev.asks, hev.refresh, fun _ => rfl⟩
  · have hs := marked_other_ok h hprev
    unfold readField
    cases field with
    | eventType | symbol =>
        simp only
        split
        · rename_i hf
          exact applyFailure_ok hs.tracked (readJsonString_error hf)
        · split
          · exact record_ok hs.tracked _ _ (by simp)
          · exact hs
    | bids => exact readLevels_ok hs value .bid
    | asks => exact readLevels_ok hs value .ask
    | previousUpdateId => exact absurd rfl hprev
    | eventTime | transactionTime | firstUpdateId | finalUpdateId | lastUpdateId =>
        exact readId_keep_ok hs value _ (fun n d => ⟨rfl, rfl, rfl⟩)

theorem visit_ok {kind : StreamKind} {s : DepthState} (h : s.Ok kind) (venue : PayloadVenue)
    (expectedSymbol key : Bytes) (value : Value) :
    (s.visit venue kind expectedSymbol key value).Ok kind := by
  unfold visit
  split
  · split
    · exact duplicateField_ok h _ value
    · exact readField_ok h expectedSymbol _ value
  · split
    · exact setError_ok h.tracked (classifyJsonError_ne_none _)
    · exact h

end DepthState

theorem parseDepthLoop_ok (venue : PayloadVenue) {kind : StreamKind} (expectedSymbol : Bytes)
    (fields : Fields) {s : DepthState} (h : s.Ok kind) :
    (parseDepthLoop venue kind expectedSymbol fields s).1.Ok kind := by
  match fields with
  | .done => exact h
  | .error e => exact .of_failed h.tracked (classifyJsonError_ne_none e)
  | .next key value rest =>
      unfold parseDepthLoop
      split
      · exact .of_failed h.tracked (classifyJsonError_ne_none _)
      · rename_i key
        have hv := DepthState.visit_ok h venue expectedSymbol key value
        simp only
        split
        · exact hv
        · exact parseDepthLoop_ok venue expectedSymbol rest hv

/-- A traversal that stops early leaves an error behind. -/
theorem parseDepthLoop_interrupted (venue : PayloadVenue) (kind : StreamKind)
    (expectedSymbol : Bytes) (fields : Fields) (s : DepthState) {s' : DepthState}
    (h : parseDepthLoop venue kind expectedSymbol fields s = (s', false)) :
    s'.result.error ≠ .none := by
  match fields with
  | .done => simp [parseDepthLoop] at h
  | .error e =>
      simp only [parseDepthLoop, Prod.mk.injEq, and_true] at h
      subst h
      exact classifyJsonError_ne_none e
  | .next key value rest =>
      unfold parseDepthLoop at h
      split at h
      · simp only [Prod.mk.injEq, and_true] at h
        subst h
        exact classifyJsonError_ne_none _
      · simp only at h
        split at h
        · rename_i hstop
          simp only [Prod.mk.injEq, and_true] at h
          subst h
          intro hnone
          simp [DepthState.stopped, hnone, isFatalDocumentError] at hstop
        · exact parseDepthLoop_interrupted venue kind expectedSymbol rest _ h

/-! ## Accepted events -/

/-- A differential event as the parser accepts it. -/
structure AcceptedDiff (venue : PayloadVenue) (d : SpotDepthEvent) : Prop where
  bids : DiffRange .bid d.bids
  asks : DiffRange .ask d.asks
  range : d.firstUpdateId ≤ d.finalUpdateId
  previous : venue = .usdm → d.hasPreviousUpdateId = true ∧ d.previousUpdateId < d.finalUpdateId

/-- A partial refresh as the parser accepts it. -/
structure AcceptedRefresh (d : SpotDepthEvent) : Prop where
  bids : RefreshRange .bid d.bids
  asks : RefreshRange .ask d.asks
  uncrossed : ∀ b ∈ d.bids.head?, ∀ a ∈ d.asks.head?, b.price < a.price

theorem finishDepth_event (venue : PayloadVenue) (kind : StreamKind) (s : DepthState) :
    (finishDepth venue kind s).event = s.result.event := by
  unfold finishDepth
  simp only
  split
  · rfl
  · split
    · rfl
    · split
      · rfl
      · split
        · rfl
        · rfl

theorem finishDepth_accepted {venue : PayloadVenue} {kind : StreamKind} {s : DepthState}
    (h : s.Ok kind) (hs : s.result.error = .none)
    (hnone : (finishDepth venue kind s).error = .none) :
    (kind = .depthDiff → AcceptedDiff venue (finishDepth venue kind s).event.depth) ∧
      (kind = .depth5 → AcceptedRefresh (finishDepth venue kind s).event.depth) := by
  have hev := h.event hs
  unfold finishDepth at hnone ⊢
  simp only at hnone ⊢
  split at hnone
  · cases hnone
  · rename_i hfound
    split at hnone
    · cases hnone
    · rename_i hrange
      split at hnone
      · cases hnone
      · rename_i hprev
        split at hnone
        · cases hnone
        · rename_i hcross
          simp only [hrange, hprev, hcross, Bool.false_eq_true, ↓reduceIte]
          refine ⟨fun hk => ?_, fun hk => ?_⟩
          · refine ⟨hev.bids, hev.asks, ?_, fun hv => ?_⟩
            · simpa [usesDepthUpdateShape, hk] using hrange
            · refine ⟨hev.previous ?_, by simpa [hv] using hprev⟩
              have hall := List.find?_eq_none.mp hfound .previousUpdateId (by simp [hv, requiredFields])
              simpa using hall
          · obtain ⟨hb, ha⟩ := hev.refresh hk
            refine ⟨hb, ha, ?_⟩
            intro b hb' a ha'
            rw [Option.mem_def] at hb' ha'
            simpa [hk, hb', ha'] using hcross

theorem parseDepth_accepted {venue : PayloadVenue} {kind : StreamKind} {fields : Fields}
    {expectedSymbol : Bytes} {scratch : Scratch} (ht : scratch.Tracked [])
    (hnone : (parseDepth fields venue kind expectedSymbol scratch).1.error = .none) :
    (kind = .depthDiff →
      AcceptedDiff venue (parseDepth fields venue kind expectedSymbol scratch).1.event.depth) ∧
    (kind = .depth5 →
      AcceptedRefresh (parseDepth fields venue kind expectedSymbol scratch).1.event.depth) := by
  have h₀ : DepthState.Ok kind { result := { event := { kind := kind } }, scratch := scratch } :=
    ⟨⟨[], ht⟩, fun _ => ⟨DiffRange.nil _, DiffRange.nil _,
      fun _ => ⟨RefreshRange.nil _, RefreshRange.nil _⟩, by simp⟩⟩
  have hloop := parseDepthLoop_ok venue expectedSymbol fields h₀
  unfold parseDepth at hnone ⊢
  generalize hr : parseDepthLoop venue kind expectedSymbol fields
    { result := { event := { kind := kind } }, scratch := scratch } = r at *
  obtain ⟨s, complete⟩ := r
  cases complete with
  | false =>
      simp only at hnone ⊢ hloop
      exact absurd hnone (parseDepthLoop_interrupted venue kind expectedSymbol fields _ hr)
  | true =>
      simp only at hnone ⊢ hloop
      split at hnone
      · rename_i hne
        exact absurd hnone hne
      · rename_i hs
        simp only [ne_eq, not_not] at hs
        rw [if_neg (by simp [hs])]
        exact finishDepth_accepted hloop hs hnone

/-! ## Independence of the scratch's history -/

def Scratch.withTable (s : Scratch) (t : DuplicateTable) : Scratch := { s with table := t }

def LevelsState.withTable (s : LevelsState) (t : DuplicateTable) : LevelsState :=
  { s with scratch := s.scratch.withTable t }

def DepthState.withTable (s : DepthState) (t : DuplicateTable) : DepthState :=
  { s with scratch := s.scratch.withTable t }

/-- Another table that tracks the same prices of the current message. -/
def SameMessage (s : Scratch) (t : DuplicateTable) : Prop :=
  ∃ keys, s.table.Tracks keys ∧ t.Tracks keys ∧ keys.length ≤ s.encounteredLevels

theorem acceptLevel_withTable {side : BookSide} {isPartial : Bool} {c : Components}
    {s : LevelsState} {t : DuplicateTable} {keys : List (Int × BookSide)}
    (h₁ : s.scratch.table.Tracks keys) (h₂ : t.Tracks keys)
    (hlt : keys.length < s.scratch.encounteredLevels)
    (hmax : s.scratch.encounteredLevels ≤ maxDepthUpdates) :
    ∃ t', acceptLevel side isPartial c (s.withTable t) =
        ((acceptLevel side isPartial c s).1.withTable t', (acceptLevel side isPartial c s).2) ∧
      SameMessage (acceptLevel side isPartial c s).1.scratch t' := by
  have hroom : keys.length < duplicateTableSize := by
    simp only [maxDepthUpdates] at hmax
    simp only [duplicateTableSize]
    omega
  have same : SameMessage s.scratch t := ⟨keys, h₁, h₂, by omega⟩
  unfold acceptLevel
  split
  · exact ⟨t, rfl, same⟩
  · rename_i price _
    split
    · exact ⟨t, rfl, same⟩
    · split
      · exact ⟨t, rfl, same⟩
      · split
        · exact ⟨t, rfl, same⟩
        · have hs₁ := DuplicateTable.insertUnique_spec h₁ price side hroom
          have hs₂ := DuplicateTable.insertUnique_spec h₂ price side hroom
          have htab : (s.withTable t).scratch.table = t := rfl
          rw [htab]
          split at hs₁
          · rename_i hmem
            rw [if_pos hmem] at hs₂
            rw [hs₁, hs₂]
            exact ⟨t, rfl, same⟩
          · rename_i hmem
            rw [if_neg hmem] at hs₂
            obtain ⟨hr₁, ht₁⟩ := hs₁
            obtain ⟨hr₂, ht₂⟩ := hs₂
            generalize s.scratch.table.insertUnique price side = r₁ at hr₁ ht₁
            generalize t.insertUnique price side = r₂ at hr₂ ht₂
            obtain ⟨res₁, t₁⟩ := r₁
            obtain ⟨res₂, t₂⟩ := r₂
            simp only at hr₁ hr₂ ht₁ ht₂
            subst hr₁ hr₂
            have grown : ((price, side) :: keys).length ≤ s.scratch.encounteredLevels := by
              simpa using hlt
            simp only
            have hprev : (s.withTable t).previousPrice = s.previousPrice := rfl
            simp only [hprev]
            split
            · exact ⟨t₂, rfl, _, ht₁, ht₂, grown⟩
            · exact ⟨t₂, rfl, _, ht₁, ht₂, grown⟩

theorem skipLevel_withTable (value : Value) (s : LevelsState) (t : DuplicateTable) :
    skipLevel value (s.withTable t) =
      ((skipLevel value s).1.withTable t, (skipLevel value s).2) := by
  unfold skipLevel
  split <;> rfl

@[simp] theorem skipLevel_scratch (value : Value) (s : LevelsState) :
    (skipLevel value s).1.scratch = s.scratch := by
  unfold skipLevel
  split <;> rfl

theorem parseLevel_withTable (side : BookSide) (isPartial : Bool) (value : Value)
    {s : LevelsState} {t : DuplicateTable} (h : SameMessage s.scratch t) :
    ∃ t', parseLevel side isPartial value (s.withTable t) =
        ((parseLevel side isPartial value s).1.withTable t',
          (parseLevel side isPartial value s).2) ∧
      SameMessage (parseLevel side isPartial value s).1.scratch t' := by
  obtain ⟨keys, h₁, h₂, hbound⟩ := h
  have same : SameMessage s.countLevel.scratch t := ⟨keys, h₁, h₂, Nat.le_succ_of_le hbound⟩
  have hover : overCapacity isPartial (s.withTable t) = overCapacity isPartial s := rfl
  have hcount : (s.withTable t).countLevel = s.countLevel.withTable t := rfl
  simp only [parseLevel, hover, hcount]
  split
  · have hrec : (s.countLevel.withTable t).record .tooManyLevels (sideField side) =
        (s.countLevel.record .tooManyLevels (sideField side)).withTable t := rfl
    rw [hrec, skipLevel_withTable]
    exact ⟨t, rfl, by simpa using same⟩
  · rename_i hfull
    split
    · exact ⟨t, rfl, same⟩
    · have hfirst : (s.countLevel.withTable t).firstError = s.countLevel.firstError := rfl
      rw [hfirst]
      split
      · exact ⟨t, rfl, same⟩
      · split
        · exact ⟨t, rfl, same⟩
        · split
          · exact ⟨t, rfl, same⟩
          · rename_i c _ _ _
            simp only [overCapacity, Bool.or_eq_true, decide_eq_true_eq, not_or, not_le] at hfull
            have hlt : keys.length < s.countLevel.scratch.encounteredLevels := by
              simp only [LevelsState.countLevel]
              omega
            exact acceptLevel_withTable (s := { s.countLevel with firstError := c.firstError })
              h₁ h₂ hlt hfull.1
    · have hrec : (s.countLevel.withTable t).record .invalidLevelShape .level =
          (s.countLevel.record .invalidLevelShape .level).withTable t := rfl
      rw [hrec, skipLevel_withTable]
      exact ⟨t, rfl, by simpa using same⟩

theorem parseLevelsLoop_withTable (side : BookSide) (isPartial : Bool) (es : Elements)
    {s : LevelsState} {t : DuplicateTable} (h : SameMessage s.scratch t) :
    ∃ t', parseLevelsLoop side isPartial es (s.withTable t) =
        ((parseLevelsLoop side isPartial es s).1.withTable t',
          (parseLevelsLoop side isPartial es s).2) ∧
      SameMessage (parseLevelsLoop side isPartial es s).1.scratch t' := by
  match es with
  | .done => exact ⟨t, rfl, h⟩
  | .error _ => exact ⟨t, rfl, h⟩
  | .next value rest =>
      obtain ⟨t', heq, hsame⟩ := parseLevel_withTable side isPartial value h
      unfold parseLevelsLoop
      rw [heq]
      generalize parseLevel side isPartial value s = r at hsame
      obtain ⟨s', failure⟩ := r
      cases failure with
      | some f => exact ⟨t', rfl, hsame⟩
      | none => exact parseLevelsLoop_withTable side isPartial rest hsame

theorem parseLevels_withTable (value : Value) (side : BookSide) (isPartial : Bool) {s : Scratch}
    {t : DuplicateTable} (h : SameMessage s t) :
    ∃ t', parseLevels value side isPartial (s.withTable t) =
        ((parseLevels value side isPartial s).1, (parseLevels value side isPartial s).2.1,
          (parseLevels value side isPartial s).2.2.withTable t') ∧
      SameMessage (parseLevels value side isPartial s).2.2 t' := by
  unfold parseLevels
  split
  · exact ⟨t, rfl, h⟩
  · obtain ⟨t', heq, hsame⟩ := parseLevelsLoop_withTable side isPartial
      value.elements (s := { scratch := s }) h
    have hstart : ({ scratch := s.withTable t } : LevelsState) =
        ({ scratch := s } : LevelsState).withTable t := rfl
    rw [hstart, heq]
    generalize parseLevelsLoop side isPartial value.elements { scratch := s } = r at hsame
    obtain ⟨s', failure⟩ := r
    cases failure with
    | some f => exact ⟨t', rfl, hsame⟩
    | none => exact ⟨t', rfl, hsame⟩
  · exact ⟨t, rfl, h⟩

namespace DepthState

theorem record_withTable (s : DepthState) (t : DuplicateTable) (e : SpotParseError)
    (f : SpotField) (d : DecimalParseError) :
    (s.withTable t).record e f d = (s.record e f d).withTable t := by
  have hr : (s.withTable t).result = s.result := rfl
  unfold record
  rw [hr]
  split <;> rfl

theorem applyFailure_withTable (s : DepthState) (t : DuplicateTable) (f : ParseFailure) :
    (s.withTable t).applyFailure f = (s.applyFailure f).withTable t := by
  unfold applyFailure
  split
  · rfl
  · exact record_withTable s t _ _ _

theorem readId_withTable (s : DepthState) (t : DuplicateTable) (value : Value)
    (field : DepthField) (store : UInt64 → SpotDepthEvent → SpotDepthEvent) :
    (s.withTable t).readId value field store = (s.readId value field store).withTable t := by
  unfold readId
  split
  · exact applyFailure_withTable s t _
  · rfl

@[simp] theorem readId_scratch (s : DepthState) (value : Value) (field : DepthField)
    (store : UInt64 → SpotDepthEvent → SpotDepthEvent) :
    (s.readId value field store).scratch = s.scratch := by
  unfold readId
  split
  · simp
  · rfl

@[simp] theorem setLevels_scratch (s : DepthState) (side : BookSide) (range : List LevelUpdate) :
    (s.setLevels side range).scratch = s.scratch := rfl

theorem readLevels_withTable {s : DepthState} {t : DuplicateTable} (value : Value)
    (side : BookSide) (isPartial : Bool) (h : SameMessage s.scratch t) :
    ∃ t', (s.withTable t).readLevels value side isPartial =
        (s.readLevels value side isPartial).withTable t' ∧
      SameMessage (s.readLevels value side isPartial).scratch t' := by
  obtain ⟨t', heq, hsame⟩ := parseLevels_withTable value side isPartial h
  refine ⟨t', ?_⟩
  have hscratch : (s.withTable t).scratch = s.scratch.withTable t := rfl
  unfold readLevels
  rw [hscratch, heq]
  generalize parseLevels value side isPartial s.scratch = r at hsame
  obtain ⟨failure, range, scratch⟩ := r
  simp only
  split
  · split
    · exact ⟨rfl, hsame⟩
    · refine ⟨?_, by simpa using hsame⟩
      exact record_withTable (setLevels { s with scratch := scratch } side range) t' _ _ _
  · exact ⟨rfl, hsame⟩

theorem readField_withTable {s : DepthState} {t : DuplicateTable} (kind : StreamKind)
    (expectedSymbol : Bytes) (field : DepthField) (value : Value)
    (h : SameMessage s.scratch t) :
    ∃ t', (s.withTable t).readField kind expectedSymbol field value =
        (s.readField kind expectedSymbol field value).withTable t' ∧
      SameMessage (s.readField kind expectedSymbol field value).scratch t' := by
  unfold readField
  cases field with
  | eventType | symbol =>
      refine ⟨t, ?_⟩
      simp only
      split
      · exact ⟨applyFailure_withTable s t _, by simpa using h⟩
      · split
        · exact ⟨record_withTable s t _ _ _, by simpa using h⟩
        · exact ⟨rfl, h⟩
  | bids => exact readLevels_withTable value .bid _ h
  | asks => exact readLevels_withTable value .ask _ h
  | eventTime | transactionTime | firstUpdateId | finalUpdateId | previousUpdateId | lastUpdateId =>
      exact ⟨t, readId_withTable s t value _ _, by simpa using h⟩

theorem visit_withTable {s : DepthState} {t : DuplicateTable} (venue : PayloadVenue)
    (kind : StreamKind) (expectedSymbol key : Bytes) (value : Value)
    (h : SameMessage s.scratch t) :
    ∃ t', (s.withTable t).visit venue kind expectedSymbol key value =
        (s.visit venue kind expectedSymbol key value).withTable t' ∧
      SameMessage (s.visit venue kind expectedSymbol key value).scratch t' := by
  unfold visit
  split
  · have hmarked : (s.withTable t).marked = s.marked := rfl
    rw [hmarked]
    split
    · refine ⟨t, ?_⟩
      unfold duplicateField
      rw [record_withTable]
      split
      · exact ⟨rfl, by simpa [setError] using h⟩
      · exact ⟨rfl, by simpa using h⟩
    · rename_i field _ _
      exact readField_withTable (s := { s with marked := field :: s.marked }) kind expectedSymbol
        field value h
  · split <;> exact ⟨t, rfl, h⟩

end DepthState

theorem parseDepthLoop_withTable (venue : PayloadVenue) (kind : StreamKind)
    (expectedSymbol : Bytes) (fields : Fields) {s : DepthState} {t : DuplicateTable}
    (h : SameMessage s.scratch t) :
    ∃ t', parseDepthLoop venue kind expectedSymbol fields (s.withTable t) =
      ((parseDepthLoop venue kind expectedSymbol fields s).1.withTable t',
        (parseDepthLoop venue kind expectedSymbol fields s).2) := by
  match fields with
  | .done => exact ⟨t, rfl⟩
  | .error _ => exact ⟨t, rfl⟩
  | .next key value rest =>
      unfold parseDepthLoop
      split
      · exact ⟨t, rfl⟩
      · rename_i key
        obtain ⟨t', heq, hsame⟩ :=
          DepthState.visit_withTable venue kind expectedSymbol key value h
        simp only [heq]
        have hstop : ∀ s' : DepthState, (s'.withTable t').stopped = s'.stopped := fun _ => rfl
        rw [hstop]
        split
        · exact ⟨t', rfl⟩
        · exact parseDepthLoop_withTable venue kind expectedSymbol rest hsame

theorem parseDepth_withTable (fields : Fields) (venue : PayloadVenue) (kind : StreamKind)
    (expectedSymbol : Bytes) {s : Scratch} {t : DuplicateTable} (h : SameMessage s t) :
    (parseDepth fields venue kind expectedSymbol (s.withTable t)).1 =
      (parseDepth fields venue kind expectedSymbol s).1 := by
  obtain ⟨t', heq⟩ := parseDepthLoop_withTable venue kind expectedSymbol fields
    (s := { result := { event := { kind := kind } }, scratch := s }) h
  have hstart : ({ result := { event := { kind := kind } }, scratch := s.withTable t } :
      DepthState) = DepthState.withTable
        { result := { event := { kind := kind } }, scratch := s } t := rfl
  unfold parseDepth
  rw [hstart, heq]
  generalize parseDepthLoop venue kind expectedSymbol fields
    { result := { event := { kind := kind } }, scratch := s } = r
  obtain ⟨s', complete⟩ := r
  cases complete with
  | false => rfl
  | true =>
      simp only
      have hresult : (s'.withTable t').result = s'.result := rfl
      rw [hresult]
      split <;> rfl

/-! ## The parser as a whole -/

theorem parseDepth_aged {fields : Fields} {venue : PayloadVenue} {kind : StreamKind}
    {expectedSymbol : Bytes} {scratch : Scratch} (ht : scratch.Tracked []) :
    (parseDepth fields venue kind expectedSymbol scratch).2.table.Aged := by
  have h₀ : DepthState.Ok kind { result := { event := { kind := kind } }, scratch := scratch } :=
    ⟨⟨[], ht⟩, fun _ => ⟨DiffRange.nil _, DiffRange.nil _,
      fun _ => ⟨RefreshRange.nil _, RefreshRange.nil _⟩, by simp⟩⟩
  obtain ⟨keys, hk⟩ := (parseDepthLoop_ok venue expectedSymbol fields h₀).tracked
  unfold parseDepth
  generalize parseDepthLoop venue kind expectedSymbol fields
    { result := { event := { kind := kind } }, scratch := scratch } = r at hk
  obtain ⟨s', complete⟩ := r
  cases complete with
  | false => exact hk.tracks.aged
  | true =>
      simp only
      split <;> exact hk.tracks.aged

/-- The parser leaves its table ready for the next message. -/
theorem parsePayload_aged {json : Library} {scratch : Scratch} {venue : PayloadVenue}
    {kind : StreamKind} {expectedSymbol payload : Bytes} (h : scratch.table.Aged) :
    (parsePayload json scratch venue kind expectedSymbol payload).2.table.Aged := by
  have hb := (Scratch.beginMessage_tracked h).tracks.aged
  unfold parsePayload
  simp only
  split
  · exact h
  · split
    · exact hb
    · split
      · exact hb
      · split
        · exact hb
        · exact parseDepth_aged (Scratch.beginMessage_tracked h)
      · split <;> exact hb

/-- The result of a parse does not depend on what was parsed before. -/
theorem parsePayload_scratch_irrelevant (json : Library) {s₁ s₂ : Scratch}
    (venue : PayloadVenue) (kind : StreamKind) (expectedSymbol payload : Bytes)
    (h₁ : s₁.table.Aged) (h₂ : s₂.table.Aged) :
    (parsePayload json s₁ venue kind expectedSymbol payload).1 =
      (parsePayload json s₂ venue kind expectedSymbol payload).1 := by
  have hsame : SameMessage s₁.beginMessage s₂.table.beginMessage :=
    ⟨[], DuplicateTable.beginMessage_tracks h₁, DuplicateTable.beginMessage_tracks h₂, by simp⟩
  have hstart : s₂.beginMessage = s₁.beginMessage.withTable s₂.table.beginMessage := rfl
  unfold parsePayload
  simp only [hstart]
  split
  · rfl
  · split
    · rfl
    · split
      · rfl
      · split
        · rfl
        · exact (parseDepth_withTable _ venue kind expectedSymbol hsame).symm
      · split <;> rfl

/-- Accepted depth payloads are well-formed events of their kind. -/
theorem parsePayload_accepted {json : Library} {scratch : Scratch} {venue : PayloadVenue}
    {kind : StreamKind} {expectedSymbol payload : Bytes} (h : scratch.table.Aged)
    (hnone : (parsePayload json scratch venue kind expectedSymbol payload).1.error = .none) :
    (kind = .depthDiff → AcceptedDiff venue
      (parsePayload json scratch venue kind expectedSymbol payload).1.event.depth) ∧
    (kind = .depth5 → AcceptedRefresh
      (parsePayload json scratch venue kind expectedSymbol payload).1.event.depth) := by
  unfold parsePayload at hnone ⊢
  simp only at hnone ⊢
  split at hnone
  · cases hnone
  · rename_i hlen
    rw [if_neg hlen]
    split at hnone
    · exact absurd hnone (classifyJsonError_ne_none _)
    · split at hnone
      · exact absurd hnone (classifyJsonError_ne_none _)
      · split at hnone
        · rename_i hk
          simp [hk]
        · rename_i hk
          rw [if_neg hk]
          exact parseDepth_accepted (Scratch.beginMessage_tracked h) hnone
      · split at hnone
        · cases hnone
        · exact absurd hnone (classifyJsonError_ne_none _)

/-! ## The parser object -/

/-- A parser between two messages: no slot of its table is newer than its
generation, so the next message starts from an empty table. -/
structure SpotPayloadParser where
  scratch : Scratch := {}
  aged : scratch.table.Aged := by exact DuplicateTable.initial_aged

namespace SpotPayloadParser

def parse (p : SpotPayloadParser) (json : Library) (venue : PayloadVenue) (kind : StreamKind)
    (expectedSymbol payload : Bytes) : SpotParseResult × SpotPayloadParser :=
  ((parsePayload json p.scratch venue kind expectedSymbol payload).1,
    ⟨(parsePayload json p.scratch venue kind expectedSymbol payload).2, parsePayload_aged p.aged⟩)

/-- What a message parses to, whatever the parser met before. -/
theorem parse_eq (p q : SpotPayloadParser) (json : Library) (venue : PayloadVenue)
    (kind : StreamKind) (expectedSymbol payload : Bytes) :
    (p.parse json venue kind expectedSymbol payload).1 =
      (q.parse json venue kind expectedSymbol payload).1 :=
  parsePayload_scratch_irrelevant json venue kind expectedSymbol payload p.aged q.aged

/-- Some parser returned this depth event without an error. -/
def Accepts (venue : PayloadVenue) (kind : StreamKind) (d : SpotDepthEvent) : Prop :=
  ∃ (p : SpotPayloadParser) (json : Library) (expectedSymbol payload : Bytes),
    (p.parse json venue kind expectedSymbol payload).1.error = .none ∧
    (p.parse json venue kind expectedSymbol payload).1.event.depth = d

theorem Accepts.diff {venue : PayloadVenue} {d : SpotDepthEvent} (h : Accepts venue .depthDiff d) :
    AcceptedDiff venue d := by
  obtain ⟨p, json, symbol, payload, hnone, rfl⟩ := h
  exact (parsePayload_accepted p.aged hnone).1 rfl

theorem Accepts.refresh {venue : PayloadVenue} {d : SpotDepthEvent}
    (h : Accepts venue .depth5 d) : AcceptedRefresh d := by
  obtain ⟨p, json, symbol, payload, hnone, rfl⟩ := h
  exact (parsePayload_accepted p.aged hnone).2 rfl

end SpotPayloadParser

end MarketCapture
