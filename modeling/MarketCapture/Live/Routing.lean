import MarketCapture.Lib.Probing
import MarketCapture.Live.CommandLine
import MarketCapture.Live.Subscription

/-! # Routing

Every valid symbol set has a subscription. Its target lists all streams of all
symbols, no two streams share a name, and a name is looked up to the route that
was entered under it, however the hashes of the names collide.
-/

namespace MarketCapture

/-! ## Symbols -/

theorem conflictWith_none {current : Bytes} {currentId : Nat} (seen : List Bytes)
    (h : conflictWith current currentId seen = .none) : current ∉ seen := by
  induction seen with
  | nil => simp
  | cons prior rest ih =>
      unfold conflictWith at h
      split at h
      · cases h
      · rename_i hne
        split at h
        · cases h
        · rintro (_ | ⟨_, hmem⟩)
          · exact hne rfl
          · exact ih h hmem

theorem validateFrom_nodup {seen : List Bytes} (symbols : List Bytes) (hseen : seen.Nodup)
    (h : validateFrom seen symbols = .none) : (seen ++ symbols).Nodup := by
  induction symbols generalizing seen with
  | nil => simpa using hseen
  | cons current rest ih =>
      unfold validateFrom at h
      split at h
      · cases h
      · split at h
        · rename_i hconflict
          have hnew : current ∉ seen := conflictWith_none seen hconflict
          have hnodup : (seen ++ [current]).Nodup := by
            rw [List.nodup_append]
            refine ⟨hseen, by simp, ?_⟩
            rintro a ha b hb rfl
            exact hnew (by simpa using List.mem_singleton.mp hb ▸ ha)
          simpa using ih hnodup h
        · contradiction

/-- A symbol set that passes its validation. -/
structure SymbolSet (symbols : List Bytes) : Prop where
  nonempty : 0 < symbols.length
  bounded : symbols.length ≤ maxConfiguredSymbols
  normalized : ∀ symbol ∈ symbols, isNormalizedSymbol symbol = true
  nodup : symbols.Nodup

theorem symbolSet_of_validate {symbols : List Bytes} (h : validateSymbolSet symbols = .none) :
    SymbolSet symbols := by
  unfold validateSymbolSet at h
  split at h
  · cases h
  · rename_i hne
    split at h
    · cases h
    · rename_i hle
      exact ⟨by omega, by omega, LiveSubscription.validateFrom_normalized h,
        by simpa using validateFrom_nodup symbols List.nodup_nil h⟩

/-! ## Stream names -/

def lowercaseByte (b : UInt8) : UInt8 := if 65 ≤ b.toNat ∧ b.toNat ≤ 90 then b - 65 + 97 else b

theorem lowercaseSymbol_eq_map (symbol : Bytes) : lowercaseSymbol symbol = symbol.map lowercaseByte := rfl

@[simp] theorem lowercaseSymbol_length (symbol : Bytes) :
    (lowercaseSymbol symbol).length = symbol.length := by
  simp [lowercaseSymbol]

/-- The names of the streams of a symbol set, in subscription order. -/
def streamNamesOf (symbols : List Bytes) : List Bytes :=
  symbols.flatMap fun symbol => streamSuffixes.map fun suffix => lowercaseSymbol symbol ++ suffix.1

theorem uint8_forall {P : UInt8 → Prop} (h : ∀ n : Fin 256, P (UInt8.ofNat n)) (b : UInt8) : P b := by
  have := h ⟨b.toNat, b.toNat_lt⟩
  simpa using this

theorem lowercaseByte_ne_at : ∀ b : UInt8, symbolByte b = true → lowercaseByte b ≠ 64 :=
  uint8_forall (by decide +kernel)

/-- Normalizing undoes lowercasing. -/
theorem normalizeByte_lowercaseByte :
    ∀ b : UInt8, symbolByte b = true → CommandLine.normalizeByte (lowercaseByte b) = some b :=
  uint8_forall (by decide +kernel)

theorem normalizeSymbol_lowercaseSymbol {symbol : Bytes} (h : isNormalizedSymbol symbol = true) :
    CommandLine.normalizeSymbol (lowercaseSymbol symbol) = some symbol := by
  obtain ⟨hne, hlen, hbytes⟩ := isNormalizedSymbol_bytes h
  have hmap : (symbol.map lowercaseByte).mapM CommandLine.normalizeByte = some symbol := by
    clear h hne hlen
    induction symbol with
    | nil => rfl
    | cons b rest ih =>
        have hb := normalizeByte_lowercaseByte b (hbytes b List.mem_cons_self)
        have hrest := ih (fun c hc => hbytes c (List.mem_cons_of_mem _ hc))
        simp [hb, hrest]
  have hsize : ¬((lowercaseSymbol symbol).isEmpty = true ∨
      (lowercaseSymbol symbol).length > maxNormalizedSymbolBytes) := by
    rw [lowercaseSymbol_length, List.isEmpty_iff_length_eq_zero, lowercaseSymbol_length]
    have := List.length_pos_iff.mpr hne
    omega
  rw [CommandLine.normalizeSymbol, if_neg hsize, lowercaseSymbol_eq_map, hmap]

theorem streamSuffixes_at : ∀ suffix ∈ streamSuffixes, ∃ rest, suffix.1 = 64 :: rest := by
  have hall : ∀ suffix ∈ streamSuffixes, suffix.1.head? = some 64 := by decide +kernel
  intro suffix hmem
  exact List.head?_eq_some_iff.mp (hall suffix hmem)

/-- The symbol of a stream name is what stands before its first `@`. -/
theorem takeWhile_streamName {symbol : Bytes} (h : isNormalizedSymbol symbol = true)
    {suffix : Bytes × StreamKind} (hs : suffix ∈ streamSuffixes) :
    (lowercaseSymbol symbol ++ suffix.1).takeWhile (· ≠ 64) = lowercaseSymbol symbol := by
  obtain ⟨rest, hrest⟩ := streamSuffixes_at suffix hs
  have hall : ∀ b ∈ lowercaseSymbol symbol, decide (b ≠ 64) = true := by
    intro b hb
    obtain ⟨c, hc, rfl⟩ := List.mem_map.mp hb
    exact decide_eq_true (lowercaseByte_ne_at c ((isNormalizedSymbol_bytes h).2.2 c hc))
  rw [hrest, List.takeWhile_append_of_pos hall]
  simp

theorem lowercaseSymbol_inj {a b : Bytes} (ha : isNormalizedSymbol a = true)
    (hb : isNormalizedSymbol b = true) (h : lowercaseSymbol a = lowercaseSymbol b) : a = b := by
  have hnormal := normalizeSymbol_lowercaseSymbol ha
  rw [h, normalizeSymbol_lowercaseSymbol hb] at hnormal
  exact (Option.some.inj hnormal).symm

theorem streamNamesOf_nodup {symbols : List Bytes} (h : SymbolSet symbols) :
    (streamNamesOf symbols).Nodup := by
  rw [streamNamesOf, List.nodup_flatMap]
  constructor
  · intro symbol _
    have hsuffixes : (streamSuffixes.map Prod.fst).Nodup := by decide +kernel
    have hmap := hsuffixes.map (List.append_right_injective (lowercaseSymbol symbol))
    simpa [List.map_map, Function.comp_def] using hmap
  · refine h.nodup.imp_of_mem ?_
    intro a b ha hb hne name hnameA hnameB
    obtain ⟨sa, hsa, rfl⟩ := List.mem_map.mp hnameA
    obtain ⟨sb, hsb, heq⟩ := List.mem_map.mp hnameB
    have hwhole := congrArg (List.takeWhile (· ≠ 64)) heq
    rw [takeWhile_streamName (h.normalized b hb) hsb,
      takeWhile_streamName (h.normalized a ha) hsa] at hwhole
    exact hne (lowercaseSymbol_inj (h.normalized b hb) (h.normalized a ha) hwhole).symm

theorem streamNamesOf_length (symbols : List Bytes) :
    (streamNamesOf symbols).length = symbols.length * streamsPerSymbol := by
  simp [streamNamesOf, streamSuffixes, streamsPerSymbol]

theorem routesOf_names (symbols : List Bytes) :
    (LiveSubscription.routesOf symbols).map LiveRoute.streamName = streamNamesOf symbols := by
  have hsymbol : ∀ p : Bytes × Nat,
      (LiveSubscription.symbolRoutes p.2 p.1).map LiveRoute.streamName =
        streamSuffixes.map fun suffix => lowercaseSymbol p.1 ++ suffix.1 := by
    intro p
    simp [LiveSubscription.symbolRoutes]
  rw [LiveSubscription.routesOf, List.map_flatMap, streamNamesOf]
  simp only [hsymbol]
  conv_rhs => rw [← List.zipIdx_map_fst 0 symbols, List.flatMap_map]

/-! ## The size of the target -/

theorem checkedAdd_some {total increment : Nat} (h : total + increment ≤ sizeMaximum) :
    checkedAdd total increment = some (total + increment) := by
  rw [checkedAdd, if_neg (by omega)]

/-- A loop of checked additions that stays in range adds up the sizes. -/
theorem foldlM_checked {α : Type} {step : Nat → α → Option Nat} (size : α → Nat)
    (hstep : ∀ total x, total + size x ≤ sizeMaximum → step total x = some (total + size x))
    (xs : List α) {total : Nat} (h : total + (xs.map size).sum ≤ sizeMaximum) :
    xs.foldlM step total = some (total + (xs.map size).sum) := by
  induction xs generalizing total with
  | nil => simp
  | cons x xs ih =>
      simp only [List.map_cons, List.sum_cons] at h ⊢
      rw [List.foldlM_cons, hstep total x (by omega), Option.bind_eq_bind, Option.bind_some,
        ih (by omega), Nat.add_assoc]

/-- The bytes of the stream names of one symbol. -/
def streamBytes (symbol : Bytes) : Nat :=
  (streamSuffixes.map fun suffix => symbol.length + suffix.1.length).sum

theorem addStreamSizes_some {symbol : Bytes} {total : Nat}
    (h : total + streamBytes symbol ≤ sizeMaximum) :
    addStreamSizes symbol total = some (total + streamBytes symbol) := by
  refine foldlM_checked _ ?_ streamSuffixes h
  intro total suffix hle
  rw [checkedAdd_some (by omega), Option.bind_eq_bind, Option.bind_some, checkedAdd_some (by omega),
    Nat.add_assoc]

theorem streamNamesOf_bytes (symbols : List Bytes) :
    ((streamNamesOf symbols).map List.length).sum = (symbols.map streamBytes).sum := by
  induction symbols with
  | nil => rfl
  | cons symbol symbols ih =>
      rw [streamNamesOf, List.flatMap_cons, ← streamNamesOf, List.map_append, List.sum_append, ih,
        List.map_cons, List.sum_cons, streamBytes, List.map_map]
      simp [Function.comp_def]

theorem checkedCombinedTargetSize_ok {symbols : List Bytes} (h : SymbolSet symbols)
    {targetPrefixBytes : Nat}
    (hsize : targetPrefixBytes + ((streamNamesOf symbols).map List.length).sum +
      ((streamNamesOf symbols).length - 1) ≤ sizeMaximum) :
    checkedCombinedTargetSize targetPrefixBytes symbols =
      .ok (targetPrefixBytes + ((streamNamesOf symbols).map List.length).sum +
        ((streamNamesOf symbols).length - 1)) := by
  have hpos := h.nonempty
  have hle := h.bounded
  have hcount : ¬symbols.length * streamsPerSymbol > maxDerivedStreams :=
    Nat.not_lt.mpr (Nat.mul_le_mul_right streamsPerSymbol hle)
  have hsmall : ¬symbols.length > sizeMaximum / streamsPerSymbol := by
    have : maxConfiguredSymbols ≤ sizeMaximum / streamsPerSymbol := by decide
    omega
  rw [streamNamesOf_length, streamNamesOf_bytes] at hsize ⊢
  rw [checkedCombinedTargetSize, if_neg (by omega), if_neg hsmall, if_neg hcount]
  have hloop : symbols.foldlM (fun total symbol => addStreamSizes symbol total) targetPrefixBytes =
      some (targetPrefixBytes + (symbols.map streamBytes).sum) :=
    foldlM_checked streamBytes (fun _ _ hfits => addStreamSizes_some hfits) symbols (by omega)
  simp only [hloop, Option.bind_eq_bind, Option.bind_some, checkedAdd_some hsize]

theorem streamNamesOf_length_le {symbols : List Bytes} (h : SymbolSet symbols) :
    ∀ name ∈ streamNamesOf symbols, name.length ≤ 45 := by
  have hsuffixes : ∀ suffix ∈ streamSuffixes, suffix.1.length ≤ 13 := by decide +kernel
  intro name hname
  obtain ⟨symbol, hsymbol, hmem⟩ := List.mem_flatMap.mp hname
  obtain ⟨suffix, hsuffix, rfl⟩ := List.mem_map.mp hmem
  have hlen : symbol.length ≤ 32 := (isNormalizedSymbol_bytes (h.normalized symbol hsymbol)).2.1
  have := hsuffixes suffix hsuffix
  rw [List.length_append, lowercaseSymbol_length]
  omega

/-- No symbol set reaches the limit on targets. -/
theorem targetBytes_le {symbols : List Bytes} (h : SymbolSet symbols) (venue : PayloadVenue) :
    (combinedTargetPrefix venue).length + ((streamNamesOf symbols).map List.length).sum +
      ((streamNamesOf symbols).length - 1) ≤ maxCombinedTargetBytes := by
  have hprefix : (combinedTargetPrefix venue).length ≤ 23 := by
    cases venue <;> decide +kernel
  have hsum : ((streamNamesOf symbols).map List.length).sum ≤ (streamNamesOf symbols).length * 45 := by
    have := List.sum_le_card_nsmul ((streamNamesOf symbols).map List.length) 45 (by
      intro n hn
      obtain ⟨name, hname, rfl⟩ := List.mem_map.mp hn
      exact streamNamesOf_length_le h name hname)
    simpa using this
  have hcount : (streamNamesOf symbols).length ≤ 96 := by
    rw [streamNamesOf_length]
    exact Nat.mul_le_mul_right streamsPerSymbol h.bounded
  have hlimit : maxCombinedTargetBytes = 8192 := rfl
  omega

/-! ## The target -/

theorem intercalate_concat {α : Type} (separator : List α) (names : List (List α)) (name : List α) :
    separator.intercalate (names ++ [name]) =
      (if names = [] then [] else separator.intercalate names ++ separator) ++ name := by
  induction names with
  | nil => simp
  | cons first rest ih =>
      rw [List.cons_append, List.intercalate_cons_of_ne_nil (by simp), ih]
      by_cases hrest : rest = []
      · simp [hrest]
      · simp [hrest, List.intercalate_cons_of_ne_nil hrest]

theorem intercalate_length {α : Type} (separator : α) (names : List (List α)) :
    ([separator].intercalate names).length =
      (names.map List.length).sum + (names.length - 1) := by
  induction names with
  | nil => rfl
  | cons first rest ih =>
      by_cases hrest : rest = []
      · simp [hrest]
      · have := List.length_pos_iff.mpr hrest
        rw [List.intercalate_cons_of_ne_nil hrest]
        simp only [List.length_append, List.length_cons, List.length_nil, ih, List.map_cons,
          List.sum_cons]
        omega

namespace LiveSubscription

/-! ## The route table -/

/-- The stream name that a slot of the table leads to. -/
def named (s : LiveSubscription) (slot : Nat) : Option Bytes :=
  (s.lookup slot).bind fun routeIndex => (s.routes[routeIndex]?).map LiveRoute.streamName

def streamNames (s : LiveSubscription) : List Bytes := s.routes.map LiveRoute.streamName

/-- Every entry of the table is the index of a route. -/
def InRange (s : LiveSubscription) : Prop :=
  ∀ slot routeIndex, s.lookup slot = some routeIndex → routeIndex < s.routes.length

/-- The table holds exactly the names of the routes. -/
structure Tabled (s : LiveSubscription) : Prop where
  inRange : s.InRange
  holds : Probing.Holds lookupSlotCount (fun name => (hashStream name).toNat) s.named
    s.streamNames.reverse

theorem InRange.entry {s : LiveSubscription} (h : s.InRange) {slot routeIndex : Nat}
    (hslot : s.lookup slot = some routeIndex) :
    ∃ route, s.routes[routeIndex]? = some route ∧ s.named slot = some route.streamName := by
  have hlt := h slot routeIndex hslot
  refine ⟨s.routes[routeIndex], List.getElem?_eq_getElem hlt, ?_⟩
  simp [named, hslot, List.getElem?_eq_getElem hlt]

theorem findLoop_search {s : LiveSubscription} (h : s.InRange) (streamName : Bytes)
    (probes slot : Nat) :
    s.findLoop streamName probes slot =
      match Probing.search lookupSlotCount s.named streamName probes slot with
      | .found i => { route := (s.lookup i).bind (s.routes[·]?), error := .none }
      | _ => {} := by
  induction probes generalizing slot with
  | zero => rfl
  | succ probes ih =>
      cases hslot : s.lookup slot with
      | none =>
          have hnamed : s.named slot = none := by simp [named, hslot]
          simp [findLoop, Probing.search, hslot, hnamed]
      | some routeIndex =>
          obtain ⟨route, hroute, hnamed⟩ := h.entry hslot
          by_cases hname : route.streamName = streamName
          · simp [findLoop, Probing.search, hslot, hnamed, hroute, hname]
          · simp only [findLoop, Probing.search, hslot, hnamed, hroute, hname, ↓reduceIte, ih]

/-- The subscription with a route appended that the table does not hold yet. -/
def withRoute (s : LiveSubscription) (route : LiveRoute) : LiveSubscription :=
  { s with
    target := (if s.routes.length ≠ 0 then s.target ++ [47] else s.target) ++ route.streamName
    routes := s.routes ++ [route] }

/-- The subscription with a route index entered in a slot. -/
def entered (s : LiveSubscription) (slot routeIndex : Nat) : LiveSubscription :=
  { s with lookup := Function.update s.lookup slot (some routeIndex) }

theorem insertLoop_search {s : LiveSubscription} (h : s.InRange) (routeIndex : Nat)
    (streamName : Bytes) (probes slot : Nat) :
    s.insertLoop routeIndex streamName probes slot =
      match Probing.search lookupSlotCount s.named streamName probes slot with
      | .vacant i => some (s.entered i routeIndex)
      | _ => none := by
  induction probes generalizing slot with
  | zero => rfl
  | succ probes ih =>
      cases hslot : s.lookup slot with
      | none =>
          have hnamed : s.named slot = none := by simp [named, hslot]
          simp [insertLoop, Probing.search, hslot, hnamed, entered]
      | some other =>
          obtain ⟨route, hroute, hnamed⟩ := h.entry hslot
          by_cases hname : route.streamName = streamName
          · simp [insertLoop, Probing.search, hslot, hnamed, hroute, hname]
          · simp only [insertLoop, Probing.search, hslot, hnamed, hroute, hname, ↓reduceIte, ih,
              Option.map_some, Option.some.injEq]

theorem withRoute_inRange {s : LiveSubscription} (h : s.InRange) (route : LiveRoute) :
    (s.withRoute route).InRange := by
  intro slot i hi
  have := h slot i hi
  simp only [withRoute, List.length_append]
  omega

theorem withRoute_named {s : LiveSubscription} (h : s.InRange) (route : LiveRoute) :
    (s.withRoute route).named = s.named := by
  funext slot
  cases hslot : s.lookup slot with
  | none => simp [named, withRoute, hslot]
  | some i =>
      have hlt := h slot i hslot
      simp [named, withRoute, hslot, List.getElem?_append_left hlt]

theorem entered_inRange {s : LiveSubscription} (h : s.InRange) {slot routeIndex : Nat}
    (hlt : routeIndex < s.routes.length) : (s.entered slot routeIndex).InRange := by
  intro slot' i hi
  by_cases hslot : slot' = slot
  · subst hslot
    simp only [entered, Function.update_self, Option.some.injEq] at hi
    rwa [← hi]
  · simp only [entered, Function.update_of_ne hslot] at hi
    exact h slot' i hi

theorem entered_named {s : LiveSubscription} {slot routeIndex : Nat} {route : LiveRoute}
    (hroute : s.routes[routeIndex]? = some route) :
    (s.entered slot routeIndex).named = Function.update s.named slot (some route.streamName) := by
  funext slot'
  by_cases hslot : slot' = slot
  · subst hslot
    simp [named, entered, hroute]
  · rw [Function.update_of_ne hslot]
    simp only [named, entered, Function.update_of_ne hslot]

/-- A route whose name is new is entered while the table has room. -/
theorem addRoute_tabled {s : LiveSubscription} {route : LiveRoute} (h : s.Tabled)
    (hnew : route.streamName ∉ s.streamNames) (hroom : s.routes.length < lookupSlotCount) :
    ∃ s', s.addRoute route = some s' ∧ s'.Tabled ∧ s'.routes = s.routes ++ [route] ∧
      s'.target = (if s.routes = [] then s.target else s.target ++ [47]) ++ route.streamName := by
  obtain ⟨t, ht, hsearch, hvacant, hpass⟩ := Probing.search_of_not_mem h.holds
    (show route.streamName ∉ s.streamNames.reverse by simpa using hnew)
    (show s.streamNames.reverse.length < lookupSlotCount by simpa [streamNames] using hroom)
  have hrange := withRoute_inRange h.inRange route
  have hlast : (s.withRoute route).routes[s.routes.length]? = some route := by simp [withRoute]
  have hloop : s.addRoute route =
      some ((s.withRoute route).entered (((hashStream route.streamName).toNat + t) % lookupSlotCount)
        s.routes.length) := by
    have := insertLoop_search hrange s.routes.length route.streamName lookupSlotCount
      (slotOf route.streamName)
    rwa [withRoute_named h.inRange, slotOf, hsearch] at this
  refine ⟨_, hloop, ⟨entered_inRange hrange (by simp [withRoute]), ?_⟩, rfl, ?_⟩
  · rw [entered_named hlast, withRoute_named h.inRange]
    have hnames : ((s.withRoute route).entered
        (((hashStream route.streamName).toNat + t) % lookupSlotCount)
        s.routes.length).streamNames.reverse = route.streamName :: s.streamNames.reverse := by
      simp [streamNames, withRoute, entered]
    rw [hnames]
    exact h.holds.insert_key ht hvacant hpass
  · by_cases hnil : s.routes = [] <;> simp [entered, withRoute, hnil]

/-- The target so far names the routes so far. -/
def Targeted (venue : PayloadVenue) (s : LiveSubscription) : Prop :=
  s.target = combinedTargetPrefix venue ++ [47].intercalate s.streamNames

theorem addRoutes_tabled {venue : PayloadVenue} (routes : List LiveRoute) {s : LiveSubscription}
    (h : s.Tabled) (htarget : s.Targeted venue)
    (hnodup : (s.streamNames ++ routes.map LiveRoute.streamName).Nodup)
    (hroom : s.routes.length + routes.length ≤ lookupSlotCount) :
    ∃ s', routes.foldlM addRoute s = some s' ∧ s'.Tabled ∧ s'.Targeted venue ∧
      s'.routes = s.routes ++ routes := by
  induction routes generalizing s with
  | nil => exact ⟨s, rfl, h, htarget, by simp⟩
  | cons route routes ih =>
      rw [List.map_cons, ← List.singleton_append, ← List.append_assoc] at hnodup
      have hnew : route.streamName ∉ s.streamNames := by
        have := (List.nodup_append.mp hnodup).1
        rw [List.nodup_append] at this
        intro hmem
        exact this.2.2 _ hmem _ (List.mem_singleton_self _) rfl
      simp only [List.length_cons] at hroom
      obtain ⟨s₁, hadd, htabled, hroutes, htargets⟩ := addRoute_tabled h hnew (by omega)
      have hnames : s₁.streamNames = s.streamNames ++ [route.streamName] := by
        simp [streamNames, hroutes]
      have htargeted : s₁.Targeted venue := by
        rw [Targeted, htargets, hnames, intercalate_concat]
        by_cases hnil : s.routes = []
        · simp [Targeted, streamNames, hnil] at htarget ⊢
          rw [htarget]
        · simp only [Targeted] at htarget
          simp [streamNames, hnil, htarget]
      obtain ⟨s', hfold, htabled', htargeted', hroutes'⟩ := ih htabled htargeted
        (by rwa [hnames]) (by simp only [hroutes, List.length_append, List.length_singleton]; omega)
      refine ⟨s', ?_, htabled', htargeted', ?_⟩
      · rw [List.foldlM_cons, hadd]
        exact hfold
      · rw [hroutes', hroutes, List.append_assoc, List.singleton_append]

/-! ## Lookups -/

theorem findRoute_of_mem {s : LiveSubscription} (h : s.Tabled) (hnodup : s.streamNames.Nodup)
    {route : LiveRoute} (hmem : route ∈ s.routes)
    (hlen : route.streamName.length ≤ maxEnvelopeStreamNameBytes) :
    s.findRoute route.streamName = { route := some route, error := .none } := by
  have hname : route.streamName ∈ s.streamNames.reverse := by
    simpa [streamNames] using ⟨route, hmem, rfl⟩
  obtain ⟨slot, hsearch⟩ := Probing.search_of_mem h.holds hname
  have hview := Probing.search_found lookupSlotCount hsearch
  rw [findRoute, if_neg (by omega), findLoop_search h.inRange, slotOf, hsearch]
  cases hslot : s.lookup slot with
  | none => simp [named, hslot] at hview
  | some i =>
      obtain ⟨found, hfound, hnamed⟩ := h.inRange.entry hslot
      rw [hnamed] at hview
      have heq : found = route :=
        List.inj_on_of_nodup_map hnodup (List.mem_of_getElem? hfound) hmem (Option.some.inj hview)
      simp [hslot, hfound, heq]

theorem findRoute_of_not_mem {s : LiveSubscription} (h : s.Tabled) {streamName : Bytes}
    (hmem : streamName ∉ s.streamNames) (hroom : s.routes.length < lookupSlotCount) :
    (s.findRoute streamName).route = none := by
  rw [findRoute]
  split
  · rfl
  · obtain ⟨t, -, hsearch, -, -⟩ := Probing.search_of_not_mem h.holds
      (show streamName ∉ s.streamNames.reverse by simpa using hmem)
      (show s.streamNames.reverse.length < lookupSlotCount by simpa [streamNames] using hroom)
    rw [findLoop_search h.inRange, slotOf, hsearch]

/-- A subscription for exactly the streams of the symbols. -/
structure Exact (venue : PayloadVenue) (symbols : List Bytes) (s : LiveSubscription) : Prop where
  names : s.streamNames = streamNamesOf symbols
  count : s.routes.length = symbols.length * streamsPerSymbol
  distinct : s.streamNames.Nodup
  target : s.target = combinedTargetPrefix venue ++ [47].intercalate s.streamNames
  size : checkedCombinedTargetSize (combinedTargetPrefix venue).length symbols =
    .ok s.target.length
  found : ∀ route ∈ s.routes,
    s.findRoute route.streamName = { route := some route, error := .none }
  unknown : ∀ streamName, (∀ route ∈ s.routes, route.streamName ≠ streamName) →
    (s.findRoute streamName).route = none

theorem create_exact {symbols : List Bytes} (h : validateSymbolSet symbols = .none)
    (venue : PayloadVenue) : ∃ s, create venue symbols = .ok s ∧ s.Exact venue symbols := by
  have hset := symbolSet_of_validate h
  have hnames := routesOf_names symbols
  have hcount : (routesOf symbols).length = symbols.length * streamsPerSymbol := by
    rw [← streamNamesOf_length, ← hnames, List.length_map]
  have hroom : symbols.length * streamsPerSymbol < lookupSlotCount :=
    (Nat.mul_le_mul_right streamsPerSymbol hset.bounded).trans_lt (by decide)
  let initial : LiveSubscription :=
    { venue := venue, target := combinedTargetPrefix venue, symbols := symbols }
  have hinitial : initial.Tabled := by
    refine ⟨by simp [InRange, initial], ?_⟩
    exact Probing.Holds.empty (fun _ => rfl)
  obtain ⟨s, hfold, htabled, htargeted, hroutes⟩ := addRoutes_tabled (routesOf symbols) hinitial
    (show initial.Targeted venue by simp [Targeted, initial, streamNames])
    (by simpa [initial, streamNames, hnames] using streamNamesOf_nodup hset)
    (by simpa [initial, hcount] using hroom.le)
  have hroutes' : s.routes = routesOf symbols := by simpa [initial] using hroutes
  have hstream : s.streamNames = streamNamesOf symbols := by rw [streamNames, hroutes', hnames]
  have hlimit := targetBytes_le hset venue
  have hlength : s.target.length = (combinedTargetPrefix venue).length +
      ((streamNamesOf symbols).map List.length).sum + ((streamNamesOf symbols).length - 1) := by
    rw [htargeted, List.length_append, intercalate_length, hstream, Nat.add_assoc]
  have hsize : checkedCombinedTargetSize (combinedTargetPrefix venue).length symbols =
      .ok s.target.length := by
    rw [hlength]
    have : maxCombinedTargetBytes ≤ sizeMaximum := by decide
    exact checkedCombinedTargetSize_ok hset (hlimit.trans this)
  refine ⟨s, ?_, hstream, by rw [hroutes', hcount], ?_, htargeted, hsize, ?_, ?_⟩
  · have hcreated : (routesOf symbols).foldlM addRoute
        { venue := venue, target := combinedTargetPrefix venue, symbols := symbols } = some s := hfold
    rw [create, if_neg (by simp [h])]
    simp only [hsize, hcreated, ne_eq, not_true_eq_false, ↓reduceIte]
    rw [if_neg (by omega)]
  · rw [hstream]
    exact streamNamesOf_nodup hset
  · intro route hroute
    have hmem : route.streamName ∈ streamNamesOf symbols := by
      rw [← hstream]
      exact List.mem_map_of_mem hroute
    have hlen := streamNamesOf_length_le hset _ hmem
    have hnodup : s.streamNames.Nodup := by
      rw [hstream]
      exact streamNamesOf_nodup hset
    exact findRoute_of_mem htabled hnodup hroute (by rw [maxEnvelopeStreamNameBytes]; omega)
  · intro streamName hnone
    have hmem : streamName ∉ s.streamNames := by
      intro hmem
      obtain ⟨route, hroute, heq⟩ := List.mem_map.mp hmem
      exact hnone route hroute heq
    exact findRoute_of_not_mem htabled hmem (by rw [hroutes', hcount]; exact hroom)

theorem exact_of_create {venue : PayloadVenue} {symbols : List Bytes} {s : LiveSubscription}
    (h : create venue symbols = .ok s) : s.Exact venue symbols := by
  have hvalid : validateSymbolSet symbols = .none := by
    by_contra hne
    rw [create, if_pos hne] at h
    cases h
  obtain ⟨s', hcreate, hexact⟩ := create_exact hvalid venue
  rw [h] at hcreate
  obtain rfl := Except.ok.inj hcreate
  exact hexact

end LiveSubscription

/-! ## Accepted command lines -/

namespace CommandLine

theorem parseSymbols_valid {value : Bytes} {symbols : List Bytes}
    (h : parseSymbols value = some symbols) : validateSymbolSet symbols = .none := by
  simp only [parseSymbols, Option.bind_eq_bind, Option.bind_eq_some_iff] at h
  obtain ⟨parsed, -, hparsed⟩ := h
  split at hparsed
  · rename_i hvalid
    obtain rfl := Option.some.inj hparsed
    exact hvalid
  · cases hparsed

/-- The symbols have been validated once the option was seen. -/
def Validated (state : State) : Prop :=
  state.symbolsSeen = true → validateSymbolSet state.options.symbols = .none

theorem venueOption_validated {state next : State} {value : Bytes} {index : Nat}
    (hstate : Validated state) (h : venueOption state value index = .ok next) : Validated next := by
  simp only [venueOption] at h
  split at h
  · obtain rfl := Except.ok.inj h
    exact hstate
  split at h
  · obtain rfl := Except.ok.inj h
    exact hstate
  · cases h

theorem symbolsOption_validated {state next : State} {value : Bytes} {index : Nat}
    (h : symbolsOption state value index = .ok next) : Validated next := by
  unfold symbolsOption at h
  split at h
  · cases h
  · rename_i symbols hsymbols
    obtain rfl := Except.ok.inj h
    exact fun _ => parseSymbols_valid hsymbols

theorem durationOption_validated {state next : State} {value : Bytes} {index : Nat}
    (hstate : Validated state) (h : durationOption state value index = .ok next) :
    Validated next := by
  unfold durationOption at h
  split at h
  · cases h
  split at h
  · cases h
  · obtain rfl := Except.ok.inj h
    exact hstate

theorem replayOption_validated {state next : State} {value : Bytes} {index : Nat}
    (hstate : Validated state) (h : replayOption state value index = .ok next) :
    Validated next := by
  unfold replayOption at h
  split at h
  · cases h
  split at h
  · cases h
  · obtain rfl := Except.ok.inj h
    exact hstate

theorem readArgument_validated {argv : List (Option Bytes)} {state next : State} {index last : Nat}
    (hstate : Validated state) (h : readArgument argv state index = .ok (next, last)) :
    Validated next := by
  unfold readArgument at h
  split at h
  · cases h
  · split at h
    · split at h
      · cases h
      · obtain ⟨rfl, -⟩ := Prod.ext_iff.mp (Except.ok.inj h)
        exact hstate
    split at h
    · simp only [bind_eq_ok, Prod.exists] at h
      obtain ⟨value, index', -, next', hvenue, hnext⟩ := h
      obtain ⟨rfl, -⟩ := Prod.ext_iff.mp (Except.ok.inj hnext)
      exact venueOption_validated hstate hvenue
    split at h
    · simp only [bind_eq_ok, Prod.exists] at h
      obtain ⟨value, index', -, next', hsymbols, hnext⟩ := h
      obtain ⟨rfl, -⟩ := Prod.ext_iff.mp (Except.ok.inj hnext)
      exact symbolsOption_validated hsymbols
    split at h
    · simp only [bind_eq_ok, Prod.exists] at h
      obtain ⟨value, index', -, next', hduration, hnext⟩ := h
      obtain ⟨rfl, -⟩ := Prod.ext_iff.mp (Except.ok.inj hnext)
      exact durationOption_validated hstate hduration
    split at h
    · simp only [bind_eq_ok, Prod.exists] at h
      obtain ⟨value, index', -, next', houtput, hnext⟩ := h
      obtain ⟨rfl, -⟩ := Prod.ext_iff.mp (Except.ok.inj hnext)
      obtain rfl := Except.ok.inj houtput
      exact hstate
    split at h
    · simp only [bind_eq_ok, Prod.exists] at h
      obtain ⟨value, index', -, next', hreplay, hnext⟩ := h
      obtain ⟨rfl, -⟩ := Prod.ext_iff.mp (Except.ok.inj hnext)
      exact replayOption_validated hstate hreplay
    · cases h

theorem readArguments_validated {argv : List (Option Bytes)} (remaining : Nat) {index : Nat}
    {state final : State} (hstate : Validated state)
    (h : readArguments argv remaining index state = .ok final) : Validated final := by
  induction remaining generalizing index state with
  | zero =>
      obtain rfl := Except.ok.inj h
      exact hstate
  | succ remaining ih =>
      unfold readArguments at h
      split at h
      · obtain rfl := Except.ok.inj h
        exact hstate
      · simp only [bind_eq_ok, Prod.exists] at h
        obtain ⟨next, last, hread, hrest⟩ := h
        exact ih (readArgument_validated hstate hread) hrest

theorem finish_live {argc : Nat} {state : State} {options : CommandLineOptions}
    (h : finish argc state = .ok options) (hmode : options.mode = .liveCapture) :
    state.symbolsSeen = true ∧ options.symbols = state.options.symbols := by
  unfold finish at h
  split at h
  · split at h
    · cases h
    · obtain rfl := Except.ok.inj h
      cases hmode
  split at h
  · split at h
    · cases h
    split at h
    · cases h
    · obtain rfl := Except.ok.inj h
      cases hmode
  split at h
  · cases h
  split at h
  · cases h
  · rename_i hseen
    obtain rfl := Except.ok.inj h
    simp only [Bool.or_eq_true, Bool.not_eq_true', not_or, Bool.not_eq_false] at hseen
    exact ⟨hseen.2, rfl⟩

end CommandLine

/-- The symbols of a live command line are a valid set. -/
theorem parseCommandLine_symbols {argv : List (Option Bytes)} {options : CommandLineOptions}
    (h : parseCommandLine argv = .ok options) (hmode : options.mode = .liveCapture) :
    validateSymbolSet options.symbols = .none := by
  unfold parseCommandLine at h
  split at h
  · cases h
  · obtain ⟨state, hread, hfinish⟩ := bind_eq_ok.mp h
    obtain ⟨hseen, hsymbols⟩ := CommandLine.finish_live hfinish hmode
    rw [hsymbols]
    exact CommandLine.readArguments_validated _ (by simp [CommandLine.Validated]) hread hseen

/-- Subscribing is total and exact, for every valid symbol set and so for every
live command line. -/
theorem subscription_total_exact :
    (∀ venue symbols, validateSymbolSet symbols = .none →
      ∃ s, LiveSubscription.create venue symbols = .ok s ∧ s.Exact venue symbols) ∧
    (∀ argv options, parseCommandLine argv = .ok options → options.mode = .liveCapture →
      ∃ s, LiveSubscription.create options.venue options.symbols = .ok s ∧
        s.Exact options.venue options.symbols) := by
  constructor
  · intro venue symbols hvalid
    exact LiveSubscription.create_exact hvalid venue
  · intro argv options hparse hmode
    exact LiveSubscription.create_exact (parseCommandLine_symbols hparse hmode) options.venue

theorem subscription_total_exact_sample :
    (∃ s, LiveSubscription.create .usdm [ascii "BTCUSDT", ascii "ETHUSDT"] = .ok s ∧
      s.Exact .usdm [ascii "BTCUSDT", ascii "ETHUSDT"]) ∧
    (∃ options s, parseCommandLine
        [some (ascii "capture"), some (ascii "--venue"), some (ascii "spot"),
          some (ascii "--symbols"), some (ascii "btcusdt,ethusdt")] = .ok options ∧
      LiveSubscription.create options.venue options.symbols = .ok s ∧
      s.Exact options.venue options.symbols) := by
  constructor
  · exact subscription_total_exact.1 .usdm [ascii "BTCUSDT", ascii "ETHUSDT"] (by decide +kernel)
  · have hparse : parseCommandLine
        [some (ascii "capture"), some (ascii "--venue"), some (ascii "spot"),
          some (ascii "--symbols"), some (ascii "btcusdt,ethusdt")] =
        .ok { mode := .liveCapture, venue := .spot,
              symbols := [ascii "BTCUSDT", ascii "ETHUSDT"] } := by decide +kernel
    obtain ⟨s, hs⟩ := subscription_total_exact.2 _ _ hparse rfl
    exact ⟨_, s, hparse, hs⟩

end MarketCapture
