import MarketCapture.Payload.SymbolIdentity
import Mathlib.Tactic

/-! # Subscriptions and routes

Three streams per configured symbol, found by name in an open-addressing table of
256 slots. A route that is found belongs to one of the configured symbols.
-/

namespace MarketCapture

def streamsPerSymbol : Nat := 3
def maxDerivedStreams : Nat := maxConfiguredSymbols * streamsPerSymbol
def maxCombinedTargetBytes : Nat := 8192
def maxEnvelopeStreamNameBytes : Nat := 128
def lookupSlotCount : Nat := 256
def sizeMaximum : Nat := 2 ^ 64 - 1

inductive SubscriptionErrorCode where
  | invalidSymbols
  | streamCountExceeded
  | targetSizeOverflow
  | targetTooLarge
  | routeTableFailure
  deriving DecidableEq, Repr

structure LiveRoute where
  streamName : Bytes
  normalizedSymbol : Bytes
  symbolIndex : Nat
  streamKind : StreamKind
  deriving DecidableEq, Repr

inductive RouteLookupError where
  | none | unknownStream | streamNameTooLong
  deriving DecidableEq, Repr

structure RouteLookupResult where
  route : Option LiveRoute := none
  error : RouteLookupError := .unknownStream
  deriving DecidableEq, Repr

def RouteLookupResult.success (r : RouteLookupResult) : Bool :=
  r.route.isSome && decide (r.error = .none)

/-- The routes, and the table from slots to route indices. -/
structure LiveSubscription where
  venue : PayloadVenue
  target : Bytes
  symbols : List Bytes
  routes : List LiveRoute := []
  lookup : Nat → Option Nat := fun _ => none

def combinedTargetPrefix : PayloadVenue → Bytes
  | .spot => ascii "/stream?streams="
  | .usdm => ascii "/public/stream?streams="

/-- The suffix of each stream of a symbol with its kind, in subscription order. -/
def streamSuffixes : List (Bytes × StreamKind) :=
  [(ascii "@depth@100ms", .depthDiff), (ascii "@depth5@100ms", .depth5), (ascii "@trade", .trade)]

def hashStream (stream : Bytes) : UInt64 :=
  stream.foldl (fun hash byte => (hash ^^^ byte.toUInt64) * 1099511628211) 14695981039346656037

def lowercaseSymbol (normalizedSymbol : Bytes) : Bytes :=
  normalizedSymbol.map fun b => if 65 ≤ b.toNat ∧ b.toNat ≤ 90 then b - 65 + 97 else b

/-! ## The size of the target -/

def checkedAdd (total increment : Nat) : Option Nat :=
  if increment > sizeMaximum - total then none else some (total + increment)

def addStreamSizes (symbol : Bytes) (total : Nat) : Option Nat :=
  streamSuffixes.foldlM (fun total suffix => do
    let total ← checkedAdd total symbol.length
    checkedAdd total suffix.1.length) total

def checkedCombinedTargetSize (targetPrefixBytes : Nat) (symbols : List Bytes) :
    Except SubscriptionErrorCode Nat :=
  if symbols.length = 0 ∨ symbols.length > maxConfiguredSymbols then .error .invalidSymbols
  else if symbols.length > sizeMaximum / streamsPerSymbol then .error .streamCountExceeded
  else if symbols.length * streamsPerSymbol > maxDerivedStreams then .error .streamCountExceeded
  else
    let total : Option Nat := do
      let total ← symbols.foldlM (fun total symbol => addStreamSizes symbol total) targetPrefixBytes
      checkedAdd total (symbols.length * streamsPerSymbol - 1)
    match total with
    | none => .error .targetSizeOverflow
    | some bytes => .ok bytes

namespace LiveSubscription

/-! ## The route table -/

def slotOf (stream : Bytes) : Nat := (hashStream stream).toNat % lookupSlotCount

/-- The probe loop of `find_route`. -/
def findLoop (s : LiveSubscription) (streamName : Bytes) : Nat → Nat → RouteLookupResult
  | 0, _ => {}
  | probes + 1, slot =>
      match s.lookup slot with
      | none => {}
      | some routeIndex =>
          match s.routes[routeIndex]? with
          | none => {}
          | some route =>
              if route.streamName = streamName then { route := some route, error := .none }
              else findLoop s streamName probes ((slot + 1) % lookupSlotCount)

def findRoute (s : LiveSubscription) (streamName : Bytes) : RouteLookupResult :=
  if streamName.length > maxEnvelopeStreamNameBytes then
    { route := none, error := .streamNameTooLong }
  else findLoop s streamName lookupSlotCount (slotOf streamName)

/-- The probe loop of `insert_route` for the route at an index. -/
def insertLoop (s : LiveSubscription) (routeIndex : Nat) (streamName : Bytes) :
    Nat → Nat → Option LiveSubscription
  | 0, _ => none
  | probes + 1, slot =>
      match s.lookup slot with
      | none => some { s with lookup := Function.update s.lookup slot (some routeIndex) }
      | some other =>
          if (s.routes[other]?).map LiveRoute.streamName = some streamName then none
          else insertLoop s routeIndex streamName probes ((slot + 1) % lookupSlotCount)

/-- Append a route to the target and the routes, and enter it in the table. -/
def addRoute (s : LiveSubscription) (route : LiveRoute) : Option LiveSubscription :=
  let routeIndex := s.routes.length
  let target := if routeIndex ≠ 0 then s.target ++ [47] else s.target
  insertLoop { s with target := target ++ route.streamName, routes := s.routes ++ [route] }
    routeIndex route.streamName lookupSlotCount (slotOf route.streamName)

def symbolRoutes (index : Nat) (symbol : Bytes) : List LiveRoute :=
  streamSuffixes.map fun suffix =>
    { streamName := lowercaseSymbol symbol ++ suffix.1, normalizedSymbol := symbol,
      symbolIndex := index, streamKind := suffix.2 }

/-- All routes in the order of the two loops of `create`. -/
def routesOf (symbols : List Bytes) : List LiveRoute :=
  symbols.zipIdx.flatMap fun p => symbolRoutes p.2 p.1

def create (venue : PayloadVenue) (symbols : List Bytes) :
    Except SubscriptionErrorCode LiveSubscription :=
  if validateSymbolSet symbols ≠ .none then .error .invalidSymbols
  else
    match checkedCombinedTargetSize (combinedTargetPrefix venue).length symbols with
    | .error e => .error e
    | .ok bytes =>
        if bytes > maxCombinedTargetBytes then .error .targetTooLarge
        else
          match (routesOf symbols).foldlM addRoute
              { venue := venue, target := combinedTargetPrefix venue, symbols := symbols } with
          | none => .error .routeTableFailure
          | some subscription =>
              if subscription.target.length ≠ bytes then .error .routeTableFailure
              else .ok subscription

/-! ## Routes belong to symbols -/

/-- Every route names the symbol at its index. -/
def Routed (s : LiveSubscription) : Prop :=
  ∀ route ∈ s.routes, s.symbols[route.symbolIndex]? = some route.normalizedSymbol

theorem insertLoop_fields {s s' : LiveSubscription} {routeIndex : Nat} {streamName : Bytes}
    (probes : Nat) {slot : Nat} (h : insertLoop s routeIndex streamName probes slot = some s') :
    s'.venue = s.venue ∧ s'.symbols = s.symbols ∧ s'.routes = s.routes := by
  induction probes generalizing slot with
  | zero => simp [insertLoop] at h
  | succ probes ih =>
      unfold insertLoop at h
      split at h
      · obtain rfl := Option.some.inj h
        exact ⟨rfl, rfl, rfl⟩
      · split at h
        · cases h
        · exact ih h

theorem addRoute_fields {s s' : LiveSubscription} {route : LiveRoute}
    (h : s.addRoute route = some s') :
    s'.venue = s.venue ∧ s'.symbols = s.symbols ∧ s'.routes = s.routes ++ [route] :=
  insertLoop_fields _ h

theorem addRoutes_fields (routes : List LiveRoute) {s s' : LiveSubscription}
    (h : routes.foldlM addRoute s = some s') :
    s'.venue = s.venue ∧ s'.symbols = s.symbols ∧ s'.routes = s.routes ++ routes := by
  induction routes generalizing s with
  | nil =>
      obtain rfl := Option.some.inj h
      simp
  | cons route routes ih =>
      rw [List.foldlM_cons, Option.bind_eq_bind, Option.bind_eq_some_iff] at h
      obtain ⟨s₁, h₁, h₂⟩ := h
      obtain ⟨hv₁, hs₁, hr₁⟩ := addRoute_fields h₁
      obtain ⟨hv₂, hs₂, hr₂⟩ := ih h₂
      exact ⟨hv₂.trans hv₁, hs₂.trans hs₁, by rw [hr₂, hr₁]; simp⟩

theorem validateFrom_normalized {seen symbols : List Bytes} (h : validateFrom seen symbols = .none) :
    ∀ symbol ∈ symbols, isNormalizedSymbol symbol = true := by
  induction symbols generalizing seen with
  | nil => simp
  | cons current rest ih =>
      unfold validateFrom at h
      split at h
      · cases h
      · rename_i id hid
        split at h
        · intro symbol hs
          rcases List.mem_cons.mp hs with rfl | hs
          · exact (deriveInstrumentId_some hid).1
          · exact ih h symbol hs
        · contradiction

/-- A created subscription: its symbols are normalized and its routes name them. -/
theorem create_ok {venue : PayloadVenue} {symbols : List Bytes} {s : LiveSubscription}
    (h : create venue symbols = .ok s) :
    s.venue = venue ∧ s.symbols = symbols ∧ s.Routed ∧
      ∀ symbol ∈ s.symbols, isNormalizedSymbol symbol = true := by
  unfold create at h
  split at h
  · cases h
  · rename_i hvalid
    split at h
    · cases h
    · split at h
      · cases h
      · split at h
        · cases h
        · rename_i s₁ hfold
          split at h
          · cases h
          · obtain rfl := Except.ok.inj h
            obtain ⟨hv, hsym, hroutes⟩ := addRoutes_fields _ hfold
            refine ⟨hv, hsym, ?_, ?_⟩
            · intro route hroute
              rw [hroutes, List.nil_append, routesOf, List.mem_flatMap] at hroute
              obtain ⟨⟨symbol, index⟩, hmem, hsuffix⟩ := hroute
              obtain ⟨suffix, -, rfl⟩ := List.mem_map.mp hsuffix
              rw [hsym]
              exact List.mem_zipIdx_iff_getElem?.mp hmem
            · rw [hsym]
              simp only [ne_eq, not_not] at hvalid
              unfold validateSymbolSet at hvalid
              split at hvalid
              · cases hvalid
              · split at hvalid
                · cases hvalid
                · exact validateFrom_normalized hvalid

theorem findLoop_mem {s : LiveSubscription} {streamName : Bytes} {route : LiveRoute} (probes : Nat)
    {slot : Nat} (h : (s.findLoop streamName probes slot).route = some route) :
    route ∈ s.routes := by
  induction probes generalizing slot with
  | zero => simp [findLoop] at h
  | succ probes ih =>
      unfold findLoop at h
      split at h
      · cases h
      · split at h
        · cases h
        · rename_i found hfound
          split at h
          · obtain rfl := Option.some.inj h
            exact List.mem_of_getElem? hfound
          · exact ih h

theorem findRoute_mem {s : LiveSubscription} {streamName : Bytes} {route : LiveRoute}
    (h : (s.findRoute streamName).route = some route) : route ∈ s.routes := by
  unfold findRoute at h
  split at h
  · cases h
  · exact findLoop_mem _ h

end LiveSubscription

end MarketCapture
