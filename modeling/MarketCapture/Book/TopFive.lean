import MarketCapture.Payload.Types

/-! # The top-five book

`TopFiveBookCore` and the two venue sequencers over it. A side is the array of
five levels and the number in use, changed in place by the loops of the source.
An assertion is an `Option`: `none` is a failed assert, and the proofs show that
none is reachable from accepted events.
-/

namespace MarketCapture

def visibleBookDepth : Nat := 5

structure BookLevel where
  price : Int := 0
  quantity : Int := 0
  deriving DecidableEq, Repr

inductive BookRowSide where
  | bid | ask | neutral
  deriving DecidableEq, Repr

inductive BookApplyStatus where
  | appliedRefresh
  | appliedDiff
  | staleRefresh
  | staleDiff
  | ignoredWhileInvalid
  | sequenceGap
  | crossedBook
  deriving DecidableEq, Repr

structure BookApplyResult where
  status : BookApplyStatus := .ignoredWhileInvalid
  side : BookRowSide := .neutral
  deriving DecidableEq, Repr

def BookApplyResult.emitsSnapshot (r : BookApplyResult) : Bool :=
  decide (r.status = .appliedRefresh) || decide (r.status = .appliedDiff)

def betterPrice (side : BookSide) (lhs rhs : Int) : Bool :=
  match side with
  | .bid => decide (lhs > rhs)
  | .ask => decide (lhs < rhs)

def rowSide (event : SpotDepthEvent) : BookRowSide :=
  let hasBids := decide (event.bids.length ≠ 0)
  let hasAsks := decide (event.asks.length ≠ 0)
  if hasBids = hasAsks then .neutral else if hasBids then .bid else .ask

/-- An assert of the source. -/
def require (p : Prop) [Decidable p] : Option Unit := if p then some () else none

/-! ## One side -/

structure Side where
  levels : Vector BookLevel 5 := Vector.replicate 5 {}
  size : Nat := 0
  deriving DecidableEq, Repr

namespace Side

def slot (s : Side) (i : Nat) : BookLevel := s.levels[i]?.getD {}

def write (s : Side) (i : Nat) (level : BookLevel) : Side :=
  { s with levels := s.levels.setIfInBounds i level }

/-- The levels in use, best first: the `BookSideView` of the source. -/
def view (s : Side) : List BookLevel := (List.range s.size).map s.slot

def findPriceFrom (s : Side) (price : Int) : Nat → Nat → Nat
  | 0, index => index
  | remaining + 1, index =>
      if (s.slot index).price = price then index else findPriceFrom s price remaining (index + 1)

/-- `find_price`: the index of the price, or the size. -/
def findPrice (s : Side) (price : Int) : Nat := findPriceFrom s price s.size 0

/-- Move `count` levels one place towards the front, beginning at `destination`. -/
def shiftDown (s : Side) : Nat → Nat → Side
  | 0, _ => s
  | count + 1, destination =>
      shiftDown (s.write destination (s.slot (destination + 1))) count (destination + 1)

def eraseLevel (s : Side) (index : Nat) : Option Side := do
  require (index < s.size)
  let shifted := s.shiftDown (s.size - 1 - index) index
  return ({ shifted with size := s.size - 1 }).write (s.size - 1) {}

/-- The first position whose price is not better than the new one. -/
def insertPosition (s : Side) (side : BookSide) (price : Int) : Nat → Nat → Nat
  | 0, position => position
  | remaining + 1, position =>
      if betterPrice side (s.slot position).price price then
        insertPosition s side price remaining (position + 1)
      else position

/-- Move `count` levels one place towards the back, ending at `destination`. -/
def shiftUp (s : Side) : Nat → Nat → Side
  | 0, _ => s
  | count + 1, destination =>
      shiftUp (s.write destination (s.slot (destination - 1))) count (destination - 1)

def insertLevel (s : Side) (side : BookSide) (level : BookLevel) : Side :=
  let position := s.insertPosition side level.price s.size 0
  if s.size = visibleBookDepth ∧ position = visibleBookDepth then s
  else
    let destinationLimit := if s.size < visibleBookDepth then s.size else visibleBookDepth - 1
    let placed := (s.shiftUp (destinationLimit - position) destinationLimit).write position level
    if s.size < visibleBookDepth then { placed with size := s.size + 1 } else placed

def refreshLoop (side : BookSide) : List LevelUpdate → Side → Option Side
  | [], result => some result
  | u :: us, result => do
      require (u.side = side)
      require (0 < u.price)
      require (0 < u.quantity)
      refreshLoop side us { result.write result.size ⟨u.price, u.quantity⟩ with
        size := result.size + 1 }

def makeRefreshSide (updates : List LevelUpdate) (side : BookSide) : Option Side := do
  require (updates.length ≤ visibleBookDepth)
  refreshLoop side updates {}

/-- The first pass of `apply_updates`: prices the side held at the start. -/
def applyKnown (original : Side) (side : BookSide) : List LevelUpdate → Side → Option Side
  | [], candidate => some candidate
  | u :: us, candidate => do
      require (u.side = side)
      require (0 < u.price)
      require (0 ≤ u.quantity)
      if original.findPrice u.price = original.size then applyKnown original side us candidate
      else
        let index := candidate.findPrice u.price
        require (index < candidate.size)
        if u.quantity = 0 then
          let erased ← candidate.eraseLevel index
          applyKnown original side us erased
        else
          applyKnown original side us
            (candidate.write index { candidate.slot index with quantity := u.quantity })

/-- The second pass: positive updates of prices the side did not hold. -/
def applyNew (original : Side) (side : BookSide) : List LevelUpdate → Side → Side
  | [], candidate => candidate
  | u :: us, candidate =>
      if u.quantity = 0 ∨ original.findPrice u.price ≠ original.size then
        applyNew original side us candidate
      else applyNew original side us (candidate.insertLevel side ⟨u.price, u.quantity⟩)

def applyUpdates (original : Side) (updates : List LevelUpdate) (side : BookSide) :
    Option Side := do
  let candidate ← applyKnown original side updates original
  return applyNew original side updates candidate

end Side

def crossed (bids asks : Side) : Bool :=
  decide (bids.size ≠ 0) && decide (asks.size ≠ 0) &&
    decide ((bids.slot 0).price ≥ (asks.slot 0).price)

/-! ## The shared core -/

structure TopFiveBook where
  bids : Side := {}
  asks : Side := {}
  lastUpdateId : UInt64 := 0
  valid : Bool := false
  deriving DecidableEq, Repr

namespace TopFiveBook

def invalidate (b : TopFiveBook) : TopFiveBook := { b with valid := false }

def applyRefresh (b : TopFiveBook) (event : SpotDepthEvent) :
    Option (BookApplyResult × TopFiveBook) := do
  if b.valid && decide (event.finalUpdateId < b.lastUpdateId) then
    return (⟨.staleRefresh, .neutral⟩, b)
  else
    let candidateBids ← Side.makeRefreshSide event.bids .bid
    let candidateAsks ← Side.makeRefreshSide event.asks .ask
    require (crossed candidateBids candidateAsks = false)
    return (⟨.appliedRefresh, .neutral⟩,
      { bids := candidateBids, asks := candidateAsks, lastUpdateId := event.finalUpdateId,
        valid := true })

def applyAcceptedDiff (b : TopFiveBook) (event : SpotDepthEvent) :
    Option (BookApplyResult × TopFiveBook) := do
  let candidateBids ← b.bids.applyUpdates event.bids .bid
  let candidateAsks ← b.asks.applyUpdates event.asks .ask
  if crossed candidateBids candidateAsks then
    return (⟨.crossedBook, rowSide event⟩, b.invalidate)
  else
    return (⟨.appliedDiff, rowSide event⟩,
      { b with bids := candidateBids, asks := candidateAsks,
               lastUpdateId := event.finalUpdateId })

end TopFiveBook

/-! ## Spot -/

structure SpotBook where
  book : TopFiveBook := {}
  deriving DecidableEq, Repr

namespace SpotBook

def invalidate (b : SpotBook) : SpotBook := ⟨b.book.invalidate⟩

def applyRefresh (b : SpotBook) (event : SpotDepthEvent) : Option (BookApplyResult × SpotBook) := do
  let (result, book) ← b.book.applyRefresh event
  return (result, ⟨book⟩)

def applyDiff (b : SpotBook) (event : SpotDepthEvent) : Option (BookApplyResult × SpotBook) :=
  if !b.book.valid then some (⟨.ignoredWhileInvalid, rowSide event⟩, b)
  else if event.finalUpdateId ≤ b.book.lastUpdateId then some (⟨.staleDiff, rowSide event⟩, b)
  else
    -- the successor is formed in 64-bit arithmetic
    let nextUpdateId := b.book.lastUpdateId + 1
    if event.firstUpdateId > nextUpdateId then
      some (⟨.sequenceGap, rowSide event⟩, b.invalidate)
    else do
      let (result, book) ← b.book.applyAcceptedDiff event
      return (result, ⟨book⟩)

end SpotBook

/-! ## USD-M -/

structure UsdMBook where
  book : TopFiveBook := {}
  previousDiffUpdateId : UInt64 := 0
  diffChainEstablished : Bool := false
  deriving DecidableEq, Repr

namespace UsdMBook

def invalidate (b : UsdMBook) : UsdMBook :=
  { book := b.book.invalidate, previousDiffUpdateId := 0, diffChainEstablished := false }

def applyRefresh (b : UsdMBook) (event : SpotDepthEvent) : Option (BookApplyResult × UsdMBook) := do
  let (result, book) ← b.book.applyRefresh event
  if result.status = .appliedRefresh then
    return (result, { book := book, previousDiffUpdateId := 0, diffChainEstablished := false })
  else return (result, { b with book := book })

/-- The tail of `apply_diff` once the sequencer has let the event through. -/
def applySequenced (b : UsdMBook) (event : SpotDepthEvent) :
    Option (BookApplyResult × UsdMBook) := do
  let (result, book) ← b.book.applyAcceptedDiff event
  if result.status = .appliedDiff then
    return (result, { book := book, previousDiffUpdateId := event.finalUpdateId,
                      diffChainEstablished := true })
  else if result.status = .crossedBook then
    return (result, { book := book, previousDiffUpdateId := 0, diffChainEstablished := false })
  else return (result, { b with book := book })

def applyDiff (b : UsdMBook) (event : SpotDepthEvent) : Option (BookApplyResult × UsdMBook) := do
  require (event.hasPreviousUpdateId = true)
  if !b.book.valid then return (⟨.ignoredWhileInvalid, rowSide event⟩, b)
  else if b.diffChainEstablished then
    if event.previousUpdateId ≠ b.previousDiffUpdateId then
      return (⟨.sequenceGap, rowSide event⟩, b.invalidate)
    else if event.finalUpdateId ≤ b.book.lastUpdateId then
      return (⟨.staleDiff, rowSide event⟩, b)
    else b.applySequenced event
  else if event.finalUpdateId ≤ b.book.lastUpdateId then
    return (⟨.staleDiff, rowSide event⟩, b)
  else
    let nextUpdateId := b.book.lastUpdateId + 1
    if event.firstUpdateId > nextUpdateId then
      return (⟨.sequenceGap, rowSide event⟩, b.invalidate)
    else b.applySequenced event

end UsdMBook

end MarketCapture
