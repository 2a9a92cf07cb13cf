import MarketCapture.Book.Sequencing

/-! # Runs of one book

A run is a sequence of refreshes, differential events and invalidations on one
book, labelled with what each call returned. Events come from a parser. Along
every run the representation invariant holds and no assertion fails; on USD-M the
differential events applied since the last applied refresh form a chain.
-/

namespace MarketCapture

open Transition Simdjson

inductive BookCall where
  | refresh (event : SpotDepthEvent)
  | diff (event : SpotDepthEvent)
  | invalidate

/-- The event of a call came out of a parser of the venue. -/
def BookCall.Accepted (venue : PayloadVenue) : BookCall → Prop
  | .refresh event => SpotPayloadParser.Accepts venue .depth5 event
  | .diff event => SpotPayloadParser.Accepts venue .depthDiff event
  | .invalidate => True

def SpotBook.call (b : SpotBook) : BookCall → Option (Option BookApplyResult × SpotBook)
  | .refresh event => (b.applyRefresh event).map fun r => (some r.1, r.2)
  | .diff event => (b.applyDiff event).map fun r => (some r.1, r.2)
  | .invalidate => some (none, b.invalidate)

def UsdMBook.call (b : UsdMBook) : BookCall → Option (Option BookApplyResult × UsdMBook)
  | .refresh event => (b.applyRefresh event).map fun r => (some r.1, r.2)
  | .diff event => (b.applyDiff event).map fun r => (some r.1, r.2)
  | .invalidate => some (none, b.invalidate)

/-- A call and what it returned. -/
structure BookLabel where
  call : BookCall
  result : Option BookApplyResult

/-- The runs of a book from its initial state. -/
def bookSystem {β : Type} (venue : PayloadVenue)
    (call : β → BookCall → Option (Option BookApplyResult × β)) (initial : β) :
    System β BookLabel where
  init b := b = initial
  step b label b' := label.call.Accepted venue ∧ call b label.call = some (label.result, b')

/-- The labels and the final state of a list of calls. -/
def runCalls {β : Type} (call : β → BookCall → Option (Option BookApplyResult × β)) :
    List BookCall → β → Option (List BookLabel × β)
  | [], b => some ([], b)
  | c :: cs, b => do
      let (result, b') ← call b c
      let (labels, b'') ← runCalls call cs b'
      return (⟨c, result⟩ :: labels, b'')

theorem runCalls_exec {β : Type} {venue : PayloadVenue}
    {call : β → BookCall → Option (Option BookApplyResult × β)} {initial : β}
    (calls : List BookCall) {b b' : β} {labels : List BookLabel}
    (hacc : ∀ c ∈ calls, c.Accepted venue) (h : runCalls call calls b = some (labels, b')) :
    Exec (bookSystem venue call initial) b labels b' := by
  induction calls generalizing b labels with
  | nil =>
      obtain ⟨rfl, rfl⟩ := Prod.mk.inj (Option.some.inj h)
      exact .nil _
  | cons c cs ih =>
      simp only [runCalls, Option.bind_eq_bind, Option.bind_eq_some_iff] at h
      obtain ⟨⟨result, b₁⟩, hcall, ⟨labels', b₂⟩, hrest, heq⟩ := h
      obtain ⟨rfl, rfl⟩ := Prod.mk.inj (Option.some.inj heq)
      exact Exec.cons ⟨hacc c (by simp), hcall⟩ (ih (fun c' hc' => hacc c' (by simp [hc'])) hrest)

def spotRuns : System SpotBook BookLabel := bookSystem .spot SpotBook.call {}

def usdmRuns : System UsdMBook BookLabel := bookSystem .usdm UsdMBook.call {}

/-! ## The representation invariant along runs -/

/-- An accepted call returns, and keeps the invariant. -/
theorem SpotBook.call_ok {b : SpotBook} (h : BookOk b.book) {call : BookCall}
    (hc : call.Accepted .spot) :
    ∃ result b', b.call call = some (result, b') ∧ BookOk b'.book := by
  cases call with
  | refresh d =>
      obtain ⟨result, b', heq, hout⟩ := b.applyRefresh_outcome (SpotPayloadParser.Accepts.refresh hc)
      exact ⟨some result, b', by simp [SpotBook.call, heq], hout.ok h⟩
  | diff d =>
      obtain ⟨result, b', heq, hout, _⟩ := applyDiff_outcome h (SpotPayloadParser.Accepts.diff hc)
      exact ⟨some result, b', by simp [SpotBook.call, heq], hout.ok h⟩
  | invalidate => exact ⟨_, _, rfl, h.invalidate⟩

theorem UsdMBook.call_ok {b : UsdMBook} (h : BookOk b.book) {call : BookCall}
    (hc : call.Accepted .usdm) :
    ∃ result b', b.call call = some (result, b') ∧ BookOk b'.book := by
  cases call with
  | refresh d =>
      obtain ⟨result, b', heq, hout, _⟩ :=
        b.applyRefresh_outcome (SpotPayloadParser.Accepts.refresh hc)
      exact ⟨some result, b', by simp [UsdMBook.call, heq], hout.ok h⟩
  | diff d =>
      obtain ⟨result, b', heq, hout⟩ := applyDiff_outcome h (SpotPayloadParser.Accepts.diff hc)
      exact ⟨some result, b', by simp [UsdMBook.call, heq], hout.core.ok h⟩
  | invalidate => exact ⟨_, _, rfl, h.invalidate⟩

theorem spotRuns_ok {b : SpotBook} (h : Reachable spotRuns b) : BookOk b.book := by
  refine Reachable.invariant (P := fun b => BookOk b.book) ?_ ?_ h
  · rintro b rfl
    exact BookOk.initial
  · rintro b label b' hb ⟨hacc, hcall⟩
    obtain ⟨result, b'', heq, hok⟩ := SpotBook.call_ok hb hacc
    rw [hcall] at heq
    obtain ⟨-, rfl⟩ := Prod.mk.inj (Option.some.inj heq)
    exact hok

theorem usdmRuns_ok {b : UsdMBook} (h : Reachable usdmRuns b) : BookOk b.book := by
  refine Reachable.invariant (P := fun b => BookOk b.book) ?_ ?_ h
  · rintro b rfl
    exact BookOk.initial
  · rintro b label b' hb ⟨hacc, hcall⟩
    obtain ⟨result, b'', heq, hok⟩ := UsdMBook.call_ok hb hacc
    rw [hcall] at heq
    obtain ⟨-, rfl⟩ := Prod.mk.inj (Option.some.inj heq)
    exact hok

/-! ## What a label says happened -/

namespace BookLabel

def status (l : BookLabel) : Option BookApplyStatus := l.result.map BookApplyResult.status

/-- The refresh the call applied, if it applied one. -/
def appliedRefresh (l : BookLabel) : Option SpotDepthEvent :=
  match l.call with
  | .refresh event => if l.status = some .appliedRefresh then some event else none
  | _ => none

/-- The differential event the call applied, if it applied one. -/
def appliedDiff (l : BookLabel) : Option SpotDepthEvent :=
  match l.call with
  | .diff event => if l.status = some .appliedDiff then some event else none
  | _ => none

/-- The call invalidated the book, by request or as its outcome. -/
def invalidates (l : BookLabel) : Bool :=
  match l.call with
  | .invalidate => true
  | _ => decide (l.status = some .sequenceGap) || decide (l.status = some .crossedBook)

/-- Neither a new refresh nor an invalidation. -/
def quiet (l : BookLabel) : Bool := l.appliedRefresh.isNone && !l.invalidates

end BookLabel

/-! ## The USD-M chain -/

/-- Differential events applied one after the other onto a refresh: the first
bridges it, each further one names its predecessor, and final ids increase. -/
structure Chained (refreshId : UInt64) (ds : List SpotDepthEvent) : Prop where
  bridge : ∀ d ∈ ds.head?, d.firstUpdateId.toNat ≤ refreshId.toNat + 1 ∧
    refreshId.toNat + 1 ≤ d.finalUpdateId.toNat
  linked : ds.IsChain (fun a b => b.previousUpdateId = a.finalUpdateId)
  increasing : (refreshId :: ds.map SpotDepthEvent.finalUpdateId).IsChain (· < ·)

/-- The final id of the last event of a chain, or of the refresh under it. -/
def chainEnd (refreshId : UInt64) (ds : List SpotDepthEvent) : UInt64 :=
  (ds.getLast?.map SpotDepthEvent.finalUpdateId).getD refreshId

theorem Chained.nil (refreshId : UInt64) : Chained refreshId [] where
  bridge := by simp
  linked := by simp
  increasing := by simp

@[simp] theorem chainEnd_concat (refreshId : UInt64) (ds : List SpotDepthEvent)
    (d : SpotDepthEvent) : chainEnd refreshId (ds ++ [d]) = d.finalUpdateId := by
  simp [chainEnd]

theorem Chained.concat {refreshId : UInt64} {ds : List SpotDepthEvent} {d : SpotDepthEvent}
    (h : Chained refreshId ds) (hlt : chainEnd refreshId ds < d.finalUpdateId)
    (hfirst : ds = [] → d.firstUpdateId.toNat ≤ refreshId.toNat + 1)
    (hnext : ds ≠ [] → d.previousUpdateId = chainEnd refreshId ds) :
    Chained refreshId (ds ++ [d]) := by
  rcases List.eq_nil_or_concat ds with rfl | ⟨init, last, rfl⟩
  · have hlt' : refreshId < d.finalUpdateId := by simpa [chainEnd] using hlt
    refine ⟨?_, by simp, by simpa using hlt'⟩
    simpa using ⟨hfirst rfl, UInt64.lt_iff_toNat_lt.mp hlt'⟩
  · simp only [List.concat_eq_append] at *
    rw [chainEnd_concat] at hlt hnext
    refine ⟨?_, ?_, ?_⟩
    · have hhead : ((init ++ [last]) ++ [d]).head? = (init ++ [last]).head? := by
        cases init <;> rfl
      rw [hhead]
      exact h.bridge
    · rw [List.isChain_append]
      refine ⟨h.linked, by simp, ?_⟩
      simpa using hnext (by simp)
    · rw [List.map_append, ← List.cons_append, List.isChain_append]
      refine ⟨h.increasing, by simp, ?_⟩
      simpa [List.getLast?_cons] using hlt

/-- The cursors of a USD-M book agree with the events applied since a refresh. -/
structure ChainOk (b : UsdMBook) (refreshId : UInt64) (ds : List SpotDepthEvent) : Prop where
  valid : b.book.valid = true
  chained : Chained refreshId ds
  last : b.book.lastUpdateId = chainEnd refreshId ds
  established : b.diffChainEstablished = true ↔ ds ≠ []

/-- The state of a USD-M book against the labels of its run. -/
structure UsdMBook.Tracks (labels : List BookLabel) (b : UsdMBook) : Prop where
  book : BookOk b.book
  cursor : b.diffChainEstablished = true →
    b.book.valid = true ∧ b.previousDiffUpdateId = b.book.lastUpdateId
  chain : ∀ pre l mid refresh, labels = pre ++ l :: mid → l.appliedRefresh = some refresh →
    mid.all BookLabel.quiet = true →
    ChainOk b refresh.finalUpdateId (mid.filterMap BookLabel.appliedDiff)
  synced : b.book.valid = true → ∃ pre l mid refresh, labels = pre ++ l :: mid ∧
    l.appliedRefresh = some refresh ∧ mid.all BookLabel.quiet = true

/-- Where a label lies in an extended run: it is the new one or an old one. -/
theorem concat_eq_split {α : Type} {labels pre mid : List α} {a l : α}
    (h : labels ++ [a] = pre ++ l :: mid) :
    (mid = [] ∧ l = a ∧ labels = pre) ∨ ∃ mid', mid = mid' ++ [a] ∧ labels = pre ++ l :: mid' := by
  rcases List.eq_nil_or_concat mid with rfl | ⟨mid', x, rfl⟩
  · obtain ⟨h₁, h₂⟩ := List.append_inj' h rfl
    exact .inl ⟨rfl, (List.cons.inj h₂).1.symm, h₁⟩
  · rw [List.concat_eq_append, ← List.cons_append, ← List.append_assoc] at h
    obtain ⟨h₁, h₂⟩ := List.append_inj' h rfl
    refine .inr ⟨mid', ?_, h₁⟩
    rw [List.concat_eq_append, (List.cons.inj h₂).1]

namespace UsdMBook.Tracks

variable {labels : List BookLabel} {b b' : UsdMBook} {l : BookLabel}

theorem initial : Tracks [] {} where
  book := BookOk.initial
  cursor := by simp
  chain := by simp
  synced := by simp

/-- A call that changed nothing. -/
theorem unchanged (h : Tracks labels b) (hquiet : l.quiet = true) (hdiff : l.appliedDiff = none) :
    Tracks (labels ++ [l]) b where
  book := h.book
  cursor := h.cursor
  chain := by
    intro pre l' mid refresh heq hr hmid
    rcases concat_eq_split heq with ⟨-, rfl, -⟩ | ⟨mid', rfl, rfl⟩
    · simp [BookLabel.quiet, hr] at hquiet
    · rw [List.all_append, Bool.and_eq_true] at hmid
      rw [List.filterMap_append]
      simpa [hdiff] using h.chain pre l' mid' refresh rfl hr hmid.1
  synced := by
    intro hv
    obtain ⟨pre, l', mid, refresh, rfl, hr, hmid⟩ := h.synced hv
    exact ⟨pre, l', mid ++ [l], refresh, by simp, hr, by simp [hmid, hquiet]⟩

theorem refreshed (hok : BookOk b'.book) (hv : b'.book.valid = true)
    (hchain : b'.diffChainEstablished = false) {d : SpotDepthEvent}
    (hlast : b'.book.lastUpdateId = d.finalUpdateId) (hl : l.appliedRefresh = some d) :
    Tracks (labels ++ [l]) b' where
  book := hok
  cursor := by simp [hchain]
  chain := by
    intro pre l' mid refresh heq hr hmid
    rcases concat_eq_split heq with ⟨rfl, rfl, -⟩ | ⟨mid', rfl, -⟩
    · obtain rfl := Option.some.inj (hl.symm.trans hr)
      exact ⟨hv, Chained.nil _, by simpa [chainEnd] using hlast, by simp [hchain]⟩
    · simp [BookLabel.quiet, hl] at hmid
  synced := fun _ => ⟨labels, l, [], d, rfl, hl, rfl⟩

theorem invalidated (h : Tracks labels b) (hl : l.invalidates = true)
    (hr : l.appliedRefresh = none) : Tracks (labels ++ [l]) b.invalidate where
  book := h.book.invalidate
  cursor := by simp [UsdMBook.invalidate]
  chain := by
    intro pre l' mid refresh heq hr' hmid
    rcases concat_eq_split heq with ⟨-, rfl, -⟩ | ⟨mid', rfl, -⟩
    · simp [hr] at hr'
    · simp [BookLabel.quiet, hl] at hmid
  synced := by simp [UsdMBook.invalidate, TopFiveBook.invalidate]

theorem extended (h : Tracks labels b) {d : SpotDepthEvent} (hl : l.appliedDiff = some d)
    (hquiet : l.quiet = true) (hout : DiffOutcome b.book d .appliedDiff b'.book)
    (hcont : b.Continues d) (hchain : b'.diffChainEstablished = true)
    (hprev : b'.previousDiffUpdateId = d.finalUpdateId) : Tracks (labels ++ [l]) b' := by
  cases hout with
  | applied hv hlt hok hlast hv' =>
      refine ⟨hok, fun _ => ⟨hv', hprev.trans hlast.symm⟩, ?_, ?_⟩
      · intro pre l' mid refresh heq hr hmid
        rcases concat_eq_split heq with ⟨-, rfl, -⟩ | ⟨mid', rfl, rfl⟩
        · simp [BookLabel.quiet, hr] at hquiet
        · rw [List.all_append, Bool.and_eq_true] at hmid
          have hc := h.chain pre l' mid' refresh rfl hr hmid.1
          simp only [List.filterMap_append, List.filterMap_cons, hl, List.filterMap_nil]
          refine ⟨hv', hc.chained.concat (hc.last ▸ hlt) ?_ ?_, by simpa using hlast, by simp [hchain]⟩
          · intro hnil
            have hno : b.diffChainEstablished = false := by
              simpa [hnil] using hc.established
            simpa [Continues, hno, hc.last, hnil, chainEnd] using hcont
          · intro hne
            have hyes := hc.established.mpr hne
            rw [← hc.last, ← (h.cursor hyes).2]
            simpa [Continues, hyes] using hcont
      · intro _
        obtain ⟨pre, l', mid, refresh, rfl, hr, hmid⟩ := h.synced hv
        exact ⟨pre, l', mid ++ [l], refresh, by simp, hr, by simp [hmid, hquiet]⟩

theorem step (h : Tracks labels b) (hs : usdmRuns.step b l b') : Tracks (labels ++ [l]) b' := by
  obtain ⟨hacc, hcall⟩ := hs
  obtain ⟨call, result⟩ := l
  cases call with
  | refresh d =>
      obtain ⟨r, b₁, heq, hout, happ, hstale⟩ :=
        b.applyRefresh_outcome (SpotPayloadParser.Accepts.refresh hacc)
      simp only [UsdMBook.call, heq, Option.map_some, Option.some.injEq, Prod.mk.injEq] at hcall
      obtain ⟨rfl, rfl⟩ := hcall
      obtain ⟨status, side⟩ := r
      generalize hcore : b₁.book = core at hout
      cases hout with
      | stale _ _ =>
          rw [hstale rfl]
          exact h.unchanged (by simp [BookLabel.quiet, BookLabel.appliedRefresh, BookLabel.invalidates,
            BookLabel.status]) rfl
      | applied hok hlast hv =>
          subst hcore
          exact refreshed hok hv (happ rfl) hlast
            (by simp [BookLabel.appliedRefresh, BookLabel.status])
  | diff d =>
      obtain ⟨r, b₁, heq, hout⟩ := applyDiff_outcome h.book (SpotPayloadParser.Accepts.diff hacc)
      simp only [UsdMBook.call, heq, Option.map_some, Option.some.injEq, Prod.mk.injEq] at hcall
      obtain ⟨rfl, rfl⟩ := hcall
      obtain ⟨status, side⟩ := r
      cases hout with
      | ignored _ => exact h.unchanged rfl rfl
      | stale _ _ _ => exact h.unchanged rfl rfl
      | gap _ => exact h.invalidated rfl rfl
      | crossed _ => exact h.invalidated rfl rfl
      | applied hout hcont hchain hprev => exact h.extended rfl rfl hout hcont hchain hprev
  | invalidate =>
      simp only [UsdMBook.call, Option.some.injEq, Prod.mk.injEq] at hcall
      obtain ⟨rfl, rfl⟩ := hcall
      exact h.invalidated rfl rfl

end UsdMBook.Tracks

theorem usdmRuns_tracks {labels : List BookLabel} {b : UsdMBook}
    (h : Exec usdmRuns {} labels b) : b.Tracks labels :=
  h.history (P := fun labels b => b.Tracks labels) UsdMBook.Tracks.initial
    fun _ _ _ _ htracks hstep => htracks.step hstep

/-- An applied differential event found the book synchronised. -/
theorem usdmRuns_step_valid {b b' : UsdMBook} {l : BookLabel} (hb : BookOk b.book)
    (hs : usdmRuns.step b l b') (hl : l.appliedDiff ≠ none) : b.book.valid = true := by
  obtain ⟨hacc, hcall⟩ := hs
  obtain ⟨call, result⟩ := l
  cases call with
  | diff d =>
      obtain ⟨r, b₁, heq, hout⟩ := UsdMBook.applyDiff_outcome hb (SpotPayloadParser.Accepts.diff hacc)
      simp only [UsdMBook.call, heq, Option.map_some, Option.some.injEq, Prod.mk.injEq] at hcall
      obtain ⟨rfl, rfl⟩ := hcall
      obtain ⟨status, side⟩ := r
      cases hout with
      | applied hcore _ _ _ =>
          cases hcore with
          | applied hv _ _ _ _ => exact hv
      | _ => exact absurd rfl hl
  | refresh d => exact absurd rfl hl
  | invalidate => exact absurd rfl hl

/-- Post-bridge events of another chain reset the book. -/
theorem UsdMBook.Tracks.foreign_diff {labels : List BookLabel} {b : UsdMBook}
    (h : b.Tracks labels) {d : SpotDepthEvent} (hd : AcceptedDiff .usdm d)
    (hchain : b.diffChainEstablished = true)
    (hne : d.previousUpdateId ≠ b.previousDiffUpdateId) :
    b.applyDiff d = some (⟨.sequenceGap, rowSide d⟩, b.invalidate) := by
  unfold applyDiff
  rw [require_of (hd.previous rfl).1]
  simp [(h.cursor hchain).1, hchain, hne]

/-- With an established chain no event is found stale: the parser has checked that
its final id is above the previous one it names. -/
theorem UsdMBook.Tracks.chain_not_stale {labels : List BookLabel} {b b' : UsdMBook}
    (h : b.Tracks labels) {d : SpotDepthEvent} (hd : AcceptedDiff .usdm d)
    (hchain : b.diffChainEstablished = true) {result : BookApplyResult}
    (heq : b.applyDiff d = some (result, b')) : result.status ≠ .staleDiff := by
  obtain ⟨r, b₁, heq', hout⟩ := applyDiff_outcome h.book hd
  obtain ⟨rfl, rfl⟩ := Prod.mk.inj (Option.some.inj (heq.symm.trans heq'))
  obtain ⟨status, side⟩ := result
  cases hout with
  | stale _ hle hprev =>
      have hpu := (hd.previous rfl).2
      rw [hprev hchain, (h.cursor hchain).2] at hpu
      exact absurd hle (UInt64.not_le.mpr hpu)
  | _ => simp

/-- The USD-M diff chain, from any run of the book. -/
theorem usdm_diff_chain {labels : List BookLabel} {b : UsdMBook}
    (h : Exec usdmRuns {} labels b) :
    (b.diffChainEstablished = true →
      b.book.valid = true ∧ b.previousDiffUpdateId = b.book.lastUpdateId) ∧
    (∀ pre l mid refresh, labels = pre ++ l :: mid → l.appliedRefresh = some refresh →
      mid.all BookLabel.quiet = true →
      Chained refresh.finalUpdateId (mid.filterMap BookLabel.appliedDiff) ∧
      b.book.lastUpdateId =
        chainEnd refresh.finalUpdateId (mid.filterMap BookLabel.appliedDiff)) ∧
    (∀ pre l, labels = pre ++ [l] → l.appliedDiff ≠ none → ∃ pre' l' mid refresh,
      pre = pre' ++ l' :: mid ∧ l'.appliedRefresh = some refresh ∧
      mid.all BookLabel.quiet = true) ∧
    (∀ d, SpotPayloadParser.Accepts .usdm .depthDiff d → b.diffChainEstablished = true →
      (d.previousUpdateId ≠ b.previousDiffUpdateId → ∃ result b',
        b.applyDiff d = some (result, b') ∧ result.status = .sequenceGap ∧
        b'.book.valid = false ∧ b'.diffChainEstablished = false ∧ b'.previousDiffUpdateId = 0) ∧
      ∀ result b', b.applyDiff d = some (result, b') → result.status ≠ .staleDiff) := by
  have ht := usdmRuns_tracks h
  refine ⟨ht.cursor, ?_, ?_, ?_⟩
  · intro pre l mid refresh heq hr hmid
    have hc := ht.chain pre l mid refresh heq hr hmid
    exact ⟨hc.chained, hc.last⟩
  · rintro pre l rfl hl
    obtain ⟨b₀, hexec, hstep⟩ := h.concat_inv
    have ht₀ := usdmRuns_tracks hexec
    exact ht₀.synced (usdmRuns_step_valid ht₀.book hstep hl)
  · intro d hd hchain
    refine ⟨fun hne => ?_, fun result b' => ht.chain_not_stale hd.diff hchain⟩
    exact ⟨_, _, ht.foreign_diff hd.diff hchain hne, rfl, rfl, rfl, rfl⟩

/-! ### A chain of two events -/

section Sample

private def usdmDepth (first final previous : UInt64) (bids asks : List (String × String)) :
    Compact :=
  .object [(ascii "e", .string (ascii "depthUpdate")), (ascii "E", .number 1), (ascii "T", .number 1),
    (ascii "s", .string (ascii "BTCUSDT")), (ascii "U", .number first), (ascii "u", .number final),
    (ascii "pu", .number previous), (ascii "b", .levels bids), (ascii "a", .levels asks)]

private def usdmRefresh : Compact := usdmDepth 9 10 8 [("100", "1")] [("101", "2")]

private def usdmBridge : Compact := usdmDepth 9 12 8 [("100", "0"), ("99.5", "3")] []

private def usdmNext : Compact := usdmDepth 13 15 12 [] [("101", "0"), ("102", "4")]

private def usdmLibrary : Library := .ofDocuments [usdmRefresh, usdmBridge, usdmNext]

/-- The event the parser reads from a document. -/
def parsedEvent (json : Library) (venue : PayloadVenue) (kind : StreamKind) (document : Compact) :
    SpotDepthEvent :=
  (({} : SpotPayloadParser).parse json venue kind (ascii "BTCUSDT") document.text).1.event.depth

theorem parsedEvent_accepts {json : Library} {venue : PayloadVenue} {kind : StreamKind}
    {document : Compact} (h : (({} : SpotPayloadParser).parse json venue kind (ascii "BTCUSDT")
      document.text).1.error = .none) :
    SpotPayloadParser.Accepts venue kind (parsedEvent json venue kind document) :=
  ⟨{}, json, _, _, h, rfl⟩

def usdmCalls : List BookCall :=
  [.refresh (parsedEvent usdmLibrary .usdm .depth5 usdmRefresh),
    .diff (parsedEvent usdmLibrary .usdm .depthDiff usdmBridge),
    .diff (parsedEvent usdmLibrary .usdm .depthDiff usdmNext)]

theorem usdmCalls_accepted : ∀ call ∈ usdmCalls, call.Accepted .usdm := by
  intro call hcall
  simp only [usdmCalls, List.mem_cons, List.not_mem_nil, or_false] at hcall
  rcases hcall with rfl | rfl | rfl
  · exact parsedEvent_accepts (by decide +kernel)
  · exact parsedEvent_accepts (by decide +kernel)
  · exact parsedEvent_accepts (by decide +kernel)

theorem usdm_diff_chain_sample : ∃ labels b, Exec usdmRuns {} labels b ∧
    labels.map BookLabel.status = [some .appliedRefresh, some .appliedDiff, some .appliedDiff] ∧
    b.diffChainEstablished = true ∧ b.book.valid = true ∧
    b.previousDiffUpdateId = b.book.lastUpdateId ∧ b.book.lastUpdateId = 15 := by
  have hrun : (runCalls UsdMBook.call usdmCalls {}).map
      (fun r => (r.1.map BookLabel.status, r.2.diffChainEstablished, r.2.book.lastUpdateId)) =
      some ([some .appliedRefresh, some .appliedDiff, some .appliedDiff], true, 15) := by
    decide +kernel
  obtain ⟨⟨labels, b⟩, hcalls, heq⟩ := Option.map_eq_some_iff.mp hrun
  simp only [Prod.mk.injEq] at heq
  have hexec : Exec usdmRuns {} labels b := runCalls_exec usdmCalls usdmCalls_accepted hcalls
  have hcursor := (usdm_diff_chain hexec).1 heq.2.1
  exact ⟨labels, b, hexec, heq.1, heq.2.1, hcursor.1, hcursor.2, heq.2.2⟩

end Sample

end MarketCapture
