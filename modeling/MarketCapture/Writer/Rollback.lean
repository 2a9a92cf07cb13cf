import MarketCapture.Live.Routing
import MarketCapture.Writer.Opening

/-! # Opening is all or nothing

Whatever call fails, what the opening created is removed and what was there before
is untouched; every descriptor is closed once; and the error is that of the first
call that failed.
-/

namespace MarketCapture

open FileSystem

/-! ## The first failing call -/

/-- The path of a file of a target. -/
def OutputPlan.pathAt (plan : OutputPlan) (index : Nat) : CsvFileKind → Option Bytes
  | .marketData => (plan.targets[index]?).map OutputTarget.auditPath
  | .orderBook => (plan.targets[index]?).map OutputTarget.orderBookPath

/-- The error without what the cleanup added to it. -/
def OutputSetOpenError.primary (error : OutputSetOpenError) : OutputSetOpenError :=
  { error with
    fileError := error.fileError.map fun fileError => { fileError with cleanup := none }
    rollbackError := none }

/-- The failure of opening a file. -/
def openFailure (index : Nat) (kind : CsvFileKind) (path : Bytes) (code : FileSinkOpenErrorCode)
    (native : Int) : OutputSetOpenError :=
  { code := .fileSinkFailure, targetIndex := some index, fileKind := kind,
    fileError := some { code := code, nativeError := native }, path := path }

/-- The error is the one of this call. -/
def Blames (plan : OutputPlan) (error : OutputSetOpenError) : FileSystem.Call Bytes → Prop
  | .pathExists path (.error native) | .isDirectory path (.error native)
  | .isEmpty path (.error native) | .createDirectory path (.error native) =>
      error.primary = { code := .fileSystemFailure, nativeError := native, path := path }
  | .isDirectory path (.ok _) | .createDirectory path (.ok _) =>
      error.primary = { code := .invalidOutputDirectory, path := path }
  | .isEmpty path (.ok _) => error.primary = { code := .outputDirectoryNotEmpty, path := path }
  | .openExclusive path (.error native) => ∃ index kind, plan.pathAt index kind = some path ∧
      error.primary = openFailure index kind path .openFailed native
  | .allocate _ => ∃ index kind path, plan.pathAt index kind = some path ∧
      error.primary = openFailure index kind path .allocationFailure 0
  | .write path (some native) => ∃ index kind, plan.pathAt index kind = some path ∧
      error.primary = openFailure index kind path .writeFailed native
  | _ => False

/-- The rollback adds to the error without changing what it says. -/
theorem recordRollback_primary (error : OutputSetOpenError) (rollback : OutputRollbackError) :
    (error.recordRollback rollback).primary = error.primary := by
  unfold OutputSetOpenError.recordRollback
  split <;> rfl

theorem recordRemoval_primary (error : OutputSetOpenError) (operation : OutputRollbackOperation)
    (index : Option Nat) (kind : CsvFileKind) (removal : Removal) :
    (error.recordRemoval operation index kind removal).primary = error.primary := by
  unfold OutputSetOpenError.recordRemoval
  split
  · rfl
  · split
    · exact recordRollback_primary _ _
    · rfl

theorem recordClose_primary (error : OutputSetOpenError) (index : Nat) (kind : CsvFileKind)
    (closeError : Option FileSinkError) :
    (error.recordClose index kind closeError).primary = error.primary := by
  unfold OutputSetOpenError.recordClose
  split
  · rfl
  · exact recordRollback_primary _ _

theorem Blames.of_primary {plan : OutputPlan} {error error' : OutputSetOpenError}
    {call : FileSystem.Call Bytes}
    (h : Blames plan error call) (hprimary : error'.primary = error.primary) :
    Blames plan error' call := by
  unfold Blames at h ⊢
  split at h <;> simp_all

/-! ## Logs -/

/-- No removal was refused. -/
def Unrefused (w : FileOperations) : Prop := ∀ call ∈ w.system.calls, call.refused = false

/-- No call has failed. -/
def Clean (w : FileOperations) : Prop := w.system.calls.find? FileSystem.Call.failed = none

/-- The log grew by calls that tried to open these paths. -/
def Adds (w w' : FileOperations) (paths : List Bytes) : Prop :=
  ∃ more, w'.system.calls = w.system.calls ++ more ∧ more.filterMap FileSystem.Call.tried = paths

section Logs

variable {w w' w'' : FileOperations} {paths paths' : List Bytes} {call : FileSystem.Call Bytes}

theorem Adds.refl (w : FileOperations) : Adds w w [] := ⟨[], (List.append_nil _).symm, rfl⟩

theorem Adds.trans (h : Adds w w' paths) (h' : Adds w' w'' paths') : Adds w w'' (paths ++ paths') := by
  obtain ⟨more, hcalls, rfl⟩ := h
  obtain ⟨more', hcalls', rfl⟩ := h'
  exact ⟨more ++ more', by rw [hcalls', hcalls, List.append_assoc], List.filterMap_append⟩

theorem Adds.mem (h : Adds w w' paths) (hcall : call ∈ w.system.calls) : call ∈ w'.system.calls := by
  obtain ⟨more, hcalls, -⟩ := h
  rw [hcalls]
  exact List.mem_append_left _ hcall

theorem Unrefused.of_adds (h : Unrefused w') (hadds : Adds w w' paths) : Unrefused w :=
  fun _ hcall => h _ (hadds.mem hcall)

/-- The first failure stays the first. -/
theorem Adds.first (h : Adds w w' paths)
    (hfirst : w.system.calls.find? FileSystem.Call.failed = some call) :
    w'.system.calls.find? FileSystem.Call.failed = some call := by
  obtain ⟨more, hcalls, -⟩ := h
  rw [hcalls, List.find?_append, hfirst]
  rfl

theorem Clean.append {more : List (FileSystem.Call Bytes)} (h : Clean w)
    (hcalls : w'.system.calls = w.system.calls ++ more) :
    w'.system.calls.find? FileSystem.Call.failed = more.find? FileSystem.Call.failed := by
  rw [hcalls, List.find?_append, h]
  rfl

end Logs

/-! ## One file -/

section File

variable {base : List (Bytes × Entry Bytes)} {owned : List Bytes} {live : List Nat}
  {w : FileOperations} {path : Bytes} {d : Nat}

theorem removeFile_ledger
    (h : Ledger base owned live w.system)
    (hopened : ∃ d, .openExclusive path (.ok d) ∈ w.system.calls) :
    Adds w (w.removeFile path).2 [] ∧
      ∃ owned', Ledger base owned' live (w.removeFile path).2.system ∧
        (Unrefused (w.removeFile path).2 → owned' = without owned path) := by
  obtain ⟨hcalls, owned', hledger, hleft⟩ := h.remove hopened
  refine ⟨⟨_, hcalls, rfl⟩, owned', hledger, fun hunrefused => ?_⟩
  rcases hleft with ⟨native, hrefused⟩ | heq
  · have hcall : FileSystem.Call.remove path (.refused native) ∈
        (w.removeFile path).2.system.calls := by
      simp only [FileOperations.removeFile]
      rw [hcalls, hrefused]
      exact List.mem_append_right _ (List.mem_singleton_self _)
    cases hunrefused _ hcall
  · exact heq

/-- A file whose opening failed is closed and gone. -/
theorem abandon_ledger
    (h : Ledger base (path :: owned) (d :: live) w.system)
    (hopened : .openExclusive path (.ok d) ∈ w.system.calls) :
    Adds w (w.abandon d path).2 [] ∧
      ∃ owned', Ledger base owned' live (w.abandon d path).2.system ∧
        (Unrefused (w.abandon d path).2 → owned' = owned) := by
  have hclosed := h.close List.mem_cons_self
  rw [List.erase_cons_head] at hclosed
  have hadds : Adds w (w.closeDescriptor d).2 [] := ⟨_, rfl, rfl⟩
  obtain ⟨hremoved, owned', hledger, howned⟩ := removeFile_ledger hclosed ⟨d, hadds.mem hopened⟩
  refine ⟨hadds.trans hremoved, owned', hledger, fun hunrefused => ?_⟩
  rw [howned hunrefused, without_cons h.nodup]

/-- The header of a new file. -/
theorem writeHeader_ledger (header : Bytes)
    (h : Ledger base owned live w.system)
    (hopened : ∃ d, .openExclusive path (.ok d) ∈ w.system.calls) :
    (w.writeHeader path header).2.system.calls = w.system.calls ++
        [.write path ((w.writeHeader path header).1.1.map FileSinkError.nativeError)] ∧
      Ledger base owned live (w.writeHeader path header).2.system ∧
      (w.writeHeader path header).1.2.isOpen = true := by
  obtain ⟨error, sink, rest, heq, -, -, hopen, -⟩ :=
    BufferedCsvFileSink.writeAll_spec w.writes header { file := [] }
  refine ⟨rfl, h.write hopened _ _, ?_⟩
  simp only [FileOperations.writeHeader, heq]
  exact hopen

/-- The call that made the opening of a file fail. -/
def Cause (path : Bytes) (error : FileSinkOpenError) : FileSystem.Call Bytes → Prop
  | .openExclusive p (.error native) =>
      p = path ∧ error.code = .openFailed ∧ error.nativeError = native
  | .allocate _ => error.code = .allocationFailure ∧ error.nativeError = 0
  | .write p (some native) => p = path ∧ error.code = .writeFailed ∧ error.nativeError = native
  | _ => False

/-- A sink that was opened. -/
structure OpenSink.Fresh (sink : OpenSink) (name : Bytes) (w : FileOperations) : Prop where
  path : sink.path = name
  isOpen : sink.sink.isOpen = true
  opened : .openExclusive name (.ok sink.descriptor) ∈ w.system.calls

theorem openExclusive_outcome (kind : CsvFileKind) (h : Ledger base owned live w.system)
    (hclean : Clean w) (hpath : path ≠ []) :
    Adds w (w.openExclusive path kind).2 [path] ∧
      match (w.openExclusive path kind).1 with
      | .ok sink => sink.Fresh path (w.openExclusive path kind).2 ∧
          Clean (w.openExclusive path kind).2 ∧
          Ledger base (path :: owned) (sink.descriptor :: live) (w.openExclusive path kind).2.system
      | .error error =>
          (∃ call,
            (w.openExclusive path kind).2.system.calls.find? FileSystem.Call.failed = some call ∧
            Cause path error call) ∧
          (error.code ≠ .openFailed →
            path ∉ owned ∧ ∃ d, .openExclusive path (.ok d) ∈ (w.openExclusive path kind).2.system.calls) ∧
          ∃ owned', Ledger base owned' live (w.openExclusive path kind).2.system ∧
            (Unrefused (w.openExclusive path kind).2 → owned' = owned) := by
  have hempty : path.isEmpty = false := by simpa using hpath
  obtain ⟨hcalls, hopen⟩ := h.openExclusive path []
  unfold FileOperations.openExclusive
  rw [if_neg (by simp [hempty])]
  split
  · -- the exclusive open failed
    rename_i native system heq
    rw [heq] at hcalls hopen
    let w' : FileOperations := { w with system := system }
    have hfirst : w'.system.calls = w.system.calls ++ [.openExclusive path (.error native)] := hcalls
    refine ⟨⟨_, hfirst, rfl⟩, ⟨.openExclusive path (.error native), ?_, rfl, rfl, rfl⟩,
      fun hne => absurd rfl hne, owned, hopen, fun _ => rfl⟩
    exact (hclean.append hfirst).trans rfl
  · rename_i descriptor system heq
    rw [heq] at hcalls hopen
    have hnot := (List.nodup_cons.mp hopen.nodup).1
    obtain ⟨hallocated, hlog⟩ := hopen.allocate
    have hopened : .openExclusive path (.ok descriptor) ∈ system.allocate.2.calls := by
      rw [hlog, hcalls]
      simp
    split
    · -- no memory for the sink
      rename_i system' hnone
      rw [hnone] at hallocated hlog hopened
      let w' : FileOperations := { w with system := system' }
      have hfirst : w'.system.calls = w.system.calls ++
          [.openExclusive path (.ok descriptor), .allocate false] := by
        rw [show w'.system.calls = system.calls ++ [.allocate false] from hlog, hcalls,
          List.append_assoc]
        rfl
      have hadds : Adds w w' [path] := ⟨_, hfirst, rfl⟩
      obtain ⟨habandoned, owned', hledger, howned⟩ :=
        abandon_ledger (w := w') hallocated hopened
      refine ⟨hadds.trans habandoned, ⟨.allocate false, habandoned.first ?_, rfl, rfl⟩,
        fun _ => ⟨hnot, descriptor, habandoned.mem hopened⟩, owned', hledger, howned⟩
      exact (hclean.append hfirst).trans rfl
    · rename_i system' hsome
      rw [hsome] at hallocated hlog hopened
      let w' : FileOperations := { w with system := system' }
      obtain ⟨hwritten, hledger, hisOpen⟩ :=
        writeHeader_ledger (w := w') (headerFor kind) hallocated ⟨descriptor, hopened⟩
      have hfirst : (w'.writeHeader path (headerFor kind)).2.system.calls = w.system.calls ++
          [.openExclusive path (.ok descriptor), .allocate true,
            .write path ((w'.writeHeader path (headerFor kind)).1.1.map FileSinkError.nativeError)] := by
        rw [hwritten, show w'.system.calls = system.calls ++ [.allocate true] from hlog, hcalls]
        simp
      have hadds : Adds w (w'.writeHeader path (headerFor kind)).2 [path] := ⟨_, hfirst, rfl⟩
      have hstill : .openExclusive path (.ok descriptor) ∈
          (w'.writeHeader path (headerFor kind)).2.system.calls := by
        rw [hfirst]
        simp
      split
      · -- the header was not written in full
        rename_i error sink w'' hheader
        rw [hheader] at hfirst hadds hstill hledger
        obtain ⟨habandoned, owned', hleft, howned⟩ := abandon_ledger (w := w'') hledger hstill
        refine ⟨hadds.trans habandoned,
          ⟨.write path (some error.nativeError), habandoned.first ?_, rfl, rfl, rfl⟩,
          fun _ => ⟨hnot, descriptor, habandoned.mem hstill⟩, owned', hleft, howned⟩
        exact (hclean.append hfirst).trans rfl
      · rename_i sink w'' hheader
        rw [hheader] at hfirst hadds hstill hledger hisOpen
        exact ⟨hadds, ⟨rfl, hisOpen, hstill⟩, (hclean.append hfirst).trans rfl, hledger⟩

/-- Opening one file of a target, with the extra removal. -/
theorem openFile_outcome {plan : OutputPlan} {index : Nat} {kind : CsvFileKind}
    (h : Ledger base owned live w.system) (hclean : Clean w) (hpath : path ≠ [])
    (hplan : plan.pathAt index kind = some path) :
    Adds w (w.openFile index kind path).2 [path] ∧
      match (w.openFile index kind path).1 with
      | .ok sink => sink.Fresh path (w.openFile index kind path).2 ∧
          Clean (w.openFile index kind path).2 ∧
          Ledger base (path :: owned) (sink.descriptor :: live) (w.openFile index kind path).2.system
      | .error error =>
          (∃ call,
            (w.openFile index kind path).2.system.calls.find? FileSystem.Call.failed = some call ∧
            Blames plan error call) ∧
          ∃ owned', Ledger base owned' live (w.openFile index kind path).2.system ∧
            (Unrefused (w.openFile index kind path).2 → owned' = owned) := by
  obtain ⟨hadds, hresult⟩ := openExclusive_outcome kind h hclean hpath
  unfold FileOperations.openFile
  split
  · rename_i sink w' heq
    rw [heq] at hadds hresult
    exact ⟨hadds, hresult⟩
  · rename_i fileError w' heq
    rw [heq] at hadds hresult
    obtain ⟨⟨call, hfirst, hcause⟩, hopened, owned', hledger, howned⟩ := hresult
    have hblames : Blames plan
        { code := .fileSinkFailure, targetIndex := some index, fileKind := kind,
          fileError := some fileError, path := path } call := by
      unfold Cause at hcause
      split at hcause
      · obtain ⟨rfl, hcode, rfl⟩ := hcause
        exact ⟨index, kind, hplan, by simp [OutputSetOpenError.primary, openFailure, hcode]⟩
      · obtain ⟨hcode, hnative⟩ := hcause
        exact ⟨index, kind, path, hplan,
          by simp [OutputSetOpenError.primary, openFailure, hcode, hnative]⟩
      · obtain ⟨rfl, hcode, rfl⟩ := hcause
        exact ⟨index, kind, hplan, by simp [OutputSetOpenError.primary, openFailure, hcode]⟩
      · exact hcause.elim
    dsimp only
    split
    · rename_i hcode
      obtain ⟨hnot, hmade⟩ := hopened hcode
      obtain ⟨hremoved, owned'', hleft, howned'⟩ := removeFile_ledger hledger hmade
      refine ⟨hadds.trans hremoved, ⟨call, hremoved.first hfirst,
        hblames.of_primary (recordRemoval_primary _ _ _ _ _)⟩, owned'', hleft, fun hunrefused => ?_⟩
      rw [howned' hunrefused, howned (hunrefused.of_adds hremoved), without_of_not_mem hnot]
    · exact ⟨hadds, ⟨call, hfirst, hblames⟩, owned', hledger, howned⟩

end File

/-! ## One target -/

namespace OutputTarget

/-- The files of the target that were created. -/
def owned (t : OutputTarget) : List Bytes :=
  (if t.orderBookCreated then [t.orderBookPath] else []) ++
    (if t.auditCreated then [t.auditPath] else [])

/-- The descriptors of its sinks. -/
def live (t : OutputTarget) : List Nat :=
  t.orderBook.toList.map OpenSink.descriptor ++ t.audit.toList.map OpenSink.descriptor

/-- The files of the target, in the order they are opened. -/
def paths (mode : CsvOutputMode) (t : OutputTarget) : List Bytes :=
  if mode = .liveCapture then [t.auditPath, t.orderBookPath] else [t.orderBookPath]

/-- Nothing of the target is open yet. -/
structure Blank (t : OutputTarget) : Prop where
  audit : t.audit = none
  orderBook : t.orderBook = none
  auditCreated : t.auditCreated = false
  orderBookCreated : t.orderBookCreated = false

/-- The sinks are open and the created files were opened exclusively. -/
structure Holds (t : OutputTarget) (w : FileOperations) : Prop where
  audit : ∀ o ∈ t.audit, o.Fresh t.auditPath w
  orderBook : ∀ o ∈ t.orderBook, o.Fresh t.orderBookPath w
  auditOpened : t.auditCreated = true → ∃ d, .openExclusive t.auditPath (.ok d) ∈ w.system.calls
  orderBookOpened : t.orderBookCreated = true →
    ∃ d, .openExclusive t.orderBookPath (.ok d) ∈ w.system.calls

end OutputTarget

theorem OpenSink.Fresh.mono {sink : OpenSink} {path : Bytes} {w w' : FileOperations}
    {paths : List Bytes} (h : sink.Fresh path w) (hadds : Adds w w' paths) : sink.Fresh path w' :=
  ⟨h.path, h.isOpen, hadds.mem h.opened⟩

namespace OutputTarget

variable {t : OutputTarget} {w w' : FileOperations} {base : List (Bytes × Entry Bytes)}
  {own : List Bytes} {open_ : List Nat}

theorem Holds.mono {paths : List Bytes} (h : t.Holds w) (hadds : Adds w w' paths) : t.Holds w' where
  audit := fun o ho => (h.audit o ho).mono hadds
  orderBook := fun o ho => (h.orderBook o ho).mono hadds
  auditOpened := fun hc => by
    obtain ⟨d, hd⟩ := h.auditOpened hc
    exact ⟨d, hadds.mem hd⟩
  orderBookOpened := fun hc => by
    obtain ⟨d, hd⟩ := h.orderBookOpened hc
    exact ⟨d, hadds.mem hd⟩

theorem Blank.holds (h : t.Blank) (w : FileOperations) : t.Holds w where
  audit := by simp [h.audit]
  orderBook := by simp [h.orderBook]
  auditOpened := by simp [h.auditCreated]
  orderBookOpened := by simp [h.orderBookCreated]

theorem Blank.owned_nil (h : t.Blank) : t.owned = [] := by
  simp [owned, h.auditCreated, h.orderBookCreated]

theorem Blank.live_nil (h : t.Blank) : t.live = [] := by
  simp [live, h.audit, h.orderBook]

/-- The entries and descriptors are these and those from before. -/
def Stands (base : List (Bytes × Entry Bytes)) (own : List Bytes) (open_ : List Nat)
    (ownedNow : List Bytes) (liveNow : List Nat) (w : FileOperations) : Prop :=
  ∃ own', Ledger base own' (liveNow ++ open_) w.system ∧ (Unrefused w → own'.Perm (ownedNow ++ own))

theorem Blank.stands (h : t.Blank) (hledger : Ledger base own open_ w.system) :
    Stands base own open_ t.owned t.live w := by
  refine ⟨own, ?_, fun _ => ?_⟩
  · rw [h.live_nil]
    exact hledger
  · rw [h.owned_nil]
    exact .refl _

theorem openAudit_outcome {plan : OutputPlan} {index : Nat} (h : Ledger base own open_ w.system)
    (hclean : Clean w) (hblank : t.Blank) (hpath : t.auditPath ≠ [])
    (hplan : plan.pathAt index .marketData = some t.auditPath) :
    Adds w (t.openAudit index w).2 [t.auditPath] ∧ (t.openAudit index w).1.2.Holds (t.openAudit index w).2 ∧
      (t.openAudit index w).1.2.orderBookPath = t.orderBookPath ∧
      (t.openAudit index w).1.2.orderBook = none ∧
      (t.openAudit index w).1.2.orderBookCreated = false ∧
      Stands base own open_ (t.openAudit index w).1.2.owned (t.openAudit index w).1.2.live
        (t.openAudit index w).2 ∧
      match (t.openAudit index w).1.1 with
      | none => Clean (t.openAudit index w).2
      | some error => ∃ call,
          (t.openAudit index w).2.system.calls.find? FileSystem.Call.failed = some call ∧
          Blames plan error call := by
  obtain ⟨hadds, hresult⟩ := openFile_outcome h hclean hpath hplan
  unfold openAudit
  split
  · rename_i error w' heq
    rw [heq] at hadds hresult
    obtain ⟨hfirst, own', hledger, hown⟩ := hresult
    refine ⟨hadds, hblank.holds w', rfl, hblank.orderBook, hblank.orderBookCreated,
      ⟨own', ?_, fun hunrefused => ?_⟩, hfirst⟩
    · rw [hblank.live_nil]
      exact hledger
    · rw [hblank.owned_nil, hown hunrefused]
      exact .refl _
  · rename_i sink w' heq
    rw [heq] at hadds hresult
    obtain ⟨hfresh, hclean', hledger⟩ := hresult
    refine ⟨hadds, ⟨?_, ?_, fun _ => ⟨_, hfresh.opened⟩, ?_⟩, rfl, hblank.orderBook,
      hblank.orderBookCreated, ⟨t.auditPath :: own, ?_, fun _ => ?_⟩, hclean'⟩
    · intro o ho
      obtain rfl : sink = o := Option.some.inj ho
      exact hfresh
    · simp [hblank.orderBook]
    · simp [hblank.orderBookCreated]
    · simp only [live, hblank.orderBook]
      exact hledger
    · simp [owned, hblank.orderBookCreated]

theorem openOrderBook_outcome {plan : OutputPlan} {index : Nat} (hholds : t.Holds w)
    (hnone : t.orderBook = none) (hcreated : t.orderBookCreated = false)
    (hstands : Stands base own open_ t.owned t.live w) (hclean : Clean w)
    (hpath : t.orderBookPath ≠ []) (hplan : plan.pathAt index .orderBook = some t.orderBookPath) :
    Adds w (t.openOrderBook index w).2 [t.orderBookPath] ∧
      (t.openOrderBook index w).1.2.Holds (t.openOrderBook index w).2 ∧
      Stands base own open_ (t.openOrderBook index w).1.2.owned (t.openOrderBook index w).1.2.live
        (t.openOrderBook index w).2 ∧
      match (t.openOrderBook index w).1.1 with
      | none => Clean (t.openOrderBook index w).2
      | some error => ∃ call,
          (t.openOrderBook index w).2.system.calls.find? FileSystem.Call.failed = some call ∧
          Blames plan error call := by
  obtain ⟨own₀, hledger₀, hown₀⟩ := hstands
  obtain ⟨hadds, hresult⟩ := openFile_outcome hledger₀ hclean hpath hplan
  unfold openOrderBook
  split
  · rename_i error w' heq
    rw [heq] at hadds hresult
    obtain ⟨hfirst, own', hledger, hown⟩ := hresult
    refine ⟨hadds, hholds.mono hadds, ⟨own', hledger, fun hunrefused => ?_⟩, hfirst⟩
    rw [hown hunrefused]
    exact hown₀ (hunrefused.of_adds hadds)
  · rename_i sink w' heq
    rw [heq] at hadds hresult
    obtain ⟨hfresh, hclean', hledger⟩ := hresult
    have hbefore := hholds.mono hadds
    refine ⟨hadds, ⟨hbefore.audit, ?_, hbefore.auditOpened, fun _ => ⟨_, hfresh.opened⟩⟩,
      ⟨t.orderBookPath :: own₀, ?_, fun hunrefused => ?_⟩, hclean'⟩
    · intro o ho
      obtain rfl : sink = o := Option.some.inj ho
      exact hfresh
    · simp only [live, hnone, Option.toList_none, List.map_nil, List.nil_append] at hledger
      exact hledger
    · have hperm := hown₀ (hunrefused.of_adds hadds)
      simp only [owned, hcreated, Bool.false_eq_true, ↓reduceIte, List.nil_append] at hperm
      simp only [owned, ↓reduceIte, List.cons_append, List.nil_append]
      exact hperm.cons _

/-- The files of a target: all of them, or those before the first that failed. -/
theorem openFiles_outcome {plan : OutputPlan} {index : Nat} (mode : CsvOutputMode)
    (h : Ledger base own open_ w.system) (hclean : Clean w) (hblank : t.Blank)
    (hpaths : ∀ p ∈ t.paths mode, p ≠ [])
    (haudit : plan.pathAt index .marketData = some t.auditPath)
    (hbook : plan.pathAt index .orderBook = some t.orderBookPath) :
    ∃ tries, tries <+: t.paths mode ∧ Adds w (t.openFiles mode index w).2 tries ∧
      (t.openFiles mode index w).1.2.Holds (t.openFiles mode index w).2 ∧
      Stands base own open_ (t.openFiles mode index w).1.2.owned (t.openFiles mode index w).1.2.live
        (t.openFiles mode index w).2 ∧
      match (t.openFiles mode index w).1.1 with
      | none => Clean (t.openFiles mode index w).2 ∧ tries = t.paths mode
      | some error => ∃ call,
          (t.openFiles mode index w).2.system.calls.find? FileSystem.Call.failed = some call ∧
          Blames plan error call := by
  unfold openFiles
  split
  · rename_i hmode
    have hpathsLive : t.paths mode = [t.auditPath, t.orderBookPath] := if_pos hmode
    rw [hpathsLive] at hpaths ⊢
    obtain ⟨hadds, hholds, hpath, hnone, hcreated, hstands, hresult⟩ :=
      openAudit_outcome h hclean hblank (hpaths _ (by simp)) haudit
    split
    · rename_i error t' w' heq
      rw [heq] at hadds hholds hstands hresult
      exact ⟨[t.auditPath], ⟨[t.orderBookPath], rfl⟩, hadds, hholds, hstands, hresult⟩
    · rename_i t' w' heq
      rw [heq] at hadds hholds hpath hnone hcreated hstands hresult
      dsimp only at hadds hholds hpath hnone hcreated hstands hresult
      obtain ⟨hadds', hholds', hstands', hresult'⟩ :=
        openOrderBook_outcome hholds hnone hcreated hstands hresult
          (hpath ▸ hpaths _ (by simp)) (hpath ▸ hbook)
      rw [hpath] at hadds'
      refine ⟨[t.auditPath, t.orderBookPath], List.prefix_rfl, hadds.trans hadds', hholds', hstands', ?_⟩
      split <;> simp_all
  · rename_i hmode
    have hpathsReplay : t.paths mode = [t.orderBookPath] := if_neg hmode
    rw [hpathsReplay] at hpaths ⊢
    obtain ⟨hadds, hholds, hstands, hresult⟩ :=
      openOrderBook_outcome (hblank.holds w) hblank.orderBook hblank.orderBookCreated
        (hblank.stands h) hclean (hpaths _ (by simp)) hbook
    refine ⟨[t.orderBookPath], List.prefix_rfl, hadds, hholds, hstands, ?_⟩
    split <;> simp_all

end OutputTarget

/-! ## Undoing a target -/

theorem BufferedCsvFileSink.close_isOpen {s : BufferedCsvFileSink} (h : s.isOpen = true)
    (answers : FileAnswers) : (close answers s).1.2.isOpen = false := by
  have hlatched : ∀ (t : BufferedCsvFileSink) (code : FileSinkErrorCode) (native : Int),
      (t.latchError code native).2.isOpen = t.isOpen := by
    intro t code native
    obtain ⟨error, heq⟩ := latchError_some t code native
    rw [heq]
  simp only [close, h, Bool.not_true, Bool.false_eq_true, ↓reduceIte]
  split
  · rfl
  · rw [hlatched]

section Undoing

variable {w : FileOperations} {base : List (Bytes × Entry Bytes)} {own : List Bytes}
  {open_ : List Nat} {path : Bytes}

theorem OpenSink.Fresh.close_ledger {o : OpenSink} (ho : o.Fresh path w)
    (h : Ledger base own (o.descriptor :: open_) w.system) :
    Adds w (o.close w).2.2 [] ∧ Ledger base own open_ (o.close w).2.2.system ∧
      (o.close w).2.1.sink.isOpen = false := by
  have hclosed := BufferedCsvFileSink.close_isOpen ho.isOpen
  unfold OpenSink.close
  simp only [ho.isOpen, Bool.not_true, Bool.false_eq_true, ↓reduceIte]
  refine ⟨⟨_, rfl, rfl⟩, ?_, hclosed _⟩
  have hnew : o.path ∉ base.map Prod.fst := by
    rw [ho.path]
    exact h.openedNew _ _ ho.opened
  have hledger := (h.store hnew (o.sink.close
    { writes := w.writes, closes := [w.system.fault] }).1.2.file).close List.mem_cons_self
  rw [List.erase_cons_head] at hledger
  exact hledger

/-- Every sink the target has is closed. -/
def SinkClosed (sink : Option OpenSink) : Prop := ∀ o ∈ sink, o.sink.isOpen = false

theorem closeSink_ledger (index : Nat) (kind : CsvFileKind) (sink : Option OpenSink)
    (error : OutputSetOpenError) (hsink : ∀ o ∈ sink, o.Fresh path w)
    (h : Ledger base own (sink.toList.map OpenSink.descriptor ++ open_) w.system) :
    Adds w (OutputTarget.closeSink index kind sink error w).2.2 [] ∧
      Ledger base own open_ (OutputTarget.closeSink index kind sink error w).2.2.system ∧
      SinkClosed (OutputTarget.closeSink index kind sink error w).1 ∧
      (OutputTarget.closeSink index kind sink error w).2.1.primary = error.primary := by
  cases sink with
  | none => exact ⟨.refl w, h, by simp [SinkClosed, OutputTarget.closeSink], rfl⟩
  | some o =>
      obtain ⟨hadds, hledger, hclosed⟩ := (hsink o rfl).close_ledger h
      refine ⟨hadds, hledger, ?_, recordClose_primary _ _ _ _⟩
      intro o' ho'
      obtain rfl := Option.some.inj ho'
      exact hclosed

theorem removeCreated_ledger (index : Nat) (kind : CsvFileKind) {created : Bool}
    (error : OutputSetOpenError)
    (hopened : created = true → ∃ d, .openExclusive path (.ok d) ∈ w.system.calls)
    (h : Ledger base own open_ w.system) :
    Adds w (OutputTarget.removeCreated index kind created path error w).2 [] ∧
      (OutputTarget.removeCreated index kind created path error w).1.primary = error.primary ∧
      ∃ own', Ledger base own' open_ (OutputTarget.removeCreated index kind created path error w).2.system ∧
        (Unrefused (OutputTarget.removeCreated index kind created path error w).2 →
          ∀ rest, own.Perm ((if created then [path] else []) ++ rest) → own'.Perm rest) := by
  cases created with
  | false => exact ⟨.refl w, rfl, own, h, fun _ _ hperm => hperm⟩
  | true =>
      obtain ⟨hadds, own', hledger, hown⟩ := removeFile_ledger h (hopened rfl)
      refine ⟨hadds, recordRemoval_primary _ _ _ _ _, own', hledger, fun hunrefused rest hperm => ?_⟩
      simp only [↓reduceIte, List.singleton_append] at hperm
      rw [hown hunrefused]
      refine (hperm.filter _).trans ?_
      rw [← without, without_cons (hperm.nodup_iff.mp h.nodup)]

/-- What the rollback of a target does, and leaves to the other targets. -/
theorem rollback_outcome (index : Nat) {t : OutputTarget} (error : OutputSetOpenError)
    (ht : t.Holds w) (h : Ledger base own (t.live ++ open_) w.system) :
    Adds w (t.rollback index error w).2.2 [] ∧
      (t.rollback index error w).2.1.primary = error.primary ∧
      SinkClosed (t.rollback index error w).1.audit ∧
      SinkClosed (t.rollback index error w).1.orderBook ∧
      ∃ own', Ledger base own' open_ (t.rollback index error w).2.2.system ∧
        (Unrefused (t.rollback index error w).2.2 →
          ∀ rest, own.Perm (t.owned ++ rest) → own'.Perm rest) := by
  rw [OutputTarget.live, List.append_assoc] at h
  obtain ⟨hadds₁, hledger₁, hclosed₁, hprimary₁⟩ :=
    closeSink_ledger index .orderBook t.orderBook error ht.orderBook h
  obtain ⟨hadds₂, hledger₂, hclosed₂, hprimary₂⟩ :=
    closeSink_ledger index .marketData t.audit
      (OutputTarget.closeSink index .orderBook t.orderBook error w).2.1
      (ht.mono hadds₁).audit hledger₁
  have ht₂ := (ht.mono hadds₁).mono hadds₂
  obtain ⟨hadds₃, hprimary₃, own₃, hledger₃, hown₃⟩ :=
    removeCreated_ledger index .orderBook _ ht₂.orderBookOpened hledger₂
  have ht₃ := ht₂.mono hadds₃
  obtain ⟨hadds₄, hprimary₄, own₄, hledger₄, hown₄⟩ :=
    removeCreated_ledger index .marketData _ ht₃.auditOpened hledger₃
  refine ⟨((hadds₁.trans hadds₂).trans hadds₃).trans hadds₄, ?_, hclosed₂, hclosed₁, own₄, hledger₄,
    fun hunrefused rest hperm => ?_⟩
  · exact hprimary₄.trans (hprimary₃.trans (hprimary₂.trans hprimary₁))
  · refine hown₄ hunrefused rest (hown₃ (hunrefused.of_adds hadds₄) _ ?_)
    rw [OutputTarget.owned, List.append_assoc] at hperm
    exact hperm

end Undoing

/-! ## The loops -/

section Loops

variable {base : List (Bytes × Entry Bytes)} {own : List Bytes} {open_ : List Nat}

theorem openFiles_outcome (plan : OutputPlan) (mode : CsvOutputMode) (targets : List OutputTarget)
    (index : Nat) {w : FileOperations} (h : Ledger base own open_ w.system) (hclean : Clean w)
    (hblank : ∀ t ∈ targets, t.Blank) (hpaths : ∀ t ∈ targets, ∀ p ∈ t.paths mode, p ≠ [])
    (hplan : targets = plan.targets.drop index) :
    ∃ tries, tries <+: targets.flatMap (OutputTarget.paths mode) ∧
      Adds w (openFiles mode index targets w).2 tries ∧
      (∀ t ∈ (openFiles mode index targets w).1.2, t.Holds (openFiles mode index targets w).2) ∧
      OutputTarget.Stands base own open_ ((openFiles mode index targets w).1.2.flatMap OutputTarget.owned)
        ((openFiles mode index targets w).1.2.flatMap OutputTarget.live)
        (openFiles mode index targets w).2 ∧
      ∀ error ∈ (openFiles mode index targets w).1.1, ∃ call,
        (openFiles mode index targets w).2.system.calls.find? FileSystem.Call.failed = some call ∧
        Blames plan error call := by
  induction targets generalizing index own open_ w with
  | nil => exact ⟨[], List.prefix_rfl, .refl w, by simp [openFiles], ⟨own, h, fun _ => .refl _⟩,
      by simp [openFiles]⟩
  | cons t rest ih =>
      have hhere : plan.targets[index]? = some t := by
        have hhead := congrArg List.head? hplan
        simpa using hhead.symm
      have hrest : rest = plan.targets.drop (index + 1) := by
        rw [← List.tail_drop, ← hplan]
        rfl
      have haudit : plan.pathAt index .marketData = some t.auditPath := by
        simp [OutputPlan.pathAt, hhere]
      have hbook : plan.pathAt index .orderBook = some t.orderBookPath := by
        simp [OutputPlan.pathAt, hhere]
      have hblankRest : ∀ t' ∈ rest, t'.Blank := fun t' ht' => hblank t' (List.mem_cons_of_mem _ ht')
      obtain ⟨tries, hprefix, hadds, hholds, hstands, hresult⟩ :=
        OutputTarget.openFiles_outcome mode h hclean (hblank t List.mem_cons_self)
          (hpaths t List.mem_cons_self) haudit hbook
      unfold openFiles
      split
      · rename_i error t' w' heq
        rw [heq] at hadds hholds hstands hresult
        refine ⟨tries, hprefix.trans (by simp), hadds, ?_, ?_, ?_⟩
        · exact List.forall_mem_cons.mpr ⟨hholds, fun t'' ht'' => (hblankRest t'' ht'').holds w'⟩
        · have howned : rest.flatMap OutputTarget.owned = [] :=
            List.flatMap_eq_nil_iff.mpr fun t'' ht'' => (hblankRest t'' ht'').owned_nil
          have hlive : rest.flatMap OutputTarget.live = [] :=
            List.flatMap_eq_nil_iff.mpr fun t'' ht'' => (hblankRest t'' ht'').live_nil
          simp only [List.flatMap_cons, howned, hlive, List.append_nil]
          exact hstands
        · intro error' herror'
          obtain rfl := Option.some.inj herror'
          exact hresult
      · rename_i t' w' heq
        rw [heq] at hadds hholds hstands hresult
        obtain ⟨hclean', rfl⟩ := hresult
        obtain ⟨own', hledger, hown⟩ := hstands
        obtain ⟨tries', hprefix', hadds', hholds', ⟨own'', hledger', hown'⟩, hfailed⟩ :=
          ih (index + 1) hledger hclean' hblankRest (fun t'' ht'' => hpaths t'' (List.mem_cons_of_mem _ ht'')) hrest
        refine ⟨t.paths mode ++ tries', ?_, hadds.trans hadds', ?_, ⟨own'', ?_, fun hunrefused => ?_⟩,
          hfailed⟩
        · rw [List.flatMap_cons]
          exact (List.prefix_append_right_inj _).mpr hprefix'
        · exact List.forall_mem_cons.mpr ⟨hholds.mono hadds', hholds'⟩
        · refine hledger'.perm ?_
          simp only [List.flatMap_cons]
          rw [← List.append_assoc]
          exact List.perm_append_comm.append_right _
        · have hbefore := hown (hunrefused.of_adds hadds')
          refine (hown' hunrefused).trans ?_
          refine (hbefore.append_left _).trans ?_
          simp only [List.flatMap_cons]
          rw [← List.append_assoc]
          exact List.perm_append_comm.append_right _

theorem rollbackTargets_outcome (targets : List OutputTarget) (index : Nat)
    (error : OutputSetOpenError) {w : FileOperations} (ht : ∀ t ∈ targets, t.Holds w)
    (h : Ledger base own (targets.flatMap OutputTarget.live ++ open_) w.system) :
    Adds w (rollbackTargets index targets error w).2.2 [] ∧
      (rollbackTargets index targets error w).2.1.primary = error.primary ∧
      (∀ t ∈ (rollbackTargets index targets error w).1, SinkClosed t.audit ∧ SinkClosed t.orderBook) ∧
      ∃ own', Ledger base own' open_ (rollbackTargets index targets error w).2.2.system ∧
        (Unrefused (rollbackTargets index targets error w).2.2 →
          ∀ rest, own.Perm (targets.flatMap OutputTarget.owned ++ rest) → own'.Perm rest) := by
  induction targets generalizing index own open_ w with
  | nil => exact ⟨.refl w, rfl, by simp [rollbackTargets], own, h, fun _ _ hperm => hperm⟩
  | cons t rest ih =>
      have hlater : Ledger base own (rest.flatMap OutputTarget.live ++ (t.live ++ open_)) w.system := by
        refine h.perm ?_
        rw [List.flatMap_cons, ← List.append_assoc]
        exact List.perm_append_comm.append_right _
      obtain ⟨hadds, hprimary, hclosed, own', hledger, hown⟩ :=
        ih (index + 1) (fun t' ht' => ht t' (List.mem_cons_of_mem _ ht')) hlater
      obtain ⟨hadds', hprimary', haudit, hbook, own'', hledger', hown'⟩ :=
        rollback_outcome index (rollbackTargets (index + 1) rest error w).2.1
          ((ht t List.mem_cons_self).mono hadds) hledger
      refine ⟨hadds.trans hadds', hprimary'.trans hprimary, ?_, own'', hledger',
        fun hunrefused more hperm => ?_⟩
      · exact List.forall_mem_cons.mpr ⟨⟨haudit, hbook⟩, hclosed⟩
      · refine hown' hunrefused more (hown (hunrefused.of_adds hadds') _ (hperm.trans ?_))
        rw [List.flatMap_cons, ← List.append_assoc]
        exact List.perm_append_comm.append_right _

/-- Closed sinks are destroyed without a call. -/
theorem destroy_closed {targets : List OutputTarget}
    (h : ∀ t ∈ targets, SinkClosed t.audit ∧ SinkClosed t.orderBook) (w : FileOperations) :
    targets.foldr OutputTarget.destroy w = w := by
  have hsink : ∀ (sink : Option OpenSink) (w : FileOperations), SinkClosed sink →
      (sink.map fun o => (o.close w).2.2).getD w = w := by
    intro sink w hclosed
    cases sink with
    | none => rfl
    | some o => simp [OpenSink.close, hclosed o rfl]
  induction targets with
  | nil => rfl
  | cons t rest ih =>
      obtain ⟨haudit, hbook⟩ := h t List.mem_cons_self
      rw [List.foldr_cons, ih fun t' ht' => h t' (List.mem_cons_of_mem _ ht')]
      simp only [OutputTarget.destroy, hsink _ _ hbook, hsink _ _ haudit]

/-- The directory is there and empty, or was created; else the check that failed is named. -/
theorem prepareOutputDirectory_outcome (plan : OutputPlan) {w : FileOperations}
    (h : Ledger base [] [] w.system) (hclean : Clean w) :
    Adds w (prepareOutputDirectory plan.directory w).2 [] ∧
      match (prepareOutputDirectory plan.directory w).1 with
      | .error error => Ledger base [] [] (prepareOutputDirectory plan.directory w).2.system ∧
          ∃ call,
            (prepareOutputDirectory plan.directory w).2.system.calls.find? FileSystem.Call.failed =
            some call ∧ Blames plan error call
      | .ok created => Clean (prepareOutputDirectory plan.directory w).2 ∧
          (created = true → .createDirectory plan.directory (.ok true) ∈
            (prepareOutputDirectory plan.directory w).2.system.calls) ∧
          Ledger base (if created then [plan.directory] else []) []
            (prepareOutputDirectory plan.directory w).2.system := by
  obtain ⟨hexists, hcalls⟩ := h.pathExists plan.directory
  unfold prepareOutputDirectory
  dsimp only
  split
  · rename_i native hanswer
    rw [hanswer] at hcalls
    exact ⟨⟨_, hcalls, rfl⟩, hexists, .pathExists plan.directory (.error native),
      (hclean.append hcalls).trans rfl, rfl⟩
  · rename_i hanswer
    rw [hanswer] at hcalls
    obtain ⟨hdirectory, hcalls'⟩ := hexists.isDirectory plan.directory
    rw [hcalls, List.append_assoc] at hcalls'
    split
    · rename_i native hanswer'
      rw [hanswer'] at hcalls'
      exact ⟨⟨_, hcalls', rfl⟩, hdirectory, .isDirectory plan.directory (.error native),
        (hclean.append hcalls').trans rfl, rfl⟩
    · rename_i hanswer'
      rw [hanswer'] at hcalls'
      exact ⟨⟨_, hcalls', rfl⟩, hdirectory, .isDirectory plan.directory (.ok false),
        (hclean.append hcalls').trans rfl, rfl⟩
    · rename_i hanswer'
      rw [hanswer'] at hcalls'
      obtain ⟨hempty, hcalls''⟩ := hdirectory.isEmpty insideDirectory plan.directory
      rw [hcalls', List.append_assoc] at hcalls''
      split
      · rename_i native hanswer''
        rw [hanswer''] at hcalls''
        exact ⟨⟨_, hcalls'', rfl⟩, hempty, .isEmpty plan.directory (.error native),
          (hclean.append hcalls'').trans rfl, rfl⟩
      · rename_i hanswer''
        rw [hanswer''] at hcalls''
        exact ⟨⟨_, hcalls'', rfl⟩, hempty, .isEmpty plan.directory (.ok false),
          (hclean.append hcalls'').trans rfl, rfl⟩
      · rename_i hanswer''
        rw [hanswer''] at hcalls''
        exact ⟨⟨_, hcalls'', rfl⟩, (hclean.append hcalls'').trans rfl, by simp, hempty⟩
  · rename_i hanswer
    rw [hanswer] at hcalls
    obtain ⟨hcalls', hcreated⟩ := hexists.createDirectory plan.directory
    rw [hcalls, List.append_assoc] at hcalls'
    split
    · rename_i native hanswer'
      rw [hanswer'] at hcalls'
      rw [hanswer', if_neg (by simp)] at hcreated
      exact ⟨⟨_, hcalls', rfl⟩, hcreated, .createDirectory plan.directory (.error native),
        (hclean.append hcalls').trans rfl, rfl⟩
    · rename_i hanswer'
      rw [hanswer'] at hcalls'
      rw [hanswer', if_neg (by simp)] at hcreated
      exact ⟨⟨_, hcalls', rfl⟩, hcreated, .createDirectory plan.directory (.ok false),
        (hclean.append hcalls').trans rfl, rfl⟩
    · rename_i hanswer'
      rw [hanswer'] at hcalls'
      rw [hanswer', if_pos rfl] at hcreated
      refine ⟨⟨_, hcalls', rfl⟩, (hclean.append hcalls').trans rfl, fun _ => ?_, hcreated⟩
      rw [hcalls']
      simp

/-- What is left after the rollback and the destruction of the set. -/
theorem abandonOpening_outcome {directory : Bytes} {created : Bool} {targets : List OutputTarget}
    (error : OutputSetOpenError) {w : FileOperations} (ht : ∀ t ∈ targets, t.Holds w)
    (hcreated : created = true → .createDirectory directory (.ok true) ∈ w.system.calls)
    (h : Ledger base own (targets.flatMap OutputTarget.live) w.system) :
    Adds w (abandonOpening directory created targets error w).2 [] ∧
      (abandonOpening directory created targets error w).1.primary = error.primary ∧
      ∃ own', Ledger base own' [] (abandonOpening directory created targets error w).2.system ∧
        (Unrefused (abandonOpening directory created targets error w).2 →
          own.Perm (targets.flatMap OutputTarget.owned ++ if created then [directory] else []) →
          own' = []) := by
  rw [← List.append_nil (targets.flatMap OutputTarget.live)] at h
  obtain ⟨hadds, hprimary, hclosed, own', hledger, hown⟩ :=
    rollbackTargets_outcome targets 0 error ht h
  cases created with
  | false =>
      simp only [abandonOpening, rollbackInitialization, Bool.false_eq_true, ↓reduceIte,
        destroy_closed hclosed, List.append_nil]
      refine ⟨hadds, hprimary, own', hledger, fun hunrefused hperm => ?_⟩
      exact List.perm_nil.mp (hown hunrefused [] (by simpa using hperm))
  | true =>
      obtain ⟨hcalls, own'', hledger', hleft⟩ :=
        hledger.removeDirectory insideDirectory (hadds.mem (hcreated rfl))
      simp only [abandonOpening, rollbackInitialization, ↓reduceIte, destroy_closed hclosed]
      have hremoved : Adds (rollbackTargets 0 targets error w).2.2
          { (rollbackTargets 0 targets error w).2.2 with
            system := ((rollbackTargets 0 targets error w).2.2.system.removeDirectory insideDirectory
              directory).2 } [] := ⟨_, hcalls, rfl⟩
      refine ⟨hadds.trans hremoved, (recordRemoval_primary _ _ _ _ _).trans hprimary, own'', hledger',
        fun hunrefused hperm => ?_⟩
      have hown' := hown (hunrefused.of_adds hremoved) [directory] hperm
      rcases hleft with ⟨native, hrefused⟩ | heq
      · have hcall := hunrefused (.removeDirectory directory (.refused native)) (by
          dsimp only
          rw [hcalls, hrefused]
          exact List.mem_append_right _ (List.mem_singleton_self _))
        cases hcall
      · rw [heq, List.perm_singleton.mp hown', without_cons (by simp)]

end Loops

/-! ## Plans -/

/-- A set whose files have different paths, none of them open yet. -/
structure OutputPlan.Valid (plan : OutputPlan) : Prop where
  blank : ∀ t ∈ plan.targets, t.Blank
  named : ∀ t ∈ plan.targets, ∀ p ∈ t.paths plan.mode, p ≠ []
  distinct : (plan.targets.flatMap (OutputTarget.paths plan.mode)).Nodup

theorem joinPath_ne_nil (directory name : Bytes) : joinPath directory name ≠ [] := by
  unfold joinPath
  split
  · rename_i hlast
    intro hnil
    rw [List.append_eq_nil_iff] at hnil
    simp [hnil.1] at hlast
  · simp

theorem joinPath_inj {directory name name' : Bytes}
    (h : joinPath directory name = joinPath directory name') : name = name' := by
  unfold joinPath at h
  split at h
  · exact List.append_cancel_left h
  · exact (List.cons.inj (List.append_cancel_left h)).2

theorem validUtcDate_last {utcDate : Bytes} (h : validUtcDate utcDate = true) :
    ∃ front last, utcDate = front ++ [last] ∧ ByteText.isDigit last = true := by
  unfold validUtcDate at h
  split at h
  · rename_i y₁ y₂ y₃ y₄ dash₁ m₁ m₂ dash₂ d₁ d₂
    simp only [Bool.and_eq_true, List.all_eq_true] at h
    exact ⟨[y₁, y₂, y₃, y₄, dash₁, m₁, m₂, dash₂, d₁], d₂, rfl, h.1.1.1.2 d₂ (by simp)⟩
  · cases h

theorem liveStem_inj {venue : PayloadVenue} {utcDate symbol symbol' : Bytes}
    (h : liveStem venue utcDate symbol = liveStem venue utcDate symbol') : symbol = symbol' :=
  List.append_cancel_left (List.append_cancel_right (List.append_cancel_right h))

/-- An audit file and an order-book file never share a name. -/
theorem liveStem_ne {venue : PayloadVenue} {utcDate : Bytes} (h : validUtcDate utcDate = true)
    (symbol symbol' : Bytes) :
    liveStem venue utcDate symbol ++ ascii ".csv" ≠
      liveStem venue utcDate symbol' ++ ascii "_orderbook.csv" := by
  obtain ⟨front, last, rfl, hdigit⟩ := validUtcDate_last h
  have hsuffix : ascii "_orderbook.csv" = ascii "_orderboo" ++ [107] ++ ascii ".csv" := by
    decide +kernel
  intro heq
  rw [hsuffix, ← List.append_assoc, ← List.append_assoc] at heq
  have hstems := List.append_cancel_right heq
  have hlast := congrArg List.getLast? hstems
  simp only [liveStem, ← List.append_assoc, List.getLast?_concat, Option.some.injEq] at hlast
  rw [hlast] at hdigit
  exact absurd hdigit (by decide)

theorem checkStems_nodup {seen : List Bytes} (stems : List Bytes) (hseen : seen.Nodup)
    (h : checkStems seen stems = none) : (seen ++ stems).Nodup := by
  induction stems generalizing seen with
  | nil => simpa using hseen
  | cons stem rest ih =>
      change (if !validReplayStem stem then _
        else if stem ∈ seen then _ else checkStems (seen ++ [stem]) rest) = none at h
      split at h
      · cases h
      · split at h
        · cases h
        · rename_i hnew
          have hnodup : (seen ++ [stem]).Nodup := by
            rw [List.nodup_append]
            refine ⟨hseen, by simp, ?_⟩
            rintro a ha b hb rfl
            exact hnew (List.mem_singleton.mp hb ▸ ha)
          simpa using ih hnodup h

theorem OutputRequest.plan_valid {request : OutputRequest} {plan : OutputPlan}
    (h : request.plan = .ok plan) : plan.Valid := by
  cases request with
  | live directory venue symbols utcDate =>
      simp only [OutputRequest.plan] at h
      split at h
      · cases h
      rename_i hsymbols
      split at h
      · cases h
      rename_i hdate
      split at h
      · cases h
      obtain rfl := Except.ok.inj h
      have hnodup := (symbolSet_of_validate (not_not.mp hsymbols)).nodup
      simp only [Bool.not_eq_true', Bool.not_eq_false] at hdate
      refine ⟨?_, ?_, ?_⟩
      · intro t ht
        obtain ⟨symbol, -, rfl⟩ := List.mem_map.mp ht
        exact ⟨rfl, rfl, rfl, rfl⟩
      · intro t ht p hp
        obtain ⟨symbol, -, rfl⟩ := List.mem_map.mp ht
        simp only [OutputTarget.paths, ↓reduceIte, List.mem_cons, List.not_mem_nil, or_false] at hp
        rcases hp with rfl | rfl <;> exact joinPath_ne_nil _ _
      · rw [List.flatMap_map, List.nodup_flatMap]
        constructor
        · intro symbol _
          simp only [OutputTarget.paths, ↓reduceIte, List.nodup_cons, List.mem_singleton,
            List.not_mem_nil, not_false_eq_true, List.nodup_nil, and_true]
          exact fun heq => liveStem_ne hdate _ _ (joinPath_inj heq)
        · refine hnodup.imp ?_
          intro symbol symbol' hne p hp hp'
          simp only [OutputTarget.paths, liveTarget, ↓reduceIte, List.mem_cons, List.not_mem_nil,
            or_false] at hp hp'
          rcases hp with rfl | rfl <;> rcases hp' with hp' | hp'
          · exact hne (liveStem_inj (List.append_cancel_right (joinPath_inj hp')))
          · exact liveStem_ne hdate _ _ (joinPath_inj hp')
          · exact liveStem_ne hdate _ _ (joinPath_inj hp').symm
          · exact hne (liveStem_inj (List.append_cancel_right (joinPath_inj hp')))
  | replay directory specifications =>
      simp only [OutputRequest.plan] at h
      split at h
      · cases h
      split at h
      · cases h
      split at h
      · cases h
      rename_i hstems
      obtain rfl := Except.ok.inj h
      have hnodup := checkStems_nodup _ List.nodup_nil hstems
      rw [List.nil_append] at hnodup
      refine ⟨?_, ?_, ?_⟩
      · intro t ht
        obtain ⟨spec, -, rfl⟩ := List.mem_map.mp ht
        exact ⟨rfl, rfl, rfl, rfl⟩
      · intro t ht p hp
        obtain ⟨spec, -, rfl⟩ := List.mem_map.mp ht
        obtain rfl := List.mem_singleton.mp hp
        exact joinPath_ne_nil _ _
      · have hpaths : (specifications.map (replayTarget directory)).flatMap (OutputTarget.paths .replay) =
            (specifications.map ReplayOutputSpec.inputFileStem).map fun stem =>
              joinPath directory (stem ++ ascii "_orderbook.csv") := by
          rw [List.flatMap_map, List.map_map, List.map_eq_flatMap]
          rfl
        rw [hpaths]
        refine hnodup.map ?_
        intro stem stem' heq
        exact List.append_cancel_right (joinPath_inj heq)

/-! ## The whole opening -/

/-- A path that was tried once was not both refused and created. -/
theorem opened_once {calls : List (FileSystem.Call Bytes)}
    (h : (calls.filterMap FileSystem.Call.tried).Nodup) {path : Bytes} {native : Int} {d : Nat} (hfailed : .openExclusive path (.error native) ∈ calls)
    (hopened : .openExclusive path (.ok d) ∈ calls) : False := by
  induction calls with
  | nil => cases hfailed
  | cons call rest ih =>
      have hmem : ∀ answer, .openExclusive path answer ∈ rest →
          path ∈ rest.filterMap FileSystem.Call.tried :=
        fun answer hcall => List.mem_filterMap.mpr ⟨_, hcall, rfl⟩
      have hrest : (rest.filterMap FileSystem.Call.tried).Nodup :=
        h.sublist (List.Sublist.filterMap _ (List.sublist_cons_self _ _))
      rcases List.mem_cons.mp hfailed with rfl | hfailed'
      · rcases List.mem_cons.mp hopened with hopened' | hopened'
        · cases hopened'
        · exact (List.nodup_cons.mp h).1 (hmem _ hopened')
      · rcases List.mem_cons.mp hopened with rfl | hopened'
        · exact (List.nodup_cons.mp h).1 (hmem _ hfailed')
        · exact ih hrest hfailed' hopened'

/-- What a failed opening leaves: nothing of its own unless a removal was refused. -/
structure Undone (plan : OutputPlan) (base : List (Bytes × Entry Bytes)) (error : OutputSetOpenError)
    (w : FileOperations) : Prop where
  ledger : ∃ own, Ledger base own [] w.system ∧ (Unrefused w → own = [])
  tried : (w.system.calls.filterMap FileSystem.Call.tried).Nodup
  first : ∃ call, w.system.calls.find? FileSystem.Call.failed = some call ∧ Blames plan error call

/-- The rollback of an opening that met its first failure. -/
theorem undone_of_failure {plan : OutputPlan} {base : List (Bytes × Entry Bytes)} {own : List Bytes}
    {created : Bool} {targets : List OutputTarget} {error : OutputSetOpenError} {w : FileOperations}
    (ht : ∀ t ∈ targets, t.Holds w)
    (hcreated : created = true → .createDirectory plan.directory (.ok true) ∈ w.system.calls)
    (h : Ledger base own (targets.flatMap OutputTarget.live) w.system)
    (hown : Unrefused w →
      own.Perm (targets.flatMap OutputTarget.owned ++ if created then [plan.directory] else []))
    (htried : (w.system.calls.filterMap FileSystem.Call.tried).Nodup)
    (hfirst : ∃ call, w.system.calls.find? FileSystem.Call.failed = some call ∧
      Blames plan error call) :
    Undone plan base (abandonOpening plan.directory created targets error w).1
      (abandonOpening plan.directory created targets error w).2 := by
  obtain ⟨hadds, hprimary, own', hledger, hown'⟩ := abandonOpening_outcome error ht hcreated h
  obtain ⟨call, hcall, hblames⟩ := hfirst
  refine ⟨⟨own', hledger, fun hunrefused => hown' hunrefused (hown (hunrefused.of_adds hadds))⟩, ?_,
    call, hadds.first hcall, hblames.of_primary hprimary⟩
  obtain ⟨more, hcalls, hmore⟩ := hadds
  rw [hcalls, List.filterMap_append, hmore, List.append_nil]
  exact htried

theorem OutputPlan.open_undone {plan : OutputPlan} (hplan : plan.Valid)
    (base : List (Bytes × Entry Bytes)) (faults : List (Option Int)) (writes : List WriteAnswer)
    {error : OutputSetOpenError} {w : FileOperations}
    (h : plan.open { system := { entries := base, faults := faults }, writes := writes } =
      (.error error, w)) :
    Undone plan base error w := by
  obtain ⟨⟨before, hbefore, hnone⟩, hprepared⟩ := prepareOutputDirectory_outcome plan
    (w := { system := { entries := base, faults := faults }, writes := writes })
    (Ledger.start base faults) rfl
  rw [List.nil_append] at hbefore
  unfold OutputPlan.open at h
  split at h
  · rename_i error' w' heq
    rw [heq] at hbefore hprepared
    obtain ⟨hledger, hfirst⟩ := hprepared
    have howned : plan.targets.flatMap OutputTarget.owned = [] :=
      List.flatMap_eq_nil_iff.mpr fun t ht => (hplan.blank t ht).owned_nil
    have hlive : plan.targets.flatMap OutputTarget.live = [] :=
      List.flatMap_eq_nil_iff.mpr fun t ht => (hplan.blank t ht).live_nil
    have hundone : Undone plan base (abandonOpening plan.directory false plan.targets error' w').1
        (abandonOpening plan.directory false plan.targets error' w').2 := by
      refine undone_of_failure (fun t ht => (hplan.blank t ht).holds w') (by simp) (hlive ▸ hledger)
        (fun _ => ?_) ?_ hfirst
      · rw [howned]
        exact .refl _
      · rw [hbefore, hnone]
        exact List.nodup_nil
    obtain ⟨herror, rfl⟩ := Prod.mk.inj h
    rw [Except.error.injEq] at herror
    rw [← herror]
    exact hundone
  · rename_i created w' heq
    rw [heq] at hbefore hprepared
    obtain ⟨hclean, hcreated, hledger⟩ := hprepared
    obtain ⟨tries, hprefix, hadds, hholds, ⟨own, hledger', hown⟩, hfailed⟩ :=
      openFiles_outcome plan plan.mode plan.targets 0 hledger hclean hplan.blank hplan.named rfl
    split at h
    · cases h
    · rename_i error' targets w'' heq'
      rw [heq'] at hadds hholds hledger' hown hfailed
      rw [List.append_nil] at hledger'
      obtain ⟨more, hmore, htried⟩ := hadds
      have hlog : w''.system.calls.filterMap FileSystem.Call.tried = tries := by
        rw [show w''.system.calls = w'.system.calls ++ more from hmore, List.filterMap_append, htried,
          show w'.system.calls = before from hbefore, hnone, List.nil_append]
      have hundone := undone_of_failure hholds
        (fun hc => by rw [hmore]; exact List.mem_append_left _ (hcreated hc)) hledger' hown
        (by rw [hlog]; exact hplan.distinct.sublist hprefix.sublist) (hfailed error' rfl)
      obtain ⟨herror, rfl⟩ := Prod.mk.inj h
      rw [Except.error.injEq] at herror
      rw [← herror]
      exact hundone

/-- Opening an output set is all or nothing. A request that is not valid makes no call;
a failed opening leaves every entry that was there before, and nothing else unless a
removal was refused. -/
theorem opening_all_or_nothing (request : OutputRequest) (base : List (Bytes × Entry Bytes))
    (faults : List (Option Int)) (writes : List WriteAnswer) {error : OutputSetOpenError}
    {w : FileOperations}
    (h : request.open { system := { entries := base, faults := faults }, writes := writes } =
      (.error error, w)) :
    (request.plan = .error error ∧ w.system.calls = [] ∧ w.system.entries = base) ∨
    ∃ plan, request.plan = .ok plan ∧
      -- what it created is gone
      ((∀ call ∈ w.system.calls, call.refused = false) → w.system.entries = base) ∧
      -- what was there before stays
      (∃ own, w.system.entries = own ++ base) ∧
      (∀ path answer, .remove path answer ∈ w.system.calls →
        (∃ d, .openExclusive path (.ok d) ∈ w.system.calls) ∧
        ∀ native, .openExclusive path (.error native) ∉ w.system.calls) ∧
      (∀ path answer, .removeDirectory path answer ∈ w.system.calls →
        .createDirectory path (.ok true) ∈ w.system.calls) ∧
      -- every descriptor is closed once
      (w.system.calls.filterMap FileSystem.Call.closed).Perm
        (w.system.calls.filterMap FileSystem.Call.opened) ∧
      (w.system.calls.filterMap FileSystem.Call.closed).Nodup ∧
      -- the error is that of the first failure
      ∃ call, w.system.calls.find? FileSystem.Call.failed = some call ∧ Blames plan error call := by
  unfold OutputRequest.open at h
  split at h
  · rename_i error' hplan
    obtain ⟨herror, rfl⟩ := Prod.mk.inj h
    rw [Except.error.injEq] at herror
    exact .inl ⟨herror ▸ hplan, rfl, rfl⟩
  · rename_i plan hplan
    have hundone := plan.open_undone (OutputRequest.plan_valid hplan) base faults writes h
    obtain ⟨own, hledger, hown⟩ := hundone.ledger
    obtain ⟨own', hentries, hnames⟩ := hledger.split
    have hbalanced := hledger.balanced
    rw [List.append_nil] at hbalanced
    refine .inr ⟨plan, hplan, ?_, ⟨own', hentries⟩, ?_, hledger.directoryRemovals, hbalanced.symm,
      hbalanced.nodup_iff.mp hledger.numbered, hundone.first⟩
    · intro hunrefused
      rw [hown hunrefused] at hledger
      exact hledger.settled
    · intro path answer hremove
      obtain ⟨d, hd⟩ := hledger.removals path answer hremove
      exact ⟨⟨d, hd⟩, fun native hfailed => opened_once hundone.tried hfailed hd⟩

/-- A live request whose second header is not written: the disk is full. -/
def sampleOutputRequest : OutputRequest :=
  .live (ascii "out") .spot [ascii "BTCUSDT"] (ascii "2024-02-29")

def sampleFullDisk : FileOperations :=
  { system := { entries := [(ascii "notes", .file (ascii "kept"))] }
    writes := [.accepted marketDataCsvHeader.length, .failed 28] }

theorem opening_all_or_nothing_sample :
    ∃ error w, sampleOutputRequest.open sampleFullDisk = (.error error, w) ∧
      w.system.entries = sampleFullDisk.system.entries ∧ w.system.calls.length = 14 := by
  have hrun : (sampleOutputRequest.open sampleFullDisk).1.isOk = false ∧
      (sampleOutputRequest.open sampleFullDisk).2.system.calls.length = 14 ∧
      ∀ call ∈ (sampleOutputRequest.open sampleFullDisk).2.system.calls, call.refused = false := by
    decide +kernel
  rcases hopen : sampleOutputRequest.open sampleFullDisk with ⟨result, w⟩
  rw [hopen] at hrun
  obtain ⟨hfailed, hlength, hunrefused⟩ := hrun
  cases result with
  | ok targets => cases hfailed
  | error error =>
      refine ⟨error, w, rfl, ?_, hlength⟩
      rcases opening_all_or_nothing _ _ _ _ hopen with ⟨-, -, hentries⟩ | ⟨plan, -, hgone, -⟩
      · exact hentries
      · exact hgone hunrefused

end MarketCapture
