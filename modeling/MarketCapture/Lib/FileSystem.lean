import Mathlib.Data.List.Perm.Basic
import Mathlib.Tactic

/-! # A file system with scripted faults

The calls a program makes to create, fill and remove files, over a finite map from
paths to entries. Any call may be refused, as a script says; a script that is over
refuses nothing. Every call is logged with its answer, and the log says which
descriptors are open and which entries are the program's own.
-/

namespace FileSystem

inductive Entry (Content : Type) where
  | file (content : Content)
  | directory
  deriving DecidableEq, Repr

/-- What `unlink` and `rmdir` did. -/
inductive Removal where
  | removed
  | absent
  | refused (native : Int)
  deriving DecidableEq, Repr

def noEntryError : Int := 2
def existsError : Int := 17
def notDirectoryError : Int := 20
def isDirectoryError : Int := 21
def notEmptyError : Int := 39

/-- The error number a removal reports. -/
def Removal.native : Removal → Option Int
  | .removed => none
  | .absent => some noEntryError
  | .refused native => some native

/-- A call with its answer. A write stands for all the bytes of one buffer, an
allocation for the memory of one object. -/
inductive Call (Path : Type) where
  | pathExists (path : Path) (answer : Except Int Bool)
  | isDirectory (path : Path) (answer : Except Int Bool)
  | isEmpty (path : Path) (answer : Except Int Bool)
  | createDirectory (path : Path) (answer : Except Int Bool)
  | openExclusive (path : Path) (answer : Except Int Nat)
  | allocate (succeeded : Bool)
  | write (path : Path) (error : Option Int)
  | close (descriptor : Nat) (error : Option Int)
  | remove (path : Path) (answer : Removal)
  | removeDirectory (path : Path) (answer : Removal)

structure System (Path Content : Type) where
  entries : List (Path × Entry Content)
  /-- The faults of the calls to come. -/
  faults : List (Option Int) := []
  nextDescriptor : Nat := 0
  calls : List (Call Path) := []

namespace System

variable {Path Content : Type} [DecidableEq Path]

def fault (s : System Path Content) : Option Int := s.faults.head?.join

def called (s : System Path Content) (call : Call Path) : System Path Content :=
  { s with faults := s.faults.tail, calls := s.calls ++ [call] }

def find (s : System Path Content) (path : Path) : Option (Entry Content) :=
  (s.entries.find? fun e => decide (e.1 = path)).map Prod.snd

/-- A question about a path, refused or answered. -/
def query (s : System Path Content) (call : Except Int Bool → Call Path) (answer : Bool) :
    Except Int Bool × System Path Content :=
  match s.fault with
  | some native => (.error native, s.called (call (.error native)))
  | none => (.ok answer, s.called (call (.ok answer)))

def pathExists (s : System Path Content) (path : Path) : Except Int Bool × System Path Content :=
  s.query (.pathExists path) (s.find path).isSome

def isDirectory (s : System Path Content) (path : Path) : Except Int Bool × System Path Content :=
  s.query (.isDirectory path) (match s.find path with
    | some .directory => true
    | _ => false)

/-- No entry lies inside the directory. -/
def vacant (inside : Path → Path → Bool) (s : System Path Content) (path : Path) : Bool :=
  s.entries.all fun e => !inside path e.1

def isEmpty (inside : Path → Path → Bool) (s : System Path Content) (path : Path) :
    Except Int Bool × System Path Content :=
  s.query (.isEmpty path) (s.vacant inside path)

/-- `mkdir`; a directory that is there already is no error, and not created. -/
def createDirectory (s : System Path Content) (path : Path) :
    Except Int Bool × System Path Content :=
  match s.fault with
  | some native => (.error native, s.called (.createDirectory path (.error native)))
  | none =>
      match s.find path with
      | some .directory => (.ok false, s.called (.createDirectory path (.ok false)))
      | some (.file _) =>
          (.error existsError, s.called (.createDirectory path (.error existsError)))
      | none =>
          (.ok true, { s with entries := (path, .directory) :: s.entries }.called
            (.createDirectory path (.ok true)))

/-- `open` with `O_CREAT | O_EXCL`: never an entry that is there already. -/
def openExclusive (s : System Path Content) (path : Path) (empty : Content) :
    Except Int Nat × System Path Content :=
  match s.fault with
  | some native => (.error native, s.called (.openExclusive path (.error native)))
  | none =>
      match s.find path with
      | some _ => (.error existsError, s.called (.openExclusive path (.error existsError)))
      | none =>
          (.ok s.nextDescriptor,
            { s with entries := (path, .file empty) :: s.entries,
                     nextDescriptor := s.nextDescriptor + 1 }.called
              (.openExclusive path (.ok s.nextDescriptor)))

def allocate (s : System Path Content) : Bool × System Path Content :=
  (s.fault.isNone, s.called (.allocate s.fault.isNone))

/-- The file holds this content now. -/
def store (s : System Path Content) (path : Path) (content : Content) : System Path Content :=
  { s with entries := s.entries.map fun e => if e.1 = path then (e.1, .file content) else e }

/-- All the writes of a buffer, and the content they left. -/
def write (s : System Path Content) (path : Path) (content : Content) (error : Option Int) :
    System Path Content :=
  { s.store path content with calls := s.calls ++ [.write path error] }

/-- `close`; the descriptor is given up whatever it answers. -/
def close (s : System Path Content) (descriptor : Nat) : Option Int × System Path Content :=
  (s.fault, s.called (.close descriptor s.fault))

/-- The entries without those at the path. -/
def dropped (s : System Path Content) (path : Path) : System Path Content :=
  { s with entries := s.entries.filter fun e => decide (e.1 ≠ path) }

/-- `unlink`. -/
def remove (s : System Path Content) (path : Path) : Removal × System Path Content :=
  match s.fault with
  | some native => (.refused native, s.called (.remove path (.refused native)))
  | none =>
      match s.find path with
      | none => (.absent, s.called (.remove path .absent))
      | some .directory =>
          (.refused isDirectoryError, s.called (.remove path (.refused isDirectoryError)))
      | some (.file _) => (.removed, (s.dropped path).called (.remove path .removed))

/-- `rmdir`. -/
def removeDirectory (inside : Path → Path → Bool) (s : System Path Content) (path : Path) :
    Removal × System Path Content :=
  match s.fault with
  | some native => (.refused native, s.called (.removeDirectory path (.refused native)))
  | none =>
      match s.find path with
      | none => (.absent, s.called (.removeDirectory path .absent))
      | some (.file _) =>
          (.refused notDirectoryError, s.called (.removeDirectory path (.refused notDirectoryError)))
      | some .directory =>
          if s.vacant inside path then
            (.removed, (s.dropped path).called (.removeDirectory path .removed))
          else (.refused notEmptyError, s.called (.removeDirectory path (.refused notEmptyError)))

end System

/-! ## Reading the log -/

namespace Call

variable {Path : Type}

/-- A call that did not do what it was made for. -/
def failed : Call Path → Bool
  | .pathExists _ (.error _) => true
  | .pathExists _ (.ok _) => false
  | .isDirectory _ (.ok true) => false
  | .isDirectory _ _ => true
  | .isEmpty _ (.ok true) => false
  | .isEmpty _ _ => true
  | .createDirectory _ (.ok true) => false
  | .createDirectory _ _ => true
  | .openExclusive _ (.error _) => true
  | .openExclusive _ (.ok _) => false
  | .allocate succeeded => !succeeded
  | .write _ error => error.isSome
  | .close _ error => error.isSome
  | .remove _ answer => answer.native.isSome
  | .removeDirectory _ answer => answer.native.isSome

/-- A removal that left the entry. -/
def refused : Call Path → Bool
  | .remove _ (.refused _) => true
  | .removeDirectory _ (.refused _) => true
  | _ => false

/-- The descriptor a call opened. -/
def opened : Call Path → Option Nat
  | .openExclusive _ (.ok descriptor) => some descriptor
  | _ => none

def closed : Call Path → Option Nat
  | .close descriptor _ => some descriptor
  | _ => none

/-- The path a call tried to open. -/
def tried : Call Path → Option Path
  | .openExclusive path _ => some path
  | _ => none

end Call

/-! ## The program's own entries and descriptors -/

/-- The entries are `base` and those the program owns, and the open descriptors are
`live`. The base is what was there before the first call: it is only ever added to. -/
structure Ledger {Path Content : Type} (base : List (Path × Entry Content)) (owned : List Path)
    (live : List Nat) (s : System Path Content) : Prop where
  split : ∃ own, s.entries = own ++ base ∧ own.map Prod.fst = owned
  fresh : ∀ p ∈ owned, p ∉ base.map Prod.fst
  nodup : owned.Nodup
  balanced : (s.calls.filterMap Call.opened).Perm (s.calls.filterMap Call.closed ++ live)
  numbered : (s.calls.filterMap Call.opened).Nodup
  below : ∀ d ∈ s.calls.filterMap Call.opened, d < s.nextDescriptor
  openedNew : ∀ p d, .openExclusive p (.ok d) ∈ s.calls → p ∉ base.map Prod.fst
  createdNew : ∀ p, .createDirectory p (.ok true) ∈ s.calls → p ∉ base.map Prod.fst
  removals : ∀ p a, .remove p a ∈ s.calls → ∃ d, .openExclusive p (.ok d) ∈ s.calls
  directoryRemovals : ∀ p a, .removeDirectory p a ∈ s.calls → .createDirectory p (.ok true) ∈ s.calls

/-- The paths other than this one. -/
def without {Path : Type} [DecidableEq Path] (paths : List Path) (path : Path) : List Path :=
  paths.filter fun p => decide (p ≠ path)

section Find

variable {Path Content : Type} [DecidableEq Path] {s : System Path Content} {path : Path}

theorem without_of_not_mem {paths : List Path} (h : path ∉ paths) : without paths path = paths := by
  rw [without, List.filter_eq_self]
  intro p hp
  simp only [ne_eq, decide_eq_true_eq]
  rintro rfl
  exact h hp

theorem without_cons {paths : List Path} (h : (path :: paths).Nodup) :
    without (path :: paths) path = paths := by
  rw [List.nodup_cons] at h
  rw [without, List.filter_cons_of_neg (by simp)]
  exact without_of_not_mem h.1

theorem find_eq_none : s.find path = none ↔ path ∉ s.entries.map Prod.fst := by
  simp only [System.find, Option.map_eq_none_iff, List.find?_eq_none, decide_eq_true_eq,
    List.mem_map, not_exists, not_and]

end Find

namespace Ledger

variable {Path Content : Type} {base : List (Path × Entry Content)} {owned : List Path}
  {live : List Nat} {s : System Path Content} {path : Path}

theorem start (base : List (Path × Entry Content)) (faults : List (Option Int)) :
    Ledger base [] [] ({ entries := base, faults := faults } : System Path Content) where
  split := ⟨[], rfl, rfl⟩
  fresh := by simp
  nodup := List.nodup_nil
  balanced := .refl _
  numbered := List.nodup_nil
  below := by simp
  openedNew := by simp
  createdNew := by simp
  removals := by simp
  directoryRemovals := by simp

/-- A call that neither opens, closes, creates nor removes anything. -/
structure Idle (call : Call Path) : Prop where
  opened : call.opened = none
  closed : call.closed = none
  openExclusive : ∀ p d, call ≠ .openExclusive p (.ok d)
  createDirectory : ∀ p, call ≠ .createDirectory p (.ok true)
  remove : ∀ p a, call ≠ .remove p a
  removeDirectory : ∀ p a, call ≠ .removeDirectory p a

theorem called (h : Ledger base owned live s) {call : Call Path} (hidle : Idle call) :
    Ledger base owned live (s.called call) := by
  have hmem : ∀ c : Call Path, c ≠ call → (c ∈ s.calls ++ [call] ↔ c ∈ s.calls) := by
    intro c hne
    simp [hne]
  refine { split := h.split, fresh := h.fresh, nodup := h.nodup, balanced := ?_, numbered := ?_,
           below := ?_, openedNew := ?_, createdNew := ?_, removals := ?_, directoryRemovals := ?_ }
  · simpa [System.called, hidle.opened, hidle.closed] using h.balanced
  · simpa [System.called, hidle.opened] using h.numbered
  · simpa [System.called, hidle.opened] using h.below
  · intro p d hm
    exact h.openedNew p d ((hmem _ (hidle.openExclusive p d).symm).mp hm)
  · intro p hm
    exact h.createdNew p ((hmem _ (hidle.createDirectory p).symm).mp hm)
  · intro p a hm
    obtain ⟨d, hd⟩ := h.removals p a ((hmem _ (hidle.remove p a).symm).mp hm)
    exact ⟨d, List.mem_append_left _ hd⟩
  · intro p a hm
    exact List.mem_append_left _
      (h.directoryRemovals p a ((hmem _ (hidle.removeDirectory p a).symm).mp hm))

/-- A path where nothing is becomes an entry of the program. -/
theorem add (h : Ledger base owned live s) (hpath : path ∉ s.entries.map Prod.fst)
    (entry : Entry Content) :
    Ledger base (path :: owned) live { s with entries := (path, entry) :: s.entries } := by
  obtain ⟨own, hentries, hown⟩ := h.split
  rw [hentries, List.map_append, hown, List.mem_append, not_or] at hpath
  refine { h with split := ⟨(path, entry) :: own, by rw [hentries]; rfl, by rw [List.map_cons, hown]⟩,
                  fresh := ?_, nodup := List.nodup_cons.mpr ⟨hpath.1, h.nodup⟩ }
  exact List.forall_mem_cons.mpr ⟨hpath.2, h.fresh⟩

section Removing

variable [DecidableEq Path]

theorem dropped (h : Ledger base owned live s) (hpath : path ∉ base.map Prod.fst) :
    Ledger base (without owned path) live (s.dropped path) := by
  obtain ⟨own, hentries, hown⟩ := h.split
  have hbase : base.filter (fun e => decide (e.1 ≠ path)) = base := by
    rw [List.filter_eq_self]
    intro e he
    simp only [ne_eq, decide_eq_true_eq]
    rintro rfl
    exact hpath (List.mem_map_of_mem he)
  refine { h with split := ⟨own.filter fun e => decide (e.1 ≠ path), ?_, ?_⟩,
                  fresh := fun p hp => h.fresh p (List.mem_filter.mp hp).1,
                  nodup := h.nodup.filter _ }
  · rw [System.dropped, hentries, List.filter_append, hbase]
  · rw [without, ← hown, List.filter_map]
    rfl

theorem store (h : Ledger base owned live s) (hpath : path ∉ base.map Prod.fst) (content : Content) :
    Ledger base owned live (s.store path content) := by
  obtain ⟨own, hentries, hown⟩ := h.split
  have hbase : base.map (fun e => if e.1 = path then (e.1, .file content) else e) = base := by
    refine (List.map_congr_left fun e he => ?_).trans (List.map_id base)
    rw [if_neg, id]
    rintro rfl
    exact hpath (List.mem_map_of_mem he)
  refine { h with split := ⟨own.map fun e => if e.1 = path then (e.1, .file content) else e, ?_, ?_⟩ }
  · rw [System.store, hentries, List.map_append, hbase]
  · rw [← hown, List.map_map]
    apply List.map_congr_left
    intro e _
    simp only [Function.comp_apply]
    split <;> rfl

end Removing

/-! ## One call -/

theorem query (h : Ledger base owned live s) {call : Except Int Bool → Call Path}
    (hidle : ∀ answer, Idle (call answer)) (answer : Bool) :
    Ledger base owned live (s.query call answer).2 ∧
      (s.query call answer).2.calls = s.calls ++ [call (s.query call answer).1] := by
  unfold System.query
  split
  · exact ⟨h.called (hidle _), rfl⟩
  · exact ⟨h.called (hidle _), rfl⟩

theorem allocate (h : Ledger base owned live s) :
    Ledger base owned live s.allocate.2 ∧
      s.allocate.2.calls = s.calls ++ [.allocate s.allocate.1] :=
  ⟨h.called ⟨rfl, rfl, by simp, by simp, by simp, by simp⟩, rfl⟩

theorem close {d : Nat} (h : Ledger base owned live s) (hlive : d ∈ live) :
    Ledger base owned (live.erase d) (s.close d).2 := by
  refine { split := h.split, fresh := h.fresh, nodup := h.nodup, balanced := ?_, numbered := ?_,
           below := ?_, openedNew := ?_, createdNew := ?_, removals := ?_, directoryRemovals := ?_ }
  · simp only [System.close, System.called, List.filterMap_append, List.filterMap_cons,
      List.filterMap_nil, Call.opened, Call.closed, List.append_nil, List.append_assoc,
      List.singleton_append]
    exact h.balanced.trans ((List.perm_cons_erase hlive).append_left _)
  · simpa [System.close, System.called, List.filterMap_cons, Call.opened] using h.numbered
  · simpa [System.close, System.called, List.filterMap_cons, Call.opened] using h.below
  · simpa [System.close, System.called] using h.openedNew
  · simpa [System.close, System.called] using h.createdNew
  · simpa [System.close, System.called] using h.removals
  · simpa [System.close, System.called] using h.directoryRemovals

/-- Logging a removal of what the program made. -/
theorem calledRemove (h : Ledger base owned live s) {a : Removal}
    (hopened : ∃ d, .openExclusive path (.ok d) ∈ s.calls) :
    Ledger base owned live (s.called (.remove path a)) := by
  refine { split := h.split, fresh := h.fresh, nodup := h.nodup, balanced := ?_, numbered := ?_,
           below := ?_, openedNew := ?_, createdNew := ?_, removals := ?_, directoryRemovals := ?_ }
  · simpa [System.called, List.filterMap_cons, Call.opened, Call.closed] using h.balanced
  · simpa [System.called, List.filterMap_cons, Call.opened] using h.numbered
  · simpa [System.called, List.filterMap_cons, Call.opened] using h.below
  · simpa [System.called] using h.openedNew
  · simpa [System.called] using h.createdNew
  · intro p b hm
    simp only [System.called, List.mem_append, List.mem_singleton, Call.remove.injEq] at hm
    obtain ⟨d, hd⟩ : ∃ d, .openExclusive p (.ok d) ∈ s.calls := by
      rcases hm with hm | ⟨rfl, -⟩
      · exact h.removals p b hm
      · exact hopened
    exact ⟨d, List.mem_append_left _ hd⟩
  · simpa [System.called] using h.directoryRemovals

theorem calledRemoveDirectory (h : Ledger base owned live s) {a : Removal}
    (hcreated : .createDirectory path (.ok true) ∈ s.calls) :
    Ledger base owned live (s.called (.removeDirectory path a)) := by
  refine { split := h.split, fresh := h.fresh, nodup := h.nodup, balanced := ?_, numbered := ?_,
           below := ?_, openedNew := ?_, createdNew := ?_, removals := ?_, directoryRemovals := ?_ }
  · simpa [System.called, List.filterMap_cons, Call.opened, Call.closed] using h.balanced
  · simpa [System.called, List.filterMap_cons, Call.opened] using h.numbered
  · simpa [System.called, List.filterMap_cons, Call.opened] using h.below
  · simpa [System.called] using h.openedNew
  · simpa [System.called] using h.createdNew
  · simpa [System.called] using h.removals
  · intro p b hm
    simp only [System.called, List.mem_append, List.mem_singleton, Call.removeDirectory.injEq] at hm
    rcases hm with hm | ⟨rfl, -⟩
    · exact List.mem_append_left _ (h.directoryRemovals p b hm)
    · exact List.mem_append_left _ hcreated

theorem isEmpty (inside : Path → Path → Bool) (h : Ledger base owned live s) (path : Path) :
    Ledger base owned live (s.isEmpty inside path).2 ∧
      (s.isEmpty inside path).2.calls = s.calls ++ [.isEmpty path (s.isEmpty inside path).1] :=
  h.query (fun _ => ⟨rfl, rfl, by simp, by simp, by simp, by simp⟩) _

section Calls

variable [DecidableEq Path]

theorem pathExists (h : Ledger base owned live s) (path : Path) :
    Ledger base owned live (s.pathExists path).2 ∧
      (s.pathExists path).2.calls = s.calls ++ [.pathExists path (s.pathExists path).1] :=
  h.query (fun _ => ⟨rfl, rfl, by simp, by simp, by simp, by simp⟩) _

theorem isDirectory (h : Ledger base owned live s) (path : Path) :
    Ledger base owned live (s.isDirectory path).2 ∧
      (s.isDirectory path).2.calls = s.calls ++ [.isDirectory path (s.isDirectory path).1] :=
  h.query (fun _ => ⟨rfl, rfl, by simp, by simp, by simp, by simp⟩) _

theorem write (h : Ledger base owned live s) (hopened : ∃ d, .openExclusive path (.ok d) ∈ s.calls)
    (content : Content) (error : Option Int) :
    Ledger base owned live (s.write path content error) := by
  obtain ⟨d, hd⟩ := hopened
  have hidle : Idle (.write path error) := ⟨rfl, rfl, by simp, by simp, by simp, by simp⟩
  have hstored := (h.store (h.openedNew path d hd) content).called hidle
  exact ⟨hstored.split, hstored.fresh, hstored.nodup, hstored.balanced, hstored.numbered,
    hstored.below, hstored.openedNew, hstored.createdNew, hstored.removals,
    hstored.directoryRemovals⟩

theorem createDirectory (h : Ledger base owned live s) (path : Path) :
    (s.createDirectory path).2.calls =
        s.calls ++ [.createDirectory path (s.createDirectory path).1] ∧
      Ledger base (if (s.createDirectory path).1 = .ok true then path :: owned else owned) live
        (s.createDirectory path).2 := by
  unfold System.createDirectory
  split
  · exact ⟨rfl, h.called ⟨rfl, rfl, by simp, by simp, by simp, by simp⟩⟩
  · split
    · exact ⟨rfl, h.called ⟨rfl, rfl, by simp, by simp, by simp, by simp⟩⟩
    · exact ⟨rfl, h.called ⟨rfl, rfl, by simp, by simp, by simp, by simp⟩⟩
    · rename_i hfind
      have hpath := find_eq_none.mp hfind
      have hnew : path ∉ base.map Prod.fst := by
        obtain ⟨own, hentries, -⟩ := h.split
        intro hmem
        exact hpath (by rw [hentries, List.map_append]; exact List.mem_append_right _ hmem)
      have hadd := h.add hpath .directory
      refine ⟨rfl, ?_⟩
      rw [if_pos rfl]
      refine { split := hadd.split, fresh := hadd.fresh, nodup := hadd.nodup, balanced := ?_,
               numbered := ?_, below := ?_, openedNew := ?_, createdNew := ?_, removals := ?_,
               directoryRemovals := ?_ }
      · simpa [System.called, List.filterMap_cons, Call.opened, Call.closed] using h.balanced
      · simpa [System.called, List.filterMap_cons, Call.opened] using h.numbered
      · simpa [System.called, List.filterMap_cons, Call.opened] using h.below
      · simpa [System.called] using h.openedNew
      · intro p hm
        simp only [System.called, List.mem_append, List.mem_singleton, Call.createDirectory.injEq,
          and_true] at hm
        rcases hm with hm | rfl
        · exact h.createdNew p hm
        · exact hnew
      · simpa [System.called] using h.removals
      · intro p a hm
        simp only [System.called, List.mem_append, List.mem_singleton, reduceCtorEq, or_false] at hm
        exact List.mem_append_left _ (h.directoryRemovals p a hm)

theorem openExclusive (h : Ledger base owned live s) (path : Path) (empty : Content) :
    (s.openExclusive path empty).2.calls =
        s.calls ++ [.openExclusive path (s.openExclusive path empty).1] ∧
      match (s.openExclusive path empty).1 with
      | .error _ => Ledger base owned live (s.openExclusive path empty).2
      | .ok d => Ledger base (path :: owned) (d :: live) (s.openExclusive path empty).2 := by
  unfold System.openExclusive
  split
  · exact ⟨rfl, h.called ⟨rfl, rfl, by simp, by simp, by simp, by simp⟩⟩
  · split
    · exact ⟨rfl, h.called ⟨rfl, rfl, by simp, by simp, by simp, by simp⟩⟩
    · rename_i hfind
      have hpath := find_eq_none.mp hfind
      have hnew : path ∉ base.map Prod.fst := by
        obtain ⟨own, hentries, -⟩ := h.split
        intro hmem
        exact hpath (by rw [hentries, List.map_append]; exact List.mem_append_right _ hmem)
      have hadd := h.add hpath (.file empty)
      refine ⟨rfl, ?_⟩
      refine { split := hadd.split, fresh := hadd.fresh, nodup := hadd.nodup, balanced := ?_,
               numbered := ?_, below := ?_, openedNew := ?_, createdNew := ?_, removals := ?_,
               directoryRemovals := ?_ }
      · simp only [System.called, List.filterMap_append, List.filterMap_cons, List.filterMap_nil,
          Call.opened, Call.closed, List.append_nil]
        exact List.perm_append_singleton _ _ |>.trans
          ((h.balanced.cons _).trans List.perm_middle.symm)
      · simp only [System.called, List.filterMap_append, List.filterMap_cons, List.filterMap_nil,
          Call.opened, List.nodup_append, List.nodup_singleton, true_and, List.mem_singleton]
        refine ⟨h.numbered, ?_⟩
        rintro d hd _ rfl
        exact Nat.ne_of_lt (h.below d hd)
      · simp only [System.called, List.filterMap_append, List.filterMap_cons, List.filterMap_nil,
          Call.opened, List.mem_append, List.mem_singleton]
        rintro d (hd | rfl)
        · exact Nat.lt_succ_of_lt (h.below d hd)
        · exact Nat.lt_succ_self _
      · intro p d hm
        simp only [System.called, List.mem_append, List.mem_singleton, Call.openExclusive.injEq] at hm
        rcases hm with hm | ⟨rfl, -⟩
        · exact h.openedNew p d hm
        · exact hnew
      · simpa [System.called] using h.createdNew
      · intro p a hm
        simp only [System.called, List.mem_append, List.mem_singleton, reduceCtorEq, or_false] at hm
        obtain ⟨d, hd⟩ := h.removals p a hm
        exact ⟨d, List.mem_append_left _ hd⟩
      · intro p a hm
        simp only [System.called, List.mem_append, List.mem_singleton, reduceCtorEq, or_false] at hm
        exact List.mem_append_left _ (h.directoryRemovals p a hm)

/-- The owned paths after a removal: one fewer, unless it was refused. -/
def Left (answer : Removal) (owned : List Path) (path : Path) (owned' : List Path) : Prop :=
  (∃ native, answer = .refused native) ∨ owned' = without owned path

theorem without_of_find_none (h : Ledger base owned live s) (hfind : s.find path = none) :
    without owned path = owned := by
  obtain ⟨own, hentries, hown⟩ := h.split
  apply without_of_not_mem
  have hpath := find_eq_none.mp hfind
  rw [hentries, List.map_append, hown, List.mem_append, not_or] at hpath
  exact hpath.1

/-- A path the program opened is removed, or refused. -/
theorem remove (h : Ledger base owned live s)
    (hopened : ∃ d, .openExclusive path (.ok d) ∈ s.calls) :
    (s.remove path).2.calls = s.calls ++ [.remove path (s.remove path).1] ∧
      ∃ owned', Ledger base owned' live (s.remove path).2 ∧
        Left (s.remove path).1 owned path owned' := by
  have hnew : path ∉ base.map Prod.fst := by
    obtain ⟨d, hd⟩ := hopened
    exact h.openedNew path d hd
  unfold System.remove
  split
  · exact ⟨rfl, owned, h.calledRemove hopened, .inl ⟨_, rfl⟩⟩
  · split
    · rename_i hfind
      exact ⟨rfl, owned, h.calledRemove hopened, .inr (h.without_of_find_none hfind).symm⟩
    · exact ⟨rfl, owned, h.calledRemove hopened, .inl ⟨_, rfl⟩⟩
    · exact ⟨rfl, without owned path, (h.dropped hnew).calledRemove hopened, .inr rfl⟩

theorem removeDirectory (inside : Path → Path → Bool) (h : Ledger base owned live s)
    (hcreated : .createDirectory path (.ok true) ∈ s.calls) :
    (s.removeDirectory inside path).2.calls =
        s.calls ++ [.removeDirectory path (s.removeDirectory inside path).1] ∧
      ∃ owned', Ledger base owned' live (s.removeDirectory inside path).2 ∧
        Left (s.removeDirectory inside path).1 owned path owned' := by
  unfold System.removeDirectory
  split
  · exact ⟨rfl, owned, h.calledRemoveDirectory hcreated, .inl ⟨_, rfl⟩⟩
  · split
    · rename_i hfind
      exact ⟨rfl, owned, h.calledRemoveDirectory hcreated, .inr (h.without_of_find_none hfind).symm⟩
    · exact ⟨rfl, owned, h.calledRemoveDirectory hcreated, .inl ⟨_, rfl⟩⟩
    · split
      · exact ⟨rfl, without owned path, (h.dropped (h.createdNew path hcreated)).calledRemoveDirectory
          hcreated, .inr rfl⟩
      · exact ⟨rfl, owned, h.calledRemoveDirectory hcreated, .inl ⟨_, rfl⟩⟩

end Calls

theorem perm {live' : List Nat} (h : Ledger base owned live s) (hperm : live.Perm live') :
    Ledger base owned live' s :=
  { h with balanced := h.balanced.trans (hperm.append_left _) }

/-- With nothing owned, the entries are the first ones. -/
theorem settled (h : Ledger base [] live s) : s.entries = base := by
  obtain ⟨own, hentries, hown⟩ := h.split
  rw [List.map_eq_nil_iff] at hown
  subst hown
  exact hentries

end Ledger

end FileSystem
