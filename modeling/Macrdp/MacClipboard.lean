import Mathlib.Data.Finset.Basic
import Mathlib.Data.Finset.SDiff

/-!
# What the clipboard keeps for the process

Remote files pasted on this side live in a temp directory, behind presenters that
fetch them, and their names are on the pasteboard. All of it is shared by every
clipboard backend, and a backend that is dropped cleans up all of it.
-/

namespace Macrdp.MacClipboard

/-- The system pasteboard. -/
structure Pasteboard where
  /-- Grows with every change, whoever makes it. -/
  changeCount : ℤ
  contents : List String
  deriving DecidableEq

namespace Pasteboard

/-- Clear the contents, which is a change. -/
def clearContents (pb : Pasteboard) : Pasteboard := ⟨pb.changeCount + 1, []⟩

/-- Write to a pasteboard just cleared. -/
def writeObjects (pb : Pasteboard) (urls : List String) : Pasteboard :=
  { pb with contents := pb.contents ++ urls }

end Pasteboard

/-- The process-wide state of the clipboard. -/
structure ClipboardCells where
  /-- Directory of the latest remote files. -/
  pasteTempDir : Option String
  /-- Directories on disk. -/
  tempDirs : Finset String
  /-- Change count of our latest write, `-1` before the first. -/
  selfChangeCount : ℤ
  /-- Presenters to remove on cleanup. -/
  livePresenters : Finset ℕ
  /-- Fetch state that presenters look up. -/
  registry : Finset ℕ
  /-- Presenters known to the file coordinator. -/
  coordinated : Finset ℕ
  pasteboard : Pasteboard
  deriving DecidableEq

/-- What the factory starts with. -/
def ClipboardCells.new (pasteboard : Pasteboard) : ClipboardCells :=
  { pasteTempDir := none
    tempDirs := ∅
    selfChangeCount := -1
    livePresenters := ∅
    registry := ∅
    coordinated := ∅
    pasteboard }

namespace ClipboardCells

/-- Take the temp directory out of its cell and remove it from disk. -/
def takeTempDir (c : ClipboardCells) : ClipboardCells :=
  match c.pasteTempDir with
  | none => c
  | some old => { c with pasteTempDir := none, tempDirs := c.tempDirs.erase old }

/-- Empty the table of live presenters. -/
def drainPresenters (c : ClipboardCells) : ClipboardCells := { c with livePresenters := ∅ }

/-- Forget the fetch state of presenters. -/
def forgetPresenters (c : ClipboardCells) (ids : Finset ℕ) : ClipboardCells :=
  { c with registry := c.registry \ ids }

/-- Take presenters off the file coordinator. -/
def removeFilePresenters (c : ClipboardCells) (ids : Finset ℕ) : ClipboardCells :=
  { c with coordinated := c.coordinated \ ids }

/-- The pasteboard is still as we wrote it at a change count. -/
def OwnsPasteboard (c : ClipboardCells) (ourCc : ℤ) : Prop :=
  0 ≤ ourCc ∧ c.pasteboard.changeCount = ourCc

instance (c : ClipboardCells) (ourCc : ℤ) : Decidable (c.OwnsPasteboard ourCc) :=
  inferInstanceAs (Decidable (_ ∧ _))

/-- Clear the pasteboard if it is still as we wrote it, and remember the clearing
as our own write. -/
def clearPasteboard (c : ClipboardCells) (ourCc : ℤ) : ClipboardCells :=
  if c.OwnsPasteboard ourCc then
    { c with
      pasteboard := c.pasteboard.clearContents
      selfChangeCount := c.pasteboard.clearContents.changeCount }
  else c

/-- Clear the pasteboard of files that the remote no longer offers. -/
def clearPasteboardIfStale (c : ClipboardCells) : ClipboardCells :=
  c.clearPasteboard c.selfChangeCount

/-- Clean up after the previous remote files; the presenters to remove are left to
the run loop. -/
def cleanupPrevious (c : ClipboardCells) : ClipboardCells × Option (Finset ℕ) :=
  let drained := c.livePresenters
  (((c.takeTempDir).drainPresenters).forgetPresenters drained,
    if drained = ∅ then none else some drained)

/-- What a dropped backend does. -/
def cleanupOnDisconnect (c : ClipboardCells) : ClipboardCells × Option (Finset ℕ) :=
  let (c, job) := c.cleanupPrevious
  (c.clearPasteboard c.selfChangeCount, job)

/-- Put the names of remote files on the pasteboard. -/
def publishToPasteboard (c : ClipboardCells) (urls : List String) : ClipboardCells :=
  if urls = [] then c
  else
    let pasteboard := c.pasteboard.clearContents.writeObjects urls
    { c with pasteboard, selfChangeCount := pasteboard.changeCount }

/-- New remote files: after a cleanup, their directory is made and the fetch state
of their presenters registered. -/
def stageRemoteFiles (c : ClipboardCells) (dir : String) (ids : Finset ℕ) :
    ClipboardCells × Option (Finset ℕ) :=
  let (c, job) := c.cleanupPrevious
  ({ c with
    pasteTempDir := some dir
    tempDirs := insert dir c.tempDirs
    registry := c.registry ∪ ids }, job)

/-- The run loop takes up the presenters of new remote files and publishes them. -/
def presentRemoteFiles (c : ClipboardCells) (ids : Finset ℕ) (urls : List String) :
    ClipboardCells :=
  { c with
    coordinated := c.coordinated ∪ ids
    livePresenters := c.livePresenters ∪ ids }.publishToPasteboard urls

variable {c : ClipboardCells}

/-- Without a temp directory there is none to take. -/
theorem takeTempDir_eq_self : c.takeTempDir = c ↔ c.pasteTempDir = none := by
  constructor
  · intro h
    rw [← h]
    simp only [takeTempDir]
    split
    · next hnone => exact hnone
    · rfl
  · intro h
    simp only [takeTempDir, h]

/-- Without live presenters there are none to drain. -/
theorem drainPresenters_eq_self : c.drainPresenters = c ↔ c.livePresenters = ∅ := by
  constructor
  · intro h
    exact congrArg livePresenters h.symm
  · intro h
    cases c
    cases h
    rfl

/-- Fetch state is forgotten only if it is there. -/
theorem forgetPresenters_eq_self {ids : Finset ℕ} :
    c.forgetPresenters ids = c ↔ Disjoint c.registry ids := by
  rw [← Finset.sdiff_eq_self_iff_disjoint]
  constructor
  · exact congrArg registry
  · intro h
    simp only [forgetPresenters, h]

/-- Presenters are taken off the coordinator only if they are on it. -/
theorem removeFilePresenters_eq_self {ids : Finset ℕ} :
    c.removeFilePresenters ids = c ↔ Disjoint c.coordinated ids := by
  rw [← Finset.sdiff_eq_self_iff_disjoint]
  constructor
  · exact congrArg coordinated
  · intro h
    simp only [removeFilePresenters, h]

/-- The pasteboard is cleared only if it is still as we wrote it. -/
theorem clearPasteboard_eq_self {ourCc : ℤ} :
    c.clearPasteboard ourCc = c ↔ ¬c.OwnsPasteboard ourCc := by
  constructor
  · intro h howns
    have hcount : (c.clearPasteboard ourCc).pasteboard.changeCount =
        c.pasteboard.changeCount + 1 := by
      simp only [clearPasteboard, if_pos howns]
      rfl
    rw [h] at hcount
    omega
  · intro h
    simp only [clearPasteboard, if_neg h]

end ClipboardCells
end Macrdp.MacClipboard
