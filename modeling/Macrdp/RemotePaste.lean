import Mathlib.Data.Finset.Image
import Mathlib.Data.Finset.Range
import Mathlib.Data.Finset.SDiff
import Mathlib.Data.Int.Order.Basic
import Macrdp.StepSystem

/-!
# Pasting the client's files

A list of the client's files is taken by one of two pipelines. One lays out empty
files behind presenters and leaves their publication to the run loop; the other
downloads all of them in a task and publishes them itself. Both share the cell of
the temp directory and the pasteboard. What a task does between two awaits, a
closure of the run loop and a cleanup are one step each.
-/

namespace Macrdp.RemotePaste

/-- A file or directory of a remote copy. -/
structure RemoteEntry where
  name : String
  size : Option ℕ
  isDir : Bool
  /-- The components of its directory, `none` at the top level. -/
  relativePath : Option (List String)
  deriving DecidableEq

/-- A path below a temp directory. -/
structure TempPath where
  dir : ℕ
  components : List String
  deriving DecidableEq

/-- A component that leads out of its directory. -/
def unsafeComponent (c : String) : Bool :=
  decide (c = ".") || decide (c = "..") || c.toList.contains '/'

/-- Where an entry is put on disk; an unsafe one is put nowhere. -/
def resolveDest (dir : ℕ) (e : RemoteEntry) : Option TempPath :=
  let components := (e.relativePath.getD []).filter fun c => !c.isEmpty
  if components.any unsafeComponent || unsafeComponent e.name then none
  else some ⟨dir, components ++ [e.name]⟩

/-- A list of the client's files, by the connection it came on and its number. -/
structure FileList where
  number : ℕ
  conn : ℕ
  entries : List RemoteEntry
  deriving DecidableEq

/-- All entries can be put on disk. -/
def FileList.safe (list : FileList) : Bool := list.entries.all fun e => (resolveDest 0 e).isSome

/-- The paths of the top-level entries, which are what is published. -/
def topLevel (dir : ℕ) (entries : List RemoteEntry) : List TempPath :=
  (entries.filter fun e => e.relativePath.isNone).filterMap (resolveDest dir)

/-- What is published, with the list it is from and its temp directory. -/
structure Published where
  list : ℕ
  dir : ℕ
  urls : List TempPath
  deriving DecidableEq

/-- The system pasteboard. -/
structure Pasteboard where
  /-- Grows with every change, whoever makes it. -/
  changeCount : ℕ
  /-- The remote files that are on it. -/
  contents : Option Published
  deriving DecidableEq

/-- A presenter, by its id and the connection of its list. -/
structure Presenter where
  id : ℕ
  conn : ℕ
  deriving DecidableEq

/-- A closure that the run loop is yet to run. -/
inductive Job where
  /-- Register presenters and publish. -/
  | present (list : FileList) (dir : ℕ) (presenters : Finset Presenter)
  /-- Take presenters off the file coordinator. -/
  | remove (presenters : Finset Presenter)
  deriving DecidableEq

/-- A task that downloads a list. -/
inductive Task where
  | spawned (list : FileList)
  /-- It awaits the first of the files that are left. -/
  | fetching (list : FileList) (dir : ℕ) (left : List RemoteEntry)
  deriving DecidableEq

/-- The list of a task. -/
def Task.list : Task → FileList
  | .spawned list | .fetching list _ _ => list

/-- What both pipelines share, with the threads at work. -/
structure State where
  /-- Lists are first offered to the presenters. -/
  lazyPaste : Bool
  pasteboard : Pasteboard
  /-- Change count of our latest write, `-1` before the first. -/
  selfChangeCount : ℤ
  currentTempDir : Option ℕ
  /-- Temp directories on disk. -/
  onDisk : Finset ℕ
  nextDir : ℕ
  nextId : ℕ
  registry : Finset Presenter
  livePresenters : Finset Presenter
  /-- Presenters known to the file coordinator. -/
  coordinated : Finset Presenter
  queue : List Job
  tasks : List Task
  nextConn : ℕ
  connections : Finset ℕ
  /-- Lists so far, and the entries of the last one. -/
  lists : ℕ
  latest : List RemoteEntry
  /-- Connections that ended after the last list. -/
  ended : Finset ℕ
  /-- Files were published after such an end, or a directory was made for such a connection. -/
  late : Bool
  deriving DecidableEq

/-- A step of the system. -/
inductive Action where
  | connect
  /-- A list arrives. The temp directory may not be made, and the disk may fail after the empty
  files of some presenters. -/
  | fileList (conn : ℕ) (entries : List RemoteEntry) (made : Bool) (failsAfter : Option ℕ)
  /-- A task takes its first step. -/
  | start (i : ℕ) (made ok : Bool)
  /-- The file that a task awaits is complete or has failed; the disk may fail after that. -/
  | fetched (i : ℕ) (complete ok : Bool)
  /-- The run loop runs its next closure. -/
  | runLoop
  /-- A presenter's download fails. -/
  | readFails (p : Presenter)
  | locksExpire
  | disconnect (conn : ℕ)
  /-- Something else is written to the pasteboard. -/
  | otherWrite (more : ℕ)
  deriving DecidableEq

namespace State

/-- A new process. -/
def new (lazyPaste : Bool) (changeCount : ℕ) : State where
  lazyPaste := lazyPaste
  pasteboard := ⟨changeCount, none⟩
  selfChangeCount := -1
  currentTempDir := none
  onDisk := ∅
  nextDir := 0
  nextId := 1
  registry := ∅
  livePresenters := ∅
  coordinated := ∅
  queue := []
  tasks := []
  nextConn := 0
  connections := ∅
  lists := 0
  latest := []
  ended := ∅
  late := false

/-- Take the temp directory out of its cell and remove it from disk. -/
def takeTempDir (s : State) : State :=
  match s.currentTempDir with
  | none => s
  | some old => { s with currentTempDir := none, onDisk := s.onDisk.erase old }

/-- A directory is made on disk for a connection. -/
def makeDirs (conn dir : ℕ) (s : State) : State :=
  { s with onDisk := insert dir s.onDisk, late := s.late || decide (conn ∈ s.ended) }

/-- Make a fresh temp directory and store it. -/
def makeTempDir (conn : ℕ) (s : State) : State :=
  { s.makeDirs conn s.nextDir with currentTempDir := some s.nextDir, nextDir := s.nextDir + 1 }

/-- Clean up after the previous list. -/
def cleanupPrevious (s : State) : State :=
  { s.takeTempDir with
    livePresenters := ∅
    registry := s.registry \ s.livePresenters
    queue := if s.livePresenters = ∅ then s.queue else s.queue ++ [.remove s.livePresenters] }

/-- Clear the pasteboard if it is as we wrote it last. -/
def clearPasteboardIfStale (s : State) : State :=
  if 0 ≤ s.selfChangeCount ∧ (s.pasteboard.changeCount : ℤ) = s.selfChangeCount then
    { s with
      pasteboard := ⟨s.pasteboard.changeCount + 1, none⟩
      selfChangeCount := s.pasteboard.changeCount + 1 }
  else s

/-- What a dropped backend cleans up. -/
def cleanupOnDisconnect (s : State) : State := s.cleanupPrevious.clearPasteboardIfStale

/-- Put the top-level paths of a list on the pasteboard, if there are any. -/
def publishToPasteboard (list : FileList) (dir : ℕ) (s : State) : State :=
  if topLevel dir list.entries = [] then s
  else
    { s with
      pasteboard :=
        ⟨s.pasteboard.changeCount + 1, some ⟨list.number, dir, topLevel dir list.entries⟩⟩
      selfChangeCount := s.pasteboard.changeCount + 1
      late := s.late || decide (s.ended ≠ ∅) }

/-- The presenters of some files, with fresh ids. -/
def freshPresenters (nextId conn count : ℕ) : Finset Presenter :=
  (Finset.range count).image fun k => ⟨nextId + k, conn⟩

/-- Register presenters for some files. -/
def register (conn count : ℕ) (s : State) : State :=
  { s with
    registry := s.registry ∪ freshPresenters s.nextId conn count
    nextId := s.nextId + count }

/-- The files of a list. -/
def files (entries : List RemoteEntry) : List RemoteEntry := entries.filter fun e => !e.isDir

/-- Offer a list to the presenters; with the state it is left in comes whether they took it. -/
def spawnLazyPaste (list : FileList) (made : Bool) (failsAfter : Option ℕ) (s : State) :
    State × Bool :=
  if list.entries = [] then (s, true)
  else if (files list.entries).any fun e => e.size.isNone then (s, false)
  else if made = false then (s.cleanupPrevious, false)
  else
    let dir := s.nextDir
    let s := s.cleanupPrevious.makeTempDir list.conn
    let count := (files list.entries).length
    if list.safe = false then (s, false)
    else
      match failsAfter with
      | some after => (s.register list.conn (min after (count - 1)), false)
      | none =>
        let presenters := freshPresenters s.nextId list.conn count
        ({ s.register list.conn count with
            queue := s.queue ++ [.present list dir presenters] }, true)

/-- Leave a list to a task. -/
def spawnRemotePaste (list : FileList) (s : State) : State :=
  if list.entries = [] then s else { s with tasks := s.tasks ++ [.spawned list] }

/-- A list arrives. -/
def onRemoteFileList (conn : ℕ) (entries : List RemoteEntry) (made : Bool)
    (failsAfter : Option ℕ) (s : State) : State :=
  let list : FileList := ⟨s.lists + 1, conn, entries⟩
  let s := { s with lists := s.lists + 1, latest := entries, ended := ∅ }
  if s.lazyPaste then
    let (s, handled) := s.spawnLazyPaste list made failsAfter
    if handled then s else s.spawnRemotePaste list
  else s.spawnRemotePaste list

/-- Files that need no data are complete at once. -/
def skipEmpty (left : List RemoteEntry) : List RemoteEntry :=
  left.dropWhile fun e => decide (e.size = some 0)

/-- A task goes on to the files that are left, up to one that it has to await, or publishes. -/
def proceed (i : ℕ) (list : FileList) (dir : ℕ) (left : List RemoteEntry) (s : State) : State :=
  if skipEmpty left = [] then
    ({ s with tasks := s.tasks.eraseIdx i }).publishToPasteboard list dir
  else { s with tasks := s.tasks.set i (.fetching list dir (skipEmpty left)) }

/-- A task's first step. -/
def start (i : ℕ) (list : FileList) (made ok : Bool) (s : State) : State :=
  let s := s.takeTempDir
  if made = false then { s with tasks := s.tasks.eraseIdx i }
  else
    let dir := s.nextDir
    let s := s.makeTempDir list.conn
    if list.safe = false ∨ ok = false then { s with tasks := s.tasks.eraseIdx i }
    else s.proceed i list dir (files list.entries)

/-- A task's step when the file it awaits is done. The directories of further files are made
anew. -/
def fetched (i : ℕ) (list : FileList) (dir : ℕ) (left : List RemoteEntry) (complete ok : Bool)
    (s : State) : State :=
  if complete = false then { s with tasks := s.tasks.eraseIdx i }
  else if left.tail = [] then s.proceed i list dir []
  else
    let s := s.makeDirs list.conn dir
    if ok = false then { s with tasks := s.tasks.eraseIdx i }
    else s.proceed i list dir left.tail

/-- The run loop runs a closure. -/
def runJob (job : Job) (s : State) : State :=
  match job with
  | .present list dir presenters =>
    { s with
      coordinated := s.coordinated ∪ presenters
      livePresenters := s.livePresenters ∪ presenters }.publishToPasteboard list dir
  | .remove presenters => { s with coordinated := s.coordinated \ presenters }

/-- A step; one that is not there to be taken is refused. -/
def step (s : State) : Action → Option State
  | .connect =>
    some { s with nextConn := s.nextConn + 1, connections := insert s.nextConn s.connections }
  | .fileList conn entries made failsAfter =>
    if conn ∈ s.connections then some (s.onRemoteFileList conn entries made failsAfter) else none
  | .start i made ok =>
    match s.tasks[i]? with
    | some (.spawned list) => some (s.start i list made ok)
    | _ => none
  | .fetched i complete ok =>
    match s.tasks[i]? with
    | some (.fetching list dir left) => some (s.fetched i list dir left complete ok)
    | _ => none
  | .runLoop =>
    match s.queue with
    | [] => none
    | job :: queue => some ({ s with queue := queue }.runJob job)
  | .readFails p =>
    if p ∈ s.registry ∧ p ∈ s.coordinated then some { s with registry := s.registry.erase p }
    else none
  | .locksExpire => some s.clearPasteboardIfStale
  | .disconnect conn =>
    if conn ∈ s.connections then
      some { s.cleanupOnDisconnect with
        connections := s.connections.erase conn, ended := insert conn s.ended }
    else none
  | .otherWrite more =>
    some { s with pasteboard := ⟨s.pasteboard.changeCount + 1 + more, none⟩ }

end State

end Macrdp.RemotePaste
