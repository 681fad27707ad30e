import Mathlib.Data.List.Basic
import Macrdp.LruCache

/-!
# Operations on a redirected drive and their open handles

Reads and writes acquire an open handle from a cache, or open one and install it; removals and
renames first evict the handles of the paths that they name. Handles that leave the cache are
closed in tasks of their own. Each lock section, each request and each completion is one step,
and the client serves a request when it completes it.
-/

namespace Macrdp.DriveHandles

open LruCache

/-- A path on a redirected device, by its components. -/
structure Place where
  deviceId : UInt32
  path : List String
  deriving DecidableEq

/-- A place is at or below another. -/
def Place.covers (p q : Place) : Bool := p.deviceId = q.deviceId && p.path.isPrefixOf q.path

/-- The access that a handle was opened with. -/
inductive AccessKind where
  | read
  | write
  deriving DecidableEq

/-- What a handle is cached under. -/
structure HandleKey where
  place : Place
  kind : AccessKind
  deriving DecidableEq

/-- A file id on its device. -/
structure FileId where
  deviceId : UInt32
  id : UInt32
  deriving DecidableEq

/-- The most handles in the cache. -/
def maxOpenHandles : ℕ := 16

/-! ## The client -/

/-- How a file is opened. -/
inductive CreateDisposition where
  | fileOpen
  | fileCreate
  | fileOpenIf
  deriving DecidableEq

/-- The information that is set on a file. -/
inductive FileInformation where
  | disposition
  | rename (target : Place)
  | endOfFile
  deriving DecidableEq

/-- The client's files and directories, each with its place while it has one, and the files that
are open. -/
structure Client where
  objects : List (Option Place)
  opened : FileId → Option ℕ

namespace Client

/-- A file id is open on the file that is at a place. -/
def Denotes (c : Client) (file : FileId) (place : Place) : Prop :=
  ∃ o, c.opened file = some o ∧ c.objects[o]? = some (some place)

/-- A file id comes to be open on an object. -/
def bind (file : FileId) (o : ℕ) (c : Client) : Client :=
  { c with opened := fun f => if f = file then some o else c.opened f }

/-- Open the file at a place under an id that is not in use; a client may refuse, but it does
not open what is not there, nor create what is. -/
def openFile (place : Place) (disposition : CreateDisposition) (file : FileId) (c : Client) :
    Option Client :=
  if (c.opened file).isSome then none
  else match c.objects.findIdx? fun p => p = some place with
    | some o => if disposition = .fileCreate then none else some (c.bind file o)
    | none =>
      if disposition = .fileOpen then none
      else some (bind file c.objects.length { c with objects := c.objects ++ [some place] })

/-- Close a file. -/
def closeFile (file : FileId) (c : Client) : Client :=
  { c with opened := fun f => if f = file then none else c.opened f }

/-- Where an object is after what is at or below one place was moved to another. -/
def movePlace (source target p : Place) : Option Place :=
  if source.covers p then
    some ⟨target.deviceId, target.path ++ p.path.drop source.path.length⟩
  else if target.covers p then none
  else some p

/-- Set the information of an open file. -/
def setInformation (file : FileId) (info : FileInformation) (c : Client) : Client :=
  match c.opened file with
  | none => c
  | some o =>
    match c.objects[o]?.join, info with
    | some _, .disposition => { c with objects := c.objects.set o none }
    | some source, .rename target =>
      { c with objects := c.objects.map fun p => p.bind (movePlace source target) }
    | _, _ => c

end Client

/-! ## The server -/

/-- What an operation does once the handles it evicts are closed: it opens a file, sets its
information if there is any to set, and closes it. -/
structure Access where
  place : Place
  disposition : CreateDisposition
  info : Option FileInformation
  deriving DecidableEq

/-- How far a task is. -/
inductive Task where
  /-- Before the first lock section of `acquire`. -/
  | lookup (key : HandleKey)
  /-- The create request is sent. -/
  | opening (key : HandleKey)
  /-- Before the second lock section of `acquire`. -/
  | installing (key : HandleKey) (file : FileId)
  /-- `acquire` has returned. -/
  | ready (key : HandleKey) (file : FileId)
  /-- The read or write request is sent. -/
  | transferring (key : HandleKey) (file : FileId)
  /-- It failed; before the lock section of `invalidate`. -/
  | failing (key : HandleKey) (file : FileId)
  /-- Before the lock section of `evict_path` of the first of these, if there is any left. -/
  | evicting (places : List Place) (access : Option Access)
  /-- A file is to be closed, or its close request is sent; then the other ones. -/
  | closing (file : FileId) (sent : Bool) (files : List FileId) (places : List Place)
    (access : Option Access)
  /-- The create request of an access is sent. -/
  | accessing (access : Access)
  /-- The request to set the information is sent. -/
  | setting (file : FileId) (info : FileInformation)
  deriving DecidableEq

namespace Task

/-- A task that has ended. -/
def done : Task := .evicting [] none

/-- Close some files in turn and go on. -/
def closeAll (files : List FileId) (places : List Place) (access : Option Access) : Task :=
  match files with
  | [] => .evicting places access
  | file :: rest => .closing file false rest places access

/-- Close a file and end. -/
def closeOne (file : FileId) : Task := .closing file false [] [] none

/-- The file that an operation acquired and has not done with. -/
def uses : Task → Option FileId
  | .ready _ file | .transferring _ file | .failing _ file => some file
  | _ => none

/-- The key under which a task opened or acquired a file. -/
def key? : Task → Option HandleKey
  | .installing key _ | .ready key _ | .transferring key _ | .failing key _ => some key
  | _ => none

/-- The files that a task has to install or to close. -/
def owned : Task → List FileId
  | .installing _ file => [file]
  | .closing file _ files _ _ => file :: files
  | .setting file _ => [file]
  | _ => []

end Task

/-- The cache of a handle to the device channel, the tasks of its clones, and the client. -/
structure State where
  cache : Cache HandleKey FileId
  tasks : List Task
  client : Client

/-- What the client replies to a request. -/
inductive Reply where
  /-- Success; the id of a file that was opened. -/
  | success (id : UInt32)
  | failure
  deriving DecidableEq

/-- A call, or the next step of a task with the reply that it gets if it waits for one. -/
inductive Action where
  | readFile (place : Place)
  | writeFile (place : Place)
  | createFile (place : Place) (exclusive : Bool)
  | remove (place : Place)
  | rename (source target : Place)
  | setLen (place : Place)
  | advance (i : ℕ) (reply : Reply)
  deriving DecidableEq

namespace State

/-- No handle is cached; the client has some files. -/
def new (objects : List (Option Place)) : State := ⟨.empty, [], ⟨objects, fun _ => none⟩⟩

/-- Start a task. -/
def start (t : Task) (s : State) : State := { s with tasks := s.tasks ++ [t] }

/-- A task goes on, and others are spawned to close files. -/
def proceed (i : ℕ) (t : Task) (closes : List FileId) (s : State) : State :=
  { s with tasks := s.tasks.set i t ++ closes.map Task.closeOne }

/-- The next step of a task. -/
def advance (i : ℕ) (reply : Reply) (s : State) : Task → Option State
  | .lookup key =>
    match s.cache.find? key with
    | some h => some ({ s with cache := s.cache.touch key }.proceed i (.ready key h.handle) [])
    | none => some (s.proceed i (.opening key) [])
  | .opening key =>
    match reply with
    | .success id =>
      (s.client.openFile key.place .fileOpen ⟨key.place.deviceId, id⟩).map fun client =>
        { s with client := client }.proceed i (.installing key ⟨key.place.deviceId, id⟩) []
    | .failure => some (s.proceed i .done [])
  | .installing key file =>
    let installed := s.cache.install maxOpenHandles key file
    some ({ s with cache := installed.1 }.proceed i (.ready key installed.2.1) installed.2.2)
  | .ready key file => some (s.proceed i (.transferring key file) [])
  | .transferring key file =>
    match reply with
    | .success _ => some (s.proceed i .done [])
    | .failure => some (s.proceed i (.failing key file) [])
  | .failing key _ =>
    let taken := s.cache.takeOut fun k => k = key
    some ({ s with cache := taken.1 }.proceed i .done taken.2)
  | .evicting (place :: places) access =>
    let taken := s.cache.takeOut fun k => k.place = place
    some ({ s with cache := taken.1 }.proceed i (.closeAll taken.2 places access) [])
  | .evicting [] (some access) => some (s.proceed i (.accessing access) [])
  | .evicting [] none => none
  | .closing file false files places access =>
    some (s.proceed i (.closing file true files places access) [])
  | .closing file true files places access =>
    some ({ s with client := s.client.closeFile file }.proceed i
      (.closeAll files places access) [])
  | .accessing access =>
    match reply with
    | .success id =>
      let file : FileId := ⟨access.place.deviceId, id⟩
      (s.client.openFile access.place access.disposition file).map fun client =>
        { s with client := client }.proceed i
          (match access.info with
            | some info => .setting file info
            | none => .closeOne file) []
    | .failure => some (s.proceed i .done [])
  | .setting file info =>
    match reply with
    | .success _ =>
      some ({ s with client := s.client.setInformation file info }.proceed i (.closeOne file) [])
    | .failure => some (s.proceed i (.closeOne file) [])

/-- A step; one that cannot be taken is refused. -/
def step (s : State) : Action → Option State
  | .readFile place => some (s.start (.lookup ⟨place, .read⟩))
  | .writeFile place => some (s.start (.lookup ⟨place, .write⟩))
  | .createFile place exclusive =>
    some (s.start (.evicting []
      (some ⟨place, if exclusive then .fileCreate else .fileOpenIf, none⟩)))
  | .remove place =>
    some (s.start (.evicting [place] (some ⟨place, .fileOpen, some .disposition⟩)))
  | .rename source target =>
    some (s.start (.evicting [source, target] (some ⟨source, .fileOpen, some (.rename target)⟩)))
  | .setLen place => some (s.start (.evicting [] (some ⟨place, .fileOpen, some .endOfFile⟩)))
  | .advance i reply => (s.tasks[i]?).bind fun t => s.advance i reply t

end State

end Macrdp.DriveHandles
