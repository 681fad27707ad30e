import Macrdp.CacheIndex
import Macrdp.LockSections

/-!
# The calls of the surface as sections under its lock

What is known is locked for single sections, and never while the client is asked. Between the
sections of one call those of others are taken. A call that runs alone is served as the surface
serves it.
-/

namespace Macrdp.SurfaceSections

open LockSections RedirectedDrive NfsSurface

/-- What the client is asked to do on the drive. -/
inductive Request where
  | listDir (path : String)
  | readFile (path : String) (offset length : ℕ)
  | writeFile (path : String) (offset : ℕ) (data : List UInt8)
  | createFile (path : String) (exclusive : Bool)
  | createDir (path : String)
  | remove (path : String) (isDir : Bool)
  | rename (source target : String) (replace : Bool)
  | setLen (path : String) (size : ℕ)

/-- What it answers with: the entries of a listing, the bytes of a read. -/
structure Payload where
  entries : List DirEntry
  data : List UInt8

/-- The client may refuse. -/
abbrev Response := Except NtStatus Payload

/-- A call, or a part of one. -/
abbrev Op := ExceptT Nfsstat (Program FsCache FsCache.Write Request Response)

/-- A section that reads what is known. -/
def look {R : Type} (f : FsCache → Except Nfsstat R) : Op R := Program.look f

/-- A section that writes to what is known. -/
def write {R : Type} (writes : FsCache → List FsCache.Write) (f : FsCache → R) : Op R :=
  Program.lock writes fun c => .done (.ok (f c))

/-- What is heard from the client. -/
def heard : Response → Except Nfsstat Payload
  | .ok payload => .ok payload
  | .error e => .error (.ofNtStatus e)

/-- Ask the client. -/
def ask (q : Request) : Op Payload := Program.ask q fun a => .done (heard a)

/-- A call of a client of the surface; names are any strings. -/
inductive FsCall where
  | lookup (dirid : ℕ) (filename : String)
  | getattr (id : ℕ)
  | read (id offset count : ℕ)
  | readdir (dirid startAfter maxEntries : ℕ)
  | setattr (id : ℕ) (size : Option ℕ)
  | write (id offset : ℕ) (data : List UInt8)
  | create (dirid : ℕ) (filename : String)
  | createExclusive (dirid : ℕ) (filename : String)
  | mkdir (dirid : ℕ) (dirname : String)
  | remove (dirid : ℕ) (filename : String)
  | rename (fromDirid : ℕ) (fromFilename : String) (toDirid : ℕ) (toFilename : String)

/-- A known object. -/
def nodeOf (id : ℕ) (c : FsCache) : Except Nfsstat Node :=
  match c.idToNode.lookup id with
  | none => .error .noent
  | some n => .ok n

/-- The path of a directory. -/
def dirPath (dirid : ℕ) (c : FsCache) : Except Nfsstat String :=
  match c.idToNode.lookup dirid with
  | none => .error .noent
  | some n => if n.isDir = false then .error .notdir else .ok n.remotePath

/-- The id of a path. -/
def idOf (path : String) (c : FsCache) : Except Nfsstat ℕ :=
  match c.pathToId.lookup path with
  | none => .error .noent
  | some id => .ok id

section

variable (createdSecs : ℕ)

/-- The attributes of an object of this kind and size. -/
def attr (id : ℕ) (isDir : Bool) (size : ℕ) : Attr :=
  if isDir then ⟨true, 0o755, 2, 4096, 4096, id, createdSecs⟩
  else ⟨false, 0o644, 1, size, size, id, createdSecs⟩

/-- List a directory and intern what is in it. -/
def listAndCache (dirid : ℕ) : Op (List (ℕ × DirEntry)) := do
  let dirPath ← look (dirPath dirid)
  let payload ← ask (.listDir dirPath)
  write (fun _ => FsCache.listing dirid dirPath payload.entries)
    fun c => (c.internAll dirid dirPath payload.entries).1

/-- Find the id of a name in a directory. -/
def lookup (dirid : ℕ) (name : String) : Op Reply :=
  if name = "." then pure (.object dirid)
  else if name = ".." then do
    let n ← look (nodeOf dirid)
    pure (.object n.parent)
  else do
    let found ← look fun c => (dirPath dirid c).map fun dir =>
      (joinRemote dir name, c.pathToId.lookup (joinRemote dir name))
    match found.2 with
    | some id => pure (.object id)
    | none => do
      let _ ← listAndCache dirid
      let id ← look (idOf found.1)
      pure (.object id)

/-- The attributes that are known of an object. -/
def getattr (id : ℕ) : Op Reply := do
  let n ← look (nodeOf id)
  pure (.attr (attr createdSecs id n.isDir n.size))

/-- Read from a file. -/
def read (id offset count : ℕ) : Op Reply := do
  let n ← look (nodeOf id)
  if n.isDir then throw .isdir
  else if n.size ≤ offset then pure (.bytes [] true)
  else do
    let payload ← ask (.readFile n.remotePath offset count)
    pure (.bytes payload.data (n.size ≤ offset + payload.data.length))

/-- List a directory in the order of its ids. -/
def readdir (dirid startAfter maxEntries : ℕ) : Op Reply := do
  let kids ← listAndCache dirid
  let kids := kids.mergeSort fun a b => a.1 ≤ b.1
  let start := RdpdrFs.startIndex kids startAfter
  let entries := ((kids.drop (min start kids.length)).take maxEntries).map fun (id, e) =>
    (⟨id, e.name, attr createdSecs id e.isDir e.size⟩ : NfsDirEntry)
  pure (.listing entries (kids.length ≤ start + entries.length))

/-- The size that is known of an object. -/
def sizeOf (id : ℕ) (c : FsCache) : ℕ := ((c.idToNode.lookup id).map Node.size).getD 0

/-- Set a size; other attributes are accepted and ignored, and so is the size of a directory. -/
def setattr (id : ℕ) (size : Option ℕ) : Op Reply := do
  let n ← look (nodeOf id)
  match size with
  | none => do
    let size ← look fun c => .ok (sizeOf id c)
    pure (.attr (attr createdSecs id n.isDir size))
  | some newSize =>
    if n.isDir then do
      let size ← look fun c => .ok (sizeOf id c)
      pure (.attr (attr createdSecs id n.isDir size))
    else do
      let _ ← ask (.setLen n.remotePath newSize)
      write (fun _ => [.setSize id newSize]) fun _ => ()
      let size ← look fun c => .ok (sizeOf id c)
      pure (.attr (attr createdSecs id n.isDir size))

/-- Write to a file; the size that is known of it grows to the end of the write. -/
def writeBytes (id offset : ℕ) (data : List UInt8) : Op Reply := do
  let n ← look (nodeOf id)
  if n.isDir then throw .isdir
  else do
    let _ ← ask (.writeFile n.remotePath offset data)
    let size ← write (fun c => [.setSize id (max (sizeOf id c) (offset + data.length))])
      fun c => max (sizeOf id c) (offset + data.length)
    pure (.attr (attr createdSecs id false size))

/-- Create an object at a path, as the client is asked to, and intern it. -/
def made (dirid : ℕ) (name : String) (isDir : Bool) (request : String → Request) : Op ℕ := do
  let dir ← look (dirPath dirid)
  let _ ← ask (request (joinRemote dir name))
  write (fun _ => [.intern dirid (joinRemote dir name) isDir 0])
    fun c => (c.intern dirid (joinRemote dir name) isDir 0).1

/-- Create a file, or open the one that is there; it is taken to be empty. -/
def create (dirid : ℕ) (name : String) : Op Reply := do
  let id ← made dirid name false fun child => .createFile child false
  pure (.created id (attr createdSecs id false 0))

/-- Create a file that is not there. -/
def createExclusive (dirid : ℕ) (name : String) : Op Reply := do
  let id ← made dirid name false fun child => .createFile child true
  pure (.object id)

/-- Create a directory. -/
def mkdir (dirid : ℕ) (name : String) : Op Reply := do
  let id ← made dirid name true .createDir
  pure (.created id (attr createdSecs id true 0))

/-- What is known of a path, after its directory was listed if nothing was. -/
def resolve (dirid : ℕ) (path : String) : Op (ℕ × Node) := do
  let known ← look fun c => .ok (c.known path)
  match known with
  | some found => pure found
  | none => do
    let _ ← listAndCache dirid
    look fun c =>
      match c.known path with
      | some found => .ok found
      | none => .error .noent

/-- Remove a file or an empty directory. -/
def remove (dirid : ℕ) (name : String) : Op Reply := do
  let dir ← look (dirPath dirid)
  let found ← resolve dirid (joinRemote dir name)
  let _ ← ask (.remove (joinRemote dir name) found.2.isDir)
  write (fun _ => [.forget found.1]) fun _ => ()
  pure .done

/-- Rename: the old path is forgotten and the new one interned. -/
def rename (fromDirid : ℕ) (fromName : String) (toDirid : ℕ) (toName : String) : Op Reply := do
  let fromDir ← look (dirPath fromDirid)
  let toDir ← look (dirPath toDirid)
  let found ← resolve fromDirid (joinRemote fromDir fromName)
  let _ ← ask (.rename (joinRemote fromDir fromName) (joinRemote toDir toName) true)
  write (fun _ => [.forget found.1,
      .intern toDirid (joinRemote toDir toName) found.2.isDir found.2.size])
    fun _ => ()
  pure .done

/-- What a call does. -/
def program : FsCall → Op Reply
  | .lookup dirid filename => lookup dirid filename
  | .getattr id => getattr createdSecs id
  | .read id offset count => read id offset count
  | .readdir dirid startAfter maxEntries => readdir createdSecs dirid startAfter maxEntries
  | .setattr id size => setattr createdSecs id size
  | .write id offset data => writeBytes createdSecs id offset data
  | .create dirid filename => create createdSecs dirid filename
  | .createExclusive dirid filename => createExclusive dirid filename
  | .mkdir dirid dirname => mkdir createdSecs dirid dirname
  | .remove dirid filename => remove dirid filename
  | .rename fromDirid fromFilename toDirid toFilename =>
    rename fromDirid fromFilename toDirid toFilename

end

/-! ## A call that runs alone -/

/-- What the drive answers to a request. -/
def answer : Request → Drive → Response × Drive
  | .listDir path, d => ((RdpdrHandle.listDir path d).map fun entries => ⟨entries, []⟩, d)
  | .readFile path offset length, d =>
    ((RdpdrHandle.readFile path offset length d).map fun data => ⟨[], data⟩, d)
  | .writeFile path offset data, d => settled d (RdpdrHandle.writeFile path offset data d)
  | .createFile path exclusive, d => settled d (RdpdrHandle.createFile path exclusive d)
  | .createDir path, d => settled d (RdpdrHandle.createDir path d)
  | .remove path isDir, d => settled d (RdpdrHandle.remove path isDir d)
  | .rename source target replace, d => settled d (RdpdrHandle.rename source target replace d)
  | .setLen path size, d => settled d (RdpdrHandle.setLen path size d)
where
  /-- A change is made or refused. -/
  settled (d : Drive) : Except NtStatus Drive → Response × Drive
    | .ok d' => (.ok ⟨[], []⟩, d')
    | .error e => (.error e, d)

/-- What a call that runs alone comes to. -/
def alone {R : Type} (p : Op R) (c : FsCache) (d : Drive) : Except Nfsstat R × FsCache × Drive :=
  Program.alone FsCache.apply answer p c d

/-- How a call goes on from what its first part came to. -/
def goOn {R T : Type} (f : R → Op T) :
    Except Nfsstat R × FsCache × Drive → Except Nfsstat T × FsCache × Drive
  | (.ok r, c, d) => alone (f r) c d
  | (.error e, c, d) => (.error e, c, d)

variable {R T : Type}

@[simp] theorem goOn_ok (f : R → Op T) (r : R) (c : FsCache) (d : Drive) :
    goOn f (.ok r, c, d) = alone (f r) c d := rfl

@[simp] theorem goOn_error (f : R → Op T) (e : Nfsstat) (c : FsCache) (d : Drive) :
    goOn f (.error e, c, d) = (.error e, c, d) := rfl

/-- A call goes on unless its first part fails. -/
@[simp] theorem alone_bind (p : Op R) (f : R → Op T) (c : FsCache) (d : Drive) :
    alone (p >>= f) c d = goOn f (alone p c d) := by
  have hbind : alone (p >>= f) c d =
      Program.alone FsCache.apply answer (Program.bind p (ExceptT.bindCont f)) c d := rfl
  rw [hbind, Program.alone_bind]
  unfold alone
  generalize Program.alone FsCache.apply answer p c d = out
  obtain ⟨r, c', d'⟩ := out
  cases r <;> rfl

@[simp] theorem alone_pure (r : R) (c : FsCache) (d : Drive) :
    alone (pure r) c d = (.ok r, c, d) := rfl

@[simp] theorem alone_throw (e : Nfsstat) (c : FsCache) (d : Drive) :
    alone (throw e : Op R) c d = (.error e, c, d) := rfl

@[simp] theorem alone_look (f : FsCache → Except Nfsstat R) (c : FsCache) (d : Drive) :
    alone (look f) c d = (f c, c, d) := rfl

@[simp] theorem alone_write (writes : FsCache → List FsCache.Write) (f : FsCache → R)
    (c : FsCache) (d : Drive) :
    alone (write writes f) c d = (.ok (f c), (writes c).foldl FsCache.apply c, d) := rfl

@[simp] theorem alone_ask (q : Request) (c : FsCache) (d : Drive) :
    alone (ask q) c d = (heard (answer q d).1, c, (answer q d).2) := rfl

/-- A call came to what the surface answers with. -/
def Serves {R : Type} (p : Op R) (s : RdpdrFs) (out : Except Nfsstat R × RdpdrFs) : Prop :=
  alone p s.cache s.drive = (out.1, out.2.cache, out.2.drive)

/-- A directory is listed alone as the surface lists it. -/
theorem serves_listAndCache (dirid : ℕ) (s : RdpdrFs) :
    Serves (listAndCache dirid) s (s.listAndCache dirid) := by
  unfold Serves listAndCache RdpdrFs.listAndCache
  rw [alone_bind, alone_look, dirPath]
  cases s.cache.idToNode.lookup dirid with
  | none => rfl
  | some n =>
    dsimp only
    by_cases hdir : n.isDir = false
    · rw [if_pos hdir, if_pos hdir]
      rfl
    · rw [if_neg hdir, if_neg hdir, goOn_ok, alone_bind, alone_ask]
      simp only [answer]
      cases RdpdrHandle.listDir n.remotePath s.drive with
      | error e => rfl
      | ok entries =>
        dsimp only
        rw [FsCache.internAll_eq]
        rfl

/-- The path of a directory is found as the surface finds it. -/
theorem dirPath_eq (dirid : ℕ) (s : RdpdrFs) : dirPath dirid s.cache = s.dirPathOf dirid := rfl

/-- What is known of a path is found as the surface finds it. -/
theorem serves_resolve (dirid : ℕ) (path : String) (s : RdpdrFs) :
    Serves (resolve dirid path) s (s.resolve dirid path) := by
  unfold Serves resolve RdpdrFs.resolve
  rw [alone_bind, alone_look, goOn_ok]
  cases s.cache.known path with
  | some found => rfl
  | none =>
    dsimp only
    rw [alone_bind, serves_listAndCache]
    obtain ⟨r, s'⟩ := s.listAndCache dirid
    cases r with
    | error e => rfl
    | ok kids =>
      dsimp only
      rw [goOn_ok, alone_look]
      cases s'.cache.known path <;> rfl

/-- An id is looked up alone as the surface looks it up. -/
theorem serves_lookup (dirid : ℕ) (name : String) (s : RdpdrFs) :
    Serves (lookup dirid name) s (s.lookup dirid name) := by
  unfold Serves lookup RdpdrFs.lookup
  split
  · rfl
  split
  · rw [alone_bind, alone_look, nodeOf]
    cases s.cache.idToNode.lookup dirid <;> rfl
  · rw [alone_bind, alone_look, dirPath_eq]
    cases s.dirPathOf dirid with
    | error e => rfl
    | ok dir =>
      dsimp only [Except.map]
      rw [goOn_ok]
      dsimp only
      cases s.cache.pathToId.lookup (joinRemote dir name) with
      | some id => rfl
      | none =>
        dsimp only
        rw [alone_bind, serves_listAndCache]
        obtain ⟨r, s'⟩ := s.listAndCache dirid
        cases r with
        | error e => rfl
        | ok kids =>
          dsimp only
          rw [goOn_ok, alone_bind, alone_look, idOf]
          cases s'.cache.pathToId.lookup (joinRemote dir name) <;> rfl

/-- The attributes are read alone as the surface reads them. -/
theorem serves_getattr (id : ℕ) (s : RdpdrFs) :
    Serves (getattr s.createdSecs id) s (s.getattr id) := by
  unfold Serves getattr RdpdrFs.getattr
  rw [alone_bind, alone_look, nodeOf]
  cases s.cache.idToNode.lookup id <;> rfl

/-- A file is read alone as the surface reads it. -/
theorem serves_read (id offset count : ℕ) (s : RdpdrFs) :
    Serves (read id offset count) s (s.read id offset count) := by
  unfold Serves read RdpdrFs.read
  rw [alone_bind, alone_look, nodeOf]
  cases s.cache.idToNode.lookup id with
  | none => rfl
  | some n =>
    dsimp only
    rw [goOn_ok]
    split
    · rfl
    split
    · rfl
    · rw [alone_bind, alone_ask]
      simp only [answer]
      cases RdpdrHandle.readFile n.remotePath offset count s.drive <;> rfl

/-- A page is listed alone as the surface lists it. -/
theorem serves_readdir (dirid startAfter maxEntries : ℕ) (s : RdpdrFs) :
    Serves (readdir s.createdSecs dirid startAfter maxEntries) s
      (s.readdir dirid startAfter maxEntries) := by
  have hsecs : (s.listAndCache dirid).2.createdSecs = s.createdSecs := by
    unfold RdpdrFs.listAndCache
    split
    · rfl
    split
    · rfl
    split <;> rfl
  unfold Serves readdir RdpdrFs.readdir
  rw [alone_bind, serves_listAndCache]
  generalize s.listAndCache dirid = out at hsecs ⊢
  obtain ⟨r, s'⟩ := out
  cases r with
  | error e => rfl
  | ok kids =>
    dsimp only at hsecs ⊢
    rw [goOn_ok, alone_pure, ← hsecs]
    rfl

/-- A size is set alone as the surface sets it. -/
theorem serves_setattr (id : ℕ) (size : Option ℕ) (s : RdpdrFs) :
    Serves (setattr s.createdSecs id size) s (s.setattr id size) := by
  unfold Serves setattr RdpdrFs.setattr
  rw [alone_bind, alone_look, nodeOf]
  cases hn : s.cache.idToNode.lookup id with
  | none => rfl
  | some n =>
    dsimp only
    rw [goOn_ok]
    have hsize : sizeOf id s.cache = n.size := by
      rw [sizeOf, hn]
      rfl
    cases size with
    | none =>
      dsimp only
      rw [alone_bind, alone_look, hsize]
      rfl
    | some newSize =>
      dsimp only
      split
      · rw [alone_bind, alone_look, hsize]
        rfl
      · rw [alone_bind, alone_ask]
        simp only [answer]
        cases RdpdrHandle.setLen n.remotePath newSize s.drive with
        | error e => rfl
        | ok d =>
          have hset : sizeOf id (s.cache.setSize id newSize) = newSize := by
            rw [sizeOf, FsCache.lookup_setSize, hn, Option.map_some, if_pos rfl]
            rfl
          change alone (write _ _ >>= _) s.cache d = _
          rw [alone_bind, alone_write, goOn_ok, alone_bind, alone_look]
          change (_, s.cache.setSize id newSize, d) = _
          rw [List.foldl_cons, List.foldl_nil, FsCache.apply, hset]
          rfl

/-- A file is written alone as the surface writes it. -/
theorem serves_write (id offset : ℕ) (data : List UInt8) (s : RdpdrFs) :
    Serves (writeBytes s.createdSecs id offset data) s (s.write id offset data) := by
  unfold Serves writeBytes RdpdrFs.write
  rw [alone_bind, alone_look, nodeOf]
  cases hn : s.cache.idToNode.lookup id with
  | none => rfl
  | some n =>
    dsimp only
    rw [goOn_ok]
    split
    · rfl
    · rw [alone_bind, alone_ask]
      simp only [answer]
      cases RdpdrHandle.writeFile n.remotePath offset data s.drive with
      | error e => rfl
      | ok d =>
        have hsize : sizeOf id s.cache = n.size := by
          rw [sizeOf, hn]
          rfl
        rw [← hsize]
        rfl

/-- An object is created alone as the surface creates it. -/
theorem alone_made (dirid : ℕ) (name : String) (isDir : Bool)
    {request : String → Request} (make : String → Drive → Except NtStatus Drive)
    (hmake : ∀ child d, answer (request child) d = answer.settled d (make child d))
    (f : ℕ → Op T) (s : RdpdrFs) :
    alone (made dirid name isDir request >>= f) s.cache s.drive =
      match s.dirPathOf dirid with
      | .error e => (.error e, s.cache, s.drive)
      | .ok dir =>
        match make (joinRemote dir name) s.drive with
        | .error e => (.error (.ofNtStatus e), s.cache, s.drive)
        | .ok d => alone (f (s.created dirid (joinRemote dir name) isDir d).1)
            (s.created dirid (joinRemote dir name) isDir d).2.cache d := by
  rw [alone_bind, made, alone_bind, alone_look, dirPath_eq]
  cases s.dirPathOf dirid with
  | error e => rfl
  | ok dir =>
    rw [goOn_ok, alone_bind, alone_ask, hmake]
    dsimp only
    cases make (joinRemote dir name) s.drive <;> rfl

/-- A file is created alone as the surface creates it. -/
theorem serves_create (dirid : ℕ) (name : String) (s : RdpdrFs) :
    Serves (create s.createdSecs dirid name) s (s.create dirid name) := by
  unfold Serves create RdpdrFs.create
  rw [alone_made dirid name false (RdpdrHandle.createFile · false) fun _ _ => rfl]
  cases s.dirPathOf dirid with
  | error e => rfl
  | ok dir =>
    dsimp only
    cases RdpdrHandle.createFile (joinRemote dir name) false s.drive <;> rfl

/-- A file is created exclusively alone as the surface creates it. -/
theorem serves_createExclusive (dirid : ℕ) (name : String) (s : RdpdrFs) :
    Serves (createExclusive dirid name) s (s.createExclusive dirid name) := by
  unfold Serves createExclusive RdpdrFs.createExclusive
  rw [alone_made dirid name false (RdpdrHandle.createFile · true) fun _ _ => rfl]
  cases s.dirPathOf dirid with
  | error e => rfl
  | ok dir =>
    dsimp only
    cases RdpdrHandle.createFile (joinRemote dir name) true s.drive <;> rfl

/-- A directory is created alone as the surface creates it. -/
theorem serves_mkdir (dirid : ℕ) (name : String) (s : RdpdrFs) :
    Serves (mkdir s.createdSecs dirid name) s (s.mkdir dirid name) := by
  unfold Serves mkdir RdpdrFs.mkdir
  rw [alone_made dirid name true RdpdrHandle.createDir fun _ _ => rfl]
  cases s.dirPathOf dirid with
  | error e => rfl
  | ok dir =>
    dsimp only
    cases RdpdrHandle.createDir (joinRemote dir name) s.drive <;> rfl

/-- An object is removed alone as the surface removes it. -/
theorem serves_remove (dirid : ℕ) (name : String) (s : RdpdrFs) :
    Serves (remove dirid name) s (s.remove dirid name) := by
  unfold Serves remove RdpdrFs.remove
  rw [alone_bind, alone_look, dirPath_eq]
  cases s.dirPathOf dirid with
  | error e => rfl
  | ok dir =>
    dsimp only
    rw [goOn_ok, alone_bind, serves_resolve]
    obtain ⟨r, s'⟩ := s.resolve dirid (joinRemote dir name)
    cases r with
    | error e => rfl
    | ok found =>
      obtain ⟨id, n⟩ := found
      dsimp only
      rw [goOn_ok, alone_bind, alone_ask]
      simp only [answer]
      cases RdpdrHandle.remove (joinRemote dir name) n.isDir s'.drive <;> rfl

/-- An object is renamed alone as the surface renames it. -/
theorem serves_rename (fromDirid : ℕ) (fromName : String) (toDirid : ℕ) (toName : String)
    (s : RdpdrFs) :
    Serves (rename fromDirid fromName toDirid toName) s
      (s.rename fromDirid fromName toDirid toName) := by
  unfold Serves rename RdpdrFs.rename
  rw [alone_bind, alone_look, dirPath_eq]
  cases s.dirPathOf fromDirid with
  | error e => rfl
  | ok fromDir =>
    dsimp only
    rw [goOn_ok, alone_bind, alone_look, dirPath_eq]
    cases s.dirPathOf toDirid with
    | error e => rfl
    | ok toDir =>
      dsimp only
      rw [goOn_ok, alone_bind, serves_resolve]
      obtain ⟨r, s'⟩ := s.resolve fromDirid (joinRemote fromDir fromName)
      cases r with
      | error e => rfl
      | ok found =>
        obtain ⟨id, n⟩ := found
        dsimp only
        rw [goOn_ok, alone_bind, alone_ask]
        simp only [answer]
        cases RdpdrHandle.rename (joinRemote fromDir fromName) (joinRemote toDir toName) true
          s'.drive <;> rfl

/-- A call whose names are components. -/
def FsCall.ofCall : Call → FsCall
  | .lookup dirid filename => .lookup dirid filename.text
  | .getattr id => .getattr id
  | .read id offset count => .read id offset count
  | .readdir dirid startAfter maxEntries => .readdir dirid startAfter maxEntries
  | .setattr id size => .setattr id size
  | .write id offset data => .write id offset data
  | .create dirid filename _ => .create dirid filename.val
  | .createExclusive dirid filename => .createExclusive dirid filename.val
  | .mkdir dirid dirname => .mkdir dirid dirname.val
  | .remove dirid filename => .remove dirid filename.val
  | .rename fromDirid fromFilename toDirid toFilename =>
    .rename fromDirid fromFilename.val toDirid toFilename.val

/-- A call that runs alone is served as the surface serves it. -/
theorem serves_program (call : Call) (s : RdpdrFs) :
    Serves (program s.createdSecs (.ofCall call)) s (s.serve call) := by
  cases call with
  | lookup dirid filename => exact serves_lookup dirid filename.text s
  | getattr id => exact serves_getattr id s
  | read id offset count => exact serves_read id offset count s
  | readdir dirid startAfter maxEntries => exact serves_readdir dirid startAfter maxEntries s
  | setattr id size => exact serves_setattr id size s
  | write id offset data => exact serves_write id offset data s
  | create dirid filename size => exact serves_create dirid filename.val s
  | createExclusive dirid filename => exact serves_createExclusive dirid filename.val s
  | mkdir dirid dirname => exact serves_mkdir dirid dirname.val s
  | remove dirid filename => exact serves_remove dirid filename.val s
  | rename fromDirid fromFilename toDirid toFilename =>
    exact serves_rename fromDirid fromFilename.val toDirid toFilename.val s

end Macrdp.SurfaceSections
