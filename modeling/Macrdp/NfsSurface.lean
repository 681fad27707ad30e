import Macrdp.RedirectedDrive

/-!
# The NFS surface of a redirected drive

The server addresses objects by file ids and the drive by paths, so it gives each path that it
meets an id and keeps what it knows of the object there. Calls are answered from what it knows or
by operations on the drive.
-/

namespace Macrdp.NfsSurface

open RedirectedDrive

/-- The file id of the root. -/
def rootId : ℕ := 1

/-- Why a call is refused. -/
inductive Nfsstat where
  | noent
  | notdir
  | isdir
  | acces
  | exist
  | notempty
  | io
  deriving DecidableEq

/-- The closest status to one of the client. -/
def Nfsstat.ofNtStatus : NtStatus → Nfsstat
  | .accessDenied => .acces
  | .objectNameCollision => .exist
  | .noSuchFile => .noent
  | .notADirectory => .notdir
  | .directoryNotEmpty => .notempty
  | .fileIsADirectory => .io
  | .objectNameInvalid => .io

/-! ## What is known of the tree -/

/-- A known object. -/
structure Node where
  remotePath : String
  isDir : Bool
  size : ℕ
  /-- The id of its directory; the root is its own. -/
  parent : ℕ
  deriving DecidableEq

/-- The map between paths and file ids. -/
structure FsCache where
  nextId : ℕ
  idToNode : AList fun _ : ℕ => Node
  pathToId : AList fun _ : String => ℕ

namespace FsCache

/-- Only the root is known. -/
def new : FsCache where
  nextId := rootId + 1
  idToNode := AList.insert rootId ⟨"\\", true, 0, rootId⟩ ∅
  pathToId := AList.insert "\\" rootId ∅

/-- The id of a path; the kind and size of a known one are refreshed. -/
def intern (parent : ℕ) (path : String) (isDir : Bool) (size : ℕ) (c : FsCache) : ℕ × FsCache :=
  match c.pathToId.lookup path with
  | some id =>
    match c.idToNode.lookup id with
    | some n =>
      (id, { c with idToNode := c.idToNode.insert id { n with isDir := isDir, size := size } })
    | none => (id, c)
  | none =>
    (c.nextId,
      { nextId := c.nextId + 1
        idToNode := c.idToNode.insert c.nextId ⟨path, isDir, size, parent⟩
        pathToId := c.pathToId.insert path c.nextId })

/-- Drop an object. -/
def forget (id : ℕ) (c : FsCache) : FsCache :=
  match c.idToNode.lookup id with
  | some n =>
    { c with idToNode := c.idToNode.erase id, pathToId := c.pathToId.erase n.remotePath }
  | none => c

/-- Update the size of an object. -/
def setSize (id size : ℕ) (c : FsCache) : FsCache :=
  match c.idToNode.lookup id with
  | some n => { c with idToNode := c.idToNode.insert id { n with size := size } }
  | none => c

/-- The id of a path and what is known of it. -/
def known (path : String) (c : FsCache) : Option (ℕ × Node) :=
  (c.pathToId.lookup path).bind fun id => (c.idToNode.lookup id).map fun n => (id, n)

/-- Intern the entries of a directory in turn. -/
def internAll (dirid : ℕ) (dirPath : String) : List DirEntry → FsCache →
    List (ℕ × DirEntry) × FsCache
  | [], c => ([], c)
  | e :: rest, c =>
    let (id, c) := c.intern dirid (joinRemote dirPath e.name) e.isDir e.size
    let (out, c) := internAll dirid dirPath rest c
    ((id, e) :: out, c)

/-- The first entry is interned before the others. -/
theorem internAll_cons {dirid id : ℕ} {dirPath : String} {e : DirEntry} {c c' : FsCache}
    (h : c.intern dirid (joinRemote dirPath e.name) e.isDir e.size = (id, c'))
    (rest : List DirEntry) :
    c.internAll dirid dirPath (e :: rest) =
      ((id, e) :: (c'.internAll dirid dirPath rest).1, (c'.internAll dirid dirPath rest).2) := by
  rw [internAll, h]

/-- The other nodes stay known. -/
theorem lookup_forget {c : FsCache} {id : ℕ} {n : Node} (hn : c.idToNode.lookup id = some n)
    (k : ℕ) :
    (c.forget id).idToNode.lookup k = if k = id then none else c.idToNode.lookup k := by
  unfold forget
  rw [hn]
  change (c.idToNode.erase id).lookup k = _
  split
  · next hk => rw [hk, AList.lookup_erase]
  · next hk => exact AList.lookup_erase_ne hk

/-- The other paths stay known. -/
theorem path_forget {c : FsCache} {id : ℕ} {n : Node} (hn : c.idToNode.lookup id = some n)
    (s : String) :
    (c.forget id).pathToId.lookup s = if s = n.remotePath then none else c.pathToId.lookup s := by
  unfold forget
  rw [hn]
  change (c.pathToId.erase n.remotePath).lookup s = _
  split
  · next hs => rw [hs, AList.lookup_erase]
  · next hs => exact AList.lookup_erase_ne hs

/-- Forgetting gives no id back. -/
theorem nextId_forget (c : FsCache) (id : ℕ) : (c.forget id).nextId = c.nextId := by
  unfold forget
  split <;> rfl

end FsCache

/-! ## Calls -/

/-- The attributes of an object. -/
structure Attr where
  isDir : Bool
  mode : ℕ
  nlink : ℕ
  size : ℕ
  used : ℕ
  fileid : ℕ
  /-- All three times. -/
  time : ℕ
  deriving DecidableEq

/-- An entry of a listing. -/
structure NfsDirEntry where
  fileid : ℕ
  name : String
  attr : Attr
  deriving DecidableEq

/-- What a call is answered with. -/
inductive Reply where
  | object (id : ℕ)
  | attr (a : Attr)
  | created (id : ℕ) (a : Attr)
  | bytes (data : List UInt8) (eof : Bool)
  | listing (entries : List NfsDirEntry) (complete : Bool)
  | done
  deriving DecidableEq

/-- A component of a path that is looked up. -/
inductive Component where
  | here
  | up
  | name (n : Name)
  deriving DecidableEq

/-- How it is spelled. -/
def Component.text : Component → String
  | .here => "."
  | .up => ".."
  | .name n => n.val

/-- The calls. A size in a set of attributes is optional; nothing else of one is looked at. -/
inductive Call where
  | lookup (dirid : ℕ) (filename : Component)
  | getattr (id : ℕ)
  | read (id offset count : ℕ)
  | readdir (dirid startAfter maxEntries : ℕ)
  | setattr (id : ℕ) (size : Option ℕ)
  | write (id offset : ℕ) (data : List UInt8)
  | create (dirid : ℕ) (filename : Name) (size : Option ℕ)
  | createExclusive (dirid : ℕ) (filename : Name)
  | mkdir (dirid : ℕ) (dirname : Name)
  | remove (dirid : ℕ) (filename : Name)
  | rename (fromDirid : ℕ) (fromFilename : Name) (toDirid : ℕ) (toFilename : Name)
  deriving DecidableEq

/-- The server and the drive behind it. -/
structure RdpdrFs where
  createdSecs : ℕ
  cache : FsCache
  drive : Drive

namespace RdpdrFs

/-- A server over a drive that it knows nothing of. -/
def new (createdSecs : ℕ) (drive : Drive) : RdpdrFs := ⟨createdSecs, .new, drive⟩

/-- The attributes of an object of this kind and size. -/
def attr (id : ℕ) (isDir : Bool) (size : ℕ) (s : RdpdrFs) : Attr :=
  if isDir then ⟨true, 0o755, 2, 4096, 4096, id, s.createdSecs⟩
  else ⟨false, 0o644, 1, size, size, id, s.createdSecs⟩

/-- List a directory and intern what is in it. -/
def listAndCache (dirid : ℕ) (s : RdpdrFs) : Except Nfsstat (List (ℕ × DirEntry)) × RdpdrFs :=
  match s.cache.idToNode.lookup dirid with
  | none => (.error .noent, s)
  | some n =>
    if n.isDir = false then (.error .notdir, s)
    else
      match RdpdrHandle.listDir n.remotePath s.drive with
      | .error e => (.error (.ofNtStatus e), s)
      | .ok entries =>
        let (out, cache) := s.cache.internAll dirid n.remotePath entries
        (.ok out, { s with cache := cache })

/-- The path of a directory. -/
def dirPathOf (dirid : ℕ) (s : RdpdrFs) : Except Nfsstat String :=
  match s.cache.idToNode.lookup dirid with
  | none => .error .noent
  | some n => if n.isDir = false then .error .notdir else .ok n.remotePath

/-- Find the id of a name in a directory. -/
def lookup (dirid : ℕ) (name : String) (s : RdpdrFs) : Except Nfsstat Reply × RdpdrFs :=
  if name = "." then (.ok (.object dirid), s)
  else if name = ".." then
    match s.cache.idToNode.lookup dirid with
    | some n => (.ok (.object n.parent), s)
    | none => (.error .noent, s)
  else
    match s.dirPathOf dirid with
    | .error e => (.error e, s)
    | .ok path =>
      match s.cache.pathToId.lookup (joinRemote path name) with
      | some id => (.ok (.object id), s)
      | none =>
        match s.listAndCache dirid with
        | (.error e, s) => (.error e, s)
        | (.ok _, s) =>
          match s.cache.pathToId.lookup (joinRemote path name) with
          | some id => (.ok (.object id), s)
          | none => (.error .noent, s)

/-- The attributes that are known of an object. -/
def getattr (id : ℕ) (s : RdpdrFs) : Except Nfsstat Reply × RdpdrFs :=
  match s.cache.idToNode.lookup id with
  | none => (.error .noent, s)
  | some n => (.ok (.attr (s.attr id n.isDir n.size)), s)

/-- Read from a file. Behind the size that is known of it the client is not asked. -/
def read (id offset count : ℕ) (s : RdpdrFs) : Except Nfsstat Reply × RdpdrFs :=
  match s.cache.idToNode.lookup id with
  | none => (.error .noent, s)
  | some n =>
    if n.isDir then (.error .isdir, s)
    else if n.size ≤ offset then (.ok (.bytes [] true), s)
    else
      match RdpdrHandle.readFile n.remotePath offset count s.drive with
      | .error e => (.error (.ofNtStatus e), s)
      | .ok data => (.ok (.bytes data (n.size ≤ offset + data.length)), s)

/-- Where a listing goes on after an entry; after one that is not there it starts over. -/
def startIndex (kids : List (ℕ × DirEntry)) (startAfter : ℕ) : ℕ :=
  if startAfter = 0 then 0
  else
    match kids.findIdx? fun e => e.1 = startAfter with
    | some p => p + 1
    | none => 0

/-- List a directory in the order of its ids. -/
def readdir (dirid startAfter maxEntries : ℕ) (s : RdpdrFs) : Except Nfsstat Reply × RdpdrFs :=
  match s.listAndCache dirid with
  | (.error e, s) => (.error e, s)
  | (.ok kids, s) =>
    let kids := kids.mergeSort fun a b => a.1 ≤ b.1
    let start := startIndex kids startAfter
    let entries := ((kids.drop (min start kids.length)).take maxEntries).map fun (id, e) =>
      (⟨id, e.name, s.attr id e.isDir e.size⟩ : NfsDirEntry)
    (.ok (.listing entries (kids.length ≤ start + entries.length)), s)

/-- Set a size; other attributes are accepted and ignored, and so is the size of a directory. -/
def setattr (id : ℕ) (size : Option ℕ) (s : RdpdrFs) : Except Nfsstat Reply × RdpdrFs :=
  match s.cache.idToNode.lookup id with
  | none => (.error .noent, s)
  | some n =>
    match size with
    | none => (.ok (.attr (s.attr id n.isDir n.size)), s)
    | some newSize =>
      if n.isDir then (.ok (.attr (s.attr id n.isDir n.size)), s)
      else
        match RdpdrHandle.setLen n.remotePath newSize s.drive with
        | .error e => (.error (.ofNtStatus e), s)
        | .ok drive =>
          (.ok (.attr (s.attr id n.isDir newSize)),
            { s with cache := s.cache.setSize id newSize, drive := drive })

/-- Write to a file; the size that is known of it grows to the end of the write. -/
def write (id offset : ℕ) (data : List UInt8) (s : RdpdrFs) : Except Nfsstat Reply × RdpdrFs :=
  match s.cache.idToNode.lookup id with
  | none => (.error .noent, s)
  | some n =>
    if n.isDir then (.error .isdir, s)
    else
      match RdpdrHandle.writeFile n.remotePath offset data s.drive with
      | .error e => (.error (.ofNtStatus e), s)
      | .ok drive =>
        (.ok (.attr (s.attr id false (max n.size (offset + data.length)))),
          { s with cache := s.cache.setSize id (max n.size (offset + data.length)), drive := drive })

/-- Intern an object that was created. -/
def created (dirid : ℕ) (path : String) (isDir : Bool) (drive : Drive) (s : RdpdrFs) :
    ℕ × RdpdrFs :=
  let (id, cache) := s.cache.intern dirid path isDir 0
  (id, { s with cache := cache, drive := drive })

/-- Create a file, or open the one that is there; it is taken to be empty. -/
def create (dirid : ℕ) (name : String) (s : RdpdrFs) : Except Nfsstat Reply × RdpdrFs :=
  match s.dirPathOf dirid with
  | .error e => (.error e, s)
  | .ok path =>
    match RdpdrHandle.createFile (joinRemote path name) false s.drive with
    | .error e => (.error (.ofNtStatus e), s)
    | .ok drive =>
      let (id, s) := s.created dirid (joinRemote path name) false drive
      (.ok (.created id (s.attr id false 0)), s)

/-- Create a file that is not there. -/
def createExclusive (dirid : ℕ) (name : String) (s : RdpdrFs) : Except Nfsstat Reply × RdpdrFs :=
  match s.dirPathOf dirid with
  | .error e => (.error e, s)
  | .ok path =>
    match RdpdrHandle.createFile (joinRemote path name) true s.drive with
    | .error e => (.error (.ofNtStatus e), s)
    | .ok drive =>
      let (id, s) := s.created dirid (joinRemote path name) false drive
      (.ok (.object id), s)

/-- Create a directory. -/
def mkdir (dirid : ℕ) (name : String) (s : RdpdrFs) : Except Nfsstat Reply × RdpdrFs :=
  match s.dirPathOf dirid with
  | .error e => (.error e, s)
  | .ok path =>
    match RdpdrHandle.createDir (joinRemote path name) s.drive with
    | .error e => (.error (.ofNtStatus e), s)
    | .ok drive =>
      let (id, s) := s.created dirid (joinRemote path name) true drive
      (.ok (.created id (s.attr id true 0)), s)

/-- What is known of a path, after its directory was listed if nothing was. -/
def resolve (dirid : ℕ) (path : String) (s : RdpdrFs) : Except Nfsstat (ℕ × Node) × RdpdrFs :=
  match s.cache.known path with
  | some found => (.ok found, s)
  | none =>
    match s.listAndCache dirid with
    | (.error e, s) => (.error e, s)
    | (.ok _, s) =>
      match s.cache.known path with
      | some found => (.ok found, s)
      | none => (.error .noent, s)

/-- Remove a file or an empty directory. -/
def remove (dirid : ℕ) (name : String) (s : RdpdrFs) : Except Nfsstat Reply × RdpdrFs :=
  match s.dirPathOf dirid with
  | .error e => (.error e, s)
  | .ok path =>
    match s.resolve dirid (joinRemote path name) with
    | (.error e, s) => (.error e, s)
    | (.ok (id, n), s) =>
      match RdpdrHandle.remove (joinRemote path name) n.isDir s.drive with
      | .error e => (.error (.ofNtStatus e), s)
      | .ok drive => (.ok .done, { s with cache := s.cache.forget id, drive := drive })

/-- Rename: the old path is forgotten and the new one interned. -/
def rename (fromDirid : ℕ) (fromName : String) (toDirid : ℕ) (toName : String) (s : RdpdrFs) :
    Except Nfsstat Reply × RdpdrFs :=
  match s.dirPathOf fromDirid with
  | .error e => (.error e, s)
  | .ok fromDir =>
    match s.dirPathOf toDirid with
    | .error e => (.error e, s)
    | .ok toDir =>
      match s.resolve fromDirid (joinRemote fromDir fromName) with
      | (.error e, s) => (.error e, s)
      | (.ok (id, n), s) =>
        match RdpdrHandle.rename (joinRemote fromDir fromName) (joinRemote toDir toName) true
            s.drive with
        | .error e => (.error (.ofNtStatus e), s)
        | .ok drive =>
          let (_, cache) := (s.cache.forget id).intern toDirid (joinRemote toDir toName) n.isDir
            n.size
          (.ok .done, { s with cache := cache, drive := drive })

/-- Answer a call. The attributes that a file is to be created with are not looked at. -/
def serve (s : RdpdrFs) : Call → Except Nfsstat Reply × RdpdrFs
  | .lookup dirid filename => s.lookup dirid filename.text
  | .getattr id => s.getattr id
  | .read id offset count => s.read id offset count
  | .readdir dirid startAfter maxEntries => s.readdir dirid startAfter maxEntries
  | .setattr id size => s.setattr id size
  | .write id offset data => s.write id offset data
  | .create dirid filename _ => s.create dirid filename.val
  | .createExclusive dirid filename => s.createExclusive dirid filename.val
  | .mkdir dirid dirname => s.mkdir dirid dirname.val
  | .remove dirid filename => s.remove dirid filename.val
  | .rename fromDirid fromFilename toDirid toFilename =>
    s.rename fromDirid fromFilename.val toDirid toFilename.val

end RdpdrFs

end Macrdp.NfsSurface
