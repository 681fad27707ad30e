import Macrdp.FileBytes
import Macrdp.FileTree
import Mathlib.Algebra.Group.Nat.Defs
import Mathlib.Data.List.Induction

/-!
# A redirected drive and the operations on it

The client's drive is a tree whose names have no separators; requests name its objects by
backslash paths. The drive answers a create, a read, a write, a query of a directory and the
setting of a disposition, a name or a length as specified: a read gives what there is, a write
takes all bytes, only an empty directory is deleted and only a file replaces a file. The
operations on the drive open an object by its path and act on it.
-/

namespace Macrdp.RedirectedDrive

open FileBytes FileTree

/-! ## Names and paths -/

/-- A name that a directory can hold. -/
def ValidName (s : String) : Prop := s ≠ "" ∧ '\\' ∉ s.toList ∧ s ≠ "." ∧ s ≠ ".."

instance : DecidablePred ValidName := fun s =>
  inferInstanceAs (Decidable (s ≠ "" ∧ '\\' ∉ s.toList ∧ s ≠ "." ∧ s ≠ ".."))

/-- A name without separators. -/
abbrev Name := { s : String // ValidName s }

/-- Join a child's name onto the path of a directory. -/
def joinRemote (dir name : String) : String :=
  if dir = "\\" then "\\" ++ name else dir ++ "\\" ++ name

/-- The path of an object, by the names that lead to it. -/
def render (p : List Name) : String := p.foldl (fun dir n => joinRemote dir n.val) "\\"

/-- Characters as a name. -/
def toName (chars : List Char) : Option Name :=
  if h : ValidName (String.ofList chars) then some ⟨String.ofList chars, h⟩ else none

/-- What stands before the first separator, and what follows each. -/
def splitPath (chars : List Char) : List Char × List (List Char) :=
  chars.foldr (fun c (front, parts) =>
    if c = '\\' then ([], front :: parts) else (c :: front, parts)) ([], [])

/-- The names that a path consists of. -/
def parse (path : String) : Option (List Name) :=
  if path = "\\" then some []
  else
    match splitPath path.toList with
    | ([], parts) => parts.mapM toName
    | _ => none

/-- The path of a child joins its name onto the path of its directory. -/
theorem render_append (p : List Name) (n : Name) :
    render (p ++ [n]) = joinRemote (render p) n.val := by
  rw [render, List.foldl_append]
  rfl

/-- A joined path ends with the separator and the name. -/
theorem toList_joinRemote (dir name : String) :
    (joinRemote dir name).toList =
      (if dir = "\\" then [] else dir.toList) ++ '\\' :: name.toList := by
  unfold joinRemote
  split
  · rw [String.toList_append]
    rfl
  · rw [String.toList_append, String.toList_append, List.append_assoc]
    rfl

/-- A joined path is longer than that of its directory. -/
theorem length_lt_joinRemote (dir : String) (n : Name) :
    dir.toList.length < (joinRemote dir n.val).toList.length := by
  have hname : 0 < n.val.toList.length := by
    refine List.length_pos_of_ne_nil fun hnil => n.property.1 ?_
    exact String.toList_injective (hnil.trans String.toList_empty.symm)
  rw [toList_joinRemote]
  split
  · next hroot =>
    rw [hroot]
    change 1 < ([] ++ '\\' :: n.val.toList).length
    rw [List.nil_append, List.length_cons]
    omega
  · rw [List.length_append, List.length_cons]
    omega

/-- A joined path is not that of the root. -/
theorem joinRemote_ne_root (dir : String) (n : Name) : joinRemote dir n.val ≠ "\\" := by
  intro h
  have hlen := length_lt_joinRemote dir n
  have hdir : dir ≠ "\\" := fun heq => by
    rw [h, heq] at hlen
    omega
  have hpos : 0 < n.val.toList.length := by
    refine List.length_pos_of_ne_nil fun hnil => n.property.1 ?_
    exact String.toList_injective (hnil.trans String.toList_empty.symm)
  have hroot := congrArg (fun s : String => s.toList.length) h
  rw [toList_joinRemote, if_neg hdir, List.length_append, List.length_cons] at hroot
  change dir.toList.length + (n.val.toList.length + 1) = 1 at hroot
  omega

/-- Each name follows a separator. -/
theorem toList_render {p : List Name} (hp : p ≠ []) :
    (render p).toList = p.flatMap fun n => '\\' :: n.val.toList := by
  induction p using List.reverseRecOn with
  | nil => exact absurd rfl hp
  | append_singleton q n ih =>
    rw [render_append, toList_joinRemote, List.flatMap_append]
    cases q with
    | nil =>
      have hroot : render [] = "\\" := rfl
      rw [if_pos hroot]
      simp only [List.flatMap_nil, List.nil_append, List.flatMap_cons, List.append_nil]
    | cons m rest =>
      have hroot : render (m :: rest) ≠ "\\" := by
        rw [← List.dropLast_append_getLast (List.cons_ne_nil m rest), render_append]
        exact joinRemote_ne_root _ _
      rw [if_neg hroot, ih (List.cons_ne_nil m rest)]
      simp only [List.flatMap_cons, List.flatMap_nil, List.append_nil]

/-- The first character of a path is a separator, or belongs to what stands before the next. -/
theorem splitPath_cons (c : Char) (rest : List Char) :
    splitPath (c :: rest) =
      if c = '\\' then ([], (splitPath rest).1 :: (splitPath rest).2)
      else (c :: (splitPath rest).1, (splitPath rest).2) :=
  rfl

/-- A name belongs to what stands before the next separator. -/
theorem splitPath_append {chars : List Char} (hchars : '\\' ∉ chars) (rest : List Char) :
    splitPath (chars ++ rest) = (chars ++ (splitPath rest).1, (splitPath rest).2) := by
  induction chars with
  | nil => rfl
  | cons c chars ih =>
    have hc : c ≠ '\\' := fun heq => hchars (by rw [heq]; exact List.mem_cons_self)
    rw [List.cons_append, splitPath_cons, if_neg hc, ih (fun hmem => hchars (List.mem_cons_of_mem c hmem)),
      List.cons_append]

/-- The names of a path are what follows its separators. -/
theorem splitPath_flatMap (p : List Name) :
    splitPath (p.flatMap fun n => '\\' :: n.val.toList) = ([], p.map fun n => n.val.toList) := by
  induction p with
  | nil => rfl
  | cons n p ih =>
    have hsplit := splitPath_append n.property.2.1 (p.flatMap fun n => '\\' :: n.val.toList)
    rw [ih, List.append_nil] at hsplit
    rw [List.flatMap_cons, List.cons_append, splitPath_cons, if_pos rfl, hsplit]
    rfl

/-- The characters of a name are that name. -/
theorem toName_toList (n : Name) : toName n.val.toList = some n := by
  have hval : String.ofList n.val.toList = n.val := String.ofList_toList
  have hvalid : ValidName (String.ofList n.val.toList) := hval.symm ▸ n.property
  rw [toName, dif_pos hvalid]
  exact congrArg some (Subtype.ext hval)

/-- A path is parsed into the names that it was made of. -/
theorem parse_render (p : List Name) : parse (render p) = some p := by
  cases p with
  | nil => rfl
  | cons m rest =>
    have hroot : render (m :: rest) ≠ "\\" := by
      rw [← List.dropLast_append_getLast (List.cons_ne_nil m rest), render_append]
      exact joinRemote_ne_root _ _
    have hnames : ∀ q : List Name, (q.map fun n => n.val.toList).mapM toName = some q := by
      intro q
      induction q with
      | nil => rfl
      | cons n q ih =>
        rw [List.map_cons, List.mapM_cons, toName_toList, ih]
        rfl
    rw [parse, if_neg hroot, toList_render (List.cons_ne_nil m rest), splitPath_flatMap]
    exact hnames (m :: rest)

/-- Different paths are spelled differently. -/
theorem render_injective {p q : List Name} (h : render p = render q) : p = q := by
  have hparse := congrArg parse h
  rw [parse_render, parse_render] at hparse
  exact Option.some.inj hparse

/-! ## The drive -/

/-- The tree of the client's drive. -/
abbrev Drive := Tree Name UInt8

/-- Why the client refuses a request. -/
inductive NtStatus where
  | accessDenied
  | objectNameCollision
  | noSuchFile
  | notADirectory
  | directoryNotEmpty
  | fileIsADirectory
  | objectNameInvalid
  deriving DecidableEq

/-- Whether an open may find, make or do either. -/
inductive CreateDisposition where
  | fileOpen
  | fileCreate
  | fileOpenIf
  deriving DecidableEq

/-- What an open takes. -/
inductive CreateOptions where
  | directoryFile
  | nonDirectoryFile
  | any
  deriving DecidableEq

/-- An object is what the options ask for. -/
def CreateOptions.check (options : CreateOptions) (c : Content UInt8) : Except NtStatus Unit :=
  match options, c with
  | .directoryFile, .file _ => .error .notADirectory
  | .nonDirectoryFile, .dir => .error .fileIsADirectory
  | _, _ => .ok ()

/-- A new object of the kind that the options ask for. -/
def CreateOptions.fresh : CreateOptions → Content UInt8
  | .directoryFile => .dir
  | _ => .file []

/-- An entry of a directory. -/
structure DirEntry where
  name : String
  size : ℕ
  isDir : Bool
  deriving DecidableEq

namespace Drive

/-- The object at a path. -/
def find (path : String) (d : Drive) : Option ℕ := (parse path).bind (d.walk 0)

/-- The directory and the name that a path ends with. -/
def locate (path : String) (d : Drive) : Option (ℕ × Name) :=
  (parse path).bind fun p =>
    match p.getLast? with
    | none => none
    | some n => (d.walk 0 p.dropLast).map fun parent => (parent, n)

/-- Make an object at a path whose directory is there. -/
def createAt (path : String) (c : Content UInt8) (d : Drive) : Except NtStatus (ℕ × Drive) :=
  match d.locate path with
  | none => .error .objectNameInvalid
  | some (parent, n) =>
    if d.content parent = some .dir then
      match d.create parent n c with
      | some (d', i) => .ok (i, d')
      | none => .error .objectNameCollision
    else .error .objectNameInvalid

/-- A path leads where its names do. -/
theorem find_render (p : List Name) (d : Drive) : d.find (render p) = d.walk 0 p := by
  rw [find, parse_render]
  rfl

/-- The path of a child names its directory and the child. -/
theorem locate_join (p : List Name) (n : Name) (d : Drive) :
    d.locate (joinRemote (render p) n.val) = (d.walk 0 p).map fun parent => (parent, n) := by
  rw [← render_append, locate, parse_render]
  simp only [Option.bind_some, List.getLast?_concat, List.dropLast_concat]

/-- The path of a child leads to the child. -/
theorem find_join (p : List Name) (n : Name) (d : Drive) :
    d.find (joinRemote (render p) n.val) = (d.walk 0 p).bind fun parent => d.child parent n := by
  rw [← render_append, find_render, Tree.walk_append]

/-- Open the object at a path. -/
def openWith (path : String) (disposition : CreateDisposition) (options : CreateOptions)
    (d : Drive) : Except NtStatus (ℕ × Drive) :=
  match d.find path with
  | some i =>
    if disposition = .fileCreate then .error .objectNameCollision
    else
      match d.content i with
      | some c => (options.check c).map fun _ => (i, d)
      | none => .error .noSuchFile
  | none =>
    if disposition = .fileOpen then .error .noSuchFile else d.createAt path options.fresh

/-- The bytes of an open file. -/
def bytes (i : ℕ) (d : Drive) : List UInt8 :=
  match d.content i with
  | some (.file bytes) => bytes
  | _ => []

/-- The entries of a directory, with the two for itself and for its parent in front. -/
def query (i : ℕ) (d : Drive) : List DirEntry :=
  ⟨".", 0, true⟩ :: ⟨"..", 0, true⟩ ::
    (d.children i).map fun (_, r) => ⟨r.name.val, r.content.size, r.content.isDir⟩

/-- Cut a file at a length, or fill it up with zeros. -/
def resize (bytes : List UInt8) (size : ℕ) : List UInt8 :=
  bytes.take size ++ List.replicate (size - bytes.length) 0

/-- The length of a file that is cut or filled up. -/
theorem length_resize (bytes : List UInt8) (size : ℕ) : (resize bytes size).length = size := by
  rw [resize, List.length_append, List.length_take, List.length_replicate]
  omega

/-- Mark an open object for deletion, which its close carries out. -/
def setDisposition (i : ℕ) (d : Drive) : Except NtStatus Drive :=
  if i = 0 then .error .accessDenied
  else if d.children i = [] then .ok (d.drop i)
  else .error .directoryNotEmpty

/-- Give an open object another path. -/
def setRename (i : ℕ) (path : String) (replace : Bool) (d : Drive) : Except NtStatus Drive :=
  match d.locate path with
  | none => .error .objectNameInvalid
  | some (parent, n) =>
    if i = 0 ∨ d.content parent ≠ some .dir ∨ d.within i parent then .error .accessDenied
    else
      match d.child parent n with
      | none => (d.relocate i parent n).elim (.error .objectNameCollision) .ok
      | some j =>
        if j = i then .ok d
        else if replace = false then .error .objectNameCollision
        else
          match d.content i, d.content j with
          | some (.file _), some (.file _) =>
            ((d.drop j).relocate i parent n).elim (.error .objectNameCollision) .ok
          | _, _ => .error .accessDenied

end Drive

/-! ## Operations on it -/

namespace RdpdrHandle

/-- Read up to `length` bytes from an offset of a file. -/
def readFile (path : String) (offset length : ℕ) (d : Drive) : Except NtStatus (List UInt8) :=
  (d.openWith path .fileOpen .nonDirectoryFile).map fun (i, d) => readAt (d.bytes i) offset length

/-- List a directory, without the entries for itself and its parent. -/
def listDir (path : String) (d : Drive) : Except NtStatus (List DirEntry) :=
  (d.openWith path .fileOpen .directoryFile).map fun (i, d) =>
    (d.query i).filter fun e => e.name ≠ "." ∧ e.name ≠ ".."

/-- Write bytes at an offset of a file that exists. -/
def writeFile (path : String) (offset : ℕ) (data : List UInt8) (d : Drive) :
    Except NtStatus Drive :=
  (d.openWith path .fileOpen .nonDirectoryFile).map fun (i, d) =>
    d.put i (.file (writeAt (d.bytes i) offset data))

/-- Create a file; unless it is exclusive, a file that exists is opened. -/
def createFile (path : String) (exclusive : Bool) (d : Drive) : Except NtStatus Drive :=
  (d.openWith path (if exclusive then .fileCreate else .fileOpenIf) .nonDirectoryFile).map Prod.snd

/-- Create a directory. -/
def createDir (path : String) (d : Drive) : Except NtStatus Drive :=
  (d.openWith path .fileCreate .directoryFile).map Prod.snd

/-- Delete a file or an empty directory. -/
def remove (path : String) (isDir : Bool) (d : Drive) : Except NtStatus Drive :=
  (d.openWith path .fileOpen (if isDir then .directoryFile else .nonDirectoryFile)).bind
    fun (i, d) => d.setDisposition i

/-- Rename or move a file or directory. -/
def rename (source target : String) (replace : Bool) (d : Drive) : Except NtStatus Drive :=
  (d.openWith source .fileOpen .any).bind fun (i, d) => d.setRename i target replace

/-- Cut or extend a file. The length travels as a signed number, and a larger one as the largest
of these. -/
def setLen (path : String) (size : ℕ) (d : Drive) : Except NtStatus Drive :=
  (d.openWith path .fileOpen .nonDirectoryFile).map fun (i, d) =>
    d.put i (.file (Drive.resize (d.bytes i) (min size (2 ^ 63 - 1))))

variable {path : String} {i : ℕ} {d : Drive}
variable {c : Content UInt8} {options : CreateOptions}

/-- An object that is what the options ask for is opened. -/
theorem openWith_found {disposition : CreateDisposition} (hfind : d.find path = some i)
    (hc : d.content i = some c) (hdisposition : disposition ≠ .fileCreate)
    (hcheck : options.check c = .ok ()) : d.openWith path disposition options = .ok (i, d) := by
  rw [Drive.openWith, hfind]
  change (if disposition = .fileCreate then _ else _) = _
  rw [if_neg hdisposition, hc]
  change (options.check c).map _ = _
  rw [hcheck]
  rfl

/-- What is there is not created again. -/
theorem openWith_exists (hfind : d.find path = some i) :
    d.openWith path .fileCreate options = .error .objectNameCollision := by
  rw [Drive.openWith, hfind]
  rfl

variable {parent : ℕ} {n : Name}

/-- A free name in a directory that is there is taken. -/
theorem openWith_free {disposition : CreateDisposition} (hfind : d.find path = none)
    (hlocate : d.locate path = some (parent, n)) (hparent : d.content parent = some .dir)
    (hdisposition : disposition ≠ .fileOpen) (hfree : d.child parent n = none) :
    d.openWith path disposition options =
      .ok (d.last + 1, d.add parent n options.fresh hfree) := by
  rw [Drive.openWith, hfind]
  change (if disposition = .fileOpen then _ else _) = _
  rw [if_neg hdisposition, Drive.createAt, hlocate]
  change (if d.content parent = some .dir then _ else _) = _
  rw [if_pos hparent, Tree.create, dif_pos hfree]

variable {bytes : List UInt8}

/-- The bytes of a file. -/
theorem bytes_eq (hc : d.content i = some (.file bytes)) : d.bytes i = bytes := by
  rw [Drive.bytes, hc]

/-- A listing has all children, and only these. -/
theorem listDir_eq (hfind : d.find path = some i) (hc : d.content i = some .dir) :
    listDir path d = .ok ((d.children i).map fun kid =>
      ⟨kid.2.name.val, kid.2.content.size, kid.2.content.isDir⟩) := by
  rw [listDir, openWith_found hfind hc (by decide) rfl]
  change Except.ok ((d.query i).filter fun e => e.name ≠ "." ∧ e.name ≠ "..") = _
  rw [Drive.query, List.filter_cons_of_neg (by decide), List.filter_cons_of_neg (by decide)]
  refine congrArg Except.ok (List.filter_eq_self.mpr fun e he => ?_)
  obtain ⟨kid, -, rfl⟩ := List.mem_map.mp he
  exact decide_eq_true ⟨kid.2.name.property.2.2.1, kid.2.name.property.2.2.2⟩

/-- A file is read at its path. -/
theorem readFile_eq {offset length : ℕ}
    (hfind : d.find path = some i) (hc : d.content i = some (.file bytes)) :
    readFile path offset length d = .ok (readAt bytes offset length) := by
  rw [readFile, openWith_found hfind hc (by decide) rfl, ← bytes_eq hc]
  rfl

/-- A file is written at its path. -/
theorem writeFile_eq {offset : ℕ} {data : List UInt8}
    (hfind : d.find path = some i) (hc : d.content i = some (.file bytes)) :
    writeFile path offset data d = .ok (d.put i (.file (writeAt bytes offset data))) := by
  rw [writeFile, openWith_found hfind hc (by decide) rfl, ← bytes_eq hc]
  rfl

/-- A file is cut or extended at its path. -/
theorem setLen_eq {size : ℕ} (hfind : d.find path = some i) (hc : d.content i = some (.file bytes))
    (hsize : size < 2 ^ 63) :
    setLen path size d = .ok (d.put i (.file (Drive.resize bytes size))) := by
  rw [setLen, openWith_found hfind hc (by decide) rfl, ← bytes_eq hc]
  change Except.ok (d.put i (.file (Drive.resize (d.bytes i) (min size (2 ^ 63 - 1))))) = _
  rw [Nat.min_eq_left (by omega)]

/-- A file or an empty directory is removed at its path. -/
theorem remove_eq (hfind : d.find path = some i) (hc : d.content i = some c) :
    remove path c.isDir d = d.setDisposition i := by
  have hcheck : (if c.isDir = true then CreateOptions.directoryFile
      else CreateOptions.nonDirectoryFile).check c = .ok () := by
    cases c with
    | dir | file bytes => rfl
  rw [remove, openWith_found hfind hc (by decide) hcheck]
  rfl

/-- An object is renamed at its path. -/
theorem rename_eq {source target : String} {replace : Bool}
    (hfind : d.find source = some i) (hc : d.content i = some c) :
    rename source target replace d = d.setRename i target replace := by
  rw [rename, openWith_found hfind hc (by decide) (by cases c <;> rfl)]
  rfl

/-- A new file or directory takes a free name. -/
theorem createFile_free (exclusive : Bool)
    (hfind : d.find path = none) (hlocate : d.locate path = some (parent, n))
    (hparent : d.content parent = some .dir) (hfree : d.child parent n = none) :
    createFile path exclusive d = .ok (d.add parent n (.file []) hfree) := by
  rw [createFile, openWith_free hfind hlocate hparent (by cases exclusive <;> decide) hfree]
  rfl

/-- A file that is there is opened, unless it was to be new. -/
theorem createFile_found (hfind : d.find path = some i) (hc : d.content i = some (.file bytes)) :
    createFile path false d = .ok d := by
  rw [createFile, openWith_found hfind hc (by decide) rfl]
  rfl

/-- A directory is not opened as a file. -/
theorem createFile_dir (hfind : d.find path = some i)
    (hc : d.content i = some .dir) : createFile path false d = .error .fileIsADirectory := by
  rw [createFile, Drive.openWith, hfind]
  simp only [Bool.false_eq_true, if_false, reduceCtorEq, hc]
  rfl

/-- What is there is not created again. -/
theorem createFile_exists (hfind : d.find path = some i) :
    createFile path true d = .error .objectNameCollision := by
  rw [createFile, if_pos rfl, openWith_exists hfind]
  rfl

/-- A new directory takes a free name. -/
theorem createDir_free (hfind : d.find path = none) (hlocate : d.locate path = some (parent, n))
    (hparent : d.content parent = some .dir) (hfree : d.child parent n = none) :
    createDir path d = .ok (d.add parent n .dir hfree) := by
  rw [createDir, openWith_free hfind hlocate hparent (by decide) hfree]
  rfl

/-- What is there is not created again. -/
theorem createDir_exists (hfind : d.find path = some i) :
    createDir path d = .error .objectNameCollision := by
  rw [createDir, openWith_exists hfind]
  rfl

end RdpdrHandle

end Macrdp.RedirectedDrive
