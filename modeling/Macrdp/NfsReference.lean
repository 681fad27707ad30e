import Macrdp.NfsSurface
import Macrdp.StepSystem

/-!
# What an NFSv3 server over the tree would do

The reference server addresses objects by their numbers in the tree, which they keep until they
are removed. The surface and the reference serve the same calls side by side; a file id that the
surface returns stands for the object that it was first returned for.
-/

namespace Macrdp.NfsSurface

open FileBytes FileTree RedirectedDrive

/-- Why the reference does not satisfy a call. -/
inductive Fault where
  /-- The object or the name is not there. -/
  | gone
  | refused
  deriving DecidableEq

/-- What the reference satisfies a call with. -/
inductive Answer where
  | object (i : ℕ)
  | attr (i : ℕ) (c : Content UInt8)
  | created (i : ℕ) (c : Content UInt8)
  | bytes (data : List UInt8) (eof : Bool)
  /-- The entries of a directory behind a cookie, at most so many. -/
  | listing (d startAfter maxEntries : ℕ)
  | done
  deriving DecidableEq

namespace Reference

/-- The object that a file id stands for is a directory. -/
def asDir (den : ℕ → Option ℕ) (id : ℕ) (t : Drive) : Except Fault ℕ :=
  match den id with
  | none => .error .gone
  | some i =>
    match t.content i with
    | none => .error .gone
    | some .dir => .ok i
    | some (.file _) => .error .refused

/-- The object that a file id stands for is a file. -/
def asFile (den : ℕ → Option ℕ) (id : ℕ) (t : Drive) : Except Fault (ℕ × List UInt8) :=
  match den id with
  | none => .error .gone
  | some i =>
    match t.content i with
    | none => .error .gone
    | some .dir => .error .refused
    | some (.file bytes) => .ok (i, bytes)

/-- Look a component up in a directory. -/
def lookup (d : ℕ) (t : Drive) : Component → Except Fault Answer
  | .here => .ok (.object d)
  | .up => .ok (.object (t.parent d))
  | .name n => (t.child d n).elim (.error .gone) fun i => .ok (.object i)

/-- The attributes of an object. -/
def getattr (den : ℕ → Option ℕ) (id : ℕ) (t : Drive) : Except Fault Answer :=
  match den id with
  | none => .error .gone
  | some i => (t.content i).elim (.error .gone) fun c => .ok (.attr i c)

/-- A cookie is zero or the id of an entry. -/
def cookie (den : ℕ → Option ℕ) (d startAfter : ℕ) (t : Drive) : Bool :=
  startAfter = 0 || (t.children d).any fun e => den startAfter = some e.1

/-- Set the size of a file. -/
def setSize (i : ℕ) (bytes : List UInt8) (size : Option ℕ) (t : Drive) : Content UInt8 × Drive :=
  match size with
  | none => (.file bytes, t)
  | some n =>
    (.file (Drive.resize bytes n),
      if n = bytes.length then t else t.put i (.file (Drive.resize bytes n)))

/-- Set the attributes of an object; a directory has no size to set. -/
def setattr (den : ℕ → Option ℕ) (id : ℕ) (size : Option ℕ) (t : Drive) :
    Except Fault Answer × Drive :=
  match den id with
  | none => (.error .gone, t)
  | some i =>
    match t.content i, size with
    | none, _ => (.error .gone, t)
    | some c, none => (.ok (.attr i c), t)
    | some .dir, some _ => (.error .refused, t)
    | some (.file bytes), some n =>
      (.ok (.attr i (.file (Drive.resize bytes n))), t.put i (.file (Drive.resize bytes n)))

/-- Create a file, or open one that is there; a size is set in either case. -/
def create (d : ℕ) (n : Name) (size : Option ℕ) (t : Drive) : Except Fault Answer × Drive :=
  match t.child d n with
  | none =>
    match t.create d n (.file (Drive.resize [] (size.getD 0))) with
    | some (t', i) => (.ok (.created i (.file (Drive.resize [] (size.getD 0)))), t')
    | none => (.error .refused, t)
  | some i =>
    match t.content i with
    | some (.file bytes) =>
      (.ok (.created i (setSize i bytes size t).1), (setSize i bytes size t).2)
    | _ => (.error .refused, t)

/-- Make an object that is not there. -/
def make (d : ℕ) (n : Name) (c : Content UInt8) (t : Drive) : Except Fault ℕ × Drive :=
  match t.create d n c with
  | some (t', i) => (.ok i, t')
  | none => (.error .refused, t)

/-- Remove a file or an empty directory. -/
def remove (d : ℕ) (n : Name) (t : Drive) : Except Fault Answer × Drive :=
  match t.child d n with
  | none => (.error .gone, t)
  | some i => if t.children i = [] then (.ok .done, t.drop i) else (.error .refused, t)

/-- Rename an object. A file replaces a file, and a directory an empty one. -/
def rename (source : ℕ) (n : Name) (target : ℕ) (m : Name) (t : Drive) :
    Except Fault Answer × Drive :=
  let moved (t' : Drive) (i : ℕ) : Except Fault Answer × Drive :=
    (t'.relocate i target m).elim (.error .refused, t) fun t'' => (.ok .done, t'')
  match t.child source n with
  | none => (.error .gone, t)
  | some i =>
    if t.within i target then (.error .refused, t)
    else
      match t.child target m with
      | none => moved t i
      | some j =>
        if j = i then (.ok .done, t)
        else
          match t.content i, t.content j with
          | some (.file _), some (.file _) => moved (t.drop j) i
          | some .dir, some .dir =>
            if t.children j = [] then moved (t.drop j) i else (.error .refused, t)
          | _, _ => (.error .refused, t)

/-- Satisfy a call on the objects that its file ids stand for. -/
def serve (den : ℕ → Option ℕ) (t : Drive) : Call → Except Fault Answer × Drive
  | .lookup dirid filename => ((asDir den dirid t).bind fun d => lookup d t filename, t)
  | .getattr id => (getattr den id t, t)
  | .read id offset count =>
    ((asFile den id t).map fun (_, bytes) =>
      .bytes (readAt bytes offset count)
        (bytes.length ≤ offset + (readAt bytes offset count).length), t)
  | .readdir dirid startAfter maxEntries =>
    ((asDir den dirid t).bind fun d =>
      if cookie den d startAfter t then .ok (.listing d startAfter maxEntries)
      else .error .refused, t)
  | .setattr id size => setattr den id size t
  | .write id offset data =>
    match asFile den id t with
    | .error e => (.error e, t)
    | .ok (i, bytes) =>
      (.ok (.attr i (.file (writeAt bytes offset data))), t.put i (.file (writeAt bytes offset data)))
  | .create dirid filename size =>
    match asDir den dirid t with
    | .error e => (.error e, t)
    | .ok d => create d filename size t
  | .createExclusive dirid filename =>
    match asDir den dirid t with
    | .error e => (.error e, t)
    | .ok d => ((make d filename (.file []) t).1.map .object, (make d filename (.file []) t).2)
  | .mkdir dirid dirname =>
    match asDir den dirid t with
    | .error e => (.error e, t)
    | .ok d => ((make d dirname .dir t).1.map fun i => .created i .dir, (make d dirname .dir t).2)
  | .remove dirid filename =>
    match asDir den dirid t with
    | .error e => (.error e, t)
    | .ok d => remove d filename t
  | .rename fromDirid fromFilename toDirid toFilename =>
    match asDir den fromDirid t with
    | .error e => (.error e, t)
    | .ok source =>
      match asDir den toDirid t with
      | .error e => (.error e, t)
      | .ok target => rename source fromFilename target toFilename t

end Reference

/-! ## Agreement -/

/-- Attributes show the kind of an object, and the size of a file. -/
def Attr.Shows (a : Attr) (c : Content UInt8) : Prop :=
  a.isDir = c.isDir ∧ (c.isDir = false → a.size = c.size)

/-- A page of a listing: the children of a directory with their attributes, in the order of their
ids and behind the cookie, up to a number, and whether that is all. -/
def Listed (den : ℕ → Option ℕ) (t : Drive) (d startAfter maxEntries : ℕ)
    (entries : List NfsDirEntry) (complete : Bool) : Prop :=
  ∃ (all : List NfsDirEntry) (kids : List (ℕ × Record Name UInt8)),
    kids.Perm (t.children d) ∧ all.Pairwise (fun e f => e.fileid < f.fileid) ∧
      List.Forall₂ (fun e kid => e.name = kid.2.name.val ∧ e.attr.fileid = e.fileid ∧
        e.attr.Shows kid.2.content ∧ (e ∈ entries → den e.fileid = some kid.1)) all kids ∧
      entries = (all.filter fun e => startAfter < e.fileid).take maxEntries ∧
      complete = decide ((all.filter fun e => startAfter < e.fileid).length ≤ maxEntries)

/-- A reply says what an answer does; `den` tells what its file ids stand for. -/
def Reply.Says (den : ℕ → Option ℕ) (t : Drive) : Reply → Answer → Prop
  | .object id, .object i => den id = some i
  | .attr a, .attr i c => den a.fileid = some i ∧ a.Shows c
  | .created id a, .created i c => den id = some i ∧ a.fileid = id ∧ a.Shows c
  | .bytes data eof, .bytes data' eof' => data = data' ∧ eof = eof'
  | .listing entries complete, .listing d startAfter maxEntries =>
    Listed den t d startAfter maxEntries entries complete
  | .done, .done => True
  | _, _ => False

/-- The file ids that a reply returns. -/
def Reply.ids : Reply → List ℕ
  | .object id => [id]
  | .attr a => [a.fileid]
  | .created id _ => [id]
  | .listing entries _ => entries.map NfsDirEntry.fileid
  | _ => []

/-- The file ids that a call is made on. A cookie is none of them. -/
def Call.ids : Call → List ℕ
  | .lookup dirid _ => [dirid]
  | .getattr id => [id]
  | .read id _ _ => [id]
  | .readdir dirid _ _ => [dirid]
  | .setattr id _ => [id]
  | .write id _ _ => [id]
  | .create dirid _ _ => [dirid]
  | .createExclusive dirid _ => [dirid]
  | .mkdir dirid _ => [dirid]
  | .remove dirid _ => [dirid]
  | .rename fromDirid _ toDirid _ => [fromDirid, toDirid]

/-- The surface and the reference, and the objects that the returned file ids stand for. -/
structure System where
  surface : RdpdrFs
  server : Drive
  held : AList fun _ : ℕ => ℕ

namespace System

/-- A drive that was just mounted; the id of the root is known. -/
def mount (createdSecs : ℕ) (t : Drive) : System :=
  ⟨.new createdSecs t, t, AList.insert rootId 0 ∅⟩

/-- The object at the path of a file id. -/
def denotes (id : ℕ) (s : RdpdrFs) : Option ℕ :=
  (s.cache.idToNode.lookup id).bind fun n => s.drive.find n.remotePath

/-- An id that is returned for the first time stands for the object at its path. -/
def hold (s : RdpdrFs) (held : AList fun _ : ℕ => ℕ) (id : ℕ) : AList fun _ : ℕ => ℕ :=
  match held.lookup id, denotes id s with
  | none, some i => held.insert id i
  | _, _ => held

/-- The ids that a reply returns are held from then on. -/
def holdAll (s : RdpdrFs) (held : AList fun _ : ℕ => ℕ) :
    Except Nfsstat Reply → AList fun _ : ℕ => ℕ
  | .error _ => held
  | .ok reply => reply.ids.foldl (hold s) held

/-- Both serve a call on ids that were returned before. -/
def step (s : System) (c : Call) : Option System :=
  if ∀ id ∈ c.ids, (s.held.lookup id).isSome then
    some
      { surface := (s.surface.serve c).2
        server := (Reference.serve s.held.lookup s.server c).2
        held := holdAll (s.surface.serve c).2 s.held (s.surface.serve c).1 }
  else none

/-- The surface serves a call as the reference does: the drive is the same afterwards, a call that
the reference satisfies gets the same answer, and one on what is not there an error. -/
def Agrees (s : System) (c : Call) : Prop :=
  (s.surface.serve c).2.drive = (Reference.serve s.held.lookup s.server c).2 ∧
    match (Reference.serve s.held.lookup s.server c).1 with
    | .ok answer =>
      ∃ reply, (s.surface.serve c).1 = .ok reply ∧
        reply.Says (holdAll (s.surface.serve c).2 s.held (s.surface.serve c).1).lookup
          (Reference.serve s.held.lookup s.server c).2 answer
    | .error .gone => ∃ e, (s.surface.serve c).1 = .error e
    | .error .refused => True

/-- No file id that stands for the object was returned. -/
def unheld (s : System) (i : ℕ) : Bool := s.held.entries.all fun e => e.2 ≠ i

/-- A rename that would be carried out moves an object of which no id was returned, to a free
name or onto a file of which none was. -/
def renamesUnheld (source : ℕ) (n : Name) (target : ℕ) (m : Name) (s : System) : Bool :=
  match s.server.child source n with
  | none => true
  | some i =>
    s.server.within i target ||
      match s.server.child target m with
      | none => s.unheld i
      | some j =>
        if j = i then s.unheld i
        else
          match s.server.content i, s.server.content j with
          | some (.file _), some (.file _) => s.unheld i && s.unheld j
          | some .dir, some .dir => s.server.children j ≠ []
          | _, _ => true

/-- A call that does not look up `.` in a directory that was removed, set a size that is not
below `2 ^ 63`, write nothing behind the end of a file, create a file with a size or over one that
is not empty, or rename an object of which an id was returned. -/
def orderly (s : System) : Call → Bool
  | .lookup dirid .here => ((s.held.lookup dirid).bind s.server.content).isSome
  | .setattr id (some size) =>
    match Reference.asFile s.held.lookup id s.server with
    | .ok _ => size < 2 ^ 63
    | .error _ => true
  | .write id offset data =>
    match Reference.asFile s.held.lookup id s.server with
    | .ok (_, bytes) => data ≠ [] || offset ≤ bytes.length
    | .error _ => true
  | .create dirid filename size =>
    match Reference.asDir s.held.lookup dirid s.server with
    | .error _ => true
    | .ok d =>
      match (s.server.child d filename).bind s.server.content with
      | none => size.getD 0 = 0
      | some (.file bytes) => size.getD 0 = 0 && bytes = []
      | some .dir => true
  | .rename fromDirid fromFilename toDirid toFilename =>
    match Reference.asDir s.held.lookup fromDirid s.server,
      Reference.asDir s.held.lookup toDirid s.server with
    | .ok source, .ok target => s.renamesUnheld source fromFilename target toFilename
    | _, _ => true
  | _ => true

end System

end Macrdp.NfsSurface
