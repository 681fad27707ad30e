import Macrdp.NfsSurface
import Macrdp.StepSystem

/-!
# The index between paths and file ids

The two maps of what is known are inverse to each other, and every id was given out once: a new
path takes the next one, and none comes back. Everything that is done to what is known is a
sequence of three writes.
-/

namespace Macrdp.NfsSurface.FsCache

open RedirectedDrive

/-- The two maps are inverse to each other, and the known ids were given out. -/
structure Indexed (c : FsCache) : Prop where
  path : ∀ path id, c.pathToId.lookup path = some id ↔
    ∃ n, c.idToNode.lookup id = some n ∧ n.remotePath = path
  low : ∀ id n, c.idToNode.lookup id = some n → rootId ≤ id
  bound : ∀ id n, c.idToNode.lookup id = some n → id < c.nextId
  next : rootId < c.nextId

/-- The writes to what is known. -/
inductive Write where
  | intern (parent : ℕ) (path : String) (isDir : Bool) (size : ℕ)
  | forget (id : ℕ)
  | setSize (id size : ℕ)
  deriving DecidableEq

/-- What is known after a write. -/
def apply (c : FsCache) : Write → FsCache
  | .intern parent path isDir size => (c.intern parent path isDir size).2
  | .forget id => c.forget id
  | .setSize id size => c.setSize id size

/-- What is known later: the ids that were given out before are known at the same paths only. -/
structure Later (c c' : FsCache) : Prop where
  next : c.nextId ≤ c'.nextId
  old : ∀ path id, c'.pathToId.lookup path = some id → id < c.nextId →
    c.pathToId.lookup path = some id

/-- Now is as late as now. -/
theorem Later.refl (c : FsCache) : Later c c := ⟨Nat.le_refl _, fun _ _ h _ => h⟩

variable {c : FsCache}

/-- Later than later is later. -/
theorem Later.trans {a b : FsCache} (hab : Later a b) (hbc : Later b c) : Later a c where
  next := Nat.le_trans hab.next hbc.next
  old path id h hlt := hab.old path id (hbc.old path id h (Nat.lt_of_lt_of_le hlt hab.next)) hlt

/-- Nothing but the root is known at the start. -/
theorem lookup_new (id : ℕ) :
    new.idToNode.lookup id = if id = rootId then some ⟨"\\", true, 0, rootId⟩ else none := by
  unfold new
  split
  · next h => rw [h, AList.lookup_insert]
  · next h => rw [AList.lookup_insert_ne h, AList.lookup_empty]

/-- No path but that of the root is known at the start. -/
theorem path_new (path : String) :
    new.pathToId.lookup path = if path = "\\" then some rootId else none := by
  unfold new
  split
  · next h => rw [h, AList.lookup_insert]
  · next h => rw [AList.lookup_insert_ne h, AList.lookup_empty]

/-- Another size changes that object alone. -/
theorem lookup_setSize (id size k : ℕ) :
    (c.setSize id size).idToNode.lookup k =
      (c.idToNode.lookup k).map fun n => if k = id then { n with size := size } else n := by
  unfold setSize
  cases hn : c.idToNode.lookup id with
  | none =>
    by_cases hk : k = id
    · rw [hk, hn]
      rfl
    · simp only [if_neg hk, Option.map_id']
  | some n =>
    change (c.idToNode.insert id _).lookup k = _
    by_cases hk : k = id
    · rw [hk, AList.lookup_insert, hn, Option.map_some, if_pos rfl]
    · simp only [AList.lookup_insert_ne hk, if_neg hk, Option.map_id']

/-- A size is no path. -/
theorem path_setSize (c : FsCache) (id size : ℕ) : (c.setSize id size).pathToId = c.pathToId := by
  unfold setSize
  split <;> rfl

/-- A size takes no id. -/
theorem nextId_setSize (c : FsCache) (id size : ℕ) : (c.setSize id size).nextId = c.nextId := by
  unfold setSize
  split <;> rfl

/-- A path that is not known takes the next id. -/
theorem intern_fresh {path : String} (h : c.pathToId.lookup path = none)
    (parent : ℕ) (isDir : Bool) (size : ℕ) :
    c.intern parent path isDir size =
      (c.nextId,
        { nextId := c.nextId + 1
          idToNode := c.idToNode.insert c.nextId ⟨path, isDir, size, parent⟩
          pathToId := c.pathToId.insert path c.nextId }) := by
  rw [intern, h]

namespace Indexed

variable {c : FsCache}

/-- A path that is known keeps its id; the kind and the size of its object are refreshed. -/
theorem intern_known (hc : c.Indexed) {path : String} {id : ℕ}
    (h : c.pathToId.lookup path = some id) (parent : ℕ) (isDir : Bool) (size : ℕ) :
    ∃ n, c.idToNode.lookup id = some n ∧ n.remotePath = path ∧
      c.intern parent path isDir size = (id, { c with
        idToNode := c.idToNode.insert id { n with isDir := isDir, size := size } }) := by
  obtain ⟨n, hn, hpath⟩ := (hc.path path id).mp h
  refine ⟨n, hn, hpath, ?_⟩
  rw [intern, h]
  dsimp only
  rw [hn]

/-- The next id is not known. -/
theorem lookup_nextId (hc : c.Indexed) : c.idToNode.lookup c.nextId = none := by
  cases h : c.idToNode.lookup c.nextId with
  | none => rfl
  | some n => exact absurd (hc.bound c.nextId n h) (lt_irrefl _)

/-- Known objects at one path are one. -/
theorem eq_of_path (hc : c.Indexed) {i j : ℕ} {n m : Node} (hn : c.idToNode.lookup i = some n)
    (hm : c.idToNode.lookup j = some m) (h : n.remotePath = m.remotePath) : i = j := by
  have hi := (hc.path m.remotePath i).mpr ⟨n, hn, h⟩
  have hj := (hc.path m.remotePath j).mpr ⟨m, hm, rfl⟩
  exact Option.some.inj (hi.symm.trans hj)

end Indexed

/-- Only the root has an id at the start. -/
theorem indexed_new : new.Indexed where
  path path id := by
    rw [path_new, lookup_new]
    constructor
    · intro h
      split at h
      · next hpath =>
        cases h
        exact ⟨_, if_pos rfl, hpath.symm⟩
      · cases h
    · rintro ⟨n, hn, hpath⟩
      split at hn
      · next hid =>
        cases hn
        rw [if_pos hpath.symm, hid]
      · cases hn
  low id n h := by
    rw [lookup_new] at h
    split at h
    · next hid => exact Nat.le_of_eq hid.symm
    · cases h
  bound id n h := by
    rw [lookup_new] at h
    split at h
    · next hid =>
      rw [hid]
      exact Nat.lt_succ_self rootId
    · cases h
  next := Nat.lt_succ_self rootId

namespace Indexed

variable {c : FsCache}

/-- A refreshed object is still at its path. -/
theorem refresh (hc : c.Indexed) {id : ℕ} {n m : Node} (hn : c.idToNode.lookup id = some n)
    (hm : m.remotePath = n.remotePath) :
    Indexed { c with idToNode := c.idToNode.insert id m } where
  path path i := by
    change c.pathToId.lookup path = some i ↔ ∃ k, (c.idToNode.insert id m).lookup i = some k ∧ _
    rw [hc.path path i]
    by_cases hi : i = id
    · rw [hi, AList.lookup_insert, hn]
      constructor
      · rintro ⟨k, hk, hpath⟩
        cases hk
        exact ⟨m, rfl, hm.trans hpath⟩
      · rintro ⟨k, hk, hpath⟩
        cases hk
        exact ⟨n, rfl, hm.symm.trans hpath⟩
    · rw [AList.lookup_insert_ne hi]
  low i k h := by
    by_cases hi : i = id
    · rw [hi]
      exact hc.low id n hn
    · exact hc.low i k ((AList.lookup_insert_ne hi).symm.trans h)
  bound i k h := by
    by_cases hi : i = id
    · rw [hi]
      exact hc.bound id n hn
    · exact hc.bound i k ((AList.lookup_insert_ne hi).symm.trans h)
  next := hc.next

/-- A new object at a new path keeps the index. -/
theorem add (hc : c.Indexed) {n : Node} (hn : c.pathToId.lookup n.remotePath = none) :
    Indexed
      { nextId := c.nextId + 1
        idToNode := c.idToNode.insert c.nextId n
        pathToId := c.pathToId.insert n.remotePath c.nextId } where
  path path i := by
    change (c.pathToId.insert n.remotePath c.nextId).lookup path = some i ↔
      ∃ k, (c.idToNode.insert c.nextId n).lookup i = some k ∧ k.remotePath = path
    by_cases hpath : path = n.remotePath
    · rw [hpath, AList.lookup_insert]
      constructor
      · intro h
        cases h
        exact ⟨n, AList.lookup_insert _, rfl⟩
      · rintro ⟨k, hk, heq⟩
        by_cases hi : i = c.nextId
        · rw [hi]
        · rw [AList.lookup_insert_ne hi] at hk
          rw [(hc.path n.remotePath i).mpr ⟨k, hk, heq⟩] at hn
          cases hn
    · rw [AList.lookup_insert_ne hpath, hc.path path i]
      by_cases hi : i = c.nextId
      · rw [hi, AList.lookup_insert, hc.lookup_nextId]
        constructor
        · rintro ⟨k, hk, -⟩
          cases hk
        · rintro ⟨k, hk, heq⟩
          cases hk
          exact absurd heq.symm hpath
      · rw [AList.lookup_insert_ne hi]
  low i k h := by
    by_cases hi : i = c.nextId
    · rw [hi]
      exact Nat.le_of_lt hc.next
    · exact hc.low i k ((AList.lookup_insert_ne hi).symm.trans h)
  bound i k h := by
    change i < c.nextId + 1
    by_cases hi : i = c.nextId
    · omega
    · have hlt := hc.bound i k ((AList.lookup_insert_ne hi).symm.trans h)
      omega
  next := Nat.lt_succ_of_lt hc.next

/-- An object that is dropped leaves with its path. -/
theorem drop (hc : c.Indexed) (id : ℕ) : (c.forget id).Indexed := by
  cases hn : c.idToNode.lookup id with
  | none =>
    have hsame : c.forget id = c := by rw [forget, hn]
    rw [hsame]
    exact hc
  | some n =>
    have hleft : ∀ i k, (c.forget id).idToNode.lookup i = some k →
        c.idToNode.lookup i = some k := by
      intro i k h
      rw [lookup_forget hn] at h
      split at h
      · cases h
      · exact h
    refine ⟨?_, fun i k h => hc.low i k (hleft i k h), ?_, ?_⟩
    · intro path i
      rw [path_forget hn, lookup_forget hn]
      by_cases hi : i = id
      · rw [if_pos hi]
        constructor
        · intro h
          split at h
          · cases h
          · next hpath =>
            obtain ⟨k, hk, heq⟩ := (hc.path path i).mp h
            rw [hi, hn] at hk
            cases hk
            exact absurd heq.symm hpath
        · rintro ⟨k, hk, -⟩
          cases hk
      · rw [if_neg hi]
        by_cases hpath : path = n.remotePath
        · rw [if_pos hpath]
          constructor
          · intro h
            cases h
          · rintro ⟨k, hk, heq⟩
            exact absurd (hc.eq_of_path hk hn (heq.trans hpath)) hi
        · rw [if_neg hpath]
          exact hc.path path i
    · intro i k h
      rw [nextId_forget]
      exact hc.bound i k (hleft i k h)
    · rw [nextId_forget]
      exact hc.next

/-- A new size keeps the index. -/
theorem resize (hc : c.Indexed) (id size : ℕ) : (c.setSize id size).Indexed := by
  cases hn : c.idToNode.lookup id with
  | none =>
    have hsame : c.setSize id size = c := by rw [setSize, hn]
    rw [hsame]
    exact hc
  | some n =>
    have hset : c.setSize id size =
        { c with idToNode := c.idToNode.insert id { n with size := size } } := by
      rw [setSize, hn]
    rw [hset]
    exact hc.refresh hn rfl

/-- Every write keeps the index. -/
theorem apply (hc : c.Indexed) (w : Write) : (c.apply w).Indexed := by
  cases w with
  | intern parent path isDir size =>
    cases hid : c.pathToId.lookup path with
    | none =>
      rw [FsCache.apply, intern_fresh hid]
      exact hc.add hid
    | some id =>
      obtain ⟨n, hn, -, heq⟩ := hc.intern_known hid parent isDir size
      rw [FsCache.apply, heq]
      exact hc.refresh hn rfl
  | forget id => exact hc.drop id
  | setSize id size => exact hc.resize id size

/-- A write knows no given-out id at another path. -/
theorem later_apply (hc : c.Indexed) (w : Write) : Later c (c.apply w) := by
  have hkept : c.nextId ≤ (c.apply w).nextId ∧
      ∀ id n, (c.apply w).idToNode.lookup id = some n → id < c.nextId →
        ∃ m, c.idToNode.lookup id = some m ∧ m.remotePath = n.remotePath := by
    cases w with
    | intern parent path isDir size =>
      cases hid : c.pathToId.lookup path with
      | none =>
        rw [FsCache.apply, intern_fresh hid]
        refine ⟨Nat.le_succ _, fun i n h hlt => ⟨n, ?_, rfl⟩⟩
        exact (AList.lookup_insert_ne (Nat.ne_of_lt hlt)).symm.trans h
      | some id =>
        obtain ⟨m, hm, -, heq⟩ := hc.intern_known hid parent isDir size
        rw [FsCache.apply, heq]
        refine ⟨Nat.le_refl _, fun i n h _ => ?_⟩
        by_cases hi : i = id
        · rw [hi] at h ⊢
          have hn := (AList.lookup_insert _).symm.trans h
          cases hn
          exact ⟨m, hm, rfl⟩
        · exact ⟨n, (AList.lookup_insert_ne hi).symm.trans h, rfl⟩
    | forget id =>
      refine ⟨Nat.le_of_eq (nextId_forget c id).symm, fun i n h _ => ⟨n, ?_, rfl⟩⟩
      cases hn : c.idToNode.lookup id with
      | none =>
        have hsame : c.forget id = c := by rw [forget, hn]
        rw [FsCache.apply, hsame] at h
        exact h
      | some m =>
        rw [FsCache.apply, lookup_forget hn] at h
        split at h
        · cases h
        · exact h
    | setSize id size =>
      refine ⟨Nat.le_of_eq (nextId_setSize c id size).symm, fun i n h _ => ?_⟩
      rw [FsCache.apply, lookup_setSize, Option.map_eq_some_iff] at h
      obtain ⟨m, hm, heq⟩ := h
      refine ⟨m, hm, ?_⟩
      rw [← heq]
      split <;> rfl
  refine ⟨hkept.1, fun path id h hlt => ?_⟩
  obtain ⟨n, hn, hpath⟩ := ((hc.apply w).path path id).mp h
  obtain ⟨m, hm, heq⟩ := hkept.2 id n hn hlt
  exact (hc.path path id).mpr ⟨m, hm, heq.trans hpath⟩

/-- A known path keeps its id until that is forgotten. -/
theorem path_apply (hc : c.Indexed) {path : String} {id : ℕ}
    (h : c.pathToId.lookup path = some id) {w : Write} (hw : w ≠ .forget id) :
    (c.apply w).pathToId.lookup path = some id := by
  cases w with
  | intern parent other isDir size =>
    cases hother : c.pathToId.lookup other with
    | none =>
      rw [FsCache.apply, intern_fresh hother]
      have hne : path ≠ other := fun heq => by
        rw [heq, hother] at h
        cases h
      exact (AList.lookup_insert_ne hne).trans h
    | some j =>
      obtain ⟨m, -, -, heq⟩ := hc.intern_known hother parent isDir size
      rw [FsCache.apply, heq]
      exact h
  | forget j =>
    have hj : j ≠ id := fun heq => hw (by rw [heq])
    cases hn : c.idToNode.lookup j with
    | none =>
      have hsame : c.forget j = c := by rw [forget, hn]
      rw [FsCache.apply, hsame]
      exact h
    | some n =>
      rw [FsCache.apply, path_forget hn]
      split
      · next hpath =>
        have hid := (hc.path path j).mpr ⟨n, hn, hpath.symm⟩
        rw [h] at hid
        exact absurd (Option.some.inj hid).symm hj
      · exact h
  | setSize j size =>
    rw [FsCache.apply, path_setSize]
    exact h

/-- An interned path is known by the id that is returned. -/
theorem path_intern (hc : c.Indexed) (parent : ℕ) (path : String) (isDir : Bool) (size : ℕ) :
    (c.intern parent path isDir size).2.pathToId.lookup path =
      some (c.intern parent path isDir size).1 := by
  cases hid : c.pathToId.lookup path with
  | none =>
    rw [intern_fresh hid]
    exact AList.lookup_insert _
  | some id =>
    obtain ⟨n, -, -, heq⟩ := hc.intern_known hid parent isDir size
    rw [heq]
    exact hid

end Indexed

/-- The writes that intern the entries of a directory. -/
def listing (dirid : ℕ) (dirPath : String) (entries : List DirEntry) : List Write :=
  entries.map fun e => .intern dirid (joinRemote dirPath e.name) e.isDir e.size

/-- Interning the entries of a directory is to intern each. -/
theorem internAll_eq (dirid : ℕ) (dirPath : String) (entries : List DirEntry) (c : FsCache) :
    (c.internAll dirid dirPath entries).2 = (listing dirid dirPath entries).foldl apply c := by
  induction entries generalizing c with
  | nil => rfl
  | cons e rest ih =>
    rw [internAll_cons rfl]
    exact ih _

/-- Any number of writes keep the index. -/
theorem Indexed.foldl (hc : c.Indexed) (writes : List Write) :
    (writes.foldl FsCache.apply c).Indexed :=
  StepSystem.foldl_invariant Indexed (fun _ w h => h.apply w) hc writes

/-- What is known after any number of writes is known later. -/
theorem Indexed.later (hc : c.Indexed) (writes : List Write) :
    Later c (writes.foldl FsCache.apply c) := by
  have hinv := StepSystem.foldl_invariant (fun d => d.Indexed ∧ Later c d)
    (fun d w h => ⟨h.1.apply w, h.2.trans (h.1.later_apply w)⟩) ⟨hc, Later.refl c⟩ writes
  exact hinv.2

/-- Interning forgets no path. -/
theorem Indexed.path_listing (hc : c.Indexed) {path : String} {id : ℕ}
    (h : c.pathToId.lookup path = some id) (dirid : ℕ) (dirPath : String)
    (entries : List DirEntry) :
    (c.internAll dirid dirPath entries).2.pathToId.lookup path = some id := by
  induction entries generalizing c with
  | nil => exact h
  | cons e rest ih =>
    rw [internAll_cons rfl]
    have hw : Write.intern dirid (joinRemote dirPath e.name) e.isDir e.size ≠ .forget id :=
      fun heq => Write.noConfusion heq
    exact ih (hc.apply (.intern dirid (joinRemote dirPath e.name) e.isDir e.size))
      (hc.path_apply h hw)

/-- Every entry of a directory is returned in turn, with the id that its path is known by. -/
theorem Indexed.internAll_spec (hc : c.Indexed) (dirid : ℕ) (dirPath : String)
    (entries : List DirEntry) :
    (c.internAll dirid dirPath entries).1.map Prod.snd = entries ∧
      ∀ r ∈ (c.internAll dirid dirPath entries).1,
        (c.internAll dirid dirPath entries).2.pathToId.lookup (joinRemote dirPath r.2.name) =
          some r.1 := by
  induction entries generalizing c with
  | nil =>
    refine ⟨rfl, fun r hr => ?_⟩
    cases hr
  | cons e rest ih =>
    rw [internAll_cons rfl]
    have hc' : (c.intern dirid (joinRemote dirPath e.name) e.isDir e.size).2.Indexed :=
      hc.apply (.intern dirid (joinRemote dirPath e.name) e.isDir e.size)
    obtain ⟨hmap, hids⟩ := ih hc'
    refine ⟨congrArg (e :: ·) hmap, fun r hr => ?_⟩
    cases hr with
    | head =>
      exact hc'.path_listing (hc.path_intern dirid (joinRemote dirPath e.name) e.isDir e.size)
        dirid dirPath rest
    | tail _ hr => exact hids r hr

end Macrdp.NfsSurface.FsCache
