import Macrdp.SurfaceSections

/-!
# What is known is a tree

Every known object but the root hangs below a known directory, and its path is that of the
directory and one name more. A section that forgets a directory with known children, or interns
below one that was forgotten in the meantime, breaks it.
-/

namespace Macrdp.CacheTree

open LockSections RedirectedDrive NfsSurface StepSystem SurfaceSections

/-- One component of a path. -/
def IsComponent (name : String) : Prop := name ≠ "" ∧ '\\' ∉ name.toList

/-- The path is that of a known directory and one name more. -/
def Hangs (c : FsCache) (parent : ℕ) (path : String) : Prop :=
  ∃ dir name, c.idToNode.lookup parent = some dir ∧ dir.isDir = true ∧ IsComponent name ∧
    path = joinRemote dir.remotePath name

/-- No known object hangs below it; the root does not hang below itself. -/
def Childless (c : FsCache) (id : ℕ) : Prop :=
  ∀ j n, c.idToNode.lookup j = some n → j ≠ rootId → n.parent ≠ id

/-- The root is there and its own parent, and everything else hangs below a directory. -/
structure Tree (c : FsCache) : Prop where
  root : ∃ n, c.idToNode.lookup rootId = some n ∧ n.parent = rootId
  below : ∀ id n, c.idToNode.lookup id = some n → id ≠ rootId → Hangs c n.parent n.remotePath

/-- A new path hangs below a known directory, a directory with known children does not become a
file, and neither it nor the root is forgotten. -/
def Orderly (c : FsCache) : FsCache.Write → Prop
  | .intern parent path isDir _ =>
    (c.pathToId.lookup path = none → Hangs c parent path) ∧
      ∀ id, c.pathToId.lookup path = some id → isDir = true ∨ Childless c id
  | .forget id => c.idToNode.lookup id = none ∨ id ≠ rootId ∧ Childless c id
  | .setSize _ _ => True

/-- The surface at its start. -/
def start : Pool FsCache FsCache.Write Request Response (Except Nfsstat Reply) := ⟨.new, []⟩

/-- One step of the calls. -/
def step (createdSecs : ℕ)
    (s : Pool FsCache FsCache.Write Request Response (Except Nfsstat Reply))
    (a : Act FsCall Response) :
    Pool FsCache FsCache.Write Request Response (Except Nfsstat Reply) :=
  LockSections.step (program createdSecs) FsCache.apply s a

/-- Only the root is known at the start. -/
theorem tree_new : Tree .new where
  root := ⟨⟨"\\", true, 0, rootId⟩, (FsCache.lookup_new rootId).trans (if_pos rfl), rfl⟩
  below id n h hne := by
    rw [FsCache.lookup_new, if_neg hne] at h
    cases h

/-- A joined path is longer than that of its directory. -/
theorem joinRemote_ne_self {name : String} (hname : IsComponent name) (dir : String) :
    joinRemote dir name ≠ dir := by
  intro h
  have hlen := congrArg (fun s : String => s.toList.length) h
  have hpos : 0 < name.toList.length := List.length_pos_of_ne_nil fun hnil =>
    hname.1 (String.toList_injective (hnil.trans String.toList_empty.symm))
  rw [toList_joinRemote] at hlen
  split at hlen
  · next hroot =>
    rw [hroot, List.nil_append, List.length_cons] at hlen
    change name.toList.length + 1 = 1 at hlen
    omega
  · rw [List.length_append, List.length_cons] at hlen
    omega

section

variable {c : FsCache}

/-- What hangs below a directory that stays as it is still hangs below it. -/
theorem Hangs.congr {c' : FsCache} {parent : ℕ} {path : String} (h : Hangs c parent path)
    (hkeeps : ∀ dir, c.idToNode.lookup parent = some dir → dir.isDir = true →
      ∃ dir', c'.idToNode.lookup parent = some dir' ∧ dir'.isDir = true ∧
        dir'.remotePath = dir.remotePath) : Hangs c' parent path := by
  obtain ⟨dir, name, hdir, hisDir, hname, hpath⟩ := h
  obtain ⟨dir', hdir', hisDir', hpath'⟩ := hkeeps dir hdir hisDir
  exact ⟨dir', name, hdir', hisDir', hname, by rw [hpath', hpath]⟩

/-- A new object keeps the tree exactly if it hangs below a known directory. -/
theorem tree_add_iff (hc : c.Indexed) (ht : Tree c) (n : Node) :
    Tree { nextId := c.nextId + 1
           idToNode := c.idToNode.insert c.nextId n
           pathToId := c.pathToId.insert n.remotePath c.nextId } ↔
      Hangs c n.parent n.remotePath := by
  have hnew : ∀ j, j ≠ c.nextId →
      (c.idToNode.insert c.nextId n).lookup j = c.idToNode.lookup j := fun j hj =>
    AList.lookup_insert_ne hj
  have hroot : rootId ≠ c.nextId := Nat.ne_of_lt hc.next
  constructor
  · intro h
    obtain ⟨dir, name, hdir, hisDir, hname, hpath⟩ :=
      h.below c.nextId n (AList.lookup_insert _) hroot.symm
    by_cases hself : n.parent = c.nextId
    · rw [hself] at hdir
      have heq := (AList.lookup_insert _).symm.trans hdir
      cases heq
      exact absurd hpath.symm (joinRemote_ne_self hname _)
    · exact ⟨dir, name, (hnew _ hself).symm.trans hdir, hisDir, hname, hpath⟩
  · intro h
    have hkeeps : ∀ parent path, Hangs c parent path → Hangs
        { nextId := c.nextId + 1
          idToNode := c.idToNode.insert c.nextId n
          pathToId := c.pathToId.insert n.remotePath c.nextId } parent path := by
      intro parent path hh
      refine hh.congr fun dir hdir hisDir => ⟨dir, (hnew parent ?_).trans hdir, hisDir, rfl⟩
      exact Nat.ne_of_lt (hc.bound parent dir hdir)
    obtain ⟨m, hm, hparent⟩ := ht.root
    refine ⟨⟨m, (hnew _ hroot).trans hm, hparent⟩, fun j k hk hj => hkeeps _ _ ?_⟩
    by_cases hid : j = c.nextId
    · rw [hid] at hk
      have heq := (AList.lookup_insert _).symm.trans hk
      cases heq
      exact h
    · exact ht.below j k ((hnew j hid).symm.trans hk) hj

/-- A refreshed object keeps the tree exactly if it is a directory or has no children. -/
theorem tree_refresh_iff (ht : Tree c) {id : ℕ} {n m : Node}
    (hn : c.idToNode.lookup id = some n) (hpath : m.remotePath = n.remotePath)
    (hparent : m.parent = n.parent) :
    Tree { c with idToNode := c.idToNode.insert id m } ↔
      m.isDir = true ∨ Childless c id := by
  have hother : ∀ j, j ≠ id → (c.idToNode.insert id m).lookup j = c.idToNode.lookup j := fun j hj =>
    AList.lookup_insert_ne hj
  have hself : (c.idToNode.insert id m).lookup id = some m := AList.lookup_insert _
  constructor
  · intro h
    by_cases hdir : m.isDir = true
    · exact .inl hdir
    · refine .inr fun j k hk hj hbelow => hdir ?_
      have hhangs : Hangs { c with idToNode := c.idToNode.insert id m } id k.remotePath := by
        by_cases hid : j = id
        · rw [hid, hn] at hk
          cases hk
          have hm := h.below id m hself (by rw [← hid]; exact hj)
          rw [hparent, hbelow, hpath] at hm
          exact hm
        · have hk' := h.below j k ((hother j hid).trans hk) hj
          rw [hbelow] at hk'
          exact hk'
      obtain ⟨dir, name, hdir', hisDir, -, -⟩ := hhangs
      have heq := hself.symm.trans hdir'
      cases heq
      exact hisDir
  · intro h
    have hkeeps : ∀ j k, c.idToNode.lookup j = some k → j ≠ rootId →
        Hangs { c with idToNode := c.idToNode.insert id m } k.parent k.remotePath := by
      intro j k hk hj
      refine (ht.below j k hk hj).congr fun dir hdir hisDir => ?_
      by_cases hid : k.parent = id
      · rw [hid] at hdir ⊢
        rw [hn] at hdir
        cases hdir
        cases h with
        | inl h => exact ⟨m, hself, h, hpath⟩
        | inr h => exact absurd hid (h j k hk hj)
      · exact ⟨dir, (hother _ hid).trans hdir, hisDir, rfl⟩
    refine ⟨?_, fun j k hk hj => ?_⟩
    · obtain ⟨r, hr, hrp⟩ := ht.root
      by_cases hid : rootId = id
      · rw [← hid, hr] at hn
        cases hn
        rw [← hid] at hself
        exact ⟨m, by rw [← hid]; exact hself, hparent.trans hrp⟩
      · exact ⟨r, (hother _ hid).trans hr, hrp⟩
    · by_cases hid : j = id
      · rw [hid] at hk hj
        have heq := hself.symm.trans hk
        cases heq
        rw [hparent, hpath]
        exact hkeeps id n hn hj
      · exact hkeeps j k ((hother j hid).symm.trans hk) hj

/-- A known object is dropped from the tree exactly if it is not the root and has no children. -/
theorem tree_forget_iff (ht : Tree c) {id : ℕ} {n : Node} (hn : c.idToNode.lookup id = some n) :
    Tree (c.forget id) ↔ id ≠ rootId ∧ Childless c id := by
  have hother : ∀ j, j ≠ id → (c.forget id).idToNode.lookup j = c.idToNode.lookup j := by
    intro j hj
    rw [FsCache.lookup_forget hn, if_neg hj]
  have hself : (c.forget id).idToNode.lookup id = none := by
    rw [FsCache.lookup_forget hn, if_pos rfl]
  constructor
  · intro h
    obtain ⟨r, hr, -⟩ := h.root
    have hne : id ≠ rootId := fun heq => by
      rw [← heq, hself] at hr
      cases hr
    refine ⟨hne, fun j k hk hj hbelow => ?_⟩
    have hhangs : Hangs c k.parent k.remotePath := ht.below j k hk hj
    by_cases hid : j = id
    · obtain ⟨dir, name, hdir, -, hname, hpath⟩ := hhangs
      rw [hid, hn] at hk
      cases hk
      rw [hbelow, hn] at hdir
      cases hdir
      exact absurd hpath.symm (joinRemote_ne_self hname _)
    · obtain ⟨dir, -, hdir, -⟩ := h.below j k ((hother j hid).trans hk) hj
      rw [hbelow, hself] at hdir
      cases hdir
  · rintro ⟨hne, hchildless⟩
    obtain ⟨r, hr, hrp⟩ := ht.root
    refine ⟨⟨r, (hother _ hne.symm).trans hr, hrp⟩, fun j k hk hj => ?_⟩
    have hid : j ≠ id := fun heq => by
      rw [heq, hself] at hk
      cases hk
    have hk' := (hother j hid).symm.trans hk
    exact (ht.below j k hk' hj).congr fun dir hdir hisDir =>
      ⟨dir, (hother _ (hchildless j k hk' hj)).trans hdir, hisDir, rfl⟩

/-- A write keeps the tree exactly if it is orderly. -/
theorem tree_apply_iff (hc : c.Indexed) (ht : Tree c) (w : FsCache.Write) :
    Tree (c.apply w) ↔ Orderly c w := by
  cases w with
  | intern parent path isDir size =>
    cases hid : c.pathToId.lookup path with
    | none =>
      have hiff := tree_add_iff hc ht ⟨path, isDir, size, parent⟩
      rw [FsCache.apply, FsCache.intern_fresh hid]
      refine hiff.trans ⟨fun h => ⟨fun _ => h, fun id h' => ?_⟩, fun h => h.1 hid⟩
      rw [hid] at h'
      cases h'
    | some id =>
      obtain ⟨n, hn, -, heq⟩ := hc.intern_known hid parent isDir size
      have hiff := tree_refresh_iff (m := { n with isDir := isDir, size := size }) ht hn rfl rfl
      rw [FsCache.apply, heq]
      refine hiff.trans ⟨fun h => ⟨fun h' => ?_, fun j hj => ?_⟩, fun h => h.2 id hid⟩
      · rw [hid] at h'
        cases h'
      · rw [hid] at hj
        cases hj
        exact h
  | forget id =>
    cases hn : c.idToNode.lookup id with
    | none =>
      have hsame : c.forget id = c := by rw [FsCache.forget, hn]
      rw [FsCache.apply, hsame]
      exact ⟨fun _ => .inl hn, fun _ => ht⟩
    | some n =>
      refine (tree_forget_iff ht hn).trans ⟨.inr, fun h => ?_⟩
      cases h with
      | inl h =>
        rw [hn] at h
        cases h
      | inr h => exact h
  | setSize id size =>
    cases hn : c.idToNode.lookup id with
    | none =>
      have hsame : c.setSize id size = c := by rw [FsCache.setSize, hn]
      rw [FsCache.apply, hsame]
      exact ⟨fun _ => trivial, fun _ => ht⟩
    | some n =>
      have hset : c.setSize id size =
          { c with idToNode := c.idToNode.insert id { n with size := size } } := by
        rw [FsCache.setSize, hn]
      rw [FsCache.apply, hset, tree_refresh_iff (m := { n with size := size }) ht hn rfl rfl]
      refine ⟨fun _ => trivial, fun _ => ?_⟩
      by_cases hdir : n.isDir = true
      · exact .inl hdir
      · refine .inr fun j k hk hj hbelow => hdir ?_
        obtain ⟨dir, -, hdir', hisDir, -⟩ := ht.below j k hk hj
        rw [hbelow, hn] at hdir'
        cases hdir'
        exact hisDir

end

/-- The client grants whatever it is asked. -/
def granted : Response := .ok ⟨[], []⟩

/-- A call that runs to its end with nothing between its sections. -/
def served (i turns : ℕ) (call : FsCall) : List (Act FsCall Response) :=
  .start call :: List.replicate turns (.turn i granted)

/-- Over any run of the calls the two maps stay inverse to each other and no id is given out
twice, and what is known is a tree if every write of every section is orderly. -/
theorem cache_wellformed (createdSecs : ℕ) (before acts : List (Act FsCall Response)) :
    ((before ++ acts).foldl (step createdSecs) start).state.Indexed ∧
    FsCache.Later (before.foldl (step createdSecs) start).state
      ((before ++ acts).foldl (step createdSecs) start).state ∧
    (Meets (total (step createdSecs))
        (fun s a => Meets (total FsCache.apply) Orderly s.state (writes s a)) start
        (before ++ acts) →
      Tree ((before ++ acts).foldl (step createdSecs) start).state) := by
  have hindexed : ∀ acts : List (Act FsCall Response),
      (acts.foldl (step createdSecs) start).state.Indexed := fun acts =>
    foldl_state (program createdSecs) FsCache.apply FsCache.Indexed (fun _ w h => h.apply w)
      FsCache.indexed_new acts
  refine ⟨hindexed _, ?_, fun hmeets => ?_⟩
  · rw [List.foldl_append]
    have hlater := foldl_state (program createdSecs) FsCache.apply
      (fun c => c.Indexed ∧ FsCache.Later (before.foldl (step createdSecs) start).state c)
      (fun c w h => ⟨h.1.apply w, h.2.trans (h.1.later_apply w)⟩)
      (s := before.foldl (step createdSecs) start) ⟨hindexed before, FsCache.Later.refl _⟩ acts
    exact hlater.2
  · have htree := foldl_state_of_meets (program createdSecs) FsCache.apply
      (fun c => c.Indexed ∧ Tree c)
      (fun c w h hw => ⟨h.1.apply w, (tree_apply_iff h.1 h.2 w).mpr hw⟩)
      (s := start) ⟨FsCache.indexed_new, tree_new⟩ hmeets
    exact htree.2

/-- A directory that is made hangs below the root. -/
theorem cache_wellformed_mkdir :
    Tree ((served 0 3 (.mkdir rootId "a")).foldl (step 0) start).state := by
  refine (cache_wellformed 0 [] _).2.2 ⟨trivial, fun s hs => ?_⟩
  cases hs
  refine ⟨trivial, fun s hs => ?_⟩
  cases hs
  refine ⟨trivial, fun s hs => ?_⟩
  cases hs
  refine ⟨⟨⟨fun _ => ?_, fun id hid => ?_⟩, fun _ _ => trivial⟩, fun _ _ => trivial⟩
  · exact ⟨⟨"\\", true, 0, rootId⟩, "a", rfl, rfl, ⟨by decide, by decide⟩, rfl⟩
  · exact .inl rfl

/-- A directory is made in another, and the outer one is renamed. -/
def renamedParent : List (Act FsCall Response) :=
  served 0 3 (.mkdir rootId "a") ++ served 1 3 (.mkdir 2 "b") ++
    served 2 5 (.rename rootId "a" rootId "c")

/-- The inner directory hangs below an id that is not known. -/
theorem not_tree_renamedParent :
    ¬ ∀ acts : List (Act FsCall Response), Tree (acts.foldl (step 0) start).state := by
  intro h
  have hinner : ((renamedParent.foldl (step 0) start).state.idToNode.lookup 3).map Node.parent =
      some 2 := by decide +kernel
  have houter : (renamedParent.foldl (step 0) start).state.idToNode.lookup 2 = none := by
    decide +kernel
  obtain ⟨n, hn, hparent⟩ := Option.map_eq_some_iff.mp hinner
  obtain ⟨dir, -, hdir, -⟩ := (h renamedParent).below 3 n hn (by decide)
  rw [hparent, houter] at hdir
  cases hdir

end Macrdp.CacheTree
