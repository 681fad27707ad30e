import Macrdp.SurfaceMirror
import Mathlib.Data.List.Perm.Basic

/-!
# The surface refines the drive

Call by call the surface answers as the reference server does, changes the drive as it does, and
keeps its mirror of the tree, as long as every call is an orderly one.
-/

namespace Macrdp.NfsSurface

open FileBytes FileTree RedirectedDrive

/-- A call was served as the reference serves it. -/
def Served (held : ℕ → Option ℕ) (answer : Except Nfsstat Reply × RdpdrFs)
    (expected : Except Fault Answer × Drive) : Prop :=
  ∃ obj, Mirror answer.2.cache expected.2 held obj ∧ answer.2.drive = expected.2 ∧
    (∀ reply, answer.1 = .ok reply →
      ∀ id ∈ reply.ids, (answer.2.cache.idToNode.lookup id).isSome) ∧
    match expected.1 with
    | .ok a => ∃ reply, answer.1 = .ok reply ∧ reply.Says (fun id => some (obj id)) expected.2 a
    | .error .gone => ∃ e, answer.1 = .error e
    | .error .refused => True

variable {s : RdpdrFs}
variable {held : ℕ → Option ℕ} {t : Drive} {obj : ℕ → ℕ}

/-- An error where the reference has one. -/
theorem Served.of_error
    (h : Mirror s.cache t held obj) (hdrive : s.drive = t) (e : Nfsstat) (f : Fault) :
    Served held (.error e, s) (.error f, t) := by
  refine ⟨obj, h, hdrive, fun reply hreply => (by cases hreply), ?_⟩
  cases f with
  | gone => exact ⟨e, rfl⟩
  | refused => trivial

/-- An answer where the reference has one. -/
theorem Served.of_ok
    (h : Mirror s.cache t held obj) (hdrive : s.drive = t) {reply : Reply} {a : Answer}
    (hids : ∀ id ∈ reply.ids, (s.cache.idToNode.lookup id).isSome)
    (hreplies : reply.Says (fun id => some (obj id)) t a) :
    Served held (.ok reply, s) (.ok a, t) := by
  refine ⟨obj, h, hdrive, fun r hr => ?_, reply, rfl, hreplies⟩
  cases hr
  exact hids

/-- An answer where the reference refuses. -/
theorem Served.of_refused (h : Mirror s.cache t held obj) (hdrive : s.drive = t) {reply : Reply}
    (hids : ∀ id ∈ reply.ids, (s.cache.idToNode.lookup id).isSome) :
    Served held (.ok reply, s) (.error .refused, t) := by
  refine ⟨obj, h, hdrive, fun r hr => ?_, trivial⟩
  cases hr
  exact hids

/-- Attributes show what they were made of. -/
theorem shows_attr {id size : ℕ} {isDir : Bool} {c : Content UInt8}
    (hkind : isDir = c.isDir) (hsize : c.isDir = false → size = c.size) :
    (s.attr id isDir size).Shows c := by
  cases isDir with
  | true => exact ⟨hkind, fun hfile => by rw [← hkind] at hfile; cases hfile⟩
  | false => exact ⟨hkind, fun hfile => hsize hfile⟩

/-- Attributes carry the id that they were made for. -/
@[simp] theorem fileid_attr (s : RdpdrFs) (id size : ℕ) (isDir : Bool) :
    (s.attr id isDir size).fileid = id := by
  cases isDir <;> rfl

/-- What is on the left has a counterpart on the right. -/
theorem exists_of_forall₂_left {α γ : Type*} {R : α → γ → Prop} {l : List α} {u : List γ}
    (h : List.Forall₂ R l u) {a : α} (ha : a ∈ l) : ∃ b ∈ u, R a b := by
  induction h with
  | nil => cases ha
  | cons hhead _ ih =>
    rcases List.mem_cons.mp ha with rfl | hrest
    · exact ⟨_, List.mem_cons_self, hhead⟩
    · obtain ⟨b, hb, hab⟩ := ih hrest
      exact ⟨b, List.mem_cons_of_mem _ hb, hab⟩

/-- What is on the right has a counterpart on the left. -/
theorem exists_of_forall₂_right {α γ : Type*} {R : α → γ → Prop} {l : List α} {u : List γ}
    (h : List.Forall₂ R l u) {b : γ} (hb : b ∈ u) : ∃ a ∈ l, R a b :=
  exists_of_forall₂_left h.flip hb

/-- A listing goes on behind the entry of its cookie: with the entries of larger ids. -/
theorem startIndex_eq {kids : List (ℕ × DirEntry)} (hsorted : kids.Pairwise fun a b => a.1 < b.1)
    (hpos : ∀ e ∈ kids, 0 < e.1) {startAfter : ℕ}
    (hcookie : startAfter = 0 ∨ ∃ e ∈ kids, e.1 = startAfter) :
    RdpdrFs.startIndex kids startAfter ≤ kids.length ∧
      kids.drop (RdpdrFs.startIndex kids startAfter) =
        kids.filter fun e => startAfter < e.1 := by
  unfold RdpdrFs.startIndex
  by_cases hstart : startAfter = 0
  · rw [if_pos hstart, List.drop_zero, hstart]
    refine ⟨Nat.zero_le _, (List.filter_eq_self.mpr fun e he => ?_).symm⟩
    exact decide_eq_true (hpos e he)
  · rw [if_neg hstart]
    have hmem : ∃ e ∈ kids, e.1 = startAfter := hcookie.resolve_left hstart
    clear hcookie hpos hstart
    induction kids with
    | nil =>
      obtain ⟨e, he, -⟩ := hmem
      cases he
    | cons kid rest ih =>
      obtain ⟨hhead, hrest⟩ := List.pairwise_cons.mp hsorted
      by_cases hkid : kid.1 = startAfter
      · have hfind : (kid :: rest).findIdx? (fun e => e.1 = startAfter) = some 0 := by
          rw [List.findIdx?_cons, if_pos (decide_eq_true hkid)]
        rw [hfind]
        refine ⟨by simp only [List.length_cons]; omega, ?_⟩
        have hself : ¬startAfter < kid.1 := by omega
        rw [List.filter_cons_of_neg (by rw [decide_eq_true_eq]; exact hself)]
        refine (List.filter_eq_self.mpr fun e he => ?_).symm
        have hlt := hhead e he
        exact decide_eq_true (by omega)
      · have hmem' : ∃ e ∈ rest, e.1 = startAfter := by
          obtain ⟨e, he, hes⟩ := hmem
          rcases List.mem_cons.mp he with rfl | hin
          · exact absurd hes hkid
          · exact ⟨e, hin, hes⟩
        obtain ⟨hle, hdrop⟩ := ih hrest hmem'
        cases hfind : rest.findIdx? fun e => e.1 = startAfter with
        | none =>
          obtain ⟨e, he, hes⟩ := hmem'
          have hnot := List.findIdx?_eq_none_iff.mp hfind e he
          exact absurd hes (of_decide_eq_false hnot)
        | some p =>
          rw [hfind] at hle hdrop
          have hwhole : (kid :: rest).findIdx? (fun e => e.1 = startAfter) = some (p + 1) := by
            rw [List.findIdx?_cons, if_neg (by rw [decide_eq_true_eq]; exact hkid), hfind]
            rfl
          rw [hwhole]
          refine ⟨Nat.succ_le_succ hle, ?_⟩
          obtain ⟨e, he, hes⟩ := hmem'
          have hlt := hhead e he
          have hself : ¬startAfter < kid.1 := by omega
          rw [List.filter_cons_of_neg (by rw [decide_eq_true_eq]; exact hself)]
          exact hdrop

namespace Mirror

variable {s : RdpdrFs} {held : ℕ → Option ℕ} {obj : ℕ → ℕ}
variable {id i dirid : ℕ}

/-- The surface and the reference know the same of an id that should be a directory's. -/
theorem dir_cases (h : Mirror s.cache s.drive held obj) (hid : held id = some i) :
    (Reference.asDir held id s.drive = .error .gone ∧ s.cache.idToNode.lookup id = none) ∨
      (Reference.asDir held id s.drive = .error .refused ∧
        ∃ n, s.cache.idToNode.lookup id = some n ∧ n.isDir = false) ∨
      (Reference.asDir held id s.drive = .ok (obj id) ∧ s.drive.content (obj id) = some .dir ∧
        ∃ n, s.cache.idToNode.lookup id = some n ∧ n.isDir = true) := by
  unfold Reference.asDir
  rw [hid]
  cases hcontent : s.drive.content i with
  | none => exact .inl ⟨by simp only [hcontent], h.gone id i hid hcontent⟩
  | some c =>
    obtain ⟨hobj, n, hn, hkind, -⟩ := h.node_of_held hid hcontent
    rw [hobj]
    cases c with
    | dir => exact .inr (.inr ⟨by simp only [hcontent], hcontent, n, hn, hkind⟩)
    | file bytes => exact .inr (.inl ⟨by simp only [hcontent], n, hn, hkind⟩)

/-- The path of a directory is known where the reference knows the directory. -/
theorem dirPath_cases (h : Mirror s.cache s.drive held obj) (hid : held id = some i) :
    (∃ e f, s.dirPathOf id = .error e ∧ Reference.asDir held id s.drive = .error f) ∨
      ∃ n, s.dirPathOf id = .ok n.remotePath ∧
        Reference.asDir held id s.drive = .ok (obj id) ∧ s.drive.content (obj id) = some .dir ∧
          s.cache.idToNode.lookup id = some n ∧ n.isDir = true := by
  unfold RdpdrFs.dirPathOf
  rcases h.dir_cases hid with ⟨hasDir, hnone⟩ | ⟨hasDir, n, hn, hfile⟩ |
    ⟨hasDir, hcontent, n, hn, hdir⟩
  · exact .inl ⟨_, _, by rw [hnone], hasDir⟩
  · exact .inl ⟨.notdir, _, by simp only [hn, hfile, if_true], hasDir⟩
  · exact .inr ⟨n, by simp only [hn, hdir, Bool.true_eq_false, if_false], hasDir, hcontent, hn, hdir⟩

/-- The surface and the reference know the same of an id that should be a file's. -/
theorem file_cases (h : Mirror s.cache s.drive held obj) (hid : held id = some i) :
    (Reference.asFile held id s.drive = .error .gone ∧ s.cache.idToNode.lookup id = none) ∨
      (Reference.asFile held id s.drive = .error .refused ∧
        ∃ n, s.cache.idToNode.lookup id = some n ∧ n.isDir = true) ∨
      (∃ bytes, Reference.asFile held id s.drive = .ok (obj id, bytes) ∧
        s.drive.content (obj id) = some (.file bytes) ∧
        ∃ n, s.cache.idToNode.lookup id = some n ∧ n.isDir = false ∧ n.size = bytes.length) := by
  unfold Reference.asFile
  rw [hid]
  cases hcontent : s.drive.content i with
  | none => exact .inl ⟨by simp only [hcontent], h.gone id i hid hcontent⟩
  | some c =>
    obtain ⟨hobj, n, hn, hkind, hsize⟩ := h.node_of_held hid hcontent
    rw [hobj]
    cases c with
    | dir => exact .inr (.inl ⟨by simp only [hcontent], n, hn, hkind⟩)
    | file bytes =>
      exact .inr (.inr ⟨bytes, by simp only [hcontent], hcontent, n, hn, hkind, hsize rfl⟩)

variable {n : Node}

/-- Listing a known directory makes its children known. -/
theorem listAndCache (h : Mirror s.cache s.drive held obj)
    (hn : s.cache.idToNode.lookup dirid = some n) (hdir : n.isDir = true)
    (hheld : (held dirid).isSome) :
    ∃ obj' out c', s.listAndCache dirid = (.ok out, { s with cache := c' }) ∧
      Mirror c' s.drive held obj' ∧ Grows s.cache c' obj obj' ∧
        List.Forall₂ (fun o kid => o.2 = entryOf kid ∧ obj' o.1 = kid.1 ∧
          c'.pathToId.lookup (joinRemote n.remotePath kid.2.name.val) = some o.1) out
          (s.drive.children (obj dirid)) := by
  obtain ⟨c, hc, hkind, -⟩ := h.shows hn
  have hcontent : s.drive.content (obj dirid) = some .dir := by
    cases c with
    | dir => exact hc
    | file bytes =>
      rw [hdir] at hkind
      cases hkind
  obtain ⟨obj', out, c', hall, h', hgrows, hout⟩ :=
    h.internAll (s.drive.children (obj dirid)) hn hheld
      (fun kid hkid => Tree.mem_children.mp hkid)
  refine ⟨obj', out, c', ?_, h', hgrows, hout⟩
  have hlist := RdpdrHandle.listDir_eq (h.find hn) hcontent
  have hentries : s.cache.internAll dirid n.remotePath ((s.drive.children (obj dirid)).map
      fun kid => ⟨kid.2.name.val, kid.2.content.size, kid.2.content.isDir⟩) = (out, c') := hall
  unfold RdpdrFs.listAndCache
  rw [hn]
  simp only [hdir, Bool.true_eq_false, if_false, hlist, hentries]

/-- After a listing the paths of all children are known. -/
theorem listed_path (h : Mirror s.cache s.drive held obj)
    (hn : s.cache.idToNode.lookup dirid = some n) (hdir : n.isDir = true)
    (hheld : (held dirid).isSome) (m : Name) :
    ∃ obj' out c', s.listAndCache dirid = (.ok out, { s with cache := c' }) ∧
      Mirror c' s.drive held obj' ∧ Grows s.cache c' obj obj' ∧
        (s.drive.child (obj dirid) m = none →
          c'.pathToId.lookup (joinRemote n.remotePath m.val) = none) ∧
        ∀ i, s.drive.child (obj dirid) m = some i →
          ∃ id k, c'.pathToId.lookup (joinRemote n.remotePath m.val) = some id ∧ obj' id = i ∧
            c'.idToNode.lookup id = some k ∧ k.remotePath = joinRemote n.remotePath m.val := by
  obtain ⟨obj', out, c', hlist, h', hgrows, hout⟩ := h.listAndCache hn hdir hheld
  obtain ⟨hobj, n', hn', hpath⟩ := hgrows dirid n hn
  refine ⟨obj', out, c', hlist, h', hgrows, fun hnone => ?_, fun i hi => ?_⟩
  · cases hknown : c'.pathToId.lookup (joinRemote n.remotePath m.val) with
    | none => rfl
    | some id =>
      rw [← hpath] at hknown
      have hchild := (h'.child_of_path hn' hknown).1
      rw [hobj, hnone] at hchild
      cases hchild
  · obtain ⟨r, hr, hparent, hname⟩ := Tree.child_eq_some_iff.mp hi
    have hmem : (i, r) ∈ s.drive.children (obj dirid) := Tree.mem_children.mpr ⟨hr, hparent⟩
    obtain ⟨o, -, -, hid, hknown⟩ := exists_of_forall₂_right hout hmem
    rw [hname] at hknown
    obtain ⟨k, hk, hkpath⟩ := (h'.path _ o.1).mp hknown
    exact ⟨o.1, k, hknown, hid, hk, hkpath⟩

/-- The directory of a known node is known, and is where its object is. -/
theorem parent_known (h : Mirror s.cache s.drive held obj)
    (hn : s.cache.idToNode.lookup id = some n) :
    (s.cache.idToNode.lookup n.parent).isSome ∧ obj n.parent = s.drive.parent (obj id) := by
  by_cases hroot : id = rootId
  · obtain ⟨size, hsize⟩ := h.root
    rw [hroot, hsize] at hn
    cases hn
    refine ⟨by rw [hsize]; rfl, ?_⟩
    rw [hroot, h.rootObj, Tree.parent, Tree.record_zero]
    rfl
  · obtain ⟨r, dir, ha⟩ := h.anchored id n hn hroot
    refine ⟨by rw [ha.known]; rfl, ?_⟩
    rw [ha.parent, Tree.parent, ha.record]
    rfl

/-- The path of a known child, which a listing makes known if it was not. -/
theorem resolve (h : Mirror s.cache s.drive held obj)
    (hn : s.cache.idToNode.lookup dirid = some n) (hdir : n.isDir = true)
    (hheld : (held dirid).isSome) (m : Name) :
    ∃ obj' c', Mirror c' s.drive held obj' ∧ Grows s.cache c' obj obj' ∧
      ((s.drive.child (obj dirid) m = none ∧
          s.resolve dirid (joinRemote n.remotePath m.val) =
            (.error .noent, { s with cache := c' })) ∨
        ∃ id k, s.drive.child (obj dirid) m = some (obj' id) ∧
          c'.idToNode.lookup id = some k ∧ k.remotePath = joinRemote n.remotePath m.val ∧
          s.resolve dirid (joinRemote n.remotePath m.val) =
            (.ok (id, k), { s with cache := c' })) := by
  cases hpath : s.cache.pathToId.lookup (joinRemote n.remotePath m.val) with
  | some id =>
    obtain ⟨k, hk, hkpath⟩ := (h.path _ id).mp hpath
    refine ⟨obj, s.cache, h, .refl s.cache obj, .inr ⟨id, k, ?_, hk, hkpath, ?_⟩⟩
    · exact (h.child_of_path hn hpath).1
    · have hknown : s.cache.known (joinRemote n.remotePath m.val) = some (id, k) := by
        rw [FsCache.known, hpath, Option.bind_some, hk, Option.map_some]
      unfold RdpdrFs.resolve
      rw [hknown]
  | none =>
    have hunknown : s.cache.known (joinRemote n.remotePath m.val) = none := by
      rw [FsCache.known, hpath, Option.bind_none]
    obtain ⟨obj', out, c', hlist, h', hgrows, hnone, hsome⟩ := h.listed_path hn hdir hheld m
    refine ⟨obj', c', h', hgrows, ?_⟩
    cases hchild : s.drive.child (obj dirid) m with
    | none =>
      have hstill : c'.known (joinRemote n.remotePath m.val) = none := by
        rw [FsCache.known, hnone hchild, Option.bind_none]
      refine .inl ⟨rfl, ?_⟩
      unfold RdpdrFs.resolve
      simp only [hunknown, hlist, hstill]
    | some i =>
      obtain ⟨id, k, hid, hobj, hk, hkpath⟩ := hsome i hchild
      have hknown : c'.known (joinRemote n.remotePath m.val) = some (id, k) := by
        rw [FsCache.known, hid, Option.bind_some, hk, Option.map_some]
      refine .inr ⟨id, k, by rw [hobj], hk, hkpath, ?_⟩
      unfold RdpdrFs.resolve
      simp only [hunknown, hlist, hknown]

/-! ## Calls that leave the drive as it is -/

/-- A name is looked up. -/
theorem serve_name (h : Mirror s.cache s.drive held obj) (hid : held dirid = some i) (m : Name) :
    Served held (s.lookup dirid m.val)
      ((Reference.asDir held dirid s.drive).bind fun d =>
        Reference.lookup d s.drive (.name m), s.drive) := by
  have hhere : m.val ≠ "." := m.property.2.2.1
  have hup : m.val ≠ ".." := m.property.2.2.2
  unfold RdpdrFs.lookup
  rw [if_neg hhere, if_neg hup]
  obtain ⟨e, f, hpath, hasDir⟩ | ⟨n, hpath, hasDir, -, hn, hdir⟩ := h.dirPath_cases hid
  · simp only [hpath, hasDir]
    exact .of_error h rfl _ _
  · have hheld : (held dirid).isSome := by rw [hid]; rfl
    simp only [hpath, hasDir]
    change Served held _ (Reference.lookup (obj dirid) s.drive (.name m), s.drive)
    cases hpath : s.cache.pathToId.lookup (joinRemote n.remotePath m.val) with
    | some id =>
      obtain ⟨hchild, -, k, hk, -⟩ := h.child_of_path hn hpath
      rw [Reference.lookup, hchild]
      refine .of_ok h rfl ?_ rfl
      exact fun j hj => by rw [List.mem_singleton.mp hj, hk]; rfl
    | none =>
      obtain ⟨obj', out, c', hlist, h', -, hnone, hsome⟩ := h.listed_path hn hdir hheld m
      simp only [hlist]
      cases hchild : s.drive.child (obj dirid) m with
      | none =>
        rw [hnone hchild, Reference.lookup, hchild]
        exact .of_error (s := { s with cache := c' }) h' rfl _ _
      | some j =>
        obtain ⟨id, k, hknown, hobj, hk, -⟩ := hsome j hchild
        rw [hknown, Reference.lookup, hchild]
        refine .of_ok (s := { s with cache := c' }) h' rfl ?_ (congrArg some hobj)
        exact fun j hj => by rw [List.mem_singleton.mp hj, hk]; rfl

/-- A component is looked up; the directory of a `.` is there. -/
theorem serve_lookup (h : Mirror s.cache s.drive held obj)
    (hid : held dirid = some i) (filename : Component)
    (hthere : filename = .here → (s.drive.content i).isSome) :
    Served held (s.lookup dirid filename.text)
      ((Reference.asDir held dirid s.drive).bind fun d =>
        Reference.lookup d s.drive filename, s.drive) := by
  cases filename with
  | name m => exact h.serve_name hid m
  | here =>
    have hanswer : s.lookup dirid Component.here.text = (.ok (.object dirid), s) := rfl
    obtain ⟨-, hknown⟩ := h.alive dirid i hid (hthere rfl)
    have hids : ∀ id ∈ (Reply.object dirid).ids, (s.cache.idToNode.lookup id).isSome := by
      intro id hmem
      rw [List.mem_singleton.mp hmem]
      exact hknown
    rw [hanswer]
    rcases h.dir_cases hid with ⟨-, hnone⟩ | ⟨hasDir, -⟩ | ⟨hasDir, -⟩
    · rw [hnone] at hknown
      cases hknown
    · rw [hasDir]
      exact .of_refused h rfl hids
    · rw [hasDir]
      exact .of_ok h rfl hids rfl
  | up =>
    have hno : Component.up.text ≠ "." := by decide
    have hup : Component.up.text = ".." := rfl
    have hgone : s.cache.idToNode.lookup dirid = none →
        s.lookup dirid Component.up.text = (.error .noent, s) := by
      intro hnone
      rw [RdpdrFs.lookup, if_neg hno, if_pos hup, hnone]
    have hanswer : ∀ n, s.cache.idToNode.lookup dirid = some n →
        s.lookup dirid Component.up.text = (.ok (.object n.parent), s) := by
      intro n hn
      rw [RdpdrFs.lookup, if_neg hno, if_pos hup, hn]
    have hids : ∀ n, s.cache.idToNode.lookup dirid = some n →
        ∀ id ∈ (Reply.object n.parent).ids, (s.cache.idToNode.lookup id).isSome := by
      intro n hn id hmem
      rw [List.mem_singleton.mp hmem]
      exact (h.parent_known hn).1
    rcases h.dir_cases hid with ⟨hasDir, hnone⟩ | ⟨hasDir, n, hn, -⟩ | ⟨hasDir, -, n, hn, -⟩
    · rw [hgone hnone, hasDir]
      exact .of_error h rfl _ _
    · rw [hanswer n hn, hasDir]
      exact .of_refused h rfl (hids n hn)
    · rw [hanswer n hn, hasDir]
      exact .of_ok h rfl (hids n hn) (congrArg some (h.parent_known hn).2)

/-- Attributes are returned. -/
theorem serve_getattr (h : Mirror s.cache s.drive held obj) (hid : held id = some i) :
    Served held (s.getattr id) (Reference.getattr held id s.drive, s.drive) := by
  unfold RdpdrFs.getattr Reference.getattr
  rw [hid]
  cases hcontent : s.drive.content i with
  | none =>
    rw [h.gone id i hid hcontent]
    simp only [hcontent]
    exact .of_error h rfl _ _
  | some c =>
    obtain ⟨hobj, n, hn, hkind, hsize⟩ := h.node_of_held hid hcontent
    rw [hn]
    simp only [hcontent]
    refine .of_ok h rfl ?_ ⟨?_, shows_attr hkind hsize⟩
    · intro j hj
      rw [List.mem_singleton.mp hj, fileid_attr, hn]
      rfl
    · rw [fileid_attr]
      exact congrArg some hobj

/-- A read gives the bytes of the file. Behind the end there are none. -/
theorem serve_read (h : Mirror s.cache s.drive held obj) (hid : held id = some i)
    (offset count : ℕ) :
    Served held (s.read id offset count)
      ((Reference.asFile held id s.drive).map fun (_, bytes) =>
        .bytes (readAt bytes offset count)
          (bytes.length ≤ offset + (readAt bytes offset count).length), s.drive) := by
  unfold RdpdrFs.read
  rcases h.file_cases hid with ⟨hasFile, hnone⟩ | ⟨hasFile, n, hn, hdir⟩ |
    ⟨bytes, hasFile, hcontent, n, hn, hfile, hsize⟩
  · rw [hnone, hasFile]
    exact .of_error h rfl _ _
  · rw [hn, hasFile]
    simp only [hdir, if_true]
    exact .of_error h rfl _ _
  · rw [hn, hasFile]
    simp only [hfile, Bool.false_eq_true, if_false, hsize]
    split
    · next hend =>
      have hempty : readAt bytes offset count = [] := by
        rw [readAt, List.drop_eq_nil_of_le hend, List.take_nil]
      refine .of_ok h rfl (fun _ hmem => absurd hmem List.not_mem_nil) ⟨hempty.symm, ?_⟩
      rw [hempty]
      exact (decide_eq_true (by exact hend)).symm
    · rw [RdpdrHandle.readFile_eq (h.find hn) hcontent]
      exact .of_ok h rfl (fun _ hmem => absurd hmem List.not_mem_nil) ⟨rfl, rfl⟩

/-- A listing shows a page of the children in the order of their ids. -/
theorem serve_readdir (h : Mirror s.cache s.drive held obj)
    (hid : held dirid = some i) (startAfter maxEntries : ℕ) :
    Served held (s.readdir dirid startAfter maxEntries)
      ((Reference.asDir held dirid s.drive).bind fun d =>
        if Reference.cookie held d startAfter s.drive then .ok (.listing d startAfter maxEntries)
        else .error .refused, s.drive) := by
  unfold RdpdrFs.readdir
  rcases h.dir_cases hid with ⟨hasDir, hnone⟩ | ⟨hasDir, n, hn, hfile⟩ | ⟨hasDir, -, n, hn, hdir⟩
  · simp only [RdpdrFs.listAndCache, hnone, hasDir]
    exact .of_error h rfl _ _
  · simp only [RdpdrFs.listAndCache, hn, hfile, if_true, hasDir]
    exact .of_error h rfl _ _
  · obtain ⟨obj', out, c', hlist, h', hgrows, hout⟩ := h.listAndCache hn hdir (by rw [hid]; rfl)
    rw [hlist, hasDir]
    change Served held _ (if Reference.cookie held (obj dirid) startAfter s.drive then
      .ok (.listing (obj dirid) startAfter maxEntries) else .error .refused, s.drive)
    let entry (o : ℕ × DirEntry) : NfsDirEntry :=
      ⟨o.1, o.2.name, { s with cache := c' }.attr o.1 o.2.isDir o.2.size⟩
    change Served held
      (let kids := out.mergeSort fun a b => a.1 ≤ b.1
      let start := RdpdrFs.startIndex kids startAfter
      let entries := ((kids.drop (min start kids.length)).take maxEntries).map entry
      (.ok (.listing entries (kids.length ≤ start + entries.length)), { s with cache := c' })) _
    generalize hsort : out.mergeSort (fun a b => decide (a.1 ≤ b.1)) = sorted
    simp only
    have hperm : sorted.Perm out := hsort ▸ List.mergeSort_perm out _
    obtain ⟨kids, hkids, hkidsperm⟩ := List.perm_comp_forall₂ hperm hout
    -- Every entry has an id of its own, which is known.
    have hknown : ∀ o ∈ sorted, (c'.idToNode.lookup o.1).isSome ∧ 0 < o.1 := by
      intro o ho
      obtain ⟨kid, -, -, -, hpath⟩ := exists_of_forall₂_left hkids ho
      obtain ⟨k, hk, -⟩ := (h'.path _ _).mp hpath
      refine ⟨by rw [hk]; rfl, Nat.pos_of_ne_zero fun hzero => ?_⟩
      rw [hzero, h'.zero] at hk
      cases hk
    have hids : ∀ start, ∀ id ∈ (((sorted.drop start).take maxEntries).map entry).map
        NfsDirEntry.fileid, (c'.idToNode.lookup id).isSome := by
      intro start id hmem
      rw [List.map_map] at hmem
      obtain ⟨o, ho, rfl⟩ := List.mem_map.mp hmem
      exact (hknown o (List.mem_of_mem_drop (List.mem_of_mem_take ho))).1
    have hsorted : sorted.Pairwise fun a b => a.1 < b.1 := by
      have hle : sorted.Pairwise fun a b => a.1 ≤ b.1 := by
        have hmerge : (out.mergeSort fun a b => decide (a.1 ≤ b.1)).Pairwise
            fun a b => decide (a.1 ≤ b.1) = true :=
          List.pairwise_mergeSort
            (fun a b c hab hbc => by simp only [decide_eq_true_eq] at *; omega)
            (fun a b => by simp only [Bool.or_eq_true, decide_eq_true_eq]; omega) out
        rw [hsort] at hmerge
        exact hmerge.imp of_decide_eq_true
      have hne : sorted.Pairwise fun a b => a.1 ≠ b.1 := by
        have hobjs : (out.map fun o => obj' o.1) =
            (s.drive.children (obj dirid)).map Prod.fst := by
          refine List.forall₂_eq_eq_eq ▸ ?_
          rw [List.forall₂_map_left_iff, List.forall₂_map_right_iff]
          exact hout.imp fun o kid hkid => hkid.2.1
        have hnodup := Tree.nodup_children s.drive (obj dirid)
        rw [← hobjs] at hnodup
        have hsame : (sorted.map fun o => obj' o.1).Nodup :=
          (hperm.map fun o => obj' o.1).nodup_iff.mpr hnodup
        refine (List.pairwise_map.mp hsame).imp fun hab heq => hab ?_
        rw [heq]
      exact (hle.and hne).imp fun hab => Nat.lt_of_le_of_ne hab.1 hab.2
    by_cases hcookie : Reference.cookie held (obj dirid) startAfter s.drive = true
    · rw [if_pos hcookie]
      have hstart : startAfter = 0 ∨ ∃ o ∈ sorted, o.1 = startAfter := by
        rcases Bool.or_eq_true _ _ ▸ hcookie with hzero | hany
        · exact .inl (of_decide_eq_true hzero)
        · obtain ⟨kid, hkid, hheld⟩ := List.any_eq_true.mp hany
          have hrecord := (Tree.mem_children.mp hkid).1
          obtain ⟨hobj, n', hn', -⟩ :=
            h.node_of_held (of_decide_eq_true hheld) (Tree.content_of_record hrecord)
          obtain ⟨hobj', k, hk, -⟩ := hgrows startAfter n' hn'
          obtain ⟨o, ho, -, hokid, hpath⟩ :=
            exists_of_forall₂_right hkids (hkidsperm.mem_iff.mpr hkid)
          obtain ⟨m, hm, -⟩ := (h'.path _ _).mp hpath
          exact .inr ⟨o, ho, h'.inj _ _ _ _ hm hk (hokid.trans (hobj'.trans hobj).symm)⟩
      obtain ⟨hle, hdrop⟩ := startIndex_eq hsorted (fun o ho => (hknown o ho).2) hstart
      have hfilter : (sorted.map entry).filter (fun e => startAfter < e.fileid) =
          (sorted.filter fun o => startAfter < o.1).map entry := by
        rw [List.filter_map]
        rfl
      have hrest : (sorted.filter fun o => startAfter < o.1).length =
          sorted.length - RdpdrFs.startIndex sorted startAfter := by
        rw [← hdrop, List.length_drop]
      rw [Nat.min_eq_left hle]
      refine .of_ok (s := { s with cache := c' }) h' rfl (hids _) ⟨sorted.map entry, kids,
        hkidsperm, List.pairwise_map.mpr hsorted, ?_, ?_, ?_⟩
      · rw [List.forall₂_map_left_iff]
        refine hkids.imp fun o kid hkid => ?_
        obtain ⟨hentry, hobj, -⟩ := hkid
        refine ⟨by simp only [entry, hentry, entryOf], fileid_attr _ _ _ _, ?_,
          fun _ => congrArg some hobj⟩
        simp only [entry, hentry, entryOf]
        exact shows_attr rfl fun _ => rfl
      · rw [hfilter, hdrop, List.map_take]
      · rw [hfilter, List.length_map, List.length_map, List.length_take, List.length_drop, hrest]
        exact decide_eq_decide.mpr (by omega)
    · rw [if_neg hcookie]
      exact .of_refused (s := { s with cache := c' }) h' rfl (hids _)

/-! ## Calls that change a file -/

/-- New bytes for a known file, and the size that is known of it. -/
theorem put (h : Mirror s.cache s.drive held obj) {bytes : List UInt8}
    (hn : s.cache.idToNode.lookup id = some n) (hcontent : s.drive.content (obj id) =
      some (.file bytes)) (hfile : n.isDir = false) (bytes' : List UInt8) :
    Mirror (s.cache.setSize id bytes'.length) (s.drive.put (obj id) (.file bytes')) held obj := by
  have hnonzero : obj id ≠ 0 := by
    intro hzero
    rw [hzero] at hcontent
    cases hcontent
  have hroot : id ≠ rootId := fun heq => hnonzero (by rw [heq, h.rootObj])
  obtain ⟨r, hr, -⟩ := Tree.record_of_content hcontent hnonzero
  have hset : s.cache.setSize id bytes'.length =
      { s.cache with idToNode :=
          s.cache.idToNode.insert id { n with isDir := n.isDir, size := bytes'.length } } := by
    unfold FsCache.setSize
    rw [hn]
  rw [hset]
  have hr' : (s.drive.put (obj id) (.file bytes')).record (obj id) =
      some { r with content := .file bytes' } := by
    rw [Tree.record_put, if_pos rfl, hr, Option.map_some]
  refine h.update hn hroot hr hr' rfl rfl ?_ (Nat.le_of_eq (Tree.last_put ..).symm) hfile
    (fun _ => rfl)
  intro i hi
  rw [Tree.record_put, if_neg hi]

/-- A node whose size was set is known. -/
theorem isSome_setSize {c : FsCache} (hn : c.idToNode.lookup id = some n)
    (size : ℕ) : ((c.setSize id size).idToNode.lookup id).isSome := by
  unfold FsCache.setSize
  rw [hn]
  change ((c.idToNode.insert id { n with size := size }).lookup id).isSome = true
  rw [AList.lookup_insert]
  rfl

/-- Attributes are set. Only the size of a file is, which is below `2 ^ 63`. -/
theorem serve_setattr (h : Mirror s.cache s.drive held obj)
    (hid : held id = some i) (size : Option ℕ)
    (hsize : ∀ n found, size = some n → Reference.asFile held id s.drive = .ok found →
      n < 2 ^ 63) : Served held (s.setattr id size) (Reference.setattr held id size s.drive) := by
  unfold RdpdrFs.setattr Reference.setattr
  rw [hid]
  cases hcontent : s.drive.content i with
  | none =>
    rw [h.gone id i hid hcontent]
    simp only [hcontent]
    exact .of_error h rfl _ _
  | some c =>
    obtain ⟨hobj, n, hn, hkind, hnsize⟩ := h.node_of_held hid hcontent
    have hids : ∀ (isDir : Bool) (size j : ℕ), j ∈ (Reply.attr (s.attr id isDir size)).ids →
        j = id := by
      intro isDir size j hj
      rw [List.mem_singleton.mp hj, fileid_attr]
    have hself : ∀ j, j = id → (s.cache.idToNode.lookup j).isSome := by
      rintro j rfl
      rw [hn]
      rfl
    cases size with
    | none =>
      rw [hn]
      simp only [hcontent]
      refine .of_ok h rfl (fun j hj => hself j (hids _ _ j hj)) ⟨?_, shows_attr hkind hnsize⟩
      rw [fileid_attr]
      exact congrArg some hobj
    | some size =>
      cases c with
      | dir =>
        have hdir : n.isDir = true := hkind
        rw [hn]
        simp only [hcontent, hdir, if_true]
        exact .of_refused h rfl fun j hj => hself j (hids _ _ j hj)
      | file bytes =>
        have hfile : n.isDir = false := hkind
        have hlt : size < 2 ^ 63 := hsize size (i, bytes) rfl (by
          unfold Reference.asFile
          rw [hid]
          simp only [hcontent])
        rw [← hobj] at hcontent
        have hput := h.put hn hcontent hfile (Drive.resize bytes size)
        rw [Drive.length_resize] at hput
        rw [hn, ← hobj]
        simp only [hfile, Bool.false_eq_true, if_false, hcontent,
          RdpdrHandle.setLen_eq (h.find hn) hcontent hlt]
        refine .of_ok (s := ⟨s.createdSecs, s.cache.setSize id size, _⟩) hput rfl ?_ ⟨?_, ?_⟩
        · intro j hj
          rw [hids _ _ j hj]
          exact isSome_setSize hn size
        · rw [fileid_attr]
        · exact shows_attr rfl fun _ => (Drive.length_resize bytes size).symm

/-- Bytes are written; if there are none, the offset is not behind the end. -/
theorem serve_write (h : Mirror s.cache s.drive held obj)
    (hid : held id = some i) (offset : ℕ) (data : List UInt8)
    (hdata : ∀ j bytes, Reference.asFile held id s.drive = .ok (j, bytes) →
      data ≠ [] ∨ offset ≤ bytes.length) :
    Served held (s.write id offset data)
      (match Reference.asFile held id s.drive with
        | .error e => (.error e, s.drive)
        | .ok (i, bytes) =>
          (.ok (.attr i (.file (writeAt bytes offset data))),
            s.drive.put i (.file (writeAt bytes offset data)))) := by
  unfold RdpdrFs.write
  rcases h.file_cases hid with ⟨hasFile, hnone⟩ | ⟨hasFile, n, hn, hdir⟩ |
    ⟨bytes, hasFile, hcontent, n, hn, hfile, hsize⟩
  · rw [hnone, hasFile]
    exact .of_error h rfl _ _
  · rw [hn, hasFile]
    simp only [hdir, if_true]
    exact .of_error h rfl _ _
  · have hlength : max n.size (offset + data.length) = (writeAt bytes offset data).length := by
      rw [hsize]
      by_cases hempty : data = []
      · have hle : offset ≤ bytes.length :=
          (hdata _ _ hasFile).resolve_left fun hne => hne hempty
        rw [hempty, writeAt, if_pos rfl, List.length_nil]
        omega
      · exact (length_writeAt hempty).symm
    have hput := h.put hn hcontent hfile (writeAt bytes offset data)
    rw [hn, hasFile]
    simp only [hfile, Bool.false_eq_true, if_false, RdpdrHandle.writeFile_eq (h.find hn) hcontent,
      hlength]
    refine .of_ok (s := ⟨s.createdSecs, s.cache.setSize id _, _⟩) hput rfl ?_ ⟨?_, ?_⟩
    · intro j hj
      rw [List.mem_singleton.mp hj, fileid_attr]
      exact isSome_setSize hn _
    · rw [fileid_attr]
    · exact shows_attr rfl fun _ => rfl

/-! ## Calls that make an object -/

/-- A new child is interned. -/
theorem made (h : Mirror s.cache s.drive held obj) {m : Name}
    {c : Content UInt8} (hn : s.cache.idToNode.lookup dirid = some n)
    (hheld : (held dirid).isSome) (hfree : s.drive.child (obj dirid) m = none)
    (hempty : c.size = 0) :
    ∃ obj' id c', s.created dirid (joinRemote n.remotePath m.val) c.isDir
        (s.drive.add (obj dirid) m c hfree) =
          (id, ⟨s.createdSecs, c', s.drive.add (obj dirid) m c hfree⟩) ∧
      Mirror c' (s.drive.add (obj dirid) m c hfree) held obj' ∧
        obj' id = s.drive.last + 1 ∧ (c'.idToNode.lookup id).isSome := by
  have hgrown : Mirror s.cache (s.drive.add (obj dirid) m c hfree) held obj := by
    have hrecord : ∀ i, i ≤ s.drive.last →
        (s.drive.add (obj dirid) m c hfree).record i = s.drive.record i := by
      intro i hi
      rw [Tree.record_add, if_neg (by omega)]
    refine h.congr_tree (fun id k hk => hrecord _ (h.obj_le hk)) (fun id i hi => ?_)
      (Nat.le_succ _)
    rw [Tree.content, Tree.content, hrecord i (h.heldBound id i hi).2]
  have hr : (s.drive.add (obj dirid) m c hfree).record (s.drive.last + 1) =
      some ⟨obj dirid, m, c⟩ := by
    rw [Tree.record_add, if_pos rfl]
  obtain ⟨obj', id, c', hintern, h', -, hobj, hpath⟩ :=
    hgrown.intern hn hheld hr rfl rfl (fun _ => hempty.symm)
  refine ⟨obj', id, c', ?_, h', hobj, ?_⟩
  · unfold RdpdrFs.created
    rw [hintern]
  · obtain ⟨k, hk, -⟩ := (h'.path _ id).mp hpath
    rw [hk]
    rfl

/-- An object is made where its name is free. -/
theorem make_free {d : ℕ} {m : Name} {c : Content UInt8} {t : Drive} (hfree : t.child d m = none) :
    Reference.make d m c t = (.ok (t.last + 1), t.add d m c hfree) := by
  rw [Reference.make, Tree.create, dif_pos hfree]

/-- No object is made where its name is taken. -/
theorem make_taken {d j : ℕ} {m : Name} {c : Content UInt8} {t : Drive}
    (htaken : t.child d m = some j) : Reference.make d m c t = (.error .refused, t) := by
  rw [Reference.make, Tree.create, dif_neg (by rw [htaken]; exact Option.some_ne_none j)]

/-- A file is created, or an empty one opened; no size is set. -/
theorem serve_create (h : Mirror s.cache s.drive held obj)
    (hid : held dirid = some i) (m : Name) (size : Option ℕ)
    (hsize : ∀ d, Reference.asDir held dirid s.drive = .ok d →
      (s.drive.child d m = none → size.getD 0 = 0) ∧
        ∀ j bytes, s.drive.child d m = some j → s.drive.content j = some (.file bytes) →
          size.getD 0 = 0 ∧ bytes = []) :
    Served held (s.create dirid m.val)
      (match Reference.asDir held dirid s.drive with
        | .error e => (.error e, s.drive)
        | .ok d => Reference.create d m size s.drive) := by
  have hheld : (held dirid).isSome := by rw [hid]; rfl
  unfold RdpdrFs.create
  obtain ⟨e, f, hpath, hasDir⟩ | ⟨n, hpath, hasDir, hcontent, hn, hdir⟩ := h.dirPath_cases hid
  · simp only [hpath, hasDir]
    exact .of_error h rfl _ _
  · obtain ⟨hfreeSize, hfileSize⟩ := hsize _ hasDir
    simp only [hpath, hasDir]
    unfold Reference.create
    cases hchild : s.drive.child (obj dirid) m with
    | none =>
      have hfind : s.drive.find (joinRemote n.remotePath m.val) = none :=
        (h.find_child hn m).trans hchild
      have hlocate := h.locate_child hn m
      obtain ⟨obj', id, c', hmade, h', hobj, hknown⟩ :=
        h.made (c := .file []) hn hheld hchild rfl
      have hmade' : s.created dirid (joinRemote n.remotePath m.val) false
          (s.drive.add (obj dirid) m (.file []) hchild) = _ := hmade
      have hcreate : s.drive.create (obj dirid) m (.file []) =
          some (s.drive.add (obj dirid) m (.file []) hchild, s.drive.last + 1) := by
        rw [Tree.create, dif_pos hchild]
      have hresize : Drive.resize [] (size.getD 0) = [] := by
        rw [hfreeSize hchild]
        rfl
      simp only [RdpdrHandle.createFile_free false hfind hlocate hcontent hchild, hmade',
        hresize, hcreate]
      refine .of_ok (s := ⟨s.createdSecs, c', _⟩) h' rfl ?_ ⟨congrArg some hobj, ?_, ?_⟩
      · intro j hj
        rw [List.mem_singleton.mp hj]
        exact hknown
      · rw [fileid_attr]
      · exact shows_attr rfl fun _ => rfl
    | some j =>
      have hfind : s.drive.find (joinRemote n.remotePath m.val) = some j :=
        (h.find_child hn m).trans hchild
      obtain ⟨r, hr, hparent, hname⟩ := Tree.child_eq_some_iff.mp hchild
      have hj : s.drive.content j = some r.content := Tree.content_of_record hr
      cases hc : r.content with
      | dir =>
        rw [hc] at hj
        simp only [RdpdrHandle.createFile_dir hfind hj, hj]
        exact .of_error h rfl _ _
      | file bytes =>
        rw [hc] at hj
        obtain ⟨hzero, hbytes⟩ := hfileSize j bytes hchild hj
        have hset : Reference.setSize j bytes size s.drive = (.file [], s.drive) := by
          rw [hbytes]
          cases size with
          | none => rfl
          | some z =>
            have hz : z = 0 := hzero
            rw [hz]
            rfl
        have hkind : false = r.content.isDir := by rw [hc]; rfl
        have hlength : r.content.isDir = false → 0 = r.content.size := by
          rw [hc, hbytes]
          exact fun _ => rfl
        obtain ⟨obj', id, c', hintern, h', -, hobj, hpath⟩ :=
          h.intern hn hheld hr hparent hkind hlength
        rw [hname] at hintern hpath
        have hcreated : s.created dirid (joinRemote n.remotePath m.val) false s.drive =
            (id, ⟨s.createdSecs, c', s.drive⟩) := by
          unfold RdpdrFs.created
          rw [hintern]
        simp only [RdpdrHandle.createFile_found hfind hj, hcreated, hj, hset]
        refine .of_ok (s := ⟨s.createdSecs, c', _⟩) h' rfl ?_ ⟨congrArg some hobj, ?_, ?_⟩
        · intro j hj
          obtain ⟨k, hk, -⟩ := (h'.path _ id).mp hpath
          rw [List.mem_singleton.mp hj, hk]
          rfl
        · rw [fileid_attr]
        · exact shows_attr rfl fun _ => rfl

/-- A file that is not there is created. -/
theorem serve_createExclusive (h : Mirror s.cache s.drive held obj)
    (hid : held dirid = some i) (m : Name) :
    Served held (s.createExclusive dirid m.val)
      (match Reference.asDir held dirid s.drive with
        | .error e => (.error e, s.drive)
        | .ok d => ((Reference.make d m (.file []) s.drive).1.map .object,
            (Reference.make d m (.file []) s.drive).2)) := by
  have hheld : (held dirid).isSome := by rw [hid]; rfl
  unfold RdpdrFs.createExclusive
  obtain ⟨e, f, hpath, hasDir⟩ | ⟨n, hpath, hasDir, hcontent, hn, hdir⟩ := h.dirPath_cases hid
  · simp only [hpath, hasDir]
    exact .of_error h rfl _ _
  · simp only [hpath, hasDir]
    cases hchild : s.drive.child (obj dirid) m with
    | none =>
      have hfind : s.drive.find (joinRemote n.remotePath m.val) = none :=
        (h.find_child hn m).trans hchild
      obtain ⟨obj', id, c', hmade, h', hobj, hknown⟩ :=
        h.made (c := .file []) hn hheld hchild rfl
      have hmade' : s.created dirid (joinRemote n.remotePath m.val) false
          (s.drive.add (obj dirid) m (.file []) hchild) = _ := hmade
      simp only [RdpdrHandle.createFile_free true hfind (h.locate_child hn m) hcontent hchild,
        hmade', make_free hchild]
      refine .of_ok (s := ⟨s.createdSecs, c', _⟩) h' rfl ?_ (congrArg some hobj)
      intro j hj
      rw [List.mem_singleton.mp hj]
      exact hknown
    | some j =>
      have hfind : s.drive.find (joinRemote n.remotePath m.val) = some j :=
        (h.find_child hn m).trans hchild
      simp only [RdpdrHandle.createFile_exists hfind, make_taken hchild]
      exact .of_error h rfl _ _

/-- A directory is created. -/
theorem serve_mkdir (h : Mirror s.cache s.drive held obj) (hid : held dirid = some i) (m : Name) :
    Served held (s.mkdir dirid m.val)
      (match Reference.asDir held dirid s.drive with
        | .error e => (.error e, s.drive)
        | .ok d => ((Reference.make d m .dir s.drive).1.map fun i => .created i .dir,
            (Reference.make d m .dir s.drive).2)) := by
  have hheld : (held dirid).isSome := by rw [hid]; rfl
  unfold RdpdrFs.mkdir
  obtain ⟨e, f, hpath, hasDir⟩ | ⟨n, hpath, hasDir, hcontent, hn, hdir⟩ := h.dirPath_cases hid
  · simp only [hpath, hasDir]
    exact .of_error h rfl _ _
  · simp only [hpath, hasDir]
    cases hchild : s.drive.child (obj dirid) m with
    | none =>
      have hfind : s.drive.find (joinRemote n.remotePath m.val) = none :=
        (h.find_child hn m).trans hchild
      obtain ⟨obj', id, c', hmade, h', hobj, hknown⟩ := h.made (c := .dir) hn hheld hchild rfl
      have hmade' : s.created dirid (joinRemote n.remotePath m.val) true
          (s.drive.add (obj dirid) m .dir hchild) = _ := hmade
      simp only [RdpdrHandle.createDir_free hfind (h.locate_child hn m) hcontent hchild,
        hmade', make_free hchild]
      refine .of_ok (s := ⟨s.createdSecs, c', _⟩) h' rfl ?_ ⟨congrArg some hobj, ?_, ?_⟩
      · intro j hj
        rw [List.mem_singleton.mp hj]
        exact hknown
      · rw [fileid_attr]
      · exact shows_attr rfl nofun
    | some j =>
      have hfind : s.drive.find (joinRemote n.remotePath m.val) = some j :=
        (h.find_child hn m).trans hchild
      simp only [RdpdrHandle.createDir_exists hfind, make_taken hchild]
      exact .of_error h rfl _ _

/-! ## Calls that take an object away -/

/-- A file or an empty directory is removed, and its node forgotten. -/
theorem serve_remove (h : Mirror s.cache s.drive held obj) (hid : held dirid = some i) (m : Name) :
    Served held (s.remove dirid m.val)
      (match Reference.asDir held dirid s.drive with
        | .error e => (.error e, s.drive)
        | .ok d => Reference.remove d m s.drive) := by
  have hheld : (held dirid).isSome := by rw [hid]; rfl
  unfold RdpdrFs.remove
  obtain ⟨e, f, hpath, hasDir⟩ | ⟨n, hpath, hasDir, -, hn, hdir⟩ := h.dirPath_cases hid
  · simp only [hpath, hasDir]
    exact .of_error h rfl _ _
  · obtain ⟨obj', c', h', -, hresolve⟩ := h.resolve hn hdir hheld m
    simp only [hpath, hasDir]
    rcases hresolve with ⟨hchild, hnoent⟩ | ⟨id, k, hchild, hk, hkpath, hfound⟩
    · simp only [hnoent]
      unfold Reference.remove
      rw [hchild]
      exact .of_error (s := ⟨s.createdSecs, c', s.drive⟩) h' rfl _ _
    · simp only [hfound]
      obtain ⟨r, hr, -, -⟩ := Tree.child_eq_some_iff.mp hchild
      have hnonzero : obj' id ≠ 0 := Tree.ne_zero_of_record hr
      have hroot : id ≠ rootId := fun heq => hnonzero (by rw [heq, h'.rootObj])
      obtain ⟨c, hc, hkind, -⟩ := h'.shows hk
      have hfind := h'.find hk
      rw [hkpath] at hfind
      have hremove := RdpdrHandle.remove_eq hfind hc
      rw [← hkind, Drive.setDisposition, if_neg hnonzero] at hremove
      unfold Reference.remove
      rw [hchild]
      by_cases hkids : s.drive.children (obj' id) = []
      · rw [if_pos hkids] at hremove
        have hforgot : Mirror (c'.forget id) (s.drive.drop (obj' id)) held obj' := by
          refine h'.forget hk hroot (fun j l hl _ heq => ?_) (fun i hi => ?_) (Nat.le_refl _)
            fun _ => by rw [Tree.record_drop, if_pos rfl]
          · have hj : j ≠ rootId := by
              rintro rfl
              obtain ⟨size, hsize⟩ := h'.root
              rw [hsize] at hl
              cases hl
              exact hroot heq.symm
            obtain ⟨r', dir, ha⟩ := h'.anchored j l hl hj
            have hmem : (obj' j, r') ∈ s.drive.children (obj' id) :=
              Tree.mem_children.mpr ⟨ha.record, by rw [← heq]; exact ha.parent.symm⟩
            rw [hkids] at hmem
            cases hmem
          · rw [Tree.record_drop, if_neg hi]
        simp only [hremove, hkids, if_true]
        exact .of_ok (s := ⟨s.createdSecs, c'.forget id, _⟩) hforgot rfl
          (fun _ hmem => absurd hmem List.not_mem_nil) trivial
      · rw [if_neg hkids] at hremove
        simp only [hremove, hkids, if_false]
        exact .of_error (s := ⟨s.createdSecs, c', s.drive⟩) h' rfl _ _

end Mirror

end Macrdp.NfsSurface
