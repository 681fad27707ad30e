import Macrdp.NfsReference

/-!
# What the surface knows mirrors the tree

Every known node stands for an object of the tree: it has its kind and size, hangs below the
known node of its directory, and its path leads there. Every returned id of an object that is
still there is known, and none of an object that is gone.
-/

namespace Macrdp.NfsSurface

open FileTree RedirectedDrive

/-- A node other than the root stands for an object: it hangs below the node of the object's
directory, of which an id was returned. -/
structure Anchored (c : FsCache) (t : Drive) (held : ℕ → Option ℕ) (obj : ℕ → ℕ) (id : ℕ) (n : Node)
    (r : Record Name UInt8) (dir : Node) : Prop where
  record : t.record (obj id) = some r
  isDir : n.isDir = r.content.isDir
  size : r.content.isDir = false → n.size = r.content.size
  parent : obj n.parent = r.parent
  held : (held n.parent).isSome
  known : c.idToNode.lookup n.parent = some dir
  path : n.remotePath = joinRemote dir.remotePath r.name.val

/-- What is known mirrors the tree; `obj` gives the objects that the known nodes stand for, and
`held` those that the returned ids stand for. -/
structure Mirror (c : FsCache) (t : Drive) (held : ℕ → Option ℕ) (obj : ℕ → ℕ) : Prop where
  root : ∃ size, c.idToNode.lookup rootId = some ⟨"\\", true, size, rootId⟩
  rootObj : obj rootId = 0
  anchored : ∀ id n, c.idToNode.lookup id = some n → id ≠ rootId →
    ∃ r dir, Anchored c t held obj id n r dir
  path : ∀ path id, c.pathToId.lookup path = some id ↔
    ∃ n, c.idToNode.lookup id = some n ∧ n.remotePath = path
  inj : ∀ id j n m, c.idToNode.lookup id = some n → c.idToNode.lookup j = some m →
    obj id = obj j → id = j
  bound : ∀ id n, c.idToNode.lookup id = some n → id < c.nextId
  /-- No object has the id 0, which is the cookie of the start. -/
  zero : c.idToNode.lookup 0 = none
  heldBound : ∀ id i, held id = some i → id < c.nextId ∧ i ≤ t.last
  heldRoot : held rootId = some 0
  alive : ∀ id i, held id = some i → (t.content i).isSome →
    obj id = i ∧ (c.idToNode.lookup id).isSome
  gone : ∀ id i, held id = some i → t.content i = none → c.idToNode.lookup id = none

namespace Mirror

variable {c : FsCache} {t : Drive} {held : ℕ → Option ℕ} {obj : ℕ → ℕ}
variable {id : ℕ} {n : Node}

/-- Two known nodes with one path are one. -/
theorem path_inj (h : Mirror c t held obj) {j : ℕ} {m : Node}
    (hn : c.idToNode.lookup id = some n) (hm : c.idToNode.lookup j = some m)
    (heq : n.remotePath = m.remotePath) : id = j := by
  have hid := (h.path m.remotePath id).mpr ⟨n, hn, heq⟩
  have hj := (h.path m.remotePath j).mpr ⟨m, hm, rfl⟩
  exact Option.some.inj (hid.symm.trans hj)

/-- The path of a known node leads to the object that it stands for. -/
theorem located (h : Mirror c t held obj) (hn : c.idToNode.lookup id = some n) :
    ∃ p, n.remotePath = render p ∧ t.walk 0 p = some (obj id) := by
  induction hlen : n.remotePath.toList.length using Nat.strong_induction_on generalizing id n with
  | h len ih =>
    by_cases hroot : id = rootId
    · obtain ⟨size, hsize⟩ := h.root
      rw [hroot, hsize] at hn
      cases hn
      refine ⟨[], rfl, ?_⟩
      rw [hroot, h.rootObj]
      rfl
    · obtain ⟨r, dir, ha⟩ := h.anchored id n hn hroot
      have hshort : dir.remotePath.toList.length < len := by
        have hlt := length_lt_joinRemote dir.remotePath r.name
        rw [← ha.path, hlen] at hlt
        exact hlt
      obtain ⟨p, hp, hwalk⟩ := ih _ hshort ha.known rfl
      refine ⟨p ++ [r.name], ?_, ?_⟩
      · rw [ha.path, hp, render_append]
      · rw [Tree.walk_append, hwalk, Option.bind_some]
        exact Tree.child_eq_some_iff.mpr ⟨r, ha.record, ha.parent.symm, rfl⟩

/-- The drive finds the object of a known node at its path. -/
theorem find (h : Mirror c t held obj) (hn : c.idToNode.lookup id = some n) :
    Drive.find n.remotePath t = some (obj id) := by
  obtain ⟨p, hp, hwalk⟩ := h.located hn
  rw [hp, Drive.find_render, hwalk]

/-- The drive finds a child of a known node at the joined path. -/
theorem find_child (h : Mirror c t held obj) (hn : c.idToNode.lookup id = some n) (m : Name) :
    Drive.find (joinRemote n.remotePath m.val) t = t.child (obj id) m := by
  obtain ⟨p, hp, hwalk⟩ := h.located hn
  rw [hp, Drive.find_join, hwalk, Option.bind_some]

/-- The joined path names the object of a known node and the child. -/
theorem locate_child (h : Mirror c t held obj) (hn : c.idToNode.lookup id = some n) (m : Name) :
    Drive.locate (joinRemote n.remotePath m.val) t = some (obj id, m) := by
  obtain ⟨p, hp, hwalk⟩ := h.located hn
  rw [hp, Drive.locate_join, hwalk, Option.map_some]

/-- A known node has the kind and the size of its object. -/
theorem shows (h : Mirror c t held obj) (hn : c.idToNode.lookup id = some n) :
    ∃ content, t.content (obj id) = some content ∧ n.isDir = content.isDir ∧
      (content.isDir = false → n.size = content.size) := by
  by_cases hroot : id = rootId
  · obtain ⟨size, hsize⟩ := h.root
    rw [hroot, hsize] at hn
    cases hn
    refine ⟨.dir, ?_, rfl, nofun⟩
    rw [hroot, h.rootObj]
    rfl
  · obtain ⟨r, dir, ha⟩ := h.anchored id n hn hroot
    exact ⟨r.content, Tree.content_of_record ha.record, ha.isDir, ha.size⟩

/-- A known path of a child stands for that child. -/
theorem child_of_path (h : Mirror c t held obj) {dirid : ℕ} {m : Name}
    (hn : c.idToNode.lookup dirid = some n)
    (hpath : c.pathToId.lookup (joinRemote n.remotePath m.val) = some id) :
    t.child (obj dirid) m = some (obj id) ∧ id ≠ rootId ∧
      ∃ k, c.idToNode.lookup id = some k ∧ k.parent = dirid := by
  obtain ⟨k, hk, hkpath⟩ := (h.path _ _).mp hpath
  have hroot : id ≠ rootId := by
    rintro rfl
    obtain ⟨size, hsize⟩ := h.root
    rw [hsize] at hk
    cases hk
    exact joinRemote_ne_root _ m hkpath.symm
  have hfind := h.find hk
  rw [hkpath, h.find_child hn m] at hfind
  refine ⟨hfind, hroot, k, hk, ?_⟩
  obtain ⟨r, dir, ha⟩ := h.anchored id k hk hroot
  obtain ⟨s, hs, hsparent, -⟩ := Tree.child_eq_some_iff.mp hfind
  rw [ha.record] at hs
  cases hs
  exact h.inj _ _ _ _ ha.known hn (ha.parent.trans hsparent)

/-- A returned id of an object that is there is known, and stands for it. -/
theorem node_of_held (h : Mirror c t held obj) {i : ℕ} {content : Content UInt8}
    (hheld : held id = some i) (hcontent : t.content i = some content) :
    obj id = i ∧ ∃ n, c.idToNode.lookup id = some n ∧ n.isDir = content.isDir ∧
      (content.isDir = false → n.size = content.size) := by
  obtain ⟨hobj, hknown⟩ := h.alive id i hheld (by rw [hcontent]; rfl)
  obtain ⟨n, hn⟩ := Option.isSome_iff_exists.mp hknown
  obtain ⟨own, hown, hkind, hsize⟩ := h.shows hn
  rw [hobj, hcontent] at hown
  cases hown
  exact ⟨hobj, n, hn, hkind, hsize⟩

/-- The object of a known node is there. -/
theorem obj_le (h : Mirror c t held obj)
    (hn : c.idToNode.lookup id = some n) : obj id ≤ t.last := by
  by_cases hroot : id = rootId
  · rw [hroot, h.rootObj]
    exact Nat.zero_le _
  · obtain ⟨r, dir, ha⟩ := h.anchored id n hn hroot
    exact t.bounded _ _ ha.record

/-- Only its own id stands for the object of a known node. -/
theorem held_eq (h : Mirror c t held obj) {j : ℕ}
    (hn : c.idToNode.lookup id = some n) (hheld : held j = some (obj id)) : j = id := by
  obtain ⟨content, hcontent, -⟩ := h.shows hn
  obtain ⟨hobj, m, hm, -⟩ := h.node_of_held hheld hcontent
  exact h.inj _ _ _ _ hm hn hobj

/-- A returned id that is known stands for the object of its node. -/
theorem held_obj (h : Mirror c t held obj) {i : ℕ}
    (hn : c.idToNode.lookup id = some n) (hheld : held id = some i) : i = obj id := by
  cases hcontent : t.content i with
  | none =>
    rw [h.gone id i hheld hcontent] at hn
    cases hn
  | some content => exact (h.node_of_held hheld hcontent).1.symm

/-- Only the records of the known objects matter, and whether the held ones are there. -/
theorem congr_tree (h : Mirror c t held obj) {t' : Drive}
    (hrecord : ∀ id n, c.idToNode.lookup id = some n → t'.record (obj id) = t.record (obj id))
    (hcontent : ∀ id i, held id = some i → (t'.content i).isSome = (t.content i).isSome)
    (hlast : t.last ≤ t'.last) : Mirror c t' held obj where
  __ := h
  anchored := fun id n hn hroot => by
    obtain ⟨r, dir, ha⟩ := h.anchored id n hn hroot
    have hr := (hrecord id n hn).trans ha.record
    exact ⟨r, dir, hr, ha.isDir, ha.size, ha.parent, ha.held, ha.known, ha.path⟩
  heldBound := fun id i hi =>
    ⟨(h.heldBound id i hi).1, Nat.le_trans (h.heldBound id i hi).2 hlast⟩
  alive := fun id i hi hsome => h.alive id i hi (by rw [← hcontent id i hi]; exact hsome)
  gone := fun id i hi hnone => by
    have hsame := hcontent id i hi
    rw [hnone] at hsame
    exact h.gone id i hi (Option.not_isSome_iff_eq_none.mp (by rw [← hsame]; exact Bool.false_ne_true))

/-- A node that was not known comes in for an object that no known node stands for. -/
theorem insert (h : Mirror c t held obj) {c' : FsCache} {i : ℕ} {dir : Node} {r : Record Name UInt8}
    (hid : ∀ k, c'.idToNode.lookup k = if k = id then some n else c.idToNode.lookup k)
    (hpath : ∀ s, c'.pathToId.lookup s = if s = n.remotePath then some id else c.pathToId.lookup s)
    (hnext : c.nextId ≤ c'.nextId) (hlt : id < c'.nextId) (hpos : id ≠ 0) (hnew : c.idToNode.lookup id = none)
    (hfree : c.pathToId.lookup n.remotePath = none) (hheld : held id = none)
    (hobj : ∀ k m, c.idToNode.lookup k = some m → obj k ≠ i) (hr : t.record i = some r)
    (hkind : n.isDir = r.content.isDir) (hsize : r.content.isDir = false → n.size = r.content.size)
    (hdir : c.idToNode.lookup n.parent = some dir) (hparent : obj n.parent = r.parent)
    (hdirheld : (held n.parent).isSome)
    (hnpath : n.remotePath = joinRemote dir.remotePath r.name.val) :
    Mirror c' t held fun k => if k = id then i else obj k := by
  have hold : ∀ {k m}, c.idToNode.lookup k = some m → k ≠ id := by
    rintro k m hm rfl
    rw [hnew] at hm
    cases hm
  have hkeep : ∀ {k m}, c.idToNode.lookup k = some m → c'.idToNode.lookup k = some m := by
    intro k m hm
    rw [hid, if_neg (hold hm)]
    exact hm
  obtain ⟨size, hrootnode⟩ := h.root
  have hroot : rootId ≠ id := hold hrootnode
  refine ⟨⟨size, hkeep hrootnode⟩, ?_, ?_, ?_, ?_, ?_, ?_, ?_, h.heldRoot, ?_, ?_⟩
  · rw [if_neg hroot]
    exact h.rootObj
  · intro k m hm hk
    rw [hid] at hm
    by_cases hkid : k = id
    · rw [if_pos hkid] at hm
      cases hm
      refine ⟨r, dir, ?_, hkind, hsize, ?_, hdirheld, hkeep hdir, hnpath⟩
      · rw [if_pos hkid]
        exact hr
      · rw [if_neg (hold hdir)]
        exact hparent
    · rw [if_neg hkid] at hm
      obtain ⟨s, above, ha⟩ := h.anchored k m hm hk
      refine ⟨s, above, ?_, ha.isDir, ha.size, ?_, ha.held, hkeep ha.known, ha.path⟩
      · rw [if_neg hkid]
        exact ha.record
      · rw [if_neg (hold ha.known)]
        exact ha.parent
  · intro s k
    rw [hpath]
    by_cases hs : s = n.remotePath
    · rw [if_pos hs]
      constructor
      · intro heq
        cases heq
        exact ⟨n, by rw [hid, if_pos rfl], hs.symm⟩
      · rintro ⟨m, hm, hmpath⟩
        rw [hid] at hm
        by_cases hkid : k = id
        · rw [hkid]
        · rw [if_neg hkid] at hm
          rw [(h.path n.remotePath k).mpr ⟨m, hm, hmpath.trans hs⟩] at hfree
          cases hfree
    · rw [if_neg hs, h.path]
      refine exists_congr fun m => ?_
      rw [hid]
      by_cases hkid : k = id
      · rw [if_pos hkid, hkid, hnew]
        constructor
        · rintro ⟨hm, -⟩
          cases hm
        · rintro ⟨hm, hmpath⟩
          cases hm
          exact absurd hmpath.symm hs
      · rw [if_neg hkid]
  · intro k j m o hm ho heq
    rw [hid] at hm ho
    by_cases hk : k = id
    · by_cases hj : j = id
      · exact hk.trans hj.symm
      · rw [if_neg hj] at ho
        rw [if_pos hk, if_neg hj] at heq
        exact absurd heq.symm (hobj j o ho)
    · rw [if_neg hk] at hm
      by_cases hj : j = id
      · rw [if_neg hk, if_pos hj] at heq
        exact absurd heq (hobj k m hm)
      · rw [if_neg hj] at ho
        rw [if_neg hk, if_neg hj] at heq
        exact h.inj k j m o hm ho heq
  · intro k m hm
    rw [hid] at hm
    by_cases hk : k = id
    · rw [hk]
      exact hlt
    · rw [if_neg hk] at hm
      exact Nat.lt_of_lt_of_le (h.bound k m hm) hnext
  · rw [hid, if_neg hpos.symm]
    exact h.zero
  · intro k x hx
    exact ⟨Nat.lt_of_lt_of_le (h.heldBound k x hx).1 hnext, (h.heldBound k x hx).2⟩
  · intro k x hx hsome
    obtain ⟨hkx, hknown⟩ := h.alive k x hx hsome
    obtain ⟨m, hm⟩ := Option.isSome_iff_exists.mp hknown
    refine ⟨by rw [if_neg (hold hm)]; exact hkx, ?_⟩
    rw [hkeep hm]
    rfl
  · intro k x hx hnone
    have hk : k ≠ id := by
      rintro rfl
      rw [hheld] at hx
      cases hx
    rw [hid, if_neg hk]
    exact h.gone k x hx hnone

/-- The kind and size of a node follow the content of its object. -/
theorem update (h : Mirror c t held obj) {t' : Drive}
    {r r' : Record Name UInt8} (hn : c.idToNode.lookup id = some n) (hroot : id ≠ rootId)
    (hr : t.record (obj id) = some r) (hr' : t'.record (obj id) = some r')
    (hparent : r'.parent = r.parent) (hname : r'.name = r.name)
    (hsame : ∀ i, i ≠ obj id → t'.record i = t.record i) (hlast : t.last ≤ t'.last) {isDir : Bool}
    {size : ℕ} (hkind : isDir = r'.content.isDir)
    (hsize : r'.content.isDir = false → size = r'.content.size) :
    Mirror { c with idToNode := c.idToNode.insert id { n with isDir := isDir, size := size } } t'
      held obj := by
  have hid : ∀ k, (c.idToNode.insert id { n with isDir := isDir, size := size }).lookup k =
      if k = id then some { n with isDir := isDir, size := size } else c.idToNode.lookup k := by
    intro k
    split
    · next hk => rw [hk, AList.lookup_insert]
    · next hk => exact AList.lookup_insert_ne hk
  have hsome : ∀ i, (t'.content i).isSome = (t.content i).isSome := by
    intro i
    by_cases hi : i = obj id
    · rw [hi, Tree.content_of_record hr, Tree.content_of_record hr']
      rfl
    · rw [Tree.content, Tree.content, hsame i hi]
  have hobj : ∀ k m, c.idToNode.lookup k = some m → k ≠ id → obj k ≠ obj id := by
    intro k m hm hk heq
    exact hk (h.inj k id m n hm hn heq)
  have hnode : ∀ k m, c.idToNode.lookup k = some m → ∃ m',
      (c.idToNode.insert id { n with isDir := isDir, size := size }).lookup k = some m' ∧
        m'.remotePath = m.remotePath := by
    intro k m hm
    rw [hid]
    split
    · next hk =>
      rw [hk, hn] at hm
      cases hm
      exact ⟨_, rfl, rfl⟩
    · exact ⟨m, hm, rfl⟩
  have hback : ∀ k m, (c.idToNode.insert id { n with isDir := isDir, size := size }).lookup k =
      some m → ∃ m', c.idToNode.lookup k = some m' ∧ m'.remotePath = m.remotePath := by
    intro k m hm
    rw [hid] at hm
    split at hm
    · next hk =>
      cases hm
      rw [hk]
      exact ⟨n, hn, rfl⟩
    · exact ⟨m, hm, rfl⟩
  obtain ⟨rootSize, hrootnode⟩ := h.root
  refine ⟨⟨rootSize, ?_⟩, h.rootObj, ?_, ?_, ?_, ?_, ?_, ?_, h.heldRoot, ?_, ?_⟩
  · change (c.idToNode.insert id _).lookup rootId = _
    rw [hid, if_neg hroot.symm]
    exact hrootnode
  · intro k m hm hk
    change (c.idToNode.insert id _).lookup k = some m at hm
    rw [hid] at hm
    by_cases hkid : k = id
    · rw [if_pos hkid] at hm
      cases hm
      obtain ⟨s, dir, ha⟩ := h.anchored id n hn hroot
      have hs : r = s := Option.some.inj (hr.symm.trans ha.record)
      obtain ⟨dir', hdir', hdirpath⟩ := hnode _ _ ha.known
      refine ⟨r', dir', by rw [hkid]; exact hr', hkind, hsize, ?_, ha.held, hdir', ?_⟩
      · rw [hparent, hs]
        exact ha.parent
      · rw [hdirpath, hname, hs]
        exact ha.path
    · rw [if_neg hkid] at hm
      obtain ⟨s, dir, ha⟩ := h.anchored k m hm hk
      obtain ⟨dir', hdir', hdirpath⟩ := hnode _ _ ha.known
      refine ⟨s, dir', ?_, ha.isDir, ha.size, ha.parent, ha.held, hdir', ?_⟩
      · rw [hsame _ (hobj k m hm hkid)]
        exact ha.record
      · rw [hdirpath]
        exact ha.path
  · intro s k
    refine (h.path s k).trans ⟨?_, ?_⟩
    · rintro ⟨m, hm, hmpath⟩
      obtain ⟨m', hm', hpath'⟩ := hnode k m hm
      exact ⟨m', hm', hpath'.trans hmpath⟩
    · rintro ⟨m, hm, hmpath⟩
      obtain ⟨m', hm', hpath'⟩ := hback k m hm
      exact ⟨m', hm', hpath'.trans hmpath⟩
  · intro k j m o hm ho heq
    obtain ⟨m', hm', -⟩ := hback k m hm
    obtain ⟨o', ho', -⟩ := hback j o ho
    exact h.inj k j m' o' hm' ho' heq
  · intro k m hm
    obtain ⟨m', hm', -⟩ := hback k m hm
    exact h.bound k m' hm'
  · change (c.idToNode.insert id _).lookup 0 = none
    rw [hid, if_neg]
    · exact h.zero
    · rintro rfl
      rw [h.zero] at hn
      cases hn
  · intro k x hx
    exact ⟨(h.heldBound k x hx).1, Nat.le_trans (h.heldBound k x hx).2 hlast⟩
  · intro k x hx hx'
    rw [hsome] at hx'
    obtain ⟨hkx, hknown⟩ := h.alive k x hx hx'
    obtain ⟨m, hm⟩ := Option.isSome_iff_exists.mp hknown
    obtain ⟨m', hm', -⟩ := hnode k m hm
    refine ⟨hkx, ?_⟩
    change ((c.idToNode.insert id _).lookup k).isSome = true
    rw [hm']
    rfl
  · intro k x hx hnone
    have hnone' : t.content x = none := by
      have hsame' := hsome x
      rw [hnone] at hsame'
      exact Option.not_isSome_iff_eq_none.mp (by rw [← hsame']; exact Bool.false_ne_true)
    have hk := h.gone k x hx hnone'
    change (c.idToNode.insert id _).lookup k = none
    rw [hid, if_neg]
    · exact hk
    · rintro rfl
      rw [hn] at hk
      cases hk

/-- A node without known children is forgotten, together with its object if its id is held. -/
theorem forget (h : Mirror c t held obj) {t' : Drive}
    (hn : c.idToNode.lookup id = some n) (hroot : id ≠ rootId)
    (hkids : ∀ k m, c.idToNode.lookup k = some m → k ≠ id → m.parent ≠ id)
    (hsame : ∀ i, i ≠ obj id → t'.record i = t.record i) (hlast : t.last ≤ t'.last)
    (hgone : (held id).isSome → t'.record (obj id) = none) : Mirror (c.forget id) t' held obj := by
  have hid := FsCache.lookup_forget hn
  have hpath := FsCache.path_forget hn
  have hnext := FsCache.nextId_forget c id
  have hkeep : ∀ {k m}, c.idToNode.lookup k = some m → k ≠ id →
      (c.forget id).idToNode.lookup k = some m := by
    intro k m hm hk
    rw [hid, if_neg hk]
    exact hm
  have hback : ∀ {k m}, (c.forget id).idToNode.lookup k = some m →
      c.idToNode.lookup k = some m ∧ k ≠ id := by
    intro k m hm
    rw [hid] at hm
    split at hm
    · cases hm
    · next hk => exact ⟨hm, hk⟩
  have hother : ∀ {k m}, c.idToNode.lookup k = some m → k ≠ id → obj k ≠ obj id := by
    intro k m hm hk heq
    exact hk (h.inj k id m n hm hn heq)
  obtain ⟨own, -, hrecord⟩ : ∃ dir, c.idToNode.lookup n.parent = some dir ∧
      (t.record (obj id)).isSome := by
    obtain ⟨r, dir, ha⟩ := h.anchored id n hn hroot
    exact ⟨dir, ha.known, by rw [ha.record]; rfl⟩
  have hnonzero : obj id ≠ 0 := by
    obtain ⟨r, hr⟩ := Option.isSome_iff_exists.mp hrecord
    exact Tree.ne_zero_of_record hr
  have hcontent : ∀ i, i ≠ obj id → t'.content i = t.content i := by
    intro i hi
    rw [Tree.content, Tree.content, hsame i hi]
  have hthere : (t.content (obj id)).isSome := by
    rw [Tree.content, if_neg hnonzero, Option.isSome_map]
    exact hrecord
  obtain ⟨rootSize, hrootnode⟩ := h.root
  refine ⟨⟨rootSize, hkeep hrootnode hroot.symm⟩, h.rootObj, ?_, ?_, ?_, ?_, ?_, ?_, h.heldRoot,
    ?_, ?_⟩
  · intro k m hm hk
    obtain ⟨hm, hkid⟩ := hback hm
    obtain ⟨r, dir, ha⟩ := h.anchored k m hm hk
    refine ⟨r, dir, ?_, ha.isDir, ha.size, ha.parent, ha.held,
      hkeep ha.known (hkids k m hm hkid), ha.path⟩
    rw [hsame _ (hother hm hkid)]
    exact ha.record
  · intro s k
    rw [hpath]
    by_cases hs : s = n.remotePath
    · rw [if_pos hs]
      constructor
      · intro heq
        cases heq
      · rintro ⟨m, hm, hmpath⟩
        obtain ⟨hm, hk⟩ := hback hm
        exact absurd (h.path_inj hm hn (hmpath.trans hs)) hk
    · rw [if_neg hs, h.path]
      refine ⟨?_, ?_⟩
      · rintro ⟨m, hm, hmpath⟩
        refine ⟨m, hkeep hm ?_, hmpath⟩
        rintro rfl
        rw [hn] at hm
        cases hm
        exact hs hmpath.symm
      · rintro ⟨m, hm, hmpath⟩
        exact ⟨m, (hback hm).1, hmpath⟩
  · intro k j m o hm ho heq
    exact h.inj k j m o (hback hm).1 (hback ho).1 heq
  · intro k m hm
    rw [hnext]
    exact h.bound k m (hback hm).1
  · rw [hid]
    split
    · rfl
    · exact h.zero
  · intro k x hx
    rw [hnext]
    exact ⟨(h.heldBound k x hx).1, Nat.le_trans (h.heldBound k x hx).2 hlast⟩
  · intro k x hx hsome
    by_cases hxid : x = obj id
    · -- Only its own id stands for the object, and then the object is gone.
      have hk : k = id := h.held_eq hn (by rw [hx, hxid])
      have hnone := hgone (by rw [← hk, hx]; rfl)
      rw [hxid, Tree.content, if_neg hnonzero, hnone] at hsome
      cases hsome
    · rw [hcontent x hxid] at hsome
      obtain ⟨hkx, hknown⟩ := h.alive k x hx hsome
      obtain ⟨m, hm⟩ := Option.isSome_iff_exists.mp hknown
      refine ⟨hkx, ?_⟩
      rw [hkeep hm (fun hk => hxid (by rw [← hkx, hk]))]
      rfl
  · intro k x hx hnone
    rw [hid]
    split
    · rfl
    · next hk =>
      by_cases hxid : x = obj id
      · exact absurd (h.held_eq hn (by rw [hx, hxid])) hk
      · rw [hcontent x hxid] at hnone
        exact h.gone k x hx hnone

/-- A returned id comes in for the object of a known node. -/
theorem hold (h : Mirror c t held obj) (hn : c.idToNode.lookup id = some n) :
    Mirror c t (fun k => if k = id then some (obj id) else held k) obj where
  __ := h
  anchored := fun k m hm hk => by
    obtain ⟨r, dir, ha⟩ := h.anchored k m hm hk
    refine ⟨r, dir, ha.record, ha.isDir, ha.size, ha.parent, ?_, ha.known, ha.path⟩
    split
    · rfl
    · exact ha.held
  heldBound := fun k x hx => by
    change (if k = id then some (obj id) else held k) = some x at hx
    split at hx
    · next hk =>
      cases hx
      rw [hk]
      exact ⟨h.bound id n hn, h.obj_le hn⟩
    · exact h.heldBound k x hx
  heldRoot := by
    split
    · next hid =>
      rw [← hid, h.rootObj]
    · exact h.heldRoot
  alive := fun k x hx hsome => by
    change (if k = id then some (obj id) else held k) = some x at hx
    split at hx
    · next hk =>
      cases hx
      rw [hk, hn]
      exact ⟨rfl, rfl⟩
    · exact h.alive k x hx hsome
  gone := fun k x hx hnone => by
    change (if k = id then some (obj id) else held k) = some x at hx
    split at hx
    · next hk =>
      cases hx
      obtain ⟨content, hcontent, -⟩ := h.shows hn
      rw [hcontent] at hnone
      cases hnone
    · exact h.gone k x hx hnone

end Mirror

/-- Known nodes stay, with their paths and objects. -/
def Grows (c c' : FsCache) (obj obj' : ℕ → ℕ) : Prop :=
  ∀ id n, c.idToNode.lookup id = some n →
    obj' id = obj id ∧ ∃ n', c'.idToNode.lookup id = some n' ∧ n'.remotePath = n.remotePath

/-- Nothing happened. -/
theorem Grows.refl (c : FsCache) (obj : ℕ → ℕ) : Grows c c obj obj :=
  fun _ n hn => ⟨rfl, n, hn, rfl⟩

/-- One after the other. -/
theorem Grows.trans {c c' c'' : FsCache} {obj obj' obj'' : ℕ → ℕ} (h : Grows c c' obj obj')
    (h' : Grows c' c'' obj' obj'') : Grows c c'' obj obj'' := by
  intro id n hn
  obtain ⟨hobj, n', hn', hpath⟩ := h id n hn
  obtain ⟨hobj', n'', hn'', hpath'⟩ := h' id n' hn'
  exact ⟨hobj'.trans hobj, n'', hn'', hpath'.trans hpath⟩

namespace Mirror

variable {c : FsCache} {t : Drive} {held : ℕ → Option ℕ} {obj : ℕ → ℕ}

/-- Interning a child makes its path known. -/
theorem intern (h : Mirror c t held obj) {dirid i : ℕ} {n : Node} {r : Record Name UInt8}
    (hn : c.idToNode.lookup dirid = some n) (hheld : (held dirid).isSome)
    (hr : t.record i = some r) (hparent : r.parent = obj dirid) {isDir : Bool} {size : ℕ}
    (hkind : isDir = r.content.isDir) (hsize : r.content.isDir = false → size = r.content.size) :
    ∃ obj' id c', c.intern dirid (joinRemote n.remotePath r.name.val) isDir size = (id, c') ∧
      Mirror c' t held obj' ∧ Grows c c' obj obj' ∧ obj' id = i ∧
        c'.pathToId.lookup (joinRemote n.remotePath r.name.val) = some id := by
  have hchild : t.child (obj dirid) r.name = some i :=
    Tree.child_eq_some_iff.mpr ⟨r, hr, hparent, rfl⟩
  cases hpath : c.pathToId.lookup (joinRemote n.remotePath r.name.val) with
  | some id =>
    obtain ⟨hchild', hroot, k, hk, -⟩ := h.child_of_path hn hpath
    have hi : obj id = i := Option.some.inj (hchild'.symm.trans hchild)
    refine ⟨obj, id, { c with
      idToNode := c.idToNode.insert id { k with isDir := isDir, size := size } }, ?_, ?_, ?_, hi,
      hpath⟩
    · unfold FsCache.intern
      rw [hpath]
      simp only [hk]
    · rw [← hi] at hr
      exact h.update hk hroot hr hr rfl rfl (fun _ _ => rfl) (Nat.le_refl _) hkind hsize
    · intro j m hm
      refine ⟨rfl, ?_⟩
      by_cases hj : j = id
      · rw [hj, hk] at hm
        cases hm
        refine ⟨{ k with isDir := isDir, size := size }, ?_, rfl⟩
        rw [hj]
        exact AList.lookup_insert _
      · exact ⟨m, (AList.lookup_insert_ne hj).trans hm, rfl⟩
  | none =>
    have hnew : c.idToNode.lookup c.nextId = none := by
      cases hk : c.idToNode.lookup c.nextId with
      | none => rfl
      | some k => exact absurd (h.bound _ k hk) (Nat.lt_irrefl _)
    have hpos : c.nextId ≠ 0 := by
      obtain ⟨rootSize, hrootnode⟩ := h.root
      have hlt := h.bound _ _ hrootnode
      omega
    have hunheld : held c.nextId = none := by
      cases hk : held c.nextId with
      | none => rfl
      | some x => exact absurd (h.heldBound _ x hk).1 (Nat.lt_irrefl _)
    have hobj : ∀ k m, c.idToNode.lookup k = some m → obj k ≠ i := by
      rintro k m hm rfl
      have hroot : k ≠ rootId := by
        rintro rfl
        rw [h.rootObj, Tree.record_zero] at hr
        cases hr
      obtain ⟨r', dir, ha⟩ := h.anchored k m hm hroot
      have hrr : r = r' := Option.some.inj (hr.symm.trans ha.record)
      have hdir : m.parent = dirid :=
        h.inj _ _ _ _ ha.known hn (ha.parent.trans (by rw [← hrr]; exact hparent))
      have hknown := ha.known
      rw [hdir, hn, Option.some.injEq] at hknown
      rw [(h.path _ k).mpr ⟨m, hm, by rw [hrr, hknown]; exact ha.path⟩] at hpath
      cases hpath
    refine ⟨fun k => if k = c.nextId then i else obj k, c.nextId,
      { nextId := c.nextId + 1
        idToNode := c.idToNode.insert c.nextId
          ⟨joinRemote n.remotePath r.name.val, isDir, size, dirid⟩
        pathToId := c.pathToId.insert (joinRemote n.remotePath r.name.val) c.nextId },
      ?_, ?_, ?_, if_pos rfl, ?_⟩
    · unfold FsCache.intern
      rw [hpath]
    · refine h.insert (n := ⟨joinRemote n.remotePath r.name.val, isDir, size, dirid⟩) ?_ ?_
        (Nat.le_succ _) (Nat.lt_succ_self _) hpos hnew hpath hunheld hobj hr hkind hsize hn
        hparent.symm hheld rfl
      · intro k
        split
        · next hk => rw [hk, AList.lookup_insert]
        · next hk => exact AList.lookup_insert_ne hk
      · intro s
        split
        · next hs => rw [hs, AList.lookup_insert]
        · next hs => exact AList.lookup_insert_ne hs
    · intro j m hm
      have hj : j ≠ c.nextId := fun hj => by
        rw [hj, hnew] at hm
        cases hm
      exact ⟨if_neg hj, m, (AList.lookup_insert_ne hj).trans hm, rfl⟩
    · exact AList.lookup_insert _

/-- A known path stays known. -/
theorem path_grows (h : Mirror c t held obj) {c' : FsCache} {obj' : ℕ → ℕ}
    (h' : Mirror c' t held obj') (hgrows : Grows c c' obj obj') {path : String} {id : ℕ}
    (hpath : c.pathToId.lookup path = some id) : c'.pathToId.lookup path = some id := by
  obtain ⟨n, hn, hnpath⟩ := (h.path path id).mp hpath
  obtain ⟨-, n', hn', hsame⟩ := hgrows id n hn
  exact (h'.path path id).mpr ⟨n', hn', hsame.trans hnpath⟩

/-- The entry that a listing gives for an object. -/
def entryOf (kid : ℕ × Record Name UInt8) : DirEntry :=
  ⟨kid.2.name.val, kid.2.content.size, kid.2.content.isDir⟩

/-- Interning the entries of a directory makes all its children known. -/
theorem internAll (kids : List (ℕ × Record Name UInt8))
    (h : Mirror c t held obj) {dirid : ℕ} {n : Node} (hn : c.idToNode.lookup dirid = some n)
    (hheld : (held dirid).isSome)
    (hkids : ∀ kid ∈ kids, t.record kid.1 = some kid.2 ∧ kid.2.parent = obj dirid) :
    ∃ obj' out c', c.internAll dirid n.remotePath (kids.map entryOf) = (out, c') ∧
      Mirror c' t held obj' ∧ Grows c c' obj obj' ∧
        List.Forall₂ (fun o kid => o.2 = entryOf kid ∧ obj' o.1 = kid.1 ∧
          c'.pathToId.lookup (joinRemote n.remotePath kid.2.name.val) = some o.1) out kids := by
  induction kids generalizing c obj n with
  | nil => exact ⟨obj, [], c, rfl, h, .refl c obj, .nil⟩
  | cons kid rest ih =>
    obtain ⟨hr, hparent⟩ := hkids kid List.mem_cons_self
    obtain ⟨obj₁, id, c₁, hintern, h₁, hgrows₁, hobj₁, hpath₁⟩ :=
      h.intern hn hheld hr hparent rfl (fun _ => rfl)
    obtain ⟨hdirobj, n₁, hn₁, hnpath⟩ := hgrows₁ dirid n hn
    obtain ⟨obj₂, out, c₂, hall, h₂, hgrows₂, hout⟩ := ih h₁ hn₁ (fun other hother => by
      rw [hdirobj]
      exact hkids other (List.mem_cons_of_mem kid hother))
    rw [hnpath] at hall hout
    refine ⟨obj₂, (id, entryOf kid) :: out, c₂, ?_, h₂, hgrows₁.trans hgrows₂, .cons ?_ hout⟩
    · have hentry : c.intern dirid (joinRemote n.remotePath (entryOf kid).name)
          (entryOf kid).isDir (entryOf kid).size = (id, c₁) := hintern
      rw [List.map_cons, FsCache.internAll_cons hentry, hall]
    · obtain ⟨m, hm, -⟩ := (h₁.path _ id).mp hpath₁
      exact ⟨rfl, ((hgrows₂ id m hm).1).trans hobj₁, h₁.path_grows h₂ hgrows₂ hpath₁⟩

end Mirror

end Macrdp.NfsSurface
