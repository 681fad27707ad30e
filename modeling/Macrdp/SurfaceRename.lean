import Macrdp.SurfaceRefinement

/-!
# Renames, and runs of the surface

A rename forgets the path of the source and interns that of the target. As long as no id of the
objects was returned, what is known stays a mirror of the tree. With the other calls this makes
every orderly run of the surface one of the reference.
-/

namespace Macrdp.NfsSurface

open StepSystem FileTree RedirectedDrive

namespace Mirror

variable {c : FsCache} {t : Drive} {held : ℕ → Option ℕ} {obj : ℕ → ℕ}
variable {dirid id : ℕ} {dir k : Node}

/-- The path of a known child is known. -/
theorem path_of_child (h : Mirror c t held obj)
    {r : Record Name UInt8} (hdir : c.idToNode.lookup dirid = some dir)
    (hk : c.idToNode.lookup id = some k) (hr : t.record (obj id) = some r)
    (hparent : r.parent = obj dirid) :
    c.pathToId.lookup (joinRemote dir.remotePath r.name.val) = some id := by
  have hroot : id ≠ rootId := by
    rintro rfl
    rw [h.rootObj, Tree.record_zero] at hr
    cases hr
  obtain ⟨r', above, ha⟩ := h.anchored id k hk hroot
  have hrr : r = r' := Option.some.inj (hr.symm.trans ha.record)
  have hsame : k.parent = dirid :=
    h.inj _ _ _ _ ha.known hdir (ha.parent.trans (by rw [← hrr]; exact hparent))
  have hknown := ha.known
  rw [hsame, hdir, Option.some.injEq] at hknown
  exact (h.path _ id).mpr ⟨k, hk, by rw [hrr, hknown]; exact ha.path⟩

/-- No id of the object of a known node was returned. -/
theorem held_eq_none (h : Mirror c t held obj)
    (hk : c.idToNode.lookup id = some k) (hunheld : ∀ j, held j ≠ some (obj id)) :
    held id = none := by
  cases hid : held id with
  | none => rfl
  | some x => exact absurd (by rw [hid, h.held_obj hk hid]) (hunheld id)

/-- A node of which no id was returned is forgotten; its object may stay. -/
theorem forget_unheld (h : Mirror c t held obj)
    (hk : c.idToNode.lookup id = some k) (hunheld : ∀ j, held j ≠ some (obj id)) :
    Mirror (c.forget id) t held obj := by
  have hnone := h.held_eq_none hk hunheld
  have hroot : id ≠ rootId := by
    rintro rfl
    rw [h.heldRoot] at hnone
    cases hnone
  refine h.forget hk hroot (fun j l hl _ heq => ?_) (fun _ _ => rfl) (Nat.le_refl _) fun hsome => ?_
  · have hj : j ≠ rootId := by
      rintro rfl
      obtain ⟨size, hsize⟩ := h.root
      rw [hsize] at hl
      cases hl
      exact hroot heq.symm
    obtain ⟨r, dir, ha⟩ := h.anchored j l hl hj
    have hheld := ha.held
    rw [heq, hnone] at hheld
    cases hheld
  · rw [hnone] at hsome
    cases hsome

/-- No node stands for an object whose node was forgotten. -/
theorem obj_ne_of_forget (h : Mirror c t held obj) {j : ℕ} {l : Node}
    (hk : c.idToNode.lookup id = some k) (hl : (c.forget id).idToNode.lookup j = some l) :
    obj j ≠ obj id := by
  rw [FsCache.lookup_forget hk] at hl
  split at hl
  · cases hl
  · next hj => exact fun heq => hj (h.inj _ _ _ _ hl hk heq)

/-- A node whose id was returned stays known when another is forgotten. -/
theorem lookup_forget_held (h : Mirror c t held obj)
    (hk : c.idToNode.lookup id = some k) (hunheld : ∀ j, held j ≠ some (obj id))
    (hdir : c.idToNode.lookup dirid = some dir) (hheld : (held dirid).isSome) :
    (c.forget id).idToNode.lookup dirid = some dir := by
  rw [FsCache.lookup_forget hk, if_neg]
  · exact hdir
  · rintro rfl
    rw [h.held_eq_none hk hunheld] at hheld
    cases hheld

variable {m : Name}

/-- An object that no node stands for, and of which no id was returned, is moved. -/
theorem congr_move (h : Mirror c t held obj) {i d : ℕ} (hfree : t.child d m = none)
    (hobj : ∀ j l, c.idToNode.lookup j = some l → obj j ≠ i) (hunheld : ∀ j, held j ≠ some i) :
    Mirror c (t.move i d m hfree) held obj := by
  have hrecord : ∀ x, x ≠ i → (t.move i d m hfree).record x = t.record x := by
    intro x hx
    rw [Tree.record_move, if_neg hx]
  refine h.congr_tree (fun j l hl => hrecord _ (hobj j l hl)) (fun j x hx => ?_)
    (Nat.le_of_eq (Tree.last_move i hfree).symm)
  have hxi : x ≠ i := fun heq => hunheld j (by rw [hx, heq])
  rw [Tree.content, Tree.content, hrecord x hxi]

/-- An object that no node stands for, and of which no id was returned, is taken out. -/
theorem congr_drop (h : Mirror c t held obj) {i : ℕ}
    (hobj : ∀ j l, c.idToNode.lookup j = some l → obj j ≠ i) (hunheld : ∀ j, held j ≠ some i) :
    Mirror c (t.drop i) held obj := by
  have hrecord : ∀ x, x ≠ i → (t.drop i).record x = t.record x := by
    intro x hx
    rw [Tree.record_drop, if_neg hx]
  refine h.congr_tree (fun j l hl => hrecord _ (hobj j l hl)) (fun j x hx => ?_) (Nat.le_refl _)
  have hxi : x ≠ i := fun heq => hunheld j (by rw [hx, heq])
  rw [Tree.content, Tree.content, hrecord x hxi]

/-- An object is moved to a free name. -/
theorem renamed_free (h : Mirror c t held obj)
    (hk : c.idToNode.lookup id = some k) (hroot : id ≠ rootId)
    (hunheld : ∀ j, held j ≠ some (obj id))
    (hdir : c.idToNode.lookup dirid = some dir) (hheld : (held dirid).isSome)
    (hfree : t.child (obj dirid) m = none) :
    ∃ obj' id' c', (c.forget id).intern dirid (joinRemote dir.remotePath m.val) k.isDir k.size =
        (id', c') ∧ Mirror c' (t.move (obj id) (obj dirid) m hfree) held obj' := by
  obtain ⟨r, above, ha⟩ := h.anchored id k hk hroot
  have hmoved := (h.forget_unheld hk hunheld).congr_move (i := obj id) hfree
    (fun j l hl => h.obj_ne_of_forget hk hl) hunheld
  have hr : (t.move (obj id) (obj dirid) m hfree).record (obj id) =
      some { r with parent := obj dirid, name := m } := by
    rw [Tree.record_move, if_pos rfl, ha.record, Option.map_some]
  obtain ⟨obj', id', c', hintern, h', -⟩ := hmoved.intern
    (h.lookup_forget_held hk hunheld hdir hheld) hheld hr rfl ha.isDir ha.size
  exact ⟨obj', id', c', hintern, h'⟩

/-- An object is given the name that it has. -/
theorem renamed_same (h : Mirror c t held obj)
    (hk : c.idToNode.lookup id = some k) (hunheld : ∀ j, held j ≠ some (obj id))
    (hdir : c.idToNode.lookup dirid = some dir) (hheld : (held dirid).isSome)
    (hsame : t.child (obj dirid) m = some (obj id)) :
    ∃ obj' id' c', (c.forget id).intern dirid (joinRemote dir.remotePath m.val) k.isDir k.size =
        (id', c') ∧ Mirror c' t held obj' := by
  obtain ⟨r, hr, hparent, hname⟩ := Tree.child_eq_some_iff.mp hsame
  obtain ⟨content, hcontent, hkind, hsize⟩ := h.shows hk
  rw [Tree.content_of_record hr] at hcontent
  cases hcontent
  obtain ⟨obj', id', c', hintern, h', -⟩ := (h.forget_unheld hk hunheld).intern
    (h.lookup_forget_held hk hunheld hdir hheld) hheld hr hparent hkind hsize
  rw [hname] at hintern
  exact ⟨obj', id', c', hintern, h'⟩

/-- An object takes the place of a file; the node of the file, if there is one, then stands for
the object. -/
theorem renamed_onto (h : Mirror c t held obj) {j : ℕ}
    (hk : c.idToNode.lookup id = some k) (hroot : id ≠ rootId)
    (hunheld : ∀ l, held l ≠ some (obj id)) (hunheldj : ∀ l, held l ≠ some j)
    (hdir : c.idToNode.lookup dirid = some dir) (hheld : (held dirid).isSome)
    (hj : t.child (obj dirid) m = some j) (hne : j ≠ obj id)
    (hfree : (t.drop j).child (obj dirid) m = none) :
    ∃ obj' id' c', (c.forget id).intern dirid (joinRemote dir.remotePath m.val) k.isDir k.size =
        (id', c') ∧ Mirror c' ((t.drop j).move (obj id) (obj dirid) m hfree) held obj' := by
  obtain ⟨r, above, ha⟩ := h.anchored id k hk hroot
  obtain ⟨s, hs, hsparent, hsname⟩ := Tree.child_eq_some_iff.mp hj
  have hr : ((t.drop j).move (obj id) (obj dirid) m hfree).record (obj id) =
      some { r with parent := obj dirid, name := m } := by
    rw [Tree.record_move, if_pos rfl, Tree.record_drop, if_neg hne.symm, ha.record,
      Option.map_some]
  have h₁ := h.forget_unheld hk hunheld
  have hdir₁ := h.lookup_forget_held hk hunheld hdir hheld
  cases hpath : (c.forget id).pathToId.lookup (joinRemote dir.remotePath m.val) with
  | none =>
    have hobj : ∀ l o, (c.forget id).idToNode.lookup l = some o → obj l ≠ j := by
      rintro l o ho rfl
      have hknown := h₁.path_of_child hdir₁ ho hs hsparent
      rw [hsname, hpath] at hknown
      cases hknown
    have hmoved := (h₁.congr_drop hobj hunheldj).congr_move hfree
      (fun l o ho => h.obj_ne_of_forget hk ho) hunheld
    obtain ⟨obj', id', c', hintern, h', -⟩ :=
      hmoved.intern hdir₁ hheld hr rfl ha.isDir ha.size
    exact ⟨obj', id', c', hintern, h'⟩
  | some id₂ =>
    obtain ⟨hchild, -, k₂, hk₂, hk₂parent⟩ := h₁.child_of_path hdir₁ hpath
    have hobj₂ : obj id₂ = j := Option.some.inj (hchild.symm.trans hj)
    have hunheld₂ : ∀ l, held l ≠ some (obj id₂) := by
      rw [hobj₂]
      exact hunheldj
    obtain ⟨k₂', hk₂', hk₂path⟩ := (h₁.path _ id₂).mp hpath
    have hkk : k₂' = k₂ := Option.some.inj (hk₂'.symm.trans hk₂)
    rw [hkk] at hk₂path
    have h₂ := h₁.forget_unheld hk₂ hunheld₂
    have hdir₂ := h₁.lookup_forget_held hk₂ hunheld₂ hdir₁ hheld
    have hback : ∀ {l o}, ((c.forget id).forget id₂).idToNode.lookup l = some o →
        (c.forget id).idToNode.lookup l = some o := by
      intro l o ho
      rw [FsCache.lookup_forget hk₂] at ho
      split at ho
      · cases ho
      · exact ho
    have hmoved := (h₂.congr_drop (i := j) (fun l o ho => by
        rw [← hobj₂]
        exact h₁.obj_ne_of_forget hk₂ ho) hunheldj).congr_move (i := obj id) hfree
      (fun l o ho => h.obj_ne_of_forget hk (hback ho)) hunheld
    have hdir₃ : ((c.forget id).forget id₂).idToNode.lookup k₂.parent = some dir := by
      rw [hk₂parent]
      exact hdir₂
    -- The node of the replaced file comes in again, for the object that was moved.
    refine ⟨fun l => if l = id₂ then obj id else obj l, id₂,
      { nextId := (c.forget id).nextId
        idToNode := (c.forget id).idToNode.insert id₂
          { k₂ with isDir := k.isDir, size := k.size }
        pathToId := (c.forget id).pathToId }, ?_, ?_⟩
    · unfold FsCache.intern
      rw [hpath]
      simp only [hk₂]
    · refine hmoved.insert (n := { k₂ with isDir := k.isDir, size := k.size })
        (r := { r with parent := obj dirid, name := m }) (fun l => ?_) (fun p => ?_)
        (Nat.le_of_eq (FsCache.nextId_forget _ _)) (h₁.bound id₂ k₂ hk₂) (fun hzero => ?_) ?_ ?_
        (h₁.held_eq_none hk₂ hunheld₂) (fun l o ho => h.obj_ne_of_forget hk (hback ho)) hr
        ha.isDir ha.size hdir₃ ?_ ?_ hk₂path
      · rw [FsCache.lookup_forget hk₂]
        change ((c.forget id).idToNode.insert id₂ _).lookup l = _
        split
        · next hl => rw [hl, AList.lookup_insert]
        · next hl => exact AList.lookup_insert_ne hl
      · rw [FsCache.path_forget hk₂]
        change (c.forget id).pathToId.lookup p = if p = k₂.remotePath then _ else _
        split
        · next hp => rw [hp, hk₂path, hpath]
        · rfl
      · rw [hzero, h₁.zero] at hk₂
        cases hk₂
      · rw [FsCache.lookup_forget hk₂, if_pos rfl]
      · rw [FsCache.path_forget hk₂]
        exact if_pos rfl
      · change obj k₂.parent = obj dirid
        rw [hk₂parent]
      · change (held k₂.parent).isSome = true
        rw [hk₂parent]
        exact hheld

/-- A rename on the drive and one by the reference have the same outcome, and the mirror is kept
when the old path is forgotten and the new one interned. -/
theorem renamed {held : AList fun _ : ℕ => ℕ} {s : RdpdrFs} (h : Mirror c t held.lookup obj)
    {source : ℕ} {n : Name} (hk : c.idToNode.lookup id = some k)
    (hdir : c.idToNode.lookup dirid = some dir) (hheld : (held.lookup dirid).isSome)
    (hcontent : t.content (obj dirid) = some .dir) (hchild : t.child source n = some (obj id))
    (hunheld : System.renamesUnheld source n (obj dirid) m ⟨s, t, held⟩ = true) :
    (∃ e, t.setRename (obj id) (joinRemote dir.remotePath m.val) true = .error e ∧
        Reference.rename source n (obj dirid) m t = (.error .refused, t)) ∨
      ∃ t' obj' id' c', t.setRename (obj id) (joinRemote dir.remotePath m.val) true = .ok t' ∧
        Reference.rename source n (obj dirid) m t = (.ok .done, t') ∧
        (c.forget id).intern dirid (joinRemote dir.remotePath m.val) k.isDir k.size = (id', c') ∧
        Mirror c' t' held.lookup obj' := by
  obtain ⟨r, hr, -, -⟩ := Tree.child_eq_some_iff.mp hchild
  have hnonzero : obj id ≠ 0 := Tree.ne_zero_of_record hr
  have hroot : id ≠ rootId := fun heq => hnonzero (by rw [heq, h.rootObj])
  have hfree : ∀ i, System.unheld ⟨s, t, held⟩ i = true → ∀ l, held.lookup l ≠ some i :=
    fun i hi l hl => of_decide_eq_true (List.all_eq_true.mp hi _ (AList.mem_lookup_iff.mp hl)) rfl
  unfold System.renamesUnheld at hunheld
  unfold Drive.setRename Reference.rename
  simp only [hchild, h.locate_child hdir m] at hunheld ⊢
  by_cases hwithin : t.within (obj id) (obj dirid) = true
  · rw [if_pos (.inr (.inr hwithin)), if_pos hwithin]
    exact .inl ⟨_, rfl, rfl⟩
  · have hallowed : ¬(obj id = 0 ∨ t.content (obj dirid) ≠ some .dir ∨
        t.within (obj id) (obj dirid) = true) := by
      rintro (hzero | hnot | hin)
      · exact hnonzero hzero
      · exact hnot hcontent
      · exact hwithin hin
    rw [if_neg hallowed, if_neg hwithin]
    rw [(Bool.not_eq_true _).mp hwithin, Bool.false_or] at hunheld
    cases htarget : t.child (obj dirid) m with
    | none =>
      simp only [htarget] at hunheld
      obtain ⟨obj', id', c', hintern, h'⟩ :=
        h.renamed_free hk hroot (hfree _ hunheld) hdir hheld htarget
      refine .inr ⟨_, obj', id', c', ?_, ?_, hintern, h'⟩
      · rw [Tree.relocate, dif_pos htarget]
        rfl
      · rw [Tree.relocate, dif_pos htarget]
        rfl
    | some j =>
      simp only [htarget] at hunheld
      by_cases hj : j = obj id
      · rw [if_pos hj] at hunheld
        obtain ⟨obj', id', c', hintern, h'⟩ :=
          h.renamed_same hk (hfree _ hunheld) hdir hheld (by rw [htarget, hj])
        simp only [hj, if_true]
        exact .inr ⟨t, obj', id', c', rfl, rfl, hintern, h'⟩
      · rw [if_neg hj] at hunheld
        obtain ⟨r', hr', -, -⟩ := Tree.child_eq_some_iff.mp htarget
        have hi := Tree.content_of_record hr
        have hj' := Tree.content_of_record hr'
        have hfree' : (t.drop j).child (obj dirid) m = none := by
          cases hstill : (t.drop j).child (obj dirid) m with
          | none => rfl
          | some l =>
            obtain ⟨r'', hr'', hparent, hname⟩ := Tree.child_eq_some_iff.mp hstill
            rw [Tree.record_drop] at hr''
            split at hr''
            · cases hr''
            · next hl =>
              have hback : t.child (obj dirid) m = some l :=
                Tree.child_eq_some_iff.mpr ⟨r'', hr'', hparent, hname⟩
              exact absurd (Option.some.inj (hback.symm.trans htarget)) hl
        simp only [hj, if_false, Bool.true_eq_false]
        cases hc : r.content with
        | dir =>
          rw [hc] at hi
          cases hc' : r'.content with
          | dir =>
            rw [hc'] at hj'
            simp only [hi, hj', decide_eq_true_eq] at hunheld ⊢
            rw [if_neg hunheld]
            exact .inl ⟨_, rfl, rfl⟩
          | file bytes =>
            rw [hc'] at hj'
            simp only [hi, hj']
            exact .inl ⟨_, rfl, trivial⟩
        | file bytes =>
          rw [hc] at hi
          cases hc' : r'.content with
          | dir =>
            rw [hc'] at hj'
            simp only [hi, hj']
            exact .inl ⟨_, rfl, trivial⟩
          | file bytes' =>
            rw [hc'] at hj'
            simp only [hi, hj', Bool.and_eq_true] at hunheld ⊢
            obtain ⟨obj', id', c', hintern, h'⟩ := h.renamed_onto hk hroot (hfree _ hunheld.1)
              (hfree _ hunheld.2) hdir hheld htarget hj hfree'
            refine .inr ⟨_, obj', id', c', ?_, ?_, hintern, h'⟩
            · rw [Tree.relocate, dif_pos hfree']
              rfl
            · rw [Tree.relocate, dif_pos hfree']
              rfl

variable {s : RdpdrFs}

/-- A rename of an object of which no id was returned, onto nothing or onto a file of which none
was either. -/
theorem serve_rename {held : AList fun _ : ℕ => ℕ}
    (h : Mirror s.cache s.drive held.lookup obj) {fromDirid toDirid i j : ℕ}
    (hfrom : held.lookup fromDirid = some i) (hto : held.lookup toDirid = some j) (n m : Name)
    (horderly : ∀ source target, Reference.asDir held.lookup fromDirid s.drive = .ok source →
      Reference.asDir held.lookup toDirid s.drive = .ok target →
        System.renamesUnheld source n target m ⟨s, s.drive, held⟩ = true) :
    Served held.lookup (s.rename fromDirid n.val toDirid m.val)
      (match Reference.asDir held.lookup fromDirid s.drive with
        | .error e => (.error e, s.drive)
        | .ok source =>
          match Reference.asDir held.lookup toDirid s.drive with
          | .error e => (.error e, s.drive)
          | .ok target => Reference.rename source n target m s.drive) := by
  have hfromHeld : (held.lookup fromDirid).isSome := by rw [hfrom]; rfl
  have htoHeld : (held.lookup toDirid).isSome := by rw [hto]; rfl
  unfold RdpdrFs.rename
  rcases h.dir_cases hfrom with ⟨hsource, hnone⟩ | ⟨hsource, sdir, hsdir, hfile⟩ |
    ⟨hsource, -, sdir, hsdir, hdir⟩
  · simp only [RdpdrFs.dirPathOf, hnone, hsource]
    exact .of_error h rfl _ _
  · simp only [RdpdrFs.dirPathOf, hsdir, hfile, if_true, hsource]
    exact .of_error h rfl _ _
  · rcases h.dir_cases hto with ⟨htarget, hnone⟩ | ⟨htarget, tdir, htdir, hfile⟩ |
      ⟨htarget, htcontent, tdir, htdir, hisDir⟩
    · simp only [RdpdrFs.dirPathOf, hsdir, hdir, Bool.true_eq_false, if_false, hnone, hsource,
        htarget]
      exact .of_error h rfl _ _
    · simp only [RdpdrFs.dirPathOf, hsdir, hdir, Bool.true_eq_false, if_false, htdir, hfile,
        if_true, hsource, htarget]
      exact .of_error h rfl _ _
    · obtain ⟨obj', c', h', hgrows, hresolve⟩ := h.resolve hsdir hdir hfromHeld n
      obtain ⟨htobj, tdir', htdir', htpath⟩ := hgrows toDirid tdir htdir
      have hunheld := horderly _ _ hsource htarget
      simp only [RdpdrFs.dirPathOf, hsdir, hdir, Bool.true_eq_false, if_false, htdir, hisDir,
        hsource, htarget]
      rcases hresolve with ⟨hchild, hnoent⟩ | ⟨id, k, hchild, hk, hkpath, hfound⟩
      · simp only [hnoent]
        unfold Reference.rename
        rw [hchild]
        exact .of_error (s := ⟨s.createdSecs, c', s.drive⟩) h' rfl _ _
      · simp only [hfound]
        have hfind := h'.find hk
        rw [hkpath] at hfind
        obtain ⟨content, hcontent, -⟩ := h'.shows hk
        have hrename : RdpdrHandle.rename (joinRemote sdir.remotePath n.val)
            (joinRemote tdir.remotePath m.val) true s.drive = _ :=
          RdpdrHandle.rename_eq hfind hcontent
        rw [← htobj] at hunheld htcontent
        rw [← htpath] at hrename ⊢
        rcases h'.renamed hk htdir' htoHeld htcontent hchild hunheld with
          ⟨e, hset, hrefused⟩ | ⟨t', obj'', id', c'', hset, hdone, hintern, h''⟩
        · rw [hset] at hrename
          rw [htobj] at hrefused
          simp only [hrename, hrefused]
          exact .of_error (s := ⟨s.createdSecs, c', s.drive⟩) h' rfl _ _
        · rw [hset] at hrename
          rw [htobj] at hdone
          simp only [hrename, hdone, hintern]
          exact .of_ok (s := ⟨s.createdSecs, c'', t'⟩) h'' rfl
            (fun _ hmem => absurd hmem List.not_mem_nil) trivial

/-- Every orderly call on returned ids is served as the reference serves it. -/
theorem serve {held : AList fun _ : ℕ => ℕ} (h : Mirror s.cache s.drive held.lookup obj)
    (call : Call) (hheld : ∀ id ∈ call.ids, (held.lookup id).isSome)
    (horderly : System.orderly ⟨s, s.drive, held⟩ call = true) :
    Served held.lookup (s.serve call) (Reference.serve held.lookup s.drive call) := by
  have hknown : ∀ id ∈ call.ids, ∃ i, held.lookup id = some i :=
    fun id hid => Option.isSome_iff_exists.mp (hheld id hid)
  cases call with
  | lookup dirid filename =>
    obtain ⟨i, hi⟩ := hknown dirid List.mem_cons_self
    refine h.serve_lookup hi filename fun hhere => ?_
    have hthere : ((held.lookup dirid).bind s.drive.content).isSome = true := by
      rw [hhere] at horderly
      exact horderly
    rw [hi] at hthere
    exact hthere
  | getattr id =>
    obtain ⟨i, hi⟩ := hknown id List.mem_cons_self
    exact h.serve_getattr hi
  | read id offset count =>
    obtain ⟨i, hi⟩ := hknown id List.mem_cons_self
    exact h.serve_read hi offset count
  | readdir dirid startAfter maxEntries =>
    obtain ⟨i, hi⟩ := hknown dirid List.mem_cons_self
    exact h.serve_readdir hi startAfter maxEntries
  | setattr id size =>
    obtain ⟨i, hi⟩ := hknown id List.mem_cons_self
    refine h.serve_setattr hi size fun n found hsize hfound => ?_
    rw [hsize] at horderly
    simp only [System.orderly, hfound, decide_eq_true_eq] at horderly
    exact horderly
  | write id offset data =>
    obtain ⟨i, hi⟩ := hknown id List.mem_cons_self
    refine h.serve_write hi offset data fun j bytes hfound => ?_
    simp only [System.orderly, hfound, Bool.or_eq_true, decide_eq_true_eq] at horderly
    exact horderly
  | create dirid filename size =>
    obtain ⟨i, hi⟩ := hknown dirid List.mem_cons_self
    refine h.serve_create hi filename size fun d hd => ⟨fun hfree => ?_, fun j bytes hj hc => ?_⟩
    · simp only [System.orderly, hd, hfree, Option.bind_none, decide_eq_true_eq] at horderly
      exact horderly
    · simp only [System.orderly, hd, hj, Option.bind_some, hc, Bool.and_eq_true,
        decide_eq_true_eq] at horderly
      exact horderly
  | createExclusive dirid filename =>
    obtain ⟨i, hi⟩ := hknown dirid List.mem_cons_self
    exact h.serve_createExclusive hi filename
  | mkdir dirid dirname =>
    obtain ⟨i, hi⟩ := hknown dirid List.mem_cons_self
    exact h.serve_mkdir hi dirname
  | remove dirid filename =>
    obtain ⟨i, hi⟩ := hknown dirid List.mem_cons_self
    exact h.serve_remove hi filename
  | rename fromDirid fromFilename toDirid toFilename =>
    obtain ⟨i, hi⟩ := hknown fromDirid List.mem_cons_self
    obtain ⟨j, hj⟩ := hknown toDirid (List.mem_cons_of_mem _ List.mem_cons_self)
    refine h.serve_rename hi hj fromFilename toFilename fun source target hsource htarget => ?_
    simp only [System.orderly, hsource, htarget] at horderly
    exact horderly

/-- A known id is held from then on, for the object of its node. -/
theorem hold_one {held : AList fun _ : ℕ => ℕ} (h : Mirror s.cache s.drive held.lookup obj)
    {n : Node} (hn : s.cache.idToNode.lookup id = some n) (k : ℕ) :
    (System.hold s held id).lookup k = if k = id then some (obj id) else held.lookup k := by
  have hdenotes : System.denotes id s = some (obj id) := by
    rw [System.denotes, hn, Option.bind_some]
    exact h.find hn
  unfold System.hold
  rw [hdenotes]
  cases hid : held.lookup id with
  | none =>
    change (held.insert id (obj id)).lookup k = _
    split
    · next hk => rw [hk, AList.lookup_insert]
    · next hk => exact AList.lookup_insert_ne hk
  | some i =>
    change held.lookup k = _
    split
    · next hk => rw [hk, hid, h.held_obj hn hid]
    · rfl

/-- Known ids are held from then on, for the objects of their nodes. -/
theorem hold_all (ids : List ℕ) {held : AList fun _ : ℕ => ℕ}
    (h : Mirror s.cache s.drive held.lookup obj)
    (hids : ∀ id ∈ ids, (s.cache.idToNode.lookup id).isSome) :
    Mirror s.cache s.drive (ids.foldl (System.hold s) held).lookup obj ∧
      ∀ id, id ∈ ids ∨ held.lookup id = some (obj id) →
        (ids.foldl (System.hold s) held).lookup id = some (obj id) := by
  induction ids generalizing held with
  | nil => exact ⟨h, fun id hid => hid.resolve_left List.not_mem_nil⟩
  | cons id rest ih =>
    obtain ⟨n, hn⟩ := Option.isSome_iff_exists.mp (hids id List.mem_cons_self)
    have hlookup := h.hold_one hn
    have hone : Mirror s.cache s.drive (System.hold s held id).lookup obj := by
      rw [funext hlookup]
      exact h.hold hn
    obtain ⟨hall, hheld⟩ := ih hone fun j hj => hids j (List.mem_cons_of_mem id hj)
    refine ⟨hall, fun j hj => hheld j ?_⟩
    rw [hlookup]
    rcases hj with hmem | hj
    · rcases List.mem_cons.mp hmem with rfl | hrest
      · exact .inr (if_pos rfl)
      · exact .inl hrest
    · right
      split
      · next hid => rw [hid]
      · exact hj

end Mirror

namespace System

/-- What is known mirrors the tree of the reference, and both trees are one. -/
def Inv (s : System) : Prop :=
  ∃ obj, Mirror s.surface.cache s.server s.held.lookup obj ∧ s.surface.drive = s.server

/-- A drive that was just mounted is mirrored. -/
theorem inv_mount (createdSecs : ℕ) (t : Drive) : (mount createdSecs t).Inv := by
  have hnode : ∀ id, FsCache.new.idToNode.lookup id =
      if id = rootId then some ⟨"\\", true, 0, rootId⟩ else none := by
    intro id
    change (AList.insert rootId _ ∅).lookup id = _
    split
    · next hid => rw [hid, AList.lookup_insert]
    · next hid => rw [AList.lookup_insert_ne hid, AList.lookup_empty]
  have hheld : ∀ id, (mount createdSecs t).held.lookup id =
      if id = rootId then some 0 else none := by
    intro id
    change (AList.insert rootId 0 ∅).lookup id = _
    split
    · next hid => rw [hid, AList.lookup_insert]
    · next hid => rw [AList.lookup_insert_ne hid, AList.lookup_empty]
  have honly : ∀ {id n}, FsCache.new.idToNode.lookup id = some n →
      id = rootId ∧ n = ⟨"\\", true, 0, rootId⟩ := by
    intro id n hn
    rw [hnode] at hn
    split at hn
    · next hid => exact ⟨hid, (Option.some.inj hn).symm⟩
    · cases hn
  have hrootheld : ∀ {id i}, (mount createdSecs t).held.lookup id = some i →
      id = rootId ∧ i = 0 := by
    intro id i hi
    rw [hheld] at hi
    split at hi
    · next hid => exact ⟨hid, (Option.some.inj hi).symm⟩
    · cases hi
  refine ⟨fun _ => 0, ⟨⟨0, ?_⟩, rfl, ?_, ?_, ?_, ?_, ?_, ?_, ?_, ?_, ?_⟩, rfl⟩
  · exact (hnode rootId).trans (if_pos rfl)
  · exact fun id n hn hroot => absurd (honly hn).1 hroot
  · intro path id
    change (AList.insert "\\" rootId ∅ : AList fun _ : String => ℕ).lookup path = some id ↔ _
    constructor
    · intro hpath
      by_cases hroot : path = "\\"
      · rw [hroot, AList.lookup_insert, Option.some.injEq] at hpath
        exact ⟨_, (hnode id).trans (if_pos hpath.symm), hroot.symm⟩
      · rw [AList.lookup_insert_ne hroot, AList.lookup_empty] at hpath
        cases hpath
    · rintro ⟨n, hn, hpath⟩
      obtain ⟨hid, hroot⟩ := honly hn
      rw [← hpath, hroot, hid]
      exact AList.lookup_insert _
  · exact fun id j n m hn hm _ => (honly hn).1.trans (honly hm).1.symm
  · intro id n hn
    rw [(honly hn).1]
    exact Nat.lt_succ_self _
  · exact (hnode 0).trans (if_neg (by decide))
  · intro id i hi
    rw [(hrootheld hi).1, (hrootheld hi).2]
    exact ⟨Nat.lt_succ_self _, Nat.zero_le _⟩
  · exact (hheld rootId).trans (if_pos rfl)
  · intro id i hi _
    rw [(hrootheld hi).1, (hrootheld hi).2]
    refine ⟨rfl, ?_⟩
    change (FsCache.new.idToNode.lookup rootId).isSome = true
    rw [hnode, if_pos rfl]
    rfl
  · intro id i hi hnone
    rw [(hrootheld hi).2] at hnone
    cases hnone

/-- What a reply says is said of its ids only. -/
theorem says_congr {den den' : ℕ → Option ℕ} {t : Drive} {reply : Reply} {answer : Answer}
    (hden : ∀ id ∈ reply.ids, den' id = den id) (h : reply.Says den t answer) :
    reply.Says den' t answer := by
  cases reply with
  | object id =>
    cases answer with
    | object i => exact (hden id List.mem_cons_self).trans h
    | _ => exact h.elim
  | attr a =>
    cases answer with
    | attr i c => exact ⟨(hden a.fileid List.mem_cons_self).trans h.1, h.2⟩
    | _ => exact h.elim
  | created id a =>
    cases answer with
    | created i c => exact ⟨(hden id List.mem_cons_self).trans h.1, h.2⟩
    | _ => exact h.elim
  | bytes data eof =>
    cases answer with
    | bytes data' eof' => exact h
    | _ => exact h.elim
  | listing entries complete =>
    cases answer with
    | listing d startAfter maxEntries =>
      obtain ⟨all, kids, hkids, hsorted, hshows, hentries, hcomplete⟩ := h
      refine ⟨all, kids, hkids, hsorted, hshows.imp fun e kid hkid => ?_, hentries, hcomplete⟩
      refine ⟨hkid.1, hkid.2.1, hkid.2.2.1, fun he => ?_⟩
      rw [hden e.fileid (List.mem_map_of_mem he)]
      exact hkid.2.2.2 he
    | _ => exact h.elim
  | done =>
    cases answer with
    | done => trivial
    | _ => exact h.elim

/-- An orderly call gets the answer of the reference, and the mirror is kept. -/
theorem step_agrees {s s' : System} {call : Call} (hinv : s.Inv)
    (horderly : s.orderly call = true) (hstep : s.step call = some s') :
    s.Agrees call ∧ s'.Inv := by
  obtain ⟨surface, server, held⟩ := s
  obtain ⟨obj, hmirror, rfl⟩ : ∃ obj, Mirror surface.cache server held.lookup obj ∧
    surface.drive = server := hinv
  unfold step at hstep
  split at hstep
  · next hheld =>
    cases hstep
    obtain ⟨obj', hmirror', hdrive, hids, hanswer⟩ := hmirror.serve call hheld horderly
    have hkept : Mirror (surface.serve call).2.cache (surface.serve call).2.drive held.lookup
        obj' := hdrive ▸ hmirror'
    unfold Agrees Inv
    simp only
    cases hreply : (surface.serve call).1 with
    | error e =>
      refine ⟨⟨hdrive, ?_⟩, obj', hmirror', hdrive⟩
      rw [hreply] at hanswer
      cases hexpected : (Reference.serve held.lookup surface.drive call).1 with
      | ok a =>
        rw [hexpected] at hanswer
        obtain ⟨reply, hok, -⟩ := hanswer
        cases hok
      | error f =>
        cases f with
        | gone => exact ⟨e, rfl⟩
        | refused => trivial
    | ok reply =>
      obtain ⟨hall, hdenotes⟩ := hkept.hold_all reply.ids (hids reply hreply)
      refine ⟨⟨hdrive, ?_⟩, obj', hdrive ▸ hall, hdrive⟩
      rw [hreply] at hanswer
      cases hexpected : (Reference.serve held.lookup surface.drive call).1 with
      | ok a =>
        rw [hexpected] at hanswer
        obtain ⟨reply', hok, hreplies⟩ := hanswer
        cases hok
        exact ⟨reply, rfl, says_congr (fun id hid => hdenotes id (.inl hid)) hreplies⟩
      | error f =>
        rw [hexpected] at hanswer
        cases f with
        | gone =>
          obtain ⟨e, he⟩ := hanswer
          cases he
        | refused => trivial
  · cases hstep

/-- In every run of orderly calls the surface serves each call as the reference does. -/
theorem refines_reference (createdSecs : ℕ) (t : Drive) {calls : List Call}
    (horderly : Meets step (fun s call => s.orderly call = true) (mount createdSecs t) calls) :
    Meets step (fun s call => (s.step call).isSome → s.Agrees call) (mount createdSecs t)
      calls := by
  refine Meets.of_invariant Inv (fun s call s' hinv h hstep => (step_agrees hinv h hstep).2)
    (fun s call hinv h hserved => ?_) (inv_mount createdSecs t) horderly
  obtain ⟨s', hstep⟩ := Option.isSome_iff_exists.mp hserved
  exact (step_agrees hinv h hstep).1

/-- A drive with one file. -/
def sampleDrive : Drive :=
  match Tree.empty.create 0 ⟨"a", by decide⟩ (.file [1, 2, 3]) with
  | some (t, _) => t
  | none => .empty

/-- A file is renamed before it was looked up, and then read under its new name. -/
def renameThenRead : List Call :=
  [.rename rootId ⟨"a", by decide⟩ rootId ⟨"b", by decide⟩, .lookup rootId (.name ⟨"b", by decide⟩),
    .read 3 1 9, .readdir rootId 0 5]

/-- The run is orderly, and its calls are served as the reference serves them. -/
theorem refines_reference_renameThenRead :
    (run step (mount 7 sampleDrive) renameThenRead).isSome ∧
      Meets step (fun s call => (s.step call).isSome → s.Agrees call) (mount 7 sampleDrive)
        renameThenRead :=
  ⟨by decide +kernel, refines_reference 7 sampleDrive (meetsBool_iff.mp (by decide +kernel))⟩

/-- A file is renamed after its id was returned, and its attributes are asked for by that id. -/
def renameHeld : List Call :=
  [.lookup rootId (.name ⟨"a", by decide⟩), .rename rootId ⟨"a", by decide⟩ rootId ⟨"b", by decide⟩,
    .getattr 2]

/-- A returned id is not served any more once its object was renamed. -/
theorem not_refines_renameHeld :
    ¬∀ (createdSecs : ℕ) (t : Drive) (calls : List Call),
      Meets step (fun s call => (s.step call).isSome → s.Agrees call) (mount createdSecs t)
        calls := by
  intro h
  have hstale : (run step (mount 7 sampleDrive) (renameHeld.take 2)).any (fun s =>
      (s.step (.getattr 2)).isSome &&
        decide ((s.surface.serve (.getattr 2)).1 = .error .noent ∧
          (Reference.serve s.held.lookup s.server (.getattr 2)).1 =
            .ok (.attr 1 (.file [1, 2, 3])))) = true := by
    decide +kernel
  cases hrun : run step (mount 7 sampleDrive) (renameHeld.take 2) with
  | none =>
    rw [hrun] at hstale
    cases hstale
  | some s =>
    rw [hrun, Option.any_some, Bool.and_eq_true, decide_eq_true_eq] at hstale
    obtain ⟨hserved, hsurface, hreference⟩ := hstale
    obtain ⟨-, hlast⟩ := (meets_append (renameHeld.take 2) [.getattr 2] _).mp
      (h 7 sampleDrive renameHeld)
    obtain ⟨-, hanswer⟩ := (hlast s hrun).1 hserved
    rw [hreference] at hanswer
    obtain ⟨reply, hreply, -⟩ := hanswer
    rw [hsurface] at hreply
    cases hreply

end System

end Macrdp.NfsSurface
