import Mathlib.Data.List.Sort
import Macrdp.PasteDestination

/-!
# What a paste publishes

The entries of a remote copy are laid out in a temp directory, directories first, and then
the top-level ones are published on the pasteboard. One pipeline downloads every file before
that; the other makes an empty file of its size, to be filled when it is read.
-/

namespace Macrdp.PastePublication

open PasteDestination UnixPath

/-- What is at a place on the disk. -/
inductive Kind where
  | dir
  | file
  deriving DecidableEq

/-- What is on the disk, by components. -/
abbrev Disk := List Component → Option Kind

/-- Make a directory and those it is in; a file in its way is an error. -/
def createDirAll (place : List Component) (disk : Disk) : Option Disk :=
  if place.inits.any fun q => disk q == some .file then none
  else some fun q => if q <+: place then some .dir else disk q

/-- The directory that a place is in; the root is in none. -/
def parent (place : List Component) : Option (List Component) :=
  match place.getLast? with
  | none => none
  | some .rootDir => none
  | some _ => some place.dropLast

/-- Open a file for writing, making it if it is not there. A path with a slash at its end does
not name a file, a directory is not opened, and the directory of the file has to be there. -/
def createFile (p : Path) (disk : Disk) : Option Disk :=
  if p.getLast? = some '/' ∨ disk (components p) = some .dir ∨
      ((parent (components p)).any fun dir => disk dir != some .dir) then none
  else some fun q => if q = components p then some .file else disk q

/-- Make the directory of a file, if it is in one. -/
def createParent (p : Path) (disk : Disk) : Option Disk :=
  match parent (components p) with
  | some dir => createDirAll dir disk
  | none => some disk

/-- Every entry with its destination, unless one is refused. -/
def plan (root : Path) (entries : List RemoteEntry) : Option (List (RemoteEntry × Path)) :=
  entries.mapM fun e => (resolveDest root e).map fun p => (e, p)

/-- The planned directories, those with fewer components first. -/
def plannedDirs (planned : List (RemoteEntry × Path)) : List (List Component) :=
  ((planned.filter fun x => x.1.isDir).map fun x => components x.2).insertionSort
    fun p q => p.length ≤ q.length

/-- Make the planned directories. -/
def createDirs (planned : List (RemoteEntry × Path)) (disk : Disk) : Option Disk :=
  (plannedDirs planned).foldlM (fun disk place => createDirAll place disk) disk

/-- Download one file. -/
def fetchFile (complete : RemoteEntry → Bool) (disk : Disk) (x : RemoteEntry × Path) :
    Option Disk := do
  let disk ← createParent x.2 disk
  let disk ← createFile x.2 disk
  if complete x.1 then some disk else none

/-- The paths of the top-level entries. -/
def topLevel (planned : List (RemoteEntry × Path)) : List Path :=
  (planned.filter fun x => x.1.relativePath.isNone).map Prod.snd

/-- Download all entries into a temp directory, and publish. Gives what is published and the
disk, or nothing once an entry is refused, a call fails or a download does. -/
def spawnRemotePaste (complete : RemoteEntry → Bool) (root : Path) (entries : List RemoteEntry)
    (disk : Disk) : Option (List Path × Disk) := do
  let planned ← plan root entries
  let disk ← createDirs planned disk
  let disk ← (planned.filter fun x => !x.1.isDir).foldlM (fetchFile complete) disk
  return (topLevel planned, disk)

/-- Lay out one entry: a directory is there already, a file is made empty. -/
def layOut (acc : List Path × Disk) (x : RemoteEntry × Path) : Option (List Path × Disk) :=
  let urls := if x.1.relativePath.isNone then acc.1 ++ [x.2] else acc.1
  if x.1.isDir then some (urls, acc.2)
  else do
    let disk ← createParent x.2 acc.2
    let disk ← createFile x.2 disk
    return (urls, disk)

/-- Lay out all entries in a temp directory, and publish; files without a size are left to the
other pipeline. -/
def spawnLazyPaste (root : Path) (entries : List RemoteEntry) (disk : Disk) :
    Option (List Path × Disk) :=
  if entries.any fun e => !e.isDir && e.size.isNone then none
  else do
    let planned ← plan root entries
    let disk ← createDirs planned disk
    planned.foldlM layOut ([], disk)

/-- All entries are published: each goes to a published path or below one, every published
path is there, and is directly in the temp directory. -/
structure Whole (root : Path) (entries : List RemoteEntry) (published : List Path)
    (disk : Disk) : Prop where
  covers : ∀ e ∈ entries, ∀ p, resolveDest root e = some p →
    ∃ q ∈ published, components q <+: components p
  there : ∀ q ∈ published, disk (components q) ≠ none
  direct : ∀ q ∈ published, ∃ name, components q = components root ++ [.normal name]

/-- Every entry is listed under a top-level one: one without a relative path whose name is the
first component, and is not empty. -/
def Rooted (entries : List RemoteEntry) : Prop :=
  ∀ e ∈ entries, (e.relativePath = none → e.name ≠ []) ∧
    ∃ f ∈ entries, f.relativePath = none ∧ (placeNames e).head? = some f.name

instance (entries : List RemoteEntry) : Decidable (Rooted entries) :=
  inferInstanceAs (Decidable (∀ _ ∈ _, _ ∧ ∃ _ ∈ _, _))

/-! ## The disk -/

/-- What a fallible step keeps, it keeps over a list. -/
theorem foldlM_keeps {σ α : Type} {step : σ → α → Option σ} {P : σ → Prop}
    (hstep : ∀ s x s', step s x = some s' → P s → P s') {xs : List α} {s s' : σ}
    (h : xs.foldlM step s = some s') (hs : P s) : P s' := by
  induction xs generalizing s with
  | nil =>
    cases h
    exact hs
  | cons x xs ih =>
    rw [List.foldlM_cons] at h
    obtain ⟨t, hx, hxs⟩ := Option.bind_eq_some_iff.mp h
    exact ih hxs (hstep s x t hx hs)

/-- What a fallible step establishes for its element, and keeps for others, it establishes for
every element of a list. -/
theorem foldlM_establishes {σ α : Type} {step : σ → α → Option σ} {R : α → σ → Prop}
    (hstep : ∀ s x s', step s x = some s' → R x s')
    (hkeep : ∀ s x s' y, step s x = some s' → R y s → R y s') {xs : List α} {s s' : σ}
    (h : xs.foldlM step s = some s') : ∀ x ∈ xs, R x s' := by
  induction xs generalizing s with
  | nil => exact fun x hx => absurd hx List.not_mem_nil
  | cons x xs ih =>
    rw [List.foldlM_cons] at h
    obtain ⟨t, hx, hxs⟩ := Option.bind_eq_some_iff.mp h
    intro y hy
    rcases List.mem_cons.mp hy with rfl | hrest
    · exact foldlM_keeps (fun a z a' hz => hkeep a z a' y hz) hxs (hstep s y t hx)
    · exact ih hxs y hrest

/-- Something is at a place. -/
def Exists (place : List Component) (disk : Disk) : Prop := disk place ≠ none

variable {disk disk' : Disk}

/-- Directories that are made are there, and what was there still is. -/
theorem exists_createDirAll {place : List Component} (h : createDirAll place disk = some disk') :
    Exists place disk' ∧ ∀ q, Exists q disk → Exists q disk' := by
  obtain ⟨-, heq⟩ := Option.ite_none_left_eq_some.mp h
  cases heq
  constructor
  · simp [Exists]
  · intro q hq
    change (if _ then _ else _) ≠ none
    split
    · exact Option.some_ne_none _
    · exact hq

theorem exists_createParent {p : Path}
    (h : createParent p disk = some disk') (q : List Component) (hq : Exists q disk) :
    Exists q disk' := by
  unfold createParent at h
  split at h
  · exact (exists_createDirAll h).2 q hq
  · cases h
    exact hq

/-- A file that is made is there, and what was there still is. -/
theorem exists_createFile {p : Path} (h : createFile p disk = some disk') :
    Exists (components p) disk' ∧ ∀ q, Exists q disk → Exists q disk' := by
  obtain ⟨-, heq⟩ := Option.ite_none_left_eq_some.mp h
  cases heq
  constructor
  · simp [Exists]
  · intro q hq
    change (if _ then _ else _) ≠ none
    split
    · exact Option.some_ne_none _
    · exact hq

variable {planned : List (RemoteEntry × Path)}

/-- The planned directories are made, and what was there still is. -/
theorem exists_createDirs (h : createDirs planned disk = some disk') :
    ∀ x ∈ planned, x.1.isDir = true → Exists (components x.2) disk' := by
  have hall := foldlM_establishes (R := fun place disk => Exists place disk)
    (fun s x s' hx => (exists_createDirAll hx).1)
    (fun s x s' y hx hy => (exists_createDirAll hx).2 y hy) h
  intro x hx hdir
  refine hall (components x.2) ?_
  rw [plannedDirs, List.mem_insertionSort]
  exact List.mem_map_of_mem (List.mem_filter.mpr ⟨hx, hdir⟩)

/-! ## The plan -/

variable {root : Path} {entries : List RemoteEntry}

/-- Every entry is planned at its destination. -/
theorem mem_plan (h : plan root entries = some planned) :
    (∀ x ∈ planned, x.1 ∈ entries ∧ resolveDest root x.1 = some x.2) ∧
      ∀ e ∈ entries, ∃ p, (e, p) ∈ planned := by
  induction entries generalizing planned with
  | nil =>
    cases h
    exact ⟨fun x hx => absurd hx List.not_mem_nil, fun e he => absurd he List.not_mem_nil⟩
  | cons e entries ih =>
    rw [plan, List.mapM_cons] at h
    obtain ⟨x, hx, hrest⟩ := Option.bind_eq_some_iff.mp h
    obtain ⟨rest, hplan, hcons⟩ := Option.bind_eq_some_iff.mp hrest
    cases hcons
    obtain ⟨p, hp, rfl⟩ := Option.map_eq_some_iff.mp hx
    obtain ⟨hmem, hall⟩ := ih hplan
    constructor
    · intro y hy
      rcases List.mem_cons.mp hy with rfl | hrest
      · exact ⟨List.mem_cons_self, hp⟩
      · exact ⟨List.mem_cons_of_mem _ (hmem y hrest).1, (hmem y hrest).2⟩
    · intro f hf
      rcases List.mem_cons.mp hf with rfl | hrest
      · exact ⟨p, List.mem_cons_self⟩
      · obtain ⟨q, hq⟩ := hall f hrest
        exact ⟨q, List.mem_cons_of_mem _ hq⟩

/-- What is published are the destinations of the entries without a relative path. -/
theorem mem_topLevel (h : plan root entries = some planned) {q : Path} :
    q ∈ topLevel planned ↔
      ∃ f ∈ entries, f.relativePath = none ∧ resolveDest root f = some q := by
  obtain ⟨hmem, hall⟩ := mem_plan h
  rw [topLevel, List.mem_map]
  constructor
  · rintro ⟨x, hx, rfl⟩
    obtain ⟨hplanned, htop⟩ := List.mem_filter.mp hx
    exact ⟨x.1, (hmem x hplanned).1, by simpa using htop, (hmem x hplanned).2⟩
  · rintro ⟨f, hf, htop, hq⟩
    obtain ⟨p, hp⟩ := hall f hf
    have hpq : p = q := by
      have hresolved := (hmem _ hp).2
      rw [hq] at hresolved
      exact (Option.some.inj hresolved).symm
    subst hpq
    exact ⟨(f, p), List.mem_filter.mpr ⟨hp, by simp [htop]⟩, rfl⟩

/-- An entry without a relative path has its name for its place. -/
theorem placeNames_of_top {f : RemoteEntry} (h : f.relativePath = none) :
    placeNames f = if f.name = [] then [] else [f.name] := by
  rw [placeNames, parents, h]
  rfl

/-- If the published paths are there, all entries are published exactly if each is listed under
a top-level one. -/
theorem whole_iff (hplan : plan root entries = some planned)
    (hthere : ∀ x ∈ planned, Exists (components x.2) disk) :
    Whole root entries (topLevel planned) disk ↔ Rooted entries := by
  obtain ⟨hmem, hall⟩ := mem_plan hplan
  have hresolved : ∀ e ∈ entries, ∃ p, resolveDest root e = some p := by
    intro e he
    obtain ⟨p, hp⟩ := hall e he
    exact ⟨p, (hmem _ hp).2⟩
  constructor
  · intro hwhole
    -- A published path has a name, so that it is not the temp directory itself.
    have hnamed : ∀ f ∈ entries, f.relativePath = none → f.name ≠ [] := by
      intro f hf htop hname
      obtain ⟨q, hq⟩ := hresolved f hf
      obtain ⟨name, hdirect⟩ := hwhole.direct q ((mem_topLevel hplan).mpr ⟨f, hf, htop, hq⟩)
      rw [(components_resolveDest hq).2, placeNames_of_top htop, if_pos hname,
        List.append_right_inj] at hdirect
      cases hdirect
    intro e he
    refine ⟨hnamed e he, ?_⟩
    obtain ⟨p, hp⟩ := hresolved e he
    obtain ⟨q, hq, hprefix⟩ := hwhole.covers e he p hp
    obtain ⟨f, hf, htop, hfq⟩ := (mem_topLevel hplan).mp hq
    rw [(components_resolveDest hfq).2, (components_resolveDest hp).2,
      List.prefix_append_right_inj, placeNames_of_top htop, if_neg (hnamed f hf htop)] at hprefix
    refine ⟨f, hf, htop, ?_⟩
    cases hplace : placeNames e with
    | nil =>
      rw [hplace] at hprefix
      exact absurd (List.eq_nil_of_prefix_nil hprefix) (List.cons_ne_nil _ _)
    | cons first rest =>
      rw [hplace] at hprefix
      have hfirst := (List.cons_prefix_cons.mp hprefix).1
      cases hfirst
      rfl
  · intro hrooted
    refine ⟨?_, ?_, ?_⟩
    · intro e he p hp
      obtain ⟨-, f, hf, htop, hhead⟩ := hrooted e he
      obtain ⟨q, hq⟩ := hresolved f hf
      refine ⟨q, (mem_topLevel hplan).mpr ⟨f, hf, htop, hq⟩, ?_⟩
      rw [(components_resolveDest hq).2, (components_resolveDest hp).2,
        List.prefix_append_right_inj, placeNames_of_top htop, if_neg ((hrooted f hf).1 htop)]
      obtain ⟨rest, hplace⟩ := List.head?_eq_some_iff.mp hhead
      rw [hplace]
      exact ⟨rest.map .normal, rfl⟩
    · intro q hq
      obtain ⟨x, hx, rfl⟩ := List.mem_map.mp hq
      exact hthere x (List.mem_filter.mp hx).1
    · intro q hq
      obtain ⟨f, hf, htop, hfq⟩ := (mem_topLevel hplan).mp hq
      refine ⟨f.name, ?_⟩
      rw [(components_resolveDest hfq).2, placeNames_of_top htop, if_neg ((hrooted f hf).1 htop)]
      rfl

/-! ## The pipelines -/

/-- A downloaded file is there, and what was there still is. -/
theorem exists_fetchFile {complete : RemoteEntry → Bool}
    {x : RemoteEntry × Path} (h : fetchFile complete disk x = some disk') :
    Exists (components x.2) disk' ∧ ∀ q, Exists q disk → Exists q disk' := by
  obtain ⟨made, hmade, hrest⟩ := Option.bind_eq_some_iff.mp h
  obtain ⟨created, hcreated, hcomplete⟩ := Option.bind_eq_some_iff.mp hrest
  obtain ⟨-, heq⟩ := Option.ite_none_right_eq_some.mp hcomplete
  cases heq
  obtain ⟨hfile, hkept⟩ := exists_createFile hcreated
  exact ⟨hfile, fun q hq => hkept q (exists_createParent hmade q hq)⟩

/-- The downloading pipeline publishes all entries exactly if each is listed under a top-level
one. -/
theorem spawnRemotePaste_whole_iff {complete : RemoteEntry → Bool} {published : List Path}
    (h : spawnRemotePaste complete root entries disk = some (published, disk')) :
    Whole root entries published disk' ↔ Rooted entries := by
  obtain ⟨planned, hplan, hrest⟩ := Option.bind_eq_some_iff.mp h
  obtain ⟨made, hdirs, hfetched⟩ := Option.bind_eq_some_iff.mp hrest
  obtain ⟨last, hfold, heq⟩ := Option.bind_eq_some_iff.mp hfetched
  cases heq
  have hfiles := foldlM_establishes
    (R := fun (x : RemoteEntry × Path) disk => Exists (components x.2) disk)
    (fun s x s' hx => (exists_fetchFile hx).1)
    (fun s x s' y hx hy => (exists_fetchFile hx).2 _ hy) hfold
  refine whole_iff hplan fun x hx => ?_
  cases hdir : x.1.isDir with
  | true =>
    exact foldlM_keeps (P := Exists (components x.2))
      (fun s y s' hy => (exists_fetchFile hy).2 _) hfold (exists_createDirs hdirs x hx hdir)
  | false => exact hfiles x (List.mem_filter.mpr ⟨hx, by simp [hdir]⟩)

/-- Laying out an entry adds it to what is published if it is at the top level, makes it if it
is a file, and leaves what was there. -/
theorem layOut_spec {acc acc' : List Path × Disk} {x : RemoteEntry × Path}
    (h : layOut acc x = some acc') :
    acc'.1 = acc.1 ++ topLevel [x] ∧
      (x.1.isDir = false → Exists (components x.2) acc'.2) ∧
      ∀ q, Exists q acc.2 → Exists q acc'.2 := by
  have hurls : (if x.1.relativePath.isNone then acc.1 ++ [x.2] else acc.1) =
      acc.1 ++ topLevel [x] := by
    cases htop : x.1.relativePath.isNone <;> simp [topLevel, htop]
  unfold layOut at h
  rw [hurls] at h
  split at h
  · next hdir =>
    cases h
    exact ⟨rfl, fun hfile => absurd (hdir.symm.trans hfile) (by decide), fun q hq => hq⟩
  · obtain ⟨made, hmade, hrest⟩ := Option.bind_eq_some_iff.mp h
    obtain ⟨created, hcreated, heq⟩ := Option.bind_eq_some_iff.mp hrest
    cases heq
    obtain ⟨hfile, hkept⟩ := exists_createFile hcreated
    exact ⟨rfl, fun _ => hfile, fun q hq => hkept q (exists_createParent hmade q hq)⟩

/-- Laying out entries publishes those at the top level. -/
theorem foldlM_layOut_fst {acc acc' : List Path × Disk}
    (h : planned.foldlM layOut acc = some acc') : acc'.1 = acc.1 ++ topLevel planned := by
  induction planned generalizing acc with
  | nil =>
    cases h
    exact (List.append_nil _).symm
  | cons x planned ih =>
    rw [List.foldlM_cons] at h
    obtain ⟨next, hx, hrest⟩ := Option.bind_eq_some_iff.mp h
    have hcons : topLevel (x :: planned) = topLevel [x] ++ topLevel planned := by
      simp only [topLevel, ← List.map_append, ← List.filter_append, List.singleton_append]
    rw [ih hrest, (layOut_spec hx).1, hcons, List.append_assoc]

/-- The pipeline of presenters publishes all entries exactly if each is listed under a
top-level one. -/
theorem spawnLazyPaste_whole_iff
    {published : List Path} (h : spawnLazyPaste root entries disk = some (published, disk')) :
    Whole root entries published disk' ↔ Rooted entries := by
  obtain ⟨-, hrun⟩ := Option.ite_none_left_eq_some.mp h
  obtain ⟨planned, hplan, hrest⟩ := Option.bind_eq_some_iff.mp hrun
  obtain ⟨made, hdirs, hfold⟩ := Option.bind_eq_some_iff.mp hrest
  have hpublished : published = topLevel planned := foldlM_layOut_fst hfold
  subst hpublished
  have hlaid := foldlM_establishes
    (R := fun (x : RemoteEntry × Path) (acc : List Path × Disk) =>
      x.1.isDir = false → Exists (components x.2) acc.2)
    (fun s x s' hx => (layOut_spec hx).2.1)
    (fun s x s' y hx hy hfile => (layOut_spec hx).2.2 _ (hy hfile)) hfold
  refine whole_iff hplan fun x hx => ?_
  cases hdir : x.1.isDir with
  | true =>
    exact foldlM_keeps (P := fun acc : List Path × Disk => Exists (components x.2) acc.2)
      (fun s y s' hy => (layOut_spec hy).2.2 _) hfold (exists_createDirs hdirs x hx hdir)
  | false => exact hlaid x hx hdir

/-- Whichever pipeline lays out a list to its end, all entries are published exactly if each is
listed under a top-level one. -/
theorem pastes_whole_iff (complete : RemoteEntry → Bool) (root : Path)
    (entries : List RemoteEntry) (disk : Disk) :
    (∀ published disk', spawnRemotePaste complete root entries disk = some (published, disk') →
      (Whole root entries published disk' ↔ Rooted entries)) ∧
    ∀ published disk', spawnLazyPaste root entries disk = some (published, disk') →
      (Whole root entries published disk' ↔ Rooted entries) :=
  ⟨fun _ _ h => spawnRemotePaste_whole_iff h, fun _ _ h => spawnLazyPaste_whole_iff h⟩

/-- A disk with a temp directory. -/
def tempDisk (root : Path) : Disk := fun q => if q <+: components root then some .dir else none

/-- A directory with a file in it is published whole. -/
theorem pastes_whole_iff_folder :
    let root := "/tmp/paste".toList
    let entries : List RemoteEntry :=
      [⟨0, "docs".toList, none, true, none⟩, ⟨1, "a".toList, some 3, false, some "docs".toList⟩]
    (∃ published disk', spawnRemotePaste (fun _ => true) root entries (tempDisk root) =
      some (published, disk') ∧ Whole root entries published disk') ∧
    ∃ published disk', spawnLazyPaste root entries (tempDisk root) = some (published, disk') ∧
      Whole root entries published disk' := by
  intro root entries
  have hrooted : Rooted entries := by decide +kernel
  have hboth := pastes_whole_iff (fun _ => true) root entries (tempDisk root)
  have hremote : (spawnRemotePaste (fun _ => true) root entries (tempDisk root)).isSome := by
    decide +kernel
  have hlazy : (spawnLazyPaste root entries (tempDisk root)).isSome := by decide +kernel
  obtain ⟨⟨published, disk₁⟩, hrun⟩ := Option.isSome_iff_exists.mp hremote
  obtain ⟨⟨urls, disk₂⟩, hrun'⟩ := Option.isSome_iff_exists.mp hlazy
  exact ⟨⟨published, disk₁, hrun, (hboth.1 published disk₁ hrun).mpr hrooted⟩,
    urls, disk₂, hrun', (hboth.2 urls disk₂ hrun').mpr hrooted⟩

/-- A file at the top level whose relative path is empty is not published. -/
theorem not_whole_empty_relativePath :
    ¬ ∀ (complete : RemoteEntry → Bool) (root : Path) (entries : List RemoteEntry) (disk : Disk)
      (published : List Path) (disk' : Disk), (entries.map (resolveDest root)).Nodup →
      spawnRemotePaste complete root entries disk = some (published, disk') →
      Whole root entries published disk' := by
  intro hall
  let root := "/tmp/paste".toList
  let e : RemoteEntry := ⟨0, "a.txt".toList, some 3, false, some []⟩
  have hremote : (spawnRemotePaste (fun _ => true) root [e] (tempDisk root)).isSome := by
    decide +kernel
  obtain ⟨⟨published, disk'⟩, hrun⟩ := Option.isSome_iff_exists.mp hremote
  have hnone : ((spawnRemotePaste (fun _ => true) root [e] (tempDisk root)).map Prod.fst) =
      some [] := by
    decide +kernel
  rw [hrun] at hnone
  have hpublished : published = [] := Option.some.inj hnone
  have hwhole := hall (fun _ => true) root [e] (tempDisk root) published disk'
    (List.nodup_singleton _) hrun
  obtain ⟨q, hq, -⟩ := hwhole.covers e List.mem_cons_self "/tmp/paste/a.txt".toList
    (by decide +kernel)
  rw [hpublished] at hq
  cases hq

end Macrdp.PastePublication
