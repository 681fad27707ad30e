import Macrdp.UnixPath

/-!
# Where a pasted file goes

Every file and directory that a client offers names its place below the directory of the
paste: the components of its relative path, which backslashes part, and its own name. What
leads out of the directory is refused.
-/

namespace Macrdp.PasteDestination

open UnixPath Words

/-- A file or directory of a remote copy. -/
structure RemoteEntry where
  index : Int32
  name : List Char
  size : Option UInt64
  isDir : Bool
  /-- Its directory, `none` at the top level. -/
  relativePath : Option (List Char)
  deriving DecidableEq

/-- Add a component of a relative path; an empty one is passed over. -/
def pushComponent (p : Path) (component : List Char) : Option Path :=
  if component = [] then some p
  else if component = ['.'] ∨ component = ['.', '.'] ∨ '/' ∈ component then none
  else some (push p component)

/-- Where an entry is put on disk, unless it is unsafe. -/
def resolveDest (root : Path) (e : RemoteEntry) : Option Path := do
  let p ← match e.relativePath with
    | some rp => (rp.splitOnP (· == '\\')).foldlM pushComponent root
    | none => some root
  if e.name = ['.'] ∨ e.name = ['.', '.'] ∨ '/' ∈ e.name then none
  else some (push p e.name)

/-- The components of the directory of an entry. -/
def parents (e : RemoteEntry) : List (List Char) :=
  (e.relativePath.map fun rp => words (· == '\\') rp).getD []

/-- The components of an entry: those of its directory and its name. -/
def destNames (e : RemoteEntry) : List (List Char) := parents e ++ [e.name]

/-- No component is special or holds a slash. -/
def Safe (e : RemoteEntry) : Prop := ∀ field ∈ destNames e, Plain field

instance (e : RemoteEntry) : Decidable (Safe e) := inferInstanceAs (Decidable (∀ _ ∈ _, _))

/-- The entry goes strictly below the root, through plain names only. -/
def Contained (root : Path) (e : RemoteEntry) : Prop :=
  ∀ p, resolveDest root e = some p →
    ∃ rest : List (List Char), rest ≠ [] ∧
      components p = components root ++ rest.map .normal ∧ ∀ field ∈ rest, field ≠ [] ∧ Plain field

/-- Entries with different components go to different places. -/
def Apart (root : Path) (e f : RemoteEntry) : Prop :=
  destNames e ≠ destNames f → ∀ p q, resolveDest root e = some p → resolveDest root f = some q →
    components p ≠ components q

/-- The entry has a name, or is refused, or its directory is neither the root nor where the
other entry goes. -/
def Clear (e f : RemoteEntry) : Prop :=
  Safe e → e.name = [] → parents e ≠ [] ∧ parents e ≠ destNames f

/-! ## The destination -/

/-- A component is added unless it is special. -/
theorem pushComponent_eq (p : Path) (component : List Char) :
    pushComponent p component =
      if component = [] then some p
      else if Plain component then some (push p component) else none := by
  have hplain : (component = ['.'] ∨ component = ['.', '.'] ∨ '/' ∈ component) ↔
      ¬ Plain component := by
    simp only [Plain]
    tauto
  simp only [pushComponent, hplain, ite_not]

/-- The components of a relative path are added if they are plain. -/
theorem foldlM_pushComponent (p : Path) (parts : List (List Char)) :
    (∀ q, parts.foldlM pushComponent p = some q →
      (∀ field ∈ parts.filter (fun w => !w.isEmpty), Plain field) ∧
        components q =
          components p ++ (parts.filter fun w => !w.isEmpty).map Component.normal) ∧
    ((∀ field ∈ parts.filter (fun w => !w.isEmpty), Plain field) →
      (parts.foldlM pushComponent p).isSome) := by
  induction parts generalizing p with
  | nil => simp
  | cons part parts ih =>
    rw [List.foldlM_cons, pushComponent_eq]
    by_cases hnil : part = []
    · subst hnil
      simpa using ih p
    · have hkeep : (part :: parts).filter (fun w => !w.isEmpty) =
          part :: parts.filter (fun w => !w.isEmpty) := by
        simp [hnil]
      rw [if_neg hnil, hkeep]
      by_cases hplain : Plain part
      · rw [if_pos hplain, Option.bind_eq_bind, Option.bind_some]
        obtain ⟨hsome, hall⟩ := ih (push p part)
        constructor
        · intro q hq
          obtain ⟨hrest, hcomponents⟩ := hsome q hq
          refine ⟨List.forall_mem_cons.mpr ⟨hplain, hrest⟩, ?_⟩
          rw [hcomponents, components_push p hplain, names, if_neg hnil, List.map_cons,
            List.append_assoc]
          rfl
        · intro h
          exact hall (List.forall_mem_cons.mp h).2
      · rw [if_neg hplain]
        constructor
        · intro q hq
          cases hq
        · intro h
          exact absurd (List.forall_mem_cons.mp h).1 hplain

/-- The components of an entry that are not empty. -/
def placeNames (e : RemoteEntry) : List (List Char) :=
  parents e ++ if e.name = [] then [] else [e.name]

variable {e : RemoteEntry}

/-- The components of the directory of an entry are not empty. -/
theorem ne_nil_of_mem_parents {field : List Char} (h : field ∈ parents e) : field ≠ [] := by
  unfold parents at h
  cases hrp : e.relativePath with
  | none =>
    rw [hrp] at h
    exact absurd h List.not_mem_nil
  | some rp =>
    rw [hrp] at h
    exact (mem_words.mp h).1

theorem ne_nil_of_mem_placeNames {field : List Char} (h : field ∈ placeNames e) : field ≠ [] := by
  rcases List.mem_append.mp h with hparent | hname
  · exact ne_nil_of_mem_parents hparent
  · split at hname
    · cases hname
    · next hne =>
      rw [List.mem_singleton.mp hname]
      exact hne

variable {root : Path}

/-- An entry goes to its components below the root, which are plain. -/
theorem components_resolveDest {p : Path} (h : resolveDest root e = some p) :
    Safe e ∧ components p = components root ++ (placeNames e).map .normal := by
  have hparents : ∃ q, (∀ field ∈ parents e, Plain field) ∧
      components q = components root ++ (parents e).map Component.normal ∧
      (if e.name = ['.'] ∨ e.name = ['.', '.'] ∨ '/' ∈ e.name then none
        else some (push q e.name)) = some p := by
    unfold resolveDest at h
    cases hrp : e.relativePath with
    | none =>
      rw [hrp] at h
      exact ⟨root, by simp [parents, hrp], by simp [parents, hrp], h⟩
    | some rp =>
      rw [hrp] at h
      obtain ⟨q, hq, hname⟩ := Option.bind_eq_some_iff.mp h
      obtain ⟨hplain, hcomponents⟩ := (foldlM_pushComponent root _).1 q hq
      have hwords : parents e = words (· == '\\') rp := by simp [parents, hrp]
      rw [hwords]
      exact ⟨q, hplain, hcomponents, hname⟩
  obtain ⟨q, hplain, hcomponents, hname⟩ := hparents
  obtain ⟨hsafe, hpush⟩ := Option.ite_none_left_eq_some.mp hname
  cases hpush
  have hplainName : Plain e.name := by
    simp only [Plain]
    tauto
  constructor
  · intro field hfield
    rcases List.mem_append.mp hfield with hparent | hlast
    · exact hplain field hparent
    · rw [List.mem_singleton.mp hlast]
      exact hplainName
  · rw [components_push q hplainName, hcomponents, placeNames, names]
    split <;> simp

/-- Only an unsafe entry is refused. -/
theorem resolveDest_isSome (root : Path) (h : Safe e) : ∃ p, resolveDest root e = some p := by
  have hname : Plain e.name := h e.name (List.mem_append_right _ List.mem_cons_self)
  have hsafe : ¬ (e.name = ['.'] ∨ e.name = ['.', '.'] ∨ '/' ∈ e.name) := by
    simp only [Plain] at hname
    tauto
  unfold resolveDest
  cases hrp : e.relativePath with
  | none => exact ⟨push root e.name, by simp [hsafe]⟩
  | some rp =>
    have hwords : parents e = words (· == '\\') rp := by simp [parents, hrp]
    have hplain : ∀ field ∈ words (· == '\\') rp, Plain field := by
      rw [← hwords]
      exact fun field hfield => h field (List.mem_append_left _ hfield)
    obtain ⟨q, hq⟩ := Option.isSome_iff_exists.mp ((foldlM_pushComponent root _).2 hplain)
    exact ⟨push q e.name, by simp [hq, hsafe]⟩

/-! ## Containment -/

/-- Components that are all behind the same ones are the same. -/
theorem placeNames_eq_of_components {p q : Path} {f : RemoteEntry}
    (hp : resolveDest root e = some p) (hq : resolveDest root f = some q) :
    components p = components q ↔ placeNames e = placeNames f := by
  rw [(components_resolveDest hp).2, (components_resolveDest hq).2, List.append_right_inj]
  exact (List.map_injective_iff.mpr fun a b hab => by cases hab; rfl).eq_iff

/-- An entry is contained exactly if it is refused, has a name or lies in a directory. -/
theorem contained_iff (root : Path) (e : RemoteEntry) :
    Contained root e ↔ (Safe e → e.name = [] → parents e ≠ []) := by
  constructor
  · intro h hsafe hname hparents
    obtain ⟨p, hp⟩ := resolveDest_isSome root hsafe
    obtain ⟨rest, hne, hcomponents, -⟩ := h p hp
    rw [(components_resolveDest hp).2, List.append_right_inj] at hcomponents
    have hempty : placeNames e = [] := by simp [placeNames, hname, hparents]
    rw [hempty] at hcomponents
    exact hne (List.map_eq_nil_iff.mp hcomponents.symm)
  · intro h p hp
    obtain ⟨hsafe, hcomponents⟩ := components_resolveDest hp
    refine ⟨placeNames e, ?_, hcomponents, ?_⟩
    · intro hnil
      obtain ⟨hparents, hname⟩ := List.append_eq_nil_iff.mp hnil
      refine h hsafe ?_ hparents
      by_contra hne
      rw [if_neg hne] at hname
      cases hname
    · intro field hfield
      refine ⟨ne_nil_of_mem_placeNames hfield, ?_⟩
      rcases List.mem_append.mp hfield with hparent | hlast
      · exact hsafe field (List.mem_append_left _ hparent)
      · split at hlast
        · cases hlast
        · exact hsafe field (List.mem_append_right _ hlast)

theorem placeNames_of_name (h : e.name ≠ []) : placeNames e = destNames e := by
  rw [placeNames, if_neg h, destNames]

theorem placeNames_of_nameless (h : e.name = []) : placeNames e = parents e := by
  rw [placeNames, if_pos h, List.append_nil]

/-- An entry without a name that goes where another one goes is not apart from it. -/
theorem parents_ne_destNames {f : RemoteEntry} (hsafe : Safe e)
    (hname : e.name = []) (h : Apart root e f) : parents e ≠ destNames f := by
  intro hsame
  have hsafe' : Safe f := by
    intro field hfield
    rw [← hsame] at hfield
    exact hsafe field (List.mem_append_left _ hfield)
  have hname' : f.name ≠ [] := by
    refine ne_nil_of_mem_parents (e := e) ?_
    rw [hsame]
    exact List.mem_append_right _ List.mem_cons_self
  obtain ⟨p, hp⟩ := resolveDest_isSome root hsafe
  obtain ⟨q, hq⟩ := resolveDest_isSome root hsafe'
  have hne : destNames e ≠ destNames f := by
    intro heq
    have hlength := congrArg List.length heq
    rw [← hsame, destNames, List.length_append, List.length_singleton] at hlength
    omega
  refine h hne p q hp hq ((placeNames_eq_of_components hp hq).mpr ?_)
  rw [placeNames_of_nameless hname, placeNames_of_name hname', hsame]

/-- Entries are apart if neither goes, without a name, where the other one goes. -/
theorem apart_of_clear {f : RemoteEntry} (he : Clear e f) (hf : Clear f e) : Apart root e f := by
  intro hne p q hp hq hsame
  have hplace := (placeNames_eq_of_components hp hq).mp hsame
  have hsafe := (components_resolveDest hp).1
  have hsafe' := (components_resolveDest hq).1
  by_cases hname : e.name = []
  · rw [placeNames_of_nameless hname] at hplace
    by_cases hname' : f.name = []
    · rw [placeNames_of_nameless hname'] at hplace
      exact hne (by rw [destNames, destNames, hplace, hname, hname'])
    · rw [placeNames_of_name hname'] at hplace
      exact (he hsafe hname).2 hplace
  · rw [placeNames_of_name hname] at hplace
    by_cases hname' : f.name = []
    · rw [placeNames_of_nameless hname'] at hplace
      exact (hf hsafe' hname').2 hplace.symm
    · rw [placeNames_of_name hname'] at hplace
      exact hne hplace

/-- Entries go strictly below the root and to different places exactly if they have names, or
what stands for a missing name keeps them below the root and apart. -/
theorem contained_and_apart_iff (root : Path) (e f : RemoteEntry) :
    (Contained root e ∧ Contained root f ∧ Apart root e f) ↔ Clear e f ∧ Clear f e := by
  constructor
  · rintro ⟨he, hf, hapart⟩
    have hapart' : Apart root f e := fun hne p q hp hq hsame =>
      hapart hne.symm q p hq hp hsame.symm
    constructor
    · intro hsafe hname
      exact ⟨(contained_iff root e).mp he hsafe hname, parents_ne_destNames hsafe hname hapart⟩
    · intro hsafe hname
      exact ⟨(contained_iff root f).mp hf hsafe hname, parents_ne_destNames hsafe hname hapart'⟩
  · rintro ⟨he, hf⟩
    refine ⟨(contained_iff root e).mpr ?_, (contained_iff root f).mpr ?_, apart_of_clear he hf⟩
    · exact fun hsafe hname => (he hsafe hname).1
    · exact fun hsafe hname => (hf hsafe hname).1

/-- A directory without a name goes to the root itself. -/
theorem not_contained_nameless : ¬ ∀ (root : Path) (e f : RemoteEntry),
    Contained root e ∧ Contained root f ∧ Apart root e f := by
  intro hall
  have hboth := hall "/tmp/paste".toList ⟨0, [], none, true, none⟩ ⟨0, [], none, true, none⟩
  obtain ⟨rest, hne, hcomponents, -⟩ := hboth.1 "/tmp/paste/".toList (by decide +kernel)
  have hroot : components "/tmp/paste/".toList = components "/tmp/paste".toList := by
    decide +kernel
  rw [hroot] at hcomponents
  have hnil := List.append_right_eq_self.mp hcomponents.symm
  exact hne (List.map_eq_nil_iff.mp hnil)

end Macrdp.PasteDestination
