import Macrdp.Words

/-!
# Paths

Paths are texts whose components are parted by slashes. Two paths are the same if their
components are; a path lies below another if it has more components behind the same ones.
-/

namespace Macrdp.UnixPath

/-- A path as it is written. -/
abbrev Path := List Char

/-- What a path is made of. -/
inductive Component where
  | rootDir
  | curDir
  | parentDir
  | normal (name : List Char)
  deriving DecidableEq

/-- The fields between the slashes, empty ones among them. -/
def fields (p : Path) : List (List Char) := p.splitOnP (· == '/')

/-- The component of a field; an empty one and a dot are dropped. -/
def Component.ofField (field : List Char) : Option Component :=
  if field = [] ∨ field = ['.'] then none
  else if field = ['.', '.'] then some .parentDir
  else some (.normal field)

/-- What comes before the components of the fields: the root, or a dot at the front. -/
def leading (p : Path) : List Component :=
  if p.head? = some '/' then [.rootDir]
  else if (fields p).head? = some ['.'] then [.curDir]
  else []

/-- The components of a path. -/
def components (p : Path) : List Component := leading p ++ (fields p).filterMap Component.ofField

/-- Add to a path; an absolute path replaces it. -/
def push (p arg : Path) : Path :=
  if arg.head? = some '/' then arg
  else if p = [] ∨ p.getLast? = some '/' then p ++ arg
  else p ++ '/' :: arg

/-- A field that is a plain name or empty. -/
def Plain (field : List Char) : Prop := '/' ∉ field ∧ field ≠ ['.'] ∧ field ≠ ['.', '.']

instance (field : List Char) : Decidable (Plain field) := inferInstanceAs (Decidable (_ ∧ _))

/-- The components of a plain field. -/
def names (field : List Char) : List Component := if field = [] then [] else [.normal field]

/-- A field without slashes is the only one. -/
theorem fields_of_free {field : List Char} (h : '/' ∉ field) : fields field = [field] := by
  refine List.splitOnP_eq_singleton fun c hc => ?_
  simp only [beq_eq_false_iff_ne, ne_eq]
  rintro rfl
  exact h hc

/-- A slash parts the fields. -/
theorem fields_append_cons (p q : Path) : fields (p ++ '/' :: q) = fields p ++ fields q :=
  List.splitOnP_append_cons p q rfl

/-- The components of a plain field alone. -/
theorem filterMap_plain {field : List Char} (h : Plain field) :
    [field].filterMap Component.ofField = names field := by
  obtain ⟨-, hdot, hparent⟩ := h
  by_cases hnil : field = []
  · simp [Component.ofField, names, hnil]
  · simp [Component.ofField, names, hnil, hdot, hparent]

/-- Behind a path that is not empty, a slash adds the components of the fields behind it. -/
theorem components_append_cons {p : Path} (hp : p ≠ []) {field : List Char} (h : Plain field) :
    components (p ++ '/' :: field) = components p ++ names field := by
  have hlead : leading (p ++ '/' :: field) = leading p := by
    have hhead : (p ++ '/' :: field).head? = p.head? := by
      rw [List.head?_append_of_ne_nil _ hp]
    have hfields : (fields (p ++ '/' :: field)).head? = (fields p).head? := by
      rw [fields_append_cons, List.head?_append_of_ne_nil]
      exact List.splitOnP_ne_nil _ _
    rw [leading, leading, hhead, hfields]
  rw [components, hlead, fields_append_cons, fields_of_free h.1, List.filterMap_append,
    filterMap_plain h, components, List.append_assoc]

/-- A slash at its end makes no difference to a path. -/
theorem components_append_slash {p : Path} (hp : p ≠ []) :
    components (p ++ ['/']) = components p := by
  have h : components (p ++ '/' :: []) = components p ++ names [] :=
    components_append_cons hp (by decide)
  rwa [names, if_pos rfl, List.append_nil] at h

/-- Adding a plain field adds its components. -/
theorem components_push (p : Path) {field : List Char} (h : Plain field) :
    components (push p field) = components p ++ names field := by
  have hrelative : field.head? ≠ some '/' := by
    intro hhead
    exact h.1 (List.mem_of_mem_head? hhead)
  rw [push, if_neg hrelative]
  split
  · next hend =>
    rcases List.eq_nil_or_concat p with rfl | ⟨q, c, rfl⟩
    · have hempty : components [] = [] := by decide +kernel
      rw [hempty, List.nil_append, List.nil_append, components, fields_of_free h.1,
        filterMap_plain h, leading, if_neg hrelative, fields_of_free h.1, if_neg, List.nil_append]
      simpa using h.2.1
    · have hslash : c = '/' := by simpa using hend
      rw [List.concat_eq_append, hslash, List.append_assoc, List.singleton_append]
      by_cases hq : q = []
      · subst hq
        have hroot : components ([] ++ ['/']) = [.rootDir] := by decide +kernel
        rw [hroot, List.nil_append, components, leading]
        have hfields : fields ('/' :: field) = [[], field] := by
          have hsplit := fields_append_cons [] field
          rw [fields_of_free h.1] at hsplit
          exact hsplit
        have hhead : ('/' :: field).head? = some '/' := rfl
        rw [if_pos hhead, hfields, ← filterMap_plain h]
        rfl
      · rw [components_append_cons hq h, components_append_slash hq]
  · next hend =>
    exact components_append_cons (fun hp => hend (Or.inl hp)) h

end Macrdp.UnixPath
