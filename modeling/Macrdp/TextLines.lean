import Mathlib.Data.List.DropRight
import Mathlib.Data.List.TakeWhile
import Mathlib.Logic.Function.Basic

/-!
# Texts of assignments

Texts are lists of characters. They are cut into lines at line feeds, trimmed at both ends, and
split at the first sign that separates a key from a value; what the lines assign is a map in which
a later assignment replaces an earlier one.
-/

namespace Macrdp.TextLines

/-- A text without the characters of a kind at its ends. -/
def trim (p : Char → Bool) (s : List Char) : List Char := (s.dropWhile p).rdropWhile p

variable {p q : Char → Bool}
variable {c : Char}

/-- A character that is not trimmed parts the ends. -/
theorem dropWhile_parted (a : List Char) (b : List Char) (hc : p c = false) :
    (a ++ c :: b).dropWhile p = a.dropWhile p ++ c :: b := by
  induction a with
  | nil => simp [hc]
  | cons x a ih =>
    by_cases hx : p x = true
    · simp [hx, ih]
    · simp [hx]

/-- A character that is not trimmed parts the ends. -/
theorem rdropWhile_parted (a : List Char) (b : List Char) (hc : p c = false) :
    (a ++ c :: b).rdropWhile p = a ++ c :: b.rdropWhile p := by
  have hreverse : (a ++ c :: b).reverse = b.reverse ++ c :: a.reverse := by simp
  rw [List.rdropWhile, hreverse, dropWhile_parted b.reverse a.reverse hc]
  simp [List.rdropWhile]

/-- Around a character that is not trimmed, one side loses its beginning and the other its end. -/
theorem trim_parted (a : List Char) (b : List Char) (hc : p c = false) :
    trim p (a ++ c :: b) = a.dropWhile p ++ c :: b.rdropWhile p := by
  rw [trim, dropWhile_parted a b hc, rdropWhile_parted _ b hc]

/-- The ends may be trimmed in either order. -/
theorem dropWhile_rdropWhile (s : List Char) :
    (s.rdropWhile p).dropWhile p = (s.dropWhile p).rdropWhile p := by
  by_cases hall : ∀ c ∈ s, p c = true
  · rw [List.rdropWhile_eq_nil_iff.mpr hall, List.dropWhile_eq_nil_iff.mpr hall]
    rfl
  · push Not at hall
    obtain ⟨c, hmem, hc⟩ := hall
    obtain ⟨a, b, rfl⟩ := List.append_of_mem hmem
    have hc' : p c = false := eq_false_of_ne_true hc
    rw [rdropWhile_parted a b hc', dropWhile_parted a b hc', dropWhile_parted a _ hc',
      rdropWhile_parted _ b hc']

/-- A text whose beginning is trimmed is trimmed to the same. -/
@[simp] theorem trim_dropWhile (s : List Char) : trim p (s.dropWhile p) = trim p s := by
  rw [trim, List.dropWhile_idempotent, trim]

/-- A text whose end is trimmed is trimmed to the same. -/
@[simp] theorem trim_rdropWhile (s : List Char) : trim p (s.rdropWhile p) = trim p s := by
  rw [trim, dropWhile_rdropWhile, List.rdropWhile_idempotent, trim]

/-- A trimmed character at the beginning. -/
theorem trim_cons (s : List Char) (hc : p c = true) : trim p (c :: s) = trim p s := by
  rw [trim, List.dropWhile_cons_of_pos hc, trim]

/-- A trimmed character at the end. -/
theorem trim_concat (s : List Char) (hc : p c = true) : trim p (s ++ [c]) = trim p s := by
  rw [← trim_rdropWhile, List.rdropWhile_concat_pos p s c hc, trim_rdropWhile]

variable {s : List Char}

/-- The beginning of a text is kept if it does not begin with a trimmed character. -/
theorem dropWhile_eq_self_iff : s.dropWhile p = s ↔ s.head?.all (fun c => !p c) = true := by
  cases s with
  | nil => simp
  | cons c s =>
    by_cases hc : p c = true
    · have hlength := (List.dropWhile_suffix p (l := s)).length_le
      have hne : s.dropWhile p ≠ c :: s := fun heq => by
        rw [heq, List.length_cons] at hlength
        omega
      simp [hc, hne]
    · simp [hc]

/-- The end of a text is kept if it does not end with a trimmed character. -/
theorem rdropWhile_eq_self_iff : s.rdropWhile p = s ↔ s.getLast?.all (fun c => !p c) = true := by
  rw [List.rdropWhile, List.reverse_eq_iff, dropWhile_eq_self_iff, List.head?_reverse]

/-- A text is trimmed if neither end is a trimmed character. -/
theorem trim_eq_self_iff :
    trim p s = s ↔ s.head?.all (fun c => !p c) = true ∧ s.getLast?.all (fun c => !p c) = true := by
  rw [← dropWhile_eq_self_iff, ← rdropWhile_eq_self_iff]
  constructor
  · intro h
    have hshort := (List.rdropWhile_prefix p (l := s.dropWhile p)).length_le
    have hsame : (s.dropWhile p).rdropWhile p = s := h
    rw [hsame] at hshort
    have hfirst : s.dropWhile p = s :=
      (List.dropWhile_suffix p).eq_of_length_le hshort
    rw [hfirst] at hsame
    exact ⟨hfirst, hsame⟩
  · rintro ⟨hfirst, hlast⟩
    rw [trim, hfirst, hlast]

/-- The parts of a text before and after a sign, if it has one. -/
def splitOnce (c : Char) (s : List Char) : Option (List Char × List Char) :=
  match s.dropWhile (· ≠ c) with
  | [] => none
  | _ :: value => some (s.takeWhile (· ≠ c), value)

/-- A text without the sign has no parts. -/
theorem splitOnce_eq_none (h : c ∉ s) : splitOnce c s = none := by
  have hnone : s.dropWhile (· ≠ c) = [] := by
    refine List.dropWhile_eq_nil_iff.mpr fun d hd => ?_
    exact decide_eq_true fun heq => h (heq ▸ hd)
  rw [splitOnce, hnone]

/-- A text is parted at the first sign. -/
theorem splitOnce_parted {key : List Char} (value : List Char) (h : c ∉ key) :
    splitOnce c (key ++ c :: value) = some (key, value) := by
  have hkey : ∀ d ∈ key, decide (d ≠ c) = true := fun d hd =>
    decide_eq_true fun heq => h (heq ▸ hd)
  have hdrop : (key ++ c :: value).dropWhile (· ≠ c) = c :: value := by
    rw [List.dropWhile_append_of_pos hkey, List.dropWhile_cons_of_neg (by simp)]
  have htake : (key ++ c :: value).takeWhile (· ≠ c) = key := by
    rw [List.takeWhile_append_of_pos hkey, List.takeWhile_cons_of_neg (by simp), List.append_nil]
  rw [splitOnce, hdrop, htake]

/-- The pieces between the signs have none. -/
theorem not_mem_of_mem_splitOn {piece : List Char} (h : piece ∈ s.splitOn c) : c ∉ piece := by
  induction s generalizing piece with
  | nil =>
    rw [List.splitOn_nil, List.mem_singleton] at h
    rw [h]
    exact List.not_mem_nil
  | cons d s ih =>
    rw [List.splitOn_cons_eq_if_modifyHead] at h
    by_cases hd : d = c
    · rw [if_pos (by simp [hd])] at h
      rcases List.mem_cons.mp h with rfl | hmem
      · exact List.not_mem_nil
      · exact ih hmem
    · rw [if_neg (by simp [hd])] at h
      cases hpieces : s.splitOn c with
      | nil => exact absurd hpieces (List.splitOn_ne_nil c s)
      | cons first others =>
        rw [hpieces, List.modifyHead_cons] at h
        rcases List.mem_cons.mp h with rfl | hmem
        · have hmem : first ∈ s.splitOn c := by
            rw [hpieces]
            exact List.mem_cons_self
          have hfirst : c ∉ first := ih hmem
          simpa [Ne.symm hd] using hfirst
        · exact ih (by rw [hpieces]; exact List.mem_cons_of_mem first hmem)

/-- The map that a list of assignments gives. -/
def assign {κ β : Type*} [DecidableEq κ] (entries : List (κ × β)) : κ → Option β :=
  entries.foldl (fun map e => Function.update map e.1 (some e.2)) fun _ => none

/-- The map in which keys of the same form are the same. -/
def assignBy {κ κ' β : Type*} [DecidableEq κ'] (form : κ → κ') (entries : List (κ × β)) :
    κ → Option β :=
  entries.foldl (fun map e k => if form k = form e.1 then some e.2 else map k) fun _ => none

/-- The values that a list of assignments gives to a key. -/
def given {κ β : Type*} [DecidableEq κ] (entries : List (κ × β)) (k : κ) : List β :=
  (entries.filter fun e => e.1 = k).map Prod.snd

section Assignments

variable {κ β : Type*} [DecidableEq κ]

/-- A further assignment replaces the value of its key. -/
theorem assign_concat (entries : List (κ × β)) (k : κ) (v : β) :
    assign (entries ++ [(k, v)]) = Function.update (assign entries) k (some v) := by
  rw [assign, List.foldl_append]
  rfl

/-- The values of some assignments and then others. -/
@[simp] theorem given_append (first second : List (κ × β)) (k : κ) :
    given (first ++ second) k = given first k ++ given second k := by
  simp [given]

/-- The value of the first assignment. -/
theorem given_cons (k k' : κ) (v : β) (entries : List (κ × β)) :
    given ((k', v) :: entries) k = if k' = k then v :: given entries k else given entries k := by
  by_cases hk : k' = k
  · simp [given, hk]
  · simp [given, hk]

/-- No value is given to a key that no assignment has. -/
theorem given_eq_nil_iff {entries : List (κ × β)} {k : κ} :
    given entries k = [] ↔ ∀ e ∈ entries, e.1 ≠ k := by
  simp [given, List.filter_eq_nil_iff]

/-- A key has the value that was given to it last. -/
theorem assign_eq (entries : List (κ × β)) (k : κ) :
    assign entries k = (given entries k).getLast? := by
  induction entries using List.reverseRecOn with
  | nil => rfl
  | append_singleton entries e ih =>
    obtain ⟨k', v⟩ := e
    rw [assign_concat, given_append, given_cons]
    by_cases hk : k' = k
    · subst hk
      rw [Function.update_self, if_pos rfl]
      exact List.getLast?_concat.symm
    · rw [Function.update_of_ne (Ne.symm hk), if_neg hk, ih]
      exact congrArg List.getLast? (List.append_nil _).symm

/-- What replaces the first assignment of a key is the key's value exactly if no later one gives it
another; the other keys keep theirs. -/
theorem assign_replace_iff {before after : List (κ × β)} {k : κ} {old new : β}
    (hfirst : given before k = []) :
    (∀ x, assign (before ++ (k, new) :: after) x =
        if x = k then some new else assign (before ++ (k, old) :: after) x) ↔
      (given (before ++ (k, old) :: after) k).length ≤ 1 ∨
        (given (before ++ (k, old) :: after) k).getLast? = some new := by
  have hgiven : ∀ v, given (before ++ (k, v) :: after) k = v :: given after k := by
    intro v
    rw [given_append, hfirst, given_cons, if_pos rfl, List.nil_append]
  have hother : ∀ x, x ≠ k → assign (before ++ (k, new) :: after) x =
      assign (before ++ (k, old) :: after) x := by
    intro x hx
    rw [assign_eq, assign_eq, given_append, given_append, given_cons, given_cons,
      if_neg (Ne.symm hx), if_neg (Ne.symm hx)]
  have hkey : assign (before ++ (k, new) :: after) k = some new ↔
      (given (before ++ (k, old) :: after) k).length ≤ 1 ∨
        (given (before ++ (k, old) :: after) k).getLast? = some new := by
    rw [assign_eq, hgiven, hgiven]
    cases given after k with
    | nil | cons v rest => simp
  rw [← hkey]
  constructor
  · intro h
    rw [h k, if_pos rfl]
  · intro h x
    by_cases hx : x = k
    · rw [hx, h, if_pos rfl]
    · rw [hother x hx, if_neg hx]

/-- A key that is of the form of no other assigned key has the value that was given to it. -/
theorem assignBy_eq_assign {κ' : Type*} [DecidableEq κ'] {form : κ → κ'} {entries : List (κ × β)}
    {k : κ} (h : ∀ e ∈ entries, form k = form e.1 → k = e.1) :
    assignBy form entries k = assign entries k := by
  induction entries using List.reverseRecOn with
  | nil => rfl
  | append_singleton entries e ih =>
    obtain ⟨k', v⟩ := e
    have hrest := ih fun e he => h e (List.mem_append_left _ he)
    have hlast : form k = form k' → k = k' := h (k', v) (by simp)
    have hby : assignBy form (entries ++ [(k', v)]) k =
        if form k = form k' then some v else assignBy form entries k := by
      rw [assignBy, List.foldl_append]
      rfl
    rw [hby, assign_concat, hrest]
    by_cases hk : k = k'
    · rw [if_pos (congrArg form hk), hk, Function.update_self]
    · rw [if_neg (fun hform => hk (hlast hform)), Function.update_of_ne hk]

end Assignments

end Macrdp.TextLines
