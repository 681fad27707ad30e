import Mathlib.Order.Lattice
import Mathlib.Data.List.Basic

/-!
# Pages of a sorted list

A list in ascending order of its keys is read in pages: each goes on after the key that the page
before ended with.
-/

namespace Macrdp.SortedPages

variable {α κ : Type*} [LinearOrder κ] {key : α → κ}

/-- In ascending order of the keys. -/
def Ascending (key : α → κ) (l : List α) : Prop := l.Pairwise fun a b => key a < key b

/-- What comes after a key. -/
def after (key : α → κ) (k : κ) (l : List α) : List α := l.filter fun a => k < key a

variable {l : List α}

/-- Everything comes after a key that is below all. -/
theorem after_eq_self {k : κ} (h : ∀ a ∈ l, k < key a) : after key k l = l :=
  List.filter_eq_self.mpr fun a ha => decide_eq_true (h a ha)

theorem mem_after {k : κ} {a : α} : a ∈ after key k l ↔ a ∈ l ∧ k < key a := by
  rw [after, List.mem_filter, decide_eq_true_iff]

/-- What comes after the key of an element is what follows the element. -/
theorem drop_eq_after (h : Ascending key l) {p : ℕ} (hp : p < l.length) :
    l.drop (p + 1) = after key (key l[p]) l := by
  induction l generalizing p with
  | nil => exact absurd hp (Nat.not_lt_zero p)
  | cons a rest ih =>
    obtain ⟨hfirst, hrest⟩ := List.pairwise_cons.mp h
    cases p with
    | zero =>
      have hall : after key (key a) rest = rest := after_eq_self hfirst
      rw [List.getElem_cons_zero, after, List.filter_cons_of_neg (by simp)]
      exact hall.symm
    | succ p =>
      have hp' : p < rest.length := Nat.lt_of_succ_lt_succ hp
      have hbehind : ¬ key rest[p] < key a := not_lt_of_gt (hfirst _ (List.getElem_mem hp'))
      rw [List.getElem_cons_succ, after, List.filter_cons_of_neg (by simpa using hbehind)]
      exact ih hrest hp'

/-- What is not on the first page comes after all that is. -/
theorem mem_take_or_lt (h : Ascending key l) {a : α} (ha : a ∈ l) (m : ℕ) :
    a ∈ l.take m ∨ ∀ b ∈ l.take m, key b < key a := by
  have hsplit : (l.take m ++ l.drop m).Pairwise fun a b => key a < key b := by
    rw [List.take_append_drop]
    exact h
  rw [← List.take_append_drop m l, List.mem_append] at ha
  cases ha with
  | inl ha => exact .inl ha
  | inr ha => exact .inr fun b hb => (List.pairwise_append.mp hsplit).2.2 b hb a ha

/-- What comes after a key is in ascending order. -/
theorem Ascending.after (h : Ascending key l) (k : κ) : Ascending key (SortedPages.after key k l) :=
  List.Pairwise.sublist List.filter_sublist h

/-- So is a page. -/
theorem Ascending.take (h : Ascending key l) (m : ℕ) : Ascending key (l.take m) :=
  List.Pairwise.sublist (List.take_sublist m l) h

/-- The last of an ascending list has the greatest key. -/
theorem Ascending.le_getLast (h : Ascending key l) {a b : α}
    (hlast : l.getLast? = some b) (ha : a ∈ l) : key a ≤ key b := by
  obtain ⟨front, rfl⟩ := List.getLast?_eq_some_iff.mp hlast
  rw [List.mem_append, List.mem_singleton] at ha
  cases ha with
  | inl ha => exact le_of_lt ((List.pairwise_append.mp h).2.2 a ha b (List.mem_singleton_self b))
  | inr ha => rw [ha]

end Macrdp.SortedPages
