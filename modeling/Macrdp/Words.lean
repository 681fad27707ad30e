import Mathlib.Data.List.DropRight
import Mathlib.Data.List.TakeWhile
import Mathlib.Data.List.Infix

/-!
# Words of a list

The words of a list are its longest runs of elements that are no separators. An infix
without separators lies in one word, and so does what is found in the words once they are
joined again.
-/

namespace Macrdp.Words

variable {α : Type*}

/-- The words of a list, in order. -/
def words (p : α → Bool) (xs : List α) : List (List α) :=
  (xs.splitOnP p).filter fun w => !w.isEmpty

/-- The word around a part of a list, of which the part is in the middle. -/
def around (p : α → Bool) (a s b : List α) : List α :=
  a.rtakeWhile (fun c => !p c) ++ s ++ b.takeWhile (fun c => !p c)

/-- A run that separators or the ends of the list surround. -/
structure IsRun (p : α → Bool) (a w b : List α) : Prop where
  free : ∀ c ∈ w, p c = false
  starts : ∀ c, a.getLast? = some c → p c = true
  ends : ∀ c, b.head? = some c → p c = true

variable {p : α → Bool}

/-- A list has no separator, or one comes first. -/
theorem free_or_first (p : α → Bool) (xs : List α) :
    (∀ c ∈ xs, p c = false) ∨
      ∃ ys sep rest, xs = ys ++ sep :: rest ∧ (∀ c ∈ ys, p c = false) ∧ p sep = true := by
  induction xs with
  | nil => exact Or.inl fun c hc => absurd hc List.not_mem_nil
  | cons x xs ih =>
    cases hx : p x with
    | true => exact Or.inr ⟨[], x, xs, rfl, fun c hc => absurd hc List.not_mem_nil, hx⟩
    | false =>
      rcases ih with hfree | ⟨ys, sep, rest, rfl, hys, hsep⟩
      · exact Or.inl (List.forall_mem_cons.mpr ⟨hx, hfree⟩)
      · exact Or.inr ⟨x :: ys, sep, rest, rfl, List.forall_mem_cons.mpr ⟨hx, hys⟩, hsep⟩

variable {xs w s : List α}

/-- The fields of a list are its runs. -/
theorem mem_splitOnP : w ∈ xs.splitOnP p ↔ ∃ a b, xs = a ++ w ++ b ∧ IsRun p a w b := by
  constructor
  · intro h
    induction hlen : xs.length using Nat.strong_induction_on generalizing xs with
    | _ n ih =>
      rcases free_or_first p xs with hfree | ⟨ys, sep, rest, rfl, hys, hsep⟩
      · rw [List.splitOnP_eq_singleton hfree] at h
        rw [List.mem_singleton.mp h]
        exact ⟨[], [], by simp, hfree, by simp, by simp⟩
      · rw [List.splitOnP_append_cons_of_forall_mem hys _ hsep] at h
        rcases List.mem_cons.mp h with rfl | hrest
        · refine ⟨[], sep :: rest, by simp, hys, by simp, ?_⟩
          intro c hc
          cases hc
          exact hsep
        · rw [List.length_append, List.length_cons] at hlen
          obtain ⟨a, b, hsplit, hrun⟩ := ih rest.length (by omega) hrest rfl
          refine ⟨ys ++ sep :: a, b, by simp [hsplit], hrun.free, ?_, hrun.ends⟩
          intro c hc
          rw [List.getLast?_append_of_ne_nil _ (List.cons_ne_nil _ _)] at hc
          cases ha : a.getLast? with
          | none =>
            rw [List.getLast?_eq_none_iff.mp ha] at hc
            cases hc
            exact hsep
          | some d =>
            rw [List.getLast?_cons, ha] at hc
            cases hc
            exact hrun.starts d ha
  · rintro ⟨a, b, rfl, hrun⟩
    have hmem : w ∈ (w ++ b).splitOnP p := by
      cases b with
      | nil =>
        rw [List.append_nil, List.splitOnP_eq_singleton hrun.free]
        exact List.mem_singleton_self w
      | cons sep b =>
        rw [List.splitOnP_append_cons_of_forall_mem hrun.free _ (hrun.ends sep rfl)]
        exact List.mem_cons_self
    rcases List.eq_nil_or_concat a with rfl | ⟨a, sep, rfl⟩
    · simpa using hmem
    · have hsep : p sep = true := hrun.starts sep (by simp)
      rw [List.append_assoc, List.concat_eq_append, List.append_assoc, List.singleton_append,
        List.splitOnP_append_cons _ _ hsep]
      exact List.mem_append_right _ hmem

/-- The words of a list are its runs that are not empty. -/
theorem mem_words : w ∈ words p xs ↔ w ≠ [] ∧ ∃ a b, xs = a ++ w ++ b ∧ IsRun p a w b := by
  rw [words, List.mem_filter, mem_splitOnP, and_comm]
  cases w <;> simp

/-- A word has no separators. -/
theorem free_of_mem_words (h : w ∈ words p xs) : ∀ c ∈ w, p c = false := by
  obtain ⟨-, a, b, -, hrun⟩ := mem_words.mp h
  exact hrun.free

/-- A separator at its front ends a run. -/
theorem takeWhile_of_ends {b : List α} (h : ∀ c, b.head? = some c → p c = true) :
    b.takeWhile (fun c => !p c) = [] := by
  cases b with
  | nil => rfl
  | cons c b => simp [h c rfl]

/-- A separator at its end starts a run. -/
theorem rtakeWhile_of_starts {a : List α} (h : ∀ c, a.getLast? = some c → p c = true) :
    a.rtakeWhile (fun c => !p c) = [] := by
  rw [List.rtakeWhile, takeWhile_of_ends, List.reverse_nil]
  simpa using h

/-- Behind the elements that are no separators comes a separator. -/
theorem ends_dropWhile {b : List α} (c : α)
    (h : (b.dropWhile (fun c => !p c)).head? = some c) : p c = true := by
  have hhead := List.head?_dropWhile_not (fun c => !p c) b
  rw [h] at hhead
  simpa using hhead

/-- A part without separators lies in the word around it. -/
theorem around_mem_words {a b : List α} (hne : s ≠ []) (hfree : ∀ c ∈ s, p c = false) :
    around p a s b ∈ words p (a ++ s ++ b) := by
  refine mem_words.mpr ⟨by simp [around, hne], a.rdropWhile (fun c => !p c),
    b.dropWhile (fun c => !p c), ?_, ?_, ?_, ?_⟩
  · have ha : a.rdropWhile (fun c => !p c) ++ a.rtakeWhile (fun c => !p c) = a := by
      rw [List.rdropWhile, List.rtakeWhile, ← List.reverse_append, List.takeWhile_append_dropWhile,
        List.reverse_reverse]
    have hb : b.takeWhile (fun c => !p c) ++ b.dropWhile (fun c => !p c) = b :=
      List.takeWhile_append_dropWhile
    calc a ++ s ++ b
        = (a.rdropWhile (fun c => !p c) ++ a.rtakeWhile (fun c => !p c)) ++ s ++
            (b.takeWhile (fun c => !p c) ++ b.dropWhile (fun c => !p c)) := by rw [ha, hb]
      _ = _ := by simp only [around, List.append_assoc]
  · intro c hc
    rw [around, List.append_assoc] at hc
    rcases List.mem_append.mp hc with hleft | hright
    · simpa using List.mem_rtakeWhile_imp hleft
    · rcases List.mem_append.mp hright with hmiddle | hend
      · exact hfree c hmiddle
      · simpa using List.mem_takeWhile_imp hend
  · intro c hc
    rw [List.rdropWhile, List.getLast?_reverse] at hc
    exact ends_dropWhile c hc
  · exact ends_dropWhile

/-- What lies in a word has that word around it. -/
theorem exists_around (h : w ∈ words p xs) (hs : s <:+: w) :
    ∃ a b, xs = a ++ s ++ b ∧ around p a s b = w := by
  obtain ⟨-, a, b, rfl, hrun⟩ := mem_words.mp h
  obtain ⟨c, d, rfl⟩ := hs
  refine ⟨a ++ c, d ++ b, by simp, ?_⟩
  have hc : ∀ x ∈ c, p x = false := fun x hx => hrun.free x (by simp [hx])
  have hd : ∀ x ∈ d, p x = false := fun x hx => hrun.free x (by simp [hx])
  have hleft : (a ++ c).rtakeWhile (fun x => !p x) = c := by
    rw [List.rtakeWhile, List.reverse_append, List.takeWhile_append_of_pos, List.reverse_append,
      List.reverse_reverse]
    · have hstop := rtakeWhile_of_starts hrun.starts
      rw [List.rtakeWhile] at hstop
      rw [hstop, List.nil_append]
    · intro x hx
      simp [hc x (List.mem_reverse.mp hx)]
  have hright : (d ++ b).takeWhile (fun x => !p x) = d := by
    rw [List.takeWhile_append_of_pos fun x hx => by simp [hd x hx],
      takeWhile_of_ends hrun.ends, List.append_nil]
  rw [around, hleft, hright]

/-- What is in a word is in the list. -/
theorem mem_of_mem_words (h : w ∈ words p xs) {c : α} (hc : c ∈ w) : c ∈ xs := by
  obtain ⟨-, a, b, rfl, -⟩ := mem_words.mp h
  exact List.mem_append_left _ (List.mem_append_right _ hc)

/-- Replacing separators by others leaves the words. -/
theorem mem_words_map {q : α → Bool} {f : α → α} (hsep : ∀ c, q (f c) = p c)
    (hword : ∀ c, p c = false → f c = c) : w ∈ words q (xs.map f) ↔ w ∈ words p xs := by
  rw [mem_words, mem_words]
  refine and_congr_right fun _ => ?_
  constructor
  · rintro ⟨a, b, hsplit, hrun⟩
    obtain ⟨front, b', rfl, hfront, rfl⟩ := List.map_eq_append_iff.mp hsplit
    obtain ⟨a', w', rfl, rfl, rfl⟩ := List.map_eq_append_iff.mp hfront
    have hfree : ∀ c ∈ w', p c = false := by
      intro c hc
      rw [← hsep]
      exact hrun.free (f c) (List.mem_map_of_mem hc)
    have hsame : w'.map f = w' :=
      (List.map_congr_left fun c hc => hword c (hfree c hc)).trans (List.map_id w')
    rw [hsame]
    refine ⟨a', b', rfl, hfree, ?_, ?_⟩
    · intro c hc
      rw [← hsep]
      exact hrun.starts (f c) (by rw [List.getLast?_map, hc]; rfl)
    · intro c hc
      rw [← hsep]
      exact hrun.ends (f c) (by rw [List.head?_map, hc]; rfl)
  · rintro ⟨a, b, rfl, hrun⟩
    have hsame : w.map f = w :=
      (List.map_congr_left fun c hc => hword c (hrun.free c hc)).trans (List.map_id w)
    refine ⟨a.map f, b.map f, by rw [List.map_append, List.map_append, hsame], ?_, ?_, ?_⟩
    · intro c hc
      rw [← hsame] at hc
      obtain ⟨d, hd, rfl⟩ := List.mem_map.mp hc
      rw [hsep]
      exact hrun.free d hd
    · intro c hc
      rw [List.getLast?_map] at hc
      obtain ⟨d, hd, rfl⟩ := Option.map_eq_some_iff.mp hc
      rw [hsep]
      exact hrun.starts d hd
    · intro c hc
      rw [List.head?_map] at hc
      obtain ⟨d, hd, rfl⟩ := Option.map_eq_some_iff.mp hc
      rw [hsep]
      exact hrun.ends d hd

/-! ## Joining words -/

/-- What has no separator lies on one side of it. -/
theorem infix_append_cons {x y : List α} {sep : α} (hfree : sep ∉ s) (h : s <:+: x ++ sep :: y) :
    s <:+: x ∨ s <:+: y := by
  obtain ⟨l, r, hsplit⟩ := h
  rw [List.append_assoc] at hsplit
  rcases List.append_eq_append_iff.mp hsplit with ⟨m, hx, hm⟩ | ⟨m, hl, hm⟩
  · rcases List.append_eq_append_iff.mp hm with ⟨k, hk, -⟩ | ⟨k, hk, hy⟩
    · exact Or.inl ⟨l, k, by rw [hx, hk, List.append_assoc]⟩
    · cases k with
      | nil => exact Or.inl ⟨l, [], by rw [hx, hk]; simp⟩
      | cons d k =>
        cases hy
        exact absurd (by rw [hk]; simp) hfree
  · cases m with
    | nil =>
      cases s with
      | nil => exact Or.inl ⟨[], x, rfl⟩
      | cons d s =>
        cases hm
        exact absurd List.mem_cons_self hfree
    | cons d m =>
      cases hm
      exact Or.inr ⟨m, r, by simp⟩

/-- What has no separator lies in one of the words that are joined. -/
theorem exists_of_infix_intercalate {sep : α} (hne : s ≠ []) (hfree : sep ∉ s)
    {ws : List (List α)} (h : s <:+: List.intercalate [sep] ws) : ∃ w ∈ ws, s <:+: w := by
  induction ws with
  | nil => exact absurd (List.eq_nil_of_infix_nil h) hne
  | cons w ws ih =>
    cases ws with
    | nil =>
      rw [List.intercalate_singleton] at h
      exact ⟨w, List.mem_cons_self, h⟩
    | cons v ws =>
      rw [List.intercalate_cons_cons, List.append_assoc, List.singleton_append] at h
      rcases infix_append_cons hfree h with hhead | htail
      · exact ⟨w, List.mem_cons_self, hhead⟩
      · obtain ⟨u, hu, hs⟩ := ih htail
        exact ⟨u, List.mem_cons_of_mem _ hu, hs⟩

/-- Every word is in what the words are joined to. -/
theorem infix_intercalate {sep : List α} {ws : List (List α)} (h : w ∈ ws) :
    w <:+: List.intercalate sep ws := by
  induction ws with
  | nil => exact absurd h List.not_mem_nil
  | cons v ws ih =>
    cases ws with
    | nil =>
      rw [List.mem_singleton.mp h, List.intercalate_singleton]
    | cons u ws =>
      rw [List.intercalate_cons_cons]
      rcases List.mem_cons.mp h with rfl | hrest
      · exact ⟨[], sep ++ List.intercalate sep (u :: ws), by simp⟩
      · exact (ih hrest).trans ⟨v ++ sep, [], by simp⟩

/-- What is in the joined words is in one of them, or separates them. -/
theorem mem_intercalate {sep : List α} {ws : List (List α)} {c : α}
    (h : c ∈ List.intercalate sep ws) : c ∈ sep ∨ ∃ w ∈ ws, c ∈ w := by
  induction ws with
  | nil => exact absurd h List.not_mem_nil
  | cons v ws ih =>
    cases ws with
    | nil =>
      rw [List.intercalate_singleton] at h
      exact Or.inr ⟨v, List.mem_cons_self, h⟩
    | cons u ws =>
      rw [List.intercalate_cons_cons, List.append_assoc] at h
      rcases List.mem_append.mp h with hv | hrest
      · exact Or.inr ⟨v, List.mem_cons_self, hv⟩
      · rcases List.mem_append.mp hrest with hsep | htail
        · exact Or.inl hsep
        · rcases ih htail with hsep | ⟨w, hw, hc⟩
          · exact Or.inl hsep
          · exact Or.inr ⟨w, List.mem_cons_of_mem _ hw, hc⟩

end Macrdp.Words
