import Mathlib.Data.List.Basic
import Mathlib.Algebra.Order.Ring.Nat

/-!
# Rates of events

The times of some events, in order. Events can be a distance apart, and there can be no more than a
number of them in any interval of a length.
-/

namespace Macrdp.EventRates

/-- Any two events are a distance apart. -/
def Spaced (gap : ℕ) (times : List ℕ) : Prop :=
  times.Pairwise fun earlier later => earlier + gap ≤ later

/-- The events in an interval of a length. -/
def within (span x : ℕ) (times : List ℕ) : List ℕ := times.filter fun t => x ≤ t ∧ t < x + span

/-- No interval of a length has more than a number of events. -/
def Capped (span n : ℕ) (times : List ℕ) : Prop := ∀ x, (within span x times).length ≤ n

/-- The events less than a length ago. -/
def recent (span now : ℕ) (times : List ℕ) : List ℕ := times.filter fun t => now < t + span

variable {gap span n now : ℕ} {times : List ℕ}

/-- An event that is far from the last is far from all. -/
theorem Spaced.concat (h : Spaced gap times) (hlast : ∀ last ∈ times.getLast?, last + gap ≤ now) :
    Spaced gap (times ++ [now]) := by
  refine List.pairwise_append.mpr ⟨h, List.pairwise_singleton _ _, ?_⟩
  intro t ht later hlater
  rw [List.mem_singleton.mp hlater]
  obtain ⟨front, last, rfl⟩ := List.eq_nil_or_concat' times |>.resolve_left (List.ne_nil_of_mem ht)
  have hnow : last + gap ≤ now := hlast last (by rw [List.getLast?_concat]; rfl)
  cases List.mem_append.mp ht with
  | inl hfront =>
    have hbefore := (List.pairwise_append.mp h).2.2 t hfront last List.mem_cons_self
    omega
  | inr hin =>
    rw [List.mem_singleton.mp hin]
    exact hnow

/-- One more event, later than all others, respects the number if there were fewer recently. -/
theorem capped_concat_iff (hspan : 0 < span) (hlatest : ∀ t ∈ times, t ≤ now) :
    Capped span n (times ++ [now]) ↔ Capped span n times ∧ (recent span now times).length < n := by
  have hconcat : ∀ x, within span x (times ++ [now]) =
      within span x times ++ if x ≤ now ∧ now < x + span then [now] else [] := by
    intro x
    rw [within, List.filter_append]
    by_cases h : x ≤ now ∧ now < x + span
    · rw [if_pos h, List.filter_cons_of_pos (by simpa using h), List.filter_nil]
      rfl
    · rw [if_neg h, List.filter_cons_of_neg (by simpa using h), List.filter_nil]
      rfl
  constructor
  · intro h
    constructor
    · intro x
      have hx := h x
      rw [hconcat, List.length_append] at hx
      omega
    · have hx := h (now + 1 - span)
      have hsame : within span (now + 1 - span) times = recent span now times := by
        refine List.filter_congr fun t ht => ?_
        have hle := hlatest t ht
        rw [decide_eq_decide]
        omega
      rw [hconcat, if_pos (by omega), List.length_append, hsame, List.length_singleton] at hx
      exact hx
  · intro h x
    rw [hconcat]
    split
    · next hin =>
      have hsub : (within span x times).length ≤ (recent span now times).length := by
        refine (List.monotone_filter_right times fun t ht => ?_).length_le
        have hbounds := of_decide_eq_true ht
        exact decide_eq_true (by omega)
      rw [List.length_append, List.length_singleton]
      omega
    · rw [List.append_nil]
      exact h.1 x

end Macrdp.EventRates
