import Mathlib.Data.Nat.Count
import Mathlib.Algebra.Group.Nat.Defs
import Mathlib.Algebra.Ring.Periodic

/-!
# Weighted round robin over a ring of slots

The slots of a ring are counted from a start along the numbers, and each is
owned by a class. A turn passes over some slots and serves the owner of the
next. A class none of whose slots is passed over is served at each of its slots,
and so in one round of turns as often as it owns slots of the ring.
-/

namespace Macrdp.RoundRobin

open Function

variable {κ : Type*} {owner : ℕ → κ} {c : κ} {start finish period : ℕ}
  {served : List κ}

/-- Turns taken from a start, in none of which a slot of the class is passed over. -/
inductive Turns (owner : ℕ → κ) (c : κ) : ℕ → List κ → ℕ → Prop where
  /-- No turn is taken. -/
  | nil (start : ℕ) : Turns owner c start [] start
  /-- Some slots are passed over and the owner of the next is served. -/
  | cons {start finish : ℕ} {served : List κ} (passed : ℕ)
      (hpassed : ∀ i < passed, owner (start + i) ≠ c)
      (hrest : Turns owner c (start + passed + 1) served finish) :
      Turns owner c start (owner (start + passed) :: served) finish

/-- Each turn moves past one slot at least. -/
theorem Turns.length_le (h : Turns owner c start served finish) :
    start + served.length ≤ finish := by
  induction h with
  | nil start => exact Nat.le_refl _
  | cons passed hpassed hrest ih =>
    rw [List.length_cons]
    omega

variable [DecidableEq κ]

/-- Slots of a class among the next `len` slots. -/
def visits (owner : ℕ → κ) (c : κ) (start len : ℕ) : ℕ :=
  Nat.count (fun i => owner (start + i) = c) len

/-- Slots a class owns in one round. -/
def weight (owner : ℕ → κ) (period : ℕ) (c : κ) : ℕ := visits owner c 0 period

/-- Visits add up along consecutive stretches of slots. -/
theorem visits_add (owner : ℕ → κ) (c : κ) (start first second : ℕ) :
    visits owner c start (first + second) =
      visits owner c start first + visits owner c (start + first) second := by
  simp only [visits, Nat.count_add, Nat.add_assoc]

/-- A longer stretch has no fewer visits. -/
theorem visits_mono (owner : ℕ → κ) (c : κ) (start : ℕ) {first second : ℕ}
    (h : first ≤ second) : visits owner c start first ≤ visits owner c start second :=
  Nat.count_monotone _ h

/-- A stretch without a slot of the class does not visit it. -/
theorem visits_eq_zero {len : ℕ} (h : ∀ i < len, owner (start + i) ≠ c) :
    visits owner c start len = 0 := by
  induction len with
  | zero => exact Nat.count_zero _
  | succ len ih =>
    have hrest := ih fun i hi => h i (Nat.lt_succ_of_lt hi)
    rw [visits, Nat.count_succ, if_neg (h len (Nat.lt_succ_self len)), Nat.add_zero]
    exact hrest

/-- A whole round visits a class at each of its slots, wherever it starts. -/
theorem visits_period (hp : Periodic owner period) (c : κ) (start : ℕ) :
    visits owner c start period = weight owner period c := by
  have hfirst : Nat.count (fun p => owner p = c) (start + period) =
      Nat.count (fun p => owner p = c) start + visits owner c start period := Nat.count_add _ _ _
  have hsecond : Nat.count (fun p => owner p = c) (period + start) =
      weight owner period c + Nat.count (fun p => owner p = c) start := by
    have hshift : (fun i => owner (period + i) = c) = fun i => owner i = c := by
      funext i
      rw [Nat.add_comm, hp i]
    rw [Nat.count_add, weight, visits]
    simp only [hshift, Nat.zero_add]
  rw [Nat.add_comm period start] at hsecond
  omega

namespace Turns

/-- The class is served at every one of its slots that was moved past. -/
theorem count_eq (h : Turns owner c start served finish) :
    served.count c = visits owner c start (finish - start) := by
  induction h with
  | nil start => simp [visits]
  | @cons start finish served passed hpassed hrest ih =>
    have hle := hrest.length_le
    have hsplit : finish - start = passed + (1 + (finish - (start + passed + 1))) := by omega
    have hone : visits owner c (start + passed) 1 =
        if owner (start + passed) = c then 1 else 0 := by
      rw [visits, Nat.count_succ, Nat.count_zero, Nat.zero_add, Nat.add_zero]
    rw [hsplit, visits_add, visits_add, visits_eq_zero hpassed, hone, ← ih, List.count_cons]
    simp only [beq_iff_eq]
    omega

/-- A round of turns serves the class as often as it owns slots. -/
theorem weight_le (h : Turns owner c start served finish) (hp : Periodic owner period)
    (hround : period ≤ served.length) : weight owner period c ≤ served.count c := by
  have hlen := h.length_le
  calc weight owner period c = visits owner c start period := (visits_period hp c start).symm
    _ ≤ visits owner c start (finish - start) := visits_mono owner c start (by omega)
    _ = served.count c := h.count_eq.symm

end Turns

end Macrdp.RoundRobin
