import Mathlib.Algebra.Order.Ring.Nat
import Mathlib.Data.List.Basic

/-!
# Wrapping 32-bit sequence numbers

Items are numbered from an arbitrary start, modulo `2 ^ 32`. Within fewer than
`2 ^ 32` items a number names one item, and within `2 ^ 31` the wrapping
comparison agrees with the order of the items.
-/

namespace Macrdp.SerialNumber

variable {α : Type*}

/-- The number of the item at position `n` of a sequence that starts at `base`. -/
def serial (base : UInt32) (n : ℕ) : UInt32 := base + UInt32.ofNat n

/-- `a` is not ahead of `b` by the sign of their wrapping difference. -/
def leq (a b : UInt32) : Bool := decide (b - a < 0x80000000)

theorem serial_toNat (base : UInt32) (n : ℕ) :
    (serial base n).toNat = (base.toNat + n) % 2 ^ 32 := by
  simp [serial]

@[simp] theorem serial_zero (base : UInt32) : serial base 0 = base := by
  apply UInt32.toNat.inj
  rw [serial_toNat, Nat.add_zero, Nat.mod_eq_of_lt base.toNat_lt]

/-- Numbers are counted on across a split of the sequence. -/
theorem serial_add (base : UInt32) (m n : ℕ) : serial (serial base m) n = serial base (m + n) := by
  apply UInt32.toNat.inj
  simp only [serial_toNat]
  omega

/-- The next number is one more. -/
theorem serial_succ (base : UInt32) (n : ℕ) : serial base n + 1 = serial base (n + 1) :=
  serial_add base n 1

/-- One less than the first number of a sequence numbers nothing of it. -/
theorem serial_sub_one (base : UInt32) (n : ℕ) : serial (base + 1) n - 1 = serial base n := by
  have hbase : serial (base + 1) n = serial base n + 1 := by
    rw [serial_succ, Nat.add_comm n 1]
    exact serial_add base 1 n
  apply UInt32.toNat.inj
  rw [hbase]
  simp

/-- The distance of two numbers counts the items between them. -/
theorem serial_sub (base : UInt32) {i j : ℕ} (h : i ≤ j) :
    (serial base j - serial base i).toNat = (j - i) % 2 ^ 32 := by
  have hi := (serial base i).toNat_lt
  have hj := (serial base j).toNat_lt
  rw [UInt32.toNat_sub]
  simp only [serial_toNat] at hi hj ⊢
  omega

/-- Fewer than `2 ^ 32` items have different numbers. -/
theorem serial_inj {base : UInt32} {i j : ℕ} (hi : i < 2 ^ 32) (hj : j < 2 ^ 32)
    (h : serial base i = serial base j) : i = j := by
  have hnat := congrArg UInt32.toNat h
  simp only [serial_toNat] at hnat
  omega

/-- A later item within half the number space is not behind. -/
theorem leq_serial (base : UInt32) {i j : ℕ} (hij : i ≤ j) (hj : j < i + 2 ^ 31) :
    leq (serial base i) (serial base j) = true := by
  have hsub := serial_sub base hij
  simp only [leq, decide_eq_true_eq, UInt32.lt_iff_toNat_lt, hsub, UInt32.reduceToNat]
  omega

/-- An earlier item within half the number space is behind. -/
theorem not_leq_serial (base : UInt32) {i j : ℕ} (hji : j < i) (hi : i ≤ j + 2 ^ 31) :
    leq (serial base i) (serial base j) = false := by
  have hi' := (serial base i).toNat_lt
  have hj' := (serial base j).toNat_lt
  simp only [leq, decide_eq_false_iff_not, UInt32.lt_iff_toNat_lt, UInt32.toNat_sub,
    UInt32.reduceToNat]
  simp only [serial_toNat] at hi' hj' ⊢
  omega

/-- An item that is not behind another within half the number space is no later. -/
theorem le_of_leq_serial {base : UInt32} {i j : ℕ} (h : leq (serial base i) (serial base j) = true)
    (hi : i ≤ j + 2 ^ 31) : i ≤ j := by
  by_contra hlt
  rw [not_leq_serial base (by omega) hi] at h
  cases h

/-- The items of a sequence with their numbers. -/
def numbered (base : UInt32) : List α → List (UInt32 × α)
  | [] => []
  | x :: xs => (base, x) :: numbered (base + 1) xs

@[simp] theorem numbered_nil (base : UInt32) : numbered base ([] : List α) = [] := rfl

@[simp] theorem numbered_cons (base : UInt32) (x : α) (xs : List α) :
    numbered base (x :: xs) = (base, x) :: numbered (base + 1) xs := rfl

@[simp] theorem length_numbered (base : UInt32) (xs : List α) :
    (numbered base xs).length = xs.length := by
  induction xs generalizing base with
  | nil => rfl
  | cons x xs ih => simp only [numbered_cons, List.length_cons, ih]

@[simp] theorem map_snd_numbered (base : UInt32) (xs : List α) :
    (numbered base xs).map Prod.snd = xs := by
  induction xs generalizing base with
  | nil => rfl
  | cons x xs ih => simp only [numbered_cons, List.map_cons, ih]

/-- The numbers count on across a split. -/
theorem numbered_append (base : UInt32) (xs ys : List α) :
    numbered base (xs ++ ys) = numbered base xs ++ numbered (serial base xs.length) ys := by
  induction xs generalizing base with
  | nil => simp
  | cons x xs ih =>
    have hcount : serial (base + 1) xs.length = serial base (xs.length + 1) := by
      rw [Nat.add_comm]
      exact serial_add base 1 xs.length
    simp only [List.cons_append, numbered_cons, ih, List.length_cons, hcount]

/-- A numbered item is the item at some position with the number of the position. -/
theorem mem_numbered {base q : UInt32} {x : α} {xs : List α} :
    (q, x) ∈ numbered base xs ↔ ∃ k, q = serial base k ∧ xs[k]? = some x := by
  induction xs generalizing base with
  | nil => simp
  | cons y ys ih =>
    have hcount : ∀ k, serial (base + 1) k = serial base (k + 1) := by
      intro k
      rw [Nat.add_comm]
      exact serial_add base 1 k
    simp only [numbered_cons, List.mem_cons, Prod.mk.injEq, ih, hcount]
    constructor
    · rintro (⟨rfl, rfl⟩ | ⟨k, hq, hk⟩)
      · exact ⟨0, by simp, rfl⟩
      · exact ⟨k + 1, hq, hk⟩
    · rintro ⟨k, hq, hk⟩
      cases k with
      | zero =>
        left
        exact ⟨by simpa using hq, by simpa using hk.symm⟩
      | succ k => exact .inr ⟨k, hq, hk⟩

end Macrdp.SerialNumber
