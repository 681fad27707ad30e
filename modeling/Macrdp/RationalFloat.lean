import Mathlib.Algebra.Order.Floor.Ring
import Mathlib.Data.Rat.Floor
import Mathlib.Tactic.Linarith
import Mathlib.Tactic.NormNum
import Mathlib.Tactic.Ring

/-!
# Floating point as exact rationals

Rounding, clamping and the conversions to unsigned words as the floating-point
operations do them, on exact rationals: halves round away from zero, and a
conversion drops the fraction and saturates.
-/

namespace Macrdp.RationalFloat

/-- The nearest integer, halves away from zero. -/
def roundAway (q : ℚ) : ℤ := if 0 ≤ q then ⌊q + 1 / 2⌋ else -⌊1 / 2 - q⌋

/-- The value kept between two limits. -/
def clamp (q low high : ℚ) : ℚ := if q < low then low else if high < q then high else q

/-- Conversion to a 32-bit word. -/
def toUInt32 (q : ℚ) : UInt32 := UInt32.ofNat (min ⌊q⌋.toNat (2 ^ 32 - 1))

/-- Conversion to a 64-bit word. -/
def toUInt64 (q : ℚ) : UInt64 := UInt64.ofNat (min ⌊q⌋.toNat (2 ^ 64 - 1))

/-- A value of a 32-bit word, exactly. -/
def ofUInt32 (w : UInt32) : ℚ := w.toNat

/-- A value of a 64-bit word. -/
def ofUInt64 (w : UInt64) : ℚ := w.toNat

theorem toNat_max32 (a b : UInt32) : (max a b).toNat = max a.toNat b.toNat := by
  have hmax : max a b = if a ≤ b then b else a := rfl
  rw [hmax]
  split
  · next h => rw [Nat.max_eq_right (UInt32.le_iff_toNat_le.mp h)]
  · next h =>
    have hlt := mt UInt32.le_iff_toNat_le.mpr h
    rw [Nat.max_eq_left (by omega)]

theorem toNat_min32 (a b : UInt32) : (min a b).toNat = min a.toNat b.toNat := by
  have hmin : min a b = if a ≤ b then a else b := rfl
  rw [hmin]
  split
  · next h => rw [Nat.min_eq_left (UInt32.le_iff_toNat_le.mp h)]
  · next h =>
    have hlt := mt UInt32.le_iff_toNat_le.mpr h
    rw [Nat.min_eq_right (by omega)]

theorem roundAway_of_nonneg {q : ℚ} (h : 0 ≤ q) : roundAway q = ⌊q + 1 / 2⌋ := if_pos h

theorem roundAway_of_neg {q : ℚ} (h : q < 0) : roundAway q = -⌊1 / 2 - q⌋ :=
  if_neg (not_le.mpr h)

/-- An integer rounds to itself. -/
theorem roundAway_intCast (n : ℤ) : roundAway n = n := by
  rcases le_or_gt (0 : ℚ) n with h | h
  · rw [roundAway_of_nonneg h, Int.floor_intCast_add]
    norm_num
  · have hneg : (1 / 2 : ℚ) - (n : ℚ) = ((-n : ℤ) : ℚ) + 1 / 2 := by push_cast; ring
    rw [roundAway_of_neg h, hneg, Int.floor_intCast_add]
    norm_num

theorem roundAway_natCast (n : ℕ) : roundAway n = n := by
  exact_mod_cast roundAway_intCast n

/-- Rounding keeps the order. -/
theorem roundAway_mono {p q : ℚ} (h : p ≤ q) : roundAway p ≤ roundAway q := by
  rcases le_or_gt (0 : ℚ) p with hp | hp
  · rw [roundAway_of_nonneg hp, roundAway_of_nonneg (hp.trans h)]
    exact Int.floor_mono (by linarith)
  · rw [roundAway_of_neg hp]
    rcases le_or_gt (0 : ℚ) q with hq | hq
    · rw [roundAway_of_nonneg hq]
      have hlow : 0 ≤ ⌊q + 1 / 2⌋ := Int.floor_nonneg.mpr (by linarith)
      have hhigh : 0 ≤ ⌊1 / 2 - p⌋ := Int.floor_nonneg.mpr (by linarith)
      omega
    · rw [roundAway_of_neg hq]
      exact neg_le_neg (Int.floor_mono (by linarith))

/-- Up to a half above a natural number rounds down to it. -/
theorem roundAway_natCast_add_of_lt {n : ℕ} {d : ℚ} (hd : 0 ≤ d) (h : d < 1 / 2) :
    roundAway (n + d) = n := by
  have hfloor : ⌊d + 1 / 2⌋ = 0 := Int.floor_eq_iff.mpr ⟨by norm_num; linarith, by norm_num; linarith⟩
  rw [roundAway_of_nonneg (by linarith), add_assoc, Int.floor_natCast_add, hfloor, add_zero]

/-- A half and more above a natural number rounds up. -/
theorem lt_roundAway_natCast_add {n : ℕ} {d : ℚ} (h : 1 / 2 ≤ d) : (n : ℤ) < roundAway (n + d) := by
  have hfloor : 1 ≤ ⌊d + 1 / 2⌋ := Int.le_floor.mpr (by norm_num; linarith)
  rw [roundAway_of_nonneg (by linarith), add_assoc, Int.floor_natCast_add]
  omega

/-- Clamping stays between the limits. -/
theorem clamp_mem {low high : ℚ} (h : low ≤ high) (q : ℚ) :
    low ≤ clamp q low high ∧ clamp q low high ≤ high := by
  unfold clamp
  split
  · exact ⟨le_refl _, h⟩
  · split
    · exact ⟨h, le_refl _⟩
    · exact ⟨not_lt.mp ‹_›, not_lt.mp ‹_›⟩

/-- Clamping is a maximum and a minimum. -/
theorem clamp_eq {low high : ℚ} (h : low ≤ high) (q : ℚ) :
    clamp q low high = max low (min q high) := by
  unfold clamp
  split
  · next hlt => rw [min_eq_left (by linarith), max_eq_left hlt.le]
  · next hge =>
    split
    · next hgt => rw [min_eq_right hgt.le, max_eq_right h]
    · next hle => rw [min_eq_left (not_lt.mp hle), max_eq_right (not_lt.mp hge)]

theorem toUInt32_toNat (q : ℚ) : (toUInt32 q).toNat = min ⌊q⌋.toNat (2 ^ 32 - 1) := by
  rw [toUInt32, UInt32.toNat_ofNat_of_lt']
  have hle := Nat.min_le_right ⌊q⌋.toNat (2 ^ 32 - 1)
  rw [UInt32.size]
  omega

theorem toUInt64_toNat (q : ℚ) : (toUInt64 q).toNat = min ⌊q⌋.toNat (2 ^ 64 - 1) := by
  rw [toUInt64, UInt64.toNat_ofNat_of_lt']
  have hle := Nat.min_le_right ⌊q⌋.toNat (2 ^ 64 - 1)
  rw [UInt64.size]
  omega

/-- A rounded value clamped between two words is the word it converts to. -/
theorem toUInt32_clamp_roundAway {low high : UInt32} (h : low ≤ high) (q : ℚ) :
    ((toUInt32 (clamp (roundAway q) (ofUInt32 low) (ofUInt32 high))).toNat : ℤ) =
      max (low.toNat : ℤ) (min (roundAway q) (high.toNat : ℤ)) := by
  have hle : low.toNat ≤ high.toNat := UInt32.le_iff_toNat_le.mp h
  have hleq : ofUInt32 low ≤ ofUInt32 high := Nat.cast_le.mpr hle
  have hint : clamp (roundAway q) (ofUInt32 low) (ofUInt32 high) =
      ((max (low.toNat : ℤ) (min (roundAway q) high.toNat) : ℤ) : ℚ) := by
    rw [clamp_eq hleq, Int.cast_max, Int.cast_min]
    rfl
  have hhigh := high.toNat_lt
  rw [toUInt32_toNat, hint, Int.floor_intCast]
  omega

end Macrdp.RationalFloat
