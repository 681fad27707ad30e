import Mathlib.Order.Basic
import Mathlib.Data.Int.Order.Basic
import Mathlib.Tactic.Linarith

/-!
# Points and spans of time

A span counts nanoseconds below `2 ^ 64` seconds. A point counts nanoseconds
whose seconds fit a signed 64-bit word. Arithmetic that leaves the range has no
result.
-/

namespace Macrdp.PlatformTime

/-- Nanoseconds of a second. -/
def nanosPerSec : ℕ := 1000000000

/-- A span of time. -/
@[ext] structure Duration where
  /-- Its length. -/
  nanos : ℕ
  /-- The seconds fit a word. -/
  bound : nanos < 2 ^ 64 * nanosPerSec

/-- A point in time. -/
@[ext] structure Instant where
  /-- Its distance from the origin of the clock. -/
  nanos : ℤ
  /-- The seconds are not below the least signed word, -/
  lower : -(2 ^ 63 * nanosPerSec) ≤ nanos
  /-- nor above the greatest. -/
  upper : nanos < 2 ^ 63 * nanosPerSec

instance : LinearOrder Duration :=
  LinearOrder.lift' Duration.nanos fun _ _ h => Duration.ext h

instance : LinearOrder Instant :=
  LinearOrder.lift' Instant.nanos fun _ _ h => Instant.ext h

namespace Duration

theorem le_iff {d e : Duration} : d ≤ e ↔ d.nanos ≤ e.nanos := Iff.rfl

/-- Whole seconds. -/
def fromSecs (secs : UInt64) : Duration where
  nanos := secs.toNat * nanosPerSec
  bound := Nat.mul_lt_mul_of_pos_right secs.toNat_lt (by decide)

/-- The greatest span. -/
def maxValue : Duration := ⟨2 ^ 64 * nanosPerSec - 1, by decide⟩

/-- A multiple, if it is in range. -/
def checkedMul (d : Duration) (factor : UInt32) : Option Duration :=
  if h : d.nanos * factor.toNat < 2 ^ 64 * nanosPerSec then some ⟨d.nanos * factor.toNat, h⟩
  else none

theorem min_nanos (d e : Duration) : (min d e).nanos = min d.nanos e.nanos := by
  rcases le_total d e with h | h
  · rw [min_eq_left h, Nat.min_eq_left (le_iff.mp h)]
  · rw [min_eq_right h, Nat.min_eq_right (le_iff.mp h)]

/-- A multiple within a limit: out of range it would exceed the limit. -/
theorem min_checkedMul (d limit : Duration) (factor : UInt32) :
    (min ((d.checkedMul factor).getD limit) limit).nanos =
      min (d.nanos * factor.toNat) limit.nanos := by
  rw [min_nanos]
  simp only [checkedMul]
  split
  · rfl
  · next h =>
    have hbound := limit.bound
    rw [Option.getD_none, Nat.min_self, Nat.min_eq_right (by omega)]

end Duration

namespace Instant

theorem lt_iff {t u : Instant} : t < u ↔ t.nanos < u.nanos := Iff.rfl

theorem le_iff {t u : Instant} : t ≤ u ↔ t.nanos ≤ u.nanos := Iff.rfl

/-- Whole seconds after the origin. -/
def fromSecs (secs : UInt32) : Instant where
  nanos := secs.toNat * nanosPerSec
  lower := by
    have hsecs : (nanosPerSec : ℤ) = 1000000000 := rfl
    rw [hsecs]
    omega
  upper := by
    have hlt := secs.toNat_lt
    have hsecs : (nanosPerSec : ℤ) = 1000000000 := rfl
    rw [hsecs]
    omega

/-- An earlier point, if it is in range. -/
def checkedSub (t : Instant) (d : Duration) : Option Instant :=
  if h : -(2 ^ 63 * nanosPerSec) ≤ t.nanos - d.nanos then
    some ⟨t.nanos - d.nanos, h, by have := t.upper; omega⟩
  else none

/-- A later point; `none` is the panic of one out of range. -/
def add (t : Instant) (d : Duration) : Option Instant :=
  if h : t.nanos + d.nanos < 2 ^ 63 * nanosPerSec then
    some ⟨t.nanos + d.nanos, by have := t.lower; omega, h⟩
  else none

/-- The span since an earlier point, empty if the point is later. -/
def saturatingDurationSince (t earlier : Instant) : Duration where
  nanos := (t.nanos - earlier.nanos).toNat
  bound := by
    have hupper := t.upper
    have hlower := earlier.lower
    have hsecs : (nanosPerSec : ℤ) = 1000000000 := rfl
    omega

theorem add_some {t u : Instant} {d : Duration} (h : t.add d = some u) :
    u.nanos = t.nanos + d.nanos := by
  simp only [add] at h
  split at h
  · cases h
    rfl
  · cases h

/-- A point that is out of range is before every point. -/
theorem checkedSub_lt_iff {t u : Instant} {d : Duration} :
    (∃ c, t.checkedSub d = some c ∧ u < c) ↔ u.nanos < t.nanos - d.nanos := by
  simp only [checkedSub]
  split
  · constructor
    · rintro ⟨c, hc, hlt⟩
      cases hc
      exact hlt
    · intro hlt
      exact ⟨_, rfl, hlt⟩
  · next h =>
    have hlower := u.lower
    constructor
    · rintro ⟨c, hc, -⟩
      cases hc
    · intro hlt
      omega

end Instant
end Macrdp.PlatformTime
