import Mathlib.Data.Nat.Bitwise

/-!
# The size of a session

The desktop size is shared by the capture, the input and the encoder as one packed word. A size
that a client asks for is adopted if it lies in the range of the protocol and differs from the
current one.
-/

namespace Macrdp.SessionSize

/-- A desktop size in pixels. -/
structure DesktopSize where
  width : UInt16
  height : UInt16
  deriving DecidableEq, Repr

/-- A size in one word. -/
def packSize (width height : UInt16) : UInt32 := (width.toUInt32 <<< 16) ||| height.toUInt32

/-- The size in a word. -/
def unpackSize (packed : UInt32) : DesktopSize :=
  ⟨(packed >>> 16).toUInt16, (packed &&& 0xFFFF).toUInt16⟩

/-- The word has the width above the height. -/
theorem packSize_toNat (width height : UInt16) :
    (packSize width height).toNat = width.toNat * 2 ^ 16 + height.toNat := by
  have hwidth := width.toNat_lt
  have hheight := height.toNat_lt
  have hshift : width.toNat <<< 16 < 2 ^ 32 := by
    rw [Nat.shiftLeft_eq]
    omega
  have hor := Nat.shiftLeft_add_eq_or_of_lt hheight width.toNat
  simp only [packSize, UInt32.toNat_or, UInt32.toNat_shiftLeft, UInt16.toNat_toUInt32,
    UInt32.reduceToNat, Nat.reduceMod, Nat.mod_eq_of_lt hshift]
  rw [← hor, Nat.shiftLeft_eq]

/-- What is packed is unpacked. -/
@[simp] theorem unpackSize_packSize (width height : UInt16) :
    unpackSize (packSize width height) = ⟨width, height⟩ := by
  have hwidth := width.toNat_lt
  have hheight := height.toNat_lt
  have hpacked := packSize_toNat width height
  have hmask : (0xFFFF : ℕ) = 2 ^ 16 - 1 := rfl
  simp only [unpackSize, DesktopSize.mk.injEq]
  constructor
  · apply UInt16.toNat.inj
    simp only [UInt32.toNat_toUInt16, UInt32.toNat_shiftRight, hpacked, UInt32.reduceToNat,
      Nat.reduceMod, Nat.shiftRight_eq_div_pow]
    omega
  · apply UInt16.toNat.inj
    simp only [UInt32.toNat_toUInt16, UInt32.toNat_and, hpacked, UInt32.reduceToNat, hmask,
      Nat.and_two_pow_sub_one_eq_mod]
    omega

/-- Whether a size lies in the range of the protocol. -/
def InBand (size : DesktopSize) : Prop :=
  200 ≤ size.width ∧ size.width ≤ 8192 ∧ 200 ≤ size.height ∧ size.height ≤ 8192

instance (size : DesktopSize) : Decidable (InBand size) :=
  inferInstanceAs (Decidable (200 ≤ size.width ∧ size.width ≤ 8192 ∧ 200 ≤ size.height ∧
    size.height ≤ 8192))

/-- The size to switch to, if the client's size is adopted. -/
def adoptClientSize (autoSize : Bool) (current client : DesktopSize) : Option DesktopSize :=
  if autoSize = true ∧ client ≠ current ∧ InBand client then some client else none

/-- Only the client's size is adopted, if it is legal and new. -/
theorem adoptClientSize_some {autoSize : Bool} {current client adopted : DesktopSize}
    (h : adoptClientSize autoSize current client = some adopted) :
    adopted = client ∧ autoSize = true ∧ client ≠ current ∧ InBand client := by
  rw [adoptClientSize] at h
  split at h
  · next hall =>
    cases h
    exact ⟨rfl, hall⟩
  · cases h

/-- After an adoption the size is a legal size of the client, if it may be adopted at all. -/
theorem getD_adoptClientSize {current client : DesktopSize} (h : InBand client) :
    (adoptClientSize true current client).getD current = client := by
  rw [adoptClientSize]
  by_cases hsame : client = current
  · rw [if_neg (fun hall => hall.2.1 hsame), Option.getD_none, hsame]
  · rw [if_pos ⟨rfl, hsame, h⟩, Option.getD_some]

end Macrdp.SessionSize
