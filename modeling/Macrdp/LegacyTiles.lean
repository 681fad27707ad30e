import Macrdp.Raster

/-!
# Tiles of the legacy display

A client without a graphics pipeline is sent bitmaps. The dirty rectangles of a captured sample are
clamped to the frame and split into strips that the client is known to draw; the pixels of each
strip are copied into an update of its own.
-/

namespace Macrdp.LegacyTiles

open Raster

/-- Most pixels of an update, unless it is a single row. -/
def maxBitmapUpdatePixels : ℕ := 1280 * 720

/-- A number as a 16-bit one, if it fits. -/
def tryU16 (v : ℕ) : Option ℕ := if v ≤ 0xFFFF then some v else none

theorem tryU16_eq {v : ℕ} (h : v ≤ 0xFFFF) : tryU16 v = some v := if_pos h

/-! ## Strips -/

/-- Rows of a strip of some width. -/
def stripRows (w : ℕ) : ℕ := (tryU16 (max (maxBitmapUpdatePixels / w) 1)).getD 0xFFFF

theorem stripRows_pos (w : ℕ) : 0 < stripRows w := by
  rw [stripRows, tryU16]
  split
  · exact Nat.lt_of_lt_of_le Nat.zero_lt_one (Nat.le_max_right _ _)
  · decide

/-- A strip has few enough pixels or is a single row. -/
theorem stripRows_le (w : ℕ) : w * stripRows w ≤ maxBitmapUpdatePixels ∨ stripRows w = 1 := by
  have hle : stripRows w ≤ max (maxBitmapUpdatePixels / w) 1 := by
    rw [stripRows, tryU16]
    split
    · exact Nat.le_refl _
    · have hbig : 0xFFFF ≤ max (maxBitmapUpdatePixels / w) 1 := by omega
      exact hbig
  by_cases hone : maxBitmapUpdatePixels / w ≤ 1
  · have hpos := stripRows_pos w
    exact Or.inr (by omega)
  · left
    calc w * stripRows w ≤ w * (maxBitmapUpdatePixels / w) :=
          Nat.mul_le_mul_left w (by omega)
      _ ≤ maxBitmapUpdatePixels := Nat.mul_div_le _ _

/-- The strips of a rectangle from a row on. -/
def stripsFrom (r : Rect) (row : ℕ) : List Rect :=
  if row < r.height then
    let sh := min (stripRows r.width) (r.height - row)
    ⟨r.x, r.y + row, r.width, sh⟩ :: stripsFrom r (row + sh)
  else []
termination_by r.height - row
decreasing_by
  have hpos := stripRows_pos r.width
  omega

/-- The rectangle itself if it is small enough, or else its strips. -/
def splitStrips (r : Rect) : List Rect :=
  if r.width = 0 ∨ r.height = 0 then []
  else if r.width * r.height ≤ maxBitmapUpdatePixels then [r]
  else stripsFrom r 0

/-- A strip of a rectangle. -/
structure IsStrip (r t : Rect) : Prop where
  x_eq : t.x = r.x
  width_eq : t.width = r.width
  top : r.y ≤ t.y
  bottom : t.y + t.height ≤ r.y + r.height
  width_pos : 0 < t.width
  height_pos : 0 < t.height
  small : t.width * t.height ≤ maxBitmapUpdatePixels ∨ t.height = 1

variable {r t : Rect}

/-- Each pass of the loop adds a strip. -/
theorem isStrip_of_mem_stripsFrom {row : ℕ} (hwidth : 0 < r.width)
    (h : t ∈ stripsFrom r row) : IsStrip r t := by
  induction row using stripsFrom.induct r with
  | case1 row hrow sh ih =>
    rw [stripsFrom, if_pos hrow] at h
    rcases List.mem_cons.mp h with rfl | hrest
    · have hpos := stripRows_pos r.width
      have hsmall : r.width * sh ≤ maxBitmapUpdatePixels ∨ sh = 1 := by
        rcases stripRows_le r.width with hfew | hone
        · exact Or.inl (le_trans (Nat.mul_le_mul_left _ (Nat.min_le_left _ _)) hfew)
        · exact Or.inr (by omega)
      exact
        { x_eq := rfl
          width_eq := rfl
          top := Nat.le_add_right _ _
          bottom := by
            change r.y + row + sh ≤ r.y + r.height
            omega
          width_pos := hwidth
          height_pos := by
            change 0 < sh
            omega
          small := hsmall }
    · exact ih hrest
  | case2 row hrow =>
    rw [stripsFrom, if_neg hrow] at h
    exact absurd h List.not_mem_nil

variable {i j pbWidth pbHeight : ℕ}

/-- The loop covers the rows from the one where it is. -/
theorem contains_stripsFrom {row : ℕ} :
    (∃ t ∈ stripsFrom r row, t.Contains i j) ↔ r.Contains i j ∧ r.y + row ≤ j := by
  induction row using stripsFrom.induct r with
  | case1 row hrow sh ih =>
    have hpos := stripRows_pos r.width
    rw [stripsFrom, if_pos hrow, List.exists_mem_cons_iff, ih]
    simp only [Rect.Contains]
    omega
  | case2 row hrow =>
    rw [stripsFrom, if_neg hrow]
    refine iff_of_false (by simp) fun ⟨⟨_, _, hbottom⟩, htop⟩ => ?_
    omega

/-- What a rectangle is split into are strips of it. -/
theorem isStrip_of_mem (h : t ∈ splitStrips r) : IsStrip r t := by
  rw [splitStrips] at h
  split at h
  · exact absurd h List.not_mem_nil
  · rename_i hne
    split at h
    · rename_i hfew
      rw [List.mem_singleton] at h
      rw [h]
      exact
        { x_eq := rfl
          width_eq := rfl
          top := Nat.le_refl _
          bottom := Nat.le_refl _
          width_pos := by omega
          height_pos := by omega
          small := Or.inl hfew }
    · exact isStrip_of_mem_stripsFrom (by omega) h

/-- The strips cover the rectangle, and nothing else. -/
theorem contains_splitStrips : (∃ t ∈ splitStrips r, t.Contains i j) ↔ r.Contains i j := by
  rw [splitStrips]
  split
  · rename_i hempty
    refine iff_of_false (by simp) fun ⟨⟨hleft, hright⟩, htop, hbottom⟩ => ?_
    omega
  · split
    · simp only [List.mem_singleton, exists_eq_left]
    · rw [contains_stripsFrom]
      simp only [Rect.Contains]
      omega

/-- A strip lies in the frame with its rectangle. -/
theorem IsStrip.fits {width height : ℕ} (h : IsStrip r t) (hr : r.Fits width height) :
    t.Fits width height := by
  obtain ⟨hwidth, hheight⟩ := hr
  refine ⟨?_, le_trans h.bottom hheight⟩
  rw [h.x_eq, h.width_eq]
  exact hwidth

/-! ## Dirty rectangles -/

/-- A dirty rectangle, as the capture gives it. -/
structure DirtyRect where
  x : ℤ
  y : ℤ
  width : ℤ
  height : ℤ
  deriving DecidableEq, Repr

/-- A pixel lies in the dirty rectangle. -/
def DirtyRect.Contains (r : DirtyRect) (i j : ℕ) : Prop :=
  (r.x ≤ i ∧ (i : ℤ) < r.x + r.width) ∧ r.y ≤ j ∧ (j : ℤ) < r.y + r.height

instance (r : DirtyRect) (i j : ℕ) : Decidable (r.Contains i j) :=
  inferInstanceAs (Decidable ((_ ∧ _) ∧ _ ∧ _))

/-- The nearest unsigned 32-bit number. -/
def toU32 (v : ℤ) : ℕ := min (max v 0).toNat 0xFFFFFFFF

/-- A dirty rectangle within the frame, if anything of it is. -/
def clampRect (pbWidth pbHeight : ℕ) (r : DirtyRect) : Option Rect := do
  let x ← tryU16 (min (toU32 r.x) pbWidth)
  let y ← tryU16 (min (toU32 r.y) pbHeight)
  let w ← tryU16 (min (toU32 r.width) (pbWidth - x))
  let h ← tryU16 (min (toU32 r.height) (pbHeight - y))
  if w = 0 ∨ h = 0 then none else some ⟨x, y, w, h⟩

/-- Within a frame of 16-bit size the conversions all succeed. -/
theorem clampRect_eq (hwidth : pbWidth ≤ 0xFFFF) (hheight : pbHeight ≤ 0xFFFF) (r : DirtyRect) :
    clampRect pbWidth pbHeight r =
      let x := min (toU32 r.x) pbWidth
      let y := min (toU32 r.y) pbHeight
      let w := min (toU32 r.width) (pbWidth - x)
      let h := min (toU32 r.height) (pbHeight - y)
      if w = 0 ∨ h = 0 then none else some ⟨x, y, w, h⟩ := by
  have hx : min (toU32 r.x) pbWidth ≤ 0xFFFF := by omega
  have hy : min (toU32 r.y) pbHeight ≤ 0xFFFF := by omega
  have hw : min (toU32 r.width) (pbWidth - min (toU32 r.x) pbWidth) ≤ 0xFFFF := by omega
  have hh : min (toU32 r.height) (pbHeight - min (toU32 r.y) pbHeight) ≤ 0xFFFF := by omega
  simp only [clampRect, tryU16_eq hx, tryU16_eq hy, Option.bind_eq_bind, Option.bind_some,
    tryU16_eq hw, tryU16_eq hh]

/-- A clamped rectangle lies in the frame. -/
theorem clampRect_fits (hwidth : pbWidth ≤ 0xFFFF) (hheight : pbHeight ≤ 0xFFFF) {r : DirtyRect}
    (h : clampRect pbWidth pbHeight r = some t) : t.Fits pbWidth pbHeight := by
  rw [clampRect_eq hwidth hheight, Option.ite_none_left_eq_some] at h
  obtain ⟨-, h⟩ := h
  cases h
  constructor
  · change min (toU32 r.x) pbWidth + min (toU32 r.width) (pbWidth - min (toU32 r.x) pbWidth) ≤ pbWidth
    omega
  · change min (toU32 r.y) pbHeight +
      min (toU32 r.height) (pbHeight - min (toU32 r.y) pbHeight) ≤ pbHeight
    omega

/-- A clamped rectangle has the pixels of the frame that the dirty one has. -/
theorem clampRect_contains (hwidth : pbWidth ≤ 0xFFFF)
    (hheight : pbHeight ≤ 0xFFFF) {r : DirtyRect} (hi : i < pbWidth) (hj : j < pbHeight)
    (hin : r.Contains i j) : ∃ t, clampRect pbWidth pbHeight r = some t ∧ t.Contains i j := by
  obtain ⟨⟨hleft, hright⟩, htop, hbottom⟩ := hin
  have hx : min (toU32 r.x) pbWidth ≤ i := by
    rw [toU32]
    omega
  have hy : min (toU32 r.y) pbHeight ≤ j := by
    rw [toU32]
    omega
  have hw : i < min (toU32 r.x) pbWidth +
      min (toU32 r.width) (pbWidth - min (toU32 r.x) pbWidth) := by
    rw [toU32, toU32]
    omega
  have hh : j < min (toU32 r.y) pbHeight +
      min (toU32 r.height) (pbHeight - min (toU32 r.y) pbHeight) := by
    rw [toU32, toU32]
    omega
  rw [clampRect_eq hwidth hheight]
  exact ⟨_, if_neg (by omega), ⟨hx, hw⟩, hy, hh⟩

/-! ## Updates -/

/-- A bitmap for a rectangle of the desktop. -/
structure BitmapUpdate where
  area : Rect
  stride : ℕ
  data : List UInt8
  deriving DecidableEq, Repr

/-- The bytes of a pixel. -/
abbrev Pixel := List UInt8

/-- What the client paints for an update. -/
def BitmapUpdate.patch (u : BitmapUpdate) : Patch Pixel where
  area := u.area
  pixels := pixelAt 4 u.data u.stride

/-- Copy the pixels of a rectangle into an update; the outer `none` stands for a row that is out of
bounds. -/
def rectUpdate (src : List UInt8) (srcStride : ℕ) (r : Rect) : Option (Option BitmapUpdate) :=
  if r.width = 0 ∨ r.height = 0 then some none
  else
    let rowBytes := r.width * 4
    let rows := (List.range r.height).mapM fun row =>
      let srcOff := (r.y + row) * srcStride + r.x * 4
      slice src srcOff (srcOff + rowBytes)
    rows.map fun rows => some { area := r, stride := rowBytes, data := rows.flatten }

/-- Pixels of an image of some size, with a stride that has room for a row. -/
structure Frame (width height : ℕ) where
  src : List UInt8
  strideBytes : ℕ
  wide : width * 4 ≤ strideBytes
  long : ∀ row < height, row * strideBytes + width * 4 ≤ src.length

/-- The picture of a frame. -/
def Frame.picture {width height : ℕ} (f : Frame width height) : Picture Pixel :=
  pixelAt 4 f.src f.strideBytes

/-- Every rectangle of the frame that is not empty gets an update that shows it. -/
theorem rectUpdate_eq {width height : ℕ} (f : Frame width height)
    (hr : r.Fits width height) (hwidth : 0 < r.width) (hheight : 0 < r.height) :
    ∃ u, rectUpdate f.src f.strideBytes r = some (some u) ∧ u.area = r ∧
      u.patch.Shows f.picture := by
  obtain ⟨hright, hbottom⟩ := hr
  have hbounds : ∀ row ∈ List.range r.height,
      (r.y + row) * f.strideBytes + r.x * 4 + r.width * 4 ≤ f.src.length := by
    intro row hrow
    have hlong := f.long (r.y + row) (by have := List.mem_range.mp hrow; omega)
    omega
  have hrows := mapM_slice hbounds
  have hcopied : rectUpdate f.src f.strideBytes r = some (some
      { area := r
        stride := r.width * 4
        data := ((List.range r.height).map fun row =>
          (f.src.drop ((r.y + row) * f.strideBytes + r.x * 4)).take (r.width * 4)).flatten }) := by
    rw [rectUpdate, if_neg (by omega)]
    simp only [hrows, Option.map_some]
  refine ⟨_, hcopied, rfl, ?_⟩
  intro i j hin
  obtain ⟨⟨hleft, hi⟩, htop, hj⟩ := hin
  change r.x ≤ i at hleft
  change i < r.x + r.width at hi
  change r.y ≤ j at htop
  change j < r.y + r.height at hj
  have hlen : ∀ row ∈ (List.range r.height).map fun row =>
      (f.src.drop ((r.y + row) * f.strideBytes + r.x * 4)).take (r.width * 4),
      row.length = r.width * 4 := by
    intro row hrow
    obtain ⟨k, hk, rfl⟩ := List.mem_map.mp hrow
    have hbound := hbounds k hk
    rw [List.length_take, List.length_drop]
    omega
  have hget : ((List.range r.height).map fun row =>
      (f.src.drop ((r.y + row) * f.strideBytes + r.x * 4)).take (r.width * 4))[j - r.y]? =
      some ((f.src.drop (j * f.strideBytes + r.x * 4)).take (r.width * 4)) := by
    have hrow : r.y + (j - r.y) = j := by omega
    rw [List.getElem?_map, List.getElem?_range (by omega), Option.map_some, hrow]
  have hcolumn : r.x + (i - r.x) = i := by omega
  calc pixelAt 4 _ (r.width * 4) (i - r.x) (j - r.y)
      = (((f.src.drop (j * f.strideBytes + r.x * 4)).take (r.width * 4)).drop
          ((i - r.x) * 4)).take 4 := pixelAt_flatten hlen (by omega) hget
    _ = pixelAt 4 ((f.src.drop (j * f.strideBytes + r.x * 4)).take (r.width * 4)) f.strideBytes
          (i - r.x) 0 := by rw [pixelAt, Nat.zero_mul, Nat.zero_add]
    _ = pixelAt 4 f.src f.strideBytes (r.x + (i - r.x)) (j + 0) := pixelAt_slice _ (by omega)
    _ = f.picture i j := by rw [hcolumn]; rfl

end Macrdp.LegacyTiles
