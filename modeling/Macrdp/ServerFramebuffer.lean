import Macrdp.Raster

/-!
# Bitmaps and the framebuffer of the server

A bitmap update is an image for a rectangle of the desktop, whose rows may be longer than the
rectangle is wide. A part of it shares its bytes and its stride, so that the last row of a part ends
where the part does. The framebuffer takes the parts that have changed.
-/

namespace Macrdp.ServerFramebuffer

open Raster

universe u

/-- Why a step does not come to an end as it should. -/
inductive Fault where
  /-- An index out of bounds or a number that overflows. -/
  | panic
  /-- A buffer is too small for what is written to it. -/
  | notEnoughBytes
  | failed (message : String)
  deriving DecidableEq, Repr

/-- A computation goes on with what it has. -/
@[simp] theorem ok_bind {α β : Type u} (a : α) (f : α → Except Fault β) : (.ok a >>= f) = f a := rfl

/-- A value that the code takes to be there. -/
def demand {α : Type*} : Option α → Except Fault α
  | some a => .ok a
  | none => .error .panic

@[simp] theorem demand_some {α : Type*} (a : α) : demand (some a) = .ok a := rfl

/-- A 16-bit sum, which must not overflow. -/
def addU16 (a b : ℕ) : Except Fault ℕ := if a + b ≤ 0xFFFF then .ok (a + b) else .error .panic

theorem addU16_eq {a b : ℕ} (h : a + b ≤ 0xFFFF) : addU16 a b = .ok (a + b) := if_pos h

/-- A 16-bit difference, which must not be negative. -/
def subU16 (a b : ℕ) : Except Fault ℕ := if b ≤ a then .ok (a - b) else .error .panic

theorem subU16_eq {a b : ℕ} (h : b ≤ a) : subU16 a b = .ok (a - b) := if_pos h

/-- A 16-bit product, which must not overflow. -/
def mulU16 (a b : ℕ) : Except Fault ℕ := if a * b ≤ 0xFFFF then .ok (a * b) else .error .panic

theorem mulU16_eq {a b : ℕ} (h : a * b ≤ 0xFFFF) : mulU16 a b = .ok (a * b) := if_pos h

/-- How the bytes of a pixel are laid out. -/
inductive PixelFormat where
  | aRgb32 | xRgb32 | aBgr32 | xBgr32 | bgrA32 | bgrX32 | rgbA32 | rgbX32
  deriving DecidableEq, Repr

/-- All formats have pixels of 32 bits. -/
def PixelFormat.bytesPerPixel (_ : PixelFormat) : ℕ := 4

/-- The bytes of a pixel. -/
abbrev Pixel := List UInt8

/-- A bitmap for a rectangle of the desktop. -/
structure BitmapUpdate where
  x : ℕ
  y : ℕ
  width : ℕ
  height : ℕ
  format : PixelFormat
  data : List UInt8
  stride : ℕ
  deriving DecidableEq, Repr

namespace BitmapUpdate

/-- The rectangle of the desktop. -/
def area (b : BitmapUpdate) : Rect := ⟨b.x, b.y, b.width, b.height⟩

/-- The picture on the desktop, where the bitmap has one. -/
def picture (b : BitmapUpdate) : Picture Pixel := fun i j =>
  pixelAt 4 b.data b.stride (i - b.x) (j - b.y)

/-- The bitmap has all its rows and they do not overlap. -/
structure Sound (b : BitmapUpdate) : Prop where
  width_pos : 0 < b.width
  height_pos : 0 < b.height
  wide : b.width * 4 ≤ b.stride
  long : (b.height - 1) * b.stride + b.width * 4 ≤ b.data.length

/-- The part of a bitmap in a rectangle of it, if it is one. -/
def sub (b : BitmapUpdate) (x y width height : ℕ) : Except Fault (Option BitmapUpdate) := do
  let right ← addU16 x width
  if b.width < right then return none
  let bottom ← addU16 y height
  if b.height < bottom then return none
  let bpp := b.format.bytesPerPixel
  let start := y * b.stride + x * bpp
  let stop := start + (height - 1) * b.stride + width * bpp
  let left ← addU16 b.x x
  let top ← addU16 b.y y
  let data ← demand (slice b.data start stop)
  return some { b with x := left, y := top, width := width, height := height, data := data }

/-- The rectangle, moved to where it is on the desktop. -/
def onDesktop (b : BitmapUpdate) (r : Rect) : Rect := ⟨b.x + r.x, b.y + r.y, r.width, r.height⟩

/-- The last row of a part of a bitmap is within the bytes of the bitmap. -/
theorem Sound.part_le {b : BitmapUpdate} (hb : b.Sound) {r : Rect} (hr : r.Fits b.width b.height)
    (hpos : 0 < r.height) :
    r.y * b.stride + r.x * 4 + (r.height - 1) * b.stride + r.width * 4 ≤ b.data.length := by
  obtain ⟨hright, hbottom⟩ := hr
  have hrows : (r.y + (r.height - 1)) * b.stride ≤ (b.height - 1) * b.stride :=
    Nat.mul_le_mul_right _ (by omega)
  have hlong := hb.long
  rw [Nat.add_mul] at hrows
  omega

/-- A part in a rectangle of a bitmap shows what the bitmap does there, and has no byte after its last
row. -/
theorem sub_eq {b : BitmapUpdate} (hb : b.Sound) (hx : b.x + b.width ≤ 0xFFFF)
    (hy : b.y + b.height ≤ 0xFFFF) {r : Rect} (hr : r.Fits b.width b.height)
    (hwidth : 0 < r.width) (hheight : 0 < r.height) :
    ∃ t : BitmapUpdate, b.sub r.x r.y r.width r.height = .ok (some t) ∧ t.area = b.onDesktop r ∧
      t.stride = b.stride ∧ t.format = b.format ∧
      t.data.length = (r.height - 1) * b.stride + r.width * 4 ∧
      ∀ i j, (b.onDesktop r).Contains i j → t.picture i j = b.picture i j := by
  have hpart := hb.part_le hr hheight
  obtain ⟨hright, hbottom⟩ := hr
  have hstart : r.y * b.stride + r.x * 4 ≤
      r.y * b.stride + r.x * 4 + (r.height - 1) * b.stride + r.width * 4 := by omega
  have hslice := slice_eq b.data hstart hpart
  have hsub : b.sub r.x r.y r.width r.height = .ok (some
      { b with
        x := b.x + r.x
        y := b.y + r.y
        width := r.width
        height := r.height
        data := (b.data.drop (r.y * b.stride + r.x * 4)).take
          (r.y * b.stride + r.x * 4 + (r.height - 1) * b.stride + r.width * 4 -
            (r.y * b.stride + r.x * 4)) }) := by
    simp only [sub, addU16_eq (show r.x + r.width ≤ 0xFFFF by omega),
      addU16_eq (show r.y + r.height ≤ 0xFFFF by omega),
      addU16_eq (show b.x + r.x ≤ 0xFFFF by omega), addU16_eq (show b.y + r.y ≤ 0xFFFF by omega),
      if_neg (Nat.not_lt.mpr hright), if_neg (Nat.not_lt.mpr hbottom), PixelFormat.bytesPerPixel,
      hslice, ok_bind, demand_some]
    rfl
  refine ⟨_, hsub, rfl, rfl, rfl, ?_, ?_⟩
  · rw [List.length_take, List.length_drop]
    omega
  · intro i j hin
    obtain ⟨⟨hleft, hcol⟩, htop, hrow⟩ := hin
    change b.x + r.x ≤ i at hleft
    change i < b.x + r.x + r.width at hcol
    change b.y + r.y ≤ j at htop
    change j < b.y + r.y + r.height at hrow
    have hcolumn : r.x + (i - (b.x + r.x)) = i - b.x := by omega
    have hline : r.y + (j - (b.y + r.y)) = j - b.y := by omega
    have hrows : (j - (b.y + r.y)) * b.stride ≤ (r.height - 1) * b.stride :=
      Nat.mul_le_mul_right _ (by omega)
    refine (pixelAt_slice b.data (i := i - (b.x + r.x)) (j := j - (b.y + r.y)) ?_).trans ?_
    · omega
    · rw [hcolumn, hline]
      rfl

end BitmapUpdate

/-! ## The framebuffer -/

/-- What the server has sent, as it sees it. -/
structure Framebuffer where
  width : ℕ
  height : ℕ
  format : PixelFormat
  data : List UInt8
  stride : ℕ
  deriving DecidableEq, Repr

namespace Framebuffer

/-- The picture of the framebuffer. -/
def picture (fb : Framebuffer) : Picture Pixel := pixelAt 4 fb.data fb.stride

/-- Copy one row of a bitmap, within the bytes from `start` to `stop`. -/
def updateRow (bitmap : BitmapUpdate) (width start stop stride : ℕ) (data : List UInt8)
    (row : ℕ) : Except Fault (List UInt8) := do
  let src ← demand (slice bitmap.data (row * bitmap.stride) (row * bitmap.stride + width))
  if start + row * stride + width ≤ stop then demand (writeAt data (start + row * stride) src)
  else .error .panic

/-- Copy a bitmap of the same format, row by row. -/
def update (fb : Framebuffer) (bitmap : BitmapUpdate) : Except Fault Framebuffer := do
  if fb.format ≠ bitmap.format then return fb
  let bpp := fb.format.bytesPerPixel
  let start := bitmap.y * fb.stride + bitmap.x * bpp
  let stop := start + (bitmap.height - 1) * fb.stride + bitmap.width * bpp
  let _ ← demand (slice fb.data start stop)
  let data ← (List.range bitmap.height).foldlM
    (updateRow bitmap (bitmap.width * bpp) start stop fb.stride) fb.data
  return { fb with data := data }

/-- Copy the part of a bitmap that a rectangle says has changed; what does not fit is skipped. -/
def updateDiff (bitmap : BitmapUpdate) (fb : Framebuffer) (diff : Rect) :
    Except Fault Framebuffer := do
  if 0xFFFF < diff.x ∨ 0xFFFF < diff.y ∨ 0xFFFF < diff.width ∨ diff.width = 0 ∨
      0xFFFF < diff.height ∨ diff.height = 0 then return fb
  match ← bitmap.sub diff.x diff.y diff.width diff.height with
  | some part => fb.update part
  | none => return fb

/-- Copy all parts of a bitmap that have changed. -/
def updateDiffs (fb : Framebuffer) (bitmap : BitmapUpdate) (diffs : List Rect) :
    Except Fault Framebuffer :=
  diffs.foldlM (updateDiff bitmap) fb

/-- The framebuffer has all its rows and they do not overlap. -/
structure Sound (fb : Framebuffer) : Prop where
  height_pos : 0 < fb.height
  wide : fb.width * 4 ≤ fb.stride
  long : (fb.height - 1) * fb.stride + fb.width * 4 ≤ fb.data.length

/-- Two framebuffers that differ in their bytes only. -/
structure SameShape (fb fb' : Framebuffer) : Prop where
  width : fb'.width = fb.width
  height : fb'.height = fb.height
  format : fb'.format = fb.format
  stride : fb'.stride = fb.stride
  length : fb'.data.length = fb.data.length

theorem SameShape.refl (fb : Framebuffer) : SameShape fb fb := ⟨rfl, rfl, rfl, rfl, rfl⟩

theorem SameShape.trans {fb fb' fb'' : Framebuffer} (h : SameShape fb fb')
    (h' : SameShape fb' fb'') : SameShape fb fb'' :=
  ⟨h'.width.trans h.width, h'.height.trans h.height, h'.format.trans h.format,
    h'.stride.trans h.stride, h'.length.trans h.length⟩

theorem SameShape.sound {fb fb' : Framebuffer} (h : SameShape fb fb') (hfb : fb.Sound) :
    fb'.Sound where
  height_pos := by
    rw [h.height]
    exact hfb.height_pos
  wide := by
    rw [h.width, h.stride]
    exact hfb.wide
  long := by
    rw [h.width, h.height, h.stride, h.length]
    exact hfb.long

/-- The rows of a bitmap that have been copied are those of the bitmap. -/
theorem foldlM_updateRow {fb : Framebuffer} (hfb : fb.Sound) {part : BitmapUpdate}
    (hpart : part.Sound) (hfits : part.area.Fits fb.width fb.height) (n : ℕ)
    (hn : n ≤ part.height) :
    ∃ data, (List.range n).foldlM
        (updateRow part (part.width * 4) (part.y * fb.stride + part.x * 4)
          (part.y * fb.stride + part.x * 4 + (part.height - 1) * fb.stride + part.width * 4)
          fb.stride) fb.data = .ok data ∧ data.length = fb.data.length ∧
      ∀ i j, (i + 1) * 4 ≤ fb.stride → pixelAt 4 data fb.stride i j =
        if (⟨part.x, part.y, part.width, n⟩ : Rect).Contains i j then part.picture i j
        else pixelAt 4 fb.data fb.stride i j := by
  obtain ⟨hright, hbottom⟩ := hfits
  change part.x + part.width ≤ fb.width at hright
  change part.y + part.height ≤ fb.height at hbottom
  have hwide := hfb.wide
  induction n with
  | zero =>
    refine ⟨fb.data, rfl, rfl, fun i j _ => (if_neg ?_).symm⟩
    rintro ⟨-, htop, hbelow⟩
    change part.y ≤ j at htop
    change j < part.y + 0 at hbelow
    omega
  | succ n ih =>
    obtain ⟨data, hfold, hlength, hpixels⟩ := ih (by omega)
    have hrows : (n + 1 - 1) * part.stride ≤ (part.height - 1) * part.stride :=
      Nat.mul_le_mul_right _ (by omega)
    have hlong := hpart.long
    rw [Nat.add_sub_cancel] at hrows
    have hsrcEnd : n * part.stride + part.width * 4 ≤ part.data.length := by omega
    have hsrc := slice_eq part.data (Nat.le_add_right _ _) hsrcEnd
    rw [Nat.add_sub_cancel_left] at hsrc
    have hsrcLength : ((part.data.drop (n * part.stride)).take (part.width * 4)).length =
        part.width * 4 := by
      rw [List.length_take, List.length_drop]
      omega
    have hwindow : part.y * fb.stride + part.x * 4 + n * fb.stride + part.width * 4 ≤
        part.y * fb.stride + part.x * 4 + (part.height - 1) * fb.stride + part.width * 4 := by
      have hn' : n * fb.stride ≤ (part.height - 1) * fb.stride :=
        Nat.mul_le_mul_right _ (by omega)
      omega
    have hend : (part.y + n) * fb.stride + (part.x + part.width) * 4 ≤ data.length := by
      have hlast : (part.y + n) * fb.stride ≤ (fb.height - 1) * fb.stride :=
        Nat.mul_le_mul_right _ (by omega)
      have hfbLong := hfb.long
      omega
    obtain ⟨data', hwrite, hlength', hpixels'⟩ :=
      pixelAt_writeAt (x := part.x) (y := part.y + n) hsrcLength (by omega) hend
    have hoffset : part.y * fb.stride + part.x * 4 + n * fb.stride =
        (part.y + n) * fb.stride + part.x * 4 := by ring
    refine ⟨data', ?_, hlength'.trans hlength, fun i j hi => ?_⟩
    · rw [List.range_succ, List.foldlM_append, hfold, ok_bind, List.foldlM_cons, updateRow, hsrc,
        demand_some, ok_bind, if_pos hwindow, hoffset, hwrite]
      rfl
    · rw [hpixels' i j hi, hpixels i j hi]
      by_cases hrow : (part.x ≤ i ∧ i < part.x + part.width) ∧ j = part.y + n
      · obtain ⟨hcols, rfl⟩ := hrow
        have hin : (⟨part.x, part.y, part.width, n + 1⟩ : Rect).Contains i (part.y + n) :=
          ⟨hcols, Nat.le_add_right _ _, by change part.y + n < part.y + (n + 1); omega⟩
        have hcol : i - part.x < part.width := by omega
        rw [if_pos ⟨hcols, rfl⟩, if_pos hin, BitmapUpdate.picture, Nat.add_sub_cancel_left,
          pixelAt_row part.data hcol]
      · rw [if_neg hrow]
        have hsame : (⟨part.x, part.y, part.width, n + 1⟩ : Rect).Contains i j ↔
            (⟨part.x, part.y, part.width, n⟩ : Rect).Contains i j := by
          simp only [Rect.Contains]
          omega
        simp only [hsame]

/-- A bitmap that lies in the framebuffer is painted over it. -/
theorem update_eq {fb : Framebuffer} (hfb : fb.Sound) {part : BitmapUpdate} (hpart : part.Sound)
    (hfits : part.area.Fits fb.width fb.height) (hformat : fb.format = part.format) :
    ∃ fb', fb.update part = .ok fb' ∧ fb.SameShape fb' ∧
      ∀ i < fb.width, ∀ j, fb'.picture i j =
        if part.area.Contains i j then part.picture i j else fb.picture i j := by
  obtain ⟨data, hfold, hlength, hpixels⟩ :=
    foldlM_updateRow hfb hpart hfits part.height (Nat.le_refl _)
  obtain ⟨hright, hbottom⟩ := hfits
  change part.x + part.width ≤ fb.width at hright
  change part.y + part.height ≤ fb.height at hbottom
  have hend : part.y * fb.stride + part.x * 4 + (part.height - 1) * fb.stride + part.width * 4 ≤
      fb.data.length := by
    have hpos := hpart.height_pos
    have hlast : (part.y + (part.height - 1)) * fb.stride ≤ (fb.height - 1) * fb.stride :=
      Nat.mul_le_mul_right _ (by omega)
    have hlong := hfb.long
    rw [Nat.add_mul] at hlast
    omega
  have hstart : part.y * fb.stride + part.x * 4 ≤
      part.y * fb.stride + part.x * 4 + (part.height - 1) * fb.stride + part.width * 4 := by omega
  have hslice := slice_eq fb.data hstart hend
  refine ⟨{ fb with data := data }, ?_, ⟨rfl, rfl, rfl, rfl, hlength⟩, fun i hi j => ?_⟩
  · rw [update, if_neg (not_not.mpr hformat)]
    simp only [PixelFormat.bytesPerPixel, hslice, demand_some, ok_bind, hfold]
    rfl
  · have hwide := hfb.wide
    exact hpixels i j (by omega)

/-- A part of a bitmap that has changed is painted over the framebuffer. -/
theorem updateDiff_eq {fb : Framebuffer} (hfb : fb.Sound) {b : BitmapUpdate} (hb : b.Sound)
    (hx : b.x + b.width ≤ 0xFFFF) (hy : b.y + b.height ≤ 0xFFFF)
    (hfits : b.area.Fits fb.width fb.height) (hformat : fb.format = b.format) {d : Rect}
    (hd : d.Fits b.width b.height) (hwidth : 0 < d.width) (hheight : 0 < d.height) :
    ∃ fb', updateDiff b fb d = .ok fb' ∧ fb.SameShape fb' ∧
      ∀ i < fb.width, ∀ j, fb'.picture i j =
        if (b.onDesktop d).Contains i j then b.picture i j else fb.picture i j := by
  obtain ⟨part, hsub, harea, hstride, hpartFormat, hlength, hpartPicture⟩ :=
    BitmapUpdate.sub_eq hb hx hy hd hwidth hheight
  obtain ⟨hright, hbottom⟩ := hd
  obtain ⟨hfbRight, hfbBottom⟩ := hfits
  change b.x + b.width ≤ fb.width at hfbRight
  change b.y + b.height ≤ fb.height at hfbBottom
  have hpartWidth : part.width = d.width := congrArg Rect.width harea
  have hpartHeight : part.height = d.height := congrArg Rect.height harea
  have hpart : part.Sound :=
    { width_pos := by omega
      height_pos := by omega
      wide := by
        have hwide := hb.wide
        omega
      long := by
        rw [hlength, hpartWidth, hpartHeight, hstride] }
  have hpartFits : part.area.Fits fb.width fb.height := by
    rw [harea]
    constructor
    · change b.x + d.x + d.width ≤ fb.width
      omega
    · change b.y + d.y + d.height ≤ fb.height
      omega
  obtain ⟨fb', hupdate, hshape, hpicture⟩ :=
    update_eq hfb hpart hpartFits (hformat.trans hpartFormat.symm)
  refine ⟨fb', ?_, hshape, fun i hi j => ?_⟩
  · rw [updateDiff, if_neg (by omega), hsub]
    exact hupdate
  · rw [hpicture i hi j, harea]
    by_cases hin : (b.onDesktop d).Contains i j
    · rw [if_pos hin, if_pos hin, hpartPicture i j hin]
    · rw [if_neg hin, if_neg hin]

/-- All parts that have changed are painted over the framebuffer. -/
theorem updateDiffs_eq {b : BitmapUpdate} (hb : b.Sound) (hx : b.x + b.width ≤ 0xFFFF)
    (hy : b.y + b.height ≤ 0xFFFF) {diffs : List Rect}
    (hdiffs : ∀ d ∈ diffs, d.Fits b.width b.height ∧ 0 < d.width ∧ 0 < d.height)
    {fb : Framebuffer} (hfb : fb.Sound) (hfits : b.area.Fits fb.width fb.height)
    (hformat : fb.format = b.format) :
    ∃ fb', fb.updateDiffs b diffs = .ok fb' ∧ fb.SameShape fb' ∧
      ∀ i < fb.width, ∀ j, fb'.picture i j =
        if ∃ d ∈ diffs, (b.onDesktop d).Contains i j then b.picture i j else fb.picture i j := by
  induction diffs generalizing fb with
  | nil => exact ⟨fb, rfl, .refl fb, fun i _ j => (if_neg (by simp)).symm⟩
  | cons d rest ih =>
    obtain ⟨hd, hwidth, hheight⟩ := hdiffs d List.mem_cons_self
    obtain ⟨mid, hmid, hshape, hpicture⟩ :=
      updateDiff_eq hfb hb hx hy hfits hformat hd hwidth hheight
    have hmidFits : b.area.Fits mid.width mid.height := by
      rw [hshape.width, hshape.height]
      exact hfits
    obtain ⟨fb', hrest, hshape', hpicture'⟩ :=
      ih (fun e he => hdiffs e (List.mem_cons_of_mem d he)) (hshape.sound hfb) hmidFits
        (hshape.format.trans hformat)
    refine ⟨fb', ?_, hshape.trans hshape', fun i hi j => ?_⟩
    · rw [updateDiffs, List.foldlM_cons, hmid]
      exact hrest
    · rw [hpicture' i (by rw [hshape.width]; exact hi) j, hpicture i hi j]
      by_cases hlater : ∃ e ∈ rest, (b.onDesktop e).Contains i j
      · obtain ⟨e, he, hin⟩ := hlater
        rw [if_pos ⟨e, he, hin⟩, if_pos ⟨e, List.mem_cons_of_mem d he, hin⟩]
      · rw [if_neg hlater]
        by_cases hin : (b.onDesktop d).Contains i j
        · rw [if_pos hin, if_pos ⟨d, List.mem_cons_self, hin⟩]
        · rw [if_neg hin, if_neg]
          rintro ⟨e, he, hein⟩
          rcases List.mem_cons.mp he with rfl | he
          · exact hin hein
          · exact hlater ⟨e, he, hein⟩

end Framebuffer

end Macrdp.ServerFramebuffer
