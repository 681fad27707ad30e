import Macrdp.Raster

/-!
# Two subsampled frames for one

A frame with a value of each plane for every pixel is split into two frames whose colour planes have
half the width and height: the even columns of the even rows, the odd columns of the even rows, and,
in strips of eight lines in the brightness plane of the second frame, the odd rows. What is expected
is that the two passes of the receiver undo it, for every even size and all strides.
-/

namespace Macrdp.Avc444

open Raster

/-! ## Planes -/

/-- A plane that is stored row by row. -/
structure Plane where
  data : List UInt8
  stride : ℕ
  deriving DecidableEq

/-- The planes of a frame. -/
structure Planes where
  y : Plane
  u : Plane
  v : Plane
  deriving DecidableEq

namespace Plane

/-- The first values of a row. -/
def row (p : Plane) (width y : ℕ) : Option (List UInt8) :=
  slice p.data (y * p.stride) (y * p.stride + width)

/-- Put values at the start of a row. -/
def setRow (p : Plane) (y : ℕ) (values : List UInt8) : Option Plane :=
  (writeAt p.data (y * p.stride) values).map fun data => { p with data := data }

/-- The plane has rows of a width, which do not overlap. -/
structure Sized (p : Plane) (width height : ℕ) : Prop where
  stride : width ≤ p.stride
  length : (height - 1) * p.stride + width ≤ p.data.length

end Plane

/-- Copy a row of one plane to a row of another. -/
def copyRow (width : ℕ) (src : Plane) (source : ℕ) (dst : Plane) (target : ℕ) : Option Plane :=
  (src.row width source).bind fun values => dst.setRow target values

/-- Copy some columns of every other row. -/
def pickRow (width halfWidth : ℕ) (column : ℕ → ℕ) (src dst : Plane) (y : ℕ) : Option Plane := do
  let values ← src.row width (2 * y)
  let picked ← (List.range halfWidth).mapM fun x => values[column x]?
  dst.setRow y picked

/-- Copy some columns of a row of both colour planes. -/
def pickRows (width halfWidth : ℕ) (column : ℕ → ℕ) (src : Planes) (p : Plane × Plane) (y : ℕ) :
    Option (Plane × Plane) := do
  let u ← pickRow width halfWidth column src.u p.1 y
  let v ← pickRow width halfWidth column src.v p.2 y
  return (u, v)

/-! ## The split -/

/-- Height of the plane that the odd rows are put into. -/
def paddedAuxHeight (height : ℕ) : ℕ := height - height % 16 + 16

/-- How many odd rows were met of each colour plane, and the plane they are put into. -/
structure SplitStrips where
  uY : ℕ
  vY : ℕ
  plane : Plane

/-- Put an odd row into a line of the strips. -/
def splitStrip (src : Planes) (width height : ℕ) (s : SplitStrips) (y : ℕ) : Option SplitStrips :=
  if y % 16 < 8 then
    let pos := 2 * s.uY + 1
    if height ≤ pos then some { s with uY := s.uY + 1 }
    else (copyRow width src.u pos s.plane y).map fun p => ⟨s.uY + 1, s.vY, p⟩
  else
    let pos := 2 * s.vY + 1
    if height ≤ pos then some { s with vY := s.vY + 1 }
    else (copyRow width src.v pos s.plane y).map fun p => ⟨s.uY, s.vY + 1, p⟩

/-- Split a frame into a main and an auxiliary one. -/
def splitYuv444ToYuv420V1 (src main aux : Planes) (width height : ℕ) :
    Option (Planes × Planes) := do
  let halfWidth := width / 2
  let halfHeight := height / 2
  let padHeight := paddedAuxHeight height
  let mainY ← (List.range height).foldlM (fun p y => copyRow width src.y y p y) main.y
  let mainUv ← (List.range halfHeight).foldlM
    (pickRows width halfWidth (fun x => 2 * x) src) (main.u, main.v)
  let strips ← (List.range padHeight).foldlM (splitStrip src width height) ⟨0, 0, aux.y⟩
  let auxUv ← (List.range halfHeight).foldlM
    (pickRows width halfWidth (fun x => min (2 * x + 1) (width - 1)) src) (aux.u, aux.v)
  return (⟨mainY, mainUv.1, mainUv.2⟩, ⟨strips.plane, auxUv.1, auxUv.2⟩)

/-! ## The two passes of the receiver -/

/-- Change a value of a row; `none` if it is out of bounds. -/
def put (values : List UInt8) (x : ℕ) (value : UInt8) : Option (List UInt8) :=
  if x < values.length then some (values.set x value) else none

/-- Two rows of a plane, the second if it is there. -/
def splitTwoRowsMut (plane : Plane) (top bot rowLen : ℕ) :
    Option (List UInt8 × Option (List UInt8)) :=
  let topOff := top * plane.stride
  let botOff := bot * plane.stride
  if plane.data.length < botOff + rowLen then
    (slice plane.data topOff (topOff + rowLen)).map fun values => (values, none)
  else do
    let first ← slice (plane.data.take botOff) topOff (topOff + rowLen)
    let second ← slice (plane.data.drop botOff) 0 rowLen
    return (first, some second)

/-- Put every value into two columns of a row, the second if it is there. -/
def replicateRow (width halfWidth : ℕ) (src values : List UInt8) : Option (List UInt8) :=
  (List.range halfWidth).foldlM (fun values x => do
    let value ← src[x]?
    let values ← put values (2 * x) value
    if 2 * x + 1 < width then put values (2 * x + 1) value else return values) values

/-- Put the values of a row of each colour plane into two columns of two rows. -/
def replicateRows (main : Planes) (width halfWidth : ℕ) (p : Plane × Plane) (y : ℕ) :
    Option (Plane × Plane) := do
  let srcU ← main.u.row halfWidth y
  let srcV ← main.v.row halfWidth y
  let dstU ← splitTwoRowsMut p.1 (2 * y) (2 * y + 1) width
  let dstV ← splitTwoRowsMut p.2 (2 * y) (2 * y + 1) width
  let topU ← replicateRow width halfWidth srcU dstU.1
  let topV ← replicateRow width halfWidth srcV dstV.1
  let u ← p.1.setRow (2 * y) topU
  let v ← p.2.setRow (2 * y) topV
  match dstU.2, dstV.2 with
  | some botU, some botV =>
    let botU ← replicateRow width halfWidth srcU botU
    let botV ← replicateRow width halfWidth srcV botV
    let u ← u.setRow (2 * y + 1) botU
    let v ← v.setRow (2 * y + 1) botV
    return (u, v)
  | _, _ => return (u, v)

/-- The pass of the main frame. -/
def combineLumaToYuv444 (main dst : Planes) (width height : ℕ) : Option Planes := do
  let halfWidth := width / 2
  let halfHeight := height / 2
  let y ← (List.range height).foldlM (fun p y => copyRow width main.y y p y) dst.y
  let uv ← (List.range halfHeight).foldlM (replicateRows main width halfWidth) (dst.u, dst.v)
  return ⟨y, uv.1, uv.2⟩

/-- How many odd rows were met of each colour plane, and the planes. -/
structure CombineStrips where
  uY : ℕ
  vY : ℕ
  u : Plane
  v : Plane

/-- Take an odd row from a line of the strips. -/
def combineStrip (aux : Plane) (width height : ℕ) (s : CombineStrips) (y : ℕ) :
    Option CombineStrips :=
  if y % 16 < 8 then
    let pos := 2 * s.uY + 1
    if height ≤ pos then some { s with uY := s.uY + 1 }
    else (copyRow width aux y s.u pos).map fun p => ⟨s.uY + 1, s.vY, p, s.v⟩
  else
    let pos := 2 * s.vY + 1
    if height ≤ pos then some { s with vY := s.vY + 1 }
    else (copyRow width aux y s.v pos).map fun p => ⟨s.uY, s.vY + 1, s.u, p⟩

/-- Put the values of a row into the odd columns of another. -/
def oddColumns (halfWidth : ℕ) (src values : List UInt8) : Option (List UInt8) :=
  (List.range halfWidth).foldlM (fun values x => do
    let value ← src[x]?
    put values (2 * x + 1) value) values

/-- Put the values of a row into the odd columns of every other row. -/
def oddRow (width halfWidth : ℕ) (src dst : Plane) (y : ℕ) : Option Plane := do
  let src ← src.row halfWidth y
  let values ← dst.row width (2 * y)
  let values ← oddColumns halfWidth src values
  dst.setRow (2 * y) values

/-- Put the values of a row of each auxiliary colour plane into the odd columns of a row. -/
def oddRows (width halfWidth : ℕ) (aux : Planes) (p : Plane × Plane) (y : ℕ) :
    Option (Plane × Plane) := do
  let u ← oddRow width halfWidth aux.u p.1 y
  let v ← oddRow width halfWidth aux.v p.2 y
  return (u, v)

/-- The pass of the auxiliary frame. -/
def combineChromaV1ToYuv444 (aux dst : Planes) (width height : ℕ) : Option Planes := do
  let halfWidth := width / 2
  let halfHeight := height / 2
  let padHeight := paddedAuxHeight height
  let strips ← (List.range padHeight).foldlM (combineStrip aux.y width height) ⟨0, 0, dst.u, dst.v⟩
  let uv ← (List.range halfHeight).foldlM (oddRows width halfWidth aux) (strips.u, strips.v)
  return ⟨dst.y, uv.1, uv.2⟩

/-! ## Rows -/

variable {n k : ℕ}

/-- A loop over a range keeps what its steps keep. -/
theorem foldlM_range {σ : Type*} {step : σ → ℕ → Option σ} (P : ℕ → σ → Prop) {s : σ}
    (hinit : P 0 s) (hstep : ∀ i < n, ∀ s, P i s → ∃ s', step s i = some s' ∧ P (i + 1) s') :
    ∃ t, (List.range n).foldlM step s = some t ∧ P n t := by
  induction n with
  | zero => exact ⟨s, rfl, hinit⟩
  | succ n ih =>
    obtain ⟨t, ht, hinv⟩ := ih fun i hi => hstep i (Nat.lt_succ_of_lt hi)
    obtain ⟨t', ht', hinv'⟩ := hstep n (Nat.lt_succ_self n) t hinv
    refine ⟨t', ?_, hinv'⟩
    rw [List.range_succ, List.foldlM_append, ht, Option.bind_eq_bind, Option.bind_some,
      List.foldlM_cons, ht']
    rfl

variable {p src dst : Plane} {width height y : ℕ}

/-- The end of a row is in the plane. -/
theorem Plane.Sized.fits (h : p.Sized width height) (hy : y < height) :
    y * p.stride + width ≤ p.data.length := by
  have hrows : y * p.stride ≤ (height - 1) * p.stride := Nat.mul_le_mul_right _ (by omega)
  have hlength := h.length
  omega

/-- A slice that is in bounds has its length. -/
theorem slice_some {data : List UInt8} {start size : ℕ} (h : start + size ≤ data.length) :
    ∃ values, slice data start (start + size) = some values ∧ values.length = size := by
  refine ⟨_, slice_eq data (Nat.le_add_right _ _) h, ?_⟩
  rw [List.length_take, List.length_drop]
  omega

/-- A row can be taken. -/
theorem Plane.Sized.row (h : p.Sized width height) (hy : y < height) :
    ∃ values, p.row width y = some values ∧ values.length = width := slice_some (h.fits hy)

/-- What a plane is after values were put into a row. -/
structure Wrote (p p' : Plane) (width height y : ℕ) (values : List UInt8) : Prop where
  sized : p'.Sized width height
  row : p'.row width y = some values
  others : ∀ y', y' ≠ y → p'.row width y' = p.row width y'

variable {values : List UInt8}

/-- A row can be written, and the others stay. -/
theorem setRow_wrote (h : p.Sized width height) (hy : y < height)
    (hvalues : values.length = width) :
    ∃ p', p.setRow y values = some p' ∧ Wrote p p' width height y values := by
  have hfits := h.fits hy
  obtain ⟨data, hwrite, hlength, hbefore, hinside, hafter⟩ :=
    @writeAt_eq _ p.data values (y * p.stride) (by omega)
  refine ⟨{ p with data := data }, by rw [Plane.setRow, hwrite]; rfl, ⟨h.stride, ?_⟩, ?_, ?_⟩
  · rw [hlength]
    exact h.length
  · have hrow := hinside 0 width (by omega)
    rw [Nat.add_zero, List.drop_zero, List.take_of_length_le (Nat.le_of_eq hvalues)] at hrow
    rw [Plane.row, slice_eq _ (Nat.le_add_right _ _) (by rw [hlength]; exact hfits),
      Nat.add_sub_cancel_left, hrow]
  · intro y' hne
    have hsame : (data.drop (y' * p.stride)).take width =
        (p.data.drop (y' * p.stride)).take width := by
      have hstride := h.stride
      cases Nat.lt_or_gt_of_ne hne with
      | inl hlt =>
        refine hbefore _ _ ?_
        have hrows : (y' + 1) * p.stride ≤ y * p.stride := Nat.mul_le_mul_right _ hlt
        rw [Nat.add_mul, Nat.one_mul] at hrows
        omega
      | inr hgt =>
        refine hafter _ _ ?_
        have hrows : (y + 1) * p.stride ≤ y' * p.stride := Nat.mul_le_mul_right _ hgt
        rw [Nat.add_mul, Nat.one_mul] at hrows
        omega
    rw [Plane.row, Plane.row, slice, slice, hlength, Nat.add_sub_cancel_left, hsame]

/-- A row is copied. -/
theorem copyRow_wrote {source target rows : ℕ} (hsrc : src.Sized width rows)
    (hsource : source < rows) (hdst : dst.Sized width height) (htarget : target < height) :
    ∃ p' values, copyRow width src source dst target = some p' ∧
      src.row width source = some values ∧ Wrote dst p' width height target values := by
  obtain ⟨values, hrow, hlength⟩ := hsrc.row hsource
  obtain ⟨p', hset, hwrote⟩ := setRow_wrote hdst htarget hlength
  refine ⟨p', values, ?_, hrow, hwrote⟩
  rw [copyRow, hrow, Option.bind_some, hset]

/-- All rows are copied. -/
theorem copyRows_spec (hsrc : src.Sized width height) (hdst : dst.Sized width height) :
    ∃ p', (List.range height).foldlM (fun p y => copyRow width src y p y) dst = some p' ∧
      p'.Sized width height ∧ ∀ y < height, p'.row width y = src.row width y := by
  refine foldlM_range (fun n (p : Plane) => p.Sized width height ∧
    ∀ y < n, p.row width y = src.row width y) ⟨hdst, fun y hy => absurd hy (Nat.not_lt_zero y)⟩ ?_
  rintro i hi p ⟨hsized, hrows⟩
  obtain ⟨p', values, hcopy, hrow, hwrote⟩ := copyRow_wrote hsrc hi hsized hi
  refine ⟨p', hcopy, hwrote.sized, fun y hy => ?_⟩
  by_cases hyi : y = i
  · rw [hyi, hwrote.row, hrow]
  · rw [hwrote.others y hyi]
    exact hrows y (by omega)

/-- A row has some columns of a row of another plane. -/
def Picked (width halfWidth : ℕ) (column : ℕ → ℕ) (src dst : Plane) (y : ℕ) : Prop :=
  ∃ values picked, src.row width (2 * y) = some values ∧ dst.row halfWidth y = some picked ∧
    picked.length = halfWidth ∧ ∀ x < halfWidth, picked[x]? = values[column x]?

/-- Some columns of a row are copied. -/
theorem pickRow_spec {halfWidth halfHeight : ℕ} {column : ℕ → ℕ} (hsrc : src.Sized width height)
    (hdst : dst.Sized halfWidth halfHeight) (hy : y < halfHeight) (hrow : 2 * y < height)
    (hcolumn : ∀ x < halfWidth, column x < width) :
    ∃ p', pickRow width halfWidth column src dst y = some p' ∧ p'.Sized halfWidth halfHeight ∧
      Picked width halfWidth column src p' y ∧
      ∀ y', y' ≠ y → p'.row halfWidth y' = dst.row halfWidth y' := by
  obtain ⟨values, hvalues, hlength⟩ := hsrc.row hrow
  have hpicked : ((List.range halfWidth).mapM fun x => values[column x]?) =
      some ((List.range halfWidth).map fun x => values.getD (column x) 0) := by
    refine mapM_eq_map fun x hx => ?_
    have hlt := hcolumn x (List.mem_range.mp hx)
    rw [List.getD_eq_getElem?_getD, List.getElem?_eq_getElem (by omega), Option.getD_some]
  have hhalf : ((List.range halfWidth).map fun x => values.getD (column x) 0).length =
      halfWidth := by
    rw [List.length_map, List.length_range]
  obtain ⟨p', hset, hwrote⟩ := setRow_wrote hdst hy hhalf
  refine ⟨p', ?_, hwrote.sized, ⟨values, _, hvalues, hwrote.row, hhalf, ?_⟩, hwrote.others⟩
  · simp only [pickRow, hvalues, hpicked, Option.bind_eq_bind, Option.bind_some]
    exact hset
  · intro x hx
    have hlt := hcolumn x hx
    rw [List.getElem?_map, List.getElem?_range hx, Option.map_some, List.getD_eq_getElem?_getD,
      List.getElem?_eq_getElem (by omega), Option.getD_some]

/-- A row has some columns that it had before another row changed. -/
theorem Picked.congr {halfWidth : ℕ} {column : ℕ → ℕ} {dst' : Plane}
    (h : Picked width halfWidth column src dst y)
    (hsame : dst'.row halfWidth y = dst.row halfWidth y) :
    Picked width halfWidth column src dst' y := by
  obtain ⟨values, picked, hvalues, hpicked, hlength, hcolumns⟩ := h
  exact ⟨values, picked, hvalues, hsame.trans hpicked, hlength, hcolumns⟩

/-- Some columns of every other row of both colour planes are copied. -/
theorem pickRows_spec {halfWidth halfHeight : ℕ} {column : ℕ → ℕ} {src : Planes} {u v : Plane}
    (hsrcU : src.u.Sized width height) (hsrcV : src.v.Sized width height)
    (hu : u.Sized halfWidth halfHeight) (hv : v.Sized halfWidth halfHeight)
    (hheight : 2 * halfHeight ≤ height) (hcolumn : ∀ x < halfWidth, column x < width) :
    ∃ p', (List.range halfHeight).foldlM (pickRows width halfWidth column src) (u, v) = some p' ∧
      p'.1.Sized halfWidth halfHeight ∧ p'.2.Sized halfWidth halfHeight ∧
      ∀ y < halfHeight, Picked width halfWidth column src.u p'.1 y ∧
        Picked width halfWidth column src.v p'.2 y := by
  refine foldlM_range (fun n (p : Plane × Plane) => p.1.Sized halfWidth halfHeight ∧
    p.2.Sized halfWidth halfHeight ∧ ∀ y < n, Picked width halfWidth column src.u p.1 y ∧
      Picked width halfWidth column src.v p.2 y)
    ⟨hu, hv, fun y hy => absurd hy (Nat.not_lt_zero y)⟩ ?_
  rintro i hi p ⟨hsizedU, hsizedV, hrows⟩
  obtain ⟨u', hpickU, hsizedU', hpickedU, hothersU⟩ :=
    pickRow_spec hsrcU hsizedU hi (by omega) hcolumn
  obtain ⟨v', hpickV, hsizedV', hpickedV, hothersV⟩ :=
    pickRow_spec hsrcV hsizedV hi (by omega) hcolumn
  refine ⟨(u', v'), ?_, hsizedU', hsizedV', fun y hy => ?_⟩
  · simp only [pickRows, hpickU, hpickV, Option.bind_eq_bind, Option.bind_some]
    rfl
  · by_cases hyi : y = i
    · rw [hyi]
      exact ⟨hpickedU, hpickedV⟩
    · obtain ⟨holdU, holdV⟩ := hrows y (by omega)
      exact ⟨holdU.congr (hothersU y hyi), holdV.congr (hothersV y hyi)⟩

/-! ## The strips -/

/-- The colour planes. -/
inductive Chroma where
  | u
  | v
  deriving DecidableEq

/-- The plane of a colour. -/
def Planes.chroma (p : Planes) : Chroma → Plane
  | .u => p.u
  | .v => p.v

/-- The line of the strips for the odd row `2 * k + 1` of a colour plane. -/
def slot (c : Chroma) (k : ℕ) : ℕ :=
  match c with
  | .u => 16 * (k / 8) + k % 8
  | .v => 16 * (k / 8) + k % 8 + 8

/-- Lines of different rows are different. -/
theorem slot_inj {c c' : Chroma} {k' : ℕ} (h : slot c k = slot c' k') : c = c' ∧ k = k' := by
  cases c with
  | u =>
    cases c' with
    | u =>
      simp only [slot] at h
      exact ⟨rfl, by omega⟩
    | v =>
      simp only [slot] at h
      omega
  | v =>
    cases c' with
    | u =>
      simp only [slot] at h
      omega
    | v =>
      simp only [slot] at h
      exact ⟨rfl, by omega⟩

/-- Every odd row has its line below the padded height. -/
theorem slot_lt {c : Chroma} (hk : 2 * k + 1 < height) : slot c k < paddedAuxHeight height := by
  rw [paddedAuxHeight]
  cases c with
  | u | v =>
    simp only [slot]
    omega

/-- How many odd rows of a colour plane were met before a line. -/
def met (c : Chroma) (n : ℕ) : ℕ :=
  match c with
  | .u => 8 * (n / 16) + min (n % 16) 8
  | .v => 8 * (n / 16) + (n % 16 - 8)

/-- The colour plane that a line is for. -/
def colourOf (n : ℕ) : Chroma := if n % 16 < 8 then .u else .v

/-- A line is for the next odd row of its colour plane. -/
theorem slot_met (n : ℕ) : slot (colourOf n) (met (colourOf n) n) = n := by
  rw [colourOf]
  split
  · simp only [slot, met]
    omega
  · simp only [slot, met]
    omega

/-- Behind a line, one more row of its colour plane was met. -/
theorem met_succ (c : Chroma) (n : ℕ) :
    met c (n + 1) = if c = colourOf n then met c n + 1 else met c n := by
  rw [colourOf]
  cases c with
  | u =>
    split
    · simp only [met, if_true]
      omega
    · simp only [met, reduceCtorEq, if_false]
      omega
  | v =>
    split
    · simp only [met, reduceCtorEq, if_false]
      omega
    · simp only [met, if_true]
      omega

/-- The rows of which lines before `n` are for. -/
theorem slot_lt_succ {c : Chroma} (h : slot c k < n + 1) :
    slot c k < n ∨ c = colourOf n ∧ k = met (colourOf n) n := by
  by_cases hn : slot c k = n
  · exact .inr (slot_inj (hn.trans (slot_met n).symm))
  · exact .inl (by omega)

/-- The lines of the strips before `n` have the odd rows that they are for. -/
structure Filled (src : Planes) (width height n : ℕ) (s : SplitStrips) : Prop where
  uY : s.uY = met .u n
  vY : s.vY = met .v n
  sized : s.plane.Sized width (paddedAuxHeight height)
  rows : ∀ c k, 2 * k + 1 < height → slot c k < n →
    s.plane.row width (slot c k) = (src.chroma c).row width (2 * k + 1)

/-- The strip of a line in terms of its colour plane. -/
theorem splitStrip_eq (src : Planes) (s : SplitStrips) (huY : s.uY = met .u n)
    (hvY : s.vY = met .v n) :
    splitStrip src width height s n =
      if height ≤ 2 * met (colourOf n) n + 1 then
        some ⟨met .u (n + 1), met .v (n + 1), s.plane⟩
      else
        (copyRow width (src.chroma (colourOf n)) (2 * met (colourOf n) n + 1) s.plane n).map
          fun p => ⟨met .u (n + 1), met .v (n + 1), p⟩ := by
  rw [splitStrip, met_succ .u, met_succ .v, colourOf, huY, hvY]
  split
  · rfl
  · rfl

theorem Filled.step {src : Planes} {s : SplitStrips} (h : Filled src width height n s)
    (hsized : ∀ c, (src.chroma c).Sized width height) (hn : n < paddedAuxHeight height) :
    ∃ s', splitStrip src width height s n = some s' ∧ Filled src width height (n + 1) s' := by
  rw [splitStrip_eq src s h.uY h.vY]
  split
  next hout =>
    refine ⟨_, rfl, rfl, rfl, h.sized, fun c k hk hslot => ?_⟩
    cases slot_lt_succ hslot with
    | inl hbefore => exact h.rows c k hk hbefore
    | inr hthis =>
      rw [hthis.2] at hk
      omega
  next hin =>
    obtain ⟨p', values, hcopy, hrow, hwrote⟩ :=
      copyRow_wrote (hsized (colourOf n)) (Nat.lt_of_not_le hin) h.sized hn
    rw [hcopy]
    refine ⟨_, rfl, rfl, rfl, hwrote.sized, fun c k hk hslot => ?_⟩
    cases slot_lt_succ hslot with
    | inl hbefore =>
      rw [hwrote.others _ (Nat.ne_of_lt hbefore)]
      exact h.rows c k hk hbefore
    | inr hthis =>
      rw [hthis.1, hthis.2, slot_met, hwrote.row, hrow]

variable {aux : Plane}

/-- All odd rows are put into the strips. -/
theorem splitStrips_spec {src : Planes} (hsized : ∀ c, (src.chroma c).Sized width height)
    (haux : aux.Sized width (paddedAuxHeight height)) :
    ∃ s, (List.range (paddedAuxHeight height)).foldlM (splitStrip src width height) ⟨0, 0, aux⟩ =
      some s ∧ Filled src width height (paddedAuxHeight height) s := by
  refine foldlM_range (Filled src width height) ⟨rfl, rfl, haux, ?_⟩ fun n hn s h => ?_
  · exact fun c k _ hslot => absurd hslot (Nat.not_lt_zero _)
  · exact h.step hsized hn

/-- The plane of a colour. -/
def CombineStrips.chroma (s : CombineStrips) : Chroma → Plane
  | .u => s.u
  | .v => s.v

/-- The strips with another plane of a colour. -/
def CombineStrips.put (s : CombineStrips) (c : Chroma) (p : Plane) : CombineStrips :=
  match c with
  | .u => { s with u := p }
  | .v => { s with v := p }

theorem CombineStrips.chroma_put (s : CombineStrips) (c c' : Chroma) (p : Plane) :
    (s.put c p).chroma c' = if c' = c then p else s.chroma c' := by
  cases c <;> cases c' <;> rfl

/-- The odd rows of the lines before `n` were taken, and the even rows are as before. -/
structure Taken (aux : Plane) (before : Planes) (width height n : ℕ) (s : CombineStrips) :
    Prop where
  uY : s.uY = met .u n
  vY : s.vY = met .v n
  sized : ∀ c, (s.chroma c).Sized width height
  rows : ∀ c k, 2 * k + 1 < height → slot c k < n →
    (s.chroma c).row width (2 * k + 1) = aux.row width (slot c k)
  even : ∀ c y, (s.chroma c).row width (2 * y) = (before.chroma c).row width (2 * y)

/-- The strip of a line in terms of its colour plane. -/
theorem combineStrip_eq (aux : Plane) (s : CombineStrips) (huY : s.uY = met .u n)
    (hvY : s.vY = met .v n) :
    combineStrip aux width height s n =
      if height ≤ 2 * met (colourOf n) n + 1 then
        some ⟨met .u (n + 1), met .v (n + 1), s.u, s.v⟩
      else
        (copyRow width aux n (s.chroma (colourOf n)) (2 * met (colourOf n) n + 1)).map
          fun p => CombineStrips.put ⟨met .u (n + 1), met .v (n + 1), s.u, s.v⟩ (colourOf n) p := by
  rw [combineStrip, met_succ .u, met_succ .v, colourOf, huY, hvY]
  split
  · rfl
  · rfl

theorem Taken.step {before : Planes} {s : CombineStrips}
    (h : Taken aux before width height n s) (haux : aux.Sized width (paddedAuxHeight height))
    (hn : n < paddedAuxHeight height) :
    ∃ s', combineStrip aux width height s n = some s' ∧
      Taken aux before width height (n + 1) s' := by
  have hsame : ∀ c, CombineStrips.chroma ⟨met .u (n + 1), met .v (n + 1), s.u, s.v⟩ c =
      s.chroma c := by
    intro c
    cases c <;> rfl
  rw [combineStrip_eq aux s h.uY h.vY]
  split
  next hout =>
    refine ⟨_, rfl, rfl, rfl, fun c => hsame c ▸ h.sized c, fun c k hk hslot => ?_,
      fun c y => hsame c ▸ h.even c y⟩
    rw [hsame]
    cases slot_lt_succ hslot with
    | inl hbefore => exact h.rows c k hk hbefore
    | inr hthis =>
      rw [hthis.2] at hk
      omega
  next hin =>
    obtain ⟨p', values, hcopy, hrow, hwrote⟩ :=
      copyRow_wrote haux hn (h.sized (colourOf n)) (Nat.lt_of_not_le hin)
    rw [hcopy]
    refine ⟨_, rfl, ?_, ?_, fun c => ?_, fun c k hk hslot => ?_, fun c y => ?_⟩
    · cases colourOf n <;> rfl
    · cases colourOf n <;> rfl
    · rw [CombineStrips.chroma_put, hsame]
      split
      · exact hwrote.sized
      · exact h.sized c
    · rw [CombineStrips.chroma_put, hsame]
      cases slot_lt_succ hslot with
      | inl hbefore =>
        split
        next hc =>
          have hne : k ≠ met (colourOf n) n := by
            intro heq
            rw [hc, heq, slot_met] at hbefore
            exact Nat.lt_irrefl n hbefore
          rw [hwrote.others _ (by omega), ← hc]
          exact h.rows c k hk hbefore
        next => exact h.rows c k hk hbefore
      | inr hthis => rw [if_pos hthis.1, hthis.1, hthis.2, slot_met, hwrote.row, hrow]
    · rw [CombineStrips.chroma_put, hsame]
      split
      next hc =>
        rw [hwrote.others _ (by omega), ← hc]
        exact h.even c y
      next => exact h.even c y

/-- All odd rows are taken from the strips. -/
theorem combineStrips_spec {before : Planes} (hsized : ∀ c, (before.chroma c).Sized width height)
    (haux : aux.Sized width (paddedAuxHeight height)) :
    ∃ s, (List.range (paddedAuxHeight height)).foldlM (combineStrip aux width height)
        ⟨0, 0, before.u, before.v⟩ = some s ∧
      Taken aux before width height (paddedAuxHeight height) s := by
  have hsame : ∀ c, CombineStrips.chroma ⟨0, 0, before.u, before.v⟩ c = before.chroma c := by
    intro c
    cases c <;> rfl
  refine foldlM_range (Taken aux before width height) ⟨rfl, rfl, ?_, ?_, ?_⟩
    fun n hn s h => h.step haux hn
  · exact fun c => hsame c ▸ hsized c
  · exact fun c k _ hslot => absurd hslot (Nat.not_lt_zero _)
  · exact fun c y => by rw [hsame]

/-! ## The even rows -/

variable {halfWidth halfHeight : ℕ}

theorem put_eq {x : ℕ} (hx : x < values.length) (value : UInt8) :
    put values x value = some (values.set x value) := if_pos hx

/-- Every value is put into its even column. -/
theorem replicateRow_spec {row : List UInt8} (hvalues : values.length = halfWidth)
    (hrow : row.length = 2 * halfWidth) :
    ∃ row', replicateRow (2 * halfWidth) halfWidth values row = some row' ∧
      row'.length = 2 * halfWidth ∧ ∀ x < halfWidth, row'[2 * x]? = values[x]? := by
  refine foldlM_range (fun n (row : List UInt8) => row.length = 2 * halfWidth ∧
    ∀ x < n, row[2 * x]? = values[x]?) ⟨hrow, fun x hx => absurd hx (Nat.not_lt_zero x)⟩ ?_
  rintro i hi row ⟨hlength, hcolumns⟩
  have hvalue : values[i]? = some values[i] := List.getElem?_eq_getElem (by omega)
  refine ⟨(row.set (2 * i) values[i]).set (2 * i + 1) values[i], ?_, ?_, fun x hx => ?_⟩
  · simp only [hvalue, Option.bind_eq_bind, Option.bind_some]
    rw [put_eq (by omega), Option.bind_some, if_pos (by omega),
      put_eq (by rw [List.length_set]; omega)]
  · rw [List.length_set, List.length_set, hlength]
  · rw [List.getElem?_set_ne (by omega)]
    by_cases hxi : x = i
    · rw [hxi, List.getElem?_set_self (by omega), hvalue]
    · rw [List.getElem?_set_ne (by omega)]
      exact hcolumns x (by omega)

/-- Every value is put into its odd column, and the even ones stay. -/
theorem oddColumns_spec {row : List UInt8} (hvalues : values.length = halfWidth)
    (hrow : row.length = 2 * halfWidth) :
    ∃ row', oddColumns halfWidth values row = some row' ∧ row'.length = 2 * halfWidth ∧
      (∀ x < halfWidth, row'[2 * x + 1]? = values[x]?) ∧ ∀ x, row'[2 * x]? = row[2 * x]? := by
  refine foldlM_range (fun n (row' : List UInt8) => row'.length = 2 * halfWidth ∧
    (∀ x < n, row'[2 * x + 1]? = values[x]?) ∧ ∀ x, row'[2 * x]? = row[2 * x]?)
    ⟨hrow, fun x hx => absurd hx (Nat.not_lt_zero x), fun x => rfl⟩ ?_
  rintro i hi row' ⟨hlength, hcolumns, hothers⟩
  have hvalue : values[i]? = some values[i] := List.getElem?_eq_getElem (by omega)
  refine ⟨row'.set (2 * i + 1) values[i], ?_, ?_, fun x hx => ?_, fun x => ?_⟩
  · simp only [hvalue, Option.bind_eq_bind, Option.bind_some]
    exact put_eq (by omega) _
  · rw [List.length_set, hlength]
  · by_cases hxi : x = i
    · rw [hxi, List.getElem?_set_self (by omega), hvalue]
    · rw [List.getElem?_set_ne (by omega)]
      exact hcolumns x (by omega)
  · rw [List.getElem?_set_ne (by omega)]
    exact hothers x

/-- Two rows of a plane are there. -/
theorem splitTwoRowsMut_spec (h : p.Sized width height) (hy : 2 * y + 1 < height) :
    ∃ top bot, splitTwoRowsMut p (2 * y) (2 * y + 1) width = some (top, some bot) ∧
      top.length = width ∧ bot.length = width := by
  have hfits := h.fits hy
  have hstride := h.stride
  have hrows : (2 * y + 1) * p.stride = 2 * y * p.stride + p.stride := by
    rw [Nat.add_mul, Nat.one_mul]
  have htake : (p.data.take ((2 * y + 1) * p.stride)).length = (2 * y + 1) * p.stride := by
    rw [List.length_take]
    omega
  obtain ⟨top, htop, htopLength⟩ := @slice_some (p.data.take ((2 * y + 1) * p.stride))
    (2 * y * p.stride) width (by omega)
  obtain ⟨bot, hbot, hbotLength⟩ := @slice_some (p.data.drop ((2 * y + 1) * p.stride)) 0 width
    (by rw [List.length_drop]; omega)
  rw [Nat.zero_add] at hbot
  refine ⟨top, bot, ?_, htopLength, hbotLength⟩
  simp only [splitTwoRowsMut]
  rw [if_neg (by omega), htop, hbot]
  rfl

/-- The even columns of an even row have the values of a row of a plane of half the width. -/
def Spread (width halfWidth : ℕ) (src dst : Plane) (y : ℕ) : Prop :=
  ∃ values row, src.row halfWidth y = some values ∧ dst.row width (2 * y) = some row ∧
    ∀ x < halfWidth, row[2 * x]? = values[x]?

/-- A row has the values that it had before other rows changed. -/
theorem Spread.congr {dst' : Plane} (h : Spread width halfWidth src dst y)
    (hsame : dst'.row width (2 * y) = dst.row width (2 * y)) :
    Spread width halfWidth src dst' y := by
  obtain ⟨values, row, hvalues, hrow, hcolumns⟩ := h
  exact ⟨values, row, hvalues, hsame.trans hrow, hcolumns⟩

/-- Two rows of a plane are written. -/
theorem writeRows_spec {top bot : List UInt8} (h : p.Sized width height)
    (hy : 2 * y + 1 < height) (hsrc : src.row halfWidth y = some values)
    (htop : top.length = width) (hbot : bot.length = width)
    (hcolumns : ∀ x < halfWidth, top[2 * x]? = values[x]?) :
    ∃ p' p'', p.setRow (2 * y) top = some p' ∧ p'.setRow (2 * y + 1) bot = some p'' ∧
      p''.Sized width height ∧ Spread width halfWidth src p'' y ∧
      ∀ y', y' ≠ 2 * y → y' ≠ 2 * y + 1 → p''.row width y' = p.row width y' := by
  obtain ⟨p', hset, hwrote⟩ := setRow_wrote h (Nat.lt_of_succ_lt hy) htop
  obtain ⟨p'', hset', hwrote'⟩ := setRow_wrote hwrote.sized hy hbot
  refine ⟨p', p'', hset, hset', hwrote'.sized, ⟨values, top, hsrc, ?_, hcolumns⟩, ?_⟩
  · rw [hwrote'.others _ (by omega), hwrote.row]
  · intro y' hne hne'
    rw [hwrote'.others y' hne', hwrote.others y' hne]

/-- The values of a row of each colour plane are spread. -/
theorem replicateRows_spec {main : Planes} {q : Plane × Plane} (hwidth : width = 2 * halfWidth)
    (hu : main.u.Sized halfWidth halfHeight) (hv : main.v.Sized halfWidth halfHeight)
    (hqu : q.1.Sized width height) (hqv : q.2.Sized width height) (hy : y < halfHeight)
    (hrow : 2 * y + 1 < height) :
    ∃ q', replicateRows main width halfWidth q y = some q' ∧
      q'.1.Sized width height ∧ q'.2.Sized width height ∧
      Spread width halfWidth main.u q'.1 y ∧ Spread width halfWidth main.v q'.2 y ∧
      ∀ y', y' ≠ 2 * y → y' ≠ 2 * y + 1 →
        q'.1.row width y' = q.1.row width y' ∧ q'.2.row width y' = q.2.row width y' := by
  obtain ⟨srcU, hsrcU, hlengthU⟩ := hu.row hy
  obtain ⟨srcV, hsrcV, hlengthV⟩ := hv.row hy
  obtain ⟨topU, botU, hsplitU, htopU, hbotU⟩ := splitTwoRowsMut_spec hqu hrow
  obtain ⟨topV, botV, hsplitV, htopV, hbotV⟩ := splitTwoRowsMut_spec hqv hrow
  obtain ⟨topU', hfirstU, hwidthU, hcolumnsU⟩ := replicateRow_spec hlengthU (htopU.trans hwidth)
  obtain ⟨topV', hfirstV, hwidthV, hcolumnsV⟩ := replicateRow_spec hlengthV (htopV.trans hwidth)
  obtain ⟨botU', hsecondU, hwidthU', -⟩ := replicateRow_spec hlengthU (hbotU.trans hwidth)
  obtain ⟨botV', hsecondV, hwidthV', -⟩ := replicateRow_spec hlengthV (hbotV.trans hwidth)
  rw [← hwidth] at hfirstU hfirstV hsecondU hsecondV hwidthU hwidthV hwidthU' hwidthV'
  obtain ⟨u, u', hsetU, hsetU', hsizedU, hspreadU, hothersU⟩ :=
    writeRows_spec hqu hrow hsrcU hwidthU hwidthU' hcolumnsU
  obtain ⟨v, v', hsetV, hsetV', hsizedV, hspreadV, hothersV⟩ :=
    writeRows_spec hqv hrow hsrcV hwidthV hwidthV' hcolumnsV
  refine ⟨(u', v'), ?_, hsizedU, hsizedV, hspreadU, hspreadV, fun y' hne hne' =>
    ⟨hothersU y' hne hne', hothersV y' hne hne'⟩⟩
  simp only [replicateRows, hsrcU, hsrcV, hsplitU, hsplitV, hfirstU, hfirstV, hsecondU, hsecondV,
    hsetU, hsetV, hsetU', hsetV', Option.bind_eq_bind, Option.bind_some]
  rfl

/-- The pass of the main frame copies the brightness and spreads the colours. -/
theorem combineLuma_spec {main dst : Planes} (hwidth : width = 2 * halfWidth)
    (hheight : height = 2 * halfHeight) (hy : main.y.Sized width height)
    (hu : main.u.Sized halfWidth halfHeight) (hv : main.v.Sized halfWidth halfHeight)
    (hdy : dst.y.Sized width height) (hdu : dst.u.Sized width height)
    (hdv : dst.v.Sized width height) :
    ∃ luma, combineLumaToYuv444 main dst width height = some luma ∧
      luma.u.Sized width height ∧ luma.v.Sized width height ∧
      (∀ y < height, luma.y.row width y = main.y.row width y) ∧
      ∀ y < halfHeight, Spread width halfWidth main.u luma.u y ∧
        Spread width halfWidth main.v luma.v y := by
  obtain ⟨lumaY, hcopy, -, hrows⟩ := copyRows_spec hy hdy
  obtain ⟨uv, hloop, hsizedU, hsizedV, hspread⟩ : ∃ uv,
      (List.range halfHeight).foldlM (replicateRows main width halfWidth) (dst.u, dst.v) = some uv ∧
      uv.1.Sized width height ∧ uv.2.Sized width height ∧ ∀ y < halfHeight,
        Spread width halfWidth main.u uv.1 y ∧ Spread width halfWidth main.v uv.2 y := by
    refine foldlM_range (fun n (q : Plane × Plane) => q.1.Sized width height ∧
      q.2.Sized width height ∧ ∀ y < n, Spread width halfWidth main.u q.1 y ∧
        Spread width halfWidth main.v q.2 y)
      ⟨hdu, hdv, fun y hy => absurd hy (Nat.not_lt_zero y)⟩ ?_
    rintro i hi q ⟨hqu, hqv, hbefore⟩
    obtain ⟨q', hstep, hsizedU, hsizedV, hspreadU, hspreadV, hothers⟩ :=
      replicateRows_spec hwidth hu hv hqu hqv hi (by omega)
    refine ⟨q', hstep, hsizedU, hsizedV, fun y hy => ?_⟩
    by_cases hyi : y = i
    · rw [hyi]
      exact ⟨hspreadU, hspreadV⟩
    · obtain ⟨holdU, holdV⟩ := hbefore y (by omega)
      obtain ⟨hsameU, hsameV⟩ := hothers (2 * y) (by omega) (by omega)
      exact ⟨holdU.congr hsameU, holdV.congr hsameV⟩
  have hhalfWidth : width / 2 = halfWidth := by omega
  have hhalfHeight : height / 2 = halfHeight := by omega
  refine ⟨⟨lumaY, uv.1, uv.2⟩, ?_, hsizedU, hsizedV, hrows, hspread⟩
  simp only [combineLumaToYuv444, hhalfWidth, hhalfHeight, hcopy, hloop, Option.bind_eq_bind,
    Option.bind_some]
  rfl

/-- An even row has the values of a row of a plane of half the width in its odd columns, and what it
had in the even ones. -/
def Joined (width halfWidth : ℕ) (aux before dst : Plane) (y : ℕ) : Prop :=
  ∃ values row row', aux.row halfWidth y = some values ∧ before.row width (2 * y) = some row ∧
    dst.row width (2 * y) = some row' ∧ row'.length = width ∧
    (∀ x < halfWidth, row'[2 * x + 1]? = values[x]?) ∧ ∀ x, row'[2 * x]? = row[2 * x]?

/-- The odd columns of the first even rows were written. -/
structure OddColumns (aux before : Plane) (width halfWidth height n : ℕ) (p : Plane) : Prop where
  sized : p.Sized width height
  joined : ∀ y < n, Joined width halfWidth aux before p y
  others : ∀ y', (∀ y < n, y' ≠ 2 * y) → p.row width y' = before.row width y'

theorem OddColumns.step {before : Plane} (hwidth : width = 2 * halfWidth)
    (hheight : height = 2 * halfHeight) (haux : aux.Sized halfWidth halfHeight)
    (h : OddColumns aux before width halfWidth height n p) (hn : n < halfHeight) :
    ∃ p', oddRow width halfWidth aux p n = some p' ∧
      OddColumns aux before width halfWidth height (n + 1) p' := by
  obtain ⟨values, hvalues, hlength⟩ := haux.row hn
  obtain ⟨row, hrow, hrowLength⟩ := h.sized.row (y := 2 * n) (by omega)
  have hbefore : before.row width (2 * n) = some row := by
    rw [← h.others (2 * n) fun y hy => by omega]
    exact hrow
  obtain ⟨row', hodd, hrowLength', hcolumns, heven⟩ :=
    oddColumns_spec hlength (hrowLength.trans hwidth)
  rw [← hwidth] at hrowLength'
  obtain ⟨p', hset, hwrote⟩ := setRow_wrote h.sized (y := 2 * n) (by omega) hrowLength'
  refine ⟨p', ?_, hwrote.sized, fun y hy => ?_, fun y' hy' => ?_⟩
  · simp only [oddRow, hvalues, hrow, hodd, Option.bind_eq_bind, Option.bind_some]
    exact hset
  · by_cases hyn : y = n
    · rw [hyn]
      exact ⟨values, row, row', hvalues, hbefore, hwrote.row, hrowLength', hcolumns, heven⟩
    · obtain ⟨values, row, row', hvalues, hbefore, hrow', hjoined⟩ := h.joined y (by omega)
      refine ⟨values, row, row', hvalues, hbefore, ?_, hjoined⟩
      rw [hwrote.others (2 * y) (by omega), hrow']
  · rw [hwrote.others y' (hy' n (Nat.lt_succ_self n))]
    exact h.others y' fun y hy => hy' y (Nat.lt_succ_of_lt hy)

/-- The pass of the auxiliary frame takes the odd rows from the strips and writes the odd columns of
the even ones. -/
theorem combineChroma_spec {aux luma : Planes} (hwidth : width = 2 * halfWidth)
    (hheight : height = 2 * halfHeight) (hy : aux.y.Sized width (paddedAuxHeight height))
    (haux : ∀ c, (aux.chroma c).Sized halfWidth halfHeight)
    (hluma : ∀ c, (luma.chroma c).Sized width height) :
    ∃ dst, combineChromaV1ToYuv444 aux luma width height = some dst ∧ dst.y = luma.y ∧
      (∀ c k, 2 * k + 1 < height →
        (dst.chroma c).row width (2 * k + 1) = aux.y.row width (slot c k)) ∧
      ∀ c, ∀ y < halfHeight,
        Joined width halfWidth (aux.chroma c) (luma.chroma c) (dst.chroma c) y := by
  obtain ⟨s, hstrips, htaken⟩ := combineStrips_spec hluma hy
  obtain ⟨uv, hloop, hu, hv⟩ : ∃ uv,
      (List.range halfHeight).foldlM (oddRows width halfWidth aux) (s.u, s.v) = some uv ∧
      OddColumns aux.u s.u width halfWidth height halfHeight uv.1 ∧
      OddColumns aux.v s.v width halfWidth height halfHeight uv.2 := by
    refine foldlM_range (fun n (q : Plane × Plane) =>
      OddColumns aux.u s.u width halfWidth height n q.1 ∧
      OddColumns aux.v s.v width halfWidth height n q.2) ?_ ?_
    · exact ⟨⟨htaken.sized .u, fun y hy => absurd hy (Nat.not_lt_zero y), fun _ _ => rfl⟩,
        ⟨htaken.sized .v, fun y hy => absurd hy (Nat.not_lt_zero y), fun _ _ => rfl⟩⟩
    · rintro i hi q ⟨hqu, hqv⟩
      have hau : aux.u.Sized halfWidth halfHeight := haux .u
      have hav : aux.v.Sized halfWidth halfHeight := haux .v
      obtain ⟨u, hstepU, hu⟩ := hqu.step hwidth hheight hau hi
      obtain ⟨v, hstepV, hv⟩ := hqv.step hwidth hheight hav hi
      refine ⟨(u, v), ?_, hu, hv⟩
      simp only [oddRows, hstepU, hstepV, Option.bind_eq_bind, Option.bind_some]
      rfl
  have hhalfWidth : width / 2 = halfWidth := by omega
  have hhalfHeight : height / 2 = halfHeight := by omega
  have hall : ∀ c, OddColumns (aux.chroma c) (s.chroma c) width halfWidth height halfHeight
      ((⟨luma.y, uv.1, uv.2⟩ : Planes).chroma c) := by
    intro c
    cases c with
    | u => exact hu
    | v => exact hv
  refine ⟨⟨luma.y, uv.1, uv.2⟩, ?_, rfl, fun c k hk => ?_, fun c y hy => ?_⟩
  · simp only [combineChromaV1ToYuv444, hhalfWidth, hhalfHeight, hstrips, hloop,
      Option.bind_eq_bind, Option.bind_some]
    rfl
  · rw [(hall c).others (2 * k + 1) fun y hy => by omega]
    exact htaken.rows c k hk (slot_lt hk)
  · obtain ⟨values, row, row', hvalues, hrow, hjoined⟩ := (hall c).joined y hy
    rw [htaken.even] at hrow
    exact ⟨values, row, row', hvalues, hrow, hjoined⟩

/-! ## The round trip -/

/-- Two planes have the same values in a row. -/
def SameRow (width y : ℕ) (p q : Plane) : Prop :=
  ∃ values, p.row width y = some values ∧ q.row width y = some values

/-- The planes of a frame with a value of each for every pixel. -/
structure Planes.Full (p : Planes) (width height : ℕ) : Prop where
  y : p.y.Sized width height
  u : p.u.Sized width height
  v : p.v.Sized width height

/-- The planes of a frame whose colour planes have half the width and height, where the brightness
has so many lines. -/
structure Planes.Halved (p : Planes) (width height lines : ℕ) : Prop where
  y : p.y.Sized width lines
  u : p.u.Sized (width / 2) (height / 2)
  v : p.v.Sized (width / 2) (height / 2)

theorem Planes.Full.chroma {q : Planes} (h : q.Full width height) (c : Chroma) :
    (q.chroma c).Sized width height := by
  cases c with
  | u => exact h.u
  | v => exact h.v

/-- An even row whose columns went into two planes and back is the same. -/
theorem sameRow_even {main luma : Plane} (hwidth : width = 2 * halfWidth)
    (hsrc : src.Sized width height) (hy : 2 * y < height)
    (hmain : Picked width halfWidth (fun x => 2 * x) src main y)
    (haux : Picked width halfWidth (fun x => min (2 * x + 1) (width - 1)) src aux y)
    (hluma : Spread width halfWidth main luma y) (hdst : Joined width halfWidth aux luma dst y) :
    SameRow width (2 * y) src dst := by
  obtain ⟨values, hvalues, hlength⟩ := hsrc.row hy
  obtain ⟨values₁, picked, hvalues₁, hpicked, -, heven⟩ := hmain
  obtain ⟨values₂, odd, hvalues₂, hodd, -, hcolumns⟩ := haux
  obtain ⟨picked', row, hpicked', hrow, hspread⟩ := hluma
  obtain ⟨odd', row', row'', hodd', hrow', hdst, hlength', hjoined, hkept⟩ := hdst
  have hsame₁ : values₁ = values := Option.some.inj (hvalues₁.symm.trans hvalues)
  have hsame₂ : values₂ = values := Option.some.inj (hvalues₂.symm.trans hvalues)
  have hsamePicked : picked' = picked := Option.some.inj (hpicked'.symm.trans hpicked)
  have hsameOdd : odd' = odd := Option.some.inj (hodd'.symm.trans hodd)
  have hsameRow : row' = row := Option.some.inj (hrow'.symm.trans hrow)
  subst hsame₁ hsame₂ hsamePicked hsameOdd hsameRow
  refine ⟨values₂, hvalues, ?_⟩
  rw [hdst, Option.some.injEq]
  refine List.ext_getElem? fun i => ?_
  by_cases hi : i < width
  · have hx : i / 2 < halfWidth := by omega
    cases Nat.mod_two_eq_zero_or_one i with
    | inl hzero =>
      have hindex : i = 2 * (i / 2) := by omega
      rw [hindex, hkept, hspread _ hx, heven _ hx]
    | inr hone =>
      have hindex : i = 2 * (i / 2) + 1 := by omega
      have hcolumn : min (2 * (i / 2) + 1) (width - 1) = 2 * (i / 2) + 1 := by omega
      rw [hindex, hjoined _ hx, hcolumns _ hx]
      exact congrArg (fun n => values₂[n]?) hcolumn
  · rw [List.getElem?_eq_none (by omega), List.getElem?_eq_none (by omega)]

/-- An odd row that went into a line of the strips and back is the same. -/
theorem sameRow_odd {line : ℕ} (hsrc : src.Sized width height) (hk : 2 * k + 1 < height)
    (hline : aux.row width line = src.row width (2 * k + 1))
    (hdst : dst.row width (2 * k + 1) = aux.row width line) :
    SameRow width (2 * k + 1) src dst := by
  obtain ⟨values, hvalues, -⟩ := hsrc.row hk
  exact ⟨values, hvalues, hdst.trans (hline.trans hvalues)⟩

/-- For every even size and all strides: the split and the two passes stay in bounds, bring back
every value of all three planes, and put every odd row of a colour plane into a line below the
padded height that no other row is put into. -/
theorem combine_split {src main aux dst : Planes} (hevenWidth : width % 2 = 0)
    (hevenHeight : height % 2 = 0) (hsrc : src.Full width height)
    (hmain : main.Halved width height height)
    (haux : aux.Halved width height (paddedAuxHeight height)) (hdst : dst.Full width height) :
    ∃ main' aux' luma dst', splitYuv444ToYuv420V1 src main aux width height = some (main', aux') ∧
      combineLumaToYuv444 main' dst width height = some luma ∧
      combineChromaV1ToYuv444 aux' luma width height = some dst' ∧
      (∀ y < height, SameRow width y src.y dst'.y ∧ SameRow width y src.u dst'.u ∧
        SameRow width y src.v dst'.v) ∧
      (∀ c k, 2 * k + 1 < height → slot c k < paddedAuxHeight height ∧
        aux'.y.row width (slot c k) = (src.chroma c).row width (2 * k + 1)) ∧
      ∀ c k c' k', slot c k = slot c' k' → c = c' ∧ k = k' := by
  have hw : width = 2 * (width / 2) := by omega
  have hh : height = 2 * (height / 2) := by omega
  obtain ⟨mainY, hcopy, hmainY, hrows⟩ := copyRows_spec hsrc.y hmain.y
  obtain ⟨mainUv, hpick, hmainU, hmainV, hpicked⟩ := @pickRows_spec width height (width / 2)
    (height / 2) (fun x => 2 * x) src main.u main.v hsrc.u hsrc.v hmain.u hmain.v (by omega)
    (fun x hx => by omega)
  obtain ⟨strips, hstrips, hfilled⟩ := splitStrips_spec hsrc.chroma haux.y
  obtain ⟨auxUv, hpickOdd, hauxU, hauxV, hpickedOdd⟩ := @pickRows_spec width height (width / 2)
    (height / 2) (fun x => min (2 * x + 1) (width - 1)) src aux.u aux.v hsrc.u hsrc.v haux.u haux.v
    (by omega) (fun x hx => by omega)
  obtain ⟨luma, hluma, hlumaU, hlumaV, hlumaY, hspread⟩ := @combineLuma_spec width height
    (width / 2) (height / 2) ⟨mainY, mainUv.1, mainUv.2⟩ dst hw hh hmainY hmainU hmainV hdst.y
    hdst.u hdst.v
  have hauxChroma : ∀ c, ((⟨strips.plane, auxUv.1, auxUv.2⟩ : Planes).chroma c).Sized
      (width / 2) (height / 2) := by
    intro c
    cases c with
    | u => exact hauxU
    | v => exact hauxV
  have hlumaChroma : ∀ c, (luma.chroma c).Sized width height := by
    intro c
    cases c with
    | u => exact hlumaU
    | v => exact hlumaV
  obtain ⟨dst', hchroma, hy, hodd, hjoined⟩ :=
    combineChroma_spec hw hh hfilled.sized hauxChroma hlumaChroma
  have heven : ∀ c, ∀ y < height / 2, SameRow width (2 * y) (src.chroma c) (dst'.chroma c) := by
    intro c y hyHalf
    have hyRow : 2 * y < height := by omega
    cases c with
    | u =>
      exact sameRow_even hw hsrc.u hyRow (hpicked y hyHalf).1 (hpickedOdd y hyHalf).1
        (hspread y hyHalf).1 (hjoined .u y hyHalf)
    | v =>
      exact sameRow_even hw hsrc.v hyRow (hpicked y hyHalf).2 (hpickedOdd y hyHalf).2
        (hspread y hyHalf).2 (hjoined .v y hyHalf)
  have hcolour : ∀ c, ∀ y < height, SameRow width y (src.chroma c) (dst'.chroma c) := by
    intro c y hyRow
    cases Nat.mod_two_eq_zero_or_one y with
    | inl hzero =>
      have hindex : y = 2 * (y / 2) := by omega
      rw [hindex]
      exact heven c (y / 2) (by omega)
    | inr hone =>
      have hindex : y = 2 * (y / 2) + 1 := by omega
      have hk : 2 * (y / 2) + 1 < height := by omega
      rw [hindex]
      exact sameRow_odd (hsrc.chroma c) hk (hfilled.rows c (y / 2) hk (slot_lt hk))
        (hodd c (y / 2) hk)
  refine ⟨⟨mainY, mainUv.1, mainUv.2⟩, ⟨strips.plane, auxUv.1, auxUv.2⟩, luma, dst', ?_, hluma,
    hchroma, ?_, ?_, ?_⟩
  · simp only [splitYuv444ToYuv420V1, hcopy, hpick, hstrips, hpickOdd, Option.bind_eq_bind,
      Option.bind_some]
    rfl
  · intro y hyRow
    obtain ⟨values, hvalues, -⟩ := hsrc.y.row hyRow
    refine ⟨⟨values, hvalues, ?_⟩, hcolour .u y hyRow, hcolour .v y hyRow⟩
    rw [hy, hlumaY y hyRow, hrows y hyRow, hvalues]
  · exact fun c k hk => ⟨slot_lt hk, hfilled.rows c k hk (slot_lt hk)⟩
  · exact fun c k c' k' h => slot_inj h

/-- A plane of some size whose values are all different. -/
def counting (stride size : ℕ) : Plane := ⟨(List.range size).map UInt8.ofNat, stride⟩

theorem combine_split_small :
    ∃ main' aux' luma dst',
      splitYuv444ToYuv420V1 ⟨counting 3 5, counting 2 4, counting 2 4⟩
        ⟨counting 2 4, counting 1 1, counting 1 1⟩ ⟨counting 2 32, counting 1 1, counting 1 1⟩ 2 2 =
          some (main', aux') ∧
      combineLumaToYuv444 main' ⟨counting 2 4, counting 4 6, counting 2 4⟩ 2 2 = some luma ∧
      combineChromaV1ToYuv444 aux' luma 2 2 = some dst' ∧
      (∀ y < 2, SameRow 2 y (counting 3 5) dst'.y ∧ SameRow 2 y (counting 2 4) dst'.u ∧
        SameRow 2 y (counting 2 4) dst'.v) := by
  obtain ⟨main', aux', luma, dst', hsplit, hluma, hchroma, hsame, -⟩ :=
    @combine_split 2 2 ⟨counting 3 5, counting 2 4, counting 2 4⟩
      ⟨counting 2 4, counting 1 1, counting 1 1⟩ ⟨counting 2 32, counting 1 1, counting 1 1⟩
      ⟨counting 2 4, counting 4 6, counting 2 4⟩ rfl rfl
      ⟨⟨by decide, by decide⟩, ⟨by decide, by decide⟩, ⟨by decide, by decide⟩⟩
      ⟨⟨by decide, by decide⟩, ⟨by decide, by decide⟩, ⟨by decide, by decide⟩⟩
      ⟨⟨by decide, by decide⟩, ⟨by decide, by decide⟩, ⟨by decide, by decide⟩⟩
      ⟨⟨by decide, by decide⟩, ⟨by decide, by decide⟩, ⟨by decide, by decide⟩⟩
  exact ⟨main', aux', luma, dst', hsplit, hluma, hchroma, hsame⟩

end Macrdp.Avc444
