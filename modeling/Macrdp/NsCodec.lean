import Mathlib.Algebra.Order.Ring.Int
import Macrdp.BitmapDelivery
import Macrdp.PlaneCoding

/-!
# The codec of the surface commands

A bitmap is split into a plane of brightness, two planes of colour, which lose some bits, and one of
opacity, and each plane is written in run-length codes. The client decodes the planes and puts the
picture together again.
-/

namespace Macrdp.NsCodec

open BitmapEncoding LittleEndian PlaneCoding Raster ServerFramebuffer

/-! ## The encoder -/

/-- The colours of a pixel and its opacity. -/
structure Rgba where
  r : UInt8
  g : UInt8
  b : UInt8
  a : UInt8
  deriving DecidableEq, Inhabited

/-- The brightness and the two colours of a pixel. -/
structure Ycocg where
  y : UInt8
  co : UInt8
  cg : UInt8
  deriving DecidableEq, Inhabited

/-- Take the colours of a pixel from its four bytes. -/
def extractRgba (fmt : PixelFormat) (p : Pixel) : Rgba :=
  match fmt with
  | .aRgb32 | .xRgb32 => ⟨p.getD 1 0, p.getD 2 0, p.getD 3 0, p.getD 0 0⟩
  | .aBgr32 | .xBgr32 => ⟨p.getD 3 0, p.getD 2 0, p.getD 1 0, p.getD 0 0⟩
  | .bgrA32 | .bgrX32 => ⟨p.getD 2 0, p.getD 1 0, p.getD 0 0, p.getD 3 0⟩
  | .rgbA32 | .rgbX32 => ⟨p.getD 0 0, p.getD 1 0, p.getD 2 0, p.getD 3 0⟩

/-- The brightness and the colours, which lose some bits. -/
def rgbToYcocg (c : Rgba) (cll : ℕ) : Ycocg :=
  let ri : ℤ := c.r.toNat
  let gi : ℤ := c.g.toNat
  let bi : ℤ := c.b.toNat
  let y := (ri >>> (2 : ℕ)) + (gi >>> (1 : ℕ)) + (bi >>> (2 : ℕ))
  let co := (ri - bi) >>> cll
  let cg := (-(ri >>> (1 : ℕ)) + gi - (bi >>> (1 : ℕ))) >>> cll
  ⟨UInt8.ofInt y, UInt8.ofInt co, UInt8.ofInt cg⟩

/-- The pixels in the order of the planes, the bottom row first; `none` where a pixel is not in the
data. -/
def pixels (b : BitmapUpdate) (cll : ℕ) : Option (List Ycocg) := do
  let bpp := b.format.bytesPerPixel
  let rows ← (List.range b.height).reverse.mapM fun row =>
    (List.range b.width).mapM fun col =>
      (slice b.data (row * b.stride + col * bpp) (row * b.stride + col * bpp + bpp)).map fun p =>
        rgbToYcocg (extractRgba b.format p) cll
  return rows.flatten

/-- Encode a bitmap; `none` where the program reads out of bounds or does not end. -/
def encode (b : BitmapUpdate) (colorLossLevel : UInt8) : Option (List UInt8) := do
  let pixels ← pixels b colorLossLevel.toNat
  let yRle ← rleEncode (pixels.map Ycocg.y)
  let coRle ← rleEncode (pixels.map Ycocg.co)
  let cgRle ← rleEncode (pixels.map Ycocg.cg)
  -- The picture is opaque whatever the bitmap has for it.
  let aRle ← rleEncode (pixels.map fun _ => 0xFF)
  return littleEndian 4 yRle.length ++ littleEndian 4 coRle.length ++
    littleEndian 4 cgRle.length ++ littleEndian 4 aRle.length ++ [colorLossLevel, 0, 0, 0] ++
    yRle ++ coRle ++ cgRle ++ aRle

/-! ## The client -/

/-- A byte as a signed number. -/
def signed (b : UInt8) : ℤ := if b.toNat < 128 then b.toNat else b.toNat - 256

/-- The byte nearest to a number. -/
def clampByte (v : ℤ) : UInt8 := UInt8.ofNat (min v.toNat 255)

/-- The colours of a pixel from its planes. -/
def colour (level : ℕ) (p : Ycocg) (a : UInt8) : Rgba :=
  let y : ℤ := p.y.toNat
  let co := signed p.co * 2 ^ (level - 1)
  let cg := signed p.cg * 2 ^ (level - 1)
  ⟨clampByte (y + co - cg), clampByte (y + cg), clampByte (y - co - cg), a⟩

/-- The picture of four planes. -/
def assemble (level width height : ℕ) (y co cg a : List UInt8) : Picture Rgba :=
  bottomUp width height ((List.range (width * height)).map fun k =>
    colour level ⟨y.getD k 0, co.getD k 0, cg.getD k 0⟩ (a.getD k 0))

/-- A size in the header of a frame. -/
def planeSize (data : List UInt8) (k : ℕ) : ℕ := ofLittleEndian ((data.drop (4 * k)).take 4)

/-- Decode a frame of a size. -/
def decode (width height : ℕ) (data : List UInt8) : Option (Picture Rgba) :=
  let n := width * height
  let level := (data.getD 16 0).toNat
  let planes := data.drop 20
  if data.length < 20 ∨ ¬ (1 ≤ level ∧ level ≤ 7) ∨ data.getD 17 0 ≠ 0 ∨ planes.length <
      planeSize data 0 + planeSize data 1 + planeSize data 2 + planeSize data 3 then none
  else do
    let y ← decodePlane n (planes.take (planeSize data 0))
    let planes := planes.drop (planeSize data 0)
    let co ← decodePlane n (planes.take (planeSize data 1))
    let planes := planes.drop (planeSize data 1)
    let cg ← decodePlane n (planes.take (planeSize data 2))
    let planes := planes.drop (planeSize data 2)
    let a ← decodePlane n (planes.take (planeSize data 3))
    return assemble level width height y co cg a

/-! ## What is expected -/

/-- A bitmap has all its rows. -/
structure Complete (b : BitmapUpdate) : Prop where
  width_pos : 0 < b.width
  height_pos : 0 < b.height
  long : (b.height - 1) * b.stride + b.width * 4 ≤ b.data.length

/-- The colours of a bitmap. -/
def source (b : BitmapUpdate) : Picture Rgba := fun i j =>
  extractRgba b.format (pixelAt 4 b.data b.stride i j)

/-- Two bytes differ by no more than some number. -/
def Near (most : ℕ) (first second : UInt8) : Prop :=
  first.toNat ≤ second.toNat + most ∧ second.toNat ≤ first.toNat + most

/-- Two pixels differ in no colour by more than some number. -/
def Alike (most : ℕ) (first second : Rgba) : Prop :=
  Near most first.r second.r ∧ Near most first.g second.g ∧ Near most first.b second.b

/-- The picture that the client shows is opaque and has the colours of the bitmap, but for the bits
that were lost. -/
def Faithful (b : BitmapUpdate) (level : UInt8) : Prop :=
  ∃ data pic, encode b level = some data ∧ decode b.width b.height data = some pic ∧
    ∀ i < b.width, ∀ j < b.height,
      (pic i j).a = 255 ∧ Alike (2 ^ level.toNat + 3) (pic i j) (source b i j)

/-- The pixels of a bitmap in the order of the planes. -/
def planar (b : BitmapUpdate) (cll : ℕ) : List Ycocg :=
  ((List.range b.height).reverse.map fun j =>
    (List.range b.width).map fun i => rgbToYcocg (source b i j) cll).flatten

/-! ## Colours -/

variable {v : ℤ}

/-- A signed byte keeps a number of its range. -/
theorem signed_ofInt (hlow : -128 ≤ v) (hhigh : v ≤ 127) : signed (UInt8.ofInt v) = v := by
  have hnat : (UInt8.ofInt v).toNat = (v % 256).toNat := by
    change (UInt8.ofNat (v % 256).toNat).toNat = _
    rw [UInt8.toNat_ofNat']
    omega
  rw [signed, hnat]
  split
  · omega
  · omega

/-- A byte keeps a number of its range. -/
theorem toNat_ofInt (hlow : 0 ≤ v) (hhigh : v ≤ 255) : ((UInt8.ofInt v).toNat : ℤ) = v := by
  have hnat : (UInt8.ofInt v).toNat = (v % 256).toNat := by
    change (UInt8.ofNat (v % 256).toNat).toNat = _
    rw [UInt8.toNat_ofNat']
    omega
  rw [hnat]
  omega

/-- The nearest byte is no further away. -/
theorem near_clampByte {b : UInt8} {most : ℕ} (hlow : (b.toNat : ℤ) ≤ v + most)
    (hhigh : v ≤ b.toNat + most) : Near most (clampByte v) b := by
  have hb : b.toNat < 256 := b.toNat_lt
  have hnat : (clampByte v).toNat = min v.toNat 255 := by
    change (UInt8.ofNat (min v.toNat 255)).toNat = _
    rw [UInt8.toNat_ofNat']
    omega
  constructor
  · rw [hnat]
    omega
  · rw [hnat]
    omega

/-- A quotient by an even number: it fits a byte when the dividend fits nine bits, and half of the
number times it is near half of the dividend. -/
theorem halved {m : ℤ} (hm : 1 ≤ m) (hlow : -256 ≤ v) (hhigh : v ≤ 255) :
    (-128 ≤ v / (2 * m) ∧ v / (2 * m) ≤ 127) ∧
      2 * (v / (2 * m) * m) ≤ v ∧ v < 2 * (v / (2 * m) * m) + 2 * m := by
  have hpos : 0 < 2 * m := by omega
  have hdown : v / (2 * m) * (2 * m) ≤ v := Int.ediv_mul_le v (Int.ne_of_gt hpos)
  have hup : v < (v / (2 * m) + 1) * (2 * m) := Int.lt_ediv_add_one_mul_self v hpos
  have hfrom : -128 ≤ v / (2 * m) := (Int.le_ediv_iff_mul_le hpos).mpr (by omega)
  have hto : v / (2 * m) < 128 := (Int.ediv_lt_iff_lt_mul hpos).mpr (by omega)
  have hdouble : v / (2 * m) * (2 * m) = 2 * (v / (2 * m) * m) := by ring
  have hnext : (v / (2 * m) + 1) * (2 * m) = 2 * (v / (2 * m) * m) + 2 * m := by ring
  omega

/-- What the encoder makes of the colours: the brightness, and the two colours but for the bits that
were lost. -/
theorem rgbToYcocg_bounds (c : Rgba) (bits : ℕ) :
    ((rgbToYcocg c (bits + 1)).y.toNat : ℤ) =
        (c.r.toNat : ℤ) / 4 + (c.g.toNat : ℤ) / 2 + (c.b.toNat : ℤ) / 4 ∧
      (2 * (signed (rgbToYcocg c (bits + 1)).co * 2 ^ bits) ≤ (c.r.toNat : ℤ) - c.b.toNat ∧
        (c.r.toNat : ℤ) - c.b.toNat <
          2 * (signed (rgbToYcocg c (bits + 1)).co * 2 ^ bits) + 2 * 2 ^ bits) ∧
      2 * (signed (rgbToYcocg c (bits + 1)).cg * 2 ^ bits) ≤
          -((c.r.toNat : ℤ) / 2) + c.g.toNat - (c.b.toNat : ℤ) / 2 ∧
        -((c.r.toNat : ℤ) / 2) + c.g.toNat - (c.b.toNat : ℤ) / 2 <
          2 * (signed (rgbToYcocg c (bits + 1)).cg * 2 ^ bits) + 2 * 2 ^ bits := by
  have hr : c.r.toNat < 256 := c.r.toNat_lt
  have hg : c.g.toNat < 256 := c.g.toNat_lt
  have hb : c.b.toNat < 256 := c.b.toNat_lt
  have hpower : ((2 ^ (bits + 1) : ℕ) : ℤ) = 2 * 2 ^ bits := by
    push_cast
    ring
  have hm : (1 : ℤ) ≤ 2 ^ bits := one_le_pow₀ (by decide)
  obtain ⟨hco, hcoBounds⟩ :=
    @halved ((c.r.toNat : ℤ) - c.b.toNat) (2 ^ bits) hm (by omega) (by omega)
  obtain ⟨hcg, hcgBounds⟩ :=
    @halved (-((c.r.toNat : ℤ) / 2) + c.g.toNat - (c.b.toNat : ℤ) / 2) (2 ^ bits) hm (by omega)
      (by omega)
  have hone : ((2 ^ 1 : ℕ) : ℤ) = 2 := rfl
  have htwo : ((2 ^ 2 : ℕ) : ℤ) = 4 := rfl
  unfold rgbToYcocg
  simp only [Int.shiftRight_eq_div_pow, hpower, hone, htwo]
  rw [toNat_ofInt (by omega) (by omega), signed_ofInt hco.1 hco.2, signed_ofInt hcg.1 hcg.2]
  exact ⟨rfl, hcoBounds, hcgBounds⟩

/-- The colours come back but for the bits that were lost. -/
theorem alike_colour (c : Rgba) {level : ℕ} (hpos : 1 ≤ level) (a : UInt8) :
    Alike (2 ^ level + 3) (colour level (rgbToYcocg c level) a) c := by
  obtain ⟨bits, rfl⟩ : ∃ bits, level = bits + 1 := ⟨level - 1, by omega⟩
  have hmost : ((2 ^ (bits + 1) + 3 : ℕ) : ℤ) = 2 * 2 ^ bits + 3 := by
    push_cast
    ring
  obtain ⟨hy, hco, hcg⟩ := rgbToYcocg_bounds c bits
  unfold colour
  generalize rgbToYcocg c (bits + 1) = p at hy hco hcg
  rw [Nat.add_sub_cancel]
  refine ⟨near_clampByte ?_ ?_, near_clampByte ?_ ?_, near_clampByte ?_ ?_⟩
  all_goals omega

/-! ## Planes -/

variable {b : BitmapUpdate} {level : UInt8}
variable {i j : ℕ}

/-- Every pixel of a complete bitmap is in its data. -/
theorem Complete.pixel_le (hb : Complete b) (hi : i < b.width) (hj : j < b.height) :
    j * b.stride + i * 4 + 4 ≤ b.data.length := by
  have hrows : j * b.stride ≤ (b.height - 1) * b.stride := Nat.mul_le_mul_right _ (by omega)
  have hlong := hb.long
  omega

/-- The encoder reads the pixels of a complete bitmap. -/
theorem pixels_eq (hb : Complete b) (cll : ℕ) : pixels b cll = some (planar b cll) := by
  have hpixel : ∀ j, j < b.height → ∀ i ∈ List.range b.width,
      (slice b.data (j * b.stride + i * 4) (j * b.stride + i * 4 + 4)).map
        (fun p => rgbToYcocg (extractRgba b.format p) cll) =
        some (rgbToYcocg (source b i j) cll) := by
    intro j hj i hi
    rw [slice_eq b.data (Nat.le_add_right _ _) (hb.pixel_le (List.mem_range.mp hi) hj),
      Nat.add_sub_cancel_left]
    rfl
  have hrows : ((List.range b.height).reverse.mapM fun j => (List.range b.width).mapM fun i =>
      (slice b.data (j * b.stride + i * 4) (j * b.stride + i * 4 + 4)).map fun p =>
        rgbToYcocg (extractRgba b.format p) cll) =
      some ((List.range b.height).reverse.map fun j =>
        (List.range b.width).map fun i => rgbToYcocg (source b i j) cll) :=
    mapM_eq_map fun j hj => mapM_eq_map (hpixel j (List.mem_range.mp (List.mem_reverse.mp hj)))
  rw [pixels]
  exact congrArg (fun rows => rows.bind fun rows => some rows.flatten) hrows

/-- Each row of the planes is as long as the bitmap is wide. -/
theorem length_planar_row (cll : ℕ) : ∀ row ∈ (List.range b.height).reverse.map fun j =>
    (List.range b.width).map fun i => rgbToYcocg (source b i j) cll, row.length = b.width := by
  intro row hrow
  obtain ⟨j, -, rfl⟩ := List.mem_map.mp hrow
  rw [List.length_map, List.length_range]

theorem length_planar (b : BitmapUpdate) (cll : ℕ) :
    (planar b cll).length = b.width * b.height := by
  rw [planar, length_flatten (length_planar_row cll), List.length_map, List.length_reverse,
    List.length_range, Nat.mul_comm]

/-- A pixel in the planes. -/
theorem getElem?_planar (cll : ℕ) (hi : i < b.width) (hj : j < b.height) :
    (planar b cll)[(b.height - 1 - j) * b.width + i]? = some (rgbToYcocg (source b i j) cll) := by
  have hindex : b.height - 1 - (b.height - 1 - j) = j := by omega
  have hrow : ((List.range b.height).reverse.map fun j =>
      (List.range b.width).map fun i => rgbToYcocg (source b i j) cll)[b.height - 1 - j]? =
      some ((List.range b.width).map fun i => rgbToYcocg (source b i j) cll) := by
    rw [List.getElem?_map, List.getElem?_reverse (by rw [List.length_range]; omega),
      List.length_range, hindex, List.getElem?_range hj]
    rfl
  rw [planar, getElem?_flatten (length_planar_row cll) hi hrow, List.getElem?_map,
    List.getElem?_range hi]
  rfl

/-! ## Frames -/

/-- A frame of coded planes. -/
def frame (level : UInt8) (y co cg a : List UInt8) : List UInt8 :=
  littleEndian 4 y.length ++ littleEndian 4 co.length ++ littleEndian 4 cg.length ++
    littleEndian 4 a.length ++ [level, 0, 0, 0] ++ y ++ co ++ cg ++ a

/-- The encoder makes a frame of the planes of a complete bitmap. -/
theorem encode_eq (hb : Complete b) (hsize : b.width * b.height < 2 ^ 31) (level : UInt8) :
    encode b level = some (frame level (codesOf ((planar b level.toNat).map Ycocg.y))
      (codesOf ((planar b level.toNat).map Ycocg.co))
      (codesOf ((planar b level.toNat).map Ycocg.cg))
      (codesOf ((planar b level.toNat).map fun _ => 0xFF))) := by
  have hcoded : ∀ f : Ycocg → UInt8, rleEncode ((planar b level.toNat).map f) =
      some (codesOf ((planar b level.toNat).map f)) := by
    intro f
    refine rleEncode_eq ?_
    rw [List.length_map, length_planar]
    omega
  rw [encode, pixels_eq hb, Option.bind_eq_bind, Option.bind_some, hcoded, hcoded, hcoded, hcoded]
  rfl

/-- The client reads the sizes in the header of a frame. -/
theorem planeSize_frame {y co cg a : List UInt8} (hy : y.length < 2 ^ 32)
    (hco : co.length < 2 ^ 32) (hcg : cg.length < 2 ^ 32) (ha : a.length < 2 ^ 32) :
    planeSize (frame level y co cg a) 0 = y.length ∧
      planeSize (frame level y co cg a) 1 = co.length ∧
      planeSize (frame level y co cg a) 2 = cg.length ∧
      planeSize (frame level y co cg a) 3 = a.length := by
  have hread : ∀ {size : ℕ}, size < 2 ^ 32 → ofLittleEndian (littleEndian 4 size) = size := by
    intro size hsize
    rw [ofLittleEndian_littleEndian]
    exact Nat.mod_eq_of_lt hsize
  exact ⟨hread hy, hread hco, hread hcg, hread ha⟩

/-- The client decodes the planes of a frame. -/
theorem decode_frame {y co cg a y' co' cg' a' : List UInt8} {width height : ℕ}
    (hlevel : 1 ≤ level.toNat ∧ level.toNat ≤ 7) (hy : y.length < 2 ^ 32)
    (hco : co.length < 2 ^ 32) (hcg : cg.length < 2 ^ 32) (ha : a.length < 2 ^ 32)
    (hyDecoded : decodePlane (width * height) y = some y')
    (hcoDecoded : decodePlane (width * height) co = some co')
    (hcgDecoded : decodePlane (width * height) cg = some cg')
    (haDecoded : decodePlane (width * height) a = some a') :
    decode width height (frame level y co cg a) =
      some (assemble level.toNat width height y' co' cg' a') := by
  obtain ⟨hsizeY, hsizeCo, hsizeCg, hsizeA⟩ := @planeSize_frame level y co cg a hy hco hcg ha
  have hdrop : (frame level y co cg a).drop 20 = y ++ (co ++ (cg ++ a)) := by
    rw [← List.append_assoc, ← List.append_assoc]
    rfl
  have hbody : (y ++ (co ++ (cg ++ a))).length =
      y.length + co.length + cg.length + a.length := by
    rw [List.length_append, List.length_append, List.length_append]
    omega
  have hheader : 20 ≤ (frame level y co cg a).length := by
    simp only [frame, List.length_append, length_littleEndian, List.length_cons]
    omega
  have hlevelAt : (frame level y co cg a).getD 16 0 = level := rfl
  have hsubsampling : (frame level y co cg a).getD 17 0 = 0 := rfl
  have haccepted : ¬ ((frame level y co cg a).length < 20 ∨
      ¬ (1 ≤ level.toNat ∧ level.toNat ≤ 7) ∨ (0 : UInt8) ≠ 0 ∨
      (y ++ (co ++ (cg ++ a))).length < y.length + co.length + cg.length + a.length) := by
    intro h
    rcases h with hshort | hrange | hzero | hmissing
    · omega
    · exact hrange hlevel
    · exact hzero rfl
    · omega
  rw [decode]
  dsimp only
  rw [hlevelAt, hsubsampling, hdrop, hsizeY, hsizeCo, hsizeCg, hsizeA, if_neg haccepted,
    List.take_left, List.drop_left, List.take_left, List.drop_left, List.take_left,
    List.drop_left, List.take_length, hyDecoded, hcoDecoded, hcgDecoded, haDecoded]
  rfl

/-- A pixel of the picture of four planes. -/
theorem assemble_at {level width height : ℕ} (y co cg a : List UInt8) (hi : i < width)
    (hj : j < height) : assemble level width height y co cg a i j =
      colour level ⟨y.getD ((height - 1 - j) * width + i) 0,
        co.getD ((height - 1 - j) * width + i) 0, cg.getD ((height - 1 - j) * width + i) 0⟩
        (a.getD ((height - 1 - j) * width + i) 0) := by
  have hindex := bottomUp_index hi hj
  rw [Nat.mul_comm height width] at hindex
  rw [assemble, bottomUp, List.getD_eq_getElem?_getD, List.getElem?_map,
    List.getElem?_range hindex]
  rfl

/-- Every place in the planes is that of a pixel. -/
theorem exists_pixel {width height k : ℕ} (hk : k < width * height) :
    ∃ i j, i < width ∧ j < height ∧ (height - 1 - j) * width + i = k := by
  have hwidth : 0 < width := Nat.pos_of_ne_zero fun hzero => by simp [hzero] at hk
  have hrow : k / width < height := by
    rw [Nat.div_lt_iff_lt_mul hwidth, Nat.mul_comm]
    exact hk
  have hplace : k / width * width + k % width = k := by
    rw [Nat.mul_comm]
    exact Nat.div_add_mod k width
  generalize k / width = row at hrow hplace
  refine ⟨k % width, height - 1 - row, Nat.mod_lt _ hwidth, by omega, ?_⟩
  rwa [show height - 1 - (height - 1 - row) = row by omega]

/-- A byte that is read of a plane made of the pixels. -/
theorem getD_planar (cll : ℕ) (f : Ycocg → UInt8) (hi : i < b.width)
    (hj : j < b.height) : ((planar b cll).map f).getD ((b.height - 1 - j) * b.width + i) 0 =
      f (rgbToYcocg (source b i j) cll) := by
  rw [List.getD_eq_getElem?_getD, List.getElem?_map, getElem?_planar cll hi hj]
  rfl

/-- The opacity is lost in pictures of six and of seven pixels: the codes of a run of two or three
are taken for pixels. -/
theorem opacity_iff {n : ℕ} {decoded : List UInt8}
    (hdecoded : decodePlane n (codesOf (List.replicate n 0xFF)) = some decoded)
    (hkept : Kept (List.replicate n (0xFF : UInt8)) → decoded = List.replicate n 0xFF) :
    (∀ k < n, decoded.getD k 0 = 255) ↔ n ≠ 6 ∧ n ≠ 7 := by
  constructor
  · intro h
    constructor
    · intro hsix
      subst hsix
      have hvalue : decodePlane 6 (codesOf (List.replicate 6 0xFF)) =
          some [0xFF, 0xFF, 0, 0xFF, 0xFF, 0xFF] := by decide
      rw [hvalue] at hdecoded
      cases hdecoded
      exact absurd (h 2 (by decide)) (by decide)
    · intro hseven
      subst hseven
      have hvalue : decodePlane 7 (codesOf (List.replicate 7 0xFF)) =
          some [0xFF, 0xFF, 1, 0xFF, 0xFF, 0xFF, 0xFF] := by decide
      rw [hvalue] at hdecoded
      cases hdecoded
      exact absurd (h 2 (by decide)) (by decide)
  · intro h k hk
    rw [hkept (kept_replicate h.1 h.2 _), List.getD_eq_getElem?_getD, List.getElem?_replicate,
      if_pos hk]
    rfl

/-! ## The whole -/

/-- The client decodes every frame of a complete bitmap. The picture is opaque exactly if it has
neither six nor seven pixels, and it has the colours of the bitmap, but for the bits that were lost,
if the planes of brightness and colour are kept. -/
theorem decode_encoded (hb : Complete b) (hsize : b.width * b.height < 2 ^ 31)
    (hlevel : 1 ≤ level.toNat ∧ level.toNat ≤ 7) :
    ∃ data pic, encode b level = some data ∧ decode b.width b.height data = some pic ∧
      ((∀ i < b.width, ∀ j < b.height, (pic i j).a = 255) ↔
        b.width * b.height ≠ 6 ∧ b.width * b.height ≠ 7) ∧
      (Kept ((planar b level.toNat).map Ycocg.y) → Kept ((planar b level.toNat).map Ycocg.co) →
        Kept ((planar b level.toNat).map Ycocg.cg) → ∀ i < b.width, ∀ j < b.height,
          Alike (2 ^ level.toNat + 3) (pic i j) (source b i j)) := by
  have hlength : ∀ f : Ycocg → UInt8,
      ((planar b level.toNat).map f).length = b.width * b.height := by
    intro f
    rw [List.length_map, length_planar]
  have hplane : ∀ f : Ycocg → UInt8, ∃ decoded,
      decodePlane (b.width * b.height) (codesOf ((planar b level.toNat).map f)) = some decoded ∧
        (Kept ((planar b level.toNat).map f) → decoded = (planar b level.toNat).map f) := by
    intro f
    rw [← hlength f]
    exact exists_decodePlane (by rw [hlength]; omega)
  have hcoded : ∀ f : Ycocg → UInt8,
      (codesOf ((planar b level.toNat).map f)).length < 2 ^ 32 := by
    intro f
    have hle := length_codesOf_le ((planar b level.toNat).map f)
    rw [hlength] at hle
    omega
  have hclear : ((planar b level.toNat).map fun _ => (0xFF : UInt8)) =
      List.replicate (b.width * b.height) 0xFF := by
    rw [← length_planar b level.toNat]
    exact List.map_const'
  obtain ⟨y, hy, hyKept⟩ := hplane Ycocg.y
  obtain ⟨co, hco, hcoKept⟩ := hplane Ycocg.co
  obtain ⟨cg, hcg, hcgKept⟩ := hplane Ycocg.cg
  obtain ⟨a, ha, haKept⟩ := hplane fun _ => 0xFF
  have haClear := ha
  rw [hclear] at haClear haKept
  have hopacity := opacity_iff haClear haKept
  refine ⟨_, _, encode_eq hb hsize level,
    decode_frame hlevel (hcoded _) (hcoded _) (hcoded _) (hcoded _) hy hco hcg ha, ?_, ?_⟩
  · rw [← hopacity]
    constructor
    · intro h k hk
      obtain ⟨i, j, hi, hj, rfl⟩ := exists_pixel hk
      have hpixel := h i hi j hj
      rw [assemble_at y co cg a hi hj] at hpixel
      exact hpixel
    · intro h i hi j hj
      have hindex := bottomUp_index hi hj
      rw [Nat.mul_comm b.height b.width] at hindex
      rw [assemble_at y co cg a hi hj]
      exact h _ hindex
  · intro hyKeeps hcoKeeps hcgKeeps i hi j hj
    rw [assemble_at y co cg a hi hj, hyKept hyKeeps, hcoKept hcoKeeps, hcgKept hcgKeeps,
      getD_planar level.toNat Ycocg.y hi hj, getD_planar level.toNat Ycocg.co hi hj,
      getD_planar level.toNat Ycocg.cg hi hj]
    exact alike_colour (source b i j) hlevel.1 _

/-- A frame that shows the picture has neither six nor seven pixels. -/
theorem Faithful.size (h : Faithful b level) (hb : Complete b)
    (hsize : b.width * b.height < 2 ^ 31) (hlevel : 1 ≤ level.toNat ∧ level.toNat ≤ 7) :
    b.width * b.height ≠ 6 ∧ b.width * b.height ≠ 7 := by
  obtain ⟨data, pic, hencoded, hdecoded, hshown⟩ := h
  obtain ⟨data', pic', hencoded', hdecoded', hclear, -⟩ := decode_encoded hb hsize hlevel
  rw [hencoded, Option.some.injEq] at hencoded'
  rw [← hencoded', hdecoded, Option.some.injEq] at hdecoded'
  rw [← hdecoded'] at hclear
  exact hclear.mp fun i hi j hj => (hshown i hi j hj).1

/-- The client shows the picture of a bitmap if it has neither six nor seven pixels and its planes
are kept; it does not if it has six or seven. -/
theorem faithful_of_kept (hb : Complete b) (hsize : b.width * b.height < 2 ^ 31)
    (hlevel : 1 ≤ level.toNat ∧ level.toNat ≤ 7) :
    (Faithful b level → b.width * b.height ≠ 6 ∧ b.width * b.height ≠ 7) ∧
      (b.width * b.height ≠ 6 ∧ b.width * b.height ≠ 7 ∧
        Kept ((planar b level.toNat).map Ycocg.y) ∧ Kept ((planar b level.toNat).map Ycocg.co) ∧
        Kept ((planar b level.toNat).map Ycocg.cg) → Faithful b level) := by
  refine ⟨fun h => h.size hb hsize hlevel, ?_⟩
  intro h
  obtain ⟨hsix, hseven, hy, hco, hcg⟩ := h
  obtain ⟨data, pic, hencoded, hdecoded, hclear, halike⟩ := decode_encoded hb hsize hlevel
  have hopacity := hclear.mpr ⟨hsix, hseven⟩
  have hcolours := halike hy hco hcg
  exact ⟨data, pic, hencoded, hdecoded, fun i hi j hj => ⟨hopacity i hi j hj, hcolours i hi j hj⟩⟩

/-- A white bitmap of some size. -/
def white (width height : ℕ) : BitmapUpdate :=
  ⟨0, 0, width, height, .bgrX32, List.replicate (width * height * 4) 255, width * 4⟩

/-- A white bitmap of eight pixels is shown. -/
theorem faithful_of_kept_eight : Faithful (white 4 2) 3 :=
  (faithful_of_kept ⟨by decide, by decide, by decide⟩ (by decide) (by decide)).2
    ⟨by decide, by decide, by decide, by decide, by decide⟩

/-- A white bitmap of six pixels is not opaque when it is shown. -/
theorem not_faithful_six :
    ¬ ∀ (b : BitmapUpdate) (level : UInt8), Complete b → b.width * b.height < 2 ^ 31 →
      1 ≤ level.toNat ∧ level.toNat ≤ 7 → Faithful b level := by
  intro h
  have hcomplete : Complete (white 3 2) := ⟨by decide, by decide, by decide⟩
  have hsize := (h (white 3 2) 3 hcomplete (by decide) (by decide)).size hcomplete (by decide)
    (by decide)
  exact hsize.1 rfl

end Macrdp.NsCodec
