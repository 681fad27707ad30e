import Macrdp.LittleEndian
import Macrdp.Raster
import Mathlib.Data.List.Forall2

/-!
# Images on the clipboard

An image goes over the clipboard as a device-independent bitmap: a header, perhaps masks, and rows
of pixels that are padded to whole words. What is sent has 32 bits for a pixel and begins with the
topmost row; what is received may have 24 bits and begin with the lowest.
-/

namespace Macrdp.ClipboardImage

open LittleEndian Raster

/-! ## Arithmetic and access that may fail -/

/-- Why a conversion gives no image. -/
inductive Fault where
  /-- A range of bytes that are not all there. -/
  | outOfRange
  /-- A number that overflows. -/
  | overflow
  /-- More bytes than a buffer may have. -/
  | capacity
  | bail (message : String)
  deriving DecidableEq, Repr

@[simp] theorem ok_bind {α β : Type} (a : α) (f : α → Except Fault β) : (.ok a >>= f) = f a := rfl

/-- Elements that the code takes to be there. -/
def inRange {α : Type} : Option α → Except Fault α
  | some a => .ok a
  | none => .error .outOfRange

@[simp] theorem inRange_some {α : Type} (a : α) : inRange (some a) = .ok a := rfl

/-- A size or an offset, which must not overflow. -/
def usize (n : ℕ) : Except Fault ℕ := if n < 2 ^ 64 then .ok n else .error .overflow

variable {n start : ℕ}

theorem usize_eq (h : n < 2 ^ 64) : usize n = .ok n := if_pos h

/-- A size or an offset, whose overflow is noticed. -/
def checked (n : ℕ) (message : String) : Except Fault ℕ :=
  if n < 2 ^ 64 then .ok n else .error (.bail message)

theorem checked_eq (h : n < 2 ^ 64) (message : String) : checked n message = .ok n :=
  if_pos h

/-- An unsigned difference, which must not overflow. -/
def sub (a b : ℕ) : Except Fault ℕ := if b ≤ a then .ok (a - b) else .error .overflow

theorem sub_eq {a b : ℕ} (h : b ≤ a) : sub a b = .ok (a - b) := if_pos h

/-- Room for some bytes. -/
def withCapacity (n : ℕ) : Except Fault Unit := if n < 2 ^ 63 then .ok () else .error .capacity

theorem withCapacity_eq (h : n < 2 ^ 63) : withCapacity n = .ok () := if_pos h

/-- The bits of a 32-bit number, read as a signed one. -/
def asI32 (n : ℕ) : ℤ := if n < 2 ^ 31 then n else n - 2 ^ 32

/-- The opposite of a signed number, which must not overflow. -/
def negI32 (v : ℤ) : Except Fault ℤ := if v = -2 ^ 31 then .error .overflow else .ok (-v)

/-- A signed number as bytes. -/
def i32Bytes (v : ℤ) : List UInt8 := littleEndian 4 (v % 2 ^ 32).toNat

/-- Reading the bytes of a signed number gives it back. -/
theorem asI32_i32Bytes {v : ℤ} (hlow : -2 ^ 31 ≤ v) (hhigh : v < 2 ^ 31) :
    asI32 (ofLittleEndian (i32Bytes v)) = v := by
  have hsmall : (v % 2 ^ 32).toNat % 256 ^ 4 = (v % 2 ^ 32).toNat := Nat.mod_eq_of_lt (by omega)
  rw [i32Bytes, ofLittleEndian_littleEndian, hsmall, asI32]
  split <;> omega

/-- A small number is the same when it is read as a signed one. -/
theorem asI32_of_lt (h : n < 2 ^ 31) : asI32 n = n := if_pos h

/-- Steps that all succeed with results of some kind give a list of such results. -/
theorem mapM_ok {ι α : Type} {f : ι → Except Fault α} {P : ι → α → Prop} {indices : List ι}
    (h : ∀ k ∈ indices, ∃ a, f k = .ok a ∧ P k a) :
    ∃ results, indices.mapM f = .ok results ∧ List.Forall₂ P indices results := by
  induction indices with
  | nil => exact ⟨[], rfl, List.Forall₂.nil⟩
  | cons k rest ih =>
    obtain ⟨a, ha, hP⟩ := h k List.mem_cons_self
    obtain ⟨results, hresults, hall⟩ := ih fun l hl => h l (List.mem_cons_of_mem k hl)
    refine ⟨a :: results, ?_, List.Forall₂.cons hP hall⟩
    rw [List.mapM_cons, ha, ok_bind, hresults, ok_bind]
    rfl

/-! ## Pixels -/

/-- A pixel. -/
structure Rgba where
  r : UInt8
  g : UInt8
  b : UInt8
  a : UInt8
  deriving DecidableEq, Repr

/-- The bytes of a pixel of an image. -/
def Rgba.bytes (px : Rgba) : List UInt8 := [px.r, px.g, px.b, px.a]

/-- The bytes of a pixel of a bitmap of 32 bits. -/
def Rgba.bgra (px : Rgba) : List UInt8 := [px.b, px.g, px.r, px.a]

theorem Rgba.length_bytes (px : Rgba) : px.bytes.length = 4 := rfl

theorem Rgba.length_bgra (px : Rgba) : px.bgra.length = 4 := rfl

/-- A decoded image, whose pixels stand row after row. -/
structure RgbaImage where
  width : ℕ
  height : ℕ
  pixels : List Rgba
  length_pixels : pixels.length = width * height
  deriving DecidableEq, Repr

/-- What the image encoder is given. -/
structure Buffer where
  width : ℕ
  height : ℕ
  data : List UInt8
  deriving DecidableEq, Repr

/-- The image as the encoder would be given it. -/
def RgbaImage.buffer (img : RgbaImage) : Buffer :=
  ⟨img.width, img.height, img.pixels.flatMap Rgba.bytes⟩

/-! ## From an image to a bitmap -/

/-- A header of 40 bytes for pixels of 32 bits. -/
def infoHeader (biWidth biHeight : ℤ) (biSizeImage : ℕ) : List UInt8 :=
  littleEndian 4 40 ++ i32Bytes biWidth ++ i32Bytes biHeight ++ littleEndian 2 1 ++
    littleEndian 2 32 ++ littleEndian 4 0 ++ littleEndian 4 biSizeImage ++ littleEndian 4 0 ++
    littleEndian 4 0 ++ littleEndian 4 0 ++ littleEndian 4 0

/-- The bitmap for an image that has been decoded. -/
def pngOrTiffToDib (img : RgbaImage) : Except Fault (List UInt8) := do
  let rowBytes ← usize (img.width * 4)
  let pixelBytes ← usize (rowBytes * img.height)
  let size ← usize (40 + pixelBytes)
  withCapacity size
  let biHeight ← negI32 (asI32 img.height)
  return infoHeader (asI32 img.width) biHeight pixelBytes ++ img.pixels.flatMap Rgba.bgra

/-! ## From a bitmap to an image -/

/-- The fields of a header that are used. -/
structure Header where
  biSize : ℕ
  width : ℤ
  heightSigned : ℤ
  bitCount : ℕ
  compression : ℕ
  deriving DecidableEq, Repr

/-- A number among the bytes. -/
def field (dib : List UInt8) (start width : ℕ) : Except Fault ℕ := do
  let bytes ← inRange (slice dib start (start + width))
  return ofLittleEndian bytes

/-- The header of a bitmap, which must have its size. -/
def readHeader (dib : List UInt8) : Except Fault Header :=
  if dib.length < 40 then .error (.bail "DIB shorter than BITMAPINFOHEADER")
  else do
    let biSize ← field dib 0 4
    if biSize < 40 ∨ dib.length < biSize then .error (.bail s!"bogus biSize {biSize}")
    else
      let width ← field dib 4 4
      let heightSigned ← field dib 8 4
      let bitCount ← field dib 14 2
      let compression ← field dib 16 4
      return ⟨biSize, asI32 width, asI32 heightSigned, bitCount, compression⟩

namespace Header

/-- The bitmap says where its colours are. -/
def bitfields (h : Header) : Bool := h.compression == 3 || h.compression == 6

/-- What is not supported is refused. -/
def check (h : Header) : Except Fault Unit :=
  let width := h.width
  let compression := h.compression
  let bitCount := h.bitCount
  if width ≤ 0 then .error (.bail s!"invalid width {width}")
  else if h.heightSigned = 0 then .error (.bail "invalid height 0")
  else if compression ≠ 0 ∧ h.bitfields = false then
    .error (.bail s!"unsupported BI_COMPRESSION {compression}")
  else if bitCount ≠ 24 ∧ bitCount ≠ 32 then
    .error (.bail s!"unsupported biBitCount {bitCount}")
  else if h.bitfields = true ∧ bitCount ≠ 32 then
    .error (.bail s!"BI_BITFIELDS with biBitCount={bitCount} not supported")
  else .ok ()

/-- The columns. -/
def w (h : Header) : ℕ := h.width.toNat

/-- The rows. -/
def h (header : Header) : ℕ := header.heightSigned.natAbs

/-- The topmost row comes first. -/
def topDown (h : Header) : Bool := decide (h.heightSigned < 0)

/-- The bytes of a pixel. -/
def bpp (h : Header) : ℕ := h.bitCount / 8

/-- The row of the bitmap for a row of the image. -/
def srcRow (header : Header) (row : ℕ) : Except Fault ℕ :=
  if header.topDown = true then .ok row
  else do
    let last ← sub header.h 1
    sub last row

/-- The bytes of a row with its padding. -/
def stride (h : Header) : Except Fault ℕ := do
  let row ← usize (h.w * h.bpp)
  let padded ← usize (row + 3)
  return padded &&& (2 ^ 64 - 1 - 3)

/-- The bytes of the masks between the header and the pixels. -/
def maskBytes (h : Header) : ℕ :=
  if h.bitfields = true ∧ h.biSize = 40 then if h.compression = 6 then 16 else 12 else 0

end Header

/-- Consecutive pieces of some size, without what is left over. -/
def chunksExact (size : ℕ) (data : List UInt8) : List (List UInt8) :=
  (List.range (data.length / size)).map fun k => (data.drop (k * size)).take size

/-- The bytes of a pixel, from those it has in a bitmap. -/
def rgbaOf (bpp : ℕ) (chunk : List UInt8) : Except Fault (List UInt8) := do
  let b ← inRange chunk[0]?
  let g ← inRange chunk[1]?
  let r ← inRange chunk[2]?
  let a ← inRange (if bpp = 4 then chunk[3]? else some 0xFF)
  return [r, g, b, a]

/-- The bytes of a row of the image. -/
def convertRow (dib : List UInt8) (header : Header) (stride pixelStart row : ℕ) :
    Except Fault (List UInt8) := do
  let srcRow ← header.srcRow row
  let before ← usize (srcRow * stride)
  let rowOff ← usize (pixelStart + before)
  let size ← usize (header.w * header.bpp)
  let stop ← usize (rowOff + size)
  let rowBytes ← inRange (slice dib rowOff stop)
  let pixels ← (chunksExact header.bpp rowBytes).mapM (rgbaOf header.bpp)
  return pixels.flatten

/-- The image of a bitmap, as the encoder is given it. -/
def dibToPng (dib : List UInt8) : Except Fault Buffer := do
  let header ← readHeader dib
  header.check
  let stride ← header.stride
  let pixelStart ← usize (header.biSize + header.maskBytes)
  let rows ← checked (stride * header.h) "overflow"
  let need ← checked (pixelStart + rows) "overflow"
  let len := dib.length
  if len < need then .error (.bail s!"DIB payload truncated: have {len}, need {need}")
  else
    let count ← checked (header.w * header.h) "RGBA buffer size overflow"
    let cap ← checked (count * 4) "RGBA buffer size overflow"
    withCapacity cap
    let data ← (List.range header.h).mapM (convertRow dib header stride pixelStart)
    return ⟨header.w, header.h, data.flatten⟩

/-! ## What the image shows -/

namespace Header

/-- The bytes of a row: the least multiple of four that has room for the pixels. -/
def rowSize (h : Header) : ℕ := (h.w * h.bpp + 3) / 4 * 4

/-- Where the pixels begin. -/
def pixelStart (h : Header) : ℕ := h.biSize + h.maskBytes

/-- Which row of the bitmap a row of the image is. -/
def sourceRow (header : Header) (y : ℕ) : ℕ := if header.topDown = true then y else header.h - 1 - y

/-- Where the bytes of a pixel are in the bitmap. -/
def sampleAt (h : Header) (x y : ℕ) : ℕ := h.pixelStart + h.sourceRow y * h.rowSize + x * h.bpp

/-- The header is one of those that are supported. -/
structure Supported (h : Header) : Prop where
  biSize_lt : h.biSize < 2 ^ 32
  width_pos : 0 < h.width
  width_lt : h.width < 2 ^ 31
  height_ne : h.heightSigned ≠ 0
  le_height : -2 ^ 31 ≤ h.heightSigned
  height_lt : h.heightSigned < 2 ^ 31
  bpp_eq : h.bpp = 3 ∨ h.bpp = 4

end Header

/-- A pixel, as an image and as a bitmap have it. -/
def Sample (bpp : ℕ) (px stored : List UInt8) : Prop :=
  ∃ p : Rgba, px = p.bytes ∧
    (bpp = 4 ∧ stored = p.bgra ∨ bpp = 3 ∧ stored = [p.b, p.g, p.r] ∧ p.a = 0xFF)

theorem Sample.length_eq {bpp : ℕ} {px stored : List UInt8} (h : Sample bpp px stored) :
    px.length = 4 := by
  obtain ⟨p, rfl, -⟩ := h
  rfl

/-- The image has the pixels of a bitmap. -/
structure Shows (out : Buffer) (dib : List UInt8) (header : Header) : Prop where
  width_eq : (out.width : ℤ) = header.width
  height_eq : out.height = header.heightSigned.natAbs
  size : out.data.length = out.width * out.height * 4
  pixels : ∀ x < out.width, ∀ y < out.height,
    Sample header.bpp (pixelAt 4 out.data (out.width * 4) x y)
      ((dib.drop (header.sampleAt x y)).take header.bpp)

/-! ## The sizes are in bounds -/

/-- Clearing the two lowest bits of a size. -/
theorem clear_low (h : n < 2 ^ 64) : n &&& (2 ^ 64 - 1 - 3) = n / 4 * 4 := by
  have hmask : n &&& (2 ^ 64 - 1 - 3) = (n >>> 2 &&& (2 ^ 62 - 1)) <<< 2 := by
    have hthree : (2 ^ 64 - 1 - 3 : ℕ) = (2 ^ 62 - 1) <<< 2 := by decide +kernel
    refine Nat.eq_of_testBit_eq fun i => ?_
    rw [hthree, Nat.testBit_and, Nat.testBit_shiftLeft, Nat.testBit_shiftLeft, Nat.testBit_and,
      Nat.testBit_shiftRight]
    by_cases hi : 2 ≤ i <;> simp [hi]
  rw [hmask, Nat.and_two_pow_sub_one_eq_mod, Nat.shiftRight_eq_div_pow, Nat.shiftLeft_eq]
  omega

namespace Header.Supported

variable {h : Header}

/-- The numbers of columns and rows are bounded. -/
theorem bounds (hs : h.Supported) : (h.w : ℤ) = h.width ∧ 0 < h.w ∧ h.w < 2 ^ 31 ∧ 0 < h.h ∧
    h.h ≤ 2 ^ 31 := by
  have hpos := hs.width_pos
  have hlt := hs.width_lt
  have hne := hs.height_ne
  have hlow := hs.le_height
  have hhigh := hs.height_lt
  simp only [Header.w, Header.h]
  omega

/-- A row has its pixels and not a word more. -/
theorem row_bounds (hs : h.Supported) : h.w * h.bpp ≤ h.rowSize ∧ h.rowSize < h.w * h.bpp + 4 ∧
    h.w * 3 ≤ h.w * h.bpp ∧ h.rowSize ≤ h.w * 4 := by
  rw [Header.rowSize]
  rcases hs.bpp_eq with hbpp | hbpp <;> rw [hbpp] <;> omega

/-- All rows together are smaller than the address space. -/
theorem image_lt (hs : h.Supported) :
    h.rowSize * h.h ≤ h.w * h.h * 4 ∧ h.w * h.h * 4 ≤ (2 ^ 33 - 4) * 2 ^ 31 := by
  obtain ⟨-, -, hw, -, hh⟩ := hs.bounds
  have hrow : h.rowSize ≤ h.w * 4 := hs.row_bounds.2.2.2
  constructor
  · calc h.rowSize * h.h ≤ h.w * 4 * h.h := Nat.mul_le_mul_right _ hrow
      _ = h.w * h.h * 4 := by ring
  · calc h.w * h.h * 4 = h.w * 4 * h.h := by ring
      _ ≤ (2 ^ 33 - 4) * 2 ^ 31 := Nat.mul_le_mul (by omega) hh

theorem stride_eq (hs : h.Supported) : h.stride = .ok h.rowSize := by
  have hw := hs.bounds.2.2.1
  have hrow := hs.row_bounds
  rw [Header.stride, usize_eq (by omega), ok_bind, usize_eq (by omega), ok_bind,
    clear_low (by omega)]
  rfl

theorem maskBytes_le (h : Header) : h.maskBytes ≤ 16 := by
  rw [Header.maskBytes]
  split <;> (try split) <;> omega

end Header.Supported

/-! ## The header -/

variable {dib : List UInt8}

theorem field_eq {width : ℕ} (h : start + width ≤ dib.length) :
    field dib start width = .ok (ofLittleEndian ((dib.drop start).take width)) := by
  rw [field, slice_eq dib (Nat.le_add_right _ _) h, Nat.add_sub_cancel_left]
  rfl

/-- A field is a number of its size. -/
theorem field_ok {width : ℕ} (h : start + width ≤ dib.length) :
    ∃ n, field dib start width = .ok n ∧ n < 256 ^ width := by
  refine ⟨_, field_eq h, ?_⟩
  have hlt := ofLittleEndian_lt ((dib.drop start).take width)
  rwa [List.length_take, List.length_drop, Nat.min_eq_left (by omega)] at hlt

/-- A field that stands after some bytes. -/
theorem field_append {front bytes : List UInt8} {width : ℕ} (hfront : front.length = start)
    (hbytes : bytes.length = width) (back : List UInt8) :
    field (front ++ (bytes ++ back)) start width = .ok (ofLittleEndian bytes) := by
  rw [field_eq (by simp only [List.length_append]; omega), List.drop_left' hfront,
    List.take_left' hbytes]

/-- A 32-bit number that is read as a signed one is one. -/
theorem asI32_bounds (h : n < 256 ^ 4) : -2 ^ 31 ≤ asI32 n ∧ asI32 n < 2 ^ 31 := by
  rw [asI32]
  split <;> omega

/-- A header that is read has numbers of the sizes of its fields. -/
theorem readHeader_cases (dib : List UInt8) :
    (∃ message, readHeader dib = .error (.bail message)) ∨
      ∃ header, readHeader dib = .ok header ∧ header.biSize < 2 ^ 32 ∧ header.width < 2 ^ 31 ∧
        -2 ^ 31 ≤ header.heightSigned ∧ header.heightSigned < 2 ^ 31 := by
  rw [readHeader]
  by_cases hshort : dib.length < 40
  · left
    exact ⟨_, if_pos hshort⟩
  rw [if_neg hshort]
  obtain ⟨biSize, hbiSize, hsize⟩ := field_ok (show 0 + 4 ≤ dib.length by omega)
  rw [hbiSize, ok_bind]
  by_cases hbogus : biSize < 40 ∨ dib.length < biSize
  · left
    exact ⟨_, if_pos hbogus⟩
  obtain ⟨width, hwidth, hw⟩ := field_ok (show 4 + 4 ≤ dib.length by omega)
  obtain ⟨height, hheight, hh⟩ := field_ok (show 8 + 4 ≤ dib.length by omega)
  obtain ⟨bits, hbits, -⟩ := field_ok (show 14 + 2 ≤ dib.length by omega)
  obtain ⟨comp, hcomp, -⟩ := field_ok (show 16 + 4 ≤ dib.length by omega)
  right
  rw [if_neg hbogus, hwidth, ok_bind, hheight, ok_bind, hbits, ok_bind, hcomp, ok_bind]
  exact ⟨_, rfl, by omega, (asI32_bounds hw).2, asI32_bounds hh⟩

/-- A header is refused with a message or one of those that are supported. -/
theorem Header.check_cases (h : Header) :
    (∃ message, h.check = .error (.bail message)) ∨
      h.check = .ok () ∧ 0 < h.width ∧ h.heightSigned ≠ 0 ∧
        (h.bitCount = 24 ∨ h.bitCount = 32) := by
  rw [Header.check]
  split
  · exact .inl ⟨_, rfl⟩
  split
  · exact .inl ⟨_, rfl⟩
  split
  · exact .inl ⟨_, rfl⟩
  split
  · exact .inl ⟨_, rfl⟩
  split
  · exact .inl ⟨_, rfl⟩
  right
  exact ⟨rfl, by omega, by assumption, by omega⟩

/-! ## The rows -/

/-- A chunk of the size of a pixel is one. -/
theorem rgbaOf_ok {bpp : ℕ} {chunk : List UInt8} (hbpp : bpp = 3 ∨ bpp = 4)
    (hlen : chunk.length = bpp) : ∃ px, rgbaOf bpp chunk = .ok px ∧ Sample bpp px chunk := by
  rcases hbpp with rfl | rfl
  · obtain ⟨b, g, r, rfl⟩ := List.length_eq_three.mp hlen
    exact ⟨_, rfl, ⟨r, g, b, 0xFF⟩, rfl, .inr ⟨rfl, rfl, rfl⟩⟩
  · obtain ⟨b, rest, rfl⟩ := List.exists_cons_of_length_eq_add_one hlen
    obtain ⟨g, r, a, rfl⟩ := List.length_eq_three.mp (Nat.succ.inj hlen)
    exact ⟨_, rfl, ⟨r, g, b, a⟩, rfl, .inl ⟨rfl, rfl⟩⟩

/-- The pieces of a row of a bitmap are the bytes of its pixels. -/
theorem chunksExact_row {w bpp : ℕ} (hbpp : 0 < bpp) (h : start + w * bpp ≤ dib.length) :
    chunksExact bpp ((dib.drop start).take (w * bpp)) =
      (List.range w).map fun k => (dib.drop (start + k * bpp)).take bpp := by
  have hlen : ((dib.drop start).take (w * bpp)).length / bpp = w := by
    rw [List.length_take, List.length_drop, Nat.min_eq_left (by omega), Nat.mul_div_cancel _ hbpp]
  rw [chunksExact, hlen]
  refine List.map_congr_left fun k hk => ?_
  have hroom : (k + 1) * bpp ≤ w * bpp := Nat.mul_le_mul_right bpp (List.mem_range.mp hk)
  rw [Nat.add_mul, Nat.one_mul] at hroom
  rw [List.drop_take, List.drop_drop, List.take_take, Nat.min_eq_left (by omega)]

/-- The bytes of a row of an image, which has the pixels of a row of the bitmap. -/
theorem mapM_rgbaOf {w bpp : ℕ} (hbpp : bpp = 3 ∨ bpp = 4) (h : start + w * bpp ≤ dib.length) :
    ∃ pixels, (chunksExact bpp ((dib.drop start).take (w * bpp))).mapM (rgbaOf bpp) = .ok pixels ∧
      pixels.flatten.length = w * 4 ∧
      ∀ x < w, Sample bpp ((pixels.flatten.drop (x * 4)).take 4)
        ((dib.drop (start + x * bpp)).take bpp) := by
  have hpos : 0 < bpp := by omega
  rw [chunksExact_row hpos h]
  have hchunks : ∀ chunk ∈ (List.range w).map fun k => (dib.drop (start + k * bpp)).take bpp,
      ∃ px, rgbaOf bpp chunk = .ok px ∧ Sample bpp px chunk := by
    intro chunk hchunk
    obtain ⟨k, hk, rfl⟩ := List.mem_map.mp hchunk
    have hroom : (k + 1) * bpp ≤ w * bpp := Nat.mul_le_mul_right bpp (List.mem_range.mp hk)
    rw [Nat.add_mul, Nat.one_mul] at hroom
    refine rgbaOf_ok hbpp ?_
    rw [List.length_take, List.length_drop]
    omega
  obtain ⟨pixels, hpixels, hall⟩ := mapM_ok (P := fun chunk px => Sample bpp px chunk) hchunks
  have hcount : w = pixels.length := by
    have hlength := hall.length_eq
    rwa [List.length_map, List.length_range] at hlength
  have hsample : ∀ x, (hx : x < pixels.length) →
      Sample bpp pixels[x] ((dib.drop (start + x * bpp)).take bpp) := by
    intro x hx
    have hget := hall.get (i := x) (by rw [List.length_map, List.length_range]; omega) hx
    simpa using hget
  have hfour : ∀ px ∈ pixels, px.length = 4 := by
    intro px hpx
    obtain ⟨x, hx, rfl⟩ := List.getElem_of_mem hpx
    exact (hsample x hx).length_eq
  refine ⟨pixels, hpixels, ?_, fun x hx => ?_⟩
  · rw [length_flatten hfour, hcount]
  · rw [take_drop_flatten hfour (List.getElem?_eq_getElem (by omega))]
    exact hsample x (by omega)

/-- A row of the image is converted without a fault, if the bitmap has all its rows. -/
theorem convertRow_ok {header : Header} (hs : header.Supported)
    (hlen : header.pixelStart + header.rowSize * header.h ≤ dib.length)
    (hlt : header.pixelStart + header.rowSize * header.h < 2 ^ 64) {y : ℕ} (hy : y < header.h) :
    ∃ line, convertRow dib header header.rowSize header.pixelStart y = .ok line ∧
      line.length = header.w * 4 ∧
      ∀ x < header.w, Sample header.bpp ((line.drop (x * 4)).take 4)
        ((dib.drop (header.sampleAt x y)).take header.bpp) := by
  have hsrc : header.srcRow y = .ok (header.sourceRow y) := by
    rw [Header.srcRow, Header.sourceRow]
    split
    · rfl
    · rw [sub_eq (by omega), ok_bind, sub_eq (by omega)]
  have hrow : header.sourceRow y + 1 ≤ header.h := by
    rw [Header.sourceRow]
    split <;> omega
  have hfit := hs.row_bounds.1
  have hrows : (header.sourceRow y + 1) * header.rowSize ≤ header.h * header.rowSize :=
    Nat.mul_le_mul_right _ hrow
  rw [Nat.add_mul, Nat.one_mul, Nat.mul_comm header.h] at hrows
  have hroom : header.pixelStart + header.sourceRow y * header.rowSize + header.w * header.bpp ≤
      dib.length := by omega
  obtain ⟨pixels, hpixels, hlength, hsamples⟩ := mapM_rgbaOf hs.bpp_eq hroom
  refine ⟨pixels.flatten, ?_, hlength, hsamples⟩
  rw [convertRow, hsrc, ok_bind, usize_eq (by omega), ok_bind, usize_eq (by omega), ok_bind,
    usize_eq (by omega), ok_bind, usize_eq (by omega), ok_bind,
    slice_eq dib (Nat.le_add_right _ _) hroom, inRange_some, ok_bind,
    Nat.add_sub_cancel_left, hpixels]
  rfl

/-- All rows together have the pixels of the bitmap. -/
theorem mapM_convertRow {header : Header} (hs : header.Supported)
    (hlen : header.pixelStart + header.rowSize * header.h ≤ dib.length)
    (hlt : header.pixelStart + header.rowSize * header.h < 2 ^ 64) :
    ∃ data, (List.range header.h).mapM
        (convertRow dib header header.rowSize header.pixelStart) = .ok data ∧
      Shows ⟨header.w, header.h, data.flatten⟩ dib header := by
  have hlines : ∀ y ∈ List.range header.h, ∃ line,
      convertRow dib header header.rowSize header.pixelStart y = .ok line ∧
        line.length = header.w * 4 ∧
        ∀ x < header.w, Sample header.bpp ((line.drop (x * 4)).take 4)
          ((dib.drop (header.sampleAt x y)).take header.bpp) :=
    fun y hy => convertRow_ok hs hlen hlt (List.mem_range.mp hy)
  obtain ⟨data, hdata, hall⟩ := mapM_ok hlines
  have hcount : data.length = header.h := by
    rw [← hall.length_eq, List.length_range]
  have hline : ∀ y, (hy : y < data.length) → data[y].length = header.w * 4 ∧
      ∀ x < header.w, Sample header.bpp ((data[y].drop (x * 4)).take 4)
        ((dib.drop (header.sampleAt x y)).take header.bpp) := by
    intro y hy
    have hget := hall.get (i := y) (by rw [List.length_range]; omega) hy
    simpa using hget
  have hsizes : ∀ line ∈ data, line.length = header.w * 4 := by
    intro line hmem
    obtain ⟨y, hy, rfl⟩ := List.getElem_of_mem hmem
    exact (hline y hy).1
  refine ⟨data, hdata, hs.bounds.1, rfl, ?_, fun x hx y hy => ?_⟩
  · change data.flatten.length = header.w * header.h * 4
    rw [length_flatten hsizes, hcount]
    ring
  · have hyin : y < data.length := by
      change y < header.h at hy
      omega
    change Sample header.bpp (pixelAt 4 data.flatten (header.w * 4) x y) _
    rw [pixelAt_flatten hsizes hx (List.getElem?_eq_getElem hyin)]
    exact (hline y hyin).2 x hx

/-! ## What is accepted -/

/-- A bitmap with a supported header: what is left is whether its rows are there and whether the
image has room. -/
theorem dibToPng_eq {header : Header} (hread : readHeader dib = .ok header)
    (hcheck : header.check = .ok ()) (hs : header.Supported) :
    (dib.length < header.pixelStart + header.rowSize * header.h ∧
        ∃ message, dibToPng dib = .error (.bail message)) ∨
      header.pixelStart + header.rowSize * header.h ≤ dib.length ∧
        (2 ^ 63 ≤ header.w * header.h * 4 ∧ dibToPng dib = .error .capacity ∨
          header.w * header.h * 4 < 2 ^ 63 ∧
            ∃ out, dibToPng dib = .ok out ∧ Shows out dib header) := by
  have hmasks := Header.Supported.maskBytes_le header
  have hsize := hs.biSize_lt
  obtain ⟨hrows, hcells⟩ := hs.image_lt
  have hstart : header.biSize + header.maskBytes = header.pixelStart := rfl
  rw [dibToPng, hread, ok_bind, hcheck, ok_bind, hs.stride_eq, ok_bind, usize_eq (by omega),
    ok_bind, hstart, checked_eq (by omega), ok_bind, checked_eq (by omega), ok_bind]
  by_cases hshort : dib.length < header.pixelStart + header.rowSize * header.h
  · left
    exact ⟨hshort, _, if_pos hshort⟩
  have hlen : header.pixelStart + header.rowSize * header.h ≤ dib.length := Nat.le_of_not_lt hshort
  right
  refine ⟨hlen, ?_⟩
  rw [if_neg hshort, checked_eq (by omega), ok_bind, checked_eq (by omega), ok_bind]
  by_cases hroom : header.w * header.h * 4 < 2 ^ 63
  · right
    obtain ⟨data, hdata, hshows⟩ := mapM_convertRow hs hlen (by omega)
    refine ⟨hroom, _, ?_, hshows⟩
    rw [withCapacity_eq hroom, ok_bind, hdata]
    rfl
  · left
    refine ⟨by omega, ?_⟩
    rw [withCapacity, if_neg hroom]
    rfl

/-- What comes of any bytes: a message, an image with the pixels of the bitmap, or the refusal of
a buffer that no memory has. -/
theorem dibToPng_cases (dib : List UInt8) :
    (∃ message, dibToPng dib = .error (.bail message)) ∨
      (dibToPng dib = .error .capacity ∧ 2 ^ 62 < dib.length) ∨
      ∃ header out, readHeader dib = .ok header ∧ dibToPng dib = .ok out ∧
        Shows out dib header := by
  rcases readHeader_cases dib with hbad | ⟨header, hread, hsize, hwidth, hlow, hhigh⟩
  · obtain ⟨message, hbad⟩ := hbad
    left
    exact ⟨message, by rw [dibToPng, hbad]; rfl⟩
  rcases header.check_cases with ⟨message, hbad⟩ | ⟨hcheck, hpos, hne, hbits⟩
  · left
    exact ⟨message, by rw [dibToPng, hread, ok_bind, hbad]; rfl⟩
  have hs : header.Supported :=
    ⟨hsize, hpos, hwidth, hne, hlow, hhigh, by rw [Header.bpp]; omega⟩
  rcases dibToPng_eq hread hcheck hs with ⟨-, hbad⟩ | ⟨hlen, ⟨hbig, hbad⟩ | ⟨-, out, hout, hshows⟩⟩
  · exact .inl hbad
  · right
    left
    refine ⟨hbad, ?_⟩
    have hrow := hs.row_bounds
    have hrows : header.w * 3 * header.h ≤ header.rowSize * header.h :=
      Nat.mul_le_mul_right _ (by omega)
    have hcells : header.w * 3 * header.h = header.w * header.h * 3 := by ring
    omega
  · right
    right
    exact ⟨header, out, hread, hout, hshows⟩

/-! ## There and back -/

/-- The header that an image is sent with. -/
def RgbaImage.header (img : RgbaImage) : Header := ⟨40, img.width, -img.height, 32, 0⟩

@[simp] theorem length_i32Bytes (v : ℤ) : (i32Bytes v).length = 4 := length_littleEndian 4 _

theorem length_infoHeader (biWidth biHeight : ℤ) (size : ℕ) :
    (infoHeader biWidth biHeight size).length = 40 := by
  simp [infoHeader]

/-- The header of a bitmap that is sent is read back. -/
theorem readHeader_infoHeader {biWidth biHeight : ℤ} (size : ℕ) (pixels : List UInt8)
    (hwidth : -2 ^ 31 ≤ biWidth ∧ biWidth < 2 ^ 31)
    (hheight : -2 ^ 31 ≤ biHeight ∧ biHeight < 2 ^ 31) :
    readHeader (infoHeader biWidth biHeight size ++ pixels) =
      .ok ⟨40, biWidth, biHeight, 32, 0⟩ := by
  have hlong : ¬(infoHeader biWidth biHeight size ++ pixels).length < 40 := by
    rw [List.length_append, length_infoHeader]
    omega
  have hbiSize : field (infoHeader biWidth biHeight size ++ pixels) 0 4 = .ok 40 := by
    rw [field_eq (by omega)]
    simp only [infoHeader, List.append_assoc, List.drop_zero]
    rw [List.take_left' (length_littleEndian 4 40), ofLittleEndian_littleEndian]
    rfl
  have hbiWidth : field (infoHeader biWidth biHeight size ++ pixels) 4 4 =
      .ok (ofLittleEndian (i32Bytes biWidth)) := by
    simp only [infoHeader, List.append_assoc]
    exact field_append (by simp) (by simp) _
  have hbiHeight : field (infoHeader biWidth biHeight size ++ pixels) 8 4 =
      .ok (ofLittleEndian (i32Bytes biHeight)) := by
    simp only [infoHeader, List.append_assoc]
    rw [← List.append_assoc]
    exact field_append (by simp) (by simp) _
  have hbits : field (infoHeader biWidth biHeight size ++ pixels) 14 2 = .ok 32 := by
    simp only [infoHeader, List.append_assoc]
    rw [← List.append_assoc, ← List.append_assoc, ← List.append_assoc,
      field_append (by simp) (by simp), ofLittleEndian_littleEndian]
    rfl
  have hcomp : field (infoHeader biWidth biHeight size ++ pixels) 16 4 = .ok 0 := by
    simp only [infoHeader, List.append_assoc]
    rw [← List.append_assoc, ← List.append_assoc, ← List.append_assoc, ← List.append_assoc,
      field_append (by simp) (by simp), ofLittleEndian_littleEndian]
    rfl
  rw [readHeader, if_neg hlong, hbiSize, ok_bind, if_neg (by omega), hbiWidth, ok_bind, hbiHeight,
    ok_bind, hbits, ok_bind, hcomp, ok_bind, asI32_i32Bytes hwidth.1 hwidth.2,
    asI32_i32Bytes hheight.1 hheight.2]
  rfl

namespace RgbaImage

variable {img : RgbaImage}

/-- An image with less than half of the address space is sent. -/
theorem pngOrTiffToDib_eq (hwidth : 1 ≤ img.width) (hheight : 1 ≤ img.height)
    (hsize : img.width * img.height * 4 < 2 ^ 31) :
    pngOrTiffToDib img = .ok (infoHeader img.width (-img.height) (img.width * img.height * 4) ++
      img.pixels.flatMap Rgba.bgra) := by
  have hw : img.width ≤ img.width * img.height := Nat.le_mul_of_pos_right _ hheight
  have hh : img.height ≤ img.width * img.height := Nat.le_mul_of_pos_left _ hwidth
  have hbytes : img.width * 4 * img.height = img.width * img.height * 4 := by ring
  rw [pngOrTiffToDib, usize_eq (by omega), ok_bind, usize_eq (by omega), ok_bind,
    usize_eq (by omega), ok_bind, withCapacity_eq (by omega), ok_bind, asI32_of_lt (by omega),
    asI32_of_lt (by omega), negI32, if_neg (by omega), ok_bind, hbytes]
  rfl

@[simp] theorem header_w : img.header.w = img.width := Int.toNat_natCast _

@[simp] theorem header_h : img.header.h = img.height := by
  rw [Header.h, header, Int.natAbs_neg, Int.natAbs_natCast]

@[simp] theorem header_bpp : img.header.bpp = 4 := by
  have hbits : img.header.bitCount = 32 := rfl
  rw [Header.bpp, hbits]

@[simp] theorem header_pixelStart : img.header.pixelStart = 40 := by
  have hmasks : img.header.maskBytes = 0 := by
    have hfields : ¬(img.header.bitfields = true ∧ img.header.biSize = 40) :=
      fun h => Bool.false_ne_true h.1
    rw [Header.maskBytes, if_neg hfields]
  rw [Header.pixelStart, hmasks]
  rfl

/-- The rows of an image of 32 bits have no padding. -/
@[simp] theorem header_rowSize : img.header.rowSize = img.width * 4 := by
  rw [Header.rowSize, header_w, header_bpp]
  omega

/-- The header of an image is one of those that are supported. -/
theorem header_supported (hwidth : 1 ≤ img.width) (hheight : 1 ≤ img.height)
    (hsize : img.width * img.height * 4 < 2 ^ 31) : img.header.Supported := by
  have hw : img.width ≤ img.width * img.height := Nat.le_mul_of_pos_right _ hheight
  have hh : img.height ≤ img.width * img.height := Nat.le_mul_of_pos_left _ hwidth
  refine ⟨?_, ?_, ?_, ?_, ?_, ?_, .inr header_bpp⟩ <;> simp only [header] <;> omega

/-- Nothing about the header of an image is refused. -/
theorem header_check (hwidth : 1 ≤ img.width) (hheight : 1 ≤ img.height) :
    img.header.check = .ok () := by
  have hpos : ¬img.header.width ≤ 0 := by
    change ¬(img.width : ℤ) ≤ 0
    omega
  have hne : ¬img.header.heightSigned = 0 := by
    change ¬-(img.height : ℤ) = 0
    omega
  rw [Header.check, if_neg hpos, if_neg hne]
  rfl

/-- The pixels follow the header, row after row without padding. -/
theorem header_sampleAt (hheight : 1 ≤ img.height) (x y : ℕ) :
    img.header.sampleAt x y = 40 + (y * (img.width * 4) + x * 4) := by
  have hdown : img.header.topDown = true := by
    rw [Header.topDown, decide_eq_true_eq]
    change -(img.height : ℤ) < 0
    omega
  rw [Header.sampleAt, Header.sourceRow, if_pos hdown, header_pixelStart, header_rowSize,
    header_bpp, Nat.add_assoc]

/-- A pixel of a bitmap that is sent is that of the image. -/
theorem sample_iff {px : List UInt8} {p : Rgba} : Sample 4 px p.bgra ↔ px = p.bytes := by
  constructor
  · rintro ⟨q, rfl, ⟨-, hq⟩ | ⟨h, -⟩⟩
    · simp only [Rgba.bgra, List.cons.injEq, and_true] at hq
      simp only [Rgba.bytes, hq]
    · omega
  · intro h
    exact ⟨p, h, .inl ⟨rfl, rfl⟩⟩

/-- All pixels of an image in four bytes each. -/
theorem length_pixels_four (img : RgbaImage) {bytes : Rgba → List UInt8}
    (h : ∀ px, (bytes px).length = 4) :
    (img.pixels.flatMap bytes).length = img.height * (img.width * 4) := by
  rw [length_flatMap h, img.length_pixels]
  ring

/-- There is a pixel in every column and row. -/
theorem getElem?_pixels (img : RgbaImage) {x y : ℕ} (hx : x < img.width) (hy : y < img.height) :
    ∃ px, img.pixels[y * img.width + x]? = some px := by
  have hrow : (y + 1) * img.width ≤ img.height * img.width := Nat.mul_le_mul_right _ hy
  rw [Nat.add_mul, Nat.one_mul, Nat.mul_comm img.height] at hrow
  have hin : y * img.width + x < img.pixels.length := by
    rw [img.length_pixels]
    omega
  exact ⟨_, List.getElem?_eq_getElem hin⟩

/-- What has the pixels of a bitmap of an image is the image. -/
theorem eq_buffer_of_shows {front : List UInt8} (hfront : front.length = 40)
    (hheight : 1 ≤ img.height) {out : Buffer}
    (h : Shows out (front ++ img.pixels.flatMap Rgba.bgra) img.header) : out = img.buffer := by
  obtain ⟨width, height, data⟩ := out
  obtain rfl : width = img.width := Int.ofNat_inj.mp h.width_eq
  obtain rfl : height = img.height := h.height_eq.trans header_h
  have hlength : data.length = img.height * (img.width * 4) := by
    have hsize := h.size
    change data.length = img.width * img.height * 4 at hsize
    rw [hsize]
    ring
  have hdata : data = img.pixels.flatMap Rgba.bytes := by
    refine eq_of_pixelAt hlength (img.length_pixels_four Rgba.length_bytes) fun x hx y hy => ?_
    obtain ⟨px, hpx⟩ := img.getElem?_pixels hx hy
    have hstored : pixelAt 4 (img.pixels.flatMap Rgba.bgra) (img.width * 4) x y = px.bgra :=
      pixelAt_flatMap Rgba.length_bgra hpx
    have hsample := h.pixels x hx y hy
    rw [header_bpp, header_sampleAt hheight, ← List.drop_drop, List.drop_left' hfront] at hsample
    rw [pixelAt_flatMap Rgba.length_bytes hpx, ← sample_iff, ← hstored]
    exact hsample
  rw [hdata]
  rfl

/-- An image that is sent is received as it was. -/
theorem dibToPng_infoHeader (hwidth : 1 ≤ img.width) (hheight : 1 ≤ img.height)
    (hsize : img.width * img.height * 4 < 2 ^ 31) :
    dibToPng (infoHeader img.width (-img.height) (img.width * img.height * 4) ++
      img.pixels.flatMap Rgba.bgra) = .ok img.buffer := by
  have hw : img.width ≤ img.width * img.height := Nat.le_mul_of_pos_right _ hheight
  have hh : img.height ≤ img.width * img.height := Nat.le_mul_of_pos_left _ hwidth
  have hread : readHeader (infoHeader img.width (-img.height) (img.width * img.height * 4) ++
      img.pixels.flatMap Rgba.bgra) = .ok img.header :=
    readHeader_infoHeader _ _ (by omega) (by omega)
  have hfront := length_infoHeader img.width (-img.height) (img.width * img.height * 4)
  have hs := header_supported hwidth hheight hsize
  rcases dibToPng_eq hread (header_check hwidth hheight) hs with
    ⟨hshort, -⟩ | ⟨-, ⟨hbig, -⟩ | ⟨-, out, hout, hshows⟩⟩
  · rw [List.length_append, hfront, img.length_pixels_four Rgba.length_bgra, header_pixelStart,
      header_rowSize, header_h, Nat.mul_comm] at hshort
    omega
  · rw [header_w, header_h] at hbig
    omega
  · rw [hout, eq_buffer_of_shows hfront hheight hshows]

end RgbaImage

/-- An image of less than half of the address space of 32 bits is sent and received as it was; and
any bytes whatsoever are refused with a message or give an image with the pixels of the bitmap, no
range being left and no number overflowing, if only there can be a buffer for the image. -/
theorem dib_codec :
    (∀ img : RgbaImage, 1 ≤ img.width → 1 ≤ img.height → img.width * img.height * 4 < 2 ^ 31 →
      ∃ dib, pngOrTiffToDib img = .ok dib ∧ dibToPng dib = .ok img.buffer) ∧
    ∀ dib : List UInt8,
      dibToPng dib ≠ .error .outOfRange ∧ dibToPng dib ≠ .error .overflow ∧
      (dibToPng dib = .error .capacity → 2 ^ 62 < dib.length) ∧
      ∀ out, dibToPng dib = .ok out →
        ∃ header, readHeader dib = .ok header ∧ Shows out dib header := by
  constructor
  · intro img hwidth hheight hsize
    exact ⟨_, RgbaImage.pngOrTiffToDib_eq hwidth hheight hsize,
      RgbaImage.dibToPng_infoHeader hwidth hheight hsize⟩
  · intro dib
    rcases dibToPng_cases dib with
      ⟨message, hbail⟩ | ⟨hfull, hlong⟩ | ⟨header, out, hread, hout, hshows⟩
    · rw [hbail]
      simp
    · rw [hfull]
      simpa using hlong
    · rw [hout]
      refine ⟨by simp, by simp, by simp, fun out' heq => ?_⟩
      obtain rfl := Except.ok.inj heq
      exact ⟨header, hread, hshows⟩

/-- Two pixels, one above the other, that are sent and received. -/
theorem dib_codec_column :
    ∃ dib, pngOrTiffToDib ⟨1, 2, [⟨1, 2, 3, 4⟩, ⟨5, 6, 7, 8⟩], rfl⟩ = .ok dib ∧
      dibToPng dib = .ok ⟨1, 2, [1, 2, 3, 4, 5, 6, 7, 8]⟩ :=
  dib_codec.1 ⟨1, 2, [⟨1, 2, 3, 4⟩, ⟨5, 6, 7, 8⟩], rfl⟩ (by decide) (by decide) (by decide)

end Macrdp.ClipboardImage
