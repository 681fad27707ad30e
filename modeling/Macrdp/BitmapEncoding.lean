import Macrdp.ServerFramebuffer

/-!
# Encoding a bitmap for the client

A part of the desktop is sent either as one uncompressed surface command, bottom row first, or as a
bitmap update, whose rectangles of at most 64 KiB are compressed on their own. The update is cut into
fast-path fragments, which the client puts together again. The compression of the planes and the
layout of the messages are not part of the server; they are parameters here.
-/

namespace Macrdp.BitmapEncoding

open Raster ServerFramebuffer

variable {C : Type}

/-! ## Messages -/

/-- A rectangle of a bitmap update, with inclusive bounds. -/
structure BitmapData where
  left : ℕ
  top : ℕ
  right : ℕ
  bottom : ℕ
  width : ℕ
  height : ℕ
  bitsPerPixel : ℕ
  mainBodySize : ℕ
  scanWidth : ℕ
  uncompressedSize : ℕ
  bitmapData : List UInt8
  deriving DecidableEq, Repr

/-- All numbers of the rectangle fit their fields. -/
structure BitmapData.Fits (d : BitmapData) : Prop where
  left : d.left ≤ 0xFFFF
  top : d.top ≤ 0xFFFF
  right : d.right ≤ 0xFFFF
  bottom : d.bottom ≤ 0xFFFF
  width : d.width ≤ 0xFFFF
  height : d.height ≤ 0xFFFF
  bitsPerPixel : d.bitsPerPixel ≤ 0xFFFF
  mainBodySize : d.mainBodySize ≤ 0xFFFF
  scanWidth : d.scanWidth ≤ 0xFFFF
  uncompressedSize : d.uncompressedSize ≤ 0xFFFF
  bitmapData : d.bitmapData.length + 8 ≤ 0xFFFF

/-- A surface command, with exclusive bounds. -/
structure SurfaceBits where
  left : ℕ
  top : ℕ
  right : ℕ
  bottom : ℕ
  bpp : ℕ
  width : ℕ
  height : ℕ
  codecId : ℕ
  data : List UInt8
  deriving DecidableEq, Repr

/-- All numbers of the command fit their fields. -/
structure SurfaceBits.Fits (s : SurfaceBits) : Prop where
  left : s.left ≤ 0xFFFF
  top : s.top ≤ 0xFFFF
  right : s.right ≤ 0xFFFF
  bottom : s.bottom ≤ 0xFFFF
  bpp : s.bpp ≤ 0xFF
  width : s.width ≤ 0xFFFF
  height : s.height ≤ 0xFFFF
  codecId : s.codecId ≤ 0xFF
  data : s.data.length ≤ 0xFFFFFFFF

/-- The code that the server calls and does not have itself, and its counterpart at the client. -/
structure Codec (C : Type) where
  /-- Rectangles of an image that differ from where it lies in another one. -/
  findDifferentRectsSub : (data : List UInt8) → (stride width height : ℕ) →
    (data2 : List UInt8) → (stride2 width2 height2 x y : ℕ) → List Rect
  /-- Compress the pixels of a rectangle of some width and height into a buffer of some size. -/
  encodePixelsStream : PixelFormat → (width height : ℕ) → List Pixel → (size : ℕ) →
    Except Fault (List UInt8)
  decodePixelsStream : (width height : ℕ) → List UInt8 → Option (List C)
  /-- The header of a bitmap update of some rectangles. -/
  encodeHeader : ℕ → List UInt8
  encodeBitmapData : BitmapData → Except Fault (List UInt8)
  decodeBitmap : List UInt8 → Option (List BitmapData)
  encodeSurface : SurfaceBits → Except Fault (List UInt8)
  decodeSurface : List UInt8 → Option SurfaceBits
  /-- What the client shows for the bytes of a pixel. -/
  view : Pixel → C

/-- What is relied on of that code. -/
structure Codec.Lawful (k : Codec C) (format : PixelFormat) : Prop where
  /-- The rectangles lie in the image, on multiples of four columns. -/
  rects_fit : ∀ {data data2 : List UInt8} {stride width height stride2 width2 height2 x y : ℕ},
    x + width2 ≤ width → y + height2 ≤ height → width2 % 4 = 0 →
    (height - 1) * stride + width * 4 ≤ data.length →
    (height2 - 1) * stride2 + width2 * 4 ≤ data2.length →
    ∀ r ∈ k.findDifferentRectsSub data stride width height data2 stride2 width2 height2 x y,
      r.Fits width2 height2 ∧ 0 < r.width ∧ 0 < r.height ∧ r.x % 4 = 0 ∧ r.width % 4 = 0
  /-- Every pixel that differs lies in one of them. -/
  rects_cover : ∀ {data data2 : List UInt8} {stride width height stride2 width2 height2 x y : ℕ},
    x + width2 ≤ width → y + height2 ≤ height →
    (height - 1) * stride + width * 4 ≤ data.length →
    (height2 - 1) * stride2 + width2 * 4 ≤ data2.length →
    ∀ i < width2, ∀ j < height2,
      pixelAt 4 data stride (x + i) (y + j) ≠ pixelAt 4 data2 stride2 i j →
      ∃ r ∈ k.findDifferentRectsSub data stride width height data2 stride2 width2 height2 x y,
        r.Contains i j
  /-- Up to 64 KiB of pixels are compressed without loss, and become no longer. -/
  lossless : ∀ {width height : ℕ} {pixels : List Pixel}, pixels.length = width * height →
    (∀ p ∈ pixels, p.length = 4) → 0 < width → 0 < height → width * height * 4 ≤ 0xFFFF →
    ∃ bytes, k.encodePixelsStream format width height pixels 0xFFFF = .ok bytes ∧
      bytes.length + 8 ≤ 0xFFFF ∧
      k.decodePixelsStream width height bytes = some (pixels.map k.view)
  length_header : ∀ n, (k.encodeHeader n).length = 4
  bitmapData_ok : ∀ {d : BitmapData}, d.Fits →
    ∃ bytes, k.encodeBitmapData d = .ok bytes ∧ bytes.length = d.bitmapData.length + 26
  bitmap_eq : ∀ {ds : List BitmapData} {parts : List (List UInt8)}, ds.length ≤ 0xFFFF →
    (∀ d ∈ ds, d.Fits) → ds.map k.encodeBitmapData = parts.map .ok →
    k.decodeBitmap (k.encodeHeader ds.length ++ parts.flatten) = some ds
  surface_eq : ∀ {s : SurfaceBits}, s.Fits →
    ∃ bytes, k.encodeSurface s = .ok bytes ∧ bytes ≠ [] ∧ k.decodeSurface bytes = some s

/-! ## The encoder -/

/-- A number as a 16-bit one, or the error that names it. -/
def castU16 (field : String) (v : ℕ) : Except Fault ℕ :=
  if v ≤ 0xFFFF then .ok v else .error (.failed field)

theorem castU16_eq {field : String} {v : ℕ} (h : v ≤ 0xFFFF) : castU16 field v = .ok v := if_pos h

namespace BitmapEncoder

/-- Size of the buffer for one compressed rectangle. -/
def bufferSize : ℕ := 0xFFFF

/-- Compress the rows of a chunk, bottom row first. -/
def encodeChunk (k : Codec C) (b : BitmapUpdate) (rowLen chunkHeight : ℕ)
    (item : List UInt8 × ℕ) : Except Fault BitmapData := do
  let height ← castU16 "bitmap height" (item.1.length / b.stride)
  let i ← castU16 "chunk idx" item.2
  let top ← addU16 b.y (← mulU16 i chunkHeight)
  let rows ← demand ((chunks b.stride item.1).mapM fun row => slice row 0 rowLen)
  let pixels := rows.reverse.flatMap (chunks b.format.bytesPerPixel)
  let bytes ← k.encodePixelsStream b.format b.width height pixels bufferSize
  let right ← subU16 (← addU16 b.x b.width) 1
  let bottom ← subU16 (← addU16 top height) 1
  let mainBodySize ← castU16 "main body size" bytes.length
  let uncompressedSize ← mulU16 height rowLen
  return { left := b.x
           top := top
           right := right
           bottom := bottom
           width := b.width
           height := height
           bitsPerPixel := b.format.bytesPerPixel * 8
           mainBodySize := mainBodySize
           scanWidth := b.width
           uncompressedSize := uncompressedSize
           bitmapData := bytes }

/-- Write the chunks one after the other into what is left of the output. -/
def encodeChunks (k : Codec C) (b : BitmapUpdate) (rowLen chunkHeight capacity : ℕ) :
    ℕ → List (List UInt8 × ℕ) → Except Fault (List UInt8)
  | _, [] => .ok []
  | pos, item :: rest => do
    let d ← encodeChunk k b rowLen chunkHeight item
    let bytes ← k.encodeBitmapData d
    if capacity < pos + bytes.length then .error .notEnoughBytes
    else
      let others ← encodeChunks k b rowLen chunkHeight capacity (pos + bytes.length) rest
      return bytes ++ others

/-- Write a bitmap into an output of some size. -/
def encode (k : Codec C) (b : BitmapUpdate) (capacity : ℕ) : Except Fault (List UInt8) := do
  if b.width % 4 ≠ 0 then .error (.failed "Width must be a multiple of 4")
  else
    let rowLen ← mulU16 b.width b.format.bytesPerPixel
    let chunkHeight := 0xFFFF / rowLen
    let size := b.stride * chunkHeight
    if rowLen = 0 ∨ size = 0 then .error .panic
    else
      let pieces := chunks size b.data
      let total ← castU16 "chunks length lower bound" pieces.length
      let header := k.encodeHeader total
      if capacity < header.length then .error .notEnoughBytes
      else
        let body ← encodeChunks k b rowLen chunkHeight capacity header.length pieces.zipIdx
        return header ++ body

end BitmapEncoder

/-- What the fragments carry. -/
inductive UpdateCode where
  | bitmap
  | surfaceCommands
  deriving DecidableEq, Repr

/-- An encoded update that is still to be cut into fragments. -/
structure UpdateFragmenter where
  code : UpdateCode
  data : List UInt8
  deriving DecidableEq, Repr

/-- How the bitmaps are sent. -/
inductive BitmapUpdater where
  /-- As uncompressed surface commands. -/
  | none
  /-- As bitmap updates. -/
  | bitmap
  deriving DecidableEq, Repr

/-- Encode into a buffer that is doubled while it is too small; a buffer that has been doubled so
often cannot be had. -/
def encodeGrowing (k : Codec C) (b : BitmapUpdate) : ℕ → ℕ → Except Fault (List UInt8)
  | 0, _ => .error .panic
  | fuel + 1, capacity =>
    match BitmapEncoder.encode k b capacity with
    | .error .notEnoughBytes => encodeGrowing k b fuel (capacity * 2)
    | result => result

/-- Send a bitmap uncompressed, bottom row first. -/
def noneHandle (k : Codec C) (b : BitmapUpdate) : Except Fault UpdateFragmenter := do
  let stride := b.format.bytesPerPixel * b.width
  let rows ← demand ((chunks b.stride b.data).reverse.mapM fun row => slice row 0 stride)
  let right ← addU16 b.x b.width
  let bottom ← addU16 b.y b.height
  let bytes ← k.encodeSurface
    { left := b.x
      top := b.y
      right := right
      bottom := bottom
      bpp := b.format.bytesPerPixel * 8
      width := b.width
      height := b.height
      codecId := 0
      data := rows.flatten }
  return { code := .surfaceCommands, data := bytes }

/-- Send a bitmap as its updater does. -/
def handle (k : Codec C) (updater : BitmapUpdater) (b : BitmapUpdate) :
    Except Fault UpdateFragmenter :=
  match updater with
  | .none => noneHandle k b
  | .bitmap => do
    let bytes ← encodeGrowing k b 64 (b.data.length * 2)
    return { code := .bitmap, data := bytes }

/-! ## Fragments -/

/-- Most data of a fragment. -/
def maxFastpathUpdateSize : ℕ := 16374

/-- Where a fragment stands in its update. -/
inductive Fragmentation where
  | single
  | first
  | next
  | last
  deriving DecidableEq, Repr

/-- A fast-path update. -/
structure Fragment where
  fragmentation : Fragmentation
  code : UpdateCode
  data : List UInt8
  deriving DecidableEq, Repr

/-- The fragments of the rest of an update, of which some have been sent. -/
def fragmentsFrom (code : UpdateCode) (index : ℕ) (data : List UInt8) : List Fragment :=
  if data.length = 0 then []
  else if data.length ≤ maxFastpathUpdateSize then
    [⟨if 0 < index then .last else .single, code, data⟩]
  else
    ⟨if 0 < index then .next else .first, code, data.take maxFastpathUpdateSize⟩ ::
      fragmentsFrom code (index + 1) (data.drop maxFastpathUpdateSize)
termination_by data.length
decreasing_by
  rw [List.length_drop]
  have hpos : 0 < maxFastpathUpdateSize := by decide
  omega

/-- All fragments of an update. -/
def UpdateFragmenter.fragments (f : UpdateFragmenter) : List Fragment := fragmentsFrom f.code 0 f.data

/-! ## The client -/

/-- What the client shows, and the fragments that it has of an update. -/
structure Client (C : Type) where
  picture : Picture C
  assembling : List UInt8

section

variable [Inhabited C]

/-- Pixels that are stored bottom row first. -/
def bottomUp (width height : ℕ) (pixels : List C) : Picture C := fun i j =>
  pixels.getD ((height - 1 - j) * width + i) default

/-- What the client paints for a rectangle of a bitmap update. -/
def bitmapPatch (k : Codec C) (d : BitmapData) : Option (Patch C) :=
  (k.decodePixelsStream d.width d.height d.bitmapData).map fun pixels =>
    { area := ⟨d.left, d.top, d.right + 1 - d.left, d.bottom + 1 - d.top⟩
      pixels := bottomUp d.width d.height pixels }

/-- What the client paints for an uncompressed surface command. -/
def surfacePatch (k : Codec C) (s : SurfaceBits) : Patch C where
  area := ⟨s.left, s.top, s.right - s.left, s.bottom - s.top⟩
  pixels := bottomUp s.width s.height ((chunks 4 s.data).map k.view)

/-- What the client paints for an update. -/
def patches (k : Codec C) (code : UpdateCode) (data : List UInt8) : Option (List (Patch C)) :=
  match code with
  | .bitmap => (k.decodeBitmap data).bind fun ds => ds.mapM (bitmapPatch k)
  | .surfaceCommands => (k.decodeSurface data).map fun s => [surfacePatch k s]

namespace Client

/-- The client applies an update; what it cannot decode it leaves out. -/
def apply (k : Codec C) (c : Client C) (code : UpdateCode) (data : List UInt8) : Client C where
  picture := ((patches k code data).getD []).foldl paint c.picture
  assembling := []

/-- The client gets a fragment. -/
def receive (k : Codec C) (c : Client C) (f : Fragment) : Client C :=
  match f.fragmentation with
  | .single => c.apply k f.code f.data
  | .first => { c with assembling := f.data }
  | .next => { c with assembling := c.assembling ++ f.data }
  | .last => c.apply k f.code (c.assembling ++ f.data)

/-- The rest of the fragments completes the update. -/
theorem foldl_receive_rest (k : Codec C) (code : UpdateCode) (index : ℕ) (data : List UInt8)
    (c : Client C) (hindex : 0 < index) (hdata : data ≠ []) :
    (fragmentsFrom code index data).foldl (receive k) c = c.apply k code (c.assembling ++ data) := by
  induction index, data using fragmentsFrom.induct generalizing c with
  | case1 index data hempty => exact absurd (List.length_eq_zero_iff.mp hempty) hdata
  | case2 index data hne hshort =>
    rw [fragmentsFrom, if_neg hne, if_pos hshort, if_pos hindex]
    rfl
  | case3 index data hne hlong ih =>
    have hrest : data.drop maxFastpathUpdateSize ≠ [] := by
      intro hnil
      have hle := List.drop_eq_nil_iff.mp hnil
      omega
    rw [fragmentsFrom, if_neg hne, if_neg hlong, if_pos hindex, List.foldl_cons,
      ih _ (Nat.succ_pos index) hrest]
    change c.apply k code (c.assembling ++ data.take maxFastpathUpdateSize ++
      data.drop maxFastpathUpdateSize) = c.apply k code (c.assembling ++ data)
    rw [List.append_assoc, List.take_append_drop]

/-- The fragments of an update are put together to it. -/
theorem foldl_receive_fragments (k : Codec C) (f : UpdateFragmenter) (hdata : f.data ≠ [])
    (c : Client C) : f.fragments.foldl (receive k) c = c.apply k f.code f.data := by
  have hne : ¬f.data.length = 0 := fun h => hdata (List.length_eq_zero_iff.mp h)
  rw [UpdateFragmenter.fragments, fragmentsFrom, if_neg hne]
  by_cases hshort : f.data.length ≤ maxFastpathUpdateSize
  · rw [if_pos hshort, if_neg (Nat.lt_irrefl 0)]
    rfl
  · have hrest : f.data.drop maxFastpathUpdateSize ≠ [] := by
      intro hnil
      have hle := List.drop_eq_nil_iff.mp hnil
      omega
    rw [if_neg hshort, if_neg (Nat.lt_irrefl 0), List.foldl_cons,
      foldl_receive_rest k _ _ _ _ Nat.zero_lt_one hrest]
    change c.apply k f.code (f.data.take maxFastpathUpdateSize ++
      f.data.drop maxFastpathUpdateSize) = c.apply k f.code f.data
    rw [List.take_append_drop]

end Client

end

end Macrdp.BitmapEncoding
