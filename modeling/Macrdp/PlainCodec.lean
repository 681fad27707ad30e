import Macrdp.BitmapEncoding
import Macrdp.LittleEndian

/-!
# A codec that meets what is relied on

Planes that are not compressed, messages in the layout of the protocol, and one rectangle for all
that differs.
-/

namespace Macrdp.BitmapEncoding

open Raster ServerFramebuffer LittleEndian

/-! ## Messages -/

/-- A rectangle of a bitmap update, with its compression header. -/
def plainBitmapData (d : BitmapData) : List UInt8 :=
  words [d.left, d.top, d.right, d.bottom, d.width, d.height, d.bitsPerPixel, 1,
    d.bitmapData.length + 8, 0, d.mainBodySize, d.scanWidth, d.uncompressedSize] ++ d.bitmapData

/-- Take a rectangle from the front. -/
def readBitmapData (bytes : List UInt8) : Option (BitmapData × List UInt8) :=
  match readWords 13 bytes with
  | some ([left, top, right, bottom, width, height, bpp, _, length, _, main, scan, size], rest) =>
    some (⟨left, top, right, bottom, width, height, bpp, main, scan, size, rest.take (length - 8)⟩,
      rest.drop (length - 8))
  | _ => none

/-- Take some rectangles from the front. -/
def readBitmapDatas : ℕ → List UInt8 → Option (List BitmapData)
  | 0, _ => some []
  | n + 1, bytes =>
    (readBitmapData bytes).bind fun r => (readBitmapDatas n r.2).map fun ds => r.1 :: ds

/-- A bitmap update. -/
def readBitmap (bytes : List UInt8) : Option (List BitmapData) :=
  match readWords 2 bytes with
  | some ([_, n], rest) => readBitmapDatas n rest
  | _ => none

/-- A surface command. -/
def plainSurface (s : SurfaceBits) : List UInt8 :=
  words [1, s.left, s.top, s.right, s.bottom, s.bpp, s.codecId * 256, s.width, s.height,
    s.data.length % 0x10000, s.data.length / 0x10000] ++ s.data

/-- Read a surface command. -/
def readSurface (bytes : List UInt8) : Option SurfaceBits :=
  match readWords 11 bytes with
  | some ([_, left, top, right, bottom, bpp, codec, width, height, _, _], rest) =>
    some ⟨left, top, right, bottom, bpp, width, height, codec / 256, rest⟩
  | _ => none

/-- A rectangle is read back. -/
theorem readBitmapData_plain {d : BitmapData} (h : d.Fits) (rest : List UInt8) :
    readBitmapData (plainBitmapData d ++ rest) = some (d, rest) := by
  have hfields : ∀ f ∈ [d.left, d.top, d.right, d.bottom, d.width, d.height, d.bitsPerPixel, 1,
      d.bitmapData.length + 8, 0, d.mainBodySize, d.scanWidth, d.uncompressedSize], f ≤ 0xFFFF := by
    simp only [List.mem_cons, List.not_mem_nil, or_false, forall_eq_or_imp, forall_eq]
    exact ⟨h.left, h.top, h.right, h.bottom, h.width, h.height, h.bitsPerPixel, by decide,
      h.bitmapData, by decide, h.mainBodySize, h.scanWidth, h.uncompressedSize⟩
  have hread := readWords_words hfields (d.bitmapData ++ rest)
  rw [← List.append_assoc] at hread
  change readWords 13 (plainBitmapData d ++ rest) = _ at hread
  rw [readBitmapData, hread]
  simp only [Nat.add_sub_cancel, List.take_left', List.drop_left']

/-- Rectangles are read back. -/
theorem readBitmapDatas_plain {ds : List BitmapData} (h : ∀ d ∈ ds, d.Fits) :
    readBitmapDatas ds.length (ds.map plainBitmapData).flatten = some ds := by
  induction ds with
  | nil => rfl
  | cons d ds ih =>
    rw [List.length_cons, readBitmapDatas, List.map_cons, List.flatten_cons,
      readBitmapData_plain (h d List.mem_cons_self), Option.bind_some,
      ih fun e he => h e (List.mem_cons_of_mem d he)]
    rfl

/-- A surface command is read back. -/
theorem readSurface_plain {s : SurfaceBits} (h : s.Fits) : readSurface (plainSurface s) = some s := by
  have hbpp := h.bpp
  have hcodec := h.codecId
  have hdata := h.data
  have hfields : ∀ f ∈ [1, s.left, s.top, s.right, s.bottom, s.bpp, s.codecId * 256, s.width,
      s.height, s.data.length % 0x10000, s.data.length / 0x10000], f ≤ 0xFFFF := by
    simp only [List.mem_cons, List.not_mem_nil, or_false, forall_eq_or_imp, forall_eq]
    exact ⟨by decide, h.left, h.top, h.right, h.bottom, by omega, by omega, h.width, h.height,
      by omega, by omega⟩
  have hread := readWords_words hfields s.data
  change readWords 11 (plainSurface s) = _ at hread
  rw [readSurface, hread]
  simp only [Nat.mul_div_cancel s.codecId (show 0 < 256 by decide)]

/-! ## Pixels -/

/-- Equal rows that are put together are cut into the rows again. -/
theorem chunks_flatten {rows : List (List UInt8)} {size : ℕ} (hpos : 0 < size)
    (h : ∀ row ∈ rows, row.length = size) : chunks size rows.flatten = rows := by
  have hcount : (chunks size rows.flatten).length = rows.length := by
    rw [chunks, List.length_map, List.length_range, length_flatten h]
    refine Nat.div_eq_of_lt_le ?_ ?_
    · omega
    · rw [Nat.add_mul]
      omega
  refine List.ext_getElem? fun k => ?_
  by_cases hk : k < rows.length
  · have hrow : rows[k]? = some rows[k] := List.getElem?_eq_getElem hk
    have hlen : (rows[k]).length = size := h _ (List.getElem_mem hk)
    rw [getElem?_chunks (by omega), drop_flatten h, List.drop_eq_getElem_cons hk,
      List.flatten_cons, List.take_left' hlen, hrow]
  · rw [List.getElem?_eq_none (by omega), List.getElem?_eq_none (by omega)]

/-- The codec; the client shows the three colours of a pixel. -/
def plainCodec : Codec (List UInt8) where
  findDifferentRectsSub data stride _ _ data2 stride2 width2 height2 x y :=
    if ∀ i < width2, ∀ j < height2,
        pixelAt 4 data stride (x + i) (y + j) = pixelAt 4 data2 stride2 i j then []
    else [⟨0, 0, width2, height2⟩]
  encodePixelsStream _ _ _ pixels size :=
    if size < (pixels.flatMap (List.take 3)).length then .error .notEnoughBytes
    else .ok (pixels.flatMap (List.take 3))
  decodePixelsStream _ _ bytes := some (chunks 3 bytes)
  encodeHeader n := words [1, n]
  encodeBitmapData d := .ok (plainBitmapData d)
  decodeBitmap := readBitmap
  encodeSurface s := .ok (plainSurface s)
  decodeSurface := readSurface
  view := List.take 3

/-- The codec meets what is relied on. -/
theorem plainCodec_lawful (format : PixelFormat) : plainCodec.Lawful format where
  rects_fit := by
    intro data data2 stride width height stride2 width2 height2 x y _ _ haligned _ _ r hr
    change r ∈ (if _ then [] else _) at hr
    split at hr
    · exact absurd hr List.not_mem_nil
    · rename_i hdiffer
      rw [List.mem_singleton.mp hr]
      have hsome : 0 < width2 ∧ 0 < height2 := by
        by_contra hnone
        refine hdiffer fun i hi j hj => absurd ⟨?_, ?_⟩ hnone
        · omega
        · omega
      exact ⟨⟨le_of_eq (Nat.zero_add _), le_of_eq (Nat.zero_add _)⟩, hsome.1, hsome.2, rfl,
        haligned⟩
  rects_cover := by
    intro data data2 stride width height stride2 width2 height2 x y _ _ _ _ i hi j hj hdiffer
    refine ⟨⟨0, 0, width2, height2⟩, ?_, ⟨Nat.zero_le i, ?_⟩, Nat.zero_le j, ?_⟩
    · change _ ∈ (if _ then [] else _)
      rw [if_neg fun hsame => hdiffer (hsame i hi j hj)]
      exact List.mem_singleton_self _
    · change i < 0 + width2
      omega
    · change j < 0 + height2
      omega
  lossless := by
    intro width height pixels hcount hwhole _ _ hsize
    have hcut : ∀ row ∈ pixels.map (List.take 3), row.length = 3 := by
      intro row hrow
      obtain ⟨p, hp, rfl⟩ := List.mem_map.mp hrow
      rw [List.length_take, hwhole p hp]
      rfl
    have hlength : (pixels.flatMap (List.take 3)).length = width * height * 3 := by
      rw [List.flatMap_def, length_flatten hcut, List.length_map, hcount]
    refine ⟨pixels.flatMap (List.take 3), if_neg ?_, ?_, ?_⟩
    · omega
    · omega
    · change some (chunks 3 _) = _
      rw [List.flatMap_def, chunks_flatten (by decide) hcut]
      rfl
  length_header := fun n => length_words [1, n]
  bitmapData_ok := by
    intro d _
    refine ⟨_, rfl, ?_⟩
    rw [plainBitmapData, List.length_append, length_words, Nat.add_comm]
    rfl
  bitmap_eq := by
    intro ds parts hcount hfits hparts
    have hsame : parts = ds.map plainBitmapData := by
      refine List.map_injective_iff.mpr (fun _ _ h => ?_) (hparts.symm.trans ?_)
      · exact Except.ok.inj h
      · rw [List.map_map]
        rfl
    have hfields : ∀ f ∈ [1, ds.length], f ≤ 0xFFFF := by simp [hcount]
    have hread := readWords_words hfields parts.flatten
    change readBitmap (words [1, ds.length] ++ parts.flatten) = some ds
    change readWords 2 _ = _ at hread
    rw [readBitmap, hread, hsame]
    exact readBitmapDatas_plain hfits
  surface_eq := by
    intro s hfits
    refine ⟨_, rfl, ?_, readSurface_plain hfits⟩
    intro hnil
    have hlength := congrArg List.length hnil
    rw [plainSurface, List.length_append, length_words] at hlength
    change 2 * 11 + _ = 0 at hlength
    omega

end Macrdp.BitmapEncoding
