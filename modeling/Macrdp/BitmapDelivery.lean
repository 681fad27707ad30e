import Macrdp.BitmapEncoding

/-!
# What the client paints for an encoded bitmap

An uncompressed bitmap is painted as it is. A compressed one is painted chunk by chunk; a chunk has
as many rows as whole strides fit in it, so that all rows are sent only if a row is as long as the
stride.
-/

namespace Macrdp.BitmapEncoding

open Raster ServerFramebuffer

variable {C : Type} [Inhabited C]

/-- A part of the desktop whose bytes end with its last row. -/
structure Tile (b : BitmapUpdate) : Prop where
  width_pos : 0 < b.width
  height_pos : 0 < b.height
  width_le : b.width ≤ 8192
  height_le : b.height ≤ 8192
  aligned : b.width % 4 = 0
  wide : b.width * 4 ≤ b.stride
  length_eq : b.data.length = (b.height - 1) * b.stride + b.width * 4
  right_le : b.x + b.width ≤ 0xFFFF
  bottom_le : b.y + b.height ≤ 0xFFFF

/-- What the client shows for a bitmap on the desktop. -/
def target (k : Codec C) (b : BitmapUpdate) : Picture C := fun i j => k.view (b.picture i j)

/-! ## Pixels that are stored bottom row first -/

variable {height j i chunkHeight : ℕ}
variable {stride width : ℕ} {data : List UInt8} {rows : List (List UInt8)}

/-- The rows of an image, bottom row first: where the pixels of a row are. -/
theorem reverse_row {size : ℕ} (hlength : rows.length = height)
    (hrows : ∀ j < height, rows[j]? = some ((data.drop (j * stride)).take size)) (hj : j < height) :
    rows.reverse[height - 1 - j]? = some ((data.drop (j * stride)).take size) := by
  have hindex : rows.length - 1 - (height - 1 - j) = j := by omega
  rw [List.getElem?_reverse (by omega), hindex, hrows j hj]

/-- An index of a pixel that is stored bottom row first. -/
theorem bottomUp_index (hi : i < width) (hj : j < height) :
    (height - 1 - j) * width + i < height * width := by
  have hrows : (height - 1 - j + 1) * width ≤ height * width := Nat.mul_le_mul_right _ (by omega)
  rw [Nat.add_mul, Nat.one_mul] at hrows
  omega

/-- Rows that are put together and then cut into pixels. -/
theorem bottomUp_flatten {γ : Type} [Inhabited γ] (f : Pixel → γ) (hlength : rows.length = height)
    (hrow : ∀ row ∈ rows, row.length = width * 4)
    (hrows : ∀ j < height, rows[j]? = some ((data.drop (j * stride)).take (width * 4)))
    (hi : i < width) (hj : j < height) :
    bottomUp width height ((chunks 4 rows.reverse.flatten).map f) i j =
      f (pixelAt 4 data stride i j) := by
  have hreverse : ∀ row ∈ rows.reverse, row.length = width * 4 := fun row hmem =>
    hrow row (List.mem_reverse.mp hmem)
  have hindex := bottomUp_index hi hj
  have htotal : rows.reverse.flatten.length = (height * width - 1) * 4 + 4 := by
    have hsum : rows.reverse.flatten.length = height * (width * 4) := by
      rw [length_flatten hreverse, List.length_reverse, hlength]
    have hassoc : height * (width * 4) = height * width * 4 := by ring
    omega
  have hcount : (chunks 4 rows.reverse.flatten).length = height * width := by
    rw [length_chunks htotal (by decide) (Nat.le_refl 4)]
    omega
  have hpixel := pixelAt_flatten hreverse hi (reverse_row hlength hrows hj)
  rw [pixelAt_row data hi, pixelAt] at hpixel
  have hoffset : ((height - 1 - j) * width + i) * 4 = (height - 1 - j) * (width * 4) + i * 4 := by
    ring
  rw [bottomUp, List.getD_eq_getElem?_getD, List.getElem?_map, getElem?_chunks (by omega),
    Option.map_some, Option.getD_some, hoffset, hpixel]

/-- Rows that are cut into pixels one by one. -/
theorem bottomUp_flatMap {γ : Type} [Inhabited γ] (f : Pixel → γ) (hlength : rows.length = height)
    (hrow : ∀ row ∈ rows, row.length = width * 4)
    (hrows : ∀ j < height, rows[j]? = some ((data.drop (j * stride)).take (width * 4)))
    (hi : i < width) (hj : j < height) :
    bottomUp width height ((rows.reverse.flatMap (chunks 4)).map f) i j =
      f (pixelAt 4 data stride i j) := by
  have hcut : ∀ row : List UInt8, row.length = width * 4 → (chunks 4 row).length = width := by
    intro row hlen
    have hlast : row.length = (width - 1) * 4 + 4 := by omega
    rw [length_chunks hlast (by decide) (Nat.le_refl 4)]
    omega
  have hreverse : ∀ cut ∈ rows.reverse.map (chunks 4), cut.length = width := by
    intro cut hcutMem
    obtain ⟨row, hmem, rfl⟩ := List.mem_map.mp hcutMem
    exact hcut row (hrow row (List.mem_reverse.mp hmem))
  have hat : (rows.reverse.map (chunks 4))[height - 1 - j]? =
      some (chunks 4 ((data.drop (j * stride)).take (width * 4))) := by
    rw [List.getElem?_map, reverse_row hlength hrows hj, Option.map_some]
  have hlen : ((data.drop (j * stride)).take (width * 4)).length = width * 4 :=
    hrow _ (List.mem_of_getElem? (hrows j hj))
  have hpixel := getElem?_flatten hreverse hi hat
  rw [getElem?_chunks (by rw [hcut _ hlen]; exact hi), pixelAt_row data hi] at hpixel
  rw [bottomUp, List.getD_eq_getElem?_getD, List.getElem?_map, List.flatMap_def, hpixel]
  rfl

/-! ## Uncompressed bitmaps -/

variable {k : Codec C} {b : BitmapUpdate}

/-- An uncompressed bitmap is painted as it is. -/
theorem noneHandle_eq {format : PixelFormat} (hk : k.Lawful format) (hb : Tile b) :
    ∃ f p, noneHandle k b = .ok f ∧ f.data ≠ [] ∧ patches k f.code f.data = some [p] ∧
      p.area = b.area ∧ p.Shows (target k b) := by
  obtain ⟨rows, hmap, hlength, hrow, hrows⟩ :=
    mapM_chunks hb.height_pos (Nat.mul_pos hb.width_pos (by decide)) hb.wide hb.length_eq
  have hreversed : ((chunks b.stride b.data).reverse.mapM fun row => slice row 0 (4 * b.width)) =
      some rows.reverse := by
    rw [Nat.mul_comm 4 b.width]
    rw [mapM_eq_some_iff] at hmap ⊢
    rw [List.map_reverse, hmap, List.map_reverse]
  have hright := hb.right_le
  have hbottom := hb.bottom_le
  have hwidth := hb.width_le
  have hheight := hb.height_le
  have hdata : rows.reverse.flatten.length ≤ 0xFFFFFFFF := by
    have hreverse : ∀ row ∈ rows.reverse, row.length = b.width * 4 := fun row hmem =>
      hrow row (List.mem_reverse.mp hmem)
    rw [length_flatten hreverse, List.length_reverse, hlength]
    calc b.height * (b.width * 4) ≤ 8192 * (8192 * 4) :=
          Nat.mul_le_mul hheight (Nat.mul_le_mul_right 4 hwidth)
      _ ≤ 0xFFFFFFFF := by decide
  obtain ⟨bytes, hbytes, hne, hdecode⟩ := hk.surface_eq (s :=
    { left := b.x, top := b.y, right := b.x + b.width, bottom := b.y + b.height, bpp := 32,
      width := b.width, height := b.height, codecId := 0, data := rows.reverse.flatten })
    ⟨by change b.x ≤ _; omega, by change b.y ≤ _; omega, hright, hbottom,
      by change 32 ≤ 0xFF; decide, by change b.width ≤ _; omega, by change b.height ≤ _; omega,
      Nat.zero_le _, hdata⟩
  refine ⟨{ code := .surfaceCommands, data := bytes }, surfacePatch k
    { left := b.x, top := b.y, right := b.x + b.width, bottom := b.y + b.height, bpp := 32,
      width := b.width, height := b.height, codecId := 0, data := rows.reverse.flatten },
    ?_, hne, ?_, ?_, ?_⟩
  · rw [noneHandle]
    simp only [PixelFormat.bytesPerPixel, hreversed, demand_some, ok_bind, addU16_eq hright,
      addU16_eq hbottom]
    rw [hbytes]
    rfl
  · rw [patches, hdecode]
    rfl
  · change (⟨b.x, b.y, b.x + b.width - b.x, b.y + b.height - b.y⟩ : Rect) = b.area
    rw [Nat.add_sub_cancel_left, Nat.add_sub_cancel_left]
    rfl
  · intro i j hin
    obtain ⟨⟨hleft, hcol⟩, htop, hrowIn⟩ := hin
    change b.x ≤ i at hleft
    change i < b.x + (b.x + b.width - b.x) at hcol
    change b.y ≤ j at htop
    change j < b.y + (b.y + b.height - b.y) at hrowIn
    have hi : i - b.x < b.width := by omega
    have hj : j - b.y < b.height := by omega
    exact bottomUp_flatten k.view hlength hrow hrows hi hj

/-! ## Compressed bitmaps -/

/-- What a chunk of a bitmap is painted as. -/
structure ShowsChunk (k : Codec C) (b : BitmapUpdate) (chunkHeight : ℕ) (item : List UInt8 × ℕ)
    (p : Patch C) : Prop where
  area : p.area = ⟨b.x, b.y + item.2 * chunkHeight, b.width, item.1.length / b.stride⟩
  shows : p.Shows (target k b)

/-- A chunk of whole rows, each as long as the stride, is compressed and painted. -/
theorem encodeChunk_eq (hk : k.Lawful b.format)
    (hb : Tile b) (htight : b.width * 4 = b.stride) {rows : ℕ} {chunk : List UInt8}
    (hrows : 0 < rows) (hlen : chunk.length = rows * b.stride) (hsize : rows * b.stride ≤ 0xFFFF)
    (hbottom : i * chunkHeight + rows ≤ b.height)
    (hdata : ∀ j < rows, (chunk.drop (j * b.stride)).take b.stride =
      (b.data.drop ((i * chunkHeight + j) * b.stride)).take b.stride) (hi : i ≤ 0xFFFF) :
    ∃ d p, BitmapEncoder.encodeChunk k b b.stride chunkHeight (chunk, i) = .ok d ∧ d.Fits ∧
      bitmapPatch k d = some p ∧ ShowsChunk k b chunkHeight (chunk, i) p := by
  have hwidth := hb.width_pos
  have hright := hb.right_le
  have hbottomLe := hb.bottom_le
  have hwidthLe := hb.width_le
  have hheightLe := hb.height_le
  have hstride : 0 < b.stride := by omega
  have hheight : chunk.length / b.stride = rows := by
    rw [hlen]
    exact Nat.mul_div_left rows hstride
  have hlast : chunk.length = (rows - 1) * b.stride + b.stride := by
    rw [hlen, Nat.sub_mul, Nat.one_mul]
    have hle : b.stride ≤ rows * b.stride := Nat.le_mul_of_pos_left _ hrows
    omega
  obtain ⟨pieces, hmap, hlength, hrow, hget⟩ :=
    mapM_chunks hrows hstride (Nat.le_refl b.stride) hlast
  rw [← htight] at hrow
  have hgetRow : ∀ j < rows, pieces[j]? =
      some (((b.data.drop (i * chunkHeight * b.stride)).drop (j * b.stride)).take (b.width * 4)) := by
    intro j hj
    rw [hget j hj, hdata j hj, List.drop_drop, ← Nat.add_mul, htight]
  have hcount : (pieces.reverse.flatMap (chunks 4)).length = b.width * rows := by
    have hcut : ∀ cut ∈ pieces.reverse.map (chunks 4), cut.length = b.width := by
      intro cut hcutMem
      obtain ⟨row, hmem, rfl⟩ := List.mem_map.mp hcutMem
      have hlenRow := hrow row (List.mem_reverse.mp hmem)
      have hlastCell : row.length = (b.width - 1) * 4 + 4 := by omega
      rw [length_chunks hlastCell (by decide) (Nat.le_refl 4)]
      omega
    rw [List.flatMap_def, length_flatten hcut, List.length_map, List.length_reverse, hlength,
      Nat.mul_comm]
  have hwhole : ∀ p ∈ pieces.reverse.flatMap (chunks 4), p.length = 4 := by
    intro p hp
    obtain ⟨row, hmem, hcell⟩ := List.mem_flatMap.mp hp
    have hlenRow := hrow row (List.mem_reverse.mp hmem)
    exact length_of_mem_chunks (by omega) hcell
  have hpixels : b.width * rows * 4 ≤ 0xFFFF := by
    rw [← htight] at hsize
    calc b.width * rows * 4 = rows * (b.width * 4) := by ring
      _ ≤ 0xFFFF := hsize
  obtain ⟨bytes, hbytes, hshort, hdecode⟩ := hk.lossless hcount hwhole hwidth hrows hpixels
  have hmul : mulU16 i chunkHeight = .ok (i * chunkHeight) := mulU16_eq (by omega)
  have htop : addU16 b.y (i * chunkHeight) = .ok (b.y + i * chunkHeight) := addU16_eq (by omega)
  have hend : addU16 (b.y + i * chunkHeight) rows = .ok (b.y + i * chunkHeight + rows) :=
    addU16_eq (by omega)
  have hsubRight : subU16 (b.x + b.width) 1 = .ok (b.x + b.width - 1) := subU16_eq (by omega)
  have hsubBottom : subU16 (b.y + i * chunkHeight + rows) 1 =
      .ok (b.y + i * chunkHeight + rows - 1) := subU16_eq (by omega)
  have hmain : castU16 "main body size" bytes.length = .ok bytes.length := castU16_eq (by omega)
  have hencoded : BitmapEncoder.encodeChunk k b b.stride chunkHeight (chunk, i) = .ok
      { left := b.x
        top := b.y + i * chunkHeight
        right := b.x + b.width - 1
        bottom := b.y + i * chunkHeight + rows - 1
        width := b.width
        height := rows
        bitsPerPixel := 32
        mainBodySize := bytes.length
        scanWidth := b.width
        uncompressedSize := rows * b.stride
        bitmapData := bytes } := by
    simp only [BitmapEncoder.encodeChunk, hheight, castU16_eq (show rows ≤ 0xFFFF by omega),
      castU16_eq hi, ok_bind, hmul, htop, hmap, demand_some, PixelFormat.bytesPerPixel,
      BitmapEncoder.bufferSize, hbytes, addU16_eq hright, hsubRight, hend, hsubBottom, hmain,
      mulU16_eq hsize]
    rfl
  have hspan : b.x + b.width - 1 + 1 - b.x = b.width := by omega
  have hdepth : b.y + i * chunkHeight + rows - 1 + 1 - (b.y + i * chunkHeight) = rows := by omega
  refine ⟨_, ⟨⟨b.x, b.y + i * chunkHeight, b.width, rows⟩,
    bottomUp b.width rows ((pieces.reverse.flatMap (chunks 4)).map k.view)⟩, hencoded, ?_, ?_, ?_, ?_⟩
  · exact
      { left := by change b.x ≤ _; omega
        top := by change b.y + i * chunkHeight ≤ _; omega
        right := by change b.x + b.width - 1 ≤ _; omega
        bottom := by change b.y + i * chunkHeight + rows - 1 ≤ _; omega
        width := by change b.width ≤ _; omega
        height := by change rows ≤ _; omega
        bitsPerPixel := by change 32 ≤ 0xFFFF; decide
        mainBodySize := by change bytes.length ≤ _; omega
        scanWidth := by change b.width ≤ _; omega
        uncompressedSize := hsize
        bitmapData := hshort }
  · simp only [bitmapPatch, hdecode, Option.map_some, hspan, hdepth]
  · rw [hheight]
  · intro x y hin
    obtain ⟨⟨hleft, hcol⟩, htopIn, hrowIn⟩ := hin
    change b.x ≤ x at hleft
    change x < b.x + b.width at hcol
    change b.y + i * chunkHeight ≤ y at htopIn
    change y < b.y + i * chunkHeight + rows at hrowIn
    have hx : x - b.x < b.width := by omega
    have hy : y - (b.y + i * chunkHeight) < rows := by omega
    have hshown := bottomUp_flatMap k.view hlength hrow hgetRow hx hy
    have hline : y - (b.y + i * chunkHeight) + i * chunkHeight = y - b.y := by omega
    refine hshown.trans (congrArg k.view ?_)
    rw [pixelAt, List.drop_drop, BitmapUpdate.picture, pixelAt]
    congr 2
    rw [← hline]
    ring

/-- Chunks that are encoded one by one, and what they are painted as. -/
theorem encodeChunks_items (hk : k.Lawful b.format) {items : List (List UInt8 × ℕ)}
    (h : ∀ item ∈ items, ∃ d p, BitmapEncoder.encodeChunk k b b.stride chunkHeight item = .ok d ∧
      d.Fits ∧ bitmapPatch k d = some p ∧ ShowsChunk k b chunkHeight item p) :
    ∃ (ds : List BitmapData) (parts : List (List UInt8)) (ps : List (Patch C)),
      ds.length = items.length ∧ (∀ d ∈ ds, d.Fits) ∧
      ds.map k.encodeBitmapData = parts.map .ok ∧ ds.mapM (bitmapPatch k) = some ps ∧
      (∀ p ∈ ps, ∃ item ∈ items, ShowsChunk k b chunkHeight item p) ∧
      (∀ item ∈ items, ∃ p ∈ ps, ShowsChunk k b chunkHeight item p) ∧
      parts.flatten.length ≤ items.length * 0x10020 ∧
      ∀ capacity pos, pos ≤ capacity →
        BitmapEncoder.encodeChunks k b b.stride chunkHeight capacity pos items =
          if pos + parts.flatten.length ≤ capacity then .ok parts.flatten
          else .error .notEnoughBytes := by
  induction items with
  | nil =>
    refine ⟨[], [], [], rfl, by simp, rfl, rfl, by simp, by simp, Nat.zero_le _, ?_⟩
    intro capacity pos hpos
    exact (if_pos hpos).symm
  | cons item rest ih =>
    obtain ⟨d, p, hd, hfits, hp, hshows⟩ := h item List.mem_cons_self
    obtain ⟨bytes, hbytes, hlength⟩ := hk.bitmapData_ok hfits
    obtain ⟨ds, parts, ps, hcount, hall, hmap, hpatches, hfrom, hto, hsize, hrest⟩ :=
      ih fun i hi => h i (List.mem_cons_of_mem item hi)
    refine ⟨d :: ds, bytes :: parts, p :: ps, ?_, ?_, ?_, ?_, ?_, ?_, ?_, ?_⟩
    · rw [List.length_cons, List.length_cons, hcount]
    · intro e he
      rcases List.mem_cons.mp he with rfl | he
      · exact hfits
      · exact hall e he
    · rw [List.map_cons, List.map_cons, hbytes, hmap]
    · rw [List.mapM_cons, hp, hpatches]
      rfl
    · intro q hq
      rcases List.mem_cons.mp hq with rfl | hq
      · exact ⟨item, List.mem_cons_self, hshows⟩
      · obtain ⟨i, hi, hqi⟩ := hfrom q hq
        exact ⟨i, List.mem_cons_of_mem item hi, hqi⟩
    · intro i hi
      rcases List.mem_cons.mp hi with rfl | hi
      · exact ⟨p, List.mem_cons_self, hshows⟩
      · obtain ⟨q, hq, hqi⟩ := hto i hi
        exact ⟨q, List.mem_cons_of_mem p hq, hqi⟩
    · have hshort := hfits.bitmapData
      rw [List.flatten_cons, List.length_append, List.length_cons, Nat.add_mul, hlength]
      omega
    · intro capacity pos _
      rw [BitmapEncoder.encodeChunks, hd, ok_bind, hbytes, ok_bind, List.flatten_cons,
        List.length_append]
      by_cases hfull : capacity < pos + bytes.length
      · rw [if_pos hfull, if_neg (by omega)]
      · rw [if_neg hfull, hrest capacity _ (Nat.le_of_not_lt hfull)]
        by_cases hroom : pos + bytes.length + parts.flatten.length ≤ capacity
        · rw [if_pos hroom, if_pos (by omega)]
          rfl
        · rw [if_neg hroom, if_neg (by omega)]
          rfl

/-- The chunks of a bitmap whose rows are as long as its stride: how many rows each has, and which. -/
theorem chunk_eq (hb : Tile b) (htight : b.width * 4 = b.stride)
    (hchunk : 0 < chunkHeight) {item : List UInt8 × ℕ}
    (hitem : item ∈ (chunks (b.stride * chunkHeight) b.data).zipIdx) :
    item.2 * chunkHeight < b.height ∧
      item.1.length = min chunkHeight (b.height - item.2 * chunkHeight) * b.stride ∧
      ∀ j < min chunkHeight (b.height - item.2 * chunkHeight),
        (item.1.drop (j * b.stride)).take b.stride =
          (b.data.drop ((item.2 * chunkHeight + j) * b.stride)).take b.stride := by
  obtain ⟨chunk, i⟩ := item
  have hwidth := hb.width_pos
  have hheight := hb.height_pos
  have hlen : b.data.length = b.height * b.stride := by
    rw [hb.length_eq, htight]
    calc (b.height - 1) * b.stride + b.stride = (b.height - 1 + 1) * b.stride := by ring
      _ = b.height * b.stride := by rw [Nat.sub_add_cancel hheight]
  have hget := List.mem_zipIdx_iff_getElem?.mp hitem
  obtain ⟨hi, -⟩ := List.getElem?_eq_some_iff.mp hget
  rw [getElem?_chunks hi, Option.some.injEq] at hget
  change (b.data.drop (i * (b.stride * chunkHeight))).take (b.stride * chunkHeight) = chunk at hget
  have hoffset : i * (b.stride * chunkHeight) = i * chunkHeight * b.stride := by ring
  have hstride : 0 < b.stride := by omega
  have hbefore : i * chunkHeight < b.height := by
    have hsize : 0 < b.stride * chunkHeight := Nat.mul_pos hstride hchunk
    rw [chunks, List.length_map, List.length_range] at hi
    change i < _ at hi
    rw [Nat.lt_div_iff_mul_lt hsize] at hi
    have hindex : i * (b.stride * chunkHeight) < b.data.length := by omega
    have hlt : i * chunkHeight * b.stride < b.height * b.stride := by
      rw [← hlen, ← hoffset]
      exact hindex
    exact Nat.lt_of_mul_lt_mul_right hlt
  have hsplit : b.stride * chunkHeight = chunkHeight * b.stride := Nat.mul_comm _ _
  rw [hoffset, hsplit] at hget
  refine ⟨hbefore, ?_, ?_⟩
  · change chunk.length = _
    rw [← hget, List.length_take, List.length_drop, hlen, ← Nat.sub_mul]
    exact (Nat.mul_min_mul_right _ _ _).symm ▸ rfl
  · intro j hj
    change (chunk.drop (j * b.stride)).take b.stride = _
    have hroom : (j + 1) * b.stride ≤ chunkHeight * b.stride := Nat.mul_le_mul_right _ (by omega)
    rw [Nat.add_mul, Nat.one_mul] at hroom
    rw [← hget, List.drop_take, List.drop_drop, List.take_take, ← Nat.add_mul,
      Nat.min_eq_left (by omega)]

/-- A row of a bitmap lies in one of its chunks. -/
theorem mem_chunks_of_row (hb : Tile b) (htight : b.width * 4 = b.stride)
    (hchunk : 0 < chunkHeight) (hj : j < b.height) :
    ∃ chunk, (chunk, j / chunkHeight) ∈ (chunks (b.stride * chunkHeight) b.data).zipIdx := by
  have hwidth := hb.width_pos
  have hstride : 0 < b.stride := by omega
  have hsize : 0 < b.stride * chunkHeight := Nat.mul_pos hstride hchunk
  have hlen : b.data.length = (b.height - 1) * b.stride + b.stride := by
    rw [hb.length_eq, htight]
  have hbefore : j / chunkHeight * (b.stride * chunkHeight) < b.data.length := by
    calc j / chunkHeight * (b.stride * chunkHeight) = j / chunkHeight * chunkHeight * b.stride := by
          ring
      _ ≤ j * b.stride := Nat.mul_le_mul_right _ (Nat.div_mul_le_self _ _)
      _ ≤ (b.height - 1) * b.stride := Nat.mul_le_mul_right _ (by omega)
      _ < b.data.length := by omega
  have hindex : j / chunkHeight < (chunks (b.stride * chunkHeight) b.data).length := by
    rw [chunks, List.length_map, List.length_range, Nat.lt_div_iff_mul_lt hsize]
    omega
  exact ⟨_, List.mem_zipIdx_iff_getElem?.mpr (getElem?_chunks hindex)⟩

/-- A bitmap whose rows are as long as its stride is encoded into any output that is long enough,
and painted as it is. -/
theorem encode_eq (hk : k.Lawful b.format) (hb : Tile b) (htight : b.width * 4 = b.stride) :
    ∃ (bytes : List UInt8) (ps : List (Patch C)),
      (∀ capacity, BitmapEncoder.encode k b capacity =
        if bytes.length ≤ capacity then .ok bytes else .error .notEnoughBytes) ∧
      bytes ≠ [] ∧ bytes.length ≤ 2 ^ 40 ∧ patches k .bitmap bytes = some ps ∧
      (∀ p ∈ ps, p.Shows (target k b)) ∧
      ∀ i j, (∃ p ∈ ps, p.area.Contains i j) ↔ b.area.Contains i j := by
  have hwidth := hb.width_pos
  have hwidthLe := hb.width_le
  have hheightLe := hb.height_le
  have hstride : 0 < b.stride := by omega
  have hchunk : 0 < 0xFFFF / b.stride := Nat.div_pos (by omega) hstride
  have hfull : 0xFFFF / b.stride * b.stride ≤ 0xFFFF := Nat.div_mul_le_self _ _
  have hitems : ∀ item ∈ (chunks (b.stride * (0xFFFF / b.stride)) b.data).zipIdx,
      ∃ d p, BitmapEncoder.encodeChunk k b b.stride (0xFFFF / b.stride) item = .ok d ∧ d.Fits ∧
        bitmapPatch k d = some p ∧ ShowsChunk k b (0xFFFF / b.stride) item p := by
    intro item hitem
    obtain ⟨hbefore, hlen, hdata⟩ := chunk_eq hb htight hchunk hitem
    have hindex : item.2 ≤ item.2 * (0xFFFF / b.stride) := Nat.le_mul_of_pos_right _ hchunk
    refine encodeChunk_eq hk hb htight (by omega) hlen ?_ (by omega) hdata (by omega)
    exact le_trans (Nat.mul_le_mul_right _ (Nat.min_le_left _ _)) hfull
  obtain ⟨ds, parts, ps, hcount, hall, hmap, hpatches, hfrom, hto, hsize, hencode⟩ :=
    encodeChunks_items hk hitems
  have hfew : (chunks (b.stride * (0xFFFF / b.stride)) b.data).length ≤ 8192 := by
    by_contra hmany
    have hget := getElem?_chunks (Nat.not_le.mp hmany)
    have hmem : (_, 8192) ∈ (chunks (b.stride * (0xFFFF / b.stride)) b.data).zipIdx :=
      List.mem_zipIdx_iff_getElem?.mpr hget
    obtain ⟨hbefore, -, -⟩ := chunk_eq hb htight hchunk hmem
    change 8192 * (0xFFFF / b.stride) < b.height at hbefore
    omega
  rw [List.length_zipIdx] at hcount hsize
  have hlength : (k.encodeHeader ds.length ++ parts.flatten).length = 4 + parts.flatten.length := by
    rw [List.length_append, hk.length_header]
  refine ⟨k.encodeHeader ds.length ++ parts.flatten, ps, ?_, ?_, ?_, ?_, ?_, ?_⟩
  · intro capacity
    have hrow : mulU16 b.width 4 = .ok b.stride := by
      rw [mulU16_eq (by omega), htight]
    have hsome : ¬(b.stride = 0 ∨ b.stride * (0xFFFF / b.stride) = 0) := by
      rintro (hzero | hzero)
      · omega
      · rcases Nat.mul_eq_zero.mp hzero with hzero | hzero <;> omega
    have htotal : castU16 "chunks length lower bound"
        (chunks (b.stride * (0xFFFF / b.stride)) b.data).length = .ok ds.length := by
      rw [castU16_eq (by omega), hcount]
    rw [BitmapEncoder.encode, if_neg (not_not.mpr hb.aligned)]
    simp only [PixelFormat.bytesPerPixel, hrow, ok_bind, if_neg hsome, htotal, hk.length_header,
      hlength]
    by_cases hheader : capacity < 4
    · rw [if_pos hheader, if_neg (by omega)]
    · rw [if_neg hheader, hencode capacity 4 (by omega)]
      by_cases hroom : 4 + parts.flatten.length ≤ capacity
      · rw [if_pos hroom, if_pos hroom]
        rfl
      · rw [if_neg hroom, if_neg hroom]
        rfl
  · intro hnil
    rw [hnil] at hlength
    change 0 = _ at hlength
    omega
  · rw [hlength]
    omega
  · change (k.decodeBitmap _).bind _ = _
    rw [hk.bitmap_eq (by omega) hall hmap]
    exact hpatches
  · intro p hp
    obtain ⟨item, -, hshows⟩ := hfrom p hp
    exact hshows.shows
  · intro i j
    have harea : ∀ item ∈ (chunks (b.stride * (0xFFFF / b.stride)) b.data).zipIdx, ∀ p,
        ShowsChunk k b (0xFFFF / b.stride) item p →
          p.area = ⟨b.x, b.y + item.2 * (0xFFFF / b.stride), b.width,
            min (0xFFFF / b.stride) (b.height - item.2 * (0xFFFF / b.stride))⟩ := by
      intro item hitem p hshows
      obtain ⟨-, hlen, -⟩ := chunk_eq hb htight hchunk hitem
      rw [hshows.area, hlen, Nat.mul_div_left _ hstride]
    constructor
    · rintro ⟨p, hp, hin⟩
      obtain ⟨item, hitem, hshows⟩ := hfrom p hp
      obtain ⟨hbefore, -, -⟩ := chunk_eq hb htight hchunk hitem
      rw [harea item hitem p hshows] at hin
      simp only [Rect.Contains, BitmapUpdate.area] at hin ⊢
      omega
    · rintro ⟨⟨hleft, hright⟩, htop, hbottom⟩
      change b.x ≤ i at hleft
      change i < b.x + b.width at hright
      change b.y ≤ j at htop
      change j < b.y + b.height at hbottom
      obtain ⟨chunk, hitem⟩ := mem_chunks_of_row hb htight hchunk (j := j - b.y) (by omega)
      obtain ⟨p, hp, hshows⟩ := hto _ hitem
      refine ⟨p, hp, ?_⟩
      rw [harea _ hitem p hshows]
      have hdivmod := Nat.div_add_mod' (j - b.y) (0xFFFF / b.stride)
      have hmod := Nat.mod_lt (j - b.y) hchunk
      simp only [Rect.Contains]
      omega

omit [Inhabited C] in
/-- A buffer that is doubled often enough is long enough. -/
theorem encodeGrowing_eq {bytes : List UInt8} (h : ∀ capacity, BitmapEncoder.encode k b capacity =
      if bytes.length ≤ capacity then .ok bytes else .error .notEnoughBytes) (fuel : ℕ) :
    ∀ capacity, bytes.length ≤ capacity * 2 ^ fuel →
      encodeGrowing k b (fuel + 1) capacity = .ok bytes := by
  induction fuel with
  | zero =>
    intro capacity hroom
    rw [encodeGrowing, h, if_pos (by omega)]
  | succ fuel ih =>
    intro capacity hroom
    rw [encodeGrowing, h]
    by_cases hfits : bytes.length ≤ capacity
    · rw [if_pos hfits]
    · rw [if_neg hfits]
      refine ih (capacity * 2) ?_
      calc bytes.length ≤ capacity * 2 ^ (fuel + 1) := hroom
        _ = capacity * 2 * 2 ^ fuel := by ring

/-- The tile can be sent: uncompressed, or with rows that are as long as its stride. -/
def Sendable (updater : BitmapUpdater) (b : BitmapUpdate) : Prop :=
  updater = .bitmap → b.width * 4 = b.stride

/-- A tile that can be sent is painted as it is. -/
theorem handle_eq {updater : BitmapUpdater}
    (hk : k.Lawful b.format) (hb : Tile b) (hsend : Sendable updater b) :
    ∃ (f : UpdateFragmenter) (ps : List (Patch C)), handle k updater b = .ok f ∧ f.data ≠ [] ∧
      patches k f.code f.data = some ps ∧ (∀ p ∈ ps, p.Shows (target k b)) ∧
      ∀ i j, (∃ p ∈ ps, p.area.Contains i j) ↔ b.area.Contains i j := by
  cases updater with
  | none =>
    obtain ⟨f, p, hf, hne, hpatches, harea, hshows⟩ := noneHandle_eq hk hb
    refine ⟨f, [p], hf, hne, hpatches, ?_, fun i j => ?_⟩
    · intro q hq
      rw [List.mem_singleton.mp hq]
      exact hshows
    · simp only [List.mem_singleton, exists_eq_left, harea]
  | bitmap =>
    obtain ⟨bytes, ps, hencode, hne, hshort, hpatches, hshows, hcover⟩ :=
      encode_eq hk hb (hsend rfl)
    have hpos : 1 ≤ b.data.length * 2 := by
      have hwidth := hb.width_pos
      have hlength := hb.length_eq
      omega
    have hroom : bytes.length ≤ b.data.length * 2 * 2 ^ 63 := by
      calc bytes.length ≤ 2 ^ 40 := hshort
        _ ≤ 1 * 2 ^ 63 := by decide
        _ ≤ b.data.length * 2 * 2 ^ 63 := Nat.mul_le_mul_right _ hpos
    refine ⟨{ code := .bitmap, data := bytes }, ps, ?_, hne, hpatches, hshows, hcover⟩
    rw [handle, encodeGrowing_eq hencode 63 _ hroom]
    rfl

end Macrdp.BitmapEncoding
