import Mathlib.Data.List.Basic
import Mathlib.Tactic.Ring

/-!
# Pictures, patches and images stored row by row

A picture gives the pixel at each column and row; a patch brings the pixels of a rectangle. Patches
that all show one picture bring a canvas to that picture wherever one of them lies, in whatever
order they are painted. A picture is stored as bytes, row after row, with a stride that may be
longer than a row; the lemmas say which pixels a slice, a copy or a write of such bytes has.
-/

namespace Macrdp.Raster

variable {α β : Type*}

/-! ## Rectangles and patches -/

/-- A rectangle of columns and rows. -/
structure Rect where
  x : ℕ
  y : ℕ
  width : ℕ
  height : ℕ
  deriving DecidableEq, Repr

namespace Rect

/-- A pixel lies in the rectangle. -/
def Contains (r : Rect) (i j : ℕ) : Prop :=
  (r.x ≤ i ∧ i < r.x + r.width) ∧ r.y ≤ j ∧ j < r.y + r.height

instance (r : Rect) (i j : ℕ) : Decidable (r.Contains i j) :=
  inferInstanceAs (Decidable ((_ ∧ _) ∧ _ ∧ _))

/-- The rectangle lies in a picture of some size. -/
def Fits (r : Rect) (width height : ℕ) : Prop := r.x + r.width ≤ width ∧ r.y + r.height ≤ height

instance (r : Rect) (width height : ℕ) : Decidable (r.Fits width height) :=
  inferInstanceAs (Decidable (_ ∧ _))

end Rect

/-- The pixel at each column and row. -/
abbrev Picture (α : Type*) := ℕ → ℕ → α

/-- Two pictures are the same up to some width and height. -/
def Agree (width height : ℕ) (first second : Picture α) : Prop :=
  ∀ i < width, ∀ j < height, first i j = second i j

instance [DecidableEq α] (width height : ℕ) (first second : Picture α) :
    Decidable (Agree width height first second) :=
  inferInstanceAs (Decidable (∀ i < width, ∀ j < height, _))

variable {width height size depth stride i j : ℕ}

theorem Agree.symm {first second : Picture α}
    (h : Agree width height first second) : Agree width height second first :=
  fun i hi j hj => (h i hi j hj).symm

theorem Agree.trans {first second third : Picture α}
    (h : Agree width height first second) (h' : Agree width height second third) :
    Agree width height first third :=
  fun i hi j hj => (h i hi j hj).trans (h' i hi j hj)

/-- New pixels for a rectangle. -/
structure Patch (α : Type*) where
  area : Rect
  /-- The pixels, counted from the corner of the area. -/
  pixels : Picture α

/-- The picture with a patch painted over it. -/
def paint (pic : Picture α) (p : Patch α) : Picture α := fun i j =>
  if p.area.Contains i j then p.pixels (i - p.area.x) (j - p.area.y) else pic i j

/-- The patch shows a part of a picture. -/
def Patch.Shows (p : Patch α) (target : Picture α) : Prop :=
  ∀ i j, p.area.Contains i j → p.pixels (i - p.area.x) (j - p.area.y) = target i j

/-- Painting parts of one picture shows it where a part lies, and changes nothing elsewhere. -/
theorem foldl_paint {patches : List (Patch α)} {target : Picture α}
    (h : ∀ p ∈ patches, p.Shows target) (pic : Picture α) (i j : ℕ) :
    patches.foldl paint pic i j =
      if ∃ p ∈ patches, p.area.Contains i j then target i j else pic i j := by
  induction patches generalizing pic with
  | nil => simp
  | cons p rest ih =>
    have hfirst : p.Shows target := h p List.mem_cons_self
    rw [List.foldl_cons, ih fun q hq => h q (List.mem_cons_of_mem p hq)]
    by_cases hrest : ∃ q ∈ rest, q.area.Contains i j
    · obtain ⟨q, hq, hin⟩ := hrest
      rw [if_pos ⟨q, hq, hin⟩, if_pos ⟨q, List.mem_cons_of_mem p hq, hin⟩]
    · rw [if_neg hrest, paint]
      by_cases hin : p.area.Contains i j
      · rw [if_pos hin, if_pos ⟨p, List.mem_cons_self, hin⟩]
        exact hfirst i j hin
      · rw [if_neg hin, if_neg]
        rintro ⟨q, hq, hqin⟩
        rcases List.mem_cons.mp hq with rfl | hq
        · exact hin hqin
        · exact hrest ⟨q, hq, hqin⟩

/-- Every pixel in which two pictures differ lies in one of the rectangles. -/
def CoversDiff (width height : ℕ) (rects : List Rect) (before after : Picture α) : Prop :=
  ∀ i < width, ∀ j < height, before i j ≠ after i j → ∃ r ∈ rects, r.Contains i j

instance [DecidableEq α] (width height : ℕ) (rects : List Rect) (before after : Picture α) :
    Decidable (CoversDiff width height rects before after) :=
  inferInstanceAs (Decidable (∀ i < width, ∀ j < height, _ → ∃ r ∈ rects, _))

/-- Parts of a picture bring a canvas to it exactly if they cover what differs. -/
theorem agree_foldl_paint_iff {patches : List (Patch α)} {target : Picture α}
    (h : ∀ p ∈ patches, p.Shows target) (pic : Picture α) :
    Agree width height (patches.foldl paint pic) target ↔
      CoversDiff width height (patches.map Patch.area) pic target := by
  refine forall₂_congr fun i _ => forall₂_congr fun j _ => ?_
  rw [foldl_paint h]
  by_cases hin : ∃ p ∈ patches, p.area.Contains i j
  · have harea : ∃ r ∈ patches.map Patch.area, r.Contains i j := by
      obtain ⟨p, hp, hcontains⟩ := hin
      exact ⟨p.area, List.mem_map_of_mem hp, hcontains⟩
    rw [if_pos hin]
    exact ⟨fun _ _ => harea, fun _ => rfl⟩
  · have harea : ¬∃ r ∈ patches.map Patch.area, r.Contains i j := by
      rintro ⟨r, hr, hcontains⟩
      obtain ⟨p, hp, rfl⟩ := List.mem_map.mp hr
      exact hin ⟨p, hp, hcontains⟩
    rw [if_neg hin]
    constructor
    · intro hsame hdiff
      exact absurd hsame hdiff
    · intro hcover
      by_contra hdiff
      exact harea (hcover hdiff)

/-! ## Images stored row by row -/

/-- The elements from one index up to another; `none` if they are out of bounds. -/
def slice (data : List β) (start stop : ℕ) : Option (List β) :=
  if start ≤ stop ∧ stop ≤ data.length then some ((data.drop start).take (stop - start)) else none

/-- A slice that is in bounds. -/
theorem slice_eq (data : List β) {start stop : ℕ} (hle : start ≤ stop) (hlen : stop ≤ data.length) :
    slice data start stop = some ((data.drop start).take (stop - start)) :=
  if_pos ⟨hle, hlen⟩

/-- A partial function that is defined on a whole list. -/
theorem mapM_eq_map {ι : Type*} {γ : Type*} {f : ι → Option γ} {g : ι → γ} {indices : List ι}
    (h : ∀ k ∈ indices, f k = some (g k)) : indices.mapM f = some (indices.map g) := by
  induction indices with
  | nil => rfl
  | cons k rest ih =>
    rw [List.mapM_cons, h k List.mem_cons_self, ih fun l hl => h l (List.mem_cons_of_mem k hl)]
    rfl

/-- What a partial function is on a whole list. -/
theorem mapM_eq_some_iff {ι : Type*} {γ : Type*} {f : ι → Option γ} {indices : List ι}
    {values : List γ} : indices.mapM f = some values ↔ indices.map f = values.map some := by
  induction indices generalizing values with
  | nil => cases values <;> simp
  | cons k rest ih =>
    rw [List.mapM_cons, List.map_cons]
    cases values with
    | nil => cases f k <;> cases rest.mapM f <;> simp
    | cons v values =>
      rw [List.map_cons, List.cons.injEq, ← ih]
      cases f k <;> cases rest.mapM f <;> simp

variable {data row : List β}

/-- Slices that are all in bounds are all taken. -/
theorem mapM_slice {ι : Type*} {starts : ι → ℕ} {indices : List ι}
    (h : ∀ k ∈ indices, starts k + size ≤ data.length) :
    (indices.mapM fun k => slice data (starts k) (starts k + size)) =
      some (indices.map fun k => (data.drop (starts k)).take size) := by
  refine mapM_eq_map fun k hk => ?_
  rw [slice_eq data (Nat.le_add_right _ _) (h k hk), Nat.add_sub_cancel_left]

/-- The pixel in a column and a row, where a pixel takes `depth` elements. -/
def pixelAt (depth : ℕ) (data : List β) (stride : ℕ) : Picture (List β) := fun i j =>
  (data.drop (j * stride + i * depth)).take depth

/-- A slice from the corner of a rectangle has the pixels of the rectangle. -/
theorem pixelAt_slice (data : List β) {x y : ℕ} (h : j * stride + i * depth + depth ≤ size) :
    pixelAt depth ((data.drop (y * stride + x * depth)).take size) stride i j =
      pixelAt depth data stride (x + i) (y + j) := by
  have hoffset : y * stride + x * depth + (j * stride + i * depth) =
      (y + j) * stride + (x + i) * depth := by ring
  rw [pixelAt, pixelAt, List.drop_take, List.drop_drop, List.take_take, hoffset,
    Nat.min_eq_left (by omega)]

/-- A pixel of a row of an image. -/
theorem pixelAt_row (data : List β) (hi : i < width) :
    (((data.drop (j * stride)).take (width * depth)).drop (i * depth)).take depth =
      pixelAt depth data stride i j := by
  have hsize : 0 * stride + i * depth + depth ≤ width * depth := by
    calc 0 * stride + i * depth + depth = (i + 1) * depth := by ring
      _ ≤ width * depth := Nat.mul_le_mul_right depth hi
  have hcell := pixelAt_slice data (x := 0) (y := j) hsize
  rw [Nat.zero_mul, Nat.add_zero, Nat.zero_add, Nat.add_zero] at hcell
  rw [← hcell, pixelAt, Nat.zero_mul, Nat.zero_add]

variable {rows : List (List β)}

/-- Equal rows one after the other: how long they are. -/
theorem length_flatten (h : ∀ row ∈ rows, row.length = size) :
    rows.flatten.length = rows.length * size := by
  induction rows with
  | nil => simp
  | cons row rows ih =>
    rw [List.flatten_cons, List.length_append, h row List.mem_cons_self,
      ih fun r hr => h r (List.mem_cons_of_mem row hr), List.length_cons]
    ring

/-- Equal rows one after the other: where a row begins. -/
theorem drop_flatten (h : ∀ row ∈ rows, row.length = size)
    (j : ℕ) : rows.flatten.drop (j * size) = (rows.drop j).flatten := by
  induction rows generalizing j with
  | nil => simp
  | cons row rows ih =>
    cases j with
    | zero => simp
    | succ j =>
      have hrow : row.length = size := h row List.mem_cons_self
      have hsum : (j + 1) * size = row.length + j * size := by
        rw [hrow]
        ring
      have hpast : row.drop (row.length + j * size) = [] :=
        List.drop_eq_nil_of_le (Nat.le_add_right _ _)
      rw [List.flatten_cons, hsum, List.drop_append, List.drop_succ_cons, hpast,
        Nat.add_sub_cancel_left, List.nil_append]
      exact ih (fun r hr => h r (List.mem_cons_of_mem row hr)) j

/-- A pixel of rows that are packed one after the other. -/
theorem pixelAt_flatten (h : ∀ row ∈ rows, row.length = width * depth) (hi : i < width)
    (hrow : rows[j]? = some row) :
    pixelAt depth rows.flatten (width * depth) i j = (row.drop (i * depth)).take depth := by
  have hlen : row.length = width * depth := h row (List.mem_of_getElem? hrow)
  have hin : i * depth + depth ≤ row.length := by
    calc i * depth + depth = (i + 1) * depth := by ring
      _ ≤ width * depth := Nat.mul_le_mul_right depth hi
      _ = row.length := hlen.symm
  have hdrop : rows.drop j = row :: rows.drop (j + 1) := by
    obtain ⟨hj, hget⟩ := List.getElem?_eq_some_iff.mp hrow
    rw [List.drop_eq_getElem_cons hj, hget]
  rw [pixelAt, ← List.drop_drop, drop_flatten h, hdrop, List.flatten_cons,
    List.drop_append_of_le_length (by omega),
    List.take_append_of_le_length (by rw [List.length_drop]; omega)]

/-- Equal rows one after the other: a row. -/
theorem take_drop_flatten (h : ∀ row ∈ rows, row.length = size)
    {k : ℕ} (hrow : rows[k]? = some row) : (rows.flatten.drop (k * size)).take size = row := by
  obtain ⟨hk, hget⟩ := List.getElem?_eq_some_iff.mp hrow
  have hlen : row.length = size := h row (List.mem_of_getElem? hrow)
  rw [drop_flatten h, List.drop_eq_getElem_cons hk, hget, List.flatten_cons, List.take_left' hlen]

/-- Pixels of equal size that are packed one after the other. -/
theorem pixelAt_flatMap {pixels : List α} {bytes : α → List β}
    (h : ∀ px, (bytes px).length = depth) {px : α} (hpx : pixels[j * width + i]? = some px) :
    pixelAt depth (pixels.flatMap bytes) (width * depth) i j = bytes px := by
  have hrows : ∀ row ∈ pixels.map bytes, row.length = depth := by
    intro row hrow
    obtain ⟨p, -, rfl⟩ := List.mem_map.mp hrow
    exact h p
  have hget : (pixels.map bytes)[j * width + i]? = some (bytes px) := by
    rw [List.getElem?_map, hpx, Option.map_some]
  have hoffset : j * (width * depth) + i * depth = (j * width + i) * depth := by ring
  rw [pixelAt, hoffset, List.flatMap_def]
  exact take_drop_flatten hrows hget

/-- Pixels of equal size that are packed: how long they are. -/
theorem length_flatMap {bytes : α → List β} (h : ∀ px, (bytes px).length = depth)
    (pixels : List α) : (pixels.flatMap bytes).length = pixels.length * depth := by
  induction pixels with
  | nil => simp
  | cons px rest ih =>
    rw [List.flatMap_cons, List.length_append, h px, ih, List.length_cons]
    ring

/-- Images of one size that have the same pixels are the same. -/
theorem eq_of_pixelAt {first second : List β} (hfirst : first.length = height * (width * depth))
    (hsecond : second.length = height * (width * depth)) (h : ∀ i < width, ∀ j < height,
      pixelAt depth first (width * depth) i j = pixelAt depth second (width * depth) i j) :
    first = second := by
  refine List.ext_getElem? fun k => ?_
  by_cases hk : k < height * (width * depth)
  · have hsize : 0 < width * depth := Nat.pos_of_mul_pos_left (Nat.zero_lt_of_lt hk)
    have hdepth : 0 < depth := Nat.pos_of_mul_pos_left hsize
    have hrow : k / (width * depth) < height := (Nat.div_lt_iff_lt_mul hsize).mpr hk
    have hcol : k % (width * depth) / depth < width :=
      (Nat.div_lt_iff_lt_mul hdepth).mpr (Nat.mod_lt k hsize)
    have hin : k % (width * depth) % depth < depth := Nat.mod_lt _ hdepth
    have hsplit : k / (width * depth) * (width * depth) +
        k % (width * depth) / depth * depth + k % (width * depth) % depth = k := by
      rw [Nat.add_assoc, Nat.div_add_mod', Nat.div_add_mod']
    have hpixel := congrArg (fun px => px[k % (width * depth) % depth]?) (h _ hcol _ hrow)
    simp only [pixelAt, List.getElem?_take_of_lt hin, List.getElem?_drop, hsplit] at hpixel
    exact hpixel
  · rw [List.getElem?_eq_none (by omega), List.getElem?_eq_none (by omega)]

/-! ## Pieces of a list -/

/-- Consecutive pieces of some size, the last of which may be shorter. -/
def chunks (size : ℕ) (data : List β) : List (List β) :=
  (List.range ((data.length + size - 1) / size)).map fun k => (data.drop (k * size)).take size

/-- Whole pieces and a last one that is not empty. -/
theorem length_chunks {count rest : ℕ}
    (hlen : data.length = count * size + rest) (hrest : 0 < rest) (hle : rest ≤ size) :
    (chunks size data).length = count + 1 := by
  rw [chunks, List.length_map, List.length_range, hlen]
  refine Nat.div_eq_of_lt_le ?_ ?_
  · rw [Nat.add_mul]
    omega
  · rw [Nat.add_mul, Nat.add_mul]
    omega

/-- A piece. -/
theorem getElem?_chunks {k : ℕ} (hk : k < (chunks size data).length) :
    (chunks size data)[k]? = some ((data.drop (k * size)).take size) := by
  rw [chunks, List.length_map, List.length_range] at hk
  rw [chunks, List.getElem?_map, List.getElem?_range hk]
  rfl

/-- The pieces of whole pieces are all of the size. -/
theorem length_of_mem_chunks {piece : List β} (hlen : data.length % size = 0)
    (h : piece ∈ chunks size data) : piece.length = size := by
  rw [chunks] at h
  obtain ⟨k, hk, rfl⟩ := List.mem_map.mp h
  have hcount := List.mem_range.mp hk
  rcases Nat.eq_zero_or_pos size with hzero | hpos
  · rw [hzero, Nat.div_zero] at hcount
    exact absurd hcount (Nat.not_lt_zero k)
  · obtain ⟨count, hdata⟩ := Nat.dvd_of_mod_eq_zero hlen
    rw [Nat.lt_div_iff_mul_lt hpos, hdata] at hcount
    have hlt : k * size < size * count := by omega
    rw [Nat.mul_comm size count] at hlt
    have hbefore : k + 1 ≤ count := Nat.lt_of_mul_lt_mul_right hlt
    have hroom : (k + 1) * size ≤ count * size := Nat.mul_le_mul_right _ hbefore
    rw [Nat.add_mul, Nat.one_mul] at hroom
    rw [List.length_take, List.length_drop, hdata, Nat.mul_comm size count]
    omega

/-- A piece of equal pieces that are put together: where its elements are. -/
theorem getElem?_flatten (h : ∀ row ∈ rows, row.length = size)
    {k : ℕ} (hi : i < size) (hrow : rows[k]? = some row) :
    rows.flatten[k * size + i]? = row[i]? := by
  obtain ⟨hk, hget⟩ := List.getElem?_eq_some_iff.mp hrow
  have hlen : row.length = size := h row (List.mem_of_getElem? hrow)
  have hdrop : rows.drop k = row :: rows.drop (k + 1) := by
    rw [List.drop_eq_getElem_cons hk, hget]
  rw [← List.getElem?_drop, drop_flatten h, hdrop, List.flatten_cons,
    List.getElem?_append_left (by omega)]

/-- The rows of an image whose last row ends with its pixels: what each has of them. -/
theorem mapM_chunks (hheight : 0 < height)
    (hsize : 0 < size) (hle : size ≤ stride) (hlen : data.length = (height - 1) * stride + size) :
    ∃ rows, ((chunks stride data).mapM fun row => slice row 0 size) = some rows ∧
      rows.length = height ∧ (∀ row ∈ rows, row.length = size) ∧
      ∀ j < height, rows[j]? = some ((data.drop (j * stride)).take size) := by
  have hcount : (chunks stride data).length = height := by
    rw [length_chunks hlen hsize hle]
    omega
  have hpiece : ∀ j < height, (data.drop (j * stride)).length ≥ size := by
    intro j hj
    have hrows : j * stride ≤ (height - 1) * stride := Nat.mul_le_mul_right _ (by omega)
    rw [List.length_drop]
    omega
  have hget : ∀ j < height, (chunks stride data)[j]? = some ((data.drop (j * stride)).take stride) :=
    fun j hj => getElem?_chunks (by omega)
  have hslices : ∀ row ∈ chunks stride data, slice row 0 size = some (row.take size) := by
    intro row hrow
    obtain ⟨j, hj, hjrow⟩ := List.getElem_of_mem hrow
    have hsome := hget j (by omega)
    rw [List.getElem?_eq_getElem hj, hjrow, Option.some.injEq] at hsome
    have hlong := hpiece j (by omega)
    rw [slice_eq row (Nat.zero_le _) (by rw [hsome, List.length_take]; omega)]
    simp
  refine ⟨_, mapM_eq_map hslices, ?_, ?_, ?_⟩
  · rw [List.length_map, hcount]
  · intro row hrow
    obtain ⟨piece, hpieceMem, rfl⟩ := List.mem_map.mp hrow
    obtain ⟨j, hj, hjrow⟩ := List.getElem_of_mem hpieceMem
    have hsome := hget j (by omega)
    rw [List.getElem?_eq_getElem hj, hjrow, Option.some.injEq] at hsome
    have hlong := hpiece j (by omega)
    rw [hsome, List.take_take, List.length_take]
    omega
  · intro j hj
    rw [List.getElem?_map, hget j hj, Option.map_some, List.take_take, Nat.min_eq_left hle]

/-! ## Writing into a list -/

/-- The list with some elements put at an index; `none` if they are out of bounds. -/
def writeAt (data : List β) (offset : ℕ) (elems : List β) : Option (List β) :=
  if offset + elems.length ≤ data.length then
    some (data.take offset ++ elems ++ data.drop (offset + elems.length))
  else none

/-- What a range before, in or after the written one holds. -/
theorem writeAt_eq {elems : List β} {offset : ℕ} (h : offset + elems.length ≤ data.length) :
    ∃ data', writeAt data offset elems = some data' ∧ data'.length = data.length ∧
      (∀ a n, a + n ≤ offset → (data'.drop a).take n = (data.drop a).take n) ∧
      (∀ a n, a + n ≤ elems.length → (data'.drop (offset + a)).take n = (elems.drop a).take n) ∧
      ∀ a n, offset + elems.length ≤ a → (data'.drop a).take n = (data.drop a).take n := by
  have htake : (data.take offset).length = offset := by
    rw [List.length_take]
    omega
  have hfront : (data.take offset ++ elems).length = offset + elems.length := by
    rw [List.length_append, htake]
  refine ⟨_, if_pos h, ?_, ?_, ?_, ?_⟩
  · rw [List.length_append, hfront, List.length_drop]
    omega
  · intro a n ha
    rw [List.append_assoc, List.drop_append_of_le_length (by omega),
      List.take_append_of_le_length (by rw [List.length_drop]; omega), List.drop_take,
      List.take_take, Nat.min_eq_left (by omega)]
  · intro a n ha
    have hpast : (data.take offset).drop (offset + a) = [] :=
      List.drop_eq_nil_of_le (by omega)
    rw [List.append_assoc, List.drop_append, hpast, List.nil_append, htake,
      Nat.add_sub_cancel_left, List.drop_append_of_le_length (by omega),
      List.take_append_of_le_length (by rw [List.length_drop]; omega)]
  · intro a n ha
    have hpast : (data.take offset ++ elems).drop a = [] := List.drop_eq_nil_of_le (by omega)
    rw [List.drop_append, hpast, List.nil_append, hfront, List.drop_drop]
    congr 2
    omega

/-- What a row of pixels that is written into an image changes. -/
theorem pixelAt_writeAt {x y : ℕ}
    (hrow : row.length = width * depth) (hin : (x + width) * depth ≤ stride)
    (hlen : y * stride + (x + width) * depth ≤ data.length) :
    ∃ data', writeAt data (y * stride + x * depth) row = some data' ∧ data'.length = data.length ∧
      ∀ i j, (i + 1) * depth ≤ stride → pixelAt depth data' stride i j =
        if (x ≤ i ∧ i < x + width) ∧ j = y then (row.drop ((i - x) * depth)).take depth
        else pixelAt depth data stride i j := by
  have hend : y * stride + x * depth + row.length ≤ data.length := by
    rw [hrow, Nat.add_assoc, ← Nat.add_mul]
    exact hlen
  obtain ⟨data', hwrite, hlength, hbefore, hinside, hafter⟩ := writeAt_eq hend
  refine ⟨data', hwrite, hlength, fun i j hi => ?_⟩
  rw [Nat.add_mul, Nat.one_mul] at hi
  by_cases hpixel : (x ≤ i ∧ i < x + width) ∧ j = y
  · obtain ⟨⟨hleft, hright⟩, rfl⟩ := hpixel
    rw [if_pos ⟨⟨hleft, hright⟩, rfl⟩]
    have hsplit : j * stride + i * depth = j * stride + x * depth + (i - x) * depth := by
      rw [Nat.add_assoc, ← Nat.add_mul, Nat.add_sub_cancel' hleft]
    have hfits : (i - x) * depth + depth ≤ row.length := by
      rw [hrow]
      calc (i - x) * depth + depth = (i - x + 1) * depth := by ring
        _ ≤ width * depth := Nat.mul_le_mul_right depth (by omega)
    rw [pixelAt, hsplit]
    exact hinside _ _ hfits
  · rw [if_neg hpixel, pixelAt, pixelAt]
    rcases Nat.lt_trichotomy j y with hj | hj | hj
    · refine hbefore _ _ ?_
      have hrows : (j + 1) * stride ≤ y * stride := Nat.mul_le_mul_right stride hj
      rw [Nat.add_mul, Nat.one_mul] at hrows
      omega
    · rw [hj] at hpixel ⊢
      by_cases hleft : i < x
      · refine hbefore _ _ ?_
        have hcols : (i + 1) * depth ≤ x * depth := Nat.mul_le_mul_right depth hleft
        rw [Nat.add_mul, Nat.one_mul] at hcols
        omega
      · refine hafter _ _ ?_
        have hcols : (x + width) * depth ≤ i * depth := Nat.mul_le_mul_right depth (by omega)
        rw [Nat.add_mul] at hcols
        omega
    · refine hafter _ _ ?_
      have hrows : (y + 1) * stride ≤ j * stride := Nat.mul_le_mul_right stride hj
      rw [Nat.add_mul, Nat.one_mul] at hrows
      rw [Nat.add_mul] at hin
      omega

end Macrdp.Raster
