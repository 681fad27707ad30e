import Macrdp.UpdateEncoder
import Macrdp.PlainCodec

/-!
# The client mirrors the bitmaps

The tiles of a bitmap cover the pixels in which it differs from the server's framebuffer, and the
client and the framebuffer paint the same tiles. So both show the latest bitmaps, as long as each
tile is painted as it is.
-/

namespace Macrdp.UpdateEncoder

open StepSystem Raster ServerFramebuffer BitmapEncoding

variable {C : Type}

/-! ## Tiles -/

/-- A band of a rectangle, as wide as it. -/
structure IsBand (r t : Rect) : Prop where
  x_eq : t.x = r.x
  width_eq : t.width = r.width
  top : r.y ≤ t.y
  bottom : t.y + t.height ≤ r.y + r.height
  height_pos : 0 < t.height

variable {r : Rect}
variable {t : Rect}

/-- A band lies where its rectangle does. -/
theorem IsBand.fits {width height : ℕ} (h : IsBand r t) (hr : r.Fits width height) :
    t.Fits width height := by
  obtain ⟨hwidth, hheight⟩ := hr
  refine ⟨?_, le_trans h.bottom hheight⟩
  rw [h.x_eq, h.width_eq]
  exact hwidth

variable {maxRequestSize y i j : ℕ}

/-- Columns that a tile may have anyway are not split. -/
theorem splitColumns_eq {h x w : ℕ} (hpos : 0 < w) (hw : w ≤ max (maxRequestSize / (h * 4)) 1) :
    splitColumns maxRequestSize h y (x + w) x = [⟨x, y, w, h⟩] := by
  have hspan : x + w - x = w := Nat.add_sub_cancel_left x w
  rw [splitColumns, if_pos (by omega), splitColumns, if_neg (by omega), hspan, Nat.min_eq_left hw]

/-- The rows of a tile leave room for all columns of the rectangle. -/
theorem width_le_of_rows {w h : ℕ} (hmax : 262144 ≤ maxRequestSize) (hpos : 0 < w)
    (hw : w ≤ 8192) (hrows : 0 < h) (hh : h ≤ max (maxRequestSize / (w * 4)) 1) :
    w ≤ max (maxRequestSize / (h * 4)) 1 := by
  have hone : 1 ≤ maxRequestSize / (w * 4) := (Nat.le_div_iff_mul_le (by omega)).mpr (by omega)
  have hfits : w * (h * 4) ≤ maxRequestSize := by
    calc w * (h * 4) = w * 4 * h := by ring
      _ ≤ w * 4 * (maxRequestSize / (w * 4)) := Nat.mul_le_mul_left _ (by omega)
      _ ≤ maxRequestSize := Nat.mul_div_le _ _
  exact le_trans ((Nat.le_div_iff_mul_le (by omega)).mpr hfits) (Nat.le_max_left _ _)

/-- One pass of the loop over the rows. -/
theorem splitRows_cons (hmax : 262144 ≤ maxRequestSize)
    (hpos : 0 < r.width) (hw : r.width ≤ 8192) (hy : y < r.y + r.height) :
    splitRows maxRequestSize r y =
      ⟨r.x, y, r.width, min (r.y + r.height - y) (max (maxRequestSize / (r.width * 4)) 1)⟩ ::
        splitRows maxRequestSize r (y + max (maxRequestSize / (r.width * 4)) 1) := by
  rw [splitRows, if_pos hy]
  dsimp only
  rw [splitColumns_eq hpos (width_le_of_rows hmax hpos hw (by omega) (Nat.min_le_right _ _))]
  rfl

/-- Each pass of the loop adds a band. -/
theorem isBand_of_mem_splitRows (hmax : 262144 ≤ maxRequestSize)
    (hpos : 0 < r.width) (hw : r.width ≤ 8192) (hy : r.y ≤ y)
    (h : t ∈ splitRows maxRequestSize r y) : IsBand r t := by
  induction y using splitRows.induct maxRequestSize r with
  | case1 y hlt ih =>
    rw [splitRows_cons hmax hpos hw hlt] at h
    rcases List.mem_cons.mp h with rfl | hrest
    · exact
        { x_eq := rfl
          width_eq := rfl
          top := hy
          bottom := by
            change y + min (r.y + r.height - y) _ ≤ r.y + r.height
            omega
          height_pos := by
            change 0 < min (r.y + r.height - y) (max (maxRequestSize / (r.width * 4)) 1)
            omega }
    · exact ih (by omega) hrest
  | case2 y hge =>
    rw [splitRows, if_neg hge] at h
    exact absurd h List.not_mem_nil

/-- The loop covers the rows from the one where it is. -/
theorem contains_splitRows (hmax : 262144 ≤ maxRequestSize)
    (hpos : 0 < r.width) (hw : r.width ≤ 8192) (hy : r.y ≤ y) :
    (∃ t ∈ splitRows maxRequestSize r y, t.Contains i j) ↔ r.Contains i j ∧ y ≤ j := by
  induction y using splitRows.induct maxRequestSize r with
  | case1 y hlt ih =>
    rw [splitRows_cons hmax hpos hw hlt, List.exists_mem_cons_iff, ih (by omega)]
    simp only [Rect.Contains]
    omega
  | case2 y hge =>
    rw [splitRows, if_neg hge]
    refine iff_of_false (by simp) ?_
    intro hrow
    have hbottom := hrow.1.2.2
    omega

/-- The tiles of a rectangle are bands of it. -/
theorem isBand_of_mem_tiles (hmax : 262144 ≤ maxRequestSize)
    (hpos : 0 < r.width) (hheight : 0 < r.height) (hw : r.width ≤ 8192)
    (h : t ∈ tiles maxRequestSize r) : IsBand r t := by
  rw [tiles] at h
  split at h
  · rw [List.mem_singleton.mp h]
    exact ⟨rfl, rfl, Nat.le_refl _, Nat.le_refl _, hheight⟩
  · exact isBand_of_mem_splitRows hmax hpos hw (Nat.le_refl _) h

/-- The tiles cover the rectangle, and nothing else. -/
theorem contains_tiles (hmax : 262144 ≤ maxRequestSize) (hpos : 0 < r.width) (hw : r.width ≤ 8192) :
    (∃ t ∈ tiles maxRequestSize r, t.Contains i j) ↔ r.Contains i j := by
  rw [tiles]
  split
  · simp only [List.mem_singleton, exists_eq_left]
  · rw [splitDiff, contains_splitRows hmax hpos hw (Nat.le_refl _)]
    exact ⟨And.left, fun h => ⟨h, h.2.1⟩⟩

/-! ## Bitmaps -/

variable {format : PixelFormat} {b : BitmapUpdate}

/-- A bitmap as the source makes it has all its rows. -/
theorem Wellformed.sound (hb : Wellformed format b) :
    b.Sound where
  __ := hb
  wide := by
    rw [Nat.mul_comm]
    exact hb.wide
  long := by
    have hwide := hb.wide
    have hheight := hb.height_pos
    have hrows : (b.height - 1 + 1) * b.stride = b.height * b.stride := by
      rw [Nat.sub_add_cancel hheight]
    rw [Nat.add_mul, Nat.one_mul] at hrows
    rw [hb.length_eq, Nat.mul_comm b.stride b.height]
    omega

/-- A part of a bitmap is a tile that shows what the bitmap does. -/
theorem sub_tile (hb : Wellformed format b) (hwidth : b.width ≤ 8192) (hheight : b.height ≤ 8192)
    (hr : r.Fits b.width b.height) (hpos : 0 < r.width) (hrows : 0 < r.height)
    (haligned : r.width % 4 = 0) :
    ∃ part : BitmapUpdate, b.sub r.x r.y r.width r.height = .ok (some part) ∧ Tile part ∧
      part.format = format ∧ part.stride = b.stride ∧ part.width = r.width ∧
      part.area = b.onDesktop r ∧
      ∀ i j, (b.onDesktop r).Contains i j → part.picture i j = b.picture i j := by
  have hsound := hb.sound
  obtain ⟨part, hsub, harea, hstride, hformat, hlength, hpicture⟩ :=
    BitmapUpdate.sub_eq hsound hb.right_le hb.bottom_le hr hpos hrows
  obtain ⟨hright, hbottom⟩ := hr
  have hpartX : part.x = b.x + r.x := congrArg Rect.x harea
  have hpartY : part.y = b.y + r.y := congrArg Rect.y harea
  have hpartWidth : part.width = r.width := congrArg Rect.width harea
  have hpartHeight : part.height = r.height := congrArg Rect.height harea
  have hrightLe := hb.right_le
  have hbottomLe := hb.bottom_le
  have hwide := hsound.wide
  have htile : Tile part :=
    { width_pos := by omega
      height_pos := by omega
      width_le := by omega
      height_le := by omega
      aligned := by
        rw [hpartWidth]
        exact haligned
      wide := by omega
      length_eq := by rw [hlength, hpartWidth, hpartHeight, hstride]
      right_le := by omega
      bottom_le := by omega }
  exact ⟨part, hsub, htile, hformat.trans hb.format_eq, hstride, hpartWidth, harea, hpicture⟩

/-! ## Sending a bitmap -/

/-- A rectangle of a bitmap that the encoder can send. -/
structure Sends (e : Encoder) (b : BitmapUpdate) (r : Rect) : Prop where
  fits : r.Fits b.width b.height
  width_pos : 0 < r.width
  height_pos : 0 < r.height
  aligned : r.width % 4 = 0
  sendable : e.updater = .bitmap → r.width * 4 = b.stride

section

variable [Inhabited C]

/-- A tile is encoded, and painted as the bitmap has it. -/
theorem encodeRect_eq {k : Codec C} (hk : k.Lawful format) {e : Encoder}
    (hb : Wellformed format b) (hwidth : b.width ≤ 8192)
    (hheight : b.height ≤ 8192) (hr : Sends e b r) :
    ∃ (f : UpdateFragmenter) (ps : List (Patch C)), e.encodeRect k b r = .ok (some f) ∧
      f.data ≠ [] ∧ patches k f.code f.data = some ps ∧ (∀ p ∈ ps, p.Shows (target k b)) ∧
      ∀ i j, (∃ p ∈ ps, p.area.Contains i j) ↔ (b.onDesktop r).Contains i j := by
  obtain ⟨part, hsub, htile, hformat, hstride, hpartWidth, harea, hpicture⟩ :=
    sub_tile hb hwidth hheight hr.fits hr.width_pos hr.height_pos hr.aligned
  have hsend : Sendable e.updater part := by
    intro hupdater
    rw [hpartWidth, hstride]
    exact hr.sendable hupdater
  obtain ⟨f, ps, hf, hne, hpatches, hshows, hcover⟩ := handle_eq (hformat ▸ hk) htile hsend
  have hcontains : ∀ i j, (∃ p ∈ ps, p.area.Contains i j) ↔ (b.onDesktop r).Contains i j := by
    intro i j
    rw [hcover, harea]
  refine ⟨f, ps, ?_, hne, hpatches, ?_, hcontains⟩
  · obtain ⟨hright, hbottom⟩ := hr.fits
    have hrightLe := hb.right_le
    have hpos := hr.width_pos
    have hrows := hr.height_pos
    simp only [Encoder.encodeRect, castU16_eq (show r.x ≤ 0xFFFF by omega),
      castU16_eq (show r.y ≤ 0xFFFF by omega), castU16_eq (show r.width ≤ 0xFFFF by omega),
      castU16_eq (show r.height ≤ 0xFFFF by omega), ok_bind, if_neg (show ¬r.width = 0 by omega),
      if_neg (show ¬r.height = 0 by omega), hsub, hf]
    rfl
  · intro p hp i j hin
    rw [hshows p hp i j hin, target, target, hpicture i j ((hcontains i j).mp ⟨p, hp, hin⟩)]

/-- What remains of the tiles is encoded and painted as the bitmap has it. -/
theorem drain_eq {k : Codec C} (hk : k.Lawful format) {e e' : Encoder}
    (hb : Wellformed format b) (hwidth : b.width ≤ 8192)
    (hheight : b.height ≤ 8192) {diffs rest : List Rect} (hrest : ∀ r ∈ rest, Sends e b r)
    (hend : e.bitmapUpdateFramebuffer b diffs = .ok e') :
    ∃ (fs : List UpdateFragmenter) (ps : List (Patch C)),
      e.drain k b diffs rest = .ok (fs, e') ∧ (∀ p ∈ ps, p.Shows (target k b)) ∧
      (∀ c, (Session.deliver k c fs).picture = ps.foldl paint c.picture) ∧
      ∀ i j, (∃ p ∈ ps, p.area.Contains i j) ↔ ∃ r ∈ rest, (b.onDesktop r).Contains i j := by
  induction rest with
  | nil =>
    refine ⟨[], [], ?_, by simp, fun c => rfl, by simp⟩
    rw [Encoder.drain, hend]
    rfl
  | cons r rest ih =>
    obtain ⟨f, ps, hf, hne, hpatches, hshows, hcover⟩ :=
      encodeRect_eq hk hb hwidth hheight (hrest r List.mem_cons_self)
    obtain ⟨fs, qs, hfs, hall, hdeliver, hothers⟩ :=
      ih fun t ht => hrest t (List.mem_cons_of_mem r ht)
    refine ⟨f :: fs, ps ++ qs, ?_, ?_, ?_, ?_⟩
    · rw [Encoder.drain, hf, ok_bind]
      simp only [hfs, ok_bind]
      rfl
    · intro p hp
      rcases List.mem_append.mp hp with hp | hp
      · exact hshows p hp
      · exact hall p hp
    · intro c
      rw [Session.deliver, List.foldl_cons, Client.foldl_receive_fragments k f hne]
      rw [List.foldl_append]
      have happlied : (c.apply k f.code f.data).picture = ps.foldl paint c.picture := by
        rw [Client.apply, hpatches]
        rfl
      rw [← happlied]
      exact hdeliver _
    · intro i j
      rw [List.exists_mem_cons_iff, ← hcover, ← hothers]
      simp only [List.mem_append, or_and_right, exists_or]

end

/-! ## What differs -/

/-- The server's framebuffer has the desktop's size, and what was drawn. -/
structure Shadows (settings : Settings) (format : PixelFormat) (drawn : Picture (Option Pixel))
    (fb : Framebuffer) : Prop where
  sound : fb.Sound
  width_eq : fb.width = settings.desktopWidth
  height_eq : fb.height = settings.desktopHeight
  format_eq : fb.format = format
  shows : ∀ i < settings.desktopWidth, ∀ j < settings.desktopHeight,
    drawn i j = some (fb.picture i j)

variable {e : Encoder} {drawn : Picture (Option Pixel)}
variable {k : Codec C}

/-- The rectangles that differ are parts of the bitmap. -/
theorem diffRects_fit (hk : k.Lawful format) (hb : Wellformed format b)
    (hfb : ∀ fb ∈ e.framebuffer, Shadows e.toSettings format drawn fb)
    (haccepted : Accepted e.toSettings b) :
    ∀ r ∈ e.diffRects k b,
      r.Fits b.width b.height ∧ 0 < r.width ∧ 0 < r.height ∧ r.width % 4 = 0 := by
  obtain ⟨hright, hbottom⟩ := haccepted
  change b.x + b.width ≤ e.desktopWidth at hright
  change b.y + b.height ≤ e.desktopHeight at hbottom
  have hsound := hb.sound
  intro r hr
  rw [Encoder.diffRects] at hr
  cases hsome : e.framebuffer with
  | none =>
    rw [hsome] at hr
    rw [List.mem_singleton.mp hr]
    exact ⟨⟨le_of_eq (Nat.zero_add _), le_of_eq (Nat.zero_add _)⟩, hb.width_pos, hb.height_pos,
      hb.width_aligned⟩
  | some fb =>
    rw [hsome] at hr
    have hshadow := hfb fb hsome
    have hwidth : b.x + b.width ≤ fb.width := by
      rw [hshadow.width_eq]
      exact hright
    have hheight : b.y + b.height ≤ fb.height := by
      rw [hshadow.height_eq]
      exact hbottom
    obtain ⟨hfits, hpos, hrows, -, haligned⟩ := hk.rects_fit hwidth hheight hb.width_aligned
      hshadow.sound.long hsound.long r hr
    exact ⟨hfits, hpos, hrows, haligned⟩

/-- What the rectangles leave out is the same in the framebuffer. -/
theorem diffRects_cover (hk : k.Lawful format) (hb : Wellformed format b)
    (hfb : ∀ fb ∈ e.framebuffer, Shadows e.toSettings format drawn fb)
    (haccepted : Accepted e.toSettings b) (hin : b.area.Contains i j)
    (hout : ¬∃ r ∈ e.diffRects k b, (b.onDesktop r).Contains i j) :
    ∃ fb, e.framebuffer = some fb ∧ fb.picture i j = b.picture i j := by
  obtain ⟨hright, hbottom⟩ := haccepted
  change b.x + b.width ≤ e.desktopWidth at hright
  change b.y + b.height ≤ e.desktopHeight at hbottom
  obtain ⟨⟨hleft, hcol⟩, htop, hrow⟩ := hin
  change b.x ≤ i at hleft
  change i < b.x + b.width at hcol
  change b.y ≤ j at htop
  change j < b.y + b.height at hrow
  have hmoved : ∀ r : Rect, r.Contains (i - b.x) (j - b.y) → (b.onDesktop r).Contains i j := by
    rintro r ⟨⟨hrLeft, hrCol⟩, hrTop, hrRow⟩
    refine ⟨⟨?_, ?_⟩, ?_, ?_⟩
    · change b.x + r.x ≤ i
      omega
    · change i < b.x + r.x + r.width
      omega
    · change b.y + r.y ≤ j
      omega
    · change j < b.y + r.y + r.height
      omega
  rw [Encoder.diffRects] at hout
  cases hsome : e.framebuffer with
  | none =>
    rw [hsome] at hout
    refine absurd ⟨_, List.mem_singleton_self _, hmoved _ ⟨⟨Nat.zero_le _, ?_⟩, Nat.zero_le _, ?_⟩⟩
      hout
    · change i - b.x < 0 + b.width
      omega
    · change j - b.y < 0 + b.height
      omega
  | some fb =>
    rw [hsome] at hout
    have hshadow := hfb fb hsome
    have hwidth : b.x + b.width ≤ fb.width := by
      rw [hshadow.width_eq]
      exact hright
    have hheight : b.y + b.height ≤ fb.height := by
      rw [hshadow.height_eq]
      exact hbottom
    refine ⟨fb, rfl, ?_⟩
    by_contra hdiff
    have hcolumn : b.x + (i - b.x) = i := by omega
    have hline : b.y + (j - b.y) = j := by omega
    have hcell : pixelAt 4 fb.data fb.stride (b.x + (i - b.x)) (b.y + (j - b.y)) ≠
        pixelAt 4 b.data b.stride (i - b.x) (j - b.y) := by
      rw [hcolumn, hline]
      exact hdiff
    obtain ⟨r, hr, hrin⟩ := hk.rects_cover hwidth hheight hshadow.sound.long hb.sound.long _
      (by omega) _ (by omega) hcell
    exact hout ⟨r, hr, hmoved r hrin⟩

/-- A part of a bitmap lies where the bitmap does. -/
theorem contains_of_onDesktop (hr : r.Fits b.width b.height)
    (hin : (b.onDesktop r).Contains i j) : b.area.Contains i j := by
  obtain ⟨hright, hbottom⟩ := hr
  obtain ⟨⟨hleft, hcol⟩, htop, hrow⟩ := hin
  change b.x + r.x ≤ i at hleft
  change i < b.x + r.x + r.width at hcol
  change b.y + r.y ≤ j at htop
  change j < b.y + r.y + r.height at hrow
  refine ⟨⟨?_, ?_⟩, ?_, ?_⟩
  · change b.x ≤ i
    omega
  · change i < b.x + b.width
    omega
  · change b.y ≤ j
    omega
  · change j < b.y + b.height
    omega

/-- The tiles of the rectangles that differ are sent, and lie where those do. -/
theorem bitmapDiffs_sends (hk : k.Lawful format) (hb : Wellformed format b)
    (hfb : ∀ fb ∈ e.framebuffer, Shadows e.toSettings format drawn fb)
    (haccepted : Accepted e.toSettings b) (hmax : 262144 ≤ e.maxRequestSize)
    (hwidth : b.width ≤ 8192)
    (hrows : e.updater = .bitmap → ∀ r ∈ e.diffRects k b, r.width * 4 = b.stride) :
    (∀ t ∈ e.bitmapDiffs k b, Sends e b t) ∧
      ∀ i j, (∃ t ∈ e.bitmapDiffs k b, (b.onDesktop t).Contains i j) ↔
        ∃ r ∈ e.diffRects k b, (b.onDesktop r).Contains i j := by
  have hfit := diffRects_fit hk hb hfb haccepted
  constructor
  · intro t ht
    obtain ⟨r, hr, hmem⟩ := List.mem_flatMap.mp ht
    obtain ⟨hfits, hpos, hheight, haligned⟩ := hfit r hr
    have hle := hfits.1
    have hband := isBand_of_mem_tiles hmax hpos hheight (by omega) hmem
    exact
      { fits := hband.fits hfits
        width_pos := by
          rw [hband.width_eq]
          exact hpos
        height_pos := hband.height_pos
        aligned := by
          rw [hband.width_eq]
          exact haligned
        sendable := fun hupdater => by
          rw [hband.width_eq]
          exact hrows hupdater r hr }
  · intro i j
    have hmoved : ∀ r : Rect, (b.onDesktop r).Contains i j ↔
        (b.x ≤ i ∧ b.y ≤ j) ∧ r.Contains (i - b.x) (j - b.y) := by
      intro r
      simp only [Rect.Contains, BitmapUpdate.onDesktop]
      omega
    constructor
    · rintro ⟨t, ht, hin⟩
      obtain ⟨r, hr, hmem⟩ := List.mem_flatMap.mp ht
      obtain ⟨hfits, hpos, -, -⟩ := hfit r hr
      have hle := hfits.1
      obtain ⟨hcorner, htin⟩ := (hmoved t).mp hin
      exact ⟨r, hr, (hmoved r).mpr
        ⟨hcorner, (contains_tiles hmax hpos (by omega)).mp ⟨t, hmem, htin⟩⟩⟩
    · rintro ⟨r, hr, hin⟩
      obtain ⟨hfits, hpos, -, -⟩ := hfit r hr
      have hle := hfits.1
      obtain ⟨hcorner, hrin⟩ := (hmoved r).mp hin
      obtain ⟨t, hmem, htin⟩ := (contains_tiles hmax hpos (by omega)).mpr hrin
      exact ⟨t, List.mem_flatMap.mpr ⟨r, hr, hmem⟩, (hmoved t).mpr ⟨hcorner, htin⟩⟩

/-- The framebuffer takes a bitmap whose tiles cover what differs. -/
theorem bitmapUpdateFramebuffer_eq (hb : Wellformed format b)
    (hfb : ∀ fb ∈ e.framebuffer, Shadows e.toSettings format drawn fb)
    (haccepted : Accepted e.toSettings b) {diffs : List Rect} (hdiffs : ∀ d ∈ diffs, Sends e b d)
    (hcover : ∀ i j, b.area.Contains i j → (¬∃ d ∈ diffs, (b.onDesktop d).Contains i j) →
      ∃ fb, e.framebuffer = some fb ∧ fb.picture i j = b.picture i j) :
    ∃ e', e.bitmapUpdateFramebuffer b diffs = .ok e' ∧ e'.toSettings = e.toSettings ∧
      ∀ fb ∈ e'.framebuffer, Shadows e.toSettings format (overlay b drawn) fb := by
  rw [Encoder.bitmapUpdateFramebuffer]
  by_cases hfull : b.x = 0 ∧ b.y = 0 ∧ b.width = e.desktopWidth ∧ b.height = e.desktopHeight
  · rw [if_pos hfull]
    obtain ⟨hx, hy, hwidth, hheight⟩ := hfull
    have hsound := hb.sound
    refine ⟨_, rfl, rfl, fun fb hfbMem => ?_⟩
    rw [Option.mem_def, Option.some.injEq] at hfbMem
    rw [← hfbMem]
    exact
      { sound := ⟨hsound.height_pos, hsound.wide, hsound.long⟩
        width_eq := hwidth
        height_eq := hheight
        format_eq := hb.format_eq
        shows := by
          intro i hi j hj
          have hin : b.area.Contains i j := by
            simp only [Rect.Contains, BitmapUpdate.area]
            omega
          rw [overlay, if_pos hin, BitmapUpdate.picture, hx, hy]
          rfl }
  · rw [if_neg hfull]
    cases hsome : e.framebuffer with
    | none =>
      refine ⟨e, rfl, rfl, fun fb hfbMem => ?_⟩
      rw [hsome] at hfbMem
      cases hfbMem
    | some fb =>
      have hshadow := hfb fb hsome
      have hfits : b.area.Fits fb.width fb.height := by
        rw [hshadow.width_eq, hshadow.height_eq]
        exact haccepted
      obtain ⟨fb', hupdate, hshape, hpicture⟩ := Framebuffer.updateDiffs_eq hb.sound hb.right_le
        hb.bottom_le (fun d hd => ⟨(hdiffs d hd).fits, (hdiffs d hd).width_pos,
          (hdiffs d hd).height_pos⟩) hshadow.sound hfits (hshadow.format_eq.trans hb.format_eq.symm)
      refine ⟨{ e with framebuffer := some fb' }, ?_, rfl, fun fb'' hfbMem => ?_⟩
      · simp only [hupdate, ok_bind]
        rfl
      · rw [Option.mem_def, Option.some.injEq] at hfbMem
        rw [← hfbMem]
        exact
          { sound := hshape.sound hshadow.sound
            width_eq := hshape.width.trans hshadow.width_eq
            height_eq := hshape.height.trans hshadow.height_eq
            format_eq := hshape.format.trans hshadow.format_eq
            shows := by
              intro i hi j hj
              rw [hpicture i (by rw [hshadow.width_eq]; exact hi) j]
              by_cases hin : b.area.Contains i j
              · rw [overlay, if_pos hin]
                by_cases hpainted : ∃ d ∈ diffs, (b.onDesktop d).Contains i j
                · rw [if_pos hpainted]
                · obtain ⟨fb₀, hfb₀, hsame⟩ := hcover i j hin hpainted
                  rw [hsome, Option.some.injEq] at hfb₀
                  rw [if_neg hpainted, hfb₀, hsame]
              · rw [overlay, if_neg hin, if_neg, hshadow.shows i hi j hj]
                rintro ⟨d, hd, hdin⟩
                exact hin (contains_of_onDesktop (hdiffs d hd).fits hdin) }

/-! ## Runs -/

section

variable [Inhabited C]

/-- The framebuffer shadows what was drawn, and the client mirrors it. -/
structure Inv (k : Codec C) (settings : Settings) (format : PixelFormat) (s : Session C) : Prop where
  settings_eq : s.encoder.toSettings = settings
  shadow : ∀ fb ∈ s.encoder.framebuffer, Shadows s.encoder.toSettings format s.drawn fb
  mirrors : s.Mirrors k

omit [Inhabited C] in
theorem inv_init (k : Codec C) (settings : Settings) (format : PixelFormat) (blank : Picture C) :
    Inv k settings format (Session.init settings blank) where
  settings_eq := rfl
  shadow := nofun
  mirrors := nofun

variable {k : Codec C} {format : PixelFormat}

omit [Inhabited C] in
/-- A bitmap that exceeds the desktop changes nothing. -/
theorem update_dropped
    (hb : Wellformed format b) (h : ¬Accepted e.toSettings b) : e.update k b = .ok ([], e) := by
  have hexceeds : e.desktopWidth < b.x + b.width ∨ e.desktopHeight < b.y + b.height := by
    by_contra hfits
    rw [not_or, Nat.not_lt, Nat.not_lt] at hfits
    exact h hfits
  rw [Encoder.update, addU16_eq hb.right_le, ok_bind]
  by_cases hwidth : e.desktopWidth < b.x + b.width
  · rw [if_pos hwidth]
    rfl
  · rw [if_neg hwidth, addU16_eq hb.bottom_le, ok_bind, if_pos (hexceeds.resolve_left hwidth)]
    rfl

omit [Inhabited C] in
/-- A bitmap on the desktop is sent tile by tile. -/
theorem update_accepted (hb : Wellformed format b) (h : Accepted e.toSettings b) :
    e.update k b = e.drain k b (e.bitmapDiffs k b) (e.bitmapDiffs k b) := by
  obtain ⟨hwidth, hheight⟩ := h
  change b.x + b.width ≤ e.desktopWidth at hwidth
  change b.y + b.height ≤ e.desktopHeight at hheight
  rw [Encoder.update, addU16_eq hb.right_le, ok_bind, if_neg (Nat.not_lt.mpr hwidth),
    addU16_eq hb.bottom_le, ok_bind, if_neg (Nat.not_lt.mpr hheight)]

/-- A step in good order is as it should be, and keeps the invariant. -/
theorem step_orderly (hk : k.Lawful format)
    {settings : Settings} (hwidth : settings.desktopWidth ≤ 8192)
    (hheight : settings.desktopHeight ≤ 8192) (hmax : 262144 ≤ settings.maxRequestSize)
    {s : Session C} (hs : Inv k settings format s) (hb : Wellformed format b)
    (hgood : s.Orderly k b) :
    ∃ t, s.step k b = some t ∧ Inv k settings format t ∧
      (¬Accepted s.encoder.toSettings b → t.encoder = s.encoder ∧ t.client = s.client) := by
  by_cases haccepted : Accepted s.encoder.toSettings b
  · have hdesktop := haccepted
    rw [hs.settings_eq] at hdesktop
    obtain ⟨hright, hbottom⟩ := hdesktop
    change b.x + b.width ≤ settings.desktopWidth at hright
    change b.y + b.height ≤ settings.desktopHeight at hbottom
    have hmaxRequest : 262144 ≤ s.encoder.maxRequestSize := by
      rw [hs.settings_eq]
      exact hmax
    obtain ⟨hsends, hsame⟩ := bitmapDiffs_sends hk hb hs.shadow haccepted hmaxRequest (by omega)
      (hgood haccepted)
    have hcover : ∀ i j, b.area.Contains i j →
        (¬∃ d ∈ s.encoder.bitmapDiffs k b, (b.onDesktop d).Contains i j) →
        ∃ fb, s.encoder.framebuffer = some fb ∧ fb.picture i j = b.picture i j := by
      intro i j hin hout
      rw [hsame] at hout
      exact diffRects_cover hk hb hs.shadow haccepted hin hout
    obtain ⟨e', hend, hsettings, hshadow⟩ :=
      bitmapUpdateFramebuffer_eq hb hs.shadow haccepted hsends hcover
    obtain ⟨fs, ps, hdrain, hshows, hdeliver, hpainted⟩ :=
      drain_eq hk hb (by omega) (by omega) hsends hend
    have hstep : s.step k b = some
        { encoder := e'
          client := Session.deliver k s.client fs
          drawn := overlay b s.drawn } := by
      rw [Session.step, update_accepted hb haccepted, hdrain]
      simp only [if_pos haccepted]
    refine ⟨_, hstep, ?_, fun hnot => absurd haccepted hnot⟩
    refine { settings_eq := hsettings.trans hs.settings_eq, shadow := ?_, mirrors := ?_ }
    · intro fb hfb
      change Shadows e'.toSettings format (overlay b s.drawn) fb
      rw [hsettings]
      exact hshadow fb hfb
    · intro i hi j hj pixel hpixel
      change i < e'.desktopWidth at hi
      change j < e'.desktopHeight at hj
      rw [hsettings] at hi hj
      change overlay b s.drawn i j = some pixel at hpixel
      change (Session.deliver k s.client fs).picture i j = k.view pixel
      rw [hdeliver, foldl_paint hshows]
      by_cases hin : b.area.Contains i j
      · rw [overlay, if_pos hin, Option.some.injEq] at hpixel
        by_cases hpaint : ∃ p ∈ ps, p.area.Contains i j
        · rw [if_pos hpaint, target, hpixel]
        · rw [if_neg hpaint]
          rw [hpainted] at hpaint
          obtain ⟨fb, hfb, hfbSame⟩ := hcover i j hin hpaint
          refine hs.mirrors i hi j hj pixel ?_
          rw [(hs.shadow fb hfb).shows i hi j hj, hfbSame, hpixel]
          rfl
      · rw [overlay, if_neg hin] at hpixel
        have hpaint : ¬∃ p ∈ ps, p.area.Contains i j := by
          rw [hpainted]
          rintro ⟨d, hd, hdin⟩
          exact hin (contains_of_onDesktop (hsends d hd).fits hdin)
        rw [if_neg hpaint]
        exact hs.mirrors i hi j hj pixel hpixel
  · have hstep : s.step k b = some s := by
      rw [Session.step, update_dropped hb haccepted]
      simp only [if_neg haccepted]
      rfl
    exact ⟨s, hstep, hs, fun _ => ⟨rfl, rfl⟩⟩

/-- In every run of bitmaps that come in good order no step fails, a bitmap that exceeds the desktop
changes nothing, and after any other the client mirrors the bitmaps. -/
theorem encoder_mirrors {k : Codec C} {format : PixelFormat} (hk : k.Lawful format)
    {settings : Settings} (hwidth : settings.desktopWidth ≤ 8192)
    (hheight : settings.desktopHeight ≤ 8192) (hmax : 262144 ≤ settings.maxRequestSize)
    (blank : Picture C) {bitmaps : List BitmapUpdate} (hb : ∀ b ∈ bitmaps, Wellformed format b)
    (hgood : Meets (Session.step k) (Session.Orderly k) (Session.init settings blank) bitmaps) :
    Meets (Session.step k) (Session.Proper k) (Session.init settings blank) bitmaps := by
  have hwell : Meets (Session.step k) (fun _ b => Wellformed format b) (Session.init settings blank)
      bitmaps := meets_of_forall hb _
  refine Meets.of_invariant (Inv k settings format) ?_ ?_ (inv_init k settings format blank)
    (hwell.and hgood)
  · rintro s b t hs ⟨hbWell, hbGood⟩ hstep
    obtain ⟨t', hstep', ht, -⟩ := step_orderly hk hwidth hheight hmax hs hbWell hbGood
    rw [hstep, Option.some.injEq] at hstep'
    rw [hstep']
    exact ht
  · rintro s b hs ⟨hbWell, hbGood⟩
    obtain ⟨t, hstep, ht, hdropped⟩ := step_orderly hk hwidth hheight hmax hs hbWell hbGood
    refine ⟨t, hstep, ?_⟩
    by_cases haccepted : Accepted s.encoder.toSettings b
    · rw [if_pos haccepted]
      exact ht.mirrors
    · rw [if_neg haccepted]
      exact hdropped haccepted

/-- Uncompressed bitmaps always come in good order. -/
theorem meets_orderly_of_none (hk : k.Lawful format)
    {settings : Settings} (hwidth : settings.desktopWidth ≤ 8192)
    (hheight : settings.desktopHeight ≤ 8192) (hmax : 262144 ≤ settings.maxRequestSize)
    (hnone : settings.updater = .none) (blank : Picture C) {bitmaps : List BitmapUpdate}
    (hb : ∀ b ∈ bitmaps, Wellformed format b) :
    Meets (Session.step k) (Session.Orderly k) (Session.init settings blank) bitmaps := by
  have hwell : Meets (Session.step k) (fun _ b => Wellformed format b) (Session.init settings blank)
      bitmaps := meets_of_forall hb _
  have hgood : ∀ s b, Inv k settings format s → s.Orderly k b := by
    intro s b hs _ hupdater
    rw [hs.settings_eq, hnone] at hupdater
    cases hupdater
  refine Meets.of_invariant (Inv k settings format) ?_ (fun s b hs _ => hgood s b hs)
    (inv_init k settings format blank) hwell
  intro s b t hs hbWell hstep
  obtain ⟨t', hstep', ht, -⟩ :=
    step_orderly hk hwidth hheight hmax hs hbWell (hgood s b hs)
  rw [hstep, Option.some.injEq] at hstep'
  rw [hstep']
  exact ht

end

/-- A bitmap of one colour for a desktop of eight columns and two rows. -/
def plainBitmap (x width stride : ℕ) (colour : UInt8) : BitmapUpdate where
  x := x
  y := 0
  width := width
  height := 2
  format := .bgrA32
  data := List.replicate (stride * 2) colour
  stride := stride

/-- The whole desktop and then its right half, uncompressed. -/
theorem encoder_mirrors_uncompressed :
    Meets (Session.step plainCodec) (Session.Proper plainCodec)
      (Session.init ⟨8, 2, .none, 262144⟩ fun _ _ => [])
      [plainBitmap 0 8 32 1, plainBitmap 4 4 20 2] := by
  have hb : ∀ b ∈ [plainBitmap 0 8 32 1, plainBitmap 4 4 20 2], Wellformed .bgrA32 b := by
    intro b hb
    simp only [List.mem_cons, List.not_mem_nil, or_false] at hb
    rcases hb with rfl | rfl <;> constructor <;> decide
  exact encoder_mirrors (plainCodec_lawful .bgrA32) (by decide) (by decide) (by decide) _ hb
    (meets_orderly_of_none (plainCodec_lawful .bgrA32) (by decide) (by decide) (by decide) rfl _ hb)

/-- The last row of a compressed bitmap whose rows are shorter than its stride is not sent. -/
theorem not_encoder_mirrors_strided :
    ¬∀ bitmaps : List BitmapUpdate, (∀ b ∈ bitmaps, Wellformed .bgrA32 b) →
      Meets (Session.step plainCodec) (Session.Proper plainCodec)
        (Session.init ⟨8, 2, .bitmap, 262144⟩ fun _ _ => []) bitmaps := by
  intro h
  have hb : ∀ b ∈ [plainBitmap 0 8 36 1], Wellformed .bgrA32 b := by
    intro b hb
    rw [List.mem_singleton.mp hb]
    constructor <;> decide
  obtain ⟨t, hstep, hmirrors⟩ := (h _ hb).1
  have hmissing : ((Session.init ⟨8, 2, .bitmap, 262144⟩ fun _ _ => [] : Session (List UInt8)).step
      plainCodec (plainBitmap 0 8 36 1)).any (fun t => decide (t.encoder.desktopWidth = 8 ∧
        t.encoder.desktopHeight = 2 ∧ t.drawn 0 1 = some [1, 1, 1, 1] ∧
        t.client.picture 0 1 = [])) = true := by
    decide +kernel
  rw [hstep, Option.any_some, decide_eq_true_eq] at hmissing
  obtain ⟨hwidth, hheight, hdrawn, hclient⟩ := hmissing
  rw [if_pos (by decide)] at hmirrors
  have hshown := hmirrors 0 (by omega) 1 (by omega) _ hdrawn
  rw [hclient] at hshown
  exact absurd hshown (by decide)

end Macrdp.UpdateEncoder
