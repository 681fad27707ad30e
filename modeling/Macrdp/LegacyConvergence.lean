import Macrdp.LegacyDisplay

/-!
# Convergence of the legacy display path

What the client shows once the queue has been drained is a picture of its own: draining does not
change it, and a sample that fits in the queue makes it the sample, if the rectangles drawn cover
what the client does not have yet. That is so for a whole frame, and for dirty rectangles if the
client has the sample before.
-/

namespace Macrdp.LegacyDisplay

open StepSystem Raster LegacyTiles

variable {π : Type*} {width height : ℕ}

/-! ## Draining the queue -/

/-- What the client shows once the queue has been drained. -/
def Display.shown (s : Display π) : Picture Pixel := s.pending.foldl receive s.client

/-- Pointer shapes paint nothing. -/
theorem foldl_receive_pointer (shapes : List π) (pic : Picture Pixel) :
    (shapes.map DisplayUpdate.pointer).foldl receive pic = pic := by
  induction shapes with
  | nil => rfl
  | cons p rest ih => exact ih

/-- Bitmaps paint their patches. -/
theorem foldl_receive_bitmap (updates : List BitmapUpdate) (pic : Picture Pixel) :
    (updates.map (DisplayUpdate.bitmap (π := π))).foldl receive pic =
      (updates.map BitmapUpdate.patch).foldl paint pic := by
  induction updates generalizing pic with
  | nil => rfl
  | cons u rest ih => exact ih (paint pic u.patch)

variable {c : Config} {s t : Display π}
variable {a : Action π width height}

/-- A step that only drains the queue keeps what is shown in the end. -/
theorem shown_draining (ha : a.Draining) (h : s.step c a = some t) : t.shown = s.shown := by
  cases a with
  | poll shapes =>
    cases shapes with
    | nil =>
      cases h
      rfl
    | cons p shapes =>
      cases h
      rw [Display.shown, List.foldl_append, foldl_receive_pointer]
      rfl
  | next =>
    cases hp : s.pending with
    | nil =>
      rw [Display.step, hp] at h
      cases h
    | cons u rest =>
      rw [Display.step, hp] at h
      cases h
      rw [Display.shown, Display.shown, hp]
      rfl
  | resubmit egfx | sample sample egfx => exact ha.elim

/-- Returning the updates one by one drains the queue. -/
theorem run_drain (c : Config) (width height : ℕ) (s : Display π) :
    ∃ t, run (Display.step c)
        s (List.replicate s.pending.length (Action.next : Action π width height)) = some t ∧
      t.pending = [] ∧ t.client = s.shown := by
  obtain ⟨pending, resync, seeded, client, history⟩ := s
  induction pending generalizing client with
  | nil => exact ⟨_, rfl, rfl, rfl⟩
  | cons u rest ih =>
    obtain ⟨t, hrun, hempty, hclient⟩ := ih (receive client u)
    exact ⟨t, run_cons_some.mpr ⟨_, rfl, hrun⟩, hempty, hclient⟩

variable {picture : Picture Pixel}

/-- The client converges to a picture exactly if that is what is shown in the end. -/
theorem converges_iff :
    Converges c width height s picture ↔ Agree width height s.shown picture := by
  constructor
  · intro h
    obtain ⟨t, hrun, hempty, hclient⟩ := run_drain c width height s
    have hdraining : ∀ a ∈ List.replicate s.pending.length (Action.next : Action π width height),
        a.Draining := by
      intro a ha
      rw [(List.mem_replicate.mp ha).2]
      trivial
    rw [← hclient]
    exact h _ t hdraining hrun hempty
  · intro h drain t hdraining hrun hempty
    have hmeets : Meets (Display.step c) (fun _ a => a.Draining) s drain :=
      meets_of_forall hdraining s
    have hshown : t.shown = s.shown :=
      run_invariant (fun u => u.shown = s.shown)
        (fun _ _ _ hu ha hstep => (shown_draining ha hstep).trans hu) rfl hmeets hrun
    have hclient : t.client = s.shown := by
      rw [← hshown, Display.shown, hempty]
      rfl
    rw [hclient]
    exact h

/-! ## The updates of a sample -/

/-- Strips of the frame all get an update that shows the frame. -/
theorem mapM_rectUpdate (f : Frame width height) {strips : List Rect}
    (h : ∀ t ∈ strips, t.Fits width height ∧ 0 < t.width ∧ 0 < t.height) :
    ∃ updates : List BitmapUpdate,
      strips.mapM (rectUpdate f.src f.strideBytes) = some (updates.map some) ∧
      updates.map BitmapUpdate.area = strips ∧ ∀ u ∈ updates, u.patch.Shows f.picture := by
  induction strips with
  | nil => exact ⟨[], rfl, rfl, by simp⟩
  | cons t rest ih =>
    obtain ⟨hfits, hwidth, hheight⟩ := h t List.mem_cons_self
    obtain ⟨u, hu, harea, hshows⟩ := rectUpdate_eq f hfits hwidth hheight
    obtain ⟨updates, hmap, hareas, hall⟩ := ih fun t' ht' => h t' (List.mem_cons_of_mem t ht')
    refine ⟨u :: updates, ?_, ?_, ?_⟩
    · rw [List.mapM_cons, hu, hmap]
      rfl
    · rw [List.map_cons, harea, hareas]
    · intro v hv
      rcases List.mem_cons.mp hv with rfl | hv
      · exact hshows
      · exact hall v hv

variable {rects : List Rect}

/-- Rectangles of the frame are all drawn, strip by strip. -/
theorem enqueue_eq (f : Frame width height) (h : ∀ r ∈ rects, r.Fits width height) :
    ∃ updates : List BitmapUpdate, enqueue f rects = some updates ∧
      updates.map BitmapUpdate.area = rects.flatMap splitStrips ∧
      ∀ u ∈ updates, u.patch.Shows f.picture := by
  have hstrips : ∀ t ∈ rects.flatMap splitStrips,
      t.Fits width height ∧ 0 < t.width ∧ 0 < t.height := by
    intro t ht
    obtain ⟨r, hr, hmem⟩ := List.mem_flatMap.mp ht
    have hstrip := isStrip_of_mem hmem
    exact ⟨hstrip.fits (h r hr), hstrip.width_pos, hstrip.height_pos⟩
  obtain ⟨updates, hmap, hareas, hall⟩ := mapM_rectUpdate f hstrips
  refine ⟨updates, ?_, hareas, hall⟩
  rw [enqueue, hmap, Option.map_some, List.filterMap_map]
  exact congrArg some (List.filterMap_some)

/-- The updates of rectangles are tiles. -/
theorem bitmapTile_of_area {u : BitmapUpdate}
    (h : u.area ∈ rects.flatMap splitStrips) : BitmapTile u := by
  obtain ⟨r, -, hmem⟩ := List.mem_flatMap.mp h
  exact (isStrip_of_mem hmem).small

/-- The strips of rectangles cover what the rectangles do. -/
theorem coversDiff_flatMap {before after : Picture Pixel} :
    CoversDiff width height (rects.flatMap splitStrips) before after ↔
      CoversDiff width height rects before after := by
  have hsame : ∀ i j, (∃ t ∈ rects.flatMap splitStrips, t.Contains i j) ↔
      ∃ r ∈ rects, r.Contains i j := by
    intro i j
    constructor
    · rintro ⟨t, ht, hin⟩
      obtain ⟨r, hr, hmem⟩ := List.mem_flatMap.mp ht
      exact ⟨r, hr, contains_splitStrips.mp ⟨t, hmem, hin⟩⟩
    · rintro ⟨r, hr, hin⟩
      obtain ⟨t, hmem, htin⟩ := contains_splitStrips.mpr hin
      exact ⟨t, List.mem_flatMap.mpr ⟨r, hr, hmem⟩, htin⟩
  simp only [CoversDiff, hsame]

/-- The rectangles drawn lie in the frame. -/
theorem rects_fits (hwidth : width ≤ 0xFFFF) (hheight : height ≤ 0xFFFF) (c : Config)
    (s : Display π) (sample : Sample width height) :
    ∀ r ∈ s.rects c sample, r.Fits width height := by
  intro r hr
  rw [Display.rects] at hr
  split at hr
  · obtain ⟨d, -, hd⟩ := List.mem_filterMap.mp hr
    exact clampRect_fits hwidth hheight hd
  · rw [List.mem_singleton.mp hr]
    exact ⟨le_of_eq (Nat.zero_add width), le_of_eq (Nat.zero_add height)⟩

variable {sample : Sample width height}

/-- Either the whole frame is drawn, or dirty rectangles of a client that has been seeded and needs
no resynchronisation. -/
theorem covers_rects (hwidth : width ≤ 0xFFFF) (hheight : height ≤ 0xFFFF)
    {i j : ℕ} (hi : i < width) (hj : j < height) (h : s.seeded = true → s.resyncFullFrame = false →
      ∀ list ∈ sample.dirtyRects, ∃ r ∈ list, r.Contains i j) :
    ∃ r ∈ s.rects c sample, r.Contains i j := by
  rw [Display.rects]
  split
  · rename_i r list hdirty
    rw [Option.ite_none_left_eq_some] at hdirty
    obtain ⟨hflags, hdirty⟩ := hdirty
    simp only [Bool.or_eq_true, Bool.not_eq_true', not_or, Bool.not_eq_false,
      Bool.not_eq_true] at hflags
    obtain ⟨d, hd, hin⟩ := h hflags.1.1 hflags.2 _ hdirty
    obtain ⟨t, ht, htin⟩ := clampRect_contains hwidth hheight hi hj hin
    exact ⟨t, List.mem_filterMap.mpr ⟨d, hd, ht⟩, htin⟩
  · refine ⟨_, List.mem_singleton_self _, ⟨Nat.zero_le i, ?_⟩, Nat.zero_le j, ?_⟩
    · change i < 0 + width
      omega
    · change j < 0 + height
      omega

/-! ## The invariant -/

/-- The client is sent the picture that `sent` tells; it has the sample before unless the graphics
pipeline took one or the next frame is to be sent whole; that is so only after an overflow; and what
waits are tiles. -/
structure Inv (width height : ℕ) (s : Display π) : Prop where
  shown : Agree width height s.shown s.history.sent
  current : s.seeded = true → s.resyncFullFrame = false → s.history.skipped = false →
    ∃ previous, s.history.previous = some previous ∧ Agree width height s.history.sent previous
  resync : s.resyncFullFrame = true → s.history.overflowed = true
  tiles : ∀ b, DisplayUpdate.bitmap b ∈ s.pending → BitmapTile b

theorem inv_init (blank : Picture Pixel) : Inv width height (init blank : Display π) where
  shown := fun _ _ _ _ => rfl
  current := fun h => absurd h Bool.false_ne_true
  resync := fun h => absurd h Bool.false_ne_true
  tiles := fun _ h => absurd h List.not_mem_nil

/-- A drawn sample is queued as tiles that show it, or dropped. -/
theorem draw_eq (hwidth : width ≤ 0xFFFF) (hheight : height ≤ 0xFFFF) (c : Config)
    (hempty : s.pending = []) (sample : Sample width height) :
    ∃ updates : List BitmapUpdate,
      updates.map BitmapUpdate.area = (s.rects c sample).flatMap splitStrips ∧
      (∀ u ∈ updates, u.patch.Shows sample.picture) ∧
      s.draw c sample = some (if Overflows c s sample then
        { s with
          resyncFullFrame := !s.resyncFullFrame
          seeded := true
          history := s.history.draw sample.picture true }
        else
        { s with
          pending := updates.map .bitmap
          resyncFullFrame := false
          seeded := true
          history := s.history.draw sample.picture false }) := by
  obtain ⟨updates, hqueue, hareas, hall⟩ :=
    enqueue_eq sample.toFrame (rects_fits hwidth hheight c s sample)
  have hlength : (updates.map (DisplayUpdate.bitmap (π := π))).length =
      ((s.rects c sample).flatMap splitStrips).length := by
    rw [← hareas, List.length_map, List.length_map]
  refine ⟨updates, hareas, hall, ?_⟩
  rw [Display.draw, hqueue, Option.map_some, hempty, List.nil_append]
  dsimp only
  rw [hlength]
  by_cases hover : Overflows c s sample
  · have hlong : decide (c.pendingLimit < ((s.rects c sample).flatMap splitStrips).length) = true :=
      decide_eq_true hover
    rw [if_pos hover, hlong]
    cases s.resyncFullFrame <;> simp
  · have hshort :
        decide (c.pendingLimit < ((s.rects c sample).flatMap splitStrips).length) = false :=
      decide_eq_false hover
    have hle : updates.length ≤ c.pendingLimit := by
      rw [List.length_map] at hlength
      rw [hlength]
      exact Nat.le_of_not_lt hover
    rw [if_neg hover, hshort]
    cases s.resyncFullFrame <;> simp [hle]

/-- A change of the client within the frame changes nothing about what is left to cover. -/
theorem coversDiff_congr {first second target : Picture Pixel}
    (h : Agree width height first second) :
    CoversDiff width height rects first target ↔ CoversDiff width height rects second target := by
  refine forall₂_congr fun i hi => forall₂_congr fun j hj => ?_
  rw [h i hi j hj]

/-- The rectangles drawn cover what the client does not have, unless the graphics pipeline has taken
a sample since. -/
theorem coversDiff_of_inv (hwidth : width ≤ 0xFFFF) (hheight : height ≤ 0xFFFF)
    (hs : Inv width height s) {egfx : Option Submit} (hfair : Fair s (.sample sample egfx))
    (hskipped : s.history.skipped = false) :
    CoversDiff width height (s.rects c sample) s.history.sent sample.picture := by
  intro i hi j hj hdiff
  refine covers_rects hwidth hheight hi hj fun hseeded hresync list hlist => ?_
  obtain ⟨previous, hprevious, hagree⟩ := hs.current hseeded hresync hskipped
  have hchanged : previous i j ≠ sample.picture i j := by
    rw [← hagree i hi j hj]
    exact hdiff
  exact hfair previous hprevious list hlist i hi j hj hchanged

/-- A sample that the graphics pipeline does not take is drawn. -/
theorem step_sample (hempty : s.pending = [])
    {egfx : Option Submit} (hegfx : egfx ≠ some .accepted) :
    s.step c (.sample sample egfx) = s.draw c sample := by
  have hnone : s.pending.isEmpty = true := List.isEmpty_iff.mpr hempty
  rw [Display.step, if_pos hnone, if_neg hegfx]

/-- Once the queue has been drained the client has what it was last sent. -/
theorem Inv.client (hs : Inv width height s) (hempty : s.pending = []) :
    Agree width height s.client s.history.sent := by
  have hshown := hs.shown
  rw [Display.shown, hempty] at hshown
  exact hshown

/-- A dropped sample is shown if the client had it already. -/
theorem converges_dropped (hs : Inv width height s)
    (hempty : s.pending = []) (ht : t.pending = []) (hclient : t.client = s.client) :
    Converges c width height t picture ↔ Agree width height s.history.sent picture := by
  have hsent := hs.client hempty
  rw [converges_iff, Display.shown, ht, hclient]
  exact ⟨hsent.symm.trans, hsent.trans⟩

/-- A queued sample is shown if its rectangles cover what the client was not sent. -/
theorem converges_queued (hs : Inv width height s)
    (hempty : s.pending = []) {updates : List BitmapUpdate}
    (ht : t.pending = updates.map .bitmap) (hclient : t.client = s.client)
    (hareas : updates.map BitmapUpdate.area = rects.flatMap splitStrips)
    (hall : ∀ u ∈ updates, u.patch.Shows picture) :
    Converges c width height t picture ↔
      CoversDiff width height rects s.history.sent picture := by
  have hpatches : ∀ p ∈ updates.map BitmapUpdate.patch, p.Shows picture := by
    intro p hp
    obtain ⟨u, hu, rfl⟩ := List.mem_map.mp hp
    exact hall u hu
  have hpainted : (updates.map BitmapUpdate.patch).map Patch.area = rects.flatMap splitStrips := by
    rw [← hareas, List.map_map]
    rfl
  rw [converges_iff, Display.shown, ht, hclient, foldl_receive_bitmap,
    agree_foldl_paint_iff hpatches, hpainted, coversDiff_flatMap,
    coversDiff_congr (hs.client hempty)]

/-- A sample is shown as it has to be exactly if it comes in good order. -/
theorem proper_iff_orderly (hwidth : width ≤ 0xFFFF) (hheight : height ≤ 0xFFFF)
    (hs : Inv width height s) (hfair : Fair s a) : Proper c s a ↔ Orderly c s a := by
  cases a with
  | poll shapes | resubmit egfx => exact Iff.rfl
  | next =>
    refine iff_of_true (fun u hu b hb => ?_) trivial
    rw [hb] at hu
    exact hs.tiles b (List.mem_of_mem_head? hu)
  | sample sample egfx =>
    refine forall₂_congr fun hempty hegfx => ?_
    obtain ⟨updates, hareas, hall, hdraw⟩ := draw_eq hwidth hheight c hempty sample
    rw [step_sample hempty hegfx, hdraw]
    by_cases hover : Overflows c s sample
    · rw [if_pos hover, if_pos hover]
      constructor
      · rintro ⟨t, ht, hgood⟩ hoverflowed
        cases ht
        rcases hgood with hconverges | ⟨-, hfirst⟩
        · exact (converges_dropped hs hempty (by exact hempty) (by rfl)).mp hconverges
        · rw [hoverflowed] at hfirst
          cases hfirst
      · intro hgood
        refine ⟨_, rfl, ?_⟩
        cases hoverflowed : s.history.overflowed with
        | true =>
          exact Or.inl ((converges_dropped hs hempty (by exact hempty) (by rfl)).mpr
            (hgood hoverflowed))
        | false => exact Or.inr ⟨rfl, rfl⟩
    · rw [if_neg hover, if_neg hover]
      constructor
      · rintro ⟨t, ht, hgood⟩ -
        cases ht
        rcases hgood with hconverges | ⟨hoverflowed, -⟩
        · exact (converges_queued hs hempty (by rfl) (by rfl) hareas hall).mp hconverges
        · cases hoverflowed
      · intro hgood
        refine ⟨_, rfl, Or.inl
          ((converges_queued hs hempty (by rfl) (by rfl) hareas hall).mpr ?_)⟩
        cases hskipped : s.history.skipped with
        | true => exact hgood hskipped
        | false => exact coversDiff_of_inv hwidth hheight hs hfair hskipped

/-- Every step in good order keeps the invariant. -/
theorem inv_step (hwidth : width ≤ 0xFFFF) (hheight : height ≤ 0xFFFF)
    (hs : Inv width height s) (hfair : Fair s a)
    (hgood : Orderly c s a) (h : s.step c a = some t) : Inv width height t := by
  cases a with
  | poll shapes =>
    have hshown : t.shown = s.shown := shown_draining (a := .poll shapes) trivial h
    cases shapes with
    | nil =>
      cases h
      exact hs
    | cons p shapes =>
      cases h
      refine { hs with shown := ?_, tiles := ?_ }
      · rw [hshown]
        exact hs.shown
      · intro b hb
        rcases List.mem_append.mp hb with hpointer | hb
        · obtain ⟨q, -, hq⟩ := List.mem_map.mp hpointer
          cases hq
        · exact hs.tiles b hb
  | next =>
    have hshown : t.shown = s.shown :=
      shown_draining (a := (.next : Action π width height)) trivial h
    rw [Display.step] at h
    cases hp : s.pending with
    | nil =>
      rw [hp] at h
      cases h
    | cons u rest =>
      rw [hp] at h
      cases h
      refine { hs with shown := ?_, tiles := ?_ }
      · rw [hshown]
        exact hs.shown
      · intro b hb
        exact hs.tiles b (by rw [hp]; exact List.mem_cons_of_mem u hb)
  | resubmit egfx =>
    rw [Display.step, Option.ite_none_right_eq_some] at h
    obtain ⟨-, h⟩ := h
    cases h
    exact hs
  | sample sample egfx =>
    have hstep := h
    rw [Display.step, Option.ite_none_right_eq_some] at h
    obtain ⟨hnone, h⟩ := h
    have hempty : s.pending = [] := List.isEmpty_iff.mp hnone
    by_cases hegfx : egfx = some .accepted
    · rw [if_pos hegfx] at h
      cases h
      exact
        { shown := hs.shown
          current := fun _ _ hskipped => absurd hskipped.symm Bool.false_ne_true
          resync := hs.resync
          tiles := hs.tiles }
    · rw [if_neg hegfx] at h
      obtain ⟨updates, hareas, hall, hdraw⟩ := draw_eq hwidth hheight c hempty sample
      have hshows := (proper_iff_orderly hwidth hheight hs hfair).mpr hgood hempty hegfx
      rw [hdraw] at h
      have horderly := hgood hempty hegfx
      by_cases hover : Overflows c s sample
      · rw [if_pos hover] at h horderly
        cases h
        exact
          { shown := hs.shown
            current := by
              intro _ hresync _
              have hwhole : s.resyncFullFrame = true := by simpa using hresync
              exact ⟨sample.picture, rfl, horderly (hs.resync hwhole)⟩
            resync := fun _ => rfl
            tiles := hs.tiles }
      · rw [if_neg hover] at h
        cases h
        obtain ⟨t, ht, hconverges | ⟨hoverflowed, -⟩⟩ := hshows
        · rw [hstep] at ht
          cases ht
          exact
            { shown := converges_iff.mp hconverges
              current := fun _ _ _ => ⟨sample.picture, rfl, fun _ _ _ _ => rfl⟩
              resync := fun h => absurd h Bool.false_ne_true
              tiles := by
                intro b hb
                obtain ⟨u, hu, hsame⟩ := List.mem_map.mp hb
                cases hsame
                have harea : b.area ∈ (s.rects c sample).flatMap splitStrips := by
                  rw [← hareas]
                  exact List.mem_map_of_mem hu
                exact bitmapTile_of_area harea }
        · rw [hstep] at ht
          cases ht
          cases hoverflowed

/-- Exactly if the samples come in good order, the updates are tiles and the client shows every
sample of the legacy path once its updates have been returned; a sample that overflows the queue may
wait for the next. -/
theorem legacy_converges_iff (hwidth : width ≤ 8192) (hheight : height ≤ 8192) (c : Config)
    (blank : Picture Pixel) (acts : List (Action π width height))
    (hfair : Meets (Display.step c) Fair (init blank) acts) :
    Meets (Display.step c) (Proper c) (init blank) acts ↔
      Meets (Display.step c) (Orderly c) (init blank) acts := by
  have hwidth' : width ≤ 0xFFFF := le_trans hwidth (by decide)
  have hheight' : height ≤ 0xFFFF := le_trans hheight (by decide)
  exact Meets.congr (Inv width height) (fun _ _ => proper_iff_orderly hwidth' hheight')
    (fun _ _ _ => inv_step hwidth' hheight') (inv_init blank) hfair

/-- A frame of two pixels. -/
def twoPixels (left right : UInt8) : Frame 2 1 where
  src := List.replicate 4 left ++ List.replicate 4 right
  strideBytes := 8
  wide := Nat.le_refl 8
  long := by
    intro row hrow
    rw [List.length_append, List.length_replicate, List.length_replicate]
    omega

/-- The right pixel changes once the client has been seeded. -/
theorem legacy_converges_iff_seeded :
    Meets (Display.step ⟨32, false⟩) (Proper ⟨32, false⟩) (init fun _ _ => [0, 0, 0, 0] : Display ℕ)
      [.sample ⟨twoPixels 1 1, none⟩ (some .refused), .poll [7, 8], .next, .next,
        .sample ⟨twoPixels 1 2, some [⟨1, -1, 9, 2⟩]⟩ (some .failed), .next] := by
  have hfair : Meets (Display.step ⟨32, false⟩) Fair (init fun _ _ => [0, 0, 0, 0] : Display ℕ)
      [.sample ⟨twoPixels 1 1, none⟩ (some .refused), .poll [7, 8], .next, .next,
        .sample ⟨twoPixels 1 2, some [⟨1, -1, 9, 2⟩]⟩ (some .failed), .next] :=
    (meetsBool_iff.mp (by decide +kernel :
      meetsBool _ (fun s a => decide (Fair s a)) _ _ = true)).mono fun _ _ h => of_decide_eq_true h
  refine (legacy_converges_iff (by decide) (by decide) _ _ _ hfair).mpr ?_
  exact (meetsBool_iff.mp (by decide +kernel :
    meetsBool _ (fun s a => decide (Orderly _ s a)) _ _ = true)).mono
      fun _ _ h => of_decide_eq_true h

/-- The graphics pipeline takes the first sample and then closes: the client never gets the pixel
that did not change after. -/
theorem not_legacy_converges_closed :
    ¬∀ (c : Config) (blank : Picture Pixel) (acts : List (Action ℕ 2 1)),
      Meets (Display.step c) Fair (init blank : Display ℕ) acts →
        Meets (Display.step c) (Proper c) (init blank : Display ℕ) acts := by
  intro h
  have hfair : Meets (Display.step ⟨32, false⟩) Fair (init fun _ _ => [0, 0, 0, 0] : Display ℕ)
      [.sample ⟨twoPixels 1 1, none⟩ (some .accepted),
        .sample ⟨twoPixels 1 2, some [⟨1, 0, 1, 1⟩]⟩ (some .refused)] :=
    (meetsBool_iff.mp (by decide +kernel :
      meetsBool _ (fun s a => decide (Fair s a)) _ _ = true)).mono fun _ _ h => of_decide_eq_true h
  have hproper := h ⟨32, false⟩ _ _ hfair
  have hinv : Inv 2 1 ((init fun _ _ => [0, 0, 0, 0] : Display ℕ).skip
      ⟨twoPixels 1 1, none⟩) :=
    inv_step (c := ⟨32, false⟩) (by decide) (by decide) (inv_init _) hfair.1
      (fun _ hegfx => absurd rfl hegfx) rfl
  have horderly := (proper_iff_orderly (by decide) (by decide) hinv (hfair.2 _ rfl).1).mp
    (hproper.2 _ rfl).1
  revert horderly
  decide +kernel

end Macrdp.LegacyDisplay
