import Macrdp.MouseInput
import Macrdp.StepSystem
import Mathlib.Tactic.GCongr
import Mathlib.Tactic.Positivity

/-!
# The pointer stays on the display

Where an absolute move puts the pointer is bounded by the display and grows with each coordinate. A
relative move keeps it there only on a display of at least one pixel, and a move on a display that
is shown with bars has no place at all if the display has no width.
-/

namespace Macrdp.PointerMotion

open MouseInput StepSystem

/-! ## The place of an absolute move -/

/-- Clamping keeps the order. -/
theorem clamp_mono {low high : ℚ} (h : low ≤ high) {p q : ℚ} (hpq : p ≤ q) :
    RationalFloat.clamp p low high ≤ RationalFloat.clamp q low high := by
  rw [RationalFloat.clamp_eq h, RationalFloat.clamp_eq h]
  exact max_le_max le_rfl (min_le_min_right high hpq)

/-- A frame has at least one column and one row. -/
theorem frame_pos (d : UInt16) : (0 : ℚ) < (max d 1).toNat := by
  have hmax : max d 1 = if d ≤ 1 then 1 else d := rfl
  have hpos : 0 < (max d 1).toNat := by
    rw [hmax]
    split
    · decide
    · next h =>
      have hlt := mt UInt16.le_iff_toNat_le.mpr h
      omega
  exact_mod_cast hpos

/-- The last coordinate of a display. -/
theorem limit_nonneg (size : ℚ) : 0 ≤ max (size - 1) 0 := le_max_right _ _

/-- An axis of a display that fills the frame. -/
def fillAxis (frame size : ℚ) (c : UInt16) : ℚ :=
  RationalFloat.clamp (c.toNat * size / frame) 0 (max (size - 1) 0)

/-- An axis of a display that is shown in a part of the frame. -/
def barAxis (frame content size : ℚ) (c : UInt16) : ℚ :=
  RationalFloat.clamp
    (RationalFloat.clamp ((c.toNat - (frame - content) / 2) / content) 0 1 * size) 0
    (max (size - 1) 0)

theorem fillAxis_mono {frame size : ℚ} (hframe : 0 < frame) (hsize : 0 ≤ size) {c d : UInt16}
    (h : c ≤ d) : fillAxis frame size c ≤ fillAxis frame size d := by
  have hcd : (c.toNat : ℚ) ≤ d.toNat := by exact_mod_cast UInt16.le_iff_toNat_le.mp h
  refine clamp_mono (limit_nonneg size) ?_
  gcongr

theorem barAxis_mono {frame content size : ℚ} (hcontent : 0 < content) (hsize : 0 ≤ size)
    {c d : UInt16} (h : c ≤ d) : barAxis frame content size c ≤ barAxis frame content size d := by
  have hcd : (c.toNat : ℚ) ≤ d.toNat := by exact_mod_cast UInt16.le_iff_toNat_le.mp h
  have hfraction : RationalFloat.clamp ((c.toNat - (frame - content) / 2) / content) 0 1 ≤
      RationalFloat.clamp ((d.toNat - (frame - content) / 2) / content) 0 1 := by
    refine clamp_mono zero_le_one ?_
    gcongr
  refine clamp_mono (limit_nonneg size) ?_
  gcongr

/-- A display that fills the frame: every coordinate has a place. -/
theorem mapClientToDisplay_fill (x y dw dh : UInt16) (sw sh : ℚ) :
    mapClientToDisplay x y dw dh sw sh false =
      .ok (fillAxis (max dw 1).toNat sw x, fillAxis (max dh 1).toNat sh y) := by
  have hscaled : scaled x y (max dw 1).toNat (max dh 1).toNat sw sh false =
      .ok (x.toNat * sw / (max dw 1).toNat, y.toNat * sh / (max dh 1).toNat) := by
    rw [scaled, if_neg Bool.false_ne_true, stretched, divide_eq (frame_pos dw).ne', ok_bind,
      divide_eq (frame_pos dh).ne', ok_bind]
    rfl
  rw [mapClientToDisplay, hscaled, ok_bind, clamp_eq (limit_nonneg sw), ok_bind,
    clamp_eq (limit_nonneg sh), ok_bind]
  rfl

/-- The part of the frame for a display of some width has a size. -/
theorem contentSize_ok {dwf dhf sw : ℚ} (sh : ℚ) (hw : 0 < dwf) (hh : 0 < dhf) (hsw : 0 < sw) :
    ∃ cw ch, 0 < cw ∧ 0 < ch ∧
      contentSize dwf dhf (sw / max sh 1) (dwf / dhf) = .ok (cw, ch) := by
  have hmax : 0 < max sh 1 := lt_max_of_lt_right one_pos
  have haspect : 0 < sw / max sh 1 := div_pos hsw hmax
  rw [contentSize]
  by_cases hpillar : dwf / dhf > sw / max sh 1
  · exact ⟨_, _, mul_pos hh haspect, hh, if_pos hpillar⟩
  · refine ⟨dwf, dwf / (sw / max sh 1), hw, div_pos hw haspect, ?_⟩
    rw [if_neg hpillar, divide_eq haspect.ne', ok_bind]
    rfl

/-- A display of some width that is shown with bars: every coordinate has a place. -/
theorem mapClientToDisplay_bars (dw dh : UInt16) {sw : ℚ} (sh : ℚ) (hsw : 0 < sw) :
    ∃ cw ch, 0 < cw ∧ 0 < ch ∧ ∀ x y, mapClientToDisplay x y dw dh sw sh true =
      .ok (barAxis (max dw 1).toNat cw sw x, barAxis (max dh 1).toNat ch sh y) := by
  have hw := frame_pos dw
  have hh := frame_pos dh
  have hmax : max sh 1 ≠ 0 := (lt_max_of_lt_right one_pos).ne'
  obtain ⟨cw, ch, hcw, hch, hcontent⟩ := contentSize_ok sh hw hh hsw
  refine ⟨cw, ch, hcw, hch, fun x y => ?_⟩
  rw [mapClientToDisplay, scaled, if_pos rfl, letterboxed, divide_eq hmax, ok_bind,
    divide_eq hh.ne', ok_bind, hcontent, ok_bind]
  dsimp only
  rw [divide_eq hcw.ne', ok_bind, clamp_eq zero_le_one, ok_bind, divide_eq hch.ne', ok_bind,
    clamp_eq zero_le_one, ok_bind, pure_bind, clamp_eq (limit_nonneg sw), ok_bind,
    clamp_eq (limit_nonneg sh), ok_bind]
  rfl

/-- A display without width that is shown with bars has no place for a coordinate. -/
theorem mapClientToDisplay_flat (x y dw dh : UInt16) (sh : ℚ) :
    mapClientToDisplay x y dw dh 0 sh true = .error .divideByZero := by
  have hw := frame_pos dw
  have hh := frame_pos dh
  have hmax : max sh 1 ≠ 0 := (lt_max_of_lt_right one_pos).ne'
  have hwide : (max dw 1).toNat / (max dh 1).toNat > (0 : ℚ) := div_pos hw hh
  rw [mapClientToDisplay, scaled, if_pos rfl, letterboxed, divide_eq hmax, ok_bind,
    divide_eq hh.ne', ok_bind, zero_div, contentSize, if_pos hwide, ok_bind]
  dsimp only
  rw [mul_zero, divide, if_pos rfl]
  rfl

/-- Every coordinate has a place on the display, which grows with it. -/
theorem mapClientToDisplay_ok (dw dh : UInt16) (b : Bounds) {letterbox : Bool}
    (h : letterbox = true → b.sw ≠ 0) : ∃ fx fy : UInt16 → ℚ,
      (∀ x y, mapClientToDisplay x y dw dh b.sw b.sh letterbox = .ok (fx x, fy y)) ∧
      (∀ c d, c ≤ d → fx c ≤ fx d ∧ fy c ≤ fy d) ∧
      ∀ x y, b.Contains (b.ox + fx x, b.oy + fy y) := by
  have hw := frame_pos dw
  have hh := frame_pos dh
  have hinside : ∀ size q : ℚ, 0 ≤ RationalFloat.clamp q 0 (max (size - 1) 0) ∧
      RationalFloat.clamp q 0 (max (size - 1) 0) ≤ max (size - 1) 0 :=
    fun size q => RationalFloat.clamp_mem (limit_nonneg size) q
  cases letterbox with
  | false =>
    refine ⟨_, _, fun x y => mapClientToDisplay_fill x y dw dh b.sw b.sh, ?_, ?_⟩
    · intro c d hcd
      exact ⟨fillAxis_mono hw b.sw_nonneg hcd, fillAxis_mono hh b.sh_nonneg hcd⟩
    · intro x y
      have hx := hinside b.sw (x.toNat * b.sw / (max dw 1).toNat)
      have hy := hinside b.sh (y.toNat * b.sh / (max dh 1).toNat)
      refine ⟨⟨?_, ?_⟩, ?_, ?_⟩ <;> simp only [fillAxis] <;> linarith
  | true =>
    have hsw : 0 < b.sw := lt_of_le_of_ne b.sw_nonneg (h rfl).symm
    obtain ⟨cw, ch, hcw, hch, hmap⟩ := mapClientToDisplay_bars dw dh b.sh hsw
    refine ⟨_, _, hmap, ?_, ?_⟩
    · intro c d hcd
      exact ⟨barAxis_mono hcw b.sw_nonneg hcd, barAxis_mono hch b.sh_nonneg hcd⟩
    · intro x y
      have hx := hinside b.sw (RationalFloat.clamp
        ((x.toNat - ((max dw 1).toNat - cw) / 2) / cw) 0 1 * b.sw)
      have hy := hinside b.sh (RationalFloat.clamp
        ((y.toNat - ((max dh 1).toNat - ch) / 2) / ch) 0 1 * b.sh)
      refine ⟨⟨?_, ?_⟩, ?_, ?_⟩ <;> simp only [barAxis] <;> linarith

/-! ## What an event does with the pointer -/

/-- The bounds of the display that an event uses: those that it asks for, or else those of the last
event that did. -/
def boundsUsed (s : Inner) (i : Input) : Option Bounds :=
  match i.event with
  | .move _ _ | .relMove _ _ => some (s.targetBounds i).2
  | _ => s.cachedBounds

/-- The pointer is on the display whose bounds have been used last. -/
def Rests (s : Inner) : Prop := ∀ b, s.cachedBounds = some b → b.Contains (s.lastX, s.lastY)

/-- The event is handled to its end, and where it says that the pointer is, there is the display. -/
def Proper (s : Inner) (i : Input) : Prop :=
  ∃ s' posted, s.mouse i = .ok (s', posted) ∧
    ∀ p, posted.bind Posted.position = some p → ∀ b, boundsUsed s i = some b → b.Contains p

/-- The display has a size where the event needs one, the remainders of the wheels stay in range,
and so do the counts of presses. -/
def Steady (s : Inner) (i : Input) : Prop :=
  match i.event with
  | .move _ _ => i.letterbox = true → (s.targetBounds i).2.sw ≠ 0
  | .relMove _ _ => 1 ≤ (s.targetBounds i).2.sw ∧ 1 ≤ (s.targetBounds i).2.sh
  | .verticalScroll value => FitsI32 (s.scrollVAccum.toInt + value.toInt)
  | .scroll x y =>
    FitsI32 (s.scrollVAccum.toInt + y.toInt) ∧ FitsI32 (s.scrollHAccum.toInt + x.toInt)
  | .leftPressed => FitsI64 (s.pressCount i.now .left)
  | .rightPressed => FitsI64 (s.pressCount i.now .right)
  | .middlePressed => FitsI64 (s.pressCount i.now .center)
  | _ => True

/-- The pointer after an event, and what is posted of it. -/
structure Lands (s : Inner) (i : Input) (r : Inner × Option Posted) : Prop where
  bounds_eq : r.1.cachedBounds = boundsUsed s i
  position_eq : ∀ p, r.2.bind Posted.position = some p → p = (r.1.lastX, r.1.lastY)
  rests : Rests s → Rests r.1

/-- The bounds that are used are kept. -/
theorem targetBounds_cached (s : Inner) (i : Input) :
    (s.targetBounds i).1.cachedBounds = some (s.targetBounds i).2 := by
  rw [Inner.targetBounds]
  cases hcached : s.cachedBounds with
  | none => rfl
  | some b =>
    dsimp only
    split
    · exact hcached
    · rfl

/-- A move that is posted: the pointer rests where it goes, if that is on the display. -/
theorem lands_postMove {s : Inner} {i : Input} {p : ℚ × ℚ}
    (hused : boundsUsed s i = some (s.targetBounds i).2) (hp : (s.targetBounds i).2.Contains p) :
    Lands s i ((s.targetBounds i).1.postMove i p.1 p.2) := by
  refine ⟨?_, fun q hq => ?_, fun _ b hb => ?_⟩
  · rw [hused]
    exact targetBounds_cached s i
  · rw [Inner.postMove] at hq
    dsimp only at hq
    split at hq
    · exact (Option.some.inj hq).symm
    · cases hq
  · have hcached := (targetBounds_cached s i).symm.trans hb
    rw [← Option.some.inj hcached]
    exact hp

/-- An absolute move lands on the display, or the display has no width. -/
theorem moveTo_cases (s : Inner) (i : Input) (x y : UInt16) (hevent : i.event = .move x y) :
    (¬Steady s i ∧ ∃ f, s.moveTo i x y = .error f) ∨
      Steady s i ∧ ∃ r, s.moveTo i x y = .ok r ∧ Lands s i r := by
  have hused : boundsUsed s i = some (s.targetBounds i).2 := by rw [boundsUsed, hevent]
  have hsteady : Steady s i ↔ (i.letterbox = true → (s.targetBounds i).2.sw ≠ 0) := by
    rw [Steady, hevent]
  by_cases h : i.letterbox = true → (s.targetBounds i).2.sw ≠ 0
  · obtain ⟨fx, fy, hmap, -, hin⟩ := mapClientToDisplay_ok i.desktopW i.desktopH _ h
    refine .inr ⟨hsteady.mpr h, _, ?_, lands_postMove hused (hin x y)⟩
    rw [Inner.moveTo, hmap, ok_bind]
    rfl
  · refine .inl ⟨mt hsteady.mp h, .divideByZero, ?_⟩
    push Not at h
    rw [Inner.moveTo, h.1, h.2, mapClientToDisplay_flat]
    rfl

/-- A display of at least one pixel has a place for everything. -/
theorem exists_clamp {b : Bounds} (hw : 1 ≤ b.sw) (hh : 1 ≤ b.sh) (qx qy : ℚ) :
    ∃ sx sy, clamp qx b.ox (b.ox + b.sw - 1) = .ok sx ∧ clamp qy b.oy (b.oy + b.sh - 1) = .ok sy ∧
      b.Contains (sx, sy) := by
  have hx : b.ox ≤ b.ox + b.sw - 1 := by linarith
  have hy : b.oy ≤ b.oy + b.sh - 1 := by linarith
  obtain ⟨hxlow, hxhigh⟩ := RationalFloat.clamp_mem hx qx
  obtain ⟨hylow, hyhigh⟩ := RationalFloat.clamp_mem hy qy
  have hwide : b.ox + b.sw - 1 ≤ b.ox + max (b.sw - 1) 0 := by
    have hmax := le_max_left (b.sw - 1) 0
    linarith
  have htall : b.oy + b.sh - 1 ≤ b.oy + max (b.sh - 1) 0 := by
    have hmax := le_max_left (b.sh - 1) 0
    linarith
  exact ⟨_, _, clamp_eq hx qx, clamp_eq hy qy, ⟨hxlow, hxhigh.trans hwide⟩, hylow,
    hyhigh.trans htall⟩

/-- A relative move lands on the display, or the display has not a pixel. -/
theorem moveRel_cases (s : Inner) (i : Input) (x y : Int32) (hevent : i.event = .relMove x y) :
    (¬Steady s i ∧ ∃ f, s.moveRel i x y = .error f) ∨
      Steady s i ∧ ∃ r, s.moveRel i x y = .ok r ∧ Lands s i r := by
  have hused : boundsUsed s i = some (s.targetBounds i).2 := by rw [boundsUsed, hevent]
  have hsteady : Steady s i ↔ 1 ≤ (s.targetBounds i).2.sw ∧ 1 ≤ (s.targetBounds i).2.sh := by
    rw [Steady, hevent]
  by_cases hsize : 1 ≤ (s.targetBounds i).2.sw ∧ 1 ≤ (s.targetBounds i).2.sh
  · obtain ⟨sx, sy, hx, hy, hin⟩ :=
      exists_clamp hsize.1 hsize.2 (s.lastX + x.toInt) (s.lastY + y.toInt)
    refine .inr ⟨hsteady.mpr hsize, _, ?_, lands_postMove hused hin⟩
    rw [Inner.moveRel, hx, ok_bind, hy, ok_bind]
    rfl
  · refine .inl ⟨mt hsteady.mp hsize, .clampPanic, ?_⟩
    rw [Inner.moveRel]
    by_cases hw : 1 ≤ (s.targetBounds i).2.sw
    · have hh : ¬1 ≤ (s.targetBounds i).2.sh := fun hh => hsize ⟨hw, hh⟩
      rw [clamp_eq (by linarith), ok_bind, clamp, if_neg (by linarith)]
      rfl
    · rw [clamp, if_neg (by linarith)]
      rfl

/-- The pointer and the bounds of two states are the same. -/
structure SamePointer (s s' : Inner) : Prop where
  bounds_eq : s'.cachedBounds = s.cachedBounds
  x_eq : s'.lastX = s.lastX
  y_eq : s'.lastY = s.lastY

/-- An event that moves nothing leaves the pointer where it is. -/
theorem SamePointer.lands {s s' : Inner} {i : Input} {posted : Option Posted}
    (h : SamePointer s s') (hused : boundsUsed s i = s.cachedBounds)
    (hposted : ∀ p, posted.bind Posted.position = some p → p = (s'.lastX, s'.lastY)) :
    Lands s i (s', posted) := by
  refine ⟨h.bounds_eq.trans hused.symm, hposted, fun hrests b hb => ?_⟩
  change b.Contains (s'.lastX, s'.lastY)
  rw [h.x_eq, h.y_eq]
  exact hrests b (h.bounds_eq.symm.trans hb)

/-- A click that is posted is where the pointer is. -/
theorem SamePointer.lands_postClick {s s' : Inner} {i : Input} (h : SamePointer s s')
    (hused : boundsUsed s i = s.cachedBounds) (button : CGMouseButton) (down : Bool) (count : ℤ) :
    Lands s i (s'.postClick i button down count) := by
  refine h.lands hused fun p hp => ?_
  split at hp
  · exact (Option.some.inj hp).symm
  · cases hp

/-- A press or a release: the pointer stays, or the count of the presses overflows. -/
theorem button_cases (s : Inner) (i : Input) (button : CGMouseButton) (down : Bool)
    (hused : boundsUsed s i = s.cachedBounds)
    (hsteady : Steady s i ↔ (down = true → FitsI64 (s.pressCount i.now button))) :
    (¬Steady s i ∧ ∃ f, s.button i button down = .error f) ∨
      Steady s i ∧ ∃ r, s.button i button down = .ok r ∧ Lands s i r := by
  have hcount : (s.setDown button down).pressCount i.now button = s.pressCount i.now button := by
    cases button <;> rfl
  have hsame : SamePointer s (s.setDown button down) := by cases button <;> exact ⟨rfl, rfl, rfl⟩
  have hclick : ∀ c, SamePointer s ((s.setDown button down).setClickState button c) := by
    intro c
    cases button <;> exact ⟨rfl, rfl, rfl⟩
  rw [Inner.button, hcount]
  by_cases hdown : down = true
  · rw [if_pos hdown]
    by_cases hfits : FitsI64 (s.pressCount i.now button)
    · rw [checkI64, if_pos hfits, ok_bind]
      exact .inr ⟨hsteady.mpr fun _ => hfits, _, rfl,
        (hclick _).lands_postClick hused button down _⟩
    · refine .inl ⟨fun h => hfits (hsteady.mp h hdown), .overflow, ?_⟩
      rw [checkI64, if_neg hfits]
      rfl
  · rw [if_neg hdown]
    exact .inr ⟨hsteady.mpr fun h => absurd h hdown, _, rfl,
      hsame.lands_postClick hused button down _⟩

/-- A wheel: the pointer stays, or a remainder overflows. -/
theorem scroll_cases (s : Inner) (i : Input) (vertical horizontal : ℤ)
    (hused : boundsUsed s i = s.cachedBounds)
    (hsteady : Steady s i ↔ FitsI32 (s.scrollVAccum.toInt + vertical) ∧
      FitsI32 (s.scrollHAccum.toInt + horizontal)) :
    (¬Steady s i ∧ ∃ f, s.scroll i vertical horizontal = .error f) ∨
      Steady s i ∧ ∃ r, s.scroll i vertical horizontal = .ok r ∧ Lands s i r := by
  by_cases hfits : FitsI32 (s.scrollVAccum.toInt + vertical) ∧
      FitsI32 (s.scrollHAccum.toInt + horizontal)
  · obtain ⟨va, ha, -, -, hscroll⟩ := s.scroll_ok i hfits.1 hfits.2
    have hsame : SamePointer s { s with scrollVAccum := va, scrollHAccum := ha } := ⟨rfl, rfl, rfl⟩
    refine .inr ⟨hsteady.mpr hfits, _, hscroll, hsame.lands hused fun p hp => ?_⟩
    split at hp
    · cases hp
    · split at hp <;> cases hp
  · exact .inl ⟨mt hsteady.mp hfits, _, s.scroll_overflow i hfits⟩

/-- An event is handled to its end exactly if the condition is met, and then the pointer rests on
the display that has been used. -/
theorem mouse_cases (s : Inner) (i : Input) :
    (¬Steady s i ∧ ∃ f, s.mouse i = .error f) ∨
      Steady s i ∧ ∃ r, s.mouse i = .ok r ∧ Lands s i r := by
  have hnothing : Lands s i (s, none) → ∃ r, (.ok (s, none) : Except Fault _) = .ok r ∧
      Lands s i r := fun h => ⟨_, rfl, h⟩
  have hsame : SamePointer s s := ⟨rfl, rfl, rfl⟩
  rw [Inner.mouse]
  cases hevent : i.event with
  | move x y => exact moveTo_cases s i x y hevent
  | relMove x y => exact moveRel_cases s i x y hevent
  | leftPressed =>
    exact button_cases s i .left true (by rw [boundsUsed, hevent]) (by simp [Steady, hevent])
  | leftReleased =>
    exact button_cases s i .left false (by rw [boundsUsed, hevent]) (by simp [Steady, hevent])
  | rightPressed =>
    exact button_cases s i .right true (by rw [boundsUsed, hevent]) (by simp [Steady, hevent])
  | rightReleased =>
    exact button_cases s i .right false (by rw [boundsUsed, hevent]) (by simp [Steady, hevent])
  | middlePressed =>
    exact button_cases s i .center true (by rw [boundsUsed, hevent]) (by simp [Steady, hevent])
  | middleReleased =>
    exact button_cases s i .center false (by rw [boundsUsed, hevent]) (by simp [Steady, hevent])
  | verticalScroll value =>
    have hkept : FitsI32 (s.scrollHAccum.toInt + 0) := by
      rw [add_zero]
      exact Inner.fitsI32_toInt _
    exact scroll_cases s i value.toInt 0 (by rw [boundsUsed, hevent])
      (by rw [Steady, hevent]; exact (and_iff_left hkept).symm)
  | scroll x y =>
    exact scroll_cases s i y.toInt x.toInt (by rw [boundsUsed, hevent]) (by rw [Steady, hevent])
  | button4Pressed | button4Released | button5Pressed | button5Released =>
    refine .inr ⟨by simp [Steady, hevent], hnothing (hsame.lands (by rw [boundsUsed, hevent]) ?_)⟩
    simp

/-! ## Runs -/

/-- What one event does is what is promised exactly if the condition is met. -/
theorem proper_iff {s : Inner} {i : Input} (hs : Rests s) : Proper s i ↔ Steady s i := by
  rcases mouse_cases s i with ⟨hnot, f, hfault⟩ | ⟨hsteady, r, hok, hlands⟩
  · refine ⟨fun h => ?_, fun h => absurd h hnot⟩
    obtain ⟨s', posted, hmouse, -⟩ := h
    rw [hfault] at hmouse
    cases hmouse
  · refine ⟨fun _ => hsteady, fun _ => ⟨r.1, r.2, hok, fun p hp b hb => ?_⟩⟩
    rw [hlands.position_eq p hp]
    exact hlands.rests hs b (hlands.bounds_eq.trans hb)

/-- The pointer goes on resting on the display that has been used last. -/
theorem rests_step {s s' : Inner} {i : Input} (hs : Rests s) (h : s.step i = some s') :
    Rests s' := by
  rw [Inner.step] at h
  rcases mouse_cases s i with ⟨-, f, hfault⟩ | ⟨-, r, hok, hlands⟩
  · rw [hfault] at h
    cases h
  · rw [hok] at h
    cases h
    exact hlands.rests hs

/-- In every run, the events are handled to their ends with the pointer on the display exactly if
the displays have the sizes that the events need and nothing is out of range; and the place of an
absolute move grows with each of its coordinates. -/
theorem stays_on_display_iff (now : ℕ) (events : List Input) :
    (Meets Inner.step Proper (Inner.new now) events ↔
      Meets Inner.step Steady (Inner.new now) events) ∧
    ∀ (dw dh : UInt16) (b : Bounds) (letterbox : Bool) (x x' y y' : UInt16) (p p' : ℚ × ℚ),
      mapClientToDisplay x y dw dh b.sw b.sh letterbox = .ok p →
      mapClientToDisplay x' y' dw dh b.sw b.sh letterbox = .ok p' →
      (x ≤ x' → p.1 ≤ p'.1) ∧ (y ≤ y' → p.2 ≤ p'.2) := by
  constructor
  · have hnew : Rests (Inner.new now) := fun b hb => by cases hb
    exact meets_congr Rests (fun s i hs => proper_iff hs)
      (fun s i s' hs _ hstep => rests_step hs hstep) hnew
  · intro dw dh b letterbox x x' y y' p p' hp hp'
    by_cases hsize : letterbox = true → b.sw ≠ 0
    · obtain ⟨fx, fy, hmap, hmono, -⟩ := mapClientToDisplay_ok dw dh b hsize
      rw [hmap] at hp hp'
      cases hp
      cases hp'
      exact ⟨fun h => (hmono x x' h).1, fun h => (hmono y y' h).2⟩
    · push Not at hsize
      rw [hsize.1, hsize.2, mapClientToDisplay_flat] at hp
      cases hp

/-- A display of two hundred pixels each way. -/
def square : Bounds := ⟨0, 0, 200, 200, by norm_num, by norm_num⟩

/-- A move onto a display that fills the frame, and two places on it. -/
theorem stays_on_display_iff_square :
    Meets Inner.step Proper (Inner.new 0) [⟨.move 10 30, 100, 100, false, 0, square, true⟩] ∧
      (20 : ℚ) ≤ 40 ∧ (60 : ℚ) ≤ 80 := by
  have hsteady : Meets Inner.step Steady (Inner.new 0)
      [⟨.move 10 30, 100, 100, false, 0, square, true⟩] :=
    ⟨fun h => absurd h Bool.false_ne_true, fun _ _ => trivial⟩
  have hmono := (stays_on_display_iff 0 []).2 100 100 square false 10 20 30 40 (20, 60) (40, 80)
    (by decide +kernel) (by decide +kernel)
  exact ⟨(stays_on_display_iff 0 _).1.mpr hsteady, hmono.1 (by decide), hmono.2 (by decide)⟩

/-- The bounds of a display that is gone. -/
def gone : Bounds := ⟨0, 0, 0, 0, le_rfl, le_rfl⟩

/-- A relative move panics once the display is gone. -/
theorem not_proper_gone : ¬ ∀ (now : ℕ) (events : List Input),
    Meets Inner.step Proper (Inner.new now) events := by
  intro hall
  obtain ⟨⟨s', posted, hmouse, -⟩, -⟩ := hall 0 [⟨.relMove 1 0, 100, 100, false, 0, gone, true⟩]
  have hfault : (Inner.new 0).mouse ⟨.relMove 1 0, 100, 100, false, 0, gone, true⟩ =
      .error .clampPanic := by decide +kernel
  rw [hfault] at hmouse
  cases hmouse

end Macrdp.PointerMotion
