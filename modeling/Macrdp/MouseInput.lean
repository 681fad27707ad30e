import Macrdp.RationalFloat

/-!
# Mouse events

What the handler of a session does with the mouse events of its client. A move is mapped onto the
target display, whose bounds are asked for anew when they have not been for a while; a relative
move goes from where the pointer is; a wheel turns into whole lines, and what is left over is kept
for the next event. Floating point is read as exact rationals.
-/

namespace Macrdp.MouseInput

/-! ## Arithmetic that may fail -/

/-- Why an event is not handled to its end. -/
inductive Fault where
  /-- Limits of which the lower is above the upper, which panics. -/
  | clampPanic
  | divideByZero
  /-- A sum out of range, which panics where overflow is checked and else wraps around. -/
  | overflow
  deriving DecidableEq, Repr

@[simp] theorem ok_bind {α β : Type} (a : α) (f : α → Except Fault β) : (.ok a >>= f) = f a := rfl

/-- A computation that ends has an intermediate result. -/
theorem bind_ok {α β : Type} {x : Except Fault α} {f : α → Except Fault β} {b : β}
    (h : (x >>= f) = .ok b) : ∃ a, x = .ok a ∧ f a = .ok b := by
  cases x with
  | error e => cases h
  | ok a => exact ⟨a, rfl, h⟩

/-- A value kept between two limits, which must be in order. -/
def clamp (q low high : ℚ) : Except Fault ℚ :=
  if low ≤ high then .ok (RationalFloat.clamp q low high) else .error .clampPanic

theorem clamp_eq {low high : ℚ} (h : low ≤ high) (q : ℚ) :
    clamp q low high = .ok (RationalFloat.clamp q low high) := if_pos h

/-- A quotient, whose divisor must not be zero. -/
def divide (a b : ℚ) : Except Fault ℚ := if b = 0 then .error .divideByZero else .ok (a / b)

theorem divide_eq {b : ℚ} (h : b ≠ 0) (a : ℚ) : divide a b = .ok (a / b) := if_neg h

/-- A number fits into 32 bits with a sign. -/
def FitsI32 (n : ℤ) : Prop := -2 ^ 31 ≤ n ∧ n < 2 ^ 31

instance (n : ℤ) : Decidable (FitsI32 n) := inferInstanceAs (Decidable (_ ∧ _))

/-- A 32-bit result, which must not overflow. -/
def checkI32 (n : ℤ) : Except Fault Int32 :=
  if FitsI32 n then .ok (Int32.ofInt n) else .error .overflow

/-- A number fits into 64 bits with a sign. -/
def FitsI64 (n : ℤ) : Prop := -2 ^ 63 ≤ n ∧ n < 2 ^ 63

instance (n : ℤ) : Decidable (FitsI64 n) := inferInstanceAs (Decidable (_ ∧ _))

/-- A 64-bit result, which must not overflow. -/
def checkI64 (n : ℤ) : Except Fault ℤ := if FitsI64 n then .ok n else .error .overflow

/-! ## Events -/

/-- An event of the mouse, as the server hands it over. -/
inductive MouseEvent where
  | move (x y : UInt16)
  | rightPressed
  | rightReleased
  | leftPressed
  | leftReleased
  | middlePressed
  | middleReleased
  | button4Pressed
  | button4Released
  | button5Pressed
  | button5Released
  | verticalScroll (value : Int16)
  | scroll (x y : Int32)
  | relMove (x y : Int32)
  deriving DecidableEq, Repr

/-- A message of the advanced input channel. -/
structure MousePdu where
  button1 : Bool
  button2 : Bool
  button3 : Bool
  down : Bool
  wheel : Bool
  rel : Bool
  move : Bool
  x : Int32
  y : Int32
  deriving DecidableEq, Repr

/-- A coordinate as 16 bits, or zero if it does not fit. -/
def toU16 (n : Int32) : UInt16 :=
  if 0 ≤ n.toInt ∧ n.toInt < 2 ^ 16 then UInt16.ofNat n.toInt.toNat else 0

/-- The event of a message. -/
def MouseEvent.ofMousePdu (value : MousePdu) : MouseEvent :=
  if value.button1 = true then if value.down = true then .leftPressed else .leftReleased
  else if value.button2 = true then if value.down = true then .rightPressed else .rightReleased
  else if value.button3 = true then if value.down = true then .middlePressed else .middleReleased
  else if value.wheel = true then .scroll value.x value.y
  else if value.rel = true then .relMove value.x value.y
  else if value.move = true then .move (toU16 value.x) (toU16 value.y)
  else .move 0 0

/-- The button of an event that is posted. -/
inductive CGMouseButton where
  | left | right | center
  deriving DecidableEq, Repr

/-- The type of an event that is posted. -/
inductive CGEventType where
  | mouseMoved
  | leftMouseDown | leftMouseUp | leftMouseDragged
  | rightMouseDown | rightMouseUp | rightMouseDragged
  | otherMouseDown | otherMouseUp | otherMouseDragged
  deriving DecidableEq, Repr

/-- What is posted to the system. -/
inductive Posted where
  | mouse (etype : CGEventType) (x y : ℚ) (button : CGMouseButton)
  | click (etype : CGEventType) (x y : ℚ) (button : CGMouseButton) (count : ℤ)
  | scroll (v h : ℤ)
  deriving DecidableEq, Repr

/-- Where the pointer is in what is posted. -/
def Posted.position : Posted → Option (ℚ × ℚ)
  | .mouse _ x y _ => some (x, y)
  | .click _ x y _ _ => some (x, y)
  | .scroll _ _ => none

/-! ## The target display -/

/-- The place of a display. -/
structure Bounds where
  ox : ℚ
  oy : ℚ
  sw : ℚ
  sh : ℚ
  sw_nonneg : 0 ≤ sw
  sh_nonneg : 0 ≤ sh
  deriving DecidableEq, Repr

/-- A point is on the display, of which a border of one pixel on the far sides is left out. -/
def Bounds.Contains (b : Bounds) (p : ℚ × ℚ) : Prop :=
  (b.ox ≤ p.1 ∧ p.1 ≤ b.ox + max (b.sw - 1) 0) ∧ b.oy ≤ p.2 ∧ p.2 ≤ b.oy + max (b.sh - 1) 0

instance (b : Bounds) (p : ℚ × ℚ) : Decidable (b.Contains p) :=
  inferInstanceAs (Decidable ((_ ∧ _) ∧ _ ∧ _))

/-- The part of the client's frame that shows the display. -/
def contentSize (dwf dhf macAspect outAspect : ℚ) : Except Fault (ℚ × ℚ) :=
  if outAspect > macAspect then .ok (dhf * macAspect, dhf)
  else do
    let ch ← divide dwf macAspect
    return (dwf, ch)

/-- A client coordinate on a display that is shown with bars. -/
def letterboxed (x y : UInt16) (dwf dhf sw sh : ℚ) : Except Fault (ℚ × ℚ) := do
  let macAspect ← divide sw (max sh 1)
  let outAspect ← divide dwf dhf
  let content ← contentSize dwf dhf macAspect outAspect
  let offX := (dwf - content.1) / 2
  let offY := (dhf - content.2) / 2
  let qx ← divide (x.toNat - offX) content.1
  let fx ← clamp qx 0 1
  let qy ← divide (y.toNat - offY) content.2
  let fy ← clamp qy 0 1
  return (fx * sw, fy * sh)

/-- A client coordinate on a display that fills the client's frame. -/
def stretched (x y : UInt16) (dwf dhf sw sh : ℚ) : Except Fault (ℚ × ℚ) := do
  let mx ← divide (x.toNat * sw) dwf
  let my ← divide (y.toNat * sh) dhf
  return (mx, my)

/-- A client coordinate on the display, perhaps past its last pixel. -/
def scaled (x y : UInt16) (dwf dhf sw sh : ℚ) (letterbox : Bool) : Except Fault (ℚ × ℚ) :=
  if letterbox = true then letterboxed x y dwf dhf sw sh else stretched x y dwf dhf sw sh

/-- A client coordinate as an offset on the display. -/
def mapClientToDisplay (x y dw dh : UInt16) (sw sh : ℚ) (letterbox : Bool) :
    Except Fault (ℚ × ℚ) := do
  let dwf : ℚ := (max dw 1).toNat
  let dhf : ℚ := (max dh 1).toNat
  let m ← scaled x y dwf dhf sw sh letterbox
  let mx ← clamp m.1 0 (max (sw - 1) 0)
  let my ← clamp m.2 0 (max (sh - 1) 0)
  return (mx, my)

/-! ## The handler -/

/-- The last press of a button. -/
structure ClickState where
  time : ℕ
  x : ℚ
  y : ℚ
  count : ℤ
  deriving DecidableEq, Repr

/-- What the handler keeps of the mouse. -/
structure Inner where
  lastX : ℚ
  lastY : ℚ
  leftDown : Bool
  rightDown : Bool
  middleDown : Bool
  cachedBounds : Option Bounds
  boundsCachedAt : ℕ
  clickLeft : Option ClickState
  clickRight : Option ClickState
  clickMiddle : Option ClickState
  scrollVAccum : Int32
  scrollHAccum : Int32
  deriving DecidableEq, Repr

/-- A handler that is new at some time. -/
def Inner.new (now : ℕ) : Inner :=
  ⟨0, 0, false, false, false, none, now, none, none, none, 0, 0⟩

/-- An event, and what the handler finds when it gets it. -/
structure Input where
  event : MouseEvent
  desktopW : UInt16
  desktopH : UInt16
  letterbox : Bool
  /-- The time in milliseconds. -/
  now : ℕ
  /-- The bounds of the target display, if they are asked for. -/
  bounds : Bounds
  /-- The system makes the event that is to be posted. -/
  created : Bool
  deriving DecidableEq, Repr

/-- How long bounds are used without asking anew, in milliseconds. -/
def boundsCacheTtl : ℕ := 250

/-- How far apart two presses of a double click are at most, in milliseconds. -/
def doubleClickInterval : ℕ := 500

/-- How far apart two presses of a double click are at most, in pixels. -/
def doubleClickSlopPx : ℚ := 5

/-- How much of a wheel makes a line. -/
def scale : ℤ := 60

namespace Inner

/-- The bounds of the target display, asked for anew if they are old. -/
def targetBounds (s : Inner) (i : Input) : Inner × Bounds :=
  match s.cachedBounds with
  | some b =>
    if i.now - s.boundsCachedAt < boundsCacheTtl then (s, b)
    else ({ s with cachedBounds := some i.bounds, boundsCachedAt := i.now }, i.bounds)
  | none => ({ s with cachedBounds := some i.bounds, boundsCachedAt := i.now }, i.bounds)

/-- The pointer is moved, and the move is posted. -/
def postMove (s : Inner) (i : Input) (sx sy : ℚ) : Inner × Option Posted :=
  let etype := if s.leftDown = true then CGEventType.leftMouseDragged
    else if s.rightDown = true then .rightMouseDragged
    else if s.middleDown = true then .otherMouseDragged
    else .mouseMoved
  let button := if s.middleDown = true then CGMouseButton.center
    else if s.rightDown = true then .right
    else .left
  ({ s with lastX := sx, lastY := sy },
    if i.created = true then some (.mouse etype sx sy button) else none)

/-- The pointer goes to where the client has it. -/
def moveTo (s : Inner) (i : Input) (x y : UInt16) : Except Fault (Inner × Option Posted) := do
  let used := s.targetBounds i
  let b := used.2
  let m ← mapClientToDisplay x y i.desktopW i.desktopH b.sw b.sh i.letterbox
  return used.1.postMove i (b.ox + m.1) (b.oy + m.2)

/-- The pointer goes some way from where it is. -/
def moveRel (s : Inner) (i : Input) (dx dy : Int32) : Except Fault (Inner × Option Posted) := do
  let used := s.targetBounds i
  let b := used.2
  let sx ← clamp (s.lastX + dx.toInt) b.ox (b.ox + b.sw - 1)
  let sy ← clamp (s.lastY + dy.toInt) b.oy (b.oy + b.sh - 1)
  return used.1.postMove i sx sy

/-- The type of a press or a release. -/
def buttonType : CGMouseButton → Bool → CGEventType
  | .left, true => .leftMouseDown
  | .left, false => .leftMouseUp
  | .right, true => .rightMouseDown
  | .right, false => .rightMouseUp
  | .center, true => .otherMouseDown
  | .center, false => .otherMouseUp

/-- A button is down or up. -/
def setDown (s : Inner) (button : CGMouseButton) (down : Bool) : Inner :=
  match button with
  | .left => { s with leftDown := down }
  | .right => { s with rightDown := down }
  | .center => { s with middleDown := down }

/-- The last press of a button. -/
def clickState (s : Inner) : CGMouseButton → Option ClickState
  | .left => s.clickLeft
  | .right => s.clickRight
  | .center => s.clickMiddle

/-- A press of a button is kept. -/
def setClickState (s : Inner) (button : CGMouseButton) (click : ClickState) : Inner :=
  match button with
  | .left => { s with clickLeft := some click }
  | .right => { s with clickRight := some click }
  | .center => { s with clickMiddle := some click }

/-- How many presses follow one another with this one. -/
def pressCount (s : Inner) (now : ℕ) (button : CGMouseButton) : ℤ :=
  match s.clickState button with
  | some prev =>
    if now - prev.time ≤ doubleClickInterval ∧ |s.lastX - prev.x| ≤ doubleClickSlopPx ∧
        |s.lastY - prev.y| ≤ doubleClickSlopPx then prev.count + 1
    else 1
  | none => 1

/-- A press or a release is posted where the pointer is. -/
def postClick (s : Inner) (i : Input) (button : CGMouseButton) (down : Bool) (count : ℤ) :
    Inner × Option Posted :=
  (s, if i.created = true then
    some (.click (buttonType button down) s.lastX s.lastY button count) else none)

/-- A button is pressed or released. -/
def button (s : Inner) (i : Input) (button : CGMouseButton) (down : Bool) :
    Except Fault (Inner × Option Posted) :=
  let s := s.setDown button down
  if down = true then do
    let count ← checkI64 (s.pressCount i.now button)
    return (s.setClickState button ⟨i.now, s.lastX, s.lastY, count⟩).postClick i button down count
  else .ok (s.postClick i button down (((s.clickState button).map ClickState.count).getD 1))

/-- The whole lines of a wheel, five at most. -/
def lines (accum : ℤ) : ℤ := max (-5) (min 5 (accum.tdiv scale))

/-- The wheel is turned, and whole lines are posted. -/
def scroll (s : Inner) (i : Input) (vertical horizontal : ℤ) :
    Except Fault (Inner × Option Posted) := do
  let va ← checkI32 (s.scrollVAccum.toInt + vertical)
  let ha ← checkI32 (s.scrollHAccum.toInt + horizontal)
  let v := lines va.toInt
  let h := lines ha.toInt
  let va ← checkI32 (va.toInt - v * scale)
  let ha ← checkI32 (ha.toInt - h * scale)
  return ({ s with scrollVAccum := va, scrollHAccum := ha },
    if v = 0 ∧ h = 0 then none else if i.created = true then some (.scroll v h) else none)

/-- An event of the mouse is handled. -/
def mouse (s : Inner) (i : Input) : Except Fault (Inner × Option Posted) :=
  match i.event with
  | .move x y => s.moveTo i x y
  | .leftPressed => s.button i .left true
  | .leftReleased => s.button i .left false
  | .rightPressed => s.button i .right true
  | .rightReleased => s.button i .right false
  | .middlePressed => s.button i .center true
  | .middleReleased => s.button i .center false
  | .verticalScroll value => s.scroll i value.toInt 0
  | .scroll x y => s.scroll i y.toInt x.toInt
  | .button4Pressed | .button4Released | .button5Pressed | .button5Released => .ok (s, none)
  | .relMove x y => s.moveRel i x y

/-- The handler after an event; `none` if the event is not handled to its end. -/
def step (s : Inner) (i : Input) : Option Inner :=
  match s.mouse i with
  | .ok r => some r.1
  | .error _ => none

/-! ## What a wheel does -/

/-- A result that fits is the number that it is. -/
theorem checkI32_eq {n : ℤ} (h : FitsI32 n) : ∃ m, checkI32 n = .ok m ∧ m.toInt = n :=
  ⟨_, if_pos h, Int32.toInt_ofInt_of_le h.1 h.2⟩

/-- A number of 32 bits with a sign. -/
theorem fitsI32_toInt (n : Int32) : FitsI32 n.toInt := ⟨n.le_toInt, n.toInt_lt⟩

/-- There are five lines at most, in either direction. -/
theorem lines_bounds (accum : ℤ) : -5 ≤ lines accum ∧ lines accum ≤ 5 := by
  rw [lines]
  omega

/-- There are lines exactly if there is enough for one. -/
theorem lines_eq_zero_iff (accum : ℤ) : lines accum = 0 ↔ |accum| < 60 := by
  rw [lines, scale, abs_lt]
  rcases le_or_gt 0 accum with h | h
  · rw [Int.tdiv_eq_ediv_of_nonneg h]
    omega
  · have hneg : accum.tdiv 60 = -((-accum) / 60) := by
      rw [← Int.tdiv_eq_ediv_of_nonneg (by omega), Int.neg_tdiv, neg_neg]
    rw [hneg]
    omega

/-- What is left after the lines is between nothing and what there was. -/
theorem fitsI32_sub_lines {accum : ℤ} (h : FitsI32 accum) :
    FitsI32 (accum - lines accum * scale) := by
  obtain ⟨hlow, hhigh⟩ := h
  rw [FitsI32, lines, scale]
  rcases le_or_gt 0 accum with h | h
  · rw [Int.tdiv_eq_ediv_of_nonneg h]
    omega
  · have hneg : accum.tdiv 60 = -((-accum) / 60) := by
      rw [← Int.tdiv_eq_ediv_of_nonneg (by omega), Int.neg_tdiv, neg_neg]
    rw [hneg]
    omega

/-- The wheel, when its remainders stay in range. -/
theorem scroll_ok (s : Inner) (i : Input) {vertical horizontal : ℤ}
    (hv : FitsI32 (s.scrollVAccum.toInt + vertical))
    (hh : FitsI32 (s.scrollHAccum.toInt + horizontal)) :
    ∃ va ha, va.toInt = s.scrollVAccum.toInt + vertical -
        lines (s.scrollVAccum.toInt + vertical) * scale ∧
      ha.toInt = s.scrollHAccum.toInt + horizontal -
        lines (s.scrollHAccum.toInt + horizontal) * scale ∧
      s.scroll i vertical horizontal = .ok ({ s with scrollVAccum := va, scrollHAccum := ha },
        if lines (s.scrollVAccum.toInt + vertical) = 0 ∧
          lines (s.scrollHAccum.toInt + horizontal) = 0 then none
        else if i.created = true then
          some (.scroll (lines (s.scrollVAccum.toInt + vertical))
            (lines (s.scrollHAccum.toInt + horizontal))) else none) := by
  obtain ⟨v, hv', hvInt⟩ := checkI32_eq hv
  obtain ⟨h, hh', hhInt⟩ := checkI32_eq hh
  obtain ⟨va, hva, hvaInt⟩ := checkI32_eq (fitsI32_sub_lines hv)
  obtain ⟨ha, hha, hhaInt⟩ := checkI32_eq (fitsI32_sub_lines hh)
  refine ⟨va, ha, hvaInt, hhaInt, ?_⟩
  rw [scroll, hv', ok_bind, hh', ok_bind, hvInt, hhInt]
  dsimp only
  rw [hva, ok_bind, hha, ok_bind]
  rfl

/-- The wheel, when a remainder leaves the range. -/
theorem scroll_overflow (s : Inner) (i : Input) {vertical horizontal : ℤ}
    (h : ¬(FitsI32 (s.scrollVAccum.toInt + vertical) ∧
      FitsI32 (s.scrollHAccum.toInt + horizontal))) :
    s.scroll i vertical horizontal = .error .overflow := by
  rw [scroll]
  by_cases hv : FitsI32 (s.scrollVAccum.toInt + vertical)
  · have hh : ¬FitsI32 (s.scrollHAccum.toInt + horizontal) := fun hh => h ⟨hv, hh⟩
    rw [checkI32, if_pos hv, ok_bind, checkI32, if_neg hh]
    rfl
  · rw [checkI32, if_neg hv]
    rfl

end Inner

end Macrdp.MouseInput
