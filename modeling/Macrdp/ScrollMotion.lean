import Macrdp.MouseInput
import Macrdp.StepSystem

/-!
# No motion of a wheel is lost

What a wheel has turned is what has been posted in lines and what the handler has kept of it. That
holds as long as what is kept stays in range, and as long as the system makes the events that carry
the lines.
-/

namespace Macrdp.ScrollMotion

open MouseInput StepSystem

/-- The two ways that a wheel turns. -/
inductive Axis where
  | vertical | horizontal
  deriving DecidableEq, Repr

/-- How far an event turns the wheel. -/
def delta : MouseEvent → Axis → ℤ
  | .verticalScroll value, .vertical => value.toInt
  | .scroll _ y, .vertical => y.toInt
  | .scroll x _, .horizontal => x.toInt
  | _, _ => 0

/-- The event is one of a wheel. -/
def IsWheel : MouseEvent → Prop
  | .verticalScroll _ | .scroll _ _ => True
  | _ => False

/-- What the handler keeps of the turns. -/
def accum (s : Inner) : Axis → ℤ
  | .vertical => s.scrollVAccum.toInt
  | .horizontal => s.scrollHAccum.toInt

/-- The lines that are posted. -/
def emitted : Option Posted → Axis → ℤ
  | some (.scroll v _), .vertical => v
  | some (.scroll _ h), .horizontal => h
  | _, _ => 0

/-- The handler, with the sums of what it has received and of what it has posted. -/
structure Ledger where
  handler : Inner
  /-- All turns of the wheel that were handed over. -/
  received : Axis → ℤ
  /-- All lines that were posted. -/
  sent : Axis → ℤ

namespace Ledger

/-- A new handler has received and posted nothing. -/
def new (now : ℕ) : Ledger := ⟨Inner.new now, fun _ => 0, fun _ => 0⟩

/-- An event is handled, and the sums are kept; `none` if it is not handled to its end. -/
def step (l : Ledger) (i : Input) : Option Ledger :=
  match l.handler.mouse i with
  | .ok r =>
    some ⟨r.1, fun a => l.received a + delta i.event a, fun a => l.sent a + emitted r.2 a⟩
  | .error _ => none

/-- What was received has been posted or is kept. -/
def Balanced (l : Ledger) : Prop := ∀ a, 60 * l.sent a + accum l.handler a = l.received a

/-- A turn of the wheel is handled to its end with five lines at most, and no motion is lost. -/
def Proper (l : Ledger) (i : Input) : Prop :=
  (IsWheel i.event → ∃ r, l.handler.mouse i = .ok r ∧
    ∀ a, -5 ≤ emitted r.2 a ∧ emitted r.2 a ≤ 5) ∧
  ∀ l', l.step i = some l' → l'.Balanced

/-- What is kept stays in range, and if it makes a line, then the event with the lines is made. -/
def Kept (l : Ledger) (i : Input) : Prop :=
  IsWheel i.event →
    (∀ a, FitsI32 (accum l.handler a + delta i.event a)) ∧
      ((∀ a, |accum l.handler a + delta i.event a| < 60) ∨ i.created = true)

end Ledger

/-! ## One event -/

variable {i : Input}

/-- A turn of the wheel is one of the two axes. -/
theorem mouse_wheel (s : Inner) (h : IsWheel i.event) :
    s.mouse i = s.scroll i (delta i.event .vertical) (delta i.event .horizontal) := by
  rw [Inner.mouse]
  cases hevent : i.event with
  | verticalScroll value | scroll x y => rfl
  | _ => exact absurd h (by rw [hevent]; exact id)

/-- A turn that is handled: the lines that are posted, and what is kept of the turn. -/
theorem scroll_spec (s : Inner) {turn : Axis → ℤ} (hfits : ∀ a, FitsI32 (accum s a + turn a)) :
    ∃ r, s.scroll i (turn .vertical) (turn .horizontal) = .ok r ∧
      (∀ a, accum r.1 a = accum s a + turn a - Inner.lines (accum s a + turn a) * 60) ∧
      ∀ a, emitted r.2 a = if i.created = true then Inner.lines (accum s a + turn a) else 0 := by
  obtain ⟨va, ha, hv, hh, hscroll⟩ := s.scroll_ok i (hfits .vertical) (hfits .horizontal)
  refine ⟨_, hscroll, fun a => ?_, fun a => ?_⟩
  · cases a with
    | vertical => exact hv
    | horizontal => exact hh
  · dsimp only
    by_cases hnone : Inner.lines (s.scrollVAccum.toInt + turn .vertical) = 0 ∧
        Inner.lines (s.scrollHAccum.toInt + turn .horizontal) = 0
    · rw [if_pos hnone]
      have hzero : Inner.lines (accum s a + turn a) = 0 := by
        cases a with
        | vertical => exact hnone.1
        | horizontal => exact hnone.2
      rw [hzero, ite_self]
      cases a <;> rfl
    · rw [if_neg hnone]
      by_cases hcreated : i.created = true
      · rw [if_pos hcreated, if_pos hcreated]
        cases a <;> rfl
      · rw [if_neg hcreated, if_neg hcreated]
        cases a <;> rfl

/-- Nothing of the wheel is changed or posted. -/
def Quiet (s : Inner) (r : Inner × Option Posted) : Prop :=
  ∀ a, accum r.1 a = accum s a ∧ emitted r.2 a = 0

/-- A move of the pointer leaves the wheel alone. -/
theorem quiet_postMove (s : Inner) (i : Input) (sx sy : ℚ) :
    Quiet s ((s.targetBounds i).1.postMove i sx sy) := by
  have hbounds : ∀ a, accum (s.targetBounds i).1 a = accum s a := by
    intro a
    rw [Inner.targetBounds]
    cases s.cachedBounds with
    | none => cases a <;> rfl
    | some b =>
      dsimp only
      split <;> cases a <;> rfl
  intro a
  rw [Inner.postMove, ← hbounds a]
  constructor
  · cases a <;> rfl
  · dsimp only
    split <;> cases a <;> rfl

/-- A press or a release leaves the wheel alone. -/
theorem quiet_postClick {s s' : Inner} (h : ∀ a, accum s' a = accum s a) (i : Input)
    (button : CGMouseButton) (down : Bool) (count : ℤ) :
    Quiet s (s'.postClick i button down count) := by
  intro a
  rw [Inner.postClick]
  refine ⟨h a, ?_⟩
  dsimp only
  split <;> cases a <;> rfl

theorem quiet_button {s : Inner} {button : CGMouseButton} {down : Bool}
    {r : Inner × Option Posted} (hok : s.button i button down = .ok r) : Quiet s r := by
  have hdown : ∀ a, accum (s.setDown button down) a = accum s a := by
    intro a
    cases button <;> cases a <;> rfl
  have hclick : ∀ c a, accum ((s.setDown button down).setClickState button c) a = accum s a := by
    intro c a
    cases button <;> cases a <;> rfl
  rw [Inner.button] at hok
  split at hok
  · obtain ⟨count, -, hr⟩ := bind_ok hok
    cases hr
    exact quiet_postClick (hclick _) i button down count
  · cases hok
    exact quiet_postClick hdown i button down _

/-- Another event leaves the wheel alone. -/
theorem quiet_mouse {s : Inner} (h : ¬IsWheel i.event) {r : Inner × Option Posted}
    (hok : s.mouse i = .ok r) : Quiet s r := by
  have hnothing : Quiet s (s, none) := by
    intro a
    cases a <;> exact ⟨rfl, rfl⟩
  rw [Inner.mouse] at hok
  cases hevent : i.event with
  | move x y =>
    rw [hevent] at hok
    obtain ⟨m, -, hr⟩ := bind_ok hok
    cases hr
    exact quiet_postMove s i _ _
  | relMove x y =>
    rw [hevent] at hok
    obtain ⟨sx, -, hx⟩ := bind_ok hok
    obtain ⟨sy, -, hr⟩ := bind_ok hx
    cases hr
    exact quiet_postMove s i sx sy
  | verticalScroll value | scroll x y => exact absurd (by rw [hevent]; trivial) h
  | leftPressed | leftReleased | rightPressed | rightReleased | middlePressed | middleReleased =>
    rw [hevent] at hok
    exact quiet_button hok
  | button4Pressed | button4Released | button5Pressed | button5Released =>
    rw [hevent] at hok
    cases hok
    exact hnothing

/-- No other event turns the wheel. -/
theorem delta_other {e : MouseEvent} (h : ¬IsWheel e) (a : Axis) : delta e a = 0 := by
  cases e with
  | verticalScroll value | scroll x y => exact absurd trivial h
  | _ => cases a <;> rfl

/-! ## Runs -/

namespace Ledger

variable {l : Ledger} {i : Input}

/-- An event that is handled to its end is counted. -/
theorem step_ok {r : Inner × Option Posted} (h : l.handler.mouse i = .ok r) : l.step i = some
      ⟨r.1, fun a => l.received a + delta i.event a, fun a => l.sent a + emitted r.2 a⟩ := by
  rw [step, h]

/-- A turn is handled properly exactly if what is kept stays in range and no line is lost. -/
theorem proper_iff_of_wheel (hl : l.Balanced) (hwheel : IsWheel i.event) :
    l.Proper i ↔ l.Kept i := by
  have hmouse := mouse_wheel l.handler hwheel
  by_cases hfits : ∀ a, FitsI32 (accum l.handler a + delta i.event a)
  · obtain ⟨r, hr, haccum, hemitted⟩ := scroll_spec l.handler hfits
    have hok : l.handler.mouse i = .ok r := hmouse.trans hr
    have hfive : ∀ a, -5 ≤ emitted r.2 a ∧ emitted r.2 a ≤ 5 := by
      intro a
      rw [hemitted a]
      have hlines := Inner.lines_bounds (accum l.handler a + delta i.event a)
      split <;> omega
    have hstep := step_ok hok
    -- The balance is kept exactly on the axes whose lines are all posted.
    have hbalance : ∀ a, 60 * (l.sent a + emitted r.2 a) + accum r.1 a =
          l.received a + delta i.event a ↔
        |accum l.handler a + delta i.event a| < 60 ∨ i.created = true := by
      intro a
      have hbefore := hl a
      rw [haccum a, hemitted a, ← Inner.lines_eq_zero_iff]
      by_cases hcreated : i.created = true
      · rw [if_pos hcreated]
        exact ⟨fun _ => .inr hcreated, fun _ => by omega⟩
      · rw [if_neg hcreated, or_iff_left hcreated]
        omega
    constructor
    · intro hproper _
      refine ⟨hfits, ?_⟩
      have hafter := hproper.2 _ hstep
      by_cases hcreated : i.created = true
      · exact .inr hcreated
      · exact .inl fun a => ((hbalance a).mp (hafter a)).resolve_right hcreated
    · intro hkept
      refine ⟨fun _ => ⟨r, hok, hfive⟩, fun l' hl' a => ?_⟩
      rw [hstep, Option.some.injEq] at hl'
      rw [← hl']
      refine (hbalance a).mpr ?_
      rcases (hkept hwheel).2 with hsmall | hcreated
      · exact .inl (hsmall a)
      · exact .inr hcreated
  · have hover : l.handler.mouse i = .error .overflow := by
      refine hmouse.trans (l.handler.scroll_overflow i fun h => hfits fun a => ?_)
      cases a with
      | vertical => exact h.1
      | horizontal => exact h.2
    constructor
    · rintro ⟨hhandled, -⟩
      obtain ⟨r, hr, -⟩ := hhandled hwheel
      rw [hover] at hr
      cases hr
    · intro hkept
      exact absurd (hkept hwheel).1 hfits

/-- Another event keeps the balance. -/
theorem balanced_step_of_other {l' : Ledger} (hl : l.Balanced)
    (hother : ¬IsWheel i.event) (h : l.step i = some l') : l'.Balanced := by
  rw [step] at h
  split at h
  · next r hok =>
    cases h
    intro a
    have hbefore := hl a
    obtain ⟨haccum, hemitted⟩ := quiet_mouse hother hok a
    dsimp only
    rw [haccum, hemitted, delta_other hother a]
    omega
  · cases h

/-- What one event does is what is promised exactly if the condition is met. -/
theorem proper_iff (hl : l.Balanced) : l.Proper i ↔ l.Kept i := by
  by_cases hwheel : IsWheel i.event
  · exact proper_iff_of_wheel hl hwheel
  · exact ⟨fun _ h => absurd h hwheel,
      fun _ => ⟨fun h => absurd h hwheel, fun l' => balanced_step_of_other hl hwheel⟩⟩

/-- In every run, all turns of the wheel are handled to their ends with five lines at most and no
motion is lost, exactly if what is kept stays in range and the system makes the events that carry
lines. -/
theorem conserved_iff (now : ℕ) (events : List Input) :
    Meets step Proper (new now) events ↔ Meets step Kept (new now) events := by
  have hnew : (new now).Balanced := by
    intro a
    cases a <;> rfl
  refine meets_congr Balanced (fun l i hl => proper_iff hl) ?_ hnew
  intro l i l' hl hkept hstep
  exact ((proper_iff hl).mpr hkept).2 l' hstep

/-- A message of the advanced input channel that turns the wheel as far as it can. -/
def spin : Input :=
  ⟨.ofMousePdu ⟨false, false, false, false, true, false, false, 0, Int32.maxValue⟩, 1920, 1080,
    false, 0, ⟨0, 0, 1920, 1080, by norm_num, by norm_num⟩, true⟩

/-- The second such message overflows. -/
theorem not_conserved_spin : ¬ ∀ (now : ℕ) (events : List Input),
    (∀ i ∈ events, IsWheel i.event ∧ i.created = true) →
      Meets step Proper (new now) events := by
  intro hall
  have hfirst : (Inner.new 0).mouse spin =
      .ok ({ Inner.new 0 with scrollVAccum := 2147483347 }, some (.scroll 5 0)) := by
    decide +kernel
  have hsecond : ({ Inner.new 0 with scrollVAccum := 2147483347 } : Inner).mouse spin =
      .error .overflow := by decide +kernel
  have hwheels : ∀ i ∈ [spin, spin], IsWheel i.event ∧ i.created = true := by
    intro i hi
    have hspin : i = spin := by simpa using hi
    rw [hspin]
    exact ⟨trivial, rfl⟩
  have hstep := step_ok (l := new 0) hfirst
  obtain ⟨hhandled, -⟩ := ((hall 0 [spin, spin] hwheels).2 _ hstep).1
  obtain ⟨r, hr, -⟩ := hhandled trivial
  rw [hsecond] at hr
  cases hr

end Ledger

end Macrdp.ScrollMotion
