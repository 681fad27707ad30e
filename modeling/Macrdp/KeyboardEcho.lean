import Macrdp.EventRates
import Macrdp.StepSystem

/-!
# Keyframes that echo the keyboard

When keys were posted, the capture loop forces a keyframe a little later, so that the client shows
the last characters typed. A burst of keys gets one keyframe, and there are limits to how often one
is sent. What is expected is that each key is followed by a keyframe after the debounce time, and
that the limits are kept.
-/

namespace Macrdp.KeyboardEcho

open EventRates StepSystem

/-! ## The loop -/

/-- One second, in nanoseconds as all times here. -/
def second : ℕ := 1000000000

/-- The settings of the keyboard keyframes, and the length of a flush burst. -/
structure Settings where
  debounce : ℕ
  minSpacing : ℕ
  stillness : ℕ
  maxPerSecond : ℕ
  flushFrames : ℕ
  deriving DecidableEq

/-- What the loop keeps between its rounds. -/
structure Updates where
  keyboardGeneration : UInt64
  dueAt : Option ℕ
  lastAt : Option ℕ
  windowStarted : ℕ
  windowCount : ℕ
  interval : ℕ
  maxPerSecond : ℕ
  stillness : ℕ
  hasFrame : Bool
  flushRemaining : ℕ
  wasSuppressed : Bool
  firstEgfxFrameSent : Bool
  deriving DecidableEq

/-- A new loop, which has seen the keys posted so far. -/
def Updates.new (generation : UInt64) (now : ℕ) : Updates where
  keyboardGeneration := generation
  dueAt := none
  lastAt := none
  windowStarted := now
  windowCount := 0
  interval := 200000000
  maxPerSecond := 2
  stillness := 50000000
  hasFrame := false
  flushRemaining := 0
  wasSuppressed := false
  firstEgfxFrameSent := false

/-- How much of the spacing to the last keyframe is left. -/
def Updates.cooldown (c : Settings) (u : Updates) (now : ℕ) : ℕ :=
  (u.lastAt.map fun last => c.minSpacing - (now - last)).getD 0

/-- Look whether keys were posted, and let a keyframe be due if none is. -/
def Updates.observe (c : Settings) (generation : UInt64) (now : ℕ) (u : Updates) : Updates :=
  if generation = u.keyboardGeneration then u
  else
    { u with
      keyboardGeneration := generation
      interval := c.debounce
      maxPerSecond := c.maxPerSecond
      stillness := c.stillness
      dueAt := some (u.dueAt.getD (now + max c.debounce (u.cooldown c now))) }

/-- Begin another window of the counter when the last is a second old. -/
def Updates.roll (elapsedAt now : ℕ) (u : Updates) : Updates :=
  if second ≤ elapsedAt - u.windowStarted then { u with windowStarted := now, windowCount := 0 }
  else u

/-- Stop for a client that shows nothing. -/
def Updates.suppress (u : Updates) : Updates :=
  { u with wasSuppressed := true, flushRemaining := 0 }

/-- Whether a keyframe for the keyboard is to be submitted. -/
def Updates.keyboardIdr (u : Updates) (now : ℕ) : Bool :=
  (u.dueAt.any fun due => due ≤ now) && u.windowCount < u.maxPerSecond &&
    u.lastAt.all fun last => u.stillness ≤ now - last

/-- A keyframe for the keyboard was accepted. -/
def Updates.echoed (u : Updates) (now : ℕ) : Updates :=
  { u with dueAt := none, lastAt := some now, windowCount := u.windowCount + 1 }

/-- What comes of a frame that is submitted: it is accepted, the client takes none, or it fails. -/
inductive Submit where
  | accepted
  | declined
  | failed
  deriving DecidableEq

/-- No sample came in time: submit the last frame for the keyboard, or once more for the client's
buffer. -/
def Updates.idle (u : Updates) (now : ℕ) (result : Submit) : Updates :=
  if u.keyboardIdr now then
    if u.hasFrame ∧ result = .accepted then { u.echoed now with flushRemaining := 0 } else u
  else if 0 < u.flushRemaining then { u with flushRemaining := u.flushRemaining - 1 }
  else u

/-- A frame was captured: submit it. -/
def Updates.capture (c : Settings) (u : Updates) (now : ℕ) (result : Submit) : Updates :=
  let resumed := { u with wasSuppressed := false }
  if result = .accepted then
    { (if u.keyboardIdr now then resumed.echoed now else resumed) with
      hasFrame := true
      firstEgfxFrameSent := true
      flushRemaining := c.flushFrames }
  else resumed

/-- Where a round of the loop is: at its top, or behind the look at the keyboard. -/
inductive Phase where
  | top
  | observed
  deriving DecidableEq

/-- The loop, the keys posted and the clock. -/
structure Loop where
  updates : Updates
  generation : UInt64
  clock : ℕ
  phase : Phase
  deriving DecidableEq

def Loop.new (generation : UInt64) (now : ℕ) : Loop := ⟨.new generation now, generation, now, .top⟩

/-- What happens: a key is posted, or the loop goes on. Times are those at which it reads the
clock. -/
inductive Action where
  | post
  | observe (now elapsedAt rolledAt : ℕ)
  | suppress
  | skip
  | timeout (now : ℕ) (resizing : Bool) (result : Submit)
  | capture (now : ℕ) (bigChange : Bool) (result : Submit)
  deriving DecidableEq

/-- One step of the loop. -/
def Loop.step (c : Settings) (l : Loop) : Action → Option Loop
  | .post => some { l with generation := l.generation + 1 }
  | .observe now elapsedAt rolledAt =>
    if l.phase = .top ∧ l.clock ≤ now ∧ now ≤ elapsedAt ∧ elapsedAt ≤ rolledAt then
      some { l with
        updates := (l.updates.observe c l.generation now).roll elapsedAt rolledAt
        clock := rolledAt
        phase := .observed }
    else none
  | .suppress =>
    if l.phase = .observed ∧ l.updates.firstEgfxFrameSent then
      some { l with updates := l.updates.suppress, phase := .top }
    else none
  | .skip => if l.phase = .observed then some { l with phase := .top } else none
  | .timeout now resizing result =>
    -- The loop waits with a time limit only while something is pending.
    if l.phase = .observed ∧ l.clock ≤ now ∧
        (0 < l.updates.flushRemaining ∨ resizing ∨ l.updates.dueAt.isSome) then
      some { l with updates := l.updates.idle now result, clock := now, phase := .top }
    else none
  | .capture now _ result =>
    if l.phase = .observed ∧ l.clock ≤ now then
      some { l with updates := l.updates.capture c now result, clock := now, phase := .top }
    else none

/-! ## What is expected -/

/-- When a step sees that keys were posted. -/
def Loop.seenAt (l : Loop) : Action → Option ℕ
  | .observe now _ _ => if l.generation = l.updates.keyboardGeneration then none else some now
  | _ => none

/-- When a step has a keyframe for the keyboard accepted. -/
def Loop.echoAt (l : Loop) : Action → Option ℕ
  | .timeout now _ result =>
    if l.updates.keyboardIdr now ∧ l.updates.hasFrame ∧ result = .accepted then some now else none
  | .capture now _ result =>
    if l.updates.keyboardIdr now ∧ result = .accepted then some now else none
  | _ => none

/-- When a step has a forced keyframe accepted, for the keyboard or for another reason. -/
def Loop.forcedAt (l : Loop) : Action → Option ℕ
  | .timeout now resizing result => l.echoAt (.timeout now resizing result)
  | .capture now bigChange result =>
    if (bigChange ∨ l.updates.wasSuppressed ∨ l.updates.keyboardIdr now) ∧ result = .accepted then
      some now
    else none
  | _ => none

/-- The times at which keys were seen, and those of the forced keyframes and of the ones for the
keyboard that were accepted. -/
structure Record where
  observed : List ℕ
  forced : List ℕ
  echoes : List ℕ

/-- The loop and what was recorded of it. -/
structure Watch where
  loop : Loop
  record : Record

def Watch.new (generation : UInt64) (now : ℕ) : Watch := ⟨.new generation now, ⟨[], [], []⟩⟩

/-- What is recorded of a step. -/
def Watch.recordAfter (w : Watch) (a : Action) : Record where
  observed := w.record.observed ++ (w.loop.seenAt a).toList
  forced := w.record.forced ++ (w.loop.forcedAt a).toList
  echoes := w.record.echoes ++ (w.loop.echoAt a).toList

/-- A step of the loop, with its record. -/
def Watch.step (c : Settings) (w : Watch) (a : Action) : Option Watch :=
  (w.loop.step c a).map fun loop => ⟨loop, w.recordAfter a⟩

/-- While no keyframe is due, all keys seen were followed by a keyframe after the debounce time, and
the limits are kept. -/
structure Echoed (c : Settings) (w : Watch) : Prop where
  followed : w.loop.updates.dueAt = none →
    ∀ seen ∈ w.record.observed, ∃ forced ∈ w.record.forced, seen + c.debounce ≤ forced
  spaced : Spaced (max c.minSpacing c.stillness) w.record.echoes
  capped : Capped second c.maxPerSecond w.record.echoes

/-- A keyframe for the keyboard goes out when the last keys seen are as old as the debounce time,
and when the keyframes of the last second, those of the former window included, leave room for
it. -/
def Timely (c : Settings) (w : Watch) (a : Action) : Prop :=
  ∀ now, w.loop.echoAt a = some now →
    (∀ seen ∈ w.record.observed, seen + c.debounce ≤ now) ∧
      (recent second now w.record.echoes).length < c.maxPerSecond

/-! ## What a step does -/

variable {c : Settings} {w w' : Watch}

/-- What a step does to the keyframes for the keyboard, and when it sends one. -/
inductive Effect (c : Settings) (w w' : Watch) : Option ℕ → Prop where
  | quiet (extra : List ℕ) (clock : w.loop.clock ≤ w'.loop.clock)
      (late : ∀ t ∈ extra, t ≤ w'.loop.clock)
      (due : w'.loop.updates.dueAt = w.loop.updates.dueAt)
      (last : w'.loop.updates.lastAt = w.loop.updates.lastAt)
      (stillness : w'.loop.updates.stillness = w.loop.updates.stillness)
      (record : w'.record = { w.record with forced := w.record.forced ++ extra }) :
      Effect c w w' none
  | seen (now : ℕ) (before : w.loop.clock ≤ now) (after : now ≤ w'.loop.clock)
      (due : w'.loop.updates.dueAt = some (w.loop.updates.dueAt.getD
        (now + max c.debounce (w.loop.updates.cooldown c now))))
      (last : w'.loop.updates.lastAt = w.loop.updates.lastAt)
      (stillness : w'.loop.updates.stillness = c.stillness)
      (record : w'.record = { w.record with observed := w.record.observed ++ [now] }) :
      Effect c w w' none
  | echo (now : ℕ) (before : w.loop.clock ≤ now) (clock : w'.loop.clock = now)
      (idr : w.loop.updates.keyboardIdr now = true)
      (due : w'.loop.updates.dueAt = none)
      (last : w'.loop.updates.lastAt = some now)
      (stillness : w'.loop.updates.stillness = w.loop.updates.stillness)
      (record : w'.record = { w.record with
        forced := w.record.forced ++ [now], echoes := w.record.echoes ++ [now] }) :
      Effect c w w' (some now)

/-- The counter's window matters to nothing but the counter. -/
theorem roll_frame (u : Updates) (elapsedAt now : ℕ) :
    (u.roll elapsedAt now).dueAt = u.dueAt ∧ (u.roll elapsedAt now).lastAt = u.lastAt ∧
      (u.roll elapsedAt now).stillness = u.stillness := by
  unfold Updates.roll
  split
  · exact ⟨rfl, rfl, rfl⟩
  · exact ⟨rfl, rfl, rfl⟩

/-- Keys that were posted make a keyframe due, unless one is. -/
theorem observe_changed {u : Updates} {generation : UInt64}
    (h : generation ≠ u.keyboardGeneration) (now : ℕ) :
    (u.observe c generation now).dueAt =
        some (u.dueAt.getD (now + max c.debounce (u.cooldown c now))) ∧
      (u.observe c generation now).lastAt = u.lastAt ∧
      (u.observe c generation now).stillness = c.stillness := by
  unfold Updates.observe
  rw [if_neg h]
  exact ⟨rfl, rfl, rfl⟩

/-- The effect of a look at the keyboard. -/
theorem effect_observe {now elapsedAt rolledAt : ℕ}
    (hs : w.step c (.observe now elapsedAt rolledAt) = some w') : Effect c w w' none := by
  obtain ⟨loop, hloop, rfl⟩ := Option.map_eq_some_iff.mp hs
  rw [Loop.step, Option.ite_none_right_eq_some] at hloop
  obtain ⟨⟨-, hbefore, hbetween, hafter⟩, heq⟩ := hloop
  cases heq
  obtain ⟨hdue, hlast, hstillness⟩ :=
    roll_frame (w.loop.updates.observe c w.loop.generation now) elapsedAt rolledAt
  have hclock : now ≤ rolledAt := Nat.le_trans hbetween hafter
  by_cases hsame : w.loop.generation = w.loop.updates.keyboardGeneration
  · have hobserve : w.loop.updates.observe c w.loop.generation now = w.loop.updates := if_pos hsame
    have hseen : w.loop.seenAt (.observe now elapsedAt rolledAt) = none := if_pos hsame
    have hrecord : w.recordAfter (.observe now elapsedAt rolledAt) =
        { w.record with forced := w.record.forced ++ [] } := by
      unfold Watch.recordAfter
      rw [hseen]
      simp [Loop.echoAt, Loop.forcedAt]
    exact .quiet [] (Nat.le_trans hbefore hclock) nofun
      (hdue.trans (congrArg Updates.dueAt hobserve))
      (hlast.trans (congrArg Updates.lastAt hobserve))
      (hstillness.trans (congrArg Updates.stillness hobserve)) hrecord
  · obtain ⟨hdue', hlast', hstillness'⟩ := observe_changed (c := c) hsame now
    have hseen : w.loop.seenAt (.observe now elapsedAt rolledAt) = some now := if_neg hsame
    have hrecord : w.recordAfter (.observe now elapsedAt rolledAt) =
        { w.record with observed := w.record.observed ++ [now] } := by
      unfold Watch.recordAfter
      rw [hseen]
      simp [Loop.echoAt, Loop.forcedAt]
    exact .seen now hbefore hclock (hdue.trans hdue') (hlast.trans hlast')
      (hstillness.trans hstillness') hrecord

/-- The effect of a wait that ends without a sample. -/
theorem effect_timeout {now : ℕ} {resizing : Bool} {result : Submit}
    (hs : w.step c (.timeout now resizing result) = some w') :
    Effect c w w' (w.loop.echoAt (.timeout now resizing result)) := by
  obtain ⟨loop, hloop, rfl⟩ := Option.map_eq_some_iff.mp hs
  rw [Loop.step, Option.ite_none_right_eq_some] at hloop
  obtain ⟨⟨-, hclock, -⟩, heq⟩ := hloop
  cases heq
  have hrecord : w.recordAfter (.timeout now resizing result) =
      { w.record with
        forced := w.record.forced ++ (w.loop.echoAt (.timeout now resizing result)).toList
        echoes := w.record.echoes ++ (w.loop.echoAt (.timeout now resizing result)).toList } := by
    unfold Watch.recordAfter
    simp [Loop.seenAt, Loop.forcedAt]
  by_cases hsent : w.loop.updates.keyboardIdr now ∧ w.loop.updates.hasFrame ∧ result = .accepted
  · have hecho : w.loop.echoAt (.timeout now resizing result) = some now := if_pos hsent
    have hidle : w.loop.updates.idle now result =
        { w.loop.updates.echoed now with flushRemaining := 0 } := by
      unfold Updates.idle
      rw [if_pos hsent.1, if_pos hsent.2]
    rw [hecho] at hrecord ⊢
    refine .echo now hclock rfl hsent.1 ?_ ?_ ?_ hrecord
    · rw [hidle]
      rfl
    · rw [hidle]
      rfl
    · rw [hidle]
      rfl
  · have hecho : w.loop.echoAt (.timeout now resizing result) = none := if_neg hsent
    have hidle : (w.loop.updates.idle now result).dueAt = w.loop.updates.dueAt ∧
        (w.loop.updates.idle now result).lastAt = w.loop.updates.lastAt ∧
        (w.loop.updates.idle now result).stillness = w.loop.updates.stillness := by
      unfold Updates.idle
      by_cases hidr : w.loop.updates.keyboardIdr now = true
      · rw [if_pos hidr, if_neg fun h => hsent ⟨hidr, h⟩]
        exact ⟨rfl, rfl, rfl⟩
      · rw [if_neg hidr]
        split
        · exact ⟨rfl, rfl, rfl⟩
        · exact ⟨rfl, rfl, rfl⟩
    rw [hecho] at hrecord ⊢
    refine .quiet [] hclock nofun hidle.1 hidle.2.1 hidle.2.2 ?_
    rw [hrecord]
    simp

/-- The effect of a capture. -/
theorem effect_capture {now : ℕ} {bigChange : Bool} {result : Submit}
    (hs : w.step c (.capture now bigChange result) = some w') :
    Effect c w w' (w.loop.echoAt (.capture now bigChange result)) := by
  obtain ⟨loop, hloop, rfl⟩ := Option.map_eq_some_iff.mp hs
  rw [Loop.step, Option.ite_none_right_eq_some] at hloop
  obtain ⟨⟨-, hclock⟩, heq⟩ := hloop
  cases heq
  by_cases hsent : w.loop.updates.keyboardIdr now ∧ result = .accepted
  · have hecho : w.loop.echoAt (.capture now bigChange result) = some now := if_pos hsent
    have hforced : w.loop.forcedAt (.capture now bigChange result) = some now :=
      if_pos ⟨.inr (.inr hsent.1), hsent.2⟩
    rw [hecho]
    refine .echo now hclock rfl hsent.1 ?_ ?_ ?_ ?_
    · simp [Updates.capture, hsent.1, hsent.2, Updates.echoed]
    · simp [Updates.capture, hsent.1, hsent.2, Updates.echoed]
    · simp [Updates.capture, hsent.1, hsent.2, Updates.echoed]
    · unfold Watch.recordAfter
      rw [hecho, hforced]
      simp [Loop.seenAt]
  · have hecho : w.loop.echoAt (.capture now bigChange result) = none := if_neg hsent
    have hcapture : (w.loop.updates.capture c now result).dueAt = w.loop.updates.dueAt ∧
        (w.loop.updates.capture c now result).lastAt = w.loop.updates.lastAt ∧
        (w.loop.updates.capture c now result).stillness = w.loop.updates.stillness := by
      unfold Updates.capture
      by_cases hresult : result = .accepted
      · rw [if_pos hresult, if_neg fun h => hsent ⟨h, hresult⟩]
        exact ⟨rfl, rfl, rfl⟩
      · rw [if_neg hresult]
        exact ⟨rfl, rfl, rfl⟩
    have hlate : ∀ t ∈ (w.loop.forcedAt (.capture now bigChange result)).toList, t ≤ now := by
      intro t ht
      have hforced := Option.mem_toList.mp ht
      have hnow := (Option.ite_none_right_eq_some.mp hforced).2
      exact Nat.le_of_eq (Option.some.inj hnow).symm
    rw [hecho]
    refine .quiet (w.loop.forcedAt (.capture now bigChange result)).toList hclock hlate
      hcapture.1 hcapture.2.1 hcapture.2.2 ?_
    unfold Watch.recordAfter
    rw [hecho]
    simp [Loop.seenAt]

/-- Every step has one of the effects. -/
theorem step_effect {a : Action} (hs : w.step c a = some w') :
    Effect c w w' (w.loop.echoAt a) := by
  cases a with
  | observe now elapsedAt rolledAt => exact effect_observe hs
  | timeout now resizing result => exact effect_timeout hs
  | capture now bigChange result => exact effect_capture hs
  | post =>
    cases hs
    exact .quiet [] (Nat.le_refl _) nofun rfl rfl rfl (by
      simp [Watch.recordAfter, Loop.seenAt, Loop.forcedAt, Loop.echoAt])
  | suppress | skip =>
    obtain ⟨loop, hloop, rfl⟩ := Option.map_eq_some_iff.mp hs
    obtain ⟨-, heq⟩ := Option.ite_none_right_eq_some.mp hloop
    cases heq
    exact .quiet [] (Nat.le_refl _) nofun rfl rfl rfl (by
      simp [Watch.recordAfter, Loop.seenAt, Loop.forcedAt, Loop.echoAt])

/-! ## Times of the keyframes -/

/-- Times are not ahead of the clock, the last keyframe is the one recorded last, and one that is
due keeps its distance. -/
structure Timed (c : Settings) (w : Watch) : Prop where
  observed : ∀ t ∈ w.record.observed, t ≤ w.loop.clock
  forced : ∀ t ∈ w.record.forced, t ≤ w.loop.clock
  echoes : ∀ t ∈ w.record.echoes, t ≤ w.loop.clock
  last : w.loop.updates.lastAt = w.record.echoes.getLast?
  stillness : w.loop.updates.dueAt ≠ none → w.loop.updates.stillness = c.stillness
  due : ∀ due, w.loop.updates.dueAt = some due →
    ∀ last, w.loop.updates.lastAt = some last → last + c.minSpacing ≤ due
  spaced : Spaced (max c.minSpacing c.stillness) w.record.echoes

theorem Timed.new (generation : UInt64) (now : ℕ) : Timed c (.new generation now) where
  observed := nofun
  forced := nofun
  echoes := nofun
  last := rfl
  stillness h := absurd rfl h
  due := nofun
  spaced := List.Pairwise.nil

theorem forall_concat_le {times : List ℕ} {before after now : ℕ} (h : ∀ t ∈ times, t ≤ before)
    (hbefore : before ≤ after) (hnow : now ≤ after) : ∀ t ∈ times ++ [now], t ≤ after := by
  intro t ht
  cases List.mem_append.mp ht with
  | inl hin => exact Nat.le_trans (h t hin) hbefore
  | inr hin => exact List.mem_singleton.mp hin ▸ hnow

/-- What it takes to send a keyframe for the keyboard. -/
theorem keyboardIdr_iff (u : Updates) (now : ℕ) :
    u.keyboardIdr now = true ↔ (∃ due, u.dueAt = some due ∧ due ≤ now) ∧
      u.windowCount < u.maxPerSecond ∧ ∀ last, u.lastAt = some last → u.stillness ≤ now - last := by
  unfold Updates.keyboardIdr
  rw [Bool.and_eq_true, Bool.and_eq_true, Option.any_eq_true, Option.all_eq_true, and_assoc]
  simp only [decide_eq_true_eq]

/-- A keyframe that is sent keeps its distance to the last. -/
theorem Timed.apart (h : Timed c w) {now : ℕ} (hidr : w.loop.updates.keyboardIdr now = true)
    (hclock : w.loop.clock ≤ now) {last : ℕ} (hlast : w.loop.updates.lastAt = some last) :
    last + max c.minSpacing c.stillness ≤ now := by
  obtain ⟨⟨due, hdue, hle⟩, -, hstill⟩ := (keyboardIdr_iff _ _).mp hidr
  have hspacing := h.due due hdue last hlast
  have hstillness := hstill last hlast
  rw [h.stillness (by rw [hdue]; nofun)] at hstillness
  have hbefore : last ≤ w.loop.clock := by
    refine h.echoes last (List.mem_of_getLast? ?_)
    rw [← h.last, hlast]
  omega

theorem Timed.step {a : Action} (h : Timed c w) (hs : w.step c a = some w') : Timed c w' := by
  have heffect := step_effect hs
  generalize w.loop.echoAt a = sent at heffect
  cases heffect with
  | quiet extra clock late due last stillness record =>
    constructor
    · intro t ht
      rw [record] at ht
      exact Nat.le_trans (h.observed t ht) clock
    · intro t ht
      rw [record] at ht
      cases List.mem_append.mp ht with
      | inl hin => exact Nat.le_trans (h.forced t hin) clock
      | inr hin => exact late t hin
    · intro t ht
      rw [record] at ht
      exact Nat.le_trans (h.echoes t ht) clock
    · rw [last, record]
      exact h.last
    · rw [due, stillness]
      exact h.stillness
    · rw [due, last]
      exact h.due
    · rw [record]
      exact h.spaced
  | seen now before after due last stillness record =>
    have hclock : w.loop.clock ≤ w'.loop.clock := Nat.le_trans before after
    constructor
    · rw [record]
      exact forall_concat_le h.observed hclock after
    · intro t ht
      rw [record] at ht
      exact Nat.le_trans (h.forced t ht) hclock
    · intro t ht
      rw [record] at ht
      exact Nat.le_trans (h.echoes t ht) hclock
    · rw [last, record]
      exact h.last
    · exact fun _ => stillness
    · rw [due, last]
      intro time htime earlier hearlier
      cases hdue : w.loop.updates.dueAt with
      | some pending =>
        rw [hdue] at htime
        cases htime
        exact h.due _ hdue earlier hearlier
      | none =>
        have hbefore : earlier ≤ w.loop.clock := by
          refine h.echoes earlier (List.mem_of_getLast? ?_)
          rw [← h.last, hearlier]
        have hcooldown : w.loop.updates.cooldown c now = c.minSpacing - (now - earlier) := by
          rw [Updates.cooldown, hearlier]
          rfl
        rw [hdue, hcooldown, Option.getD_none, Option.some.injEq] at htime
        omega
    · rw [record]
      exact h.spaced
  | echo now before clock idr due last stillness record =>
    constructor
    · intro t ht
      rw [record] at ht
      exact Nat.le_trans (h.observed t ht) (by omega)
    · rw [record]
      exact forall_concat_le h.forced (by omega) (by omega)
    · rw [record]
      exact forall_concat_le h.echoes (by omega) (by omega)
    · rw [last, record]
      exact List.getLast?_concat.symm
    · exact fun hne => absurd due hne
    · rw [due]
      nofun
    · rw [record]
      refine h.spaced.concat fun earlier hearlier => h.apart idr before ?_
      rw [h.last]
      exact hearlier

/-! ## The whole -/

/-- A step keeps what is expected exactly if it is timely. -/
theorem echoed_step_iff {a : Action} (h : Timed c w) (hg : Echoed c w)
    (hs : w.step c a = some w') : Echoed c w' ↔ Timely c w a := by
  have hspaced := (h.step hs).spaced
  unfold Timely
  generalize hecho : w.loop.echoAt a = sent
  have heffect := step_effect hs
  rw [hecho] at heffect
  cases heffect with
  | quiet extra clock late due last stillness record =>
    refine ⟨fun _ _ => nofun, fun _ => ⟨?_, hspaced, ?_⟩⟩
    · rw [due, record]
      intro hnone seen hseen
      obtain ⟨forced, hforced, hle⟩ := hg.followed hnone seen hseen
      exact ⟨forced, List.mem_append_left _ hforced, hle⟩
    · rw [record]
      exact hg.capped
  | seen now before after due last stillness record =>
    refine ⟨fun _ _ => nofun, fun _ => ⟨?_, hspaced, ?_⟩⟩
    · rw [due]
      nofun
    · rw [record]
      exact hg.capped
  | echo now before clock idr due last stillness record =>
    have hlatest : ∀ t ∈ w.record.echoes, t ≤ now := fun t ht => Nat.le_trans (h.echoes t ht) before
    have hcapped : Capped second c.maxPerSecond w'.record.echoes ↔
        (recent second now w.record.echoes).length < c.maxPerSecond := by
      rw [record]
      exact (capped_concat_iff (by decide) hlatest).trans (and_iff_right hg.capped)
    have hfollowed : (w'.loop.updates.dueAt = none →
        ∀ seen ∈ w'.record.observed, ∃ forced ∈ w'.record.forced, seen + c.debounce ≤ forced) ↔
        ∀ seen ∈ w.record.observed, seen + c.debounce ≤ now := by
      rw [record]
      constructor
      · intro hall seen hseen
        obtain ⟨forced, hforced, hle⟩ := hall due seen hseen
        have hnow := forall_concat_le h.forced before (Nat.le_refl now) forced hforced
        omega
      · intro hall _ seen hseen
        exact ⟨now, List.mem_append_right _ List.mem_cons_self, hall seen hseen⟩
    constructor
    · intro hgood time htime
      cases htime
      exact ⟨hfollowed.mp hgood.followed, hcapped.mp hgood.capped⟩
    · intro htimely
      obtain ⟨hseen, hroom⟩ := htimely now rfl
      exact ⟨hfollowed.mpr hseen, hspaced, hcapped.mpr hroom⟩

/-- All along a run the keys seen are followed by keyframes after the debounce time and the limits
are kept, exactly if every keyframe for the keyboard is timely. -/
theorem echoed_iff_timely {generation : UInt64} {start : ℕ} {acts : List Action} {t : Watch}
    (hrun : run (Watch.step c) (.new generation start) acts = some t) :
    (∀ before u, before <+: acts → run (Watch.step c) (.new generation start) before = some u →
      Echoed c u) ↔ Meets (Watch.step c) (Timely c) (.new generation start) acts := by
  refine prefixes_iff_meets_of_iff (fun _ => True) (fun _ _ _ h hs => Timed.step h hs)
    (fun _ _ _ _ h hg hs => echoed_step_iff h hg hs) (Timed.new generation start) ?_ hrun
    fun _ _ => trivial
  exact ⟨fun _ => nofun, List.Pairwise.nil, fun _ => Nat.zero_le _⟩

/-- Two keys are typed, and a frame is captured when the first is old enough. -/
def typed (later : ℕ) : List Action :=
  [.post, .observe 1 1 1, .skip, .post, .observe later later later, .capture 11 false .accepted]

/-- The settings of the examples. -/
def settings : Settings := ⟨10, 0, 0, 2, 3⟩

/-- A keyframe follows two keys that come together. -/
theorem echoed_iff_timely_typed :
    ∃ t, run (Watch.step settings) (.new 0 0) (typed 1) = some t ∧ Echoed settings t := by
  have hmeets : Meets (Watch.step settings) (Timely settings) (.new 0 0) (typed 1) := by
    refine ⟨nofun, fun s hs => ?_⟩
    cases hs
    refine ⟨nofun, fun s hs => ?_⟩
    cases hs
    refine ⟨nofun, fun s hs => ?_⟩
    cases hs
    refine ⟨nofun, fun s hs => ?_⟩
    cases hs
    refine ⟨nofun, fun s hs => ?_⟩
    cases hs
    refine ⟨fun now hnow => ?_, fun _ _ => trivial⟩
    have hnow : some 11 = some now := hnow
    cases hnow
    exact ⟨by decide, by decide⟩
  exact ⟨_, rfl, (echoed_iff_timely rfl).mpr hmeets _ _ List.prefix_rfl rfl⟩

/-- The second key is typed while a keyframe is due, which goes out too early for it. -/
theorem not_echoed_typing :
    ¬ ∀ (c : Settings) (generation : UInt64) (start : ℕ) (acts : List Action) (t : Watch),
      1 ≤ c.maxPerSecond → run (Watch.step c) (.new generation start) acts = some t →
        Echoed c t := by
  intro h
  have htyped := (h settings 0 0 (typed 9) _ (by decide) rfl).followed rfl
  exact absurd htyped (by decide)

end Macrdp.KeyboardEcho
