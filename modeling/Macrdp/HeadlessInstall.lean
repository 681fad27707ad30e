import Macrdp.TextLines
import Mathlib.Data.Int.Notation
import Mathlib.Algebra.Order.Ring.Int

/-!
# Installing the headless guards

A guard makes the Mac headless while a client is connected: it detaches, captures or shields every
physical display, and its drop undoes this. An install is a row of transactions and calls each of
which may fail, and until it has succeeded there is no guard whose drop could undo the first ones.
What is expected is that an install that fails leaves the displays as they were, and that one that
succeeds is undone by the drop.
-/

namespace Macrdp.HeadlessInstall

open TextLines (assign)

abbrev DisplayId := UInt32

abbrev Origin := ℤ × ℤ

/-! ## The displays -/

/-- A display. -/
structure Display where
  origin : Origin
  width : ℕ
  enabled : Bool
  captured : Bool
  /-- The display that it mirrors. -/
  mirrors : Option DisplayId
  deriving DecidableEq

/-- A display that is disabled or mirrors another one is not active. -/
def Display.active (d : Display) : Bool := d.enabled && d.mirrors.isNone

/-- The displays of the system. -/
structure Displays where
  /-- In the order in which the system lists them. -/
  online : List DisplayId
  info : DisplayId → Display
  /-- Each is listed once. -/
  nodup : online.Nodup

namespace Displays

/-- The last origin requested for a display counts. -/
def setOrigins (s : Displays) (requests : List (DisplayId × Origin)) : Displays :=
  { s with info := fun id =>
      { s.info id with origin := (assign requests id).getD (s.info id).origin } }

def setEnabled (s : Displays) (ids : List DisplayId) (enabled : Bool) : Displays :=
  { s with info := fun id =>
      { s.info id with enabled := if id ∈ ids then enabled else (s.info id).enabled } }

def setMirrors (s : Displays) (ids : List DisplayId) (master : Option DisplayId) : Displays :=
  { s with info := fun id =>
      { s.info id with mirrors := if id ∈ ids then master else (s.info id).mirrors } }

def setCaptured (s : Displays) (ids : List DisplayId) (captured : Bool) : Displays :=
  { s with info := fun id =>
      { s.info id with captured := if id ∈ ids then captured else (s.info id).captured } }

/-- Two arrangements of the same displays that look the same; a display that mirrors another one
has no origin of its own. -/
structure Same (s s' : Displays) : Prop where
  online : s'.online = s.online
  width : ∀ id, (s'.info id).width = (s.info id).width
  enabled : ∀ id, (s'.info id).enabled = (s.info id).enabled
  captured : ∀ id, (s'.info id).captured = (s.info id).captured
  mirrors : ∀ id, (s'.info id).mirrors = (s.info id).mirrors
  origin : ∀ id, (s.info id).mirrors = none → (s'.info id).origin = (s.info id).origin

end Displays

/-! ## The calls -/

/-- A transaction. -/
inductive Transaction where
  | move
  | disable
  | unmirror
  | displace
  | remirror
  /-- An attempt of a drop to enable the displays. -/
  | enable (attempt : ℕ)
  | reposition
  deriving DecidableEq

/-- A call that may fail. -/
inductive Call where
  /-- Load the private function that disables displays. -/
  | load
  | activeDisplays
  | onlineDisplays
  | begin (tx : Transaction)
  | origin (tx : Transaction) (id : DisplayId)
  | enabled (tx : Transaction) (id : DisplayId)
  | mirror (tx : Transaction) (id : DisplayId)
  | complete (tx : Transaction)
  | capture (id : DisplayId)
  | release (id : DisplayId)
  /-- Have the helper lower the shields. -/
  | hide
  deriving DecidableEq

/-- What comes of asking the helper for the shields. -/
inductive Reply where
  /-- It has covered so many displays. -/
  | covered (count : ℕ)
  /-- The call fails, though the shields may be up. -/
  | failed (raised : Bool)
  deriving DecidableEq

/-- The shields may be up. -/
def Reply.raised : Reply → Bool
  | .covered _ => true
  | .failed raised => raised

/-- The helper has covered as many displays as needed. -/
def Reply.covers (need : ℕ) : Reply → Bool
  | .covered count => decide (need ≤ count)
  | .failed _ => false

/-- What comes of an install: the guard, if it succeeds, the displays, and whether a shield is
up. -/
structure Outcome (γ : Type*) where
  guard : Option γ
  displays : Displays
  shield : Bool

/-- What a transaction comes to: it takes effect if no call of it fails. -/
def commits (ok : Call → Bool) (tx : Transaction) (calls : List Call) : Bool :=
  ok (.begin tx) && calls.all ok && ok (.complete tx)

/-- Move displays in a transaction that is given up at the first failure. -/
def originTx (ok : Call → Bool) (tx : Transaction) (requests : List (DisplayId × Origin))
    (s : Displays) : Option Displays :=
  if commits ok tx (requests.map fun r => .origin tx r.1) = true then some (s.setOrigins requests)
  else none

/-- Move displays in a transaction that leaves out what fails. -/
def reposition (ok : Call → Bool) (requests : List (DisplayId × Origin)) (s : Displays) :
    Displays :=
  if commits ok .reposition [] = true then
    s.setOrigins (requests.filter fun r => ok (.origin .reposition r.1))
  else s

/-- Have panels mirror the virtual display again. -/
def remirrorOntoVd (ok : Call → Bool) (vd : DisplayId) (panels : List DisplayId) (s : Displays) :
    Displays :=
  if panels = [] then s
  else if commits ok .remirror [] = true then
    s.setMirrors (panels.filter fun id => ok (.mirror .remirror id)) (some vd)
  else s

variable (ok : Call → Bool) (vd : DisplayId) (s : Displays)

/-- The active displays but the virtual one, with their origins. -/
def physicals : List (DisplayId × Origin) :=
  (s.online.filter fun id => (s.info id).active && decide (id ≠ vd)).map
    fun id => (id, (s.info id).origin)

/-- The other ones that are online, whose origins are not known. -/
def inactives : List (DisplayId × Origin) :=
  (s.online.filter fun id => !(s.info id).active && decide (id ≠ vd)).map fun id => (id, (0, 0))

/-- The displays to hide: the active ones, or else those that are online. -/
def targetsOrInactive : Option (List (DisplayId × Origin)) :=
  if ok .activeDisplays = false then none
  else if physicals vd s ≠ [] then some (physicals vd s)
  else if ok .onlineDisplays = true ∧ inactives vd s ≠ [] then some (inactives vd s)
  else none

/-- Displays in a row, from an abscissa on. -/
def inRow (least : ℕ) : ℤ → List DisplayId → List (DisplayId × Origin)
  | _, [] => []
  | x, id :: rest => (id, (x, 0)) :: inRow least (x + max least (s.info id).width) rest

/-- The virtual display at the origin, and displays to the right of it. -/
def aside (least : ℕ) (ids : List DisplayId) : List (DisplayId × Origin) :=
  (vd, (0, 0)) :: inRow s least (s.info vd).width ids

/-- The virtual display at the origin, and the active displays to the right of it. -/
def moveAside (ids : List DisplayId) : List (DisplayId × Origin) :=
  aside vd s 0 (ids.filter fun id => (s.info id).active)

/-! ## The guards -/

/-- The physical displays are disabled. -/
structure DetachedPrimary where
  virtualId : DisplayId
  virtualOldOrigin : Origin
  /-- The displays, with their origins before the install. -/
  detached : List (DisplayId × Origin)

/-- Disable displays. -/
def disableTx (ids : List DisplayId) : Option Displays :=
  if commits ok .disable (ids.map fun id => .enabled .disable id) = true then
    some (s.setEnabled ids false)
  else none

def DetachedPrimary.install : Outcome DetachedPrimary :=
  match if ok .load = true then targetsOrInactive ok vd s else none with
  | none => ⟨none, s, false⟩
  | some detached =>
    match originTx ok .move (moveAside vd s (detached.map Prod.fst)) s with
    | none => ⟨none, s, false⟩
    | some moved =>
      match disableTx ok moved
        ((detached.map Prod.fst).filter fun id => (moved.info id).active) with
      | none => ⟨none, moved, false⟩
      | some off => ⟨some ⟨vd, (s.info vd).origin, detached⟩, off, false⟩

/-- Enable the displays again, in so many more attempts. -/
def DetachedPrimary.enable (guard : DetachedPrimary) (s : Displays) :
    ℕ → ℕ → Option Displays
  | 0, _ => none
  | left + 1, attempt =>
    if commits ok (.enable attempt) [] = true then
      some (s.setEnabled ((guard.detached.map Prod.fst).filter fun id =>
        ok (.enabled (.enable attempt) id)) true)
    else DetachedPrimary.enable guard s left (attempt + 1)

/-- Attempts to enable the displays. -/
def maxEnableAttempts : ℕ := 3

def DetachedPrimary.drop (guard : DetachedPrimary) (out : Displays × Bool) : Displays × Bool :=
  match guard.enable ok out.1 maxEnableAttempts 1 with
  | none => out
  | some enabled =>
    (reposition ok (guard.detached ++ [(guard.virtualId, guard.virtualOldOrigin)]) enabled, out.2)

/-- The physical displays are captured. -/
structure CapturedPrimary where
  virtualId : DisplayId
  virtualOldOrigin : Origin
  /-- The displays, with their origins before the install. -/
  captured : List (DisplayId × Origin)

/-- A display can be captured, if nobody holds it. -/
def captures (id : DisplayId) : Bool := ok (.capture id) && !(s.info id).captured

/-- Release displays, as far as it succeeds. -/
def releaseEach (ids : List DisplayId) : Displays :=
  s.setCaptured (ids.filter fun id => ok (.release id)) false

/-- Capture displays one by one; those that are held are released if one cannot be captured. -/
def captureEach (held : List DisplayId) : Displays → List DisplayId → Bool × Displays
  | s, [] => (true, s)
  | s, id :: rest =>
    if captures ok s id = true then captureEach (held ++ [id]) (s.setCaptured [id] true) rest
    else (false, releaseEach ok s held)

def CapturedPrimary.install : Outcome CapturedPrimary :=
  if ok .activeDisplays = false ∨ physicals vd s = [] then ⟨none, s, false⟩
  else
    match originTx ok .move (moveAside vd s ((physicals vd s).map Prod.fst)) s with
    | none => ⟨none, s, false⟩
    | some moved =>
      match captureEach ok [] moved ((physicals vd s).map Prod.fst) with
      | (false, released) => ⟨none, released, false⟩
      | (true, captured) =>
        ⟨some ⟨vd, (s.info vd).origin, physicals vd s⟩, captured, false⟩

def CapturedPrimary.drop (guard : CapturedPrimary) (out : Displays × Bool) : Displays × Bool :=
  let released := releaseEach ok out.1 (guard.captured.map Prod.fst)
  (reposition ok (guard.captured ++ [(guard.virtualId, guard.virtualOldOrigin)]) released, out.2)

/-- The physical displays are covered by shields. -/
structure ShieldedPrimary where
  virtualId : DisplayId
  virtualOldOrigin : Origin
  /-- The displays, with their origins before the install. -/
  shielded : List (DisplayId × Origin)
  movedArrangement : Bool
  /-- The displays that mirrored the virtual one. -/
  brokeMirror : List DisplayId

/-- The displays that mirror the virtual one. -/
def brokenMirrors (targets : List (DisplayId × Origin)) : List DisplayId :=
  (targets.map Prod.fst).filter fun id => decide ((s.info id).mirrors = some vd)

/-- Have displays mirror nothing. -/
def unmirrorTx (ids : List DisplayId) : Option Displays :=
  if commits ok .unmirror (ids.map fun id => .mirror .unmirror id) = true then
    some (s.setMirrors ids none)
  else none

/-- The displays after the mirrors of some are broken and these are moved aside, if that is
possible. -/
def breakMirrors (ids : List DisplayId) : Option Displays :=
  if ids = [] then some s
  else (unmirrorTx ok s ids).map fun unmirrored =>
    (originTx ok .displace (aside vd unmirrored 1 ids) unmirrored).getD unmirrored

/-- Ask the helper for the shields until it has covered as many displays as needed, so many more
times; whether it has, and whether a shield may be up. -/
def raiseShields (shows : ℕ → Reply) (need : ℕ) : ℕ → ℕ → Bool → Bool × Bool
  | 0, _, up => (false, up)
  | left + 1, attempt, up =>
    if (shows attempt).covers need = true then (true, true)
    else raiseShields shows need left (attempt + 1) (up || (shows attempt).raised)

/-- How often the helper is asked. -/
def showAttempts : ℕ := 7

/-- An install that gives up: the shields are lowered and the mirrors made again. -/
def ShieldedPrimary.giveUp (panels : List DisplayId) (up : Bool) : Outcome ShieldedPrimary :=
  ⟨none, remirrorOntoVd ok vd panels s, up && !ok .hide⟩

def ShieldedPrimary.install (shows : ℕ → Reply) (keepPhysicalMain : Bool) :
    Outcome ShieldedPrimary :=
  match targetsOrInactive ok vd s with
  | none => ⟨none, s, false⟩
  | some targets =>
    let broke := brokenMirrors vd s targets
    match breakMirrors ok vd s broke with
    | none => ⟨none, s, false⟩
    | some separate =>
      match raiseShields shows targets.length showAttempts 0 false with
      | (false, up) => ShieldedPrimary.giveUp ok vd separate broke up
      | (true, _) =>
        let guard : ShieldedPrimary :=
          ⟨vd, (s.info vd).origin, targets, !keepPhysicalMain, broke⟩
        if keepPhysicalMain = true then ⟨some guard, separate, true⟩
        else
          match originTx ok .move (moveAside vd separate (targets.map Prod.fst)) separate with
          | none => ShieldedPrimary.giveUp ok vd separate broke true
          | some moved => ⟨some guard, moved, true⟩

def ShieldedPrimary.drop (guard : ShieldedPrimary) (out : Displays × Bool) : Displays × Bool :=
  let mirrored := remirrorOntoVd ok guard.virtualId guard.brokeMirror out.1
  (if guard.movedArrangement = true then
      reposition ok (guard.shielded ++ [(guard.virtualId, guard.virtualOldOrigin)]) mirrored
    else mirrored, out.2 && !ok .hide)

/-! ## What is expected -/

/-- An install that fails leaves the displays as they were, with no shield up; one that succeeds is
undone by a drop whose calls succeed. -/
def AllOrNothing {γ : Type*} (s : Displays) (out : Outcome γ)
    (drop : γ → Displays × Bool → Displays × Bool) : Prop :=
  (out.guard = none → s.Same out.displays ∧ out.shield = false) ∧
    ∀ guard, out.guard = some guard → s.Same (drop guard (out.displays, out.shield)).1 ∧
      (drop guard (out.displays, out.shield)).2 = false

/-- No call fails. -/
def allOk : Call → Bool := fun _ => true

/-- The displays are already where they are to be moved. -/
def InPlace (requests : List (DisplayId × Origin)) : Prop :=
  ∀ id, (s.info id).mirrors = none → ∀ p ∈ assign requests id, (s.info id).origin = p

/-- A display is at the origin. -/
def AtOrigin (id : DisplayId) : Prop :=
  (s.info id).mirrors = none → (s.info id).origin = (0, 0)

/-- Once the displays are moved they are disabled, or were in place before; and none of those that
a drop enables was disabled before. -/
def DetachedPrimary.Undone : Prop :=
  ok .load = true → ∀ detached ∈ targetsOrInactive ok vd s,
    commits ok .move ((moveAside vd s (detached.map Prod.fst)).map fun r => .origin .move r.1) =
        true →
      if commits ok .disable (((detached.map Prod.fst).filter fun id => (s.info id).active).map
          fun id => .enabled .disable id) = true then
        ∀ x ∈ detached, (s.info x.1).enabled = true
      else InPlace s (moveAside vd s (detached.map Prod.fst))

/-- Once the displays are moved every one of them is captured, or they were in place before and
those that were captured are released. -/
def CapturedPrimary.Undone : Prop :=
  ok .activeDisplays = true → physicals vd s ≠ [] →
    commits ok .move ((moveAside vd s ((physicals vd s).map Prod.fst)).map
        fun r => .origin .move r.1) = true →
      (∀ id ∈ (physicals vd s).map Prod.fst, captures ok s id = true) ∨
        InPlace s (moveAside vd s ((physicals vd s).map Prod.fst)) ∧
          ∀ id ∈ ((physicals vd s).map Prod.fst).takeWhile (captures ok s),
            ok (.release id) = true

/-- The virtual display and those that mirrored it are moved. -/
def Displaced (broke : List DisplayId) : Prop :=
  broke ≠ [] ∧ commits ok .displace ((vd :: broke).map fun id => .origin .displace id) = true

/-- The shields cover every display, and the displays are arranged as they should. -/
def Engages (shows : ℕ → Reply) (keepPhysicalMain : Bool) (targets : List (DisplayId × Origin))
    (separate : Displays) : Prop :=
  (raiseShields shows targets.length showAttempts 0 false).1 = true ∧
    (keepPhysicalMain = true ∨ commits ok .move
      ((moveAside vd separate (targets.map Prod.fst)).map fun r => .origin .move r.1) = true)

/-- The virtual display was at the origin before, if it is moved there and not moved back; a display
that is moved back has its origin recorded; and an install that gives up can lower the shields and
make the mirrors again. -/
def ShieldedPrimary.Undone (shows : ℕ → Reply) (keepPhysicalMain : Bool) : Prop :=
  ∀ targets ∈ targetsOrInactive ok vd s,
    ∀ separate ∈ breakMirrors ok vd s (brokenMirrors vd s targets),
      (Engages ok vd shows keepPhysicalMain targets separate → keepPhysicalMain = true →
        Displaced ok vd (brokenMirrors vd s targets) → AtOrigin s vd) ∧
      (Engages ok vd shows keepPhysicalMain targets separate → keepPhysicalMain = false →
        ∀ x ∈ targets, (s.info x.1).mirrors = none → (s.info x.1).origin = x.2) ∧
      (¬Engages ok vd shows keepPhysicalMain targets separate →
        (brokenMirrors vd s targets ≠ [] → commits ok .remirror
          ((brokenMirrors vd s targets).map fun id => .mirror .remirror id) = true) ∧
        (Displaced ok vd (brokenMirrors vd s targets) → AtOrigin s vd) ∧
        ((raiseShields shows targets.length showAttempts 0 false).2 = true → ok .hide = true))

/-! ## Arrangements -/

variable {ok vd s}

theorem Displays.Same.refl (s : Displays) : s.Same s :=
  ⟨rfl, fun _ => rfl, fun _ => rfl, fun _ => rfl, fun _ => rfl, fun _ _ => rfl⟩

variable {requests : List (DisplayId × Origin)} {id : DisplayId}

/-- What moves to where it was recorded. -/
theorem assign_recorded {p q : Origin} (h : ∀ x ∈ requests, x.1 = id → x.2 = p) :
    (assign requests id).getD q = if id ∈ requests.map Prod.fst then p else q := by
  rw [TextLines.assign_eq]
  have hgiven : ∀ v ∈ TextLines.given requests id, v = p := by
    intro v hv
    obtain ⟨x, hx, rfl⟩ := List.mem_map.mp hv
    obtain ⟨hmem, hid⟩ := List.mem_filter.mp hx
    exact h x hmem (of_decide_eq_true hid)
  by_cases hid : id ∈ requests.map Prod.fst
  · rw [if_pos hid]
    have hne : TextLines.given requests id ≠ [] := by
      intro hnil
      obtain ⟨x, hx, hx1⟩ := List.mem_map.mp hid
      exact TextLines.given_eq_nil_iff.mp hnil x hx hx1
    rw [List.getLast?_eq_getLast_of_ne_nil hne, Option.getD_some]
    exact hgiven _ (List.getLast_mem hne)
  · rw [if_neg hid]
    have hnil : TextLines.given requests id = [] := by
      refine TextLines.given_eq_nil_iff.mpr fun x hx hx1 => hid ?_
      exact List.mem_map.mpr ⟨x, hx, hx1⟩
    rw [hnil]
    rfl

theorem assign_not_requested {q : Origin}
    (h : id ∉ requests.map Prod.fst) : (assign requests id).getD q = q := by
  rw [assign_recorded (p := q) fun x hx hid => absurd (List.mem_map.mpr ⟨x, hx, hid⟩) h, if_neg h]

theorem same_setOrigins_iff : s.Same (s.setOrigins requests) ↔ InPlace s requests := by
  constructor
  · intro h id hid p hp
    have horigin : (assign requests id).getD (s.info id).origin = (s.info id).origin :=
      h.origin id hid
    rw [Option.mem_def.mp hp] at horigin
    exact horigin.symm
  · intro h
    refine ⟨rfl, fun _ => rfl, fun _ => rfl, fun _ => rfl, fun _ => rfl, fun id hid => ?_⟩
    show (assign requests id).getD (s.info id).origin = (s.info id).origin
    cases hp : assign requests id with
    | none => rfl
    | some p => exact (h id hid p hp).symm

theorem inRow_fst (s : Displays) (least : ℕ) (x : ℤ) (ids : List DisplayId) :
    (inRow s least x ids).map Prod.fst = ids := by
  induction ids generalizing x with
  | nil => rfl
  | cons id rest ih =>
    rw [inRow, List.map_cons, ih]

theorem aside_fst (vd : DisplayId) (s : Displays) (least : ℕ) (ids : List DisplayId) :
    (aside vd s least ids).map Prod.fst = vd :: ids := by
  rw [aside, List.map_cons, inRow_fst]

variable {ids : List DisplayId}

/-- Only the virtual display and the displays to hide are moved aside. -/
theorem mem_moveAside (h : id ∈ (moveAside vd s ids).map Prod.fst) : id = vd ∨ id ∈ ids := by
  rw [moveAside, aside_fst] at h
  rcases List.mem_cons.mp h with rfl | h
  · exact .inl rfl
  · exact .inr (List.mem_of_mem_filter h)

variable {targets : List (DisplayId × Origin)}

/-- The displays to hide are active with their origins, or inactive. -/
theorem mem_targets (h : targetsOrInactive ok vd s = some targets) :
    targets = physicals vd s ∨ targets = inactives vd s := by
  unfold targetsOrInactive at h
  split at h
  · cases h
  split at h
  · cases h
    exact .inl rfl
  split at h
  · cases h
    exact .inr rfl
  · cases h

theorem mem_physicals {x : DisplayId × Origin} (h : x ∈ physicals vd s) :
    (s.info x.1).active = true ∧ x.1 ≠ vd ∧ x.2 = (s.info x.1).origin := by
  obtain ⟨id, hid, rfl⟩ := List.mem_map.mp h
  have hfilter := (List.mem_filter.mp hid).2
  rw [Bool.and_eq_true, decide_eq_true_eq] at hfilter
  exact ⟨hfilter.1, hfilter.2, rfl⟩

theorem mem_inactives {x : DisplayId × Origin} (h : x ∈ inactives vd s) :
    (s.info x.1).active = false ∧ x.1 ≠ vd ∧ x.2 = (0, 0) := by
  obtain ⟨id, hid, rfl⟩ := List.mem_map.mp h
  have hfilter := (List.mem_filter.mp hid).2
  rw [Bool.and_eq_true, decide_eq_true_eq, Bool.not_eq_true'] at hfilter
  exact ⟨hfilter.1, hfilter.2, rfl⟩

/-- What is recorded of a display to hide. -/
structure Recorded (s : Displays) (vd : DisplayId) (targets : List (DisplayId × Origin)) :
    Prop where
  other : ∀ x ∈ targets, x.1 ≠ vd
  /-- The origin of an active one. -/
  active : ∀ x ∈ targets, (s.info x.1).active = true → x.2 = (s.info x.1).origin
  /-- It is recorded once. -/
  unique : ∀ x ∈ targets, ∀ y ∈ targets, x.1 = y.1 → x.2 = y.2

theorem recorded_physicals : Recorded s vd (physicals vd s) := by
  refine ⟨fun x hx => (mem_physicals hx).2.1, fun x hx _ => (mem_physicals hx).2.2, ?_⟩
  intro x hx y hy hid
  rw [(mem_physicals hx).2.2, (mem_physicals hy).2.2, hid]

theorem recorded_targets
    (h : targetsOrInactive ok vd s = some targets) : Recorded s vd targets := by
  obtain rfl | rfl := mem_targets h
  · exact recorded_physicals
  · refine ⟨fun x hx => (mem_inactives hx).2.1, fun x hx hactive => ?_, ?_⟩
    · rw [(mem_inactives hx).1] at hactive
      cases hactive
    · intro x hx y hy _
      rw [(mem_inactives hx).2.2, (mem_inactives hy).2.2]

/-- Where a drop moves a display. -/
theorem assign_moved_back (targets : List (DisplayId × Origin)) (vd id : DisplayId) (p q : Origin) :
    (assign (targets ++ [(vd, p)]) id).getD q =
      if id = vd then p else (assign targets id).getD q := by
  by_cases hid : id = vd
  · rw [if_pos hid, hid, TextLines.assign_concat, Function.update_self, Option.getD_some]
  · rw [if_neg hid, TextLines.assign_concat, Function.update_of_ne hid]

/-! ## Transactions -/

@[simp]
theorem commits_allOk (tx : Transaction) (calls : List Call) : commits allOk tx calls = true := by
  simp [commits, allOk]

variable {tx : Transaction}

theorem originTx_eq_some {moved : Displays} (h : originTx ok tx requests s = some moved) :
    commits ok tx (requests.map fun r => .origin tx r.1) = true ∧
      moved = s.setOrigins requests := by
  obtain ⟨hcommits, hmoved⟩ := Option.ite_none_right_eq_some.mp h
  exact ⟨hcommits, (Option.some.inj hmoved).symm⟩

theorem originTx_eq_none (h : originTx ok tx requests s = none) :
    ¬commits ok tx (requests.map fun r => .origin tx r.1) = true := by
  intro hcommits
  rw [originTx, if_pos hcommits] at h
  cases h

theorem reposition_allOk (requests : List (DisplayId × Origin)) (s : Displays) :
    reposition allOk requests s = s.setOrigins requests := by
  have hall : (requests.filter fun r => allOk (.origin .reposition r.1)) = requests :=
    List.filter_eq_self.mpr fun _ _ => rfl
  rw [reposition, if_pos (commits_allOk _ _), hall]

variable {γ : Type*}

/-- An install that fails before anything is done. -/
theorem allOrNothing_untouched (drop : γ → Displays × Bool → Displays × Bool) :
    AllOrNothing s ⟨none, s, false⟩ drop :=
  ⟨fun _ => ⟨.refl s, rfl⟩, nofun⟩

/-- One that fails. -/
theorem allOrNothing_none {displays : Displays} {shield : Bool}
    (drop : γ → Displays × Bool → Displays × Bool) :
    AllOrNothing s ⟨none, displays, shield⟩ drop ↔ s.Same displays ∧ shield = false :=
  ⟨fun h => h.1 rfl, fun h => ⟨fun _ => h, nofun⟩⟩

/-- One that succeeds. -/
theorem allOrNothing_some {displays : Displays} {shield : Bool} {guard : γ}
    (drop : γ → Displays × Bool → Displays × Bool) :
    AllOrNothing s ⟨some guard, displays, shield⟩ drop ↔
      s.Same (drop guard (displays, shield)).1 ∧ (drop guard (displays, shield)).2 = false := by
  constructor
  · intro h
    exact h.2 guard rfl
  · intro h
    refine ⟨fun hguard => absurd hguard (Option.some_ne_none _), fun other hother => ?_⟩
    cases hother
    exact h

/-! ## Detaching -/

theorem disableTx_eq_some {off : Displays} (h : disableTx ok s ids = some off) :
    commits ok .disable (ids.map fun id => .enabled .disable id) = true ∧
      off = s.setEnabled ids false := by
  obtain ⟨hcommits, hoff⟩ := Option.ite_none_right_eq_some.mp h
  exact ⟨hcommits, (Option.some.inj hoff).symm⟩

theorem disableTx_eq_none (h : disableTx ok s ids = none) :
    ¬commits ok .disable (ids.map fun id => .enabled .disable id) = true := by
  intro hcommits
  rw [disableTx, if_pos hcommits] at h
  cases h

theorem DetachedPrimary.drop_allOk (guard : DetachedPrimary) (out : Displays × Bool) :
    guard.drop allOk out =
      ((out.1.setEnabled (guard.detached.map Prod.fst) true).setOrigins
        (guard.detached ++ [(guard.virtualId, guard.virtualOldOrigin)]), out.2) := by
  have henable : guard.enable allOk out.1 maxEnableAttempts 1 =
      some (out.1.setEnabled (guard.detached.map Prod.fst) true) := by
    have hall : ((guard.detached.map Prod.fst).filter fun id =>
        allOk (.enabled (.enable 1) id)) = guard.detached.map Prod.fst :=
      List.filter_eq_self.mpr fun _ _ => rfl
    rw [maxEnableAttempts, DetachedPrimary.enable, if_pos (commits_allOk _ _), hall]
  rw [DetachedPrimary.drop, henable]
  exact congrArg (·, out.2) (reposition_allOk _ _)

/-- The displays after they were detached and the guard was dropped. -/
theorem same_reattached_iff {detached : List (DisplayId × Origin)} (h : Recorded s vd detached) :
    s.Same (((((s.setOrigins (moveAside vd s (detached.map Prod.fst))).setEnabled
        ((detached.map Prod.fst).filter fun id => (s.info id).active) false).setEnabled
          (detached.map Prod.fst) true)).setOrigins (detached ++ [(vd, (s.info vd).origin)])) ↔
      ∀ x ∈ detached, (s.info x.1).enabled = true := by
  constructor
  · intro hsame x hx
    have hid : x.1 ∈ detached.map Prod.fst := List.mem_map_of_mem hx
    have henabled := hsame.enabled x.1
    simp only [Displays.setOrigins, Displays.setEnabled, if_pos hid] at henabled
    exact henabled.symm
  · intro henabled
    refine ⟨rfl, fun _ => rfl, fun id => ?_, fun _ => rfl, fun _ => rfl, fun id hid => ?_⟩
    · simp only [Displays.setOrigins, Displays.setEnabled]
      by_cases hmem : id ∈ detached.map Prod.fst
      · obtain ⟨x, hx, rfl⟩ := List.mem_map.mp hmem
        rw [if_pos hmem, henabled x hx]
      · have hfilter : id ∉ (detached.map Prod.fst).filter fun id => (s.info id).active :=
          fun hf => hmem (List.mem_of_mem_filter hf)
        rw [if_neg hmem, if_neg hfilter]
    · show (assign (detached ++ [(vd, (s.info vd).origin)]) id).getD
        ((assign (moveAside vd s (detached.map Prod.fst)) id).getD (s.info id).origin) =
          (s.info id).origin
      rw [assign_moved_back]
      by_cases hvd : id = vd
      · rw [if_pos hvd, hvd]
      · rw [if_neg hvd]
        by_cases hmem : id ∈ detached.map Prod.fst
        · have hrecorded : ∀ x ∈ detached, x.1 = id → x.2 = (s.info id).origin := by
            rintro x hx rfl
            refine h.active x hx ?_
            simp [Display.active, henabled x hx, hid]
          rw [assign_recorded hrecorded, if_pos hmem]
        · have hmove : id ∉ (moveAside vd s (detached.map Prod.fst)).map Prod.fst := by
            intro hmoved
            obtain rfl | hmoved := mem_moveAside hmoved
            · exact hvd rfl
            · exact hmem hmoved
          rw [assign_not_requested hmem, assign_not_requested hmove]

theorem DetachedPrimary.allOrNothing_iff :
    AllOrNothing s (DetachedPrimary.install ok vd s) (fun guard => guard.drop allOk) ↔
      DetachedPrimary.Undone ok vd s := by
  unfold DetachedPrimary.install DetachedPrimary.Undone
  by_cases hload : ok .load = true
  · rw [if_pos hload]
    cases htargets : targetsOrInactive ok vd s with
    | none =>
      refine iff_of_true (allOrNothing_untouched _) fun _ detached hdetached => ?_
      cases hdetached
    | some detached =>
      have hrecorded := recorded_targets htargets
      simp only [Option.mem_def, Option.some.injEq, forall_eq', hload, true_imp_iff]
      cases hmove : originTx ok .move (moveAside vd s (detached.map Prod.fst)) s with
      | none =>
        exact iff_of_true (allOrNothing_untouched _) fun hcommits =>
          absurd hcommits (originTx_eq_none hmove)
      | some moved =>
        obtain ⟨hcommits, rfl⟩ := originTx_eq_some hmove
        rw [forall_prop_of_true hcommits]
        have hactive : ∀ id,
            ((s.setOrigins (moveAside vd s (detached.map Prod.fst))).info id).active =
              (s.info id).active := fun _ => rfl
        simp only [hactive]
        cases hdisable : disableTx ok (s.setOrigins (moveAside vd s (detached.map Prod.fst)))
            ((detached.map Prod.fst).filter fun id => (s.info id).active) with
        | none =>
          rw [if_neg (disableTx_eq_none hdisable), ← same_setOrigins_iff]
          exact (allOrNothing_none _).trans (and_iff_left rfl)
        | some off =>
          obtain ⟨hcommits, rfl⟩ := disableTx_eq_some hdisable
          rw [if_pos hcommits, ← same_reattached_iff hrecorded]
          refine (allOrNothing_some _).trans ?_
          rw [DetachedPrimary.drop_allOk]
          exact and_iff_left rfl
  · rw [if_neg hload]
    exact iff_of_true (allOrNothing_untouched _) fun hloaded => absurd hloaded hload

/-! ## Capturing -/

theorem setCaptured_cons (s : Displays) (id : DisplayId) (rest : List DisplayId) :
    (s.setCaptured [id] true).setCaptured rest true = s.setCaptured (id :: rest) true := by
  have hinfo : ((s.setCaptured [id] true).setCaptured rest true).info =
      (s.setCaptured (id :: rest) true).info := by
    funext other
    by_cases hid : other = id <;> by_cases hrest : other ∈ rest <;>
      simp [Displays.setCaptured, hid, hrest]
  exact congrArg (fun info => (⟨s.online, info, s.nodup⟩ : Displays)) hinfo

theorem captures_setCaptured {other : DisplayId} (h : other ≠ id) :
    captures ok (s.setCaptured [id] true) other = captures ok s other := by
  simp [captures, Displays.setCaptured, h]

theorem takeWhile_eq_of_forall {α : Type*} {p q : α → Bool} {l : List α}
    (h : ∀ x ∈ l, p x = q x) : l.takeWhile p = l.takeWhile q := by
  induction l with
  | nil => rfl
  | cons x rest ih =>
    obtain ⟨hx, hrest⟩ := List.forall_mem_cons.mp h
    rw [List.takeWhile_cons, List.takeWhile_cons, hx, ih hrest]

/-- Only a display that nobody holds is captured. -/
theorem free_of_captures (h : captures ok s id = true) : (s.info id).captured = false := by
  obtain ⟨-, hfree⟩ := Bool.and_eq_true_iff.mp h
  rwa [Bool.not_eq_true'] at hfree

/-- Either every display is captured, or those before the first one that cannot be are released. -/
theorem captureEach_eq (ok : Call → Bool) (s : Displays) (held : List DisplayId)
    (hnodup : ids.Nodup) :
    captureEach ok held s ids =
      if ids.all (captures ok s) = true then (true, s.setCaptured ids true)
      else (false, releaseEach ok (s.setCaptured (ids.takeWhile (captures ok s)) true)
        (held ++ ids.takeWhile (captures ok s))) := by
  induction ids generalizing s held with
  | nil =>
    have hempty : s.setCaptured [] true = s := rfl
    simp [captureEach, hempty]
  | cons id rest ih =>
    obtain ⟨hid, hrest⟩ := List.nodup_cons.mp hnodup
    have hsame : ∀ other ∈ rest,
        captures ok (s.setCaptured [id] true) other = captures ok s other := by
      intro other hother
      refine captures_setCaptured ?_
      rintro rfl
      exact hid hother
    rw [captureEach]
    by_cases hcaptures : captures ok s id = true
    · have htake : rest.takeWhile (captures ok (s.setCaptured [id] true)) =
          rest.takeWhile (captures ok s) := takeWhile_eq_of_forall hsame
      have hall : rest.all (captures ok (s.setCaptured [id] true)) =
          (id :: rest).all (captures ok s) := by
        rw [List.all_cons, hcaptures, Bool.true_and, Bool.eq_iff_iff, List.all_eq_true,
          List.all_eq_true]
        exact forall₂_congr fun other hother => by rw [hsame other hother]
      rw [if_pos hcaptures, ih _ _ hrest, htake, setCaptured_cons, setCaptured_cons,
        List.takeWhile_cons_of_pos hcaptures, List.append_assoc, List.singleton_append]
      rw [hall]
    · have hfails : ¬(id :: rest).all (captures ok s) = true := fun hall =>
        hcaptures (List.all_eq_true.mp hall id List.mem_cons_self)
      have hempty : s.setCaptured [] true = s := rfl
      rw [if_neg hcaptures, if_neg hfails, List.takeWhile_cons_of_neg hcaptures, List.append_nil,
        hempty]

theorem nodup_physicals : ((physicals vd s).map Prod.fst).Nodup := by
  have hfst : (physicals vd s).map Prod.fst =
      s.online.filter fun id => (s.info id).active && decide (id ≠ vd) := by
    rw [physicals, List.map_map]
    exact List.map_id _
  rw [hfst]
  exact s.nodup.filter _

theorem releaseEach_allOk (s : Displays) (ids : List DisplayId) :
    releaseEach allOk s ids = s.setCaptured ids false := by
  have hall : (ids.filter fun id => allOk (.release id)) = ids :=
    List.filter_eq_self.mpr fun _ _ => rfl
  rw [releaseEach, hall]

theorem CapturedPrimary.drop_allOk (guard : CapturedPrimary) (out : Displays × Bool) :
    guard.drop allOk out =
      ((out.1.setCaptured (guard.captured.map Prod.fst) false).setOrigins
        (guard.captured ++ [(guard.virtualId, guard.virtualOldOrigin)]), out.2) := by
  rw [CapturedPrimary.drop, releaseEach_allOk]
  exact congrArg (·, out.2) (reposition_allOk _ _)

/-- The displays are as before after they were captured and the guard was dropped. -/
theorem same_recaptured
    (hcaptures : ∀ id ∈ (physicals vd s).map Prod.fst, captures ok s id = true) :
    s.Same ((((s.setOrigins (moveAside vd s ((physicals vd s).map Prod.fst))).setCaptured
        ((physicals vd s).map Prod.fst) true).setCaptured ((physicals vd s).map Prod.fst)
          false).setOrigins (physicals vd s ++ [(vd, (s.info vd).origin)])) := by
  refine ⟨rfl, fun _ => rfl, fun _ => rfl, fun id => ?_, fun _ => rfl, fun id _ => ?_⟩
  · simp only [Displays.setOrigins, Displays.setCaptured]
    by_cases hmem : id ∈ (physicals vd s).map Prod.fst
    · rw [if_pos hmem, free_of_captures (hcaptures id hmem)]
    · rw [if_neg hmem, if_neg hmem]
  · show (assign (physicals vd s ++ [(vd, (s.info vd).origin)]) id).getD
      ((assign (moveAside vd s ((physicals vd s).map Prod.fst)) id).getD (s.info id).origin) =
        (s.info id).origin
    rw [assign_moved_back]
    by_cases hvd : id = vd
    · rw [if_pos hvd, hvd]
    · rw [if_neg hvd]
      by_cases hmem : id ∈ (physicals vd s).map Prod.fst
      · have hrecorded : ∀ x ∈ physicals vd s, x.1 = id → x.2 = (s.info id).origin := by
          rintro x hx rfl
          exact (mem_physicals hx).2.2
        rw [assign_recorded hrecorded, if_pos hmem]
      · have hmove : id ∉ (moveAside vd s ((physicals vd s).map Prod.fst)).map Prod.fst := by
          intro hmoved
          obtain rfl | hmoved := mem_moveAside hmoved
          · exact hvd rfl
          · exact hmem hmoved
        rw [assign_not_requested hmem, assign_not_requested hmove]

/-- The displays after some were captured and released again. -/
theorem same_released_iff {held : List DisplayId}
    (hfree : ∀ id ∈ held, (s.info id).captured = false) :
    s.Same (releaseEach ok ((s.setOrigins requests).setCaptured held true) held) ↔
      InPlace s requests ∧ ∀ id ∈ held, ok (.release id) = true := by
  rw [← same_setOrigins_iff]
  constructor
  · intro h
    refine ⟨⟨h.online, h.width, h.enabled, fun _ => rfl, h.mirrors, h.origin⟩, fun id hid => ?_⟩
    have hcaptured := h.captured id
    by_contra hfails
    have hmem : id ∉ held.filter fun id => ok (.release id) := by
      rw [List.mem_filter]
      exact fun hf => hfails hf.2
    simp only [releaseEach, Displays.setCaptured, if_neg hmem, if_pos hid,
      hfree id hid] at hcaptured
    cases hcaptured
  · rintro ⟨hsame, hrelease⟩
    refine ⟨hsame.online, hsame.width, hsame.enabled, fun id => ?_, hsame.mirrors, hsame.origin⟩
    have hall : (held.filter fun id => ok (.release id)) = held :=
      List.filter_eq_self.mpr hrelease
    simp only [releaseEach, hall, Displays.setCaptured]
    by_cases hid : id ∈ held
    · rw [if_pos hid, hfree id hid]
    · rw [if_neg hid, if_neg hid]
      rfl

theorem CapturedPrimary.allOrNothing_iff :
    AllOrNothing s (CapturedPrimary.install ok vd s) (fun guard => guard.drop allOk) ↔
      CapturedPrimary.Undone ok vd s := by
  unfold CapturedPrimary.install CapturedPrimary.Undone
  by_cases hnothing : ok .activeDisplays = false ∨ physicals vd s = []
  · rw [if_pos hnothing]
    refine iff_of_true (allOrNothing_untouched _) fun hlist hne => ?_
    obtain hfails | hnone := hnothing
    · rw [hlist] at hfails
      cases hfails
    · exact absurd hnone hne
  · rw [if_neg hnothing]
    obtain ⟨hlist, hne⟩ := not_or.mp hnothing
    rw [Bool.not_eq_false] at hlist
    rw [forall_prop_of_true hlist, forall_prop_of_true hne]
    cases hmove : originTx ok .move (moveAside vd s ((physicals vd s).map Prod.fst)) s with
    | none =>
      exact iff_of_true (allOrNothing_untouched _) fun hcommits =>
        absurd hcommits (originTx_eq_none hmove)
    | some moved =>
      obtain ⟨hcommits, rfl⟩ := originTx_eq_some hmove
      rw [forall_prop_of_true hcommits]
      have heach := captureEach_eq ok
        (s.setOrigins (moveAside vd s ((physicals vd s).map Prod.fst))) []
        (@nodup_physicals vd s)
      have hcaptures : captures ok
          (s.setOrigins (moveAside vd s ((physicals vd s).map Prod.fst))) = captures ok s := rfl
      rw [hcaptures, List.nil_append] at heach
      by_cases hall : ∀ id ∈ (physicals vd s).map Prod.fst, captures ok s id = true
      · rw [if_pos (List.all_eq_true.mpr hall)] at heach
        simp only [heach]
        refine iff_of_true ((allOrNothing_some _).mpr ?_) (.inl hall)
        rw [CapturedPrimary.drop_allOk]
        exact ⟨same_recaptured hall, rfl⟩
      · rw [if_neg fun h => hall (List.all_eq_true.mp h)] at heach
        simp only [heach]
        have hfree : ∀ id ∈ ((physicals vd s).map Prod.fst).takeWhile (captures ok s),
            (s.info id).captured = false := fun id hid =>
          free_of_captures (List.mem_takeWhile_imp hid)
        rw [or_iff_right hall, ← same_released_iff hfree]
        exact (allOrNothing_none _).trans (and_iff_left rfl)

/-! ## Shielding -/

/-- The displays once the mirrors are broken: those that were mirrors are displays of their own, and
the virtual one may be at the origin. -/
structure Separated (ok : Call → Bool) (vd : DisplayId) (s : Displays) (broke : List DisplayId)
    (separate : Displays) : Prop where
  online : separate.online = s.online
  width : ∀ id, (separate.info id).width = (s.info id).width
  enabled : ∀ id, (separate.info id).enabled = (s.info id).enabled
  captured : ∀ id, (separate.info id).captured = (s.info id).captured
  broken : ∀ id ∈ broke, (separate.info id).mirrors = none
  mirrors : ∀ id ∉ broke, (separate.info id).mirrors = (s.info id).mirrors
  displaced : Displaced ok vd broke → (separate.info vd).origin = (0, 0)
  origin : ∀ id ∉ broke, (id = vd → ¬Displaced ok vd broke) →
    (separate.info id).origin = (s.info id).origin

variable {separate : Displays}
variable {broke : List DisplayId}

theorem separated_of_some (hvd : vd ∉ broke)
    (h : breakMirrors ok vd s broke = some separate) : Separated ok vd s broke separate := by
  unfold breakMirrors at h
  split at h
  · rename_i hempty
    cases h
    subst hempty
    exact ⟨rfl, fun _ => rfl, fun _ => rfl, fun _ => rfl, fun _ hid => absurd hid List.not_mem_nil,
      fun _ _ => rfl, fun hdisplaced => absurd rfl hdisplaced.1, fun _ _ _ => rfl⟩
  · rename_i hne
    obtain ⟨unmirrored, hunmirror, rfl⟩ := Option.map_eq_some_iff.mp h
    obtain ⟨-, hunmirrored⟩ := Option.ite_none_right_eq_some.mp hunmirror
    obtain rfl := Option.some.inj hunmirrored
    have hcalls : (aside vd (s.setMirrors broke none) 1 broke).map
        (fun r => Call.origin .displace r.1) =
          (vd :: broke).map fun id => .origin .displace id := by
      rw [← aside_fst vd (s.setMirrors broke none) 1 broke, List.map_map]
      rfl
    have hmirror : ∀ id ∉ broke, (if id ∈ broke then none else (s.info id).mirrors) =
        (s.info id).mirrors := fun id hid => if_neg hid
    cases hdisplace : originTx ok .displace (aside vd (s.setMirrors broke none) 1 broke)
        (s.setMirrors broke none) with
    | none =>
      have hstays : ¬Displaced ok vd broke := by
        rintro ⟨-, hcommits⟩
        rw [← hcalls] at hcommits
        exact originTx_eq_none hdisplace hcommits
      exact ⟨rfl, fun _ => rfl, fun _ => rfl, fun _ => rfl, fun id hid => if_pos hid, hmirror,
        fun hdisplaced => absurd hdisplaced hstays, fun _ _ _ => rfl⟩
    | some displaced =>
      obtain ⟨hcommits, rfl⟩ := originTx_eq_some hdisplace
      rw [hcalls] at hcommits
      have horigin : ∀ x ∈ aside vd (s.setMirrors broke none) 1 broke, x.1 = vd → x.2 = (0, 0) := by
        intro x hx hid
        rcases List.mem_cons.mp hx with rfl | hx
        · rfl
        · have hmem := List.mem_map_of_mem (f := Prod.fst) hx
          rw [inRow_fst, hid] at hmem
          exact absurd hmem hvd
      refine ⟨rfl, fun _ => rfl, fun _ => rfl, fun _ => rfl, fun id hid => if_pos hid, hmirror,
        fun _ => ?_, fun id hid hother => ?_⟩
      · have hmem : vd ∈ (aside vd (s.setMirrors broke none) 1 broke).map Prod.fst := by
          rw [aside_fst]
          exact List.mem_cons_self
        exact (assign_recorded horigin).trans (if_pos hmem)
      · refine assign_not_requested ?_
        rw [aside_fst, List.mem_cons, not_or]
        exact ⟨fun hidvd => hother hidvd ⟨hne, hcommits⟩, hid⟩

theorem commits_of_commits {calls : List Call}
    (h : commits ok tx calls = true) : commits ok tx [] = true ∧ ∀ c ∈ calls, ok c = true := by
  simp only [commits, Bool.and_eq_true, List.all_eq_true] at h ⊢
  exact ⟨⟨⟨h.1.1, fun _ hc => absurd hc List.not_mem_nil⟩, h.2⟩, h.1.2⟩

theorem commits_mirrors_iff (h : commits ok tx [] = true) :
    commits ok tx (ids.map fun id => .mirror tx id) = true ↔
      ∀ id ∈ ids, ok (.mirror tx id) = true := by
  simp only [commits, Bool.and_eq_true, List.all_eq_true] at h ⊢
  constructor
  · rintro ⟨⟨-, hall⟩, -⟩ id hid
    exact hall _ (List.mem_map_of_mem hid)
  · intro hall
    refine ⟨⟨h.1.1, fun c hc => ?_⟩, h.2⟩
    obtain ⟨id, hid, rfl⟩ := List.mem_map.mp hc
    exact hall id hid

/-- The displays are as before once the mirrors are made again, unless that fails or the virtual
display has been moved. -/
theorem same_remirrored_iff {ok' : Call → Bool}
    (h : Separated ok vd s broke separate) (hvd : vd ∉ broke)
    (hmirrors : ∀ id ∈ broke, (s.info id).mirrors = some vd) :
    s.Same (remirrorOntoVd ok' vd broke separate) ↔
      (broke ≠ [] → commits ok' .remirror (broke.map fun id => .mirror .remirror id) = true) ∧
        (Displaced ok vd broke → AtOrigin s vd) := by
  have horigins : (∀ id, (s.info id).mirrors = none →
      (separate.info id).origin = (s.info id).origin) ↔
        (Displaced ok vd broke → AtOrigin s vd) := by
    constructor
    · intro hsame hdisplaced hfree
      rw [← hsame vd hfree, h.displaced hdisplaced]
    · intro hat id hfree
      have hid : id ∉ broke := by
        intro hid
        rw [hmirrors id hid] at hfree
        cases hfree
      by_cases hmoved : id = vd ∧ Displaced ok vd broke
      · obtain ⟨rfl, hdisplaced⟩ := hmoved
        rw [h.displaced hdisplaced, hat hdisplaced hfree]
      · exact h.origin id hid fun heq hdisplaced => hmoved ⟨heq, hdisplaced⟩
  unfold remirrorOntoVd
  by_cases hempty : broke = []
  · rw [if_pos hempty, ← horigins]
    constructor
    · intro hsame
      exact ⟨fun hne => absurd hempty hne, hsame.origin⟩
    · rintro ⟨-, horigin⟩
      refine ⟨h.online, h.width, h.enabled, h.captured, fun id => h.mirrors id ?_, horigin⟩
      rw [hempty]
      exact List.not_mem_nil
  · rw [if_neg hempty, forall_prop_of_true hempty, ← horigins]
    by_cases hcommits : commits ok' .remirror [] = true
    · rw [if_pos hcommits, commits_mirrors_iff hcommits]
      constructor
      · intro hsame
        refine ⟨fun id hid => ?_, hsame.origin⟩
        have hmirror := hsame.mirrors id
        by_contra hfails
        have hmem : id ∉ broke.filter fun id => ok' (.mirror .remirror id) := by
          rw [List.mem_filter]
          exact fun hf => hfails hf.2
        simp only [Displays.setMirrors, if_neg hmem, h.broken id hid, hmirrors id hid] at hmirror
        cases hmirror
      · rintro ⟨hall, horigin⟩
        have hfilter : (broke.filter fun id => ok' (.mirror .remirror id)) = broke :=
          List.filter_eq_self.mpr hall
        rw [hfilter]
        refine ⟨h.online, h.width, h.enabled, h.captured, fun id => ?_, horigin⟩
        simp only [Displays.setMirrors]
        by_cases hid : id ∈ broke
        · rw [if_pos hid, hmirrors id hid]
        · rw [if_neg hid, h.mirrors id hid]
    · rw [if_neg hcommits]
      refine iff_of_false (fun hsame => ?_) fun hall => hcommits (commits_of_commits hall.1).1
      obtain ⟨id, hid⟩ := List.exists_mem_of_ne_nil broke hempty
      have hmirror := hsame.mirrors id
      rw [h.broken id hid, hmirrors id hid] at hmirror
      cases hmirror

theorem remirrorOntoVd_allOk (vd : DisplayId) (broke : List DisplayId) (s : Displays) :
    remirrorOntoVd allOk vd broke s = s.setMirrors broke (some vd) := by
  unfold remirrorOntoVd
  split
  · rename_i hempty
    rw [hempty]
    rfl
  · have hall : (broke.filter fun id => allOk (.mirror .remirror id)) = broke :=
      List.filter_eq_self.mpr fun _ _ => rfl
    rw [if_pos (commits_allOk _ _), hall]

theorem ShieldedPrimary.drop_allOk (guard : ShieldedPrimary) (displays : Displays) (up : Bool) :
    guard.drop allOk (displays, up) =
      (if guard.movedArrangement = true then
          (displays.setMirrors guard.brokeMirror (some guard.virtualId)).setOrigins
            (guard.shielded ++ [(guard.virtualId, guard.virtualOldOrigin)])
        else displays.setMirrors guard.brokeMirror (some guard.virtualId), false) := by
  rw [ShieldedPrimary.drop, remirrorOntoVd_allOk, reposition_allOk]
  simp [allOk]

/-- The displays are as before once they are moved back, if their origins are recorded. -/
theorem same_moved_back_iff
    (h : Separated ok vd s broke separate) (hrecorded : Recorded s vd targets)
    (hbroke : ∀ id ∈ broke, id ∈ targets.map Prod.fst)
    (hmirrors : ∀ id ∈ broke, (s.info id).mirrors = some vd) :
    s.Same (((separate.setOrigins (moveAside vd separate (targets.map Prod.fst))).setMirrors broke
        (some vd)).setOrigins (targets ++ [(vd, (s.info vd).origin)])) ↔
      ∀ x ∈ targets, (s.info x.1).mirrors = none → (s.info x.1).origin = x.2 := by
  have horigin : ∀ id, ((((separate.setOrigins (moveAside vd separate
      (targets.map Prod.fst))).setMirrors broke (some vd)).setOrigins
        (targets ++ [(vd, (s.info vd).origin)])).info id).origin =
      if id = vd then (s.info vd).origin
      else (assign targets id).getD ((assign (moveAside vd separate (targets.map Prod.fst)) id).getD
        (separate.info id).origin) := fun id => assign_moved_back _ _ _ _ _
  have hback : ∀ x ∈ targets, ∀ q, (assign targets x.1).getD q = x.2 := by
    intro x hx q
    rw [assign_recorded fun y hy hid => hrecorded.unique y hy x hx hid,
      if_pos (List.mem_map_of_mem hx)]
  constructor
  · intro hsame x hx hfree
    rw [← hsame.origin x.1 hfree, horigin, if_neg (hrecorded.other x hx), hback x hx]
  · intro hwas
    refine ⟨h.online, h.width, h.enabled, h.captured, fun id => ?_, fun id hfree => ?_⟩
    · simp only [Displays.setMirrors, Displays.setOrigins]
      by_cases hid : id ∈ broke
      · rw [if_pos hid, hmirrors id hid]
      · rw [if_neg hid, h.mirrors id hid]
    · rw [horigin]
      by_cases hvd : id = vd
      · rw [if_pos hvd, hvd]
      · rw [if_neg hvd]
        by_cases hmem : id ∈ targets.map Prod.fst
        · obtain ⟨x, hx, rfl⟩ := List.mem_map.mp hmem
          rw [hback x hx, hwas x hx hfree]
        · have hmove : id ∉ (moveAside vd separate (targets.map Prod.fst)).map Prod.fst := by
            intro hmoved
            obtain rfl | hmoved := mem_moveAside hmoved
            · exact hvd rfl
            · exact hmem hmoved
          rw [assign_not_requested hmem, assign_not_requested hmove]
          exact h.origin id (fun hid => hmem (hbroke id hid)) fun hid => absurd hid hvd

/-- An install that gives up leaves everything as before if the mirrors can be made again and the
shields lowered. -/
theorem ShieldedPrimary.giveUp_iff {panels : List DisplayId} {up : Bool} :
    AllOrNothing s (ShieldedPrimary.giveUp ok vd separate panels up)
        (fun guard => guard.drop allOk) ↔
      s.Same (remirrorOntoVd ok vd panels separate) ∧ (up = true → ok .hide = true) := by
  refine (allOrNothing_none _).trans (and_congr_right fun _ => ?_)
  cases up <;> cases ok .hide <;> decide

/-- Shields that cover every display are up. -/
theorem raiseShields_up {shows : ℕ → Reply} {need left attempt : ℕ} {up : Bool}
    (h : (raiseShields shows need left attempt up).1 = true) :
    (raiseShields shows need left attempt up).2 = true := by
  induction left generalizing attempt up with
  | zero => cases h
  | succ left ih =>
    rw [raiseShields] at h ⊢
    split
    · rfl
    · rename_i hcovers
      rw [if_neg hcovers] at h
      exact ih h

theorem ShieldedPrimary.allOrNothing_iff {shows : ℕ → Reply} {keepPhysicalMain : Bool} :
    AllOrNothing s (ShieldedPrimary.install ok vd s shows keepPhysicalMain)
        (fun guard => guard.drop allOk) ↔
      ShieldedPrimary.Undone ok vd s shows keepPhysicalMain := by
  unfold ShieldedPrimary.install ShieldedPrimary.Undone
  cases htargets : targetsOrInactive ok vd s with
  | none =>
    refine iff_of_true (allOrNothing_untouched _) fun targets htargets => ?_
    cases htargets
  | some targets =>
    have hrecorded := recorded_targets htargets
    have hvd : vd ∉ brokenMirrors vd s targets := by
      intro hmem
      obtain ⟨x, hx, hid⟩ := List.mem_map.mp (List.mem_of_mem_filter hmem)
      exact hrecorded.other x hx hid
    have hmirrors : ∀ id ∈ brokenMirrors vd s targets, (s.info id).mirrors = some vd :=
      fun id hid => of_decide_eq_true (List.mem_filter.mp hid).2
    have hbroke : ∀ id ∈ brokenMirrors vd s targets, id ∈ targets.map Prod.fst := fun id hid =>
      List.mem_of_mem_filter hid
    simp only [Option.mem_def, Option.some.injEq, forall_eq']
    cases hbreak : breakMirrors ok vd s (brokenMirrors vd s targets) with
    | none =>
      refine iff_of_true (allOrNothing_untouched _) fun separate hseparate => ?_
      cases hseparate
    | some separate =>
      have hsep := separated_of_some hvd hbreak
      have hgiveUp : s.Same (remirrorOntoVd ok vd (brokenMirrors vd s targets) separate) ↔ _ :=
        same_remirrored_iff hsep hvd hmirrors
      simp only [Option.some.injEq, forall_eq']
      have hup := @raiseShields_up shows targets.length showAttempts 0 false
      unfold Engages
      cases hraise : raiseShields shows targets.length showAttempts 0 false with
      | mk covered up =>
        rw [hraise] at hup
        cases covered with
        | false =>
          simp only [ShieldedPrimary.giveUp_iff, hgiveUp]
          simp [and_assoc]
        | true =>
          obtain rfl : up = true := hup rfl
          cases keepPhysicalMain with
          | true =>
            have hkept : s.Same (remirrorOntoVd allOk vd (brokenMirrors vd s targets) separate) ↔ _ :=
              same_remirrored_iff hsep hvd hmirrors
            rw [remirrorOntoVd_allOk] at hkept
            simp only [if_true]
            refine (allOrNothing_some _).trans ?_
            rw [ShieldedPrimary.drop_allOk, Bool.not_true, if_neg Bool.false_ne_true, hkept]
            simp
          | false =>
            rw [if_neg Bool.false_ne_true]
            cases hmove : originTx ok .move
                (moveAside vd separate (targets.map Prod.fst)) separate with
            | none =>
              have hfails := originTx_eq_none hmove
              simp only [ShieldedPrimary.giveUp_iff, hgiveUp]
              simp [hfails, and_assoc]
            | some moved =>
              obtain ⟨hcommits, rfl⟩ := originTx_eq_some hmove
              have hback := same_moved_back_iff hsep hrecorded hbroke hmirrors
              refine (allOrNothing_some _).trans ?_
              rw [ShieldedPrimary.drop_allOk, Bool.not_false, if_pos rfl, hback]
              simp [hcommits]

/-- For any displays and any choice of failing calls, each of the three installs is all or nothing
exactly where nothing that it leaves behind was different before. -/
theorem installs_allOrNothing_iff (ok : Call → Bool) (vd : DisplayId) (s : Displays)
    (shows : ℕ → Reply) (keepPhysicalMain : Bool) :
    (AllOrNothing s (DetachedPrimary.install ok vd s) (fun guard => guard.drop allOk) ↔
        DetachedPrimary.Undone ok vd s) ∧
      (AllOrNothing s (CapturedPrimary.install ok vd s) (fun guard => guard.drop allOk) ↔
        CapturedPrimary.Undone ok vd s) ∧
      (AllOrNothing s (ShieldedPrimary.install ok vd s shows keepPhysicalMain)
          (fun guard => guard.drop allOk) ↔
        ShieldedPrimary.Undone ok vd s shows keepPhysicalMain) :=
  ⟨DetachedPrimary.allOrNothing_iff, CapturedPrimary.allOrNothing_iff,
    ShieldedPrimary.allOrNothing_iff⟩

/-- A panel, and a virtual display to the right of it. -/
def panelAndVirtual : Displays where
  online := [1, 2]
  info id := if id = 2 then ⟨(1728, 0), 1920, true, false, none⟩
    else ⟨(0, 0), 1728, true, false, none⟩
  nodup := by decide

/-- Somebody else holds the panel. -/
def panelHeld (c : Call) : Bool := decide (c ≠ .capture 1)

/-- The panel cannot be captured, and stays where it was moved. -/
theorem not_allOrNothing_panelHeld :
    ¬∀ (ok : Call → Bool) (vd : DisplayId) (s : Displays) (shows : ℕ → Reply)
      (keepPhysicalMain : Bool),
      AllOrNothing s (DetachedPrimary.install ok vd s) (fun guard => guard.drop allOk) ∧
        AllOrNothing s (CapturedPrimary.install ok vd s) (fun guard => guard.drop allOk) ∧
        AllOrNothing s (ShieldedPrimary.install ok vd s shows keepPhysicalMain)
          (fun guard => guard.drop allOk) := by
  intro h
  obtain ⟨-, ⟨hfails, -⟩, -⟩ := h panelHeld 2 panelAndVirtual (fun _ => .failed false) true
  have hnone : (CapturedPrimary.install panelHeld 2 panelAndVirtual).guard.isNone = true := by
    decide +kernel
  have hmoved : ((CapturedPrimary.install panelHeld 2 panelAndVirtual).displays.info 1).origin =
      (1920, 0) := by
    decide +kernel
  have hsame := (hfails (Option.isNone_iff_eq_none.mp hnone)).1.origin 1 (by decide)
  rw [hmoved] at hsame
  exact absurd hsame (by decide)

end Macrdp.HeadlessInstall
