import Macrdp.StepSystem

/-!
# The headless overlay

While a client is connected, the panel of the Mac is taken over by a guard, which an install makes
and whose drop restores the panel. The sessions are counted by a tracker that notifies a watcher of
every change; the notifications that come while the watcher is busy leave one permit. The watcher
installs the guard when the count leaves zero and drops it when the count has come back to zero,
with pauses between that absorb short changes.
-/

namespace Macrdp.OverlayWatcher

open StepSystem

/-- Pause before an install, in milliseconds. -/
def connectDebounce : ℕ := 750

/-- How long a guard is kept at least. -/
def engagedSettle : ℕ := 3000

/-- How long the count has to stay zero. -/
def reactivationGrace : ℕ := 2500

/-- Pause between two looks at the count. -/
def reactivationPoll : ℕ := 75

/-- What the watcher is started with. -/
structure Settings where
  vdId : UInt32
  /-- Windows are gathered on the display that the session leaves in use. -/
  restoreWindows : Bool
  physicalMainId : UInt32
  /-- The process exits if a panel could not be restored. -/
  restartOnStuck : Bool
  deriving DecidableEq, Repr

/-- Where the watcher is. -/
inductive Phase (T : Type*) where
  /-- It waits for a notification. -/
  | waiting
  | woken
  | debouncing (untilMs : ℕ)
  | installing
  /-- The install has returned a guard. -/
  | installed (ovr : T)
  /-- At the head of the loop that watches the count stay zero. -/
  | grace (deadlineMs : ℕ)
  | graceSleep (deadlineMs untilMs : ℕ)
  /-- The count has stayed zero. -/
  | disconnected
  | settling (untilMs : ℕ)
  | releasing
  /-- The guard is out of the slot and being dropped. -/
  | dropping (ovr : T)
  | exited
  deriving DecidableEq, Repr

/-- The tracker, the watcher and the slot of the guard. -/
structure Overlay (T : Type*) where
  count : UInt64
  permit : Bool
  wasZero : Bool
  installedAt : Option ℕ
  slot : Option T
  phase : Phase T
  nowMs : ℕ
  /-- Displays that windows were gathered on so far. -/
  gathered : List UInt32
  /-- Count that the watcher loaded when it woke last. -/
  seen : UInt64
  /-- What the last install since the slot was emptied returned. -/
  attempt : Option (Option T)
  deriving DecidableEq

/-- A step of a session, of the clock or of the watcher. -/
inductive Action (T : Type*) where
  | enter
  | leave
  | tick (nowMs : ℕ)
  /-- The watcher takes the permit. -/
  | wake
  | loadCount
  /-- The pause before an install is over, and the count is loaded again. -/
  | debounced
  /-- The install returns, with a guard if it succeeded. -/
  | install (result : Option T)
  | storeSlot
  | checkDeadline
  /-- A pause of the loop is over, and the count is loaded again. -/
  | poll
  | checkSettle
  | settled
  | takeSlot
  /-- The guard is dropped; the panel may have stayed dark. -/
  | drop (stuck : Bool)
  deriving DecidableEq, Repr

namespace Overlay

variable {T : Type*}

/-- No session yet, and a watcher that waits. -/
def start : Overlay T where
  count := 0
  permit := false
  wasZero := true
  installedAt := none
  slot := none
  phase := .waiting
  nowMs := 0
  gathered := []
  seen := 0
  attempt := none

/-- The watcher waits again. -/
def wait (s : Overlay T) (wasZero : Bool) : Overlay T :=
  { s with wasZero := wasZero, phase := .waiting }

/-- Gather the windows on a display, if they follow the session. -/
def gather (settings : Settings) (s : Overlay T) (displayId : UInt32) : Overlay T :=
  if settings.restoreWindows = true then { s with gathered := s.gathered ++ [displayId] } else s

/-- One step; `none` if it cannot happen. -/
def step (settings : Settings) (s : Overlay T) : Action T → Option (Overlay T)
  | .enter => some { s with count := s.count + 1, permit := true }
  | .leave => some { s with count := s.count - 1, permit := true }
  | .tick nowMs => if s.nowMs ≤ nowMs then some { s with nowMs := nowMs } else none
  | .wake =>
    match s.phase, s.permit with
    | .waiting, true => some { s with permit := false, phase := .woken }
    | _, _ => none
  | .loadCount =>
    match s.phase with
    | .woken =>
      let nowZero := decide (s.count = 0)
      let s := { s with seen := s.count }
      match s.wasZero, nowZero with
      | true, false => some { s with phase := .debouncing (s.nowMs + connectDebounce) }
      | false, true => some { s with phase := .grace (s.nowMs + reactivationGrace) }
      | _, _ => some (s.wait nowZero)
    | _ => none
  | .debounced =>
    match s.phase with
    | .debouncing untilMs =>
      if untilMs ≤ s.nowMs then
        if s.count = 0 then some (s.wait true) else some { s with phase := .installing }
      else none
    | _ => none
  | .install result =>
    match s.phase, result with
    | .installing, some ovr => some { s with
        installedAt := some s.nowMs
        phase := .installed ovr
        attempt := some (some ovr) }
    | .installing, none => some { s.wait false with attempt := some none }
    | _, _ => none
  | .storeSlot =>
    match s.phase with
    | .installed ovr =>
      some (({ s with slot := some ovr }.gather settings settings.vdId).wait false)
    | _ => none
  | .checkDeadline =>
    match s.phase with
    | .grace deadlineMs =>
      if s.nowMs < deadlineMs then
        some { s with phase := .graceSleep deadlineMs (s.nowMs + reactivationPoll) }
      else some { s with phase := .disconnected }
    | _ => none
  | .poll =>
    match s.phase with
    | .graceSleep deadlineMs untilMs =>
      if untilMs ≤ s.nowMs then
        -- the session came back, and the watcher still goes by the overlay being engaged
        if s.count = 0 then some { s with phase := .grace deadlineMs } else some (s.wait s.wasZero)
      else none
    | _ => none
  | .checkSettle =>
    match s.phase with
    | .disconnected =>
      match s.installedAt with
      | some installedMs =>
        let elapsed := s.nowMs - installedMs
        if elapsed < engagedSettle then
          some { s with phase := .settling (s.nowMs + (engagedSettle - elapsed)) }
        else some { s with phase := .releasing }
      | none => some { s with phase := .releasing }
    | _ => none
  | .settled =>
    match s.phase with
    | .settling untilMs => if untilMs ≤ s.nowMs then some { s with phase := .releasing } else none
    | _ => none
  | .takeSlot =>
    match s.phase, s.slot with
    | .releasing, some ovr => some { s with slot := none, phase := .dropping ovr, attempt := none }
    | .releasing, none => some { s.wait true with attempt := none }
    | _, _ => none
  | .drop stuck =>
    match s.phase with
    | .dropping _ =>
      let s := { s with installedAt := none }
      if stuck = true ∧ settings.restartOnStuck = true then some { s with phase := .exited }
      else some ((s.gather settings settings.physicalMainId).wait true)
    | _ => none

/-- Guards that exist: the one in the slot and the one that the watcher has in hand. -/
def guards (s : Overlay T) : List T :=
  s.slot.toList ++
    match s.phase with
    | .installed ovr => [ovr]
    | .dropping ovr => [ovr]
    | _ => []

/-- At most one guard exists; and once the watcher waits without a permit, no guard is left if there
is no session, and otherwise an install was attempted since the slot was emptied and the slot has
what it returned. -/
def Follows (s : Overlay T) : Prop :=
  s.guards.length ≤ 1 ∧
    (s.phase = .waiting → s.permit = false →
      (s.count = 0 → s.slot = none) ∧
        (s.count ≠ 0 → ∃ result, s.attempt = some result ∧ s.slot = result))

/-- What the slot and the last install are while the watcher goes by a count. -/
def Engaged (s : Overlay T) : Prop :=
  if s.wasZero = true then s.slot = none else s.attempt = some s.slot

/-- What holds in a phase of the watcher. -/
def PhaseHolds (s : Overlay T) : Prop :=
  match s.phase with
  | .waiting => s.Engaged ∧ (s.permit = false → s.wasZero = decide (s.seen = 0))
  | .woken => s.Engaged
  | .debouncing _ | .installing => s.wasZero = true ∧ s.slot = none ∧ s.seen ≠ 0
  | .installed ovr =>
    s.wasZero = true ∧ s.slot = none ∧ s.seen ≠ 0 ∧ s.attempt = some (some ovr)
  | .grace _ | .graceSleep _ _ | .disconnected | .settling _ | .releasing =>
    s.wasZero = false ∧ s.attempt = some s.slot ∧ s.seen = 0
  | .dropping _ => s.wasZero = false ∧ s.slot = none ∧ s.seen = 0
  | .exited => s.slot = none

/-- The watcher knows the count unless it is about to load it or has a permit. -/
structure Consistent (s : Overlay T) : Prop where
  count : s.phase ≠ .woken → s.permit = false → s.count = s.seen
  phase : s.PhaseHolds

/-- Gathering windows changes nothing that the watcher goes by. -/
@[simp] theorem gather_eq (settings : Settings) (s : Overlay T) (displayId : UInt32) :
    ∃ gathered, s.gather settings displayId = { s with gathered := gathered } := by
  rw [gather]
  split
  · exact ⟨_, rfl⟩
  · exact ⟨s.gathered, rfl⟩

/-- A new overlay is consistent. -/
theorem consistent_start : Consistent (start : Overlay T) := by
  constructor
  · intro _ _
    rfl
  · exact ⟨rfl, fun _ => rfl⟩

/-- A change of the count leaves a permit. -/
theorem consistent_notify {s : Overlay T} (h : Consistent s) (count : UInt64) :
    Consistent { s with count := count, permit := true } := by
  have hphase := h.phase
  constructor
  · intro _ hpermit
    cases hpermit
  · simp only [PhaseHolds, Engaged] at hphase ⊢
    split <;> simp_all

/-- A step keeps an overlay consistent. -/
theorem consistent_step {settings : Settings} {s s' : Overlay T} {a : Action T}
    (h : Consistent s) (hstep : step settings s a = some s') : Consistent s' := by
  obtain ⟨hcount, hphase⟩ := h
  cases a with
  | enter | leave =>
    cases hstep
    exact consistent_notify ⟨hcount, hphase⟩ _
  | tick nowMs =>
    obtain ⟨-, heq⟩ := Option.ite_none_right_eq_some.mp hstep
    cases heq
    exact ⟨hcount, hphase⟩
  | wake =>
    simp only [step] at hstep
    split at hstep
    · next hwaiting _ =>
      cases hstep
      simp only [PhaseHolds, hwaiting] at hphase
      exact ⟨fun hne => absurd rfl hne, hphase.1⟩
    · cases hstep
  | loadCount =>
    simp only [step] at hstep
    split at hstep
    · next hwoken =>
      simp only [PhaseHolds, hwoken, Engaged] at hphase
      by_cases hzero : s.count = 0
      · rw [decide_eq_true hzero] at hstep
        cases hwas : s.wasZero with
        | true =>
          rw [hwas] at hstep hphase
          cases hstep
          exact ⟨fun _ _ => rfl, hphase, fun _ => (decide_eq_true hzero).symm⟩
        | false =>
          rw [hwas] at hstep hphase
          cases hstep
          exact ⟨fun _ _ => rfl, rfl, hphase, hzero⟩
      · rw [decide_eq_false hzero] at hstep
        cases hwas : s.wasZero with
        | true =>
          rw [hwas] at hstep hphase
          cases hstep
          exact ⟨fun _ _ => rfl, rfl, hphase, hzero⟩
        | false =>
          rw [hwas] at hstep hphase
          cases hstep
          exact ⟨fun _ _ => rfl, hphase, fun _ => (decide_eq_false hzero).symm⟩
    · cases hstep
  | debounced =>
    simp only [step] at hstep
    split at hstep
    · next untilMs hdebouncing =>
      simp only [PhaseHolds, hdebouncing] at hphase
      obtain ⟨hwas, hslot, hseen⟩ := hphase
      have hsame := hcount (by simp [hdebouncing])
      split at hstep
      · split at hstep
        · next hzero =>
          -- the count changed since it was loaded, so there is a permit
          have hpermit : s.permit = true := by
            by_contra hnone
            exact hseen ((hsame (eq_false_of_ne_true hnone)).symm.trans hzero)
          cases hstep
          refine ⟨fun _ => hsame, hslot, fun hnone => ?_⟩
          exact absurd (hnone.symm.trans hpermit) Bool.false_ne_true
        · cases hstep
          exact ⟨fun _ => hsame, hwas, hslot, hseen⟩
      · cases hstep
    · cases hstep
  | install result =>
    simp only [step] at hstep
    split at hstep
    · next ovr hinstalling =>
      simp only [PhaseHolds, hinstalling] at hphase
      obtain ⟨hwas, hslot, hseen⟩ := hphase
      have hsame := hcount (by simp [hinstalling])
      cases hstep
      exact ⟨fun _ => hsame, hwas, hslot, hseen, rfl⟩
    · next hinstalling =>
      simp only [PhaseHolds, hinstalling] at hphase
      obtain ⟨-, hslot, hseen⟩ := hphase
      have hsame := hcount (by simp [hinstalling])
      cases hstep
      exact ⟨fun _ => hsame, congrArg some hslot.symm, fun _ => (decide_eq_false hseen).symm⟩
    · cases hstep
  | storeSlot =>
    simp only [step] at hstep
    split at hstep
    · next ovr hinstalled =>
      simp only [PhaseHolds, hinstalled] at hphase
      obtain ⟨-, -, hseen, hattempt⟩ := hphase
      have hsame := hcount (by simp [hinstalled])
      obtain ⟨gathered, hgather⟩ := gather_eq settings { s with slot := some ovr } settings.vdId
      rw [hgather] at hstep
      cases hstep
      exact ⟨fun _ => hsame, hattempt, fun _ => (decide_eq_false hseen).symm⟩
    · cases hstep
  | checkDeadline =>
    simp only [step] at hstep
    split at hstep
    · next deadlineMs hgrace =>
      simp only [PhaseHolds, hgrace] at hphase
      have hsame := hcount (by simp [hgrace])
      split at hstep
      · cases hstep
        exact ⟨fun _ => hsame, hphase⟩
      · cases hstep
        exact ⟨fun _ => hsame, hphase⟩
    · cases hstep
  | poll =>
    simp only [step] at hstep
    split at hstep
    · next deadlineMs untilMs hsleep =>
      simp only [PhaseHolds, hsleep] at hphase
      obtain ⟨hwas, hattempt, hseen⟩ := hphase
      have hsame := hcount (by simp [hsleep])
      split at hstep
      · split at hstep
        · cases hstep
          exact ⟨fun _ => hsame, hwas, hattempt, hseen⟩
        · next hnonzero =>
          -- the session came back since the count was loaded, so there is a permit
          have hpermit : s.permit = true := by
            by_contra hnone
            exact hnonzero ((hsame (eq_false_of_ne_true hnone)).trans hseen)
          have hengaged : (s.wait s.wasZero).Engaged := by
            rw [Engaged, if_neg (by rw [wait, hwas]; exact Bool.false_ne_true)]
            exact hattempt
          cases hstep
          refine ⟨fun _ => hsame, hengaged, fun hnone => ?_⟩
          exact absurd (hnone.symm.trans hpermit) Bool.false_ne_true
      · cases hstep
    · cases hstep
  | checkSettle =>
    simp only [step] at hstep
    split at hstep
    · next hdisconnected =>
      simp only [PhaseHolds, hdisconnected] at hphase
      have hsame := hcount (by simp [hdisconnected])
      split at hstep
      · split at hstep
        · cases hstep
          exact ⟨fun _ => hsame, hphase⟩
        · cases hstep
          exact ⟨fun _ => hsame, hphase⟩
      · cases hstep
        exact ⟨fun _ => hsame, hphase⟩
    · cases hstep
  | settled =>
    simp only [step] at hstep
    split at hstep
    · next untilMs hsettling =>
      simp only [PhaseHolds, hsettling] at hphase
      have hsame := hcount (by simp [hsettling])
      obtain ⟨-, heq⟩ := Option.ite_none_right_eq_some.mp hstep
      cases heq
      exact ⟨fun _ => hsame, hphase⟩
    · cases hstep
  | takeSlot =>
    simp only [step] at hstep
    split at hstep
    · next ovr hreleasing hslot =>
      simp only [PhaseHolds, hreleasing] at hphase
      obtain ⟨hwas, -, hseen⟩ := hphase
      have hsame := hcount (by simp [hreleasing])
      cases hstep
      exact ⟨fun _ => hsame, hwas, rfl, hseen⟩
    · next hreleasing hslot =>
      simp only [PhaseHolds, hreleasing] at hphase
      obtain ⟨-, -, hseen⟩ := hphase
      have hsame := hcount (by simp [hreleasing])
      cases hstep
      exact ⟨fun _ => hsame, hslot, fun _ => (decide_eq_true hseen).symm⟩
    · cases hstep
  | drop stuck =>
    simp only [step] at hstep
    split at hstep
    · next ovr hdropping =>
      simp only [PhaseHolds, hdropping] at hphase
      obtain ⟨-, hslot, hseen⟩ := hphase
      have hsame := hcount (by simp [hdropping])
      split at hstep
      · cases hstep
        exact ⟨fun _ => hsame, hslot⟩
      · obtain ⟨gathered, hgather⟩ :=
          gather_eq settings { s with installedAt := none } settings.physicalMainId
        rw [hgather] at hstep
        cases hstep
        exact ⟨fun _ => hsame, hslot, fun _ => (decide_eq_true hseen).symm⟩
    · cases hstep

/-- The guard in hand is the only one. -/
theorem guards_length_of_consistent {s : Overlay T} (h : Consistent s) : s.guards.length ≤ 1 := by
  have hphase := h.phase
  have hslot : s.slot.toList.length ≤ 1 := by
    cases s.slot with
    | none => exact Nat.zero_le 1
    | some ovr => exact Nat.le_of_eq rfl
  cases hat : s.phase with
  | installed ovr | dropping ovr =>
    simp only [PhaseHolds, hat] at hphase
    rw [guards, hat, hphase.2.1]
    exact Nat.le_of_eq rfl
  | _ =>
    rw [guards, hat, List.append_nil]
    exact hslot

/-- A consistent overlay follows the sessions. -/
theorem follows_of_consistent {s : Overlay T} (h : Consistent s) : s.Follows := by
  refine ⟨guards_length_of_consistent h, fun hwaiting hpermit => ?_⟩
  have hphase := h.phase
  simp only [PhaseHolds, hwaiting, Engaged] at hphase
  obtain ⟨hengaged, hwas⟩ := hphase
  have hsame := h.count (by simp [hwaiting]) hpermit
  have hzero := hwas hpermit
  rw [← hsame] at hzero
  constructor
  · intro hcount
    rw [hzero, decide_eq_true hcount, if_pos rfl] at hengaged
    exact hengaged
  · intro hcount
    rw [hzero, decide_eq_false hcount, if_neg Bool.false_ne_true] at hengaged
    exact ⟨s.slot, hengaged, rfl⟩

/-- In every run the overlay follows the sessions. -/
theorem overlay_follows (settings : Settings) {acts : List (Action T)} {s : Overlay T}
    (hrun : run (step settings) start acts = some s) : s.Follows :=
  follows_of_consistent
    (run_invariant_of_step Consistent (fun _ _ _ h hstep => consistent_step h hstep)
      consistent_start hrun)

/-- A connection that is closed and opened again during the first pause, and a disconnection. -/
theorem overlay_follows_reconnect :
    ∃ s : Overlay ℕ, run (step ⟨4, true, 1, true⟩) start
        [.enter, .wake, .loadCount, .leave, .enter, .tick 750, .debounced, .install (some 7),
          .storeSlot, .wake, .loadCount, .leave, .wake, .loadCount, .checkDeadline, .tick 825,
          .poll, .tick 3300, .checkDeadline, .checkSettle, .tick 3800, .settled, .takeSlot,
          .drop false] = some s ∧
      s.gathered = [4, 1] ∧ s.Follows := by
  have hresult : (run (step ⟨4, true, 1, true⟩) (start : Overlay ℕ)
      [.enter, .wake, .loadCount, .leave, .enter, .tick 750, .debounced, .install (some 7),
        .storeSlot, .wake, .loadCount, .leave, .wake, .loadCount, .checkDeadline, .tick 825,
        .poll, .tick 3300, .checkDeadline, .checkSettle, .tick 3800, .settled, .takeSlot,
        .drop false]).any (fun s => s.gathered = [4, 1]) = true := by
    decide +kernel
  obtain ⟨s, hrun, hgathered⟩ := (Option.any_eq_true _ _).mp hresult
  exact ⟨s, hrun, of_decide_eq_true hgathered, overlay_follows _ hrun⟩

end Overlay

end Macrdp.OverlayWatcher
