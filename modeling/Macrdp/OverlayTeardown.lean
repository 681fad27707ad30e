import Macrdp.OverlayWatcher

/-!
# When the overlay is torn down

The watcher drops the guard when it has found the count of the sessions at zero for a while. It
looks at the count in intervals, and not at all any more when it lets the display settle. What is
expected is that no guard is dropped while there is a session, nor for a single gap between two
sessions that is shorter than the grace.
-/

namespace Macrdp.OverlayTeardown

open OverlayWatcher StepSystem

/-- A guard was dropped: the count at that time, and how long the count had been zero when the
watcher had found it so in one gap only. -/
structure Drop where
  count : UInt64
  gap : Option ℕ
  deriving DecidableEq

/-- There was no session, and no short gap was the only reason. -/
def Drop.Proper (d : Drop) : Prop :=
  d.count = 0 ∧ ∀ length, d.gap = some length → reactivationGrace ≤ length

/-- What is recorded of the sessions: when the count came to zero last, the beginning and the end of
the gap in which the watcher found it at zero first, and whether it found it so in a later one. Of
the time since the last look at the count it is recorded when a session came first and how many have
come and not left. -/
structure Record where
  zeroFrom : ℕ
  gapFrom : ℕ
  gapUntil : Option ℕ
  again : Bool
  arrivedAt : Option ℕ
  present : UInt64
  drops : List Drop
  deriving DecidableEq

def Record.new : Record := ⟨0, 0, none, false, none, 0, []⟩

/-- The count changes. -/
def Record.change (r : Record) (now : ℕ) (before after : UInt64) : Record :=
  { r with
    zeroFrom := if before ≠ 0 ∧ after = 0 then now else r.zeroFrom
    gapUntil := if before = 0 ∧ after ≠ 0 then some (r.gapUntil.getD now) else r.gapUntil
    arrivedAt := if before = 0 ∧ after ≠ 0 then some (r.arrivedAt.getD now) else r.arrivedAt
    present := r.present + (after - before) }

/-- The watcher finds the count at zero first. -/
def Record.first (r : Record) : Record :=
  { r with
    gapFrom := r.zeroFrom
    gapUntil := none
    again := false
    arrivedAt := none
    present := 0 }

/-- The watcher finds the count at zero again. -/
def Record.look (r : Record) : Record :=
  { r with again := r.again || r.gapUntil.isSome, arrivedAt := none, present := 0 }

/-- How long the only gap is. -/
def Record.gap (r : Record) (now : ℕ) : Option ℕ :=
  if r.again then none else some (r.gapUntil.getD now - r.gapFrom)

variable {T : Type*}

/-- The overlay and the record. -/
structure Watch (T : Type*) where
  overlay : Overlay T
  record : Record
  deriving DecidableEq

def Watch.new : Watch T := ⟨.start, .new⟩

/-- What is recorded of a step. -/
def Watch.recordAfter (w : Watch T) : Action T → Record
  | .enter => w.record.change w.overlay.nowMs w.overlay.count (w.overlay.count + 1)
  | .leave => w.record.change w.overlay.nowMs w.overlay.count (w.overlay.count - 1)
  | .loadCount =>
    if w.overlay.wasZero = false ∧ w.overlay.count = 0 then w.record.first else w.record
  | .poll => if w.overlay.count = 0 then w.record.look else w.record
  | .storeSlot =>
    -- A guard that is in the slot is dropped for the new one.
    if w.overlay.slot.isSome then
      { w.record with drops := w.record.drops ++ [⟨w.overlay.count, none⟩] }
    else w.record
  | .drop _ =>
    { w.record with
      drops := w.record.drops ++ [⟨w.overlay.count, w.record.gap w.overlay.nowMs⟩] }
  | _ => w.record

/-- A step of the overlay, with its record. -/
def Watch.step (settings : Settings) (w : Watch T) (a : Action T) : Option (Watch T) :=
  (w.overlay.step settings a).map fun overlay => ⟨overlay, w.recordAfter a⟩

/-- Every guard was dropped properly. -/
def Proper (w : Watch T) : Prop := ∀ d ∈ w.record.drops, d.Proper

/-- Whether the watcher drops its guard. -/
def isDrop : Action T → Bool
  | .drop _ => true
  | _ => false

/-- The sessions that came since the watcher's last look have left when it drops the guard, and the
first of them came when the gap was as long as the grace, if it was the only one. -/
def Timely (w : Watch T) (a : Action T) : Prop :=
  isDrop a = true → w.record.present = 0 ∧ (w.record.again = false →
    ∀ arrived ∈ w.record.arrivedAt, w.record.gapFrom + reactivationGrace ≤ arrived)

instance (w : Watch T) : DecidablePred (Timely w) := fun a =>
  inferInstanceAs (Decidable (isDrop a = true → w.record.present = 0 ∧ (w.record.again = false →
    ∀ arrived ∈ w.record.arrivedAt, w.record.gapFrom + reactivationGrace ≤ arrived)))

/-! ## What the record says -/

/-- Whether the watcher has found the count at zero, and until when it goes on looking. -/
def closing : Phase T → Option (Option ℕ)
  | .grace deadlineMs => some (some deadlineMs)
  | .graceSleep deadlineMs _ => some (some deadlineMs)
  | .disconnected => some none
  | .settling _ => some none
  | .releasing => some none
  | .dropping _ => some none
  | _ => none

/-- The sessions are those that came since the last look, which was in the gap that is recorded. -/
structure Looked (w : Watch T) : Prop where
  count : w.overlay.count = w.record.present
  gap : w.record.again = false → w.record.gapUntil = w.record.arrivedAt

/-- What is known of the overlay and the record: the watcher does not look any more only when the
gap has had the time to last as long as the grace. -/
structure Known (w : Watch T) : Prop where
  consistent : w.overlay.Consistent
  past : w.record.zeroFrom ≤ w.overlay.nowMs
  looked : closing w.overlay.phase ≠ none → Looked w
  grace : ∀ deadlineMs, closing w.overlay.phase = some (some deadlineMs) →
    w.record.gapFrom + reactivationGrace ≤ deadlineMs
  ended : closing w.overlay.phase = some none →
    w.record.gapFrom + reactivationGrace ≤ w.overlay.nowMs

variable {settings : Settings} {w w' : Watch T} {s s' : Overlay T}

theorem Known.new : Known (.new : Watch T) :=
  ⟨Overlay.consistent_start, Nat.le_refl 0, fun h => absurd rfl h, nofun, nofun⟩

/-- A change of the count is recorded with it. -/
theorem looked_change (h : Looked w) (overlay : Overlay T) (now : ℕ) :
    Looked ⟨overlay, w.record.change now w.overlay.count overlay.count⟩ where
  count := by
    have hcount := h.count
    simp only [Record.change, ← hcount]
    rw [UInt64.add_comm, UInt64.sub_add_cancel]
  gap hagain := by
    simp only [Record.change, h.gap hagain]

/-- A session that comes or leaves keeps what is known. -/
theorem Known.change (h : Known w) (count : UInt64) :
    Known ⟨{ w.overlay with count := count, permit := true },
      w.record.change w.overlay.nowMs w.overlay.count count⟩ := by
  refine ⟨Overlay.consistent_notify h.consistent count, ?_, fun hclosing =>
    looked_change (h.looked hclosing) { w.overlay with count := count, permit := true } _,
    h.grace, h.ended⟩
  change (if _ then w.overlay.nowMs else w.record.zeroFrom) ≤ w.overlay.nowMs
  split
  next => exact Nat.le_refl _
  next => exact h.past

/-- What a step of the watcher or the clock that does not load the count does. -/
inductive Quiet (s s' : Overlay T) : Prop where
  | kept (hcount : s'.count = s.count) (hnow : s.nowMs ≤ s'.nowMs)
      (hphase : closing s'.phase = none ∨ closing s'.phase = closing s.phase)
  | late (deadlineMs : ℕ) (hcount : s'.count = s.count) (hnow : s'.nowMs = s.nowMs)
      (hdeadline : deadlineMs ≤ s.nowMs) (hbefore : closing s.phase = some (some deadlineMs))
      (hafter : closing s'.phase = some none)

/-- A quiet step keeps what is known. -/
theorem Known.quiet (h : Known w) (hs : Quiet w.overlay s') (hconsistent : s'.Consistent)
    (drops : List Drop) : Known ⟨s', { w.record with drops := drops }⟩ := by
  cases hs with
  | kept hcount hnow hphase =>
    have hlooked : closing s'.phase ≠ none → closing s'.phase = closing w.overlay.phase :=
      fun hne => hphase.resolve_left hne
    refine ⟨hconsistent, Nat.le_trans h.past hnow, fun hne => ?_, fun deadlineMs hgrace => ?_,
      fun hover => ?_⟩
    · have hbefore := h.looked (hlooked hne ▸ hne)
      exact ⟨hcount.trans hbefore.count, hbefore.gap⟩
    · exact h.grace deadlineMs ((hlooked (by rw [hgrace]; nofun)).symm.trans hgrace)
    · have hbefore := h.ended ((hlooked (by rw [hover]; nofun)).symm.trans hover)
      exact Nat.le_trans hbefore hnow
  | late deadlineMs hcount hnow hdeadline hbefore hafter =>
    have hlooked := h.looked (by rw [hbefore]; nofun)
    have hgrace := h.grace deadlineMs hbefore
    refine ⟨hconsistent, hnow ▸ h.past, fun _ => ⟨hcount.trans hlooked.count, hlooked.gap⟩,
      fun d hd => ?_, fun _ => ?_⟩
    · rw [hafter] at hd
      cases hd
    · change w.record.gapFrom + reactivationGrace ≤ s'.nowMs
      omega

/-- A quiet step that is not recorded keeps what is known. -/
theorem Known.still (h : Known w) (hs : Quiet w.overlay s') (hconsistent : s'.Consistent) :
    Known ⟨s', w.record⟩ := h.quiet hs hconsistent w.record.drops

/-- The steps of the watcher that do not load the count are quiet. -/
theorem step_quiet {a : Action T} (hs : s.step settings a = some s') (henter : a ≠ .enter)
    (hleave : a ≠ .leave) (hload : a ≠ .loadCount) (hpoll : a ≠ .poll) : Quiet s s' := by
  cases a with
  | enter => exact absurd rfl henter
  | leave => exact absurd rfl hleave
  | loadCount => exact absurd rfl hload
  | poll => exact absurd rfl hpoll
  | tick nowMs =>
    obtain ⟨hle, heq⟩ := Option.ite_none_right_eq_some.mp hs
    cases heq
    exact .kept rfl hle (.inr rfl)
  | wake =>
    simp only [Overlay.step] at hs
    split at hs
    next =>
      cases hs
      exact .kept rfl (Nat.le_refl _) (.inl rfl)
    next => cases hs
  | debounced =>
    simp only [Overlay.step] at hs
    split at hs
    next =>
      split at hs
      next =>
        split at hs
        next =>
          cases hs
          exact .kept rfl (Nat.le_refl _) (.inl rfl)
        next =>
          cases hs
          exact .kept rfl (Nat.le_refl _) (.inl rfl)
      next => cases hs
    next => cases hs
  | install result =>
    simp only [Overlay.step] at hs
    split at hs
    next =>
      cases hs
      exact .kept rfl (Nat.le_refl _) (.inl rfl)
    next =>
      cases hs
      exact .kept rfl (Nat.le_refl _) (.inl rfl)
    next => cases hs
  | storeSlot =>
    simp only [Overlay.step] at hs
    split at hs
    next ovr hphase =>
      obtain ⟨gathered, hgather⟩ :=
        Overlay.gather_eq settings { s with slot := some ovr } settings.vdId
      rw [hgather] at hs
      cases hs
      exact .kept rfl (Nat.le_refl _) (.inl rfl)
    next => cases hs
  | checkDeadline =>
    simp only [Overlay.step] at hs
    split at hs
    next deadlineMs hphase =>
      split at hs
      next =>
        cases hs
        exact .kept rfl (Nat.le_refl _) (.inr (by rw [hphase]; rfl))
      next hlate =>
        cases hs
        exact .late deadlineMs rfl rfl (Nat.le_of_not_lt hlate) (by rw [hphase]; rfl) rfl
    next => cases hs
  | checkSettle =>
    simp only [Overlay.step] at hs
    split at hs
    next hphase =>
      have hclosing : closing s.phase = some none := by rw [hphase]; rfl
      split at hs
      next =>
        split at hs
        next =>
          cases hs
          exact .kept rfl (Nat.le_refl _) (.inr hclosing.symm)
        next =>
          cases hs
          exact .kept rfl (Nat.le_refl _) (.inr hclosing.symm)
      next =>
        cases hs
        exact .kept rfl (Nat.le_refl _) (.inr hclosing.symm)
    next => cases hs
  | settled =>
    simp only [Overlay.step] at hs
    split at hs
    next untilMs hphase =>
      obtain ⟨-, heq⟩ := Option.ite_none_right_eq_some.mp hs
      cases heq
      exact .kept rfl (Nat.le_refl _) (.inr (by rw [hphase]; rfl))
    next => cases hs
  | takeSlot =>
    simp only [Overlay.step] at hs
    split at hs
    next ovr hphase hslot =>
      cases hs
      exact .kept rfl (Nat.le_refl _) (.inr (by rw [hphase]; rfl))
    next =>
      cases hs
      exact .kept rfl (Nat.le_refl _) (.inl rfl)
    next => cases hs
  | drop stuck =>
    simp only [Overlay.step] at hs
    split at hs
    next ovr hphase =>
      split at hs
      next =>
        cases hs
        exact .kept rfl (Nat.le_refl _) (.inl rfl)
      next =>
        obtain ⟨gathered, hgather⟩ :=
          Overlay.gather_eq settings { s with installedAt := none } settings.physicalMainId
        rw [hgather] at hs
        cases hs
        exact .kept rfl (Nat.le_refl _) (.inl rfl)
    next => cases hs

/-- The look with which the watcher begins. -/
theorem Known.loadCount (h : Known w) (hs : w.overlay.step settings .loadCount = some s') :
    Known ⟨s', w.recordAfter .loadCount⟩ := by
  have hconsistent := Overlay.consistent_step h.consistent hs
  simp only [Overlay.step] at hs
  split at hs
  next hphase =>
    by_cases hlook : w.overlay.wasZero = false ∧ w.overlay.count = 0
    · have hrecord : w.recordAfter .loadCount = w.record.first := if_pos hlook
      rw [hrecord]
      rw [decide_eq_true hlook.2, hlook.1] at hs
      cases hs
      refine ⟨hconsistent, h.past, fun _ => ⟨hlook.2, fun _ => rfl⟩, fun deadlineMs hgrace => ?_,
        fun hended => ?_⟩
      · cases hgrace
        exact Nat.add_le_add_right h.past _
      · cases hended
    · have hrecord : w.recordAfter .loadCount = w.record := if_neg hlook
      rw [hrecord]
      refine h.still ?_ hconsistent
      split at hs
      next =>
        cases hs
        exact .kept rfl (Nat.le_refl _) (.inl rfl)
      next hwas hzero => exact absurd ⟨hwas, of_decide_eq_true hzero⟩ hlook
      next =>
        cases hs
        exact .kept rfl (Nat.le_refl _) (.inl rfl)
  next => cases hs

/-- A look while the watcher waits for the session to come back. -/
theorem Known.poll (h : Known w) (hs : w.overlay.step settings .poll = some s') :
    Known ⟨s', w.recordAfter .poll⟩ := by
  have hconsistent := Overlay.consistent_step h.consistent hs
  simp only [Overlay.step] at hs
  split at hs
  next deadlineMs untilMs hphase =>
    have hclosing : closing w.overlay.phase = some (some deadlineMs) := by
      rw [hphase]
      rfl
    split at hs
    next =>
      split at hs
      next hzero =>
        have hrecord : w.recordAfter .poll = w.record.look := if_pos hzero
        cases hs
        rw [hrecord]
        refine ⟨hconsistent, h.past, fun _ => ⟨hzero, fun hagain => ?_⟩, fun d hd => ?_,
          fun hended => ?_⟩
        · have hnone := (Bool.or_eq_false_iff.mp hagain).2
          have hempty : w.record.gapUntil = none := by
            refine Option.not_isSome_iff_eq_none.mp ?_
            rw [hnone]
            exact Bool.false_ne_true
          exact hempty
        · cases hd
          exact h.grace deadlineMs hclosing
        · cases hended
      next hcount =>
        have hrecord : w.recordAfter .poll = w.record := if_neg hcount
        cases hs
        rw [hrecord]
        exact h.still (.kept rfl (Nat.le_refl _) (.inl rfl)) hconsistent
    next => cases hs
  next => cases hs

theorem Known.step {a : Action T} (h : Known w) (hs : w.step settings a = some w') : Known w' := by
  obtain ⟨s', hs', rfl⟩ := Option.map_eq_some_iff.mp hs
  have hconsistent := Overlay.consistent_step h.consistent hs'
  cases a with
  | enter | leave =>
    cases hs'
    exact h.change _
  | loadCount => exact h.loadCount hs'
  | poll => exact h.poll hs'
  | storeSlot =>
    have hquiet := step_quiet hs' nofun nofun nofun nofun
    simp only [Watch.recordAfter]
    split
    next => exact h.quiet hquiet hconsistent _
    next => exact h.still hquiet hconsistent
  | drop stuck => exact h.quiet (step_quiet hs' nofun nofun nofun nofun) hconsistent _
  | _ => exact h.still (step_quiet hs' nofun nofun nofun nofun) hconsistent

/-! ## The whole -/

/-- A guard is only put into an empty slot. -/
theorem storeSlot_empty (h : w.overlay.Consistent)
    (hs : w.overlay.step settings .storeSlot = some s') : w.overlay.slot = none := by
  have hphase := h.phase
  simp only [Overlay.step] at hs
  split at hs
  next ovr hinstalled =>
    simp only [Overlay.PhaseHolds, hinstalled] at hphase
    exact hphase.2.1
  next => cases hs

/-- A guard that is dropped is dropped when the watcher does not look any more. -/
theorem drop_closing {stuck : Bool} (hs : s.step settings (.drop stuck) = some s') :
    closing s.phase = some none := by
  simp only [Overlay.step] at hs
  split at hs
  next ovr hdropping =>
    rw [hdropping]
    rfl
  next => cases hs

/-- Only the two steps that can drop a guard record one. -/
theorem recordAfter_drops {a : Action T} (hstore : a ≠ .storeSlot)
    (hdrop : ∀ stuck, a ≠ .drop stuck) : (w.recordAfter a).drops = w.record.drops := by
  cases a with
  | storeSlot => exact absurd rfl hstore
  | drop stuck => exact absurd rfl (hdrop stuck)
  | loadCount | poll =>
    simp only [Watch.recordAfter]
    split
    next => rfl
    next => rfl
  | _ => rfl

/-- A guard is dropped properly exactly if that is timely. -/
theorem proper_drop_iff (h : Known w) {stuck : Bool}
    (hclosing : closing w.overlay.phase = some none) :
    Drop.Proper ⟨w.overlay.count, w.record.gap w.overlay.nowMs⟩ ↔ Timely w (.drop stuck) := by
  have hlooked := h.looked (by rw [hclosing]; nofun)
  have hover := h.ended hclosing
  have hgap : (∀ length, w.record.gap w.overlay.nowMs = some length → reactivationGrace ≤ length) ↔
      (w.record.again = false →
        ∀ arrived ∈ w.record.arrivedAt, w.record.gapFrom + reactivationGrace ≤ arrived) := by
    unfold Record.gap
    cases hagain : w.record.again with
    | true => exact ⟨fun _ => nofun, fun _ => nofun⟩
    | false =>
      rw [hlooked.gap hagain, if_neg Bool.false_ne_true]
      cases harrived : w.record.arrivedAt with
      | none =>
        refine ⟨fun _ _ => nofun, fun _ length hlength => ?_⟩
        cases hlength
        change reactivationGrace ≤ w.overlay.nowMs - w.record.gapFrom
        omega
      | some arrived =>
        constructor
        · intro hlong _ t ht
          cases ht
          have hlength := hlong _ rfl
          change reactivationGrace ≤ arrived - w.record.gapFrom at hlength
          have hpos : 0 < reactivationGrace := by decide
          omega
        · intro hlate length hlength
          have hle := hlate rfl arrived rfl
          cases hlength
          change reactivationGrace ≤ arrived - w.record.gapFrom
          omega
  unfold Drop.Proper Timely
  rw [hgap, hlooked.count]
  exact ⟨fun h _ => h, fun h => h rfl⟩

/-- A step keeps the drops proper exactly if it is timely. -/
theorem proper_step_iff {a : Action T} (h : Known w) (hg : Proper w)
    (hs : w.step settings a = some w') : Proper w' ↔ Timely w a := by
  obtain ⟨s', hs', rfl⟩ := Option.map_eq_some_iff.mp hs
  have hsame : a ≠ .storeSlot → (∀ stuck, a ≠ .drop stuck) → Proper ⟨s', w.recordAfter a⟩ :=
    fun hstore hdrop d hd => hg d (recordAfter_drops hstore hdrop ▸ hd)
  cases a with
  | drop stuck =>
    rw [← proper_drop_iff h (drop_closing hs')]
    constructor
    · exact fun hproper => hproper _ (List.mem_append_right _ List.mem_cons_self)
    · intro hproper d hd
      cases List.mem_append.mp hd with
      | inl hold => exact hg d hold
      | inr hnew =>
        rw [List.mem_singleton.mp hnew]
        exact hproper
  | storeSlot =>
    have hrecord : w.recordAfter .storeSlot = w.record := by
      refine if_neg ?_
      rw [storeSlot_empty h.consistent hs']
      exact Bool.false_ne_true
    rw [hrecord]
    exact iff_of_true hg nofun
  | _ => exact iff_of_true (hsame nofun nofun) nofun

/-- All along a run guards are dropped when there is no session and not for a short gap, exactly if
every drop is timely. -/
theorem proper_iff_timely {acts : List (Action T)} {t : Watch T}
    (hrun : run (Watch.step settings) .new acts = some t) :
    (∀ before u, before <+: acts → run (Watch.step settings) .new before = some u → Proper u) ↔
      Meets (Watch.step settings) Timely .new acts :=
  prefixes_iff_meets_of_iff (fun _ => True) (fun _ _ _ h hs => Known.step h hs)
    (fun _ _ _ _ h hg hs => proper_step_iff h hg hs) Known.new nofun hrun fun _ _ => trivial

/-- A client connects, and `pause` later it leaves. The watcher looks at the count until it gives
up. -/
def visit (pause looks : ℕ) : List (Action ℕ) :=
  [.enter, .wake, .loadCount, .tick 750, .debounced, .install (some 7), .storeSlot,
    .tick (750 + pause), .leave, .wake, .loadCount] ++
    (List.range looks).flatMap fun i =>
      [.checkDeadline, .tick (750 + pause + (i + 1) * 75), .poll]

/-- The guard of a client that does not come back is dropped. -/
theorem proper_iff_timely_visit : ∃ t : Watch ℕ,
    run (Watch.step ⟨4, false, 1, false⟩) .new (visit 3000 34 ++
      [.checkDeadline, .checkSettle, .takeSlot, .drop false]) = some t ∧
      t.record.drops = [⟨0, some 2550⟩] ∧ Proper t := by
  have hresult : (run (Watch.step ⟨4, false, 1, false⟩) (.new : Watch ℕ) (visit 3000 34 ++
      [.checkDeadline, .checkSettle, .takeSlot, .drop false])).any
        (fun t => t.record.drops = [⟨0, some 2550⟩]) = true := by
    decide +kernel
  have hmeets : Meets (Watch.step ⟨4, false, 1, false⟩) Timely (.new : Watch ℕ) (visit 3000 34 ++
      [.checkDeadline, .checkSettle, .takeSlot, .drop false]) := by
    have htimely : meetsBool (Watch.step ⟨4, false, 1, false⟩) (fun w a => decide (Timely w a))
        (.new : Watch ℕ) (visit 3000 34 ++
          [.checkDeadline, .checkSettle, .takeSlot, .drop false]) = true := by
      decide +kernel
    exact (meetsBool_iff.mp htimely).mono fun _ _ => of_decide_eq_true
  obtain ⟨t, hrun, hdrops⟩ := (Option.any_eq_true _ _).mp hresult
  exact ⟨t, hrun, of_decide_eq_true hdrops,
    (proper_iff_timely hrun).mpr hmeets _ _ List.prefix_rfl hrun⟩

/-- A client that comes back while the display settles loses the guard. -/
theorem not_proper_visit : ¬ ∀ (settings : Settings) (acts : List (Action ℕ)) (t : Watch ℕ),
    run (Watch.step settings) .new acts = some t → Proper t := by
  intro h
  have hresult : (run (Watch.step ⟨4, false, 1, false⟩) (.new : Watch ℕ) (visit 50 34 ++
      [.checkDeadline, .checkSettle, .enter, .tick 3750, .settled, .takeSlot, .drop false])).any
        (fun t => t.record.drops = [⟨1, some 2550⟩]) = true := by
    decide +kernel
  obtain ⟨t, hrun, hdrops⟩ := (Option.any_eq_true _ _).mp hresult
  have hproper := h _ _ t hrun ⟨1, some 2550⟩ (by
    rw [of_decide_eq_true hdrops]
    exact List.mem_cons_self)
  exact absurd hproper.1 (by decide)

end Macrdp.OverlayTeardown
