import Mathlib.Data.Finset.Card
import Macrdp.StepSystem

/-!
# Shield windows

While a client is connected, a helper process covers every screen but the virtual display with a
black window. A guard raises the windows when it is installed and lowers them when it is dropped;
in between it has them re-fitted after each change of the display, on threads of their own. Every
command travels on a connection of its own, and the helper serves the connections one by one in the
order in which they were made.
-/

namespace Macrdp.ShieldLifetime

open StepSystem

/-! ## The helper -/

/-- A command of the helper. -/
inductive Command where
  /-- Cover every screen but these. -/
  | show (excludeIds : List UInt32)
  /-- Uncover all. -/
  | hide
  deriving DecidableEq, Repr

/-- The helper and the screens of the system. -/
structure ShieldController where
  /-- Screens that have a window. -/
  shields : Finset UInt32
  excluded : Finset UInt32
  active : Bool
  screens : Finset UInt32
  deriving DecidableEq

namespace ShieldController

/-- Derive the windows from the screens. -/
def applyShields (c : ShieldController) : ShieldController × ℕ :=
  if c.active = true then
    let live := c.screens \ c.excluded
    let kept := c.shields ∩ live
    let shields := kept ∪ live
    ({ c with shields := shields }, shields.card)
  else (c, 0)

/-- Execute a command, with the number of covered screens. -/
def execute (c : ShieldController) : Command → ShieldController × ℕ
  | .show excludeIds =>
    applyShields { c with excluded := excludeIds.toFinset, active := true }
  | .hide => ({ c with shields := ∅, active := false }, 0)

/-- No screen is covered, nor will be after a change of the screens. -/
def IsDown (c : ShieldController) : Prop := c.active = false ∧ c.shields = ∅

/-- A change of the screens does not raise windows that are down. -/
theorem IsDown.applyShields {c : ShieldController} (h : c.IsDown) : c.applyShields.1.IsDown := by
  rw [ShieldController.applyShields, if_neg (by rw [h.1]; exact Bool.false_ne_true)]
  exact h

/-- A helper that was shown is active. -/
@[simp] theorem active_execute_show (c : ShieldController) (excludeIds : List UInt32) :
    (c.execute (.show excludeIds)).1.active = true := by
  rw [execute, ShieldController.applyShields, if_pos rfl]

/-- A helper that was hidden is down. -/
theorem isDown_execute_hide (c : ShieldController) : (c.execute .hide).1.IsDown := ⟨rfl, rfl⟩

end ShieldController

/-! ## The guard -/

/-- Who sends a command. -/
inductive Sender where
  /-- An install. -/
  | raise
  /-- An install that fails. -/
  | lower
  /-- The drop of a guard. -/
  | drop
  /-- A thread of its own. -/
  | refit
  deriving DecidableEq, Repr

/-- A connection that the helper has yet to serve. -/
structure Connection where
  sender : Sender
  command : Command
  /-- Number of the install at which it was made. -/
  session : ℕ
  /-- Number of the call that waits for the reply. -/
  call : ℕ
  deriving DecidableEq, Repr

/-- Where the installs and drops are. -/
inductive Phase where
  | idle
  /-- About to ask for so many screens to be covered, after so many attempts. -/
  | raising (need attempt : ℕ)
  | raised
  /-- The arrangement is made, and the windows are about to be fitted to it. -/
  | refitting
  /-- The install has failed. -/
  | lowering
  /-- There is a guard. -/
  | held
  | dropping
  deriving DecidableEq, Repr

/-- How often an install asks for the windows. -/
def showAttempts : ℕ := 7

/-- What the guards are installed with. -/
structure Settings where
  virtualId : UInt32
  keepPhysicalMain : Bool
  deriving DecidableEq, Repr

/-- The helper, the connections, the threads and the guard. -/
structure System where
  helper : ShieldController
  backlog : List Connection
  /-- Threads that have yet to connect, with the display that they exclude. -/
  refits : List UInt32
  phase : Phase
  /-- Call whose reply the install or drop waits for. -/
  awaiting : Option ℕ
  reply : Option ℕ
  calls : ℕ
  /-- How many installs have begun. -/
  installs : ℕ
  /-- Install whose guard was dropped, once the windows are down. -/
  lowered : Option ℕ
  deriving DecidableEq

/-- A step of the guard, of a thread, of the helper or of the screens. -/
inductive Action where
  | install (need : ℕ)
  /-- An install that comes to an end before it asks for the windows. -/
  | refuse
  /-- The pending call connects, or fails to. -/
  | connect (ok : Bool)
  | reply
  | timeout
  /-- The install arranges the displays, or fails to. -/
  | arrange (ok : Bool)
  | reassert
  /-- A thread connects, or fails to. -/
  | refit (index : ℕ) (ok : Bool)
  | drop
  /-- The helper takes a connection and executes the command, if it receives it. -/
  | serve (received : Bool)
  | screens (ids : Finset UInt32)
  /-- The helper is told that the screens have changed. -/
  | notify
  deriving DecidableEq

namespace System

/-- Nothing is installed yet. -/
def start (screens : Finset UInt32) : System where
  helper := ⟨∅, ∅, false, screens⟩
  backlog := []
  refits := []
  phase := .idle
  awaiting := none
  reply := none
  calls := 0
  installs := 0
  lowered := none

/-- What the install or drop is about to send. -/
def pendingCall (settings : Settings) (s : System) : Option (Sender × Command) :=
  match s.phase with
  | .raising _ _ | .refitting => some (.raise, .show [settings.virtualId])
  | .lowering => some (.lower, .hide)
  | .dropping => some (.drop, .hide)
  | _ => none

/-- How the install or drop goes on after a call, with the number of covered screens if there was a
reply. -/
def finishCall (s : System) (result : Option ℕ) : System :=
  let s := { s with awaiting := none, reply := none }
  match s.phase with
  | .raising need attempt =>
    if result.any (need ≤ ·) = true then { s with phase := .raised }
    else if attempt + 1 < showAttempts then { s with phase := .raising need (attempt + 1) }
    else { s with phase := .lowering }
  | .refitting => { s with phase := .held }
  | .lowering | .dropping => { s with phase := .idle }
  | _ => s

/-- The helper executes a command, replies, and is down after the drop of a guard. -/
def execute (s : System) (c : Connection) : System :=
  let executed := s.helper.execute c.command
  { s with
    helper := executed.1
    reply := if s.awaiting = some c.call ∧ c.sender ≠ .refit then some (min executed.2 0xFFFF)
      else s.reply
    lowered := if c.sender = .drop then some c.session else s.lowered }

/-- One step; `none` if it cannot happen. -/
def step (settings : Settings) (s : System) : Action → Option System
  | .install need =>
    if s.phase = .idle then
      some { s with phase := .raising need 0, installs := s.installs + 1 }
    else none
  | .refuse =>
    match s.phase, s.awaiting with
    | .raising _ 0, none => some { s with phase := .idle }
    | _, _ => none
  | .connect ok =>
    match s.awaiting, s.pendingCall settings with
    | none, some (sender, command) =>
      if ok = true then
        some { s with
          backlog := s.backlog ++ [⟨sender, command, s.installs, s.calls⟩]
          awaiting := some s.calls
          calls := s.calls + 1 }
      else some (s.finishCall none)
    | _, _ => none
  | .reply =>
    match s.awaiting, s.reply with
    | some _, some count => some (s.finishCall (some count))
    | _, _ => none
  | .timeout =>
    match s.awaiting with
    | some _ => some (s.finishCall none)
    | none => none
  | .arrange ok =>
    if s.phase = .raised then
      if settings.keepPhysicalMain = true then some { s with phase := .held }
      else if ok = true then some { s with phase := .refitting }
      else some { s with phase := .lowering }
    else none
  | .reassert =>
    if s.phase = .held then some { s with refits := s.refits ++ [settings.virtualId] } else none
  | .refit index ok =>
    s.refits[index]?.map fun vd =>
      let s := { s with refits := s.refits.eraseIdx index }
      if ok = true then
        { s with backlog := s.backlog ++ [⟨.refit, .show [vd], s.installs, 0⟩] }
      else s
  | .drop => if s.phase = .held then some { s with phase := .dropping } else none
  | .serve received =>
    match s.backlog with
    | c :: rest =>
      let s := { s with backlog := rest }
      if received = true then some (s.execute c) else some s
    | [] => none
  | .screens ids => some { s with helper := { s.helper with screens := ids } }
  | .notify => some { s with helper := s.helper.applyShields.1 }

/-- A guard was dropped, its windows were taken down, and no install has begun since. -/
def Released (s : System) : Prop := s.lowered = some s.installs

instance (s : System) : Decidable s.Released :=
  inferInstanceAs (Decidable (s.lowered = some s.installs))

/-- There is a guard, be it that it is being dropped. -/
def guarded (s : System) : Prop := s.phase = .held ∨ s.phase = .dropping

/-- The windows stay down while no guard is there, and with a guard no command leaves another
display than its own uncovered. -/
def Proper (settings : Settings) (s : System) (a : Action) : Prop :=
  (∀ s', step settings s a = some s' → s'.Released → s'.helper.IsDown) ∧
    (a = .serve true → s.guarded → ∀ c ∈ s.backlog.head?, ∀ excludeIds,
      c.command = .show excludeIds → ∀ id ∈ excludeIds, id = settings.virtualId)

/-- The helper does not execute the command of a thread once the guard is dropped and the windows
are down. -/
def orderly (s : System) : Action → Bool
  | .serve true => s.backlog.head?.all fun c => c.sender ≠ .refit || !decide s.Released
  | _ => true

/-- What holds of the connections and the phase in an orderly run. -/
structure Consistent (settings : Settings) (s : System) : Prop where
  down : s.Released → s.helper.IsDown
  shows : ∀ c ∈ s.backlog, ∀ excludeIds, c.command = .show excludeIds →
    excludeIds = [settings.virtualId]
  /-- The commands of the threads are those that raise the windows. -/
  refitShows : ∀ c ∈ s.backlog, c.sender = .refit → ∃ excludeIds, c.command = .show excludeIds
  hides : ∀ c ∈ s.backlog, c.sender = .drop ∨ c.sender = .lower → c.command = .hide
  refits : ∀ vd ∈ s.refits, vd = settings.virtualId
  sessions : ∀ c ∈ s.backlog, c.session ≤ s.installs
  loweredLe : ∀ session ∈ s.lowered, session ≤ s.installs
  /-- The last install has sent all its commands before the drop of its guard sends one. -/
  ordered : s.backlog.Pairwise fun c d =>
    c.sender = .drop → c.session = s.installs → d.sender ≠ .raise
  released : s.Released → ∀ c ∈ s.backlog, c.sender ≠ .raise
  /-- Once the drop has sent its command no guard is held before the next install. -/
  ended : (s.Released ∨ ∃ c ∈ s.backlog, c.sender = .drop ∧ c.session = s.installs) →
    s.phase = .idle ∨ s.phase = .dropping

/-- A new system is consistent. -/
theorem consistent_start (settings : Settings) (screens : Finset UInt32) :
    Consistent settings (start screens) where
  down := nofun
  shows := nofun
  refitShows := nofun
  hides := nofun
  refits := nofun
  sessions := nofun
  loweredLe := nofun
  ordered := List.Pairwise.nil
  released := nofun
  ended := fun _ => Or.inl rfl

/-- What the end of a call leaves as it was, and where it goes from a drop. -/
theorem finishCall_frame (s : System) (result : Option ℕ) :
    (s.finishCall result).helper = s.helper ∧ (s.finishCall result).backlog = s.backlog ∧
      (s.finishCall result).refits = s.refits ∧ (s.finishCall result).installs = s.installs ∧
      (s.finishCall result).lowered = s.lowered ∧
      (s.phase = .idle ∨ s.phase = .dropping → (s.finishCall result).phase = .idle) := by
  simp only [finishCall]
  cases hphase : s.phase with
  | raising need attempt =>
    simp only
    split
    · simp
    · split <;> simp
  | _ => simp

variable {settings : Settings} {s : System}

/-- A call that comes to an end. -/
theorem Consistent.finishCall (h : Consistent settings s)
    (result : Option ℕ) : Consistent settings (s.finishCall result) := by
  obtain ⟨hhelper, hbacklog, hrefits, hinstalls, hlowered, hphase⟩ := finishCall_frame s result
  have hreleased : (s.finishCall result).Released ↔ s.Released := by
    rw [Released, Released, hinstalls, hlowered]
  constructor
  · rw [hreleased, hhelper]
    exact h.down
  · rw [hbacklog]
    exact h.shows
  · rw [hbacklog]
    exact h.refitShows
  · rw [hbacklog]
    exact h.hides
  · rw [hrefits]
    exact h.refits
  · rw [hbacklog, hinstalls]
    exact h.sessions
  · rw [hlowered, hinstalls]
    exact h.loweredLe
  · rw [hbacklog, hinstalls]
    exact h.ordered
  · rw [hreleased, hbacklog]
    exact h.released
  · rw [hreleased, hbacklog, hinstalls]
    exact fun hover => Or.inl (hphase (h.ended hover))

variable {c : Connection}

/-- A connection that is made. -/
theorem Consistent.connect (h : Consistent settings s)
    (hshow : ∀ excludeIds, c.command = .show excludeIds →
      excludeIds = [settings.virtualId])
    (hrefit : c.sender = .refit → ∃ excludeIds, c.command = .show excludeIds)
    (hhide : c.sender = .drop ∨ c.sender = .lower → c.command = .hide)
    (hsession : c.session = s.installs)
    (hraise : c.sender = .raise → ¬(s.phase = .idle ∨ s.phase = .dropping))
    (hdrop : c.sender = .drop → s.phase = .dropping) :
    Consistent settings { s with backlog := s.backlog ++ [c] } := by
  have hover : c.sender = .raise →
      ¬(s.Released ∨ ∃ d ∈ s.backlog, d.sender = .drop ∧ d.session = s.installs) :=
    fun hc hover => hraise hc (h.ended hover)
  constructor
  · exact h.down
  · exact List.forall_mem_append.mpr ⟨h.shows, List.forall_mem_singleton.mpr hshow⟩
  · exact List.forall_mem_append.mpr ⟨h.refitShows, List.forall_mem_singleton.mpr hrefit⟩
  · exact List.forall_mem_append.mpr ⟨h.hides, List.forall_mem_singleton.mpr hhide⟩
  · exact h.refits
  · exact List.forall_mem_append.mpr
      ⟨h.sessions, List.forall_mem_singleton.mpr (Nat.le_of_eq hsession)⟩
  · exact h.loweredLe
  · refine List.pairwise_append.mpr ⟨h.ordered, List.pairwise_singleton _ _, ?_⟩
    intro d hd e he hdropped hcurrent hraised
    rw [List.mem_singleton.mp he] at hraised
    exact hover hraised (Or.inr ⟨d, hd, hdropped, hcurrent⟩)
  · intro hreleased
    refine List.forall_mem_append.mpr ⟨h.released hreleased, List.forall_mem_singleton.mpr ?_⟩
    exact fun hraised => hover hraised (Or.inl hreleased)
  · rintro (hreleased | ⟨d, hd, hdropped, hcurrent⟩)
    · exact h.ended (Or.inl hreleased)
    · rcases List.mem_append.mp hd with hd | hd
      · exact h.ended (Or.inr ⟨d, hd, hdropped, hcurrent⟩)
      · rw [List.mem_singleton.mp hd] at hdropped
        exact Or.inr (hdrop hdropped)

/-- An install raises the windows before it ends, and a drop lowers them. -/
theorem pendingCall_some {sender : Sender} {command : Command}
    (h : s.pendingCall settings = some (sender, command)) :
    (sender = .raise ∧ command = .show [settings.virtualId] ∧
        ¬(s.phase = .idle ∨ s.phase = .dropping)) ∨
      (sender = .lower ∧ command = .hide) ∨
      (sender = .drop ∧ command = .hide ∧ s.phase = .dropping) := by
  cases hphase : s.phase with
  | raising need attempt | refitting =>
    simp only [pendingCall, hphase, Option.some.injEq, Prod.mk.injEq] at h
    exact Or.inl ⟨h.1.symm, h.2.symm, by simp⟩
  | lowering =>
    simp only [pendingCall, hphase, Option.some.injEq, Prod.mk.injEq] at h
    exact Or.inr (Or.inl ⟨h.1.symm, h.2.symm⟩)
  | dropping =>
    simp only [pendingCall, hphase, Option.some.injEq, Prod.mk.injEq] at h
    exact Or.inr (Or.inr ⟨h.1.symm, h.2.symm, rfl⟩)
  | idle | raised | held => simp [pendingCall, hphase] at h

/-- The connection that is served. -/
theorem Consistent.tail (h : Consistent settings s)
    {rest : List Connection} (hbacklog : s.backlog = c :: rest) :
    Consistent settings { s with backlog := rest } := by
  have hmem : ∀ d ∈ rest, d ∈ s.backlog := fun d hd => by
    rw [hbacklog]
    exact List.mem_cons_of_mem c hd
  have hordered := h.ordered
  rw [hbacklog] at hordered
  exact { h with
    shows := fun d hd => h.shows d (hmem d hd)
    refitShows := fun d hd => h.refitShows d (hmem d hd)
    hides := fun d hd => h.hides d (hmem d hd)
    sessions := fun d hd => h.sessions d (hmem d hd)
    ordered := (List.pairwise_cons.mp hordered).2
    released := fun hreleased d hd => h.released hreleased d (hmem d hd)
    ended := fun hover => h.ended (hover.imp_right fun ⟨d, hd, hof⟩ => ⟨d, hmem d hd, hof⟩) }

/-- Only the command of a drop tells that the guard is dropped. -/
theorem released_execute (hsender : c.sender ≠ .drop) : (s.execute c).Released ↔ s.Released := by
  have hlowered : (s.execute c).lowered = s.lowered := by
    rw [System.execute]
    exact if_neg hsender
  have hinstalls : (s.execute c).installs = s.installs := rfl
  rw [Released, Released, hlowered, hinstalls]

/-- A command of an install or of a thread, which is not executed once the windows are down. -/
theorem Consistent.execute_other (h : Consistent settings s) (hsender : c.sender ≠ .drop)
    (hdown : s.Released → c.command = .hide) : Consistent settings (s.execute c) := by
  have hreleased := released_execute (s := s) hsender
  have hlowered : (s.execute c).lowered = s.lowered := by
    rw [System.execute]
    exact if_neg hsender
  exact { h with
    down := fun hnow => by
      rw [System.execute, hdown (hreleased.mp hnow)]
      exact ShieldController.isDown_execute_hide s.helper
    loweredLe := fun session hsession => h.loweredLe session (hlowered ▸ hsession)
    released := fun hnow => h.released (hreleased.mp hnow)
    ended := fun hover => h.ended (hover.imp_left hreleased.mp) }

/-- The command of a drop, which is executed after all commands of its install. -/
theorem Consistent.execute_drop (h : Consistent settings s)
    {rest : List Connection} (hbacklog : s.backlog = c :: rest) (hsender : c.sender = .drop) :
    Consistent settings (System.execute { s with backlog := rest } c) := by
  have hc : c ∈ s.backlog := by
    rw [hbacklog]
    exact List.mem_cons_self
  have htail := h.tail hbacklog
  have hordered := h.ordered
  rw [hbacklog] at hordered
  have hbehind := (List.pairwise_cons.mp hordered).1
  have hhide := h.hides c hc (Or.inl hsender)
  have hlowered : (System.execute { s with backlog := rest } c).lowered = some c.session := by
    rw [System.execute, if_pos hsender]
  have hcurrent : (System.execute { s with backlog := rest } c).Released →
      c.session = s.installs := by
    intro hnow
    rw [Released, hlowered] at hnow
    exact Option.some.inj hnow
  exact { htail with
    down := fun _ => by
      rw [System.execute, hhide]
      exact ShieldController.isDown_execute_hide s.helper
    loweredLe := fun session hsession => by
      rw [hlowered] at hsession
      cases hsession
      exact h.sessions c hc
    released := fun hnow d hd => hbehind d hd hsender (hcurrent hnow)
    ended := fun hover => by
      rcases hover with hnow | hmore
      · exact h.ended (Or.inr ⟨c, hc, hsender, hcurrent hnow⟩)
      · exact htail.ended (Or.inr hmore) }

/-- A command that is executed: that of a thread comes before the drop has lowered the windows, and
those of an install come before that of the drop. -/
theorem Consistent.execute (h : Consistent settings s)
    {rest : List Connection} (hbacklog : s.backlog = c :: rest)
    (hrefit : c.sender = .refit → ¬s.Released) :
    Consistent settings (System.execute { s with backlog := rest } c) := by
  have hc : c ∈ s.backlog := by
    rw [hbacklog]
    exact List.mem_cons_self
  have htail := h.tail hbacklog
  cases hsender : c.sender with
  | drop => exact h.execute_drop hbacklog hsender
  | lower =>
    exact htail.execute_other (by simp [hsender]) fun _ => h.hides c hc (Or.inr hsender)
  | raise =>
    exact htail.execute_other (by simp [hsender]) fun hnow => absurd hsender (h.released hnow c hc)
  | refit => exact htail.execute_other (by simp [hsender]) fun hnow => absurd hnow (hrefit hsender)

/-- A step of an orderly run keeps a system consistent. -/
theorem consistent_step {s' : System} {a : Action}
    (h : Consistent settings s) (ha : orderly s a = true)
    (hstep : step settings s a = some s') : Consistent settings s' := by
  cases a with
  | install need =>
    obtain ⟨-, heq⟩ := Option.ite_none_right_eq_some.mp hstep
    cases heq
    -- no command and no drop is of the new install yet
    have hnot : s.lowered ≠ some (s.installs + 1) := fun hsome => by
      have hle := h.loweredLe _ hsome
      omega
    exact { h with
      down := fun hreleased => absurd hreleased hnot
      sessions := fun c hc => (h.sessions c hc).trans (Nat.le_succ _)
      loweredLe := fun session hsession => (h.loweredLe session hsession).trans (Nat.le_succ _)
      ordered := List.Pairwise.imp_of_mem (fun {c _} hc _ _ _ hcurrent => by
        change c.session = s.installs + 1 at hcurrent
        have hle := h.sessions c hc
        omega) h.ordered
      released := fun hreleased => absurd hreleased hnot
      ended := fun hover => by
        rcases hover with hreleased | ⟨c, hc, -, hcurrent⟩
        · exact absurd hreleased hnot
        · change c.session = s.installs + 1 at hcurrent
          have hle := h.sessions c hc
          omega }
  | refuse =>
    simp only [step] at hstep
    split at hstep
    · cases hstep
      exact { h with ended := fun _ => Or.inl rfl }
    · cases hstep
  | connect ok =>
    simp only [step] at hstep
    split at hstep
    · next sender command hawaiting hcall =>
      split at hstep
      · cases hstep
        have hconnected : Consistent settings { s with
            backlog := s.backlog ++ [⟨sender, command, s.installs, s.calls⟩] } := by
          rcases pendingCall_some hcall with ⟨rfl, rfl, hphase⟩ | ⟨rfl, rfl⟩ | ⟨rfl, rfl, hphase⟩
          · exact h.connect (fun _ hshow => by cases hshow; rfl) nofun
              (fun hhide => by rcases hhide with hhide | hhide <;> cases hhide) rfl
              (fun _ => hphase) nofun
          · exact h.connect nofun nofun
              (fun _ => rfl) rfl nofun nofun
          · exact h.connect nofun nofun
              (fun _ => rfl) rfl nofun fun _ => hphase
        exact { hconnected with }
      · cases hstep
        exact h.finishCall none
    · cases hstep
  | reply | timeout =>
    simp only [step] at hstep
    split at hstep
    · cases hstep
      exact h.finishCall _
    · cases hstep
  | arrange ok =>
    obtain ⟨hraised, heq⟩ := Option.ite_none_right_eq_some.mp hstep
    have hnot : ¬(s.Released ∨ ∃ c ∈ s.backlog, c.sender = .drop ∧ c.session = s.installs) :=
      fun hover => by simpa [hraised] using h.ended hover
    split at heq
    · cases heq
      exact { h with ended := fun hover => absurd hover hnot }
    · split at heq
      · cases heq
        exact { h with ended := fun hover => absurd hover hnot }
      · cases heq
        exact { h with ended := fun hover => absurd hover hnot }
  | reassert =>
    obtain ⟨-, heq⟩ := Option.ite_none_right_eq_some.mp hstep
    cases heq
    exact { h with
      refits := List.forall_mem_append.mpr ⟨h.refits, List.forall_mem_singleton.mpr rfl⟩ }
  | refit index ok =>
    obtain ⟨vd, hget, heq⟩ := Option.map_eq_some_iff.mp hstep
    have hvd := h.refits vd (List.mem_of_getElem? hget)
    have herased : Consistent settings { s with refits := s.refits.eraseIdx index } :=
      { h with refits := fun other hother => h.refits other (List.mem_of_mem_eraseIdx hother) }
    split at heq
    · cases heq
      exact herased.connect (fun _ hshow => by cases hshow; rw [hvd])
        (fun _ => ⟨[vd], rfl⟩) (fun hhide => by rcases hhide with hhide | hhide <;> cases hhide)
        rfl nofun nofun
    · cases heq
      exact herased
  | drop =>
    obtain ⟨-, heq⟩ := Option.ite_none_right_eq_some.mp hstep
    cases heq
    exact { h with ended := fun _ => Or.inr rfl }
  | serve received =>
    simp only [step] at hstep
    split at hstep
    · next c rest hbacklog =>
      split at hstep
      · next hreceived =>
        cases hstep
        rw [hreceived, orderly, hbacklog] at ha
        refine h.execute hbacklog fun hrefit hreleased => ?_
        simp [hrefit, hreleased] at ha
      · cases hstep
        exact h.tail hbacklog
    · cases hstep
  | screens ids =>
    cases hstep
    exact { h with down := h.down }
  | notify =>
    cases hstep
    exact { h with down := fun hreleased => (h.down hreleased).applyShields }

/-- A thread whose command the helper executes after the drop raises the windows again. -/
theorem proper_iff {a : Action} (h : Consistent settings s) :
    Proper settings s a ↔ orderly s a = true := by
  constructor
  · rintro ⟨hdown, -⟩
    cases a with
    | serve received =>
      cases received with
      | false => rfl
      | true =>
        cases hbacklog : s.backlog with
        | nil => simp [orderly, hbacklog]
        | cons c rest =>
          simp only [orderly, hbacklog, List.head?_cons, Option.all_some, Bool.or_eq_true,
            decide_eq_true_eq, Bool.not_eq_true', decide_eq_false_iff_not]
          by_contra hlate
          obtain ⟨hrefit, hreleased⟩ := not_or.mp hlate
          have hsender := not_not.mp hrefit
          have hnow := not_not.mp hreleased
          obtain ⟨excludeIds, hshow⟩ := h.refitShows c (by rw [hbacklog]; exact List.mem_cons_self)
            hsender
          have hnext : step settings s (.serve true) =
              some (System.execute { s with backlog := rest } c) := by
            simp only [step, hbacklog, if_true]
          have hkept : (System.execute { s with backlog := rest } c).Released :=
            (released_execute (by simp [hsender])).mpr hnow
          have hoff := (hdown _ hnext hkept).1
          rw [System.execute, hshow, ShieldController.active_execute_show] at hoff
          cases hoff
    | _ => rfl
  · intro ha
    refine ⟨fun s' hstep => (consistent_step h ha hstep).down, fun _ _ c hc excludeIds hshow => ?_⟩
    have heq := h.shows c (List.mem_of_mem_head? hc) excludeIds hshow
    rw [heq]
    exact List.forall_mem_singleton.mpr rfl

/-- The windows stay down between a drop and the next install, and no display but that of the guard
is left uncovered, exactly in the runs in which the helper executes no command of a thread once the
windows are down. -/
theorem shields_proper_iff (settings : Settings) (screens : Finset UInt32) (acts : List Action) :
    Meets (step settings) (Proper settings) (start screens) acts ↔
      Meets (step settings) (fun s a => orderly s a = true) (start screens) acts :=
  meets_congr (Consistent settings) (fun _ _ h => proper_iff h)
    (fun _ _ _ h ha hstep => consistent_step h ha hstep) (consistent_start settings screens)

/-- The windows are re-fitted on a thread that connects only once the client is gone: the panel
stays black. -/
theorem not_shields_proper_late :
    ¬∀ (settings : Settings) (screens : Finset UInt32) (acts : List Action),
      Meets (step settings) (Proper settings) (start screens) acts := by
  intro h
  have hmeets := h ⟨4, true⟩ {1, 4}
    ([.install 1, .connect true, .serve true, .reply, .arrange true, .reassert, .drop,
      .connect true, .serve true, .reply, .refit 0 true] ++ [.serve true])
  have hlate : (run (step ⟨4, true⟩) (start {1, 4})
      [.install 1, .connect true, .serve true, .reply, .arrange true, .reassert, .drop,
        .connect true, .serve true, .reply, .refit 0 true]).any (fun s =>
      (step ⟨4, true⟩ s (.serve true)).any fun s' =>
        decide (s'.Released ∧ s'.helper.active = true)) = true := by
    decide +kernel
  obtain ⟨s, hrun, hserved⟩ := (Option.any_eq_true _ _).mp hlate
  obtain ⟨s', hstep, hblack⟩ := (Option.any_eq_true _ _).mp hserved
  obtain ⟨hreleased, hactive⟩ := of_decide_eq_true hblack
  have hproper := ((meets_append _ _ _).mp hmeets).2 s hrun
  have hdown := hproper.1.1 s' hstep hreleased
  rw [hdown.1] at hactive
  cases hactive

end System

end Macrdp.ShieldLifetime
