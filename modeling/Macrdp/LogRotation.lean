import Macrdp.NumberedFiles
import Macrdp.StepSystem

/-!
# Rotation of the logs

Events are appended to a live file. Before an event for which it has no room the files are renamed,
each to the next number, and a new live file is opened. Each call can fail, the process can end
between any two of them, and a write can take a part of what it is given. What is expected is that
the files hold the last bytes that were accepted, that only a rotation that succeeds drops bytes,
and that no event is spread over two files.
-/

namespace Macrdp.LogRotation

open NumberedFiles StepSystem

/-! ## The writer -/

/-- How many bytes the live file may have, and how many archives there may be. -/
structure Config where
  maxBytes : ℕ
  maxFiles : ℕ
  deriving DecidableEq

/-- The open file, and how many bytes it is said to have. -/
structure Rotator where
  file : ℕ
  written : ℕ
  deriving DecidableEq

/-- What is left of the event being written, whether bytes of it were accepted, and whether the
files were rotated since. -/
structure Pending where
  rest : List UInt8
  begun : Bool
  torn : Bool
  deriving DecidableEq

/-- A rotation under way: what the files and the last archive held when it began, and whether a file
lost its name to another since. -/
structure Attempt where
  before : List UInt8
  oldest : List UInt8
  replaced : Bool
  deriving DecidableEq

/-- The next call of a rotation: the removal of the live file when no archives are kept, or what is
to be done when there are names left to be moved to the next number, the live file's the last of
them. With none left a new live file is opened. -/
inductive Stage where
  | remove
  | move (left : ℕ)
  deriving DecidableEq

/-- What the process does. -/
inductive Phase where
  | closed
  | idle (r : Rotator)
  | rotating (stage : Stage) (r : Rotator) (p : Pending) (att : Attempt)
  | writing (r : Rotator) (p : Pending)
  deriving DecidableEq

/-- A byte that was accepted, the event it is of and the file it went to. -/
structure Entry where
  event : ℕ
  file : ℕ
  byte : UInt8
  deriving DecidableEq

/-- The directory and the process, with all bytes accepted so far, the number of the last event,
whether bytes left the files otherwise than in a rotation that succeeds, and whether a call
failed. -/
structure State where
  disk : Disk UInt8
  phase : Phase
  accepted : List Entry
  event : ℕ
  lost : Bool
  faulty : Bool

/-- An empty directory. -/
def State.new : State := ⟨.empty, .closed, [], 0, false, false⟩

/-- What comes of a write: an error, an interrupt, or how many bytes it takes. -/
inductive WriteResult where
  | error
  | interrupted
  | accepted (n : ℕ)
  deriving DecidableEq

/-- What happens: the process is started, after the end of the former if there is one, an event is
logged, or the next call of the rotation or of the write is made. -/
inductive Action where
  | restart (fails : Bool)
  | log (bytes : List UInt8)
  | call (fails : Bool)
  | write (result : WriteResult)
  deriving DecidableEq

/-- What the files hold, oldest first. -/
def held (c : Config) (d : Disk UInt8) : List UInt8 := d.below (c.maxFiles + 1)

/-- Whether the files are rotated before so many bytes are written. -/
def Rotator.due (c : Config) (r : Rotator) (length : ℕ) : Bool :=
  0 < r.written ∧ c.maxBytes < r.written + length

/-- Before the rest of an event is written. -/
def enter (c : Config) (d : Disk UInt8) (r : Rotator) (p : Pending) : Phase :=
  if r.due c p.rest.length then
    .rotating (if 1 ≤ c.maxFiles then .move c.maxFiles else .remove) r p
      ⟨held c d, d.content c.maxFiles, false⟩
  else .writing r p

/-- Whether the end of the process leaves a rotation in which bytes went away. -/
def State.cut (c : Config) (s : State) : Bool :=
  match s.phase with
  | .rotating _ _ _ att => held c s.disk ≠ att.before
  | _ => false

/-- The process ends, and its successor cannot open the live file. -/
def State.stop (c : Config) (s : State) : State :=
  { s with phase := .closed, lost := s.lost || s.cut c, faulty := true }

/-- The process is started. Its counter begins with the length of the live file. -/
def State.reopen (c : Config) (s : State) : State :=
  let opened := s.disk.openAppend 0
  { s with
    disk := opened.1
    phase := .idle ⟨opened.2, (opened.1.files opened.2).length⟩
    lost := s.lost || s.cut c }

/-- An event is logged. -/
def State.logged (c : Config) (s : State) (r : Rotator) (bytes : List UInt8) : State :=
  { s with
    phase := if bytes = [] then .idle r else enter c s.disk r ⟨bytes, false, false⟩
    event := s.event + 1 }

/-- The rotation fails: go on with the open file. -/
def State.fail (c : Config) (s : State) (r : Rotator) (p : Pending) (att : Attempt) : State :=
  { s with
    phase := .writing r p
    lost := s.lost || held c s.disk ≠ att.before
    faulty := true }

/-- The live file is removed. -/
def State.drop (s : State) (r : Rotator) (p : Pending) (att : Attempt) : State :=
  { s with
    disk := s.disk.remove 0
    phase := .rotating (.move 0) r p { att with replaced := true } }

/-- There is no archive of this number. -/
def State.skip (s : State) (left : ℕ) (r : Rotator) (p : Pending) (att : Attempt) : State :=
  { s with phase := .rotating (.move left) r p att }

/-- The file of a number is renamed to the next. -/
def State.shift (s : State) (left : ℕ) (r : Rotator) (p : Pending) (att : Attempt) : State :=
  { s with
    disk := s.disk.rename left (left + 1)
    phase := .rotating (.move left) r p
      { att with replaced := att.replaced || (s.disk.names (left + 1)).isSome } }

/-- A new live file is opened: the rotation has succeeded. -/
def State.refresh (c : Config) (s : State) (p : Pending) (att : Attempt) : State :=
  let opened := s.disk.openTruncate 0
  { s with
    disk := opened.1
    phase := .writing ⟨opened.2, 0⟩ { p with torn := p.begun }
    lost := s.lost ||
      !decide (held c opened.1 = att.before ∨ att.oldest ++ held c opened.1 = att.before) }

/-- The event ends with an error. -/
def State.giveUp (s : State) (r : Rotator) : State := { s with phase := .idle r, faulty := true }

/-- The write is tried again. -/
def State.retry (c : Config) (s : State) (r : Rotator) (p : Pending) : State :=
  { s with phase := enter c s.disk r p, faulty := true }

/-- So many bytes are taken. When some are left, they are for another write. -/
def State.put (c : Config) (s : State) (r : Rotator) (p : Pending) (n : ℕ) : State :=
  let bytes := p.rest.take n
  let disk := s.disk.append r.file bytes
  let r' : Rotator := ⟨r.file, r.written + n⟩
  { s with
    disk := disk
    phase := if n = p.rest.length then .idle r'
      else enter c disk r' ⟨p.rest.drop n, true, p.torn⟩
    accepted := s.accepted ++ bytes.map fun byte => ⟨s.event, r.file, byte⟩
    lost := s.lost || held c disk ≠ held c s.disk ++ bytes
    faulty := s.faulty || n ≠ p.rest.length }

/-- The next call of a rotation. -/
def State.call (c : Config) (s : State) (fails : Bool) : Option State :=
  match s.phase with
  | .rotating .remove r p att =>
    some (if fails ∨ s.disk.names 0 = none then s.fail c r p att else s.drop r p att)
  | .rotating (.move 0) r p att => some (if fails then s.fail c r p att else s.refresh c p att)
  | .rotating (.move (left + 1)) r p att =>
    -- Archives are looked for first, the live file is not.
    if s.disk.names left = none ∧ 1 ≤ left then some (s.skip left r p att)
    else some (if fails ∨ s.disk.names left = none then s.fail c r p att else s.shift left r p att)
  | _ => none

/-- One step of the process. -/
def State.step (c : Config) (s : State) : Action → Option State
  | .restart fails => some (if fails then s.stop c else s.reopen c)
  | .log bytes =>
    match s.phase with
    | .idle r => some (s.logged c r bytes)
    | _ => none
  | .call fails => s.call c fails
  | .write result =>
    match s.phase, result with
    | .writing r _, .error => some (s.giveUp r)
    | .writing r p, .interrupted => some (s.retry c r p)
    | .writing r p, .accepted n =>
      if p.rest.length < n then none
      else if n = 0 then some (s.giveUp r)
      else some (s.put c r p n)
    | _, _ => none

/-! ## What is expected -/

/-- The files hold the last bytes accepted, nothing was lost, there are no more archives than there
may be, an event is in one file, and without failures the live file is too long for one event
only. -/
structure Kept (c : Config) (s : State) : Prop where
  suffix : held c s.disk <:+ s.accepted.map Entry.byte
  sound : s.lost = false
  numbered : ∀ n, s.disk.names n ≠ none → n ≤ c.maxFiles
  whole : ∀ e ∈ s.accepted, ∀ e' ∈ s.accepted, e.event = e'.event → e.file = e'.file
  bounded : s.faulty = false → ∀ f, s.disk.names 0 = some f →
    (s.disk.files f).length ≤ c.maxBytes ∨
      ∀ e ∈ s.accepted, ∀ e' ∈ s.accepted, e.file = f → e'.file = f → e.event = e'.event

/-- Whether the next call of a rotation fails. -/
def State.fails (s : State) (stage : Stage) (fails : Bool) : Prop :=
  match stage with
  | .remove => fails = true ∨ s.disk.names 0 = none
  | .move 0 => fails = true
  | .move (left + 1) =>
    if s.disk.names left = none then left = 0 else fails = true

/-- A rotation in which a file has lost its name goes on and does not fail, and no bytes of an event
are accepted when the files were rotated since others of it were. -/
def Untorn (s : State) : Action → Prop
  | .restart _ => ∀ stage r p att, s.phase = .rotating stage r p att → att.replaced = false
  | .call fails => ∀ stage r p att, s.phase = .rotating stage r p att → s.fails stage fails →
      att.replaced = false
  | .write (.accepted n) => ∀ r p, s.phase = .writing r p → 0 < n → p.torn = false
  | _ => True

/-! ## What a step does -/

variable {c : Config} {s s' : State}

/-- What each action comes to. -/
inductive Moved (c : Config) (s : State) : Action → State → Prop where
  | stop : Moved c s (.restart true) (s.stop c)
  | reopen : Moved c s (.restart false) (s.reopen c)
  | logged (r : Rotator) (bytes : List UInt8) (hphase : s.phase = .idle r) :
      Moved c s (.log bytes) (s.logged c r bytes)
  | fail (fails : Bool) (stage : Stage) (r : Rotator) (p : Pending) (att : Attempt)
      (hphase : s.phase = .rotating stage r p att) (hfails : s.fails stage fails) :
      Moved c s (.call fails) (s.fail c r p att)
  | drop (fails : Bool) (r : Rotator) (p : Pending) (att : Attempt) (f : ℕ)
      (hphase : s.phase = .rotating .remove r p att) (hfails : ¬ s.fails .remove fails)
      (hname : s.disk.names 0 = some f) : Moved c s (.call fails) (s.drop r p att)
  | skip (fails : Bool) (left : ℕ) (r : Rotator) (p : Pending) (att : Attempt)
      (hphase : s.phase = .rotating (.move (left + 1)) r p att)
      (hfails : ¬ s.fails (.move (left + 1)) fails) (hname : s.disk.names left = none) :
      Moved c s (.call fails) (s.skip left r p att)
  | shift (fails : Bool) (left : ℕ) (r : Rotator) (p : Pending) (att : Attempt) (f : ℕ)
      (hphase : s.phase = .rotating (.move (left + 1)) r p att)
      (hfails : ¬ s.fails (.move (left + 1)) fails) (hname : s.disk.names left = some f) :
      Moved c s (.call fails) (s.shift left r p att)
  | refresh (fails : Bool) (r : Rotator) (p : Pending) (att : Attempt)
      (hphase : s.phase = .rotating (.move 0) r p att) (hfails : ¬ s.fails (.move 0) fails) :
      Moved c s (.call fails) (s.refresh c p att)
  | giveUp (result : WriteResult) (r : Rotator) (p : Pending) (hphase : s.phase = .writing r p)
      (hresult : ∀ n, result = .accepted n → n = 0) : Moved c s (.write result) (s.giveUp r)
  | retry (r : Rotator) (p : Pending) (hphase : s.phase = .writing r p) :
      Moved c s (.write .interrupted) (s.retry c r p)
  | put (r : Rotator) (p : Pending) (n : ℕ) (hphase : s.phase = .writing r p) (hpos : 0 < n)
      (hle : n ≤ p.rest.length) : Moved c s (.write (.accepted n)) (s.put c r p n)

theorem call_moved {fails : Bool} (hs : s.call c fails = some s') :
    Moved c s (.call fails) s' := by
  unfold State.call at hs
  split at hs
  next r p att hphase =>
    cases hs
    split
    next h => exact .fail fails .remove r p att hphase h
    next h =>
      obtain ⟨f, hname⟩ := Option.ne_none_iff_exists'.mp fun hnone => h (.inr hnone)
      exact .drop fails r p att f hphase h hname
  next r p att hphase =>
    cases hs
    split
    next h => exact .fail fails (.move 0) r p att hphase h
    next h => exact .refresh fails r p att hphase h
  next left r p att hphase =>
    split at hs
    next h =>
      cases hs
      have hfails : ¬ s.fails (.move (left + 1)) fails := by
        rw [State.fails, if_pos h.1]
        omega
      exact .skip fails left r p att hphase hfails h.1
    next h =>
      cases hs
      cases hname : s.disk.names left with
      | none =>
        rw [if_pos (.inr rfl)]
        refine .fail fails (.move (left + 1)) r p att hphase ?_
        rw [State.fails, if_pos hname]
        have hlive : ¬ 1 ≤ left := fun hle => h ⟨hname, hle⟩
        omega
      | some f =>
        have hiff : s.fails (.move (left + 1)) fails ↔ fails = true := by
          rw [State.fails, if_neg (by rw [hname]; nofun)]
        by_cases hfails : fails = true
        · rw [if_pos (.inl hfails)]
          exact .fail fails (.move (left + 1)) r p att hphase (hiff.mpr hfails)
        · rw [if_neg (by rintro (h | h); exacts [hfails h, nomatch h])]
          exact .shift fails left r p att f hphase (fun h => hfails (hiff.mp h)) hname
  next => cases hs

variable {a : Action}

/-- Every step is one of these. -/
theorem step_moved (hs : s.step c a = some s') : Moved c s a s' := by
  cases a with
  | restart fails =>
    cases hs
    cases fails with
    | true => exact .stop
    | false => exact .reopen
  | log bytes =>
    simp only [State.step] at hs
    split at hs
    next r hphase =>
      cases hs
      exact .logged r bytes hphase
    next => cases hs
  | call fails => exact call_moved hs
  | write result =>
    simp only [State.step] at hs
    split at hs
    next r p hphase =>
      cases hs
      exact .giveUp .error r p hphase nofun
    next r p hphase =>
      cases hs
      exact .retry r p hphase
    next r p n hphase =>
      split at hs
      next => cases hs
      next hle =>
        split at hs
        next hzero =>
          cases hs
          refine .giveUp (.accepted n) r p hphase fun m hm => ?_
          cases hm
          exact hzero
        next hpos =>
          cases hs
          exact .put r p n hphase (Nat.pos_of_ne_zero hpos) (Nat.le_of_not_lt hle)
    next => cases hs

/-! ## What is recorded -/

/-- The open file exists, and the counter is its length. -/
def Handle (d : Disk UInt8) (r : Rotator) : Prop :=
  r.file < d.next ∧ r.written = (d.files r.file).length

/-- What is known of the event being written from the bytes that were accepted of it. -/
structure Part (accepted : List Entry) (event : ℕ) (r : Rotator) (p : Pending) : Prop where
  fresh : p.begun = false → ∀ e ∈ accepted, e.event ≠ event
  begun : p.begun = true → ∃ e ∈ accepted, e.event = event
  torn : p.torn = true → ∃ e ∈ accepted, e.event = event ∧ e.file ≠ r.file
  whole : p.torn = false → ∀ e ∈ accepted, e.event = event → e.file = r.file

/-- What a process has of the directory and the event, and which number a rotation has left
free. -/
def Runs (c : Config) (d : Disk UInt8) (accepted : List Entry) (event : ℕ) : Phase → Prop
  | .closed => True
  | .idle r => Handle d r
  | .writing r p => Handle d r ∧ Part accepted event r p
  | .rotating .remove r p _ => (Handle d r ∧ Part accepted event r p) ∧ c.maxFiles = 0
  | .rotating (.move left) r p _ => (Handle d r ∧ Part accepted event r p) ∧
      left ≤ c.maxFiles ∧ (left = 0 ∨ left < c.maxFiles → d.names left = none)

/-- The files hold the bytes that were accepted. -/
structure Inv (c : Config) (s : State) : Prop where
  wf : s.disk.WellFormed
  numbered : ∀ n, s.disk.names n ≠ none → n ≤ c.maxFiles
  recorded : ∀ f, s.disk.files f = (s.accepted.filter fun e => e.file = f).map Entry.byte
  counted : ∀ e ∈ s.accepted, e.event ≤ s.event
  runs : Runs c s.disk s.accepted s.event s.phase

variable {d : Disk UInt8} {accepted : List Entry} {event : ℕ} {stage : Stage} {r : Rotator}
  {p : Pending} {att : Attempt}

theorem Inv.new (c : Config) : Inv c .new where
  wf := ⟨nofun, nofun, fun _ _ => rfl⟩
  numbered _ h := absurd rfl h
  recorded _ := rfl
  counted := nofun
  runs := trivial

theorem Runs.rotating (h : Runs c d accepted event (.rotating stage r p att)) :
    Handle d r ∧ Part accepted event r p := by
  cases stage with
  | remove | move left => exact h.1

theorem runs_enter (hr : Handle d r) (hp : Part accepted event r p) :
    Runs c d accepted event (enter c d r p) := by
  unfold enter
  split
  next =>
    split
    next hle => exact ⟨⟨hr, hp⟩, Nat.le_refl _, fun h => by omega⟩
    next hlt => exact ⟨⟨hr, hp⟩, by omega⟩
  next => exact ⟨hr, hp⟩

/-- The files to which bytes went exist. -/
theorem Inv.known (h : Inv c s) {e : Entry} (he : e ∈ s.accepted) : e.file < s.disk.next := by
  by_contra hlt
  have hblank := h.wf.blank e.file (by omega)
  rw [h.recorded, List.map_eq_nil_iff, List.filter_eq_nil_iff] at hblank
  exact hblank e he (decide_eq_true rfl)

theorem inv_reopen (h : Inv c s) : Inv c (s.reopen c) := by
  unfold State.reopen
  cases hname : s.disk.names 0 with
  | some f =>
    rw [openAppend_of_some hname]
    exact ⟨h.wf, h.numbered, h.recorded, h.counted, h.wf.exist 0 f hname, rfl⟩
  | none =>
    rw [openAppend_of_none hname]
    refine ⟨h.wf.create 0, fun n hn => ?_, h.recorded, h.counted, Nat.lt_succ_self _, rfl⟩
    by_cases hzero : n = 0
    · omega
    · exact h.numbered n (by simpa [Disk.create, hzero] using hn)

theorem inv_refresh (h : Inv c s) (hphase : s.phase = .rotating (.move 0) r p att) :
    Inv c (s.refresh c p att) := by
  have hruns := h.runs
  rw [hphase] at hruns
  obtain ⟨⟨-, hpart⟩, -, hfree⟩ := hruns
  unfold State.refresh
  rw [openTruncate_of_none h.wf (hfree (.inl rfl))]
  refine ⟨h.wf.create 0, fun n hn => ?_, h.recorded, h.counted, ⟨Nat.lt_succ_self _, ?_⟩, ?_⟩
  · by_cases hzero : n = 0
    · omega
    · exact h.numbered n (by simpa [Disk.create, hzero] using hn)
  · have hblank : (s.disk.create 0).files s.disk.next = [] := h.wf.blank _ (Nat.le_refl _)
    rw [hblank]
    rfl
  · refine ⟨hpart.fresh, hpart.begun, fun hbegun => ?_, fun hbegun e he hevent => ?_⟩
    · obtain ⟨e, he, hevent⟩ := hpart.begun hbegun
      exact ⟨e, he, hevent, Nat.ne_of_lt (h.known he)⟩
    · exact absurd hevent (hpart.fresh hbegun e he)

variable {n f : ℕ}

theorem inv_put (h : Inv c s) (hphase : s.phase = .writing r p) (hpos : 0 < n)
    (hle : n ≤ p.rest.length) : Inv c (s.put c r p n) := by
  have hruns := h.runs
  rw [hphase] at hruns
  obtain ⟨hhandle, hpart⟩ := hruns
  have hlength : (p.rest.take n).length = n := List.length_take_of_le hle
  have hhandle' : Handle (s.disk.append r.file (p.rest.take n)) ⟨r.file, r.written + n⟩ := by
    refine ⟨hhandle.1, ?_⟩
    simp [Disk.append, hhandle.2, hle]
  have hnew : ∀ e ∈ (p.rest.take n).map fun byte => (⟨s.event, r.file, byte⟩ : Entry),
      e.event = s.event ∧ e.file = r.file := by
    intro e he
    obtain ⟨byte, -, rfl⟩ := List.mem_map.mp he
    exact ⟨rfl, rfl⟩
  refine ⟨h.wf.append hhandle.1 _, h.numbered, fun f => ?_, fun e he => ?_, ?_⟩
  · simp only [State.put, Disk.append, List.filter_append, List.map_append]
    by_cases hfile : f = r.file
    · have hall : ∀ e ∈ (p.rest.take n).map fun byte => (⟨s.event, r.file, byte⟩ : Entry),
          decide (e.file = f) = true := by
        intro e he
        rw [(hnew e he).2, hfile, decide_eq_true_eq]
      rw [if_pos hfile, List.filter_eq_self.mpr hall, List.map_map, h.recorded]
      simp [Function.comp_def]
    · have hnone : ∀ e ∈ (p.rest.take n).map fun byte => (⟨s.event, r.file, byte⟩ : Entry),
          ¬ decide (e.file = f) = true := by
        intro e he
        rw [(hnew e he).2, decide_eq_true_eq]
        exact Ne.symm hfile
      rw [if_neg hfile, List.filter_eq_nil_iff.mpr hnone, List.map_nil, List.append_nil,
        h.recorded]
  · cases List.mem_append.mp he with
    | inl hold => exact h.counted e hold
    | inr hin => exact Nat.le_of_eq (hnew e hin).1
  · unfold State.put
    dsimp only
    split
    next => exact hhandle'
    next =>
      refine runs_enter hhandle' ⟨fun hbegun => Bool.noConfusion hbegun, fun _ => ?_,
        fun htorn => ?_, fun htorn e he hevent => ?_⟩
      · obtain ⟨byte, hbyte⟩ := List.exists_mem_of_length_pos (hlength ▸ hpos)
        exact ⟨⟨s.event, r.file, byte⟩, List.mem_append_right _ (List.mem_map_of_mem hbyte), rfl⟩
      · obtain ⟨e, he, hevent⟩ := hpart.torn htorn
        exact ⟨e, List.mem_append_left _ he, hevent⟩
      · cases List.mem_append.mp he with
        | inl hold => exact hpart.whole htorn e hold hevent
        | inr hin => exact (hnew e hin).2

theorem Inv.step (h : Inv c s) (hs : s.step c a = some s') : Inv c s' := by
  have hruns := h.runs
  cases step_moved hs with
  | stop => exact ⟨h.wf, h.numbered, h.recorded, h.counted, trivial⟩
  | reopen => exact inv_reopen h
  | logged r bytes hphase =>
    rw [hphase] at hruns
    refine ⟨h.wf, h.numbered, h.recorded, fun e he => Nat.le_succ_of_le (h.counted e he), ?_⟩
    unfold State.logged
    dsimp only
    split
    next => exact hruns
    next =>
      have hother : ∀ e ∈ s.accepted, e.event ≠ s.event + 1 := fun e he heq => by
        have hle := h.counted e he
        omega
      exact runs_enter hruns ⟨fun _ => hother, nofun, nofun, fun _ e he heq =>
        absurd heq (hother e he)⟩
  | fail fails stage r p att hphase hfails =>
    rw [hphase] at hruns
    exact ⟨h.wf, h.numbered, h.recorded, h.counted, hruns.rotating⟩
  | drop fails r p att f hphase hfails hname =>
    rw [hphase] at hruns
    refine ⟨h.wf.remove 0, fun n hn => h.numbered n fun hnone => hn ?_, h.recorded, h.counted,
      hruns.1, Nat.zero_le _, fun _ => names_remove_self _ _⟩
    simp [State.drop, Disk.remove, hnone]
  | skip fails left r p att hphase hfails hname =>
    rw [hphase] at hruns
    exact ⟨h.wf, h.numbered, h.recorded, h.counted, hruns.1, Nat.le_of_succ_le hruns.2.1,
      fun _ => hname⟩
  | shift fails left r p att f hphase hfails hname =>
    rw [hphase] at hruns
    refine ⟨h.wf.rename left (left + 1), fun n hn => ?_, h.recorded, h.counted, hruns.1,
      Nat.le_of_succ_le hruns.2.1, fun _ => names_rename_self _ _ _⟩
    by_cases htarget : n = left + 1
    · exact htarget ▸ hruns.2.1
    · refine h.numbered n fun hnone => hn ?_
      simp [State.shift, Disk.rename, htarget, hnone]
  | refresh fails r p att hphase hfails => exact inv_refresh h hphase
  | giveUp result r p hphase hresult =>
    rw [hphase] at hruns
    exact ⟨h.wf, h.numbered, h.recorded, h.counted, hruns.1⟩
  | retry r p hphase =>
    rw [hphase] at hruns
    exact ⟨h.wf, h.numbered, h.recorded, h.counted, runs_enter hruns.1 hruns.2⟩
  | put r p n hphase hpos hle => exact inv_put h hphase hpos hle

/-! ## What the files hold -/

/-- What a rotation has dropped so far is the last archive, if a file has lost its name. -/
structure Attempted (c : Config) (d : Disk UInt8) (att : Attempt) : Prop where
  before : att.before = (if att.replaced then att.oldest else []) ++ held c d
  full : att.replaced = true → att.oldest ≠ []

/-- Writes go to the newest file, and only the first call of a rotation drops bytes. -/
def Sure (c : Config) (d : Disk UInt8) : Phase → Prop
  | .closed => True
  | .idle r => d.Newest r.file
  | .writing r _ => d.Newest r.file
  | .rotating .remove r _ att => d.Newest r.file ∧ 0 < r.written ∧ Attempted c d att ∧
      att.replaced = false ∧ att.oldest = d.content c.maxFiles
  | .rotating (.move left) r _ att => (0 < c.maxFiles → d.Newest r.file) ∧
      (c.maxFiles = 0 → att.replaced = true) ∧ 0 < r.written ∧ Attempted c d att ∧
      (0 < left → left = c.maxFiles →
        att.replaced = false ∧ att.oldest = d.content c.maxFiles)

/-- No archive is empty, and writes go to the newest file. -/
structure Sound (c : Config) (s : State) : Prop where
  archives : ∀ n f, 0 < n → s.disk.names n = some f → s.disk.files f ≠ []
  sure : Sure c s.disk s.phase

theorem Sure.rotating (h : Sure c d (.rotating stage r p att)) : Attempted c d att := by
  cases stage with
  | remove => exact h.2.2.1
  | move left => exact h.2.2.2.1

/-- A rotation that fails has dropped bytes exactly if a file has lost its name. -/
theorem Attempted.held_eq_iff (h : Attempted c d att) :
    held c d = att.before ↔ att.replaced = false := by
  rw [h.before]
  cases hreplaced : att.replaced with
  | false => exact ⟨fun _ => rfl, fun _ => rfl⟩
  | true =>
    refine ⟨fun heq => absurd ?_ (h.full hreplaced), nofun⟩
    exact List.append_left_eq_self.mp heq.symm

theorem sure_enter (hnewest : d.Newest r.file) : Sure c d (enter c d r p) := by
  unfold enter
  split
  next hdue =>
    have hpos : 0 < r.written := (of_decide_eq_true hdue).1
    have hattempt : Attempted c d ⟨held c d, d.content c.maxFiles, false⟩ := ⟨rfl, nofun⟩
    split
    next hle =>
      exact ⟨fun _ => hnewest, fun hzero => by omega, hpos, hattempt, fun _ _ => ⟨rfl, rfl⟩⟩
    next => exact ⟨hnewest, hpos, hattempt, rfl, rfl⟩
  next => exact hnewest

/-- The live file of a rotation is the open one. -/
theorem newest_live (hnewest : d.Newest r.file) (hname : d.names 0 = some f) : f = r.file := by
  obtain ⟨n, hn, hfree⟩ := hnewest
  cases n with
  | zero => exact Option.some.inj (hname.symm.trans hn)
  | succ n =>
    rw [hfree 0 (Nat.succ_pos n)] at hname
    cases hname

theorem Inv.held_openAppend (h : Inv c s) : held c (s.disk.openAppend 0).1 = held c s.disk := by
  cases hname : s.disk.names 0 with
  | some f => rw [openAppend_of_some hname]
  | none =>
    rw [openAppend_of_none hname]
    exact below_create h.wf hname

theorem held_append (h : Inv c s) (hnewest : s.disk.Newest r.file) (bytes : List UInt8) :
    held c (s.disk.append r.file bytes) = held c s.disk ++ bytes := by
  obtain ⟨n, hn, hfree⟩ := hnewest
  have hle := h.numbered n (by rw [hn]; nofun)
  exact below_append h.wf hn hfree (Nat.lt_succ_of_le hle) bytes

/-- A file of a rotation has bytes. -/
theorem Sound.full (hsound : Sound c s) (hr : Handle s.disk r)
    (hnewest : s.disk.Newest r.file) (hpos : 0 < r.written) (hname : s.disk.names n = some f) :
    s.disk.files f ≠ [] := by
  cases n with
  | zero =>
    rw [newest_live hnewest hname]
    intro hnil
    rw [hr.2, hnil] at hpos
    exact absurd hpos (Nat.lt_irrefl 0)
  | succ n => exact hsound.archives (n + 1) f (Nat.succ_pos n) hname

/-- The last archive is what a rotation drops when it moves a file to its name. -/
theorem attempted_shift {left : ℕ} (hinv : Inv c s) (hsound : Sound c s)
    (hphase : s.phase = .rotating (.move (left + 1)) r p att) :
    Attempted c (s.disk.rename left (left + 1))
      { att with replaced := att.replaced || (s.disk.names (left + 1)).isSome } := by
  have hruns := hinv.runs
  have hsure := hsound.sure
  rw [hphase] at hruns hsure
  obtain ⟨-, hle, hfree⟩ := hruns
  obtain ⟨hnewest, -, -, hattempt, htop⟩ := hsure
  by_cases hlast : left + 1 = c.maxFiles
  · obtain ⟨hreplaced, holdest⟩ := htop (Nat.succ_pos left) hlast
    have hbefore : att.before = s.disk.content c.maxFiles ++
        held c (s.disk.rename left (left + 1)) := by
      rw [hattempt.before, hreplaced, held, held, ← hlast]
      exact below_rename_last s.disk left
    cases hname : s.disk.names (left + 1) with
    | none =>
      rw [hlast] at hname
      rw [content_of_none hname] at hbefore
      refine ⟨?_, ?_⟩
      · rw [hreplaced]
        exact hbefore
      · rw [hreplaced]
        nofun
    | some f =>
      have hfull := hsound.archives (left + 1) f (Nat.succ_pos left) hname
      rw [hlast] at hname
      rw [← holdest] at hbefore
      refine ⟨?_, fun _ => ?_⟩
      · rw [hreplaced]
        exact hbefore
      · rw [holdest, content_of_some hname]
        exact hfull
  · have hnone := hfree (.inr (by omega))
    have hheld : held c (s.disk.rename left (left + 1)) = held c s.disk :=
      below_rename (content_of_none hnone) (by omega)
    refine ⟨?_, ?_⟩
    · rw [hnone, hheld, Option.isSome_none, Bool.or_false]
      exact hattempt.before
    · rw [hnone, Option.isSome_none, Bool.or_false]
      exact hattempt.full

/-- Without archives the live file is what a rotation drops. -/
theorem attempted_drop (hinv : Inv c s) (hsound : Sound c s)
    (hphase : s.phase = .rotating .remove r p att) (hname : s.disk.names 0 = some f) :
    Attempted c (s.disk.remove 0) { att with replaced := true } := by
  have hruns := hinv.runs
  have hsure := hsound.sure
  rw [hphase] at hruns hsure
  obtain ⟨⟨hhandle, -⟩, hzero⟩ := hruns
  obtain ⟨hnewest, hpos, hattempt, hreplaced, holdest⟩ := hsure
  have hnil : (s.disk.remove 0).content 0 = [] := content_of_none (names_remove_self _ _)
  rw [hzero] at holdest
  refine ⟨?_, fun _ => ?_⟩
  · rw [hattempt.before, hreplaced, holdest, held, held, hzero, Disk.below, Disk.below,
      Disk.below, Disk.below, hnil]
    simp
  · rw [holdest, content_of_some hname]
    exact hsound.full hhandle hnewest hpos hname

theorem sound_reopen (hsound : Sound c s) : Sound c (s.reopen c) := by
  unfold State.reopen
  cases hname : s.disk.names 0 with
  | some f =>
    rw [openAppend_of_some hname]
    exact ⟨hsound.archives, 0, hname, nofun⟩
  | none =>
    rw [openAppend_of_none hname]
    refine ⟨fun n f hn hf => hsound.archives n f hn ?_, newest_create _⟩
    have hother : n ≠ 0 := by omega
    simpa [Disk.create, hother] using hf

theorem sound_refresh (hinv : Inv c s) (hsound : Sound c s)
    (hphase : s.phase = .rotating (.move 0) r p att) : Sound c (s.refresh c p att) := by
  have hruns := hinv.runs
  rw [hphase] at hruns
  unfold State.refresh
  rw [openTruncate_of_none hinv.wf (hruns.2.2 (.inl rfl))]
  refine ⟨fun n f hn hf => hsound.archives n f hn ?_, newest_create _⟩
  have hother : n ≠ 0 := by omega
  simpa [Disk.create, hother] using hf

theorem sound_shift {left : ℕ} (hinv : Inv c s) (hsound : Sound c s)
    (hphase : s.phase = .rotating (.move (left + 1)) r p att)
    (hname : s.disk.names left = some f) : Sound c (s.shift left r p att) := by
  have hattempt := attempted_shift hinv hsound hphase
  have hruns := hinv.runs
  have hsure := hsound.sure
  rw [hphase] at hruns hsure
  obtain ⟨⟨hhandle, -⟩, hle, -⟩ := hruns
  obtain ⟨hnewest, -, hpos, -, -⟩ := hsure
  have hopen : s.disk.Newest r.file := hnewest (by omega)
  refine ⟨fun n g hn hg => ?_, fun _ => hopen.rename (by rw [hname]; nofun), fun hzero => by omega,
    hpos, hattempt, fun _ hlast => by omega⟩
  by_cases htarget : n = left + 1
  · have hmoved : s.disk.names left = some g := by
      simpa [State.shift, Disk.rename, htarget] using hg
    exact hsound.full hhandle hopen hpos hmoved
  · have hkept : n ≠ left ∧ s.disk.names n = some g := by
      simpa [State.shift, Disk.rename, htarget] using hg
    exact hsound.archives n g hn hkept.2

theorem sound_step (hinv : Inv c s) (hsound : s.lost = false → Sound c s)
    (hs : s.step c a = some s') (hlost : s'.lost = false) : Sound c s' := by
  cases step_moved hs with
  | stop =>
    have hbefore := hsound (Bool.or_eq_false_iff.mp hlost).1
    exact ⟨hbefore.archives, trivial⟩
  | reopen => exact sound_reopen (hsound (Bool.or_eq_false_iff.mp hlost).1)
  | logged r bytes hphase =>
    have hbefore := hsound hlost
    have hsure := hbefore.sure
    rw [hphase] at hsure
    refine ⟨hbefore.archives, ?_⟩
    unfold State.logged
    dsimp only
    split
    next => exact hsure
    next => exact sure_enter hsure
  | fail fails stage r p att hphase hfails =>
    obtain ⟨hlost', hheld⟩ := Bool.or_eq_false_iff.mp hlost
    have hbefore := hsound hlost'
    have hsure := hbefore.sure
    rw [hphase] at hsure
    refine ⟨hbefore.archives, ?_⟩
    have hreplaced := hsure.rotating.held_eq_iff.mp (not_not.mp (of_decide_eq_false hheld))
    cases stage with
    | remove => exact hsure.1
    | move left =>
      refine hsure.1 (Nat.pos_of_ne_zero fun hzero => ?_)
      rw [hsure.2.1 hzero] at hreplaced
      cases hreplaced
  | drop fails r p att f hphase hfails hname =>
    have hbefore := hsound hlost
    have hattempt := attempted_drop hinv hbefore hphase hname
    have hruns := hinv.runs
    have hsure := hbefore.sure
    rw [hphase] at hruns hsure
    have hzero := hruns.2
    refine ⟨fun n g hn hg => hbefore.archives n g hn ?_, fun hpos => by omega, fun _ => rfl,
      hsure.2.1, hattempt, fun h => absurd h (Nat.lt_irrefl 0)⟩
    have hother : n ≠ 0 := by omega
    simpa [State.drop, Disk.remove, hother] using hg
  | skip fails left r p att hphase hfails hname =>
    have hbefore := hsound hlost
    have hruns := hinv.runs
    have hsure := hbefore.sure
    rw [hphase] at hruns hsure
    have hle := hruns.2.1
    obtain ⟨hnewest, hnone, hpos, hattempt, -⟩ := hsure
    exact ⟨hbefore.archives, hnewest, hnone, hpos, hattempt, fun _ hlast => by omega⟩
  | shift fails left r p att f hphase hfails hname =>
    exact sound_shift hinv (hsound hlost) hphase hname
  | refresh fails r p att hphase hfails =>
    exact sound_refresh hinv (hsound (Bool.or_eq_false_iff.mp hlost).1) hphase
  | giveUp result r p hphase hresult =>
    have hbefore := hsound hlost
    have hsure := hbefore.sure
    rw [hphase] at hsure
    exact ⟨hbefore.archives, hsure⟩
  | retry r p hphase =>
    have hbefore := hsound hlost
    have hsure := hbefore.sure
    rw [hphase] at hsure
    exact ⟨hbefore.archives, sure_enter hsure⟩
  | put r p n hphase hpos hle =>
    have hbefore := hsound (Bool.or_eq_false_iff.mp hlost).1
    have hsure := hbefore.sure
    rw [hphase] at hsure
    refine ⟨fun m f hm hf hnil => hbefore.archives m f hm hf ?_, ?_⟩
    · by_cases hfile : f = r.file
      · simp only [State.put, Disk.append, if_pos hfile] at hnil
        exact (List.append_eq_nil_iff.mp hnil).1
      · simpa only [State.put, Disk.append, if_neg hfile] using hnil
    · have hnewest : (s.disk.append r.file (p.rest.take n)).Newest r.file := hsure
      unfold State.put
      dsimp only
      split
      next => exact hnewest
      next => exact sure_enter hnewest

/-! ## How long the live file is -/

/-- Without failures the open file is the live one, and the next write has room in it. -/
def Steady (c : Config) (d : Disk UInt8) : Phase → Prop
  | .closed => True
  | .idle r => d.names 0 = some r.file
  | .writing r p => d.names 0 = some r.file ∧ p.begun = false ∧
      (r.written = 0 ∨ r.written + p.rest.length ≤ c.maxBytes)
  | .rotating .remove r p _ => d.names 0 = some r.file ∧ p.begun = false
  | .rotating (.move left) r p _ => (0 < left → d.names 0 = some r.file) ∧ p.begun = false

/-- The live file is within the limit, or has one event only. -/
def Bounded (c : Config) (d : Disk UInt8) (accepted : List Entry) : Prop :=
  ∀ f, d.names 0 = some f → (d.files f).length ≤ c.maxBytes ∨
    ∀ e ∈ accepted, ∀ e' ∈ accepted, e.file = f → e'.file = f → e.event = e'.event

theorem steady_enter (hname : d.names 0 = some r.file) (hbegun : p.begun = false) :
    Steady c d (enter c d r p) := by
  unfold enter
  split
  next =>
    split
    next => exact ⟨fun _ => hname, hbegun⟩
    next => exact ⟨hname, hbegun⟩
  next hdue =>
    refine ⟨hname, hbegun, ?_⟩
    have hroom : ¬ (0 < r.written ∧ c.maxBytes < r.written + p.rest.length) := fun h =>
      hdue (decide_eq_true h)
    omega

/-- A new live file is within every limit. -/
theorem bounded_create (hd : d.WellFormed) : Bounded c (d.create 0) accepted := by
  intro f hf
  have hnew : d.next = f := by simpa [Disk.create] using hf
  have hblank : (d.create 0).files f = [] := hd.blank f (Nat.le_of_eq hnew)
  rw [hblank]
  exact .inl (Nat.zero_le _)

theorem bounded_put (hinv : Inv c s) (hphase : s.phase = .writing r p)
    (hsteady : Steady c s.disk s.phase) (hn : n = p.rest.length) :
    Bounded c (s.put c r p n).disk (s.put c r p n).accepted := by
  have hruns := hinv.runs
  rw [hphase] at hruns hsteady
  obtain ⟨⟨-, hwritten⟩, -⟩ := hruns
  obtain ⟨hname, -, hroom⟩ := hsteady
  intro f hf
  have hlive : r.file = f := Option.some.inj (hname.symm.trans hf)
  cases hroom with
  | inl hempty =>
    -- Nothing of an earlier event is in the live file.
    have hnone : ∀ e ∈ s.accepted, e.file ≠ f := by
      have hnil : s.disk.files r.file = [] := List.length_eq_zero_iff.mp (hwritten ▸ hempty)
      rw [hinv.recorded, List.map_eq_nil_iff, List.filter_eq_nil_iff, hlive] at hnil
      exact fun e he heq => hnil e he (decide_eq_true heq)
    have hevent : ∀ e ∈ (s.put c r p n).accepted, e.file = f → e.event = s.event := by
      intro e he heq
      cases List.mem_append.mp he with
      | inl hold => exact absurd heq (hnone e hold)
      | inr hin =>
        obtain ⟨byte, -, rfl⟩ := List.mem_map.mp hin
        rfl
    exact .inr fun e he e' he' heq heq' => (hevent e he heq).trans (hevent e' he' heq').symm
  | inr hroom =>
    have hlength : ((s.put c r p n).disk.files f).length = r.written + p.rest.length := by
      simp [State.put, Disk.append, ← hlive, hn, hwritten]
    exact .inl (hlength ▸ hroom)

/-- What holds of the live file without failures. -/
structure Calm (c : Config) (s : State) : Prop where
  steady : Steady c s.disk s.phase
  bounded : Bounded c s.disk s.accepted

theorem calm_shift {left : ℕ} (hcalm : Calm c s)
    (hphase : s.phase = .rotating (.move (left + 1)) r p att) : Calm c (s.shift left r p att) := by
  have hsteady := hcalm.steady
  rw [hphase] at hsteady
  obtain ⟨hname, hbegun⟩ := hsteady
  have hnames : 0 < left → (s.shift left r p att).disk.names 0 = s.disk.names 0 := by
    intro hpos
    have hother : 0 ≠ left := by omega
    simp [State.shift, Disk.rename, hother]
  refine ⟨⟨fun hpos => (hnames hpos).trans (hname (Nat.succ_pos left)), hbegun⟩, fun f hf => ?_⟩
  cases left with
  | zero =>
    rw [show (s.shift 0 r p att).disk.names 0 = none from names_rename_self _ _ _] at hf
    cases hf
  | succ left =>
    rw [hnames (Nat.succ_pos left)] at hf
    exact hcalm.bounded f hf

theorem calm_step (hinv : Inv c s) (hcalm : s.faulty = false → Calm c s)
    (hs : s.step c a = some s') (hfaulty : s'.faulty = false) : Calm c s' := by
  cases step_moved hs with
  | stop | fail fails stage r p att hphase hfails => cases hfaulty
  | giveUp result r p hphase hresult | retry r p hphase => cases hfaulty
  | reopen =>
    unfold State.reopen
    cases hname : s.disk.names 0 with
    | some f =>
      rw [openAppend_of_some hname]
      exact ⟨hname, (hcalm hfaulty).bounded⟩
    | none =>
      rw [openAppend_of_none hname]
      exact ⟨names_create_self _ _, bounded_create hinv.wf⟩
  | logged r bytes hphase =>
    have hbefore := hcalm hfaulty
    have hsteady := hbefore.steady
    rw [hphase] at hsteady
    refine ⟨?_, hbefore.bounded⟩
    unfold State.logged
    dsimp only
    split
    next => exact hsteady
    next => exact steady_enter hsteady rfl
  | drop fails r p att f hphase hfails hname =>
    have hsteady := (hcalm hfaulty).steady
    rw [hphase] at hsteady
    refine ⟨⟨nofun, hsteady.2⟩, fun g hg => ?_⟩
    rw [show (s.drop r p att).disk.names 0 = none from names_remove_self _ _] at hg
    cases hg
  | skip fails left r p att hphase hfails hname =>
    have hbefore := hcalm hfaulty
    have hsteady := hbefore.steady
    rw [hphase] at hsteady
    exact ⟨⟨fun _ => hsteady.1 (Nat.succ_pos left), hsteady.2⟩, hbefore.bounded⟩
  | shift fails left r p att f hphase hfails hname => exact calm_shift (hcalm hfaulty) hphase
  | refresh fails r p att hphase hfails =>
    have hruns := hinv.runs
    have hsteady := (hcalm hfaulty).steady
    rw [hphase] at hruns hsteady
    unfold State.refresh
    rw [openTruncate_of_none hinv.wf (hruns.2.2 (.inl rfl))]
    exact ⟨⟨names_create_self _ _, hsteady.2, .inl rfl⟩, bounded_create hinv.wf⟩
  | put r p n hphase hpos hle =>
    obtain ⟨hfaulty', hwhole⟩ := Bool.or_eq_false_iff.mp hfaulty
    have hn : n = p.rest.length := not_not.mp (of_decide_eq_false hwhole)
    have hbefore := hcalm hfaulty'
    have hsteady := hbefore.steady
    refine ⟨?_, bounded_put hinv hphase hsteady hn⟩
    rw [hphase] at hsteady
    unfold State.put
    dsimp only
    rw [if_pos hn]
    exact hsteady.1

/-! ## The whole -/

/-- All that is known of a state. -/
structure Known (c : Config) (s : State) : Prop where
  inv : Inv c s
  sound : s.lost = false → Sound c s
  calm : s.faulty = false → Calm c s

theorem Known.new (c : Config) : Known c .new :=
  ⟨.new c, fun _ => ⟨nofun, trivial⟩, fun _ => ⟨trivial, nofun⟩⟩

theorem Known.step (h : Known c s) (hs : s.step c a = some s') : Known c s' :=
  ⟨h.inv.step hs, sound_step h.inv h.sound hs, calm_step h.inv h.calm hs⟩

/-- A step that keeps what is held and accepted keeps what is expected, exactly if it loses
nothing. -/
theorem kept_iff_of_eq (h : Known c s') (hk : Kept c s) (hheld : held c s'.disk <:+ held c s.disk)
    (haccepted : s'.accepted = s.accepted) : Kept c s' ↔ s'.lost = false := by
  refine ⟨fun hk' => hk'.sound, fun hlost => ⟨?_, hlost, h.inv.numbered, ?_, fun hfaulty =>
    (h.calm hfaulty).bounded⟩⟩
  · rw [haccepted]
    exact hheld.trans hk.suffix
  · rw [haccepted]
    exact hk.whole

/-- The end of the process loses bytes exactly if it leaves a rotation in which a file has lost its
name. -/
theorem cut_eq_false_iff (h : Sound c s) : s.cut c = false ↔
    ∀ stage r p att, s.phase = .rotating stage r p att → att.replaced = false := by
  have hsure := h.sure
  unfold State.cut
  split
  next stage r p att hphase =>
    rw [hphase] at hsure
    have hiff := hsure.rotating.held_eq_iff
    rw [decide_eq_false_iff_not, not_not, hiff, hphase]
    constructor
    · intro hreplaced stage r p att heq
      cases heq
      exact hreplaced
    · exact fun hall => hall stage r p att rfl
  next hother =>
    refine ⟨fun _ stage r p att hphase => absurd hphase ?_, fun _ => rfl⟩
    exact hother stage r p att

/-- What is held gets shorter at its beginning only. -/
theorem Attempted.suffix {d' : Disk UInt8} {replaced : Bool} (h : Attempted c d att)
    (h' : Attempted c d' { att with replaced := replaced })
    (hmono : att.replaced = true → replaced = true) : held c d' <:+ held c d := by
  have hbefore := h.before
  have hafter := h'.before
  cases hreplaced : att.replaced with
  | true =>
    rw [hreplaced, if_pos rfl] at hbefore
    rw [hmono hreplaced, if_pos rfl] at hafter
    have hsame : held c d = held c d' := List.append_cancel_left (hbefore.symm.trans hafter)
    exact hsame ▸ List.suffix_rfl
  | false =>
    rw [hreplaced] at hbefore
    exact ⟨_, hafter.symm.trans hbefore⟩

/-- A rotation that comes to its end has dropped the last archive at most. -/
theorem refresh_keeps (h : Known c s) (hk : Kept c s)
    (hphase : s.phase = .rotating (.move 0) r p att) :
    held c (s.refresh c p att).disk = held c s.disk ∧ (s.refresh c p att).lost = false := by
  have hruns := h.inv.runs
  have hsure := (h.sound hk.sound).sure
  rw [hphase] at hruns hsure
  have hname := hruns.2.2 (.inl rfl)
  have hbefore := hsure.rotating.before
  have hheld : held c (s.disk.openTruncate 0).1 = held c s.disk := by
    rw [openTruncate_of_none h.inv.wf hname]
    exact below_create h.inv.wf hname
  refine ⟨hheld, ?_⟩
  have hdropped : held c (s.disk.openTruncate 0).1 = att.before ∨
      att.oldest ++ held c (s.disk.openTruncate 0).1 = att.before := by
    rw [hheld, hbefore]
    cases att.replaced with
    | true => exact .inr rfl
    | false => exact .inl rfl
  simp only [State.refresh, hk.sound, hdropped, decide_true, Bool.not_true, Bool.or_false]

/-- Bytes that are accepted keep what is expected, exactly if the files were not rotated since
others of the event were. -/
theorem put_kept_iff (h : Known c s) (hk : Kept c s) (h' : Known c (s.put c r p n))
    (hphase : s.phase = .writing r p) (hpos : 0 < n) (hle : n ≤ p.rest.length) :
    Kept c (s.put c r p n) ↔ p.torn = false := by
  have hruns := h.inv.runs
  have hsure := (h.sound hk.sound).sure
  rw [hphase] at hruns hsure
  obtain ⟨-, hpart⟩ := hruns
  have hheld := held_append h.inv hsure (p.rest.take n)
  have hlength : (p.rest.take n).length = n := List.length_take_of_le hle
  obtain ⟨byte, hbyte⟩ := List.exists_mem_of_length_pos (hlength ▸ hpos)
  have hnew : (⟨s.event, r.file, byte⟩ : Entry) ∈ (s.put c r p n).accepted :=
    List.mem_append_right _ (List.mem_map_of_mem hbyte)
  constructor
  · intro hgood
    by_contra htorn
    obtain ⟨e, he, hevent, hfile⟩ := hpart.torn (eq_true_of_ne_false htorn)
    exact hfile (hgood.whole e (List.mem_append_left _ he) _ hnew hevent)
  · intro htorn
    have hcurrent : ∀ e ∈ (s.put c r p n).accepted, e.event = s.event → e.file = r.file := by
      intro e he hevent
      cases List.mem_append.mp he with
      | inl hold => exact hpart.whole htorn e hold hevent
      | inr hin =>
        obtain ⟨byte', -, rfl⟩ := List.mem_map.mp hin
        rfl
    have hearlier : ∀ e ∈ (s.put c r p n).accepted, e.event ≠ s.event → e ∈ s.accepted := by
      intro e he hevent
      cases List.mem_append.mp he with
      | inl hold => exact hold
      | inr hin =>
        obtain ⟨byte', -, rfl⟩ := List.mem_map.mp hin
        exact absurd rfl hevent
    refine ⟨?_, ?_, h'.inv.numbered, fun e he e' he' hsame => ?_, fun hfaulty =>
      (h'.calm hfaulty).bounded⟩
    · obtain ⟨dropped, hdropped⟩ := hk.suffix
      refine ⟨dropped, ?_⟩
      simp only [State.put, hheld, List.map_append, List.map_map, ← hdropped, List.append_assoc]
      simp [Function.comp_def]
    · simp [State.put, hk.sound, hheld]
    · by_cases hevent : e.event = s.event
      · rw [hcurrent e he hevent, hcurrent e' he' (hsame ▸ hevent)]
      · exact hk.whole e (hearlier e he hevent) e' (hearlier e' he' (hsame ▸ hevent)) hsame

/-- A step keeps what is expected exactly if it loses and tears nothing. -/
theorem kept_step_iff (h : Known c s) (hk : Kept c s) (hs : s.step c a = some s') :
    Kept c s' ↔ Untorn s a := by
  have h' := h.step hs
  have hsound := h.sound hk.sound
  have hsure := hsound.sure
  cases step_moved hs with
  | stop =>
    have hlost : (s.stop c).lost = s.cut c := by
      rw [State.stop, hk.sound, Bool.false_or]
    rw [kept_iff_of_eq h' hk List.suffix_rfl rfl, hlost]
    exact cut_eq_false_iff hsound
  | reopen =>
    have hlost : (s.reopen c).lost = s.cut c := by
      rw [State.reopen, hk.sound, Bool.false_or]
    have hheld : held c (s.reopen c).disk = held c s.disk := h.inv.held_openAppend
    rw [kept_iff_of_eq h' hk (hheld ▸ List.suffix_rfl) rfl, hlost]
    exact cut_eq_false_iff hsound
  | logged r bytes hphase | retry r p hphase =>
    rw [kept_iff_of_eq h' hk List.suffix_rfl rfl]
    exact iff_of_true hk.sound trivial
  | fail fails stage r p att hphase hfails =>
    rw [hphase] at hsure
    have hlost : (s.fail c r p att).lost = false ↔ att.replaced = false := by
      rw [State.fail, hk.sound, Bool.false_or, decide_eq_false_iff_not, not_not]
      exact hsure.rotating.held_eq_iff
    rw [kept_iff_of_eq h' hk List.suffix_rfl rfl, hlost]
    constructor
    · intro hreplaced stage' r' p' att' hphase' _
      cases hphase.symm.trans hphase'
      exact hreplaced
    · exact fun hall => hall stage r p att hphase hfails
  | drop fails r p att f hphase hfails hname =>
    have hattempt := attempted_drop h.inv hsound hphase hname
    rw [hphase] at hsure
    rw [kept_iff_of_eq h' hk (hsure.rotating.suffix hattempt fun _ => rfl) rfl]
    refine iff_of_true hk.sound fun stage' r' p' att' hphase' hfails' => absurd hfails' ?_
    cases hphase.symm.trans hphase'
    exact hfails
  | skip fails left r p att hphase hfails hname =>
    rw [kept_iff_of_eq h' hk List.suffix_rfl rfl]
    refine iff_of_true hk.sound fun stage' r' p' att' hphase' hfails' => absurd hfails' ?_
    cases hphase.symm.trans hphase'
    exact hfails
  | shift fails left r p att f hphase hfails hname =>
    have hattempt := attempted_shift h.inv hsound hphase
    rw [hphase] at hsure
    have hmono : att.replaced = true →
        (att.replaced || (s.disk.names (left + 1)).isSome) = true := by
      intro hreplaced
      rw [hreplaced, Bool.true_or]
    rw [kept_iff_of_eq h' hk (hsure.rotating.suffix hattempt hmono) rfl]
    refine iff_of_true hk.sound fun stage' r' p' att' hphase' hfails' => absurd hfails' ?_
    cases hphase.symm.trans hphase'
    exact hfails
  | refresh fails r p att hphase hfails =>
    obtain ⟨hheld, hlost⟩ := refresh_keeps h hk hphase
    rw [kept_iff_of_eq h' hk (hheld ▸ List.suffix_rfl) rfl]
    refine iff_of_true hlost fun stage' r' p' att' hphase' hfails' => absurd hfails' ?_
    cases hphase.symm.trans hphase'
    exact hfails
  | giveUp result r p hphase hresult =>
    rw [kept_iff_of_eq h' hk List.suffix_rfl rfl]
    refine iff_of_true hk.sound ?_
    cases result with
    | error | interrupted => trivial
    | accepted n => exact fun _ _ _ hpos => absurd (hresult n rfl) (Nat.ne_of_gt hpos)
  | put r p n hphase hpos hle =>
    rw [put_kept_iff h hk h' hphase hpos hle]
    constructor
    · intro htorn r' p' hphase' _
      cases hphase.symm.trans hphase'
      exact htorn
    · exact fun hall => hall r p hphase hpos

/-- All along a run the files hold what is expected, exactly if every step loses and tears
nothing. -/
theorem kept_iff_untorn {acts : List Action} {t : State}
    (hrun : run (State.step c) .new acts = some t) :
    (∀ before u, before <+: acts → run (State.step c) .new before = some u → Kept c u) ↔
      Meets (State.step c) Untorn .new acts := by
  have hnew : Kept c .new := by
    refine ⟨?_, rfl, (Inv.new c).numbered, nofun, fun _ => nofun⟩
    rw [held, below_eq_nil fun _ _ => rfl]
    exact List.nil_suffix
  exact prefixes_iff_meets_of_iff (fun _ => True) (fun _ _ _ h hs => Known.step h hs)
    (fun _ _ _ _ h hk hs => kept_step_iff h hk hs) (Known.new c) hnew hrun fun _ _ => trivial

/-- Three events of a byte each, with room for one and one archive. The last call opens the live
file anew. -/
def threeEvents (fails : Bool) : List Action :=
  [.restart false, .log [1], .write (.accepted 1),
    .log [2], .call false, .call false, .write (.accepted 1),
    .log [3], .call false, .call fails]

/-- When nothing fails the first event is dropped. -/
theorem kept_iff_untorn_threeEvents : ∃ t,
    run (State.step ⟨1, 1⟩) .new (threeEvents false) = some t ∧ held ⟨1, 1⟩ t.disk = [2] ∧
      Kept ⟨1, 1⟩ t := by
  have hmeets : Meets (State.step ⟨1, 1⟩) Untorn .new (threeEvents false) := by
    refine ⟨nofun, fun s hs => ?_⟩
    cases hs
    refine ⟨trivial, fun s hs => ?_⟩
    cases hs
    refine ⟨fun r p hphase _ => ?_, fun s hs => ?_⟩
    · cases hphase
      rfl
    cases hs
    refine ⟨trivial, fun s hs => ?_⟩
    cases hs
    refine ⟨fun stage r p att hphase _ => ?_, fun s hs => ?_⟩
    · cases hphase
      rfl
    cases hs
    refine ⟨fun stage r p att hphase _ => ?_, fun s hs => ?_⟩
    · cases hphase
      rfl
    cases hs
    refine ⟨fun r p hphase _ => ?_, fun s hs => ?_⟩
    · cases hphase
      rfl
    cases hs
    refine ⟨trivial, fun s hs => ?_⟩
    cases hs
    refine ⟨fun stage r p att hphase _ => ?_, fun s hs => ?_⟩
    · cases hphase
      rfl
    cases hs
    refine ⟨fun stage r p att hphase hfails => ?_, fun s hs => trivial⟩
    cases hphase
    cases hfails
  exact ⟨_, rfl, rfl, (kept_iff_untorn rfl).mpr hmeets _ _ List.prefix_rfl rfl⟩

/-- When the live file cannot be opened anew, the first event is gone and the rotation has
failed. -/
theorem not_kept_threeEvents :
    ¬ ∀ (c : Config) (acts : List Action) (t : State), 1 ≤ c.maxBytes →
      run (State.step c) .new acts = some t → Kept c t := by
  intro h
  have hsound := (h ⟨1, 1⟩ (threeEvents true) _ (Nat.le_refl 1) rfl).sound
  cases hsound

/-- Whatever fails, is torn or cut off: there are no more archives than there may be, every file
has the bytes that were accepted into it, in order, and as long as nothing is lost no archive is
empty. -/
theorem files_recorded (hrun : run (State.step c) .new acts = some t) :
    (∀ n, t.disk.names n ≠ none → n ≤ c.maxFiles) ∧
      (∀ f, t.disk.files f = (t.accepted.filter fun e => e.file = f).map Entry.byte) ∧
      (t.lost = false → ∀ n f, 0 < n → t.disk.names n = some f → t.disk.files f ≠ []) := by
  have h := run_invariant_of_step (Known c) (fun _ _ _ h hs => Known.step h hs) (Known.new c) hrun
  exact ⟨h.inv.numbered, h.inv.recorded, fun hlost => (h.sound hlost).archives⟩

/-- The archives keep to their number where an event is lost. -/
theorem files_recorded_threeEvents : ∃ t,
    run (State.step ⟨1, 1⟩) .new (threeEvents true) = some t ∧ t.lost = true ∧
      ∀ n, t.disk.names n ≠ none → n ≤ 1 :=
  have hrun : run (State.step ⟨1, 1⟩) .new (threeEvents true) = some _ := rfl
  ⟨_, hrun, rfl, (files_recorded hrun).1⟩

end Macrdp.LogRotation
