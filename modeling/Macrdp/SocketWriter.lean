import Macrdp.StepSystem

/-!
# The shared writer of a socket

The tasks of a client loop write to one stream behind a fair mutex. A fresh audio
wave reserves its turn with a flag that the other tasks check before they ask for
the mutex and again once they have it. Before a client loop, and between two of
them, the stream is written directly.
-/

namespace Macrdp.SocketWriter

/-- The tasks of a client loop. -/
inductive Task where
  | pdu
  | display
  | events
  | audio
  | tunnel
  deriving DecidableEq

/-- A buffer that is being written. -/
structure Current where
  buf : List UInt8
  /-- The bytes the socket has not accepted. -/
  rest : List UInt8
  deriving DecidableEq

/-- Where the write of a task is. -/
inductive WriteState where
  | idle
  /-- Audio was waiting: the flag is checked again. -/
  | yielding (buf : List UInt8)
  /-- The mutex was asked for, and the task has not run since it got it. -/
  | locking (buf : List UInt8)
  | writing (current : Current)
  deriving DecidableEq

namespace WriteState

/-- The task has the mutex or waits for it. -/
def inLine : WriteState → Bool
  | .locking _ => true
  | .writing _ => true
  | _ => false

/-- The task is writing. -/
def current? : WriteState → Option Current
  | .writing c => some c
  | _ => none

/-- The buffer the task was given. -/
def buf? : WriteState → Option (List UInt8)
  | .idle => none
  | .yielding buf => some buf
  | .locking buf => some buf
  | .writing c => some c.buf

end WriteState

/-- The writer the tasks of a client loop share. -/
structure SharedWriter where
  tasks : Task → WriteState
  /-- The holder of the mutex, and behind it those who wait, in the order of asking. -/
  line : List Task
  /-- A fresh audio wave reserved the next turn. -/
  audioWaiting : Bool

namespace SharedWriter

def new : SharedWriter := ⟨fun _ => .idle, [], false⟩

/-- Move a task. -/
def set (w : SharedWriter) (t : Task) (state : WriteState) : SharedWriter :=
  { w with tasks := Function.update w.tasks t state }

@[simp] theorem set_line (w : SharedWriter) (t : Task) (state : WriteState) :
    (w.set t state).line = w.line := rfl

@[simp] theorem set_audioWaiting (w : SharedWriter) (t : Task) (state : WriteState) :
    (w.set t state).audioWaiting = w.audioWaiting := rfl

theorem set_tasks (w : SharedWriter) (t : Task) (state : WriteState) (x : Task) :
    (w.set t state).tasks x = if x = t then state else w.tasks x := by
  simp only [set, Function.update_apply]

@[simp] theorem set_tasks_self (w : SharedWriter) (t : Task) (state : WriteState) :
    (w.set t state).tasks t = state := by
  rw [set_tasks, if_pos rfl]

/-- Give the mutex to the next in line. -/
def release (w : SharedWriter) : SharedWriter := { w with line := w.line.tail }

/-- The holder of the mutex runs: it yields to audio, or starts to write. -/
def locked (w : SharedWriter) (t : Task) (buf : List UInt8) : SharedWriter :=
  if t = .audio then { w.set t (.writing ⟨buf, buf⟩) with audioWaiting := false }
  else if w.audioWaiting then w.release.set t (.yielding buf)
  else w.set t (.writing ⟨buf, buf⟩)

/-- Ask for the mutex, and go on at once if nobody has it. -/
def lock (w : SharedWriter) (t : Task) (buf : List UInt8) : SharedWriter :=
  if w.line = [] then { w with line := [t] }.locked t buf
  else { w.set t (.locking buf) with line := w.line ++ [t] }

/-- A task that is not audio waits until the flag is down. -/
def yieldToAudio (w : SharedWriter) (t : Task) (buf : List UInt8) : SharedWriter :=
  if w.audioWaiting then w.set t (.yielding buf) else w.lock t buf

/-- A task starts a write. -/
def writeClass (w : SharedWriter) (t : Task) (buf : List UInt8) : SharedWriter :=
  if t = .audio then { w with audioWaiting := true }.lock t buf else w.yieldToAudio t buf

/-- A task that waits runs. -/
def poll (w : SharedWriter) (t : Task) : Option SharedWriter :=
  match w.tasks t with
  | .yielding buf => some (w.yieldToAudio t buf)
  | .locking buf => if w.line.head? = some t then some (w.locked t buf) else none
  | _ => none

/-- The write of a task is over. -/
def done (w : SharedWriter) (t : Task) : SharedWriter := w.release.set t .idle

/-- An audio wave is waiting for its turn. -/
def audioWaits (w : SharedWriter) : Bool :=
  match w.tasks .audio with
  | .locking _ => true
  | _ => false

/-- All writes are dropped; the guard of a waiting audio wave lowers the flag. -/
def drop (w : SharedWriter) : SharedWriter where
  tasks := fun _ => .idle
  line := []
  audioWaiting := if w.audioWaits then false else w.audioWaiting

end SharedWriter

/-- What the connection does. -/
inductive Phase where
  /-- The sequences before a client loop write to the stream. -/
  | direct
  | looping
  /-- The stream is not used any more. -/
  | over
  deriving DecidableEq

/-- A connection and its stream. -/
structure System where
  /-- The bytes that reached the socket. -/
  wire : List UInt8
  /-- A write has failed. -/
  failed : Bool
  /-- The buffers that were passed to the writer. -/
  passed : List (List UInt8)
  phase : Phase
  /-- The write of the sequences before a client loop. -/
  directWrite : Option Current
  /-- The display task is announcing a reactivation. -/
  resizing : Bool
  /-- The writer of the client loop, or what dropping it left. -/
  writer : SharedWriter

/-- A step of the connection. -/
inductive Action where
  | directBegin (buf : List UInt8)
  /-- The socket accepts some bytes. -/
  | directAccept (count : ℕ)
  | directFinish
  | directFail
  | clientLoop
  | begin (t : Task) (buf : List UInt8)
  /-- The display task has seen a resize: it deactivates the client. -/
  | resize (buf : List UInt8)
  | poll (t : Task)
  /-- The socket accepts some bytes. -/
  | accept (t : Task) (count : ℕ)
  | finish (t : Task)
  | fail (t : Task)
  /-- The connection ends, wherever it is. -/
  | close
  deriving DecidableEq

namespace System

/-- The connection is new. -/
def init : System where
  wire := []
  failed := false
  passed := []
  phase := .direct
  directWrite := none
  resizing := false
  writer := .new

/-- The bytes the socket accepts of a write. -/
def push (s : System) (c : Current) (count : ℕ) : Option (System × Current) :=
  if s.failed = false ∧ count ≤ c.rest.length then
    some ({ s with wire := s.wire ++ c.rest.take count }, { c with rest := c.rest.drop count })
  else none

/-- The write of a task, in a client loop. -/
def writeOf (s : System) (t : Task) : Option Current :=
  if s.phase = .looping then (s.writer.tasks t).current? else none

/-- The write of the sequences, before a client loop. -/
def writeDirect (s : System) : Option Current :=
  if s.phase = .direct then s.directWrite else none

/-- The client loop ends: what its tasks were doing is dropped. -/
def leave (s : System) (phase : Phase) : System :=
  { s with phase, writer := s.writer.drop, resizing := false }

/-- The tasks that can start a write. -/
def canBegin (s : System) (t : Task) : Bool :=
  decide (s.phase = .looping) && decide (s.writer.tasks t = .idle) && decide (t ≠ .tunnel) &&
    !(decide (t = .display) && s.resizing)

/-- One step of the connection. -/
def step (s : System) : Action → Option System
  | .directBegin buf =>
    if s.phase = .direct ∧ s.directWrite = none then
      some { s with directWrite := some ⟨buf, buf⟩, passed := buf :: s.passed }
    else none
  | .directAccept count =>
    s.writeDirect.bind fun c => (s.push c count).map fun (s', c') =>
      { s' with directWrite := some c' }
  | .directFinish =>
    s.writeDirect.bind fun c => if c.rest = [] then some { s with directWrite := none } else none
  | .directFail =>
    s.writeDirect.map fun _ => { s with directWrite := none, failed := true }
  | .clientLoop =>
    if s.phase = .direct ∧ s.directWrite = none then
      some { s with phase := .looping, writer := .new }
    else none
  | .begin t buf =>
    if s.canBegin t then
      some { s with writer := s.writer.writeClass t buf, passed := buf :: s.passed }
    else none
  | .resize buf =>
    if s.canBegin .display then
      some { s with
        writer := s.writer.writeClass .display buf, passed := buf :: s.passed, resizing := true }
    else none
  | .poll t =>
    if s.phase = .looping then (s.writer.poll t).map fun w => { s with writer := w } else none
  | .accept t count =>
    (s.writeOf t).bind fun c => (s.push c count).map fun (s', c') =>
      { s' with writer := s.writer.set t (.writing c') }
  | .finish t =>
    (s.writeOf t).bind fun c =>
      if c.rest = [] then
        -- the display task returns in the poll that completes its announcement
        if t = .display ∧ s.resizing then some (s.leave .direct)
        else some { s with writer := s.writer.done t }
      else none
  | .fail t => (s.writeOf t).map fun _ => { s with writer := s.writer.done t, failed := true }
  | .close => if s.phase = .over then none else some (s.leave .over)

end System

end Macrdp.SocketWriter
