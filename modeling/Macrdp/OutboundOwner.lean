import Macrdp.OutboundScheduling

/-!
# The socket owner loop

The owner of the socket takes packets from a bounded channel, admits them to
the scheduler and writes what the scheduler selects, until the channel closes
or a shutdown is requested. The loop is a step function: each step is what the
loop does between two points at which producers, the shutdown flag or the
socket can act.
-/

namespace Macrdp.OutboundOwner

open OutboundScheduling

/-- The bounded channel between the producers and the owner. Producers hold no
permits: a packet is either not sent or in the channel. -/
structure Ingress where
  /-- Packets sent and not received, oldest first. -/
  queue : List OutboundPacket
  /-- Most packets the channel holds. -/
  capacity : ℕ
  /-- Whether some producer still holds a sender. -/
  senders : Bool
  /-- Whether the receiver has been closed or dropped. -/
  closed : Bool

/-- Why `tryRecv` returned no packet. -/
inductive TryRecvError where
  | empty
  | disconnected
  deriving DecidableEq, Repr

namespace Ingress

/-- A new channel of the given capacity. -/
def new (capacity : ℕ) : Ingress := ⟨[], capacity, true, false⟩

/-- Whether no further packet can enter the channel. -/
def disconnected (ch : Ingress) : Bool := ch.closed || !ch.senders

/-- Send a packet; a full or disconnected channel takes none. -/
def send (ch : Ingress) (packet : OutboundPacket) : Option Ingress :=
  if ch.disconnected || decide (ch.capacity ≤ ch.queue.length) then none
  else some { ch with queue := ch.queue ++ [packet] }

/-- Receive without waiting. What is queued stays readable after a close. -/
def tryRecv (ch : Ingress) : Ingress × Except TryRecvError OutboundPacket :=
  match ch.queue with
  | packet :: rest => ({ ch with queue := rest }, .ok packet)
  | [] => (ch, .error (if ch.disconnected then .disconnected else .empty))

/-- Receive, waiting on an empty channel; `none` means still waiting. -/
def recv (ch : Ingress) : Option (Ingress × Option OutboundPacket) :=
  match ch.tryRecv with
  | (ch', .ok packet) => some (ch', some packet)
  | (_, .error .empty) => none
  | (ch', .error .disconnected) => some (ch', none)

end Ingress

/-- Why a received packet was not admitted to the scheduler. -/
inductive AdmissionError where
  | tooLarge (packet : OutboundPacket)
  | queueFull (packet : OutboundPacket)
  deriving DecidableEq, Repr

/-- The error a run ends with. -/
inductive RunError where
  /-- `InvalidInput`: a packet of this length exceeds the byte budget. -/
  | exceedsByteBudget (len : ℕ)
  /-- `InvalidInput`: a packet was refused by an empty scheduler. -/
  | cannotBeAdmitted
  /-- The error of the failing socket write. -/
  | writeFailed
  deriving DecidableEq, Repr

/-- Whether the error is of kind `InvalidInput`. -/
def RunError.isInvalidInput : RunError → Bool
  | .exceedsByteBudget _ | .cannotBeAdmitted => true
  | .writeFailed => false

/-- Where the loop stands between two of its steps. -/
inductive LoopPoint where
  /-- The head of the loop. -/
  | head
  /-- Waiting for the shutdown or a packet. -/
  | waiting
  /-- About to take in the pending packet. -/
  | pending
  /-- Draining the channel into the scheduler. -/
  | ingress
  /-- About to write, or to leave the loop. -/
  | write
  /-- The run has returned. -/
  | returned
  deriving DecidableEq, Repr

/-- One call of `write_all` on the socket. -/
structure WriteAttempt where
  /-- The buffer handed to the socket. -/
  packet : OutboundPacket
  /-- Whether the call returned without an error. -/
  succeeded : Bool
  deriving DecidableEq, Repr

/-- The variables of the loop, its surroundings and what passed through. -/
structure Owner where
  /-- The scheduler the owner selects writes with. -/
  scheduler : OutboundScheduler
  /-- The byte budget read from the scheduler before the loop. -/
  maxBytes : ℕ
  /-- The channel the producers send into. -/
  receiver : Ingress
  /-- The shutdown flag. -/
  shutdown : Bool
  /-- A received packet that is not admitted yet. -/
  pending : Option OutboundPacket
  /-- Whether the loop has seen the end of the channel. -/
  closed : Bool
  /-- Packets admitted since the head of the loop. -/
  admittedThisTurn : ℕ
  /-- The next step of the loop. -/
  point : LoopPoint
  /-- What the run returned, once it has. -/
  result : Option (Except RunError Unit)
  /-- Every packet the channel accepted, in order. -/
  accepted : List OutboundPacket
  /-- Every call of `write_all`, in order. -/
  writes : List WriteAttempt

/-- One step of the loop or of its surroundings. -/
inductive OwnerAction where
  /-- A producer sends a packet. -/
  | send (packet : OutboundPacket)
  /-- The last producer drops its sender. -/
  | dropSenders
  /-- Somebody requests the shutdown. -/
  | requestShutdown
  /-- The loop takes a step; the flags say which branch of the wait completes
  and whether a write that is made succeeds. -/
  | turn (shutdownFired writeSucceeds : Bool)
  deriving DecidableEq, Repr

/-- Most packets admitted between two socket writes. -/
def maxIngressBatch : ℕ := 64

/-- Admit one received packet: refuse what can never fit, keep what does not
fit now. -/
def admitPacket (scheduler : OutboundScheduler) (packet : OutboundPacket) (maxBytes : ℕ) :
    OutboundScheduler × Except AdmissionError Unit :=
  if maxBytes < packet.len then
    (scheduler, .error (.tooLarge packet))
  else
    match scheduler.tryPush packet with
    | (scheduler', .ok ()) => (scheduler', .ok ())
    | (scheduler', .error (.queueFull packet)) => (scheduler', .error (.queueFull packet))

namespace Owner

/-- An owner about to run on a new channel. -/
def new (maxBytes capacity : ℕ) : Owner where
  scheduler := OutboundScheduler.new maxBytes
  maxBytes := maxBytes
  receiver := Ingress.new capacity
  shutdown := false
  pending := none
  closed := false
  admittedThisTurn := 0
  point := .head
  result := none
  accepted := []
  writes := []

/-- Return from the run, which drops the receiver. -/
def finish (o : Owner) (result : Except RunError Unit) : Owner :=
  { o with
    result := some result
    receiver := { o.receiver with closed := true }
    point := .returned }

/-- `receiver.close()` and the end of the channel as the loop sees it. -/
def closeReceiver (o : Owner) : Owner :=
  { o with receiver := { o.receiver with closed := true }, closed := true }

/-- The head of the loop: wait only when there is no work already admitted. -/
def stepHead (o : Owner) : Owner :=
  if o.pending.isNone && o.scheduler.isEmpty && !o.closed then
    if o.shutdown then { o.closeReceiver with point := .pending }
    else { o with point := .waiting }
  else
    { o with point := .pending }

/-- The wait for a shutdown or a packet, whichever completes. -/
def stepWaiting (o : Owner) (shutdownFired : Bool) : Option Owner :=
  if shutdownFired then
    if o.shutdown then some { o.closeReceiver with point := .pending } else none
  else
    match o.receiver.recv with
    | none => none
    | some (receiver, some packet) =>
      some { o with receiver := receiver, pending := some packet, point := .pending }
    | some (receiver, none) =>
      some { o with receiver := receiver, closed := true, point := .pending }

/-- Admit a packet in hand, count it, keep it pending, or fail the run. -/
def stepAdmit (o : Owner) (packet : OutboundPacket) : Owner :=
  match admitPacket o.scheduler packet o.maxBytes with
  | (scheduler, .ok ()) =>
    { o with scheduler := scheduler, admittedThisTurn := o.admittedThisTurn + 1 }
  | (scheduler, .error (.tooLarge packet)) =>
    { o with scheduler := scheduler }.finish (.error (.exceedsByteBudget packet.len))
  | (scheduler, .error (.queueFull packet)) =>
    { o with scheduler := scheduler, pending := some packet }

/-- Start the admissions of this turn with the pending packet, if any. -/
def stepPending (o : Owner) : Owner :=
  match o.pending with
  | none => { o with admittedThisTurn := 0, point := .ingress }
  | some packet =>
    { o with admittedThisTurn := 0, pending := none, point := .ingress }.stepAdmit packet

/-- One round of draining the channel into the scheduler. -/
def stepIngress (o : Owner) : Owner :=
  if o.pending.isNone && decide (o.admittedThisTurn < maxIngressBatch) then
    match o.receiver.tryRecv with
    | (receiver, .ok packet) => { o with receiver := receiver }.stepAdmit packet
    | (receiver, .error .empty) => { o with receiver := receiver, point := .write }
    | (receiver, .error .disconnected) =>
      { o with receiver := receiver, closed := true, point := .write }
  else
    { o with point := .write }

/-- Write one selected buffer, or leave the loop, or go round again. -/
def stepWrite (o : Owner) (writeSucceeds : Bool) : Owner :=
  if !o.scheduler.isEmpty then
    match o.scheduler.popNextCoalesced with
    | (scheduler, none) => { o with scheduler := scheduler, point := .head }
    | (scheduler, some packet) =>
      let attempt : WriteAttempt := ⟨packet, writeSucceeds⟩
      let o : Owner := { o with scheduler := scheduler, writes := o.writes ++ [attempt] }
      if writeSucceeds then { o with point := .head }
      else { o with shutdown := true }.finish (.error .writeFailed)
  else if o.pending.isSome then
    o.finish (.error .cannotBeAdmitted)
  else if o.closed then
    o.finish (.ok ())
  else
    { o with point := .head }

/-- One step of the loop, by where it stands; a run that has returned takes no
further step. -/
def stepLoop (o : Owner) (shutdownFired writeSucceeds : Bool) : Option Owner :=
  match o.point with
  | .head => some o.stepHead
  | .waiting => o.stepWaiting shutdownFired
  | .pending => some o.stepPending
  | .ingress => some o.stepIngress
  | .write => some (o.stepWrite writeSucceeds)
  | .returned => none

/-- One step of the loop or of its surroundings. -/
def step (o : Owner) : OwnerAction → Option Owner
  | .send packet => (o.receiver.send packet).map fun receiver =>
      { o with receiver := receiver, accepted := o.accepted ++ [packet] }
  | .dropSenders => some { o with receiver := { o.receiver with senders := false } }
  | .requestShutdown => some { o with shutdown := true }
  | .turn shutdownFired writeSucceeds => o.stepLoop shutdownFired writeSucceeds

/-- The buffers passed to `write_all`, in order. -/
def written (o : Owner) : List OutboundPacket := o.writes.map WriteAttempt.packet

end Owner
end Macrdp.OutboundOwner
