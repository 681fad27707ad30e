import Mathlib.Algebra.Order.Ring.Nat
import Mathlib.Data.List.Basic
import Mathlib.Logic.Function.Basic

/-!
# The outbound packet scheduler

Six FIFO queues of complete wire buffers, one a traffic class, share a byte
budget. Control and audio are urgent and are selected first within a burst
budget; the data classes share eight weighted round-robin slots. Counters are
`u64` values that saturate; the burst budget is a `usize` whose decrement
wraps, as in a release build of the server.
-/

namespace Macrdp.OutboundScheduling

/-- Outbound traffic class. Ordering is FIFO within each class. -/
inductive OutboundClass where
  | control
  | audio
  | clipboard
  | egfx
  | display
  | bulk
  deriving DecidableEq, Repr

/-- Every class, in the order of its queue index. -/
def OutboundClass.all : List OutboundClass :=
  [.control, .audio, .clipboard, .egfx, .display, .bulk]

/-- The weighted round-robin slots of the data classes. -/
def OutboundClass.dataSlots : List OutboundClass :=
  [.clipboard, .egfx, .egfx, .egfx, .display, .display, .bulk, .bulk]

/-- The class served by a round-robin slot. -/
def OutboundClass.dataSlot (cursor : Fin 8) : OutboundClass :=
  OutboundClass.dataSlots.get cursor

/-- Control and audio, the classes served inside the burst budget. -/
def OutboundClass.isUrgent : OutboundClass → Bool
  | .control | .audio => true
  | _ => false

/-- One complete wire buffer; the scheduler never splits or mutates it. -/
structure OutboundPacket where
  /-- The traffic class the buffer belongs to. -/
  cls : OutboundClass
  /-- The complete framed bytes. -/
  bytes : List UInt8
  deriving DecidableEq, Repr

/-- Length of the wire buffer. -/
def OutboundPacket.len (packet : OutboundPacket) : ℕ := packet.bytes.length

/-- A full queue returns the rejected packet to its caller. -/
inductive EnqueueError where
  | queueFull (packet : OutboundPacket)
  deriving DecidableEq, Repr

/-- Result of an audio admission check made before the wave is framed. -/
inductive AudioEnqueue where
  | enqueued
  | droppedBeforeFraming (estimatedBytes : ℕ)
  deriving DecidableEq, Repr

/-- Largest `u64`, at which the cumulative counters saturate. -/
def u64Max : ℕ := 2 ^ 64 - 1

/-- `u64::saturating_add` of a counter and a length. -/
def saturatingAdd (a : UInt64) (b : ℕ) : UInt64 := UInt64.ofNat (min (a.toNat + b) u64Max)

/-- Single-thread-owned scheduler state. -/
structure OutboundScheduler where
  /-- One FIFO a class, oldest buffer first. -/
  queues : OutboundClass → List OutboundPacket
  /-- Bytes queued in each class. -/
  classBytes : OutboundClass → ℕ
  /-- Bytes queued in all classes. -/
  queuedBytes : ℕ
  /-- Byte budget of the whole scheduler. -/
  maxBytes : ℕ
  /-- Next round-robin slot of the data classes. -/
  dataCursor : Fin 8
  /-- Urgent selections left before data must be served. -/
  urgentRemaining : UInt64
  /-- Packets accepted since creation. -/
  enqueuedPackets : UInt64
  /-- Packets returned to their caller since creation. -/
  rejectedPackets : UInt64
  /-- Packets popped since creation. -/
  sentPackets : UInt64
  /-- Bytes popped since creation. -/
  sentBytes : UInt64
  /-- Audio waves dropped before framing. -/
  audioDroppedPackets : UInt64
  /-- Estimated bytes of the dropped audio waves. -/
  audioDroppedBytes : UInt64

/-- Urgent selections allowed between two data selections. -/
def maxUrgentBurst : UInt64 := 8

/-- Bound on one coalesced same-class write. -/
def maxCoalescedBytes : ℕ := 64 * 1024

namespace OutboundScheduler

/-- An empty scheduler with the given byte budget. -/
def new (maxBytes : ℕ) : OutboundScheduler where
  queues := fun _ => []
  classBytes := fun _ => 0
  queuedBytes := 0
  maxBytes := maxBytes
  dataCursor := 0
  urgentRemaining := maxUrgentBurst
  enqueuedPackets := 0
  rejectedPackets := 0
  sentPackets := 0
  sentBytes := 0
  audioDroppedPackets := 0
  audioDroppedBytes := 0

/-- Number of packets queued in all classes. -/
def len (s : OutboundScheduler) : ℕ :=
  (OutboundClass.all.map fun c => (s.queues c).length).sum

/-- Emptiness as the source tests it: no bytes are queued. -/
def isEmpty (s : OutboundScheduler) : Bool := s.queuedBytes == 0

/-- Whether a buffer of this many bytes fits the remaining budget. -/
def hasCapacityFor (s : OutboundScheduler) (bytes : ℕ) : Bool :=
  decide (bytes ≤ s.maxBytes - s.queuedBytes)

/-- Count an audio wave dropped before it was framed. -/
def recordAudioDrop (s : OutboundScheduler) (estimatedBytes : ℕ) : OutboundScheduler :=
  { s with
    audioDroppedPackets := saturatingAdd s.audioDroppedPackets 1
    audioDroppedBytes := saturatingAdd s.audioDroppedBytes estimatedBytes }

/-- Enqueue one complete wire buffer; a full queue returns it. -/
def tryPush (s : OutboundScheduler) (packet : OutboundPacket) :
    OutboundScheduler × Except EnqueueError Unit :=
  if s.hasCapacityFor packet.len = false then
    ({ s with rejectedPackets := saturatingAdd s.rejectedPackets 1 },
      .error (.queueFull packet))
  else
    ({ s with
        enqueuedPackets := saturatingAdd s.enqueuedPackets 1
        queuedBytes := s.queuedBytes + packet.len
        classBytes := Function.update s.classBytes packet.cls
          (s.classBytes packet.cls + packet.len)
        queues := Function.update s.queues packet.cls (s.queues packet.cls ++ [packet]) },
      .ok ())

/-- Admit audio before framing it: `build` runs only when the upper bound fits. -/
def tryPushAudio (s : OutboundScheduler) (upperBoundBytes : ℕ) (build : Unit → List UInt8) :
    OutboundScheduler × Except EnqueueError AudioEnqueue :=
  if s.hasCapacityFor upperBoundBytes = false then
    (s.recordAudioDrop upperBoundBytes, .ok (.droppedBeforeFraming upperBoundBytes))
  else
    match s.tryPush ⟨.audio, build ()⟩ with
    | (s', .error e) => (s', .error e)
    | (s', .ok ()) => (s', .ok .enqueued)

/-- Remove the oldest buffer of one class and account for it. -/
def popClass (s : OutboundScheduler) (c : OutboundClass) :
    OutboundScheduler × Option OutboundPacket :=
  match s.queues c with
  | [] => (s, none)
  | packet :: rest =>
    ({ s with
        queues := Function.update s.queues c rest
        queuedBytes := s.queuedBytes - packet.len
        classBytes := Function.update s.classBytes c (s.classBytes c - packet.len)
        sentPackets := saturatingAdd s.sentPackets 1
        sentBytes := saturatingAdd s.sentBytes packet.len },
      some packet)

/-- Whether any data class has a queued buffer. -/
def hasData (s : OutboundScheduler) : Bool :=
  OutboundClass.dataSlots.any fun c => !(s.queues c).isEmpty

/-- Whether an urgent class has a queued buffer. -/
def urgentAvailable (s : OutboundScheduler) : Bool :=
  !(s.queues .control).isEmpty || !(s.queues .audio).isEmpty

/-- Visit at most `turns` round-robin slots, popping from the first that is
not empty; the cursor moves past every visited slot. -/
def popDataLoop : ℕ → OutboundScheduler → OutboundScheduler × Option OutboundPacket
  | 0, s => (s, none)
  | turns + 1, s =>
    match ({ s with dataCursor := s.dataCursor + 1 }).popClass
        (OutboundClass.dataSlot s.dataCursor) with
    | (s', some packet) => (s', some packet)
    | (s', none) => popDataLoop turns s'

/-- One weighted round-robin selection over all eight slots. -/
def popData (s : OutboundScheduler) : OutboundScheduler × Option OutboundPacket :=
  popDataLoop OutboundClass.dataSlots.length s

/-- Pop the oldest control buffer, or else the oldest audio buffer. -/
def popUrgent (s : OutboundScheduler) : OutboundScheduler × Option OutboundPacket :=
  match s.popClass .control with
  | (s', some packet) => (s', some packet)
  | (s', none) => s'.popClass .audio

/-- Whether the guard of the urgent branch of `popNext` lets it run. -/
def urgentTurn (s : OutboundScheduler) : Bool :=
  s.urgentAvailable && (decide (0 < s.urgentRemaining) || !s.hasData)

/-- The part of `popNext` after the urgent branch: a data selection, and else
a reset of the burst budget and an urgent pop outside it. -/
def popAfterUrgent (s : OutboundScheduler) : OutboundScheduler × Option OutboundPacket :=
  match s.popData with
  | (s', some packet) => ({ s' with urgentRemaining := maxUrgentBurst }, some packet)
  | (s', none) => ({ s' with urgentRemaining := maxUrgentBurst }).popUrgent

/-- Select the next packet: bounded urgent priority, then weighted data. -/
def popNext (s : OutboundScheduler) : OutboundScheduler × Option OutboundPacket :=
  if s.urgentTurn then
    match s.popUrgent with
    | (s', some packet) =>
      ({ s' with urgentRemaining := s'.urgentRemaining - 1 }, some packet)
    | (s', none) => s'.popAfterUrgent
  else
    s.popAfterUrgent

/-- Append queued buffers of the packet's class while the write stays within
the coalescing bound. The fuel is the length of that queue. -/
def coalesceLoop : ℕ → OutboundScheduler → OutboundPacket → OutboundScheduler × OutboundPacket
  | 0, s, packet => (s, packet)
  | fuel + 1, s, packet =>
    if packet.len < maxCoalescedBytes then
      match (s.queues packet.cls).head? with
      | none => (s, packet)
      | some next =>
        if maxCoalescedBytes < packet.len + next.len then
          (s, packet)
        else
          match s.popClass packet.cls with
          | (s', some next) =>
            coalesceLoop fuel s' { packet with bytes := packet.bytes ++ next.bytes }
          | (s', none) => (s', packet)
    else
      (s, packet)

/-- Coalesce the selected packet with the buffers queued behind it. -/
def coalesceSameClass (s : OutboundScheduler) (packet : OutboundPacket) :
    OutboundScheduler × OutboundPacket :=
  coalesceLoop (s.queues packet.cls).length s packet

/-- Select and coalesce consecutive buffers of the selected class. -/
def popNextCoalesced (s : OutboundScheduler) : OutboundScheduler × Option OutboundPacket :=
  match s.popNext with
  | (s', none) => (s', none)
  | (s', some packet) =>
    let merged := s'.coalesceSameClass packet
    (merged.1, some merged.2)

variable {s : OutboundScheduler}

/-- An empty class is left as it was. -/
theorem popClass_nil {c : OutboundClass} (h : s.queues c = []) : s.popClass c = (s, none) := by
  simp only [popClass, h]

/-- A class with a buffer gives up exactly its oldest one. -/
theorem popClass_cons {c : OutboundClass} {packet : OutboundPacket}
    {rest : List OutboundPacket} (h : s.queues c = packet :: rest) :
    s.popClass c =
      ({ s with
          queues := Function.update s.queues c rest
          queuedBytes := s.queuedBytes - packet.len
          classBytes := Function.update s.classBytes c (s.classBytes c - packet.len)
          sentPackets := saturatingAdd s.sentPackets 1
          sentBytes := saturatingAdd s.sentBytes packet.len },
        some packet) := by
  simp only [popClass, h]

/-- Data waits exactly when some data class is not empty. -/
theorem hasData_iff : s.hasData = true ↔ ∃ c, c.isUrgent = false ∧ s.queues c ≠ [] := by
  simp only [hasData, OutboundClass.dataSlots, List.any_cons, List.any_nil, Bool.or_eq_true,
    Bool.not_eq_true', List.isEmpty_eq_false_iff, Bool.false_eq_true, or_false]
  constructor
  · rintro (h | h | h | h | h | h | h | h) <;> exact ⟨_, rfl, h⟩
  · rintro ⟨c, hc, h⟩
    cases c <;> simp_all [OutboundClass.isUrgent]

/-- Urgent traffic waits exactly when control or audio is not empty. -/
theorem urgentAvailable_iff :
    s.urgentAvailable = true ↔ ∃ c, c.isUrgent = true ∧ s.queues c ≠ [] := by
  simp only [urgentAvailable, Bool.or_eq_true, Bool.not_eq_true', List.isEmpty_eq_false_iff]
  constructor
  · rintro (h | h) <;> exact ⟨_, rfl, h⟩
  · rintro ⟨c, hc, h⟩
    cases c <;> simp_all [OutboundClass.isUrgent]

/-- Every slot serves a data class. -/
theorem dataSlot_isUrgent (cursor : Fin 8) : (OutboundClass.dataSlot cursor).isUrgent = false := by
  revert cursor
  decide

/-- Every data class owns a slot. -/
theorem exists_dataSlot {c : OutboundClass} (h : c.isUrgent = false) :
    ∃ cursor, OutboundClass.dataSlot cursor = c := by
  revert h
  cases c <;> decide

end OutboundScheduler
end Macrdp.OutboundScheduling
