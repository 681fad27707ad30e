import Macrdp.StepSystem
import Macrdp.RdpeudpReceive

/-!
# Two endpoints over an adversarial network

A client and a server exchange datagrams over a network that keeps every
datagram ever sent and may deliver any of them, any number of times, in any
order and at any later time, but forges none. Each side remembers the bytes it
was given to send and the bytes it handed up.
-/

namespace Macrdp.RdpeudpNetwork

open RdpeudpDatagram RdpeudpEndpoint RdpeudpPump RdpeudpReceive SerialNumber

/-- One side with its history. -/
structure Side where
  /-- The live endpoint. -/
  endpoint : RdpeudpState
  /-- Every datagram it ever sent. -/
  emitted : List (List UInt8)
  /-- All bytes passed to `enqueue`. -/
  enqueued : List UInt8
  /-- All payload bytes handed up. -/
  delivered : List UInt8
  /-- Source segments sent, retransmissions not counted. -/
  sentSegments : ℕ

/-- A call of the endpoint. -/
inductive Call where
  | start
  | enqueue (data : List UInt8)
  /-- `step` without a datagram. -/
  | tick
  /-- `step` with the peer's datagram of this index in its history. -/
  | receive (index : ℕ)
  deriving DecidableEq, Repr

namespace Side

/-- A side that has done nothing. -/
def new (role : Role) (cfg : Config) : Side := ⟨RdpeudpState.new role cfg, [], [], [], 0⟩

/-- Record what a call produced. -/
def absorb (side : Side) (data : List UInt8) (result : RdpeudpState × StepOutput) : Side where
  endpoint := result.1
  emitted := side.emitted ++ result.2.toSend
  enqueued := side.enqueued ++ data
  delivered := side.delivered ++ result.2.delivered.flatten
  sentSegments := side.sentSegments + (result.1.sendNext - side.endpoint.sendNext).toNat

/-- Carry out a call; `none` is a panic, or a datagram that was never sent. -/
def call (side peer : Side) (nowMs : UInt64) : Call → Option Side
  | .start => (side.endpoint.start nowMs).map (side.absorb [])
  | .enqueue data => (side.endpoint.enqueue nowMs data).map (side.absorb data)
  | .tick => (side.endpoint.step nowMs none).map (side.absorb [])
  | .receive index =>
    peer.emitted[index]?.bind fun bytes =>
      (side.endpoint.step nowMs (some bytes)).map (side.absorb [])

/-- The datagram of `peer` that a call takes in, if it decodes. -/
def inbound (peer : Side) : Call → Option Datagram
  | .receive index => peer.emitted[index]?.bind fun bytes => (Datagram.decode bytes).toOption
  | _ => none

/-- A datagram that is taken in was sent. -/
theorem mem_of_inbound {peer : Side} {c : Call} {dg : Datagram} (h : peer.inbound c = some dg) :
    ∃ bytes ∈ peer.emitted, Datagram.decode bytes = .ok dg := by
  cases c with
  | receive index =>
    simp only [inbound, Option.bind_eq_some_iff] at h
    obtain ⟨bytes, hget, hdecode⟩ := h
    refine ⟨bytes, List.mem_of_getElem? hget, ?_⟩
    cases hd : Datagram.decode bytes with
    | error e => simp [hd, Except.toOption] at hdecode
    | ok d =>
      simp only [hd, Except.toOption, Option.some.injEq] at hdecode
      rw [hdecode]
  | start | enqueue data | tick => cases h

end Side

/-- Both sides and the time of the last call. -/
structure Network where
  /-- The active opener. -/
  client : Side
  /-- The passive opener. -/
  server : Side
  /-- Time of the last call. -/
  clock : UInt64

/-- One call on one side at a given time. -/
structure NetAction where
  /-- The side that is called. -/
  role : Role
  /-- The time it is called at. -/
  nowMs : UInt64
  /-- The call. -/
  call : Call
  deriving DecidableEq, Repr

namespace Network

/-- Both sides before any call. -/
def new (clientCfg serverCfg : Config) : Network :=
  ⟨.new .client clientCfg, .new .server serverCfg, 0⟩

/-- Carry out one call; time does not run backwards. -/
def step (net : Network) (a : NetAction) : Option Network :=
  if a.nowMs < net.clock then none
  else
    match a.role with
    | .client => (net.client.call net.server a.nowMs a.call).map fun client =>
        { net with client := client, clock := a.nowMs }
    | .server => (net.server.call net.client a.nowMs a.call).map fun server =>
        { net with server := server, clock := a.nowMs }

end Network

/-- A step is a call of one side, no earlier than the last; the other side is as
it was. -/
theorem step_some {net net' : Network} {a : NetAction} (h : net.step a = some net') :
    net.clock ≤ a.nowMs ∧ net'.clock = a.nowMs ∧
      ((a.role = .client ∧ net.client.call net.server a.nowMs a.call = some net'.client ∧
          net'.server = net.server) ∨
        (a.role = .server ∧ net.server.call net.client a.nowMs a.call = some net'.server ∧
          net'.client = net.client)) := by
  simp only [Network.step] at h
  split at h
  · cases h
  · next htime =>
    rw [UInt64.not_lt] at htime
    cases hrole : a.role with
    | client =>
      simp only [hrole, Option.map_eq_some_iff] at h
      obtain ⟨client, hcall, rfl⟩ := h
      exact ⟨htime, rfl, .inl ⟨rfl, hcall, rfl⟩⟩
    | server =>
      simp only [hrole, Option.map_eq_some_iff] at h
      obtain ⟨server, hcall, rfl⟩ := h
      exact ⟨htime, rfl, .inr ⟨rfl, hcall, rfl⟩⟩

/-- What a call does before it pumps: the endpoint and the output it pumps with.
`data` are the bytes the call was given. -/
inductive Prepared (side peer : Side) (c : Call) :
    List UInt8 → RdpeudpState → StepOutput → Prop where
  /-- The SYN of a client's start. -/
  | start {nowMs out} : side.endpoint.role = .client →
      push {} { side.endpoint with state := .synSent, synLastSentMs := nowMs }.synDatagram =
        some out →
      Prepared side peer c [] { side.endpoint with state := .synSent, synLastSentMs := nowMs } out
  | enqueue {data} : Prepared side peer c data
      { side.endpoint with outQueue := side.endpoint.outQueue ++ data } {}
  /-- A server's start, a tick, or a malformed datagram. -/
  | idle : Prepared side peer c [] side.endpoint {}
  | receive {dg m out} : peer.inbound c = some dg → side.endpoint.handle dg {} = some (m, out) →
      Prepared side peer c [] m out

/-- Every call prepares and then pumps. -/
theorem call_some {side peer side' : Side} {nowMs : UInt64} {c : Call}
    (h : side.call peer nowMs c = some side') :
    ∃ data m out s' out', Prepared side peer c data m out ∧
      m.pump nowMs out = some (s', out') ∧ side' = side.absorb data (s', out') := by
  cases c with
  | start =>
    simp only [Side.call, Option.map_eq_some_iff] at h
    obtain ⟨⟨s', out'⟩, hstart, rfl⟩ := h
    simp only [RdpeudpState.start] at hstart
    split at hstart
    · next hrole =>
      simp only [Option.bind_eq_bind, Option.bind_eq_some_iff] at hstart
      obtain ⟨out, hpush, hpump⟩ := hstart
      exact ⟨[], _, out, s', out', .start hrole hpush, hpump, rfl⟩
    · exact ⟨[], _, {}, s', out', .idle, hstart, rfl⟩
  | enqueue data =>
    simp only [Side.call, Option.map_eq_some_iff] at h
    obtain ⟨⟨s', out'⟩, hpump, rfl⟩ := h
    exact ⟨data, _, {}, s', out', .enqueue, hpump, rfl⟩
  | tick =>
    simp only [Side.call, Option.map_eq_some_iff] at h
    obtain ⟨⟨s', out'⟩, hpump, rfl⟩ := h
    exact ⟨[], _, {}, s', out', .idle, hpump, rfl⟩
  | receive index =>
    simp only [Side.call, Option.bind_eq_some_iff, Option.map_eq_some_iff] at h
    obtain ⟨bytes, hget, ⟨s', out'⟩, hstep, rfl⟩ := h
    cases hdecode : Datagram.decode bytes with
    | error e =>
      simp only [RdpeudpState.step, hdecode, Option.bind_eq_bind, Option.bind_some] at hstep
      exact ⟨[], _, {}, s', out', .idle, hstep, rfl⟩
    | ok dg =>
      simp only [RdpeudpState.step, hdecode, Option.bind_eq_bind, Option.bind_eq_some_iff] at hstep
      obtain ⟨⟨m, out⟩, hhandle, hpump⟩ := hstep
      have hin : peer.inbound (.receive index) = some dg := by
        simp [Side.inbound, hget, hdecode, Except.toOption]
      exact ⟨[], m, out, s', out', .receive hin hhandle, hpump, rfl⟩

/-- What a call does to the sending half of a side. -/
structure Called (side side' : Side) (data : List UInt8) (m : RdpeudpState) (out : StepOutput)
    (segs : List (List UInt8)) : Prop where
  role : side'.endpoint.role = side.endpoint.role
  cfg : side'.endpoint.cfg = side.endpoint.cfg
  /-- The prepared endpoint has the bytes of the call behind its queue, -/
  outQueue : m.outQueue = side.endpoint.outQueue ++ data
  sendNext : m.sendNext = side.endpoint.sendNext
  /-- and has released leading segments only. -/
  unacked : ∃ p, m.unacked = side.endpoint.unacked.dropWhile p
  /-- It then moves new segments into flight. -/
  pumped : Pumped m side'.endpoint segs
  enqueued : side'.enqueued = side.enqueued ++ data
  delivered : side'.delivered = side.delivered ++ out.delivered.flatten
  sentSegments : side'.sentSegments = side.sentSegments + segs.length
  /-- Every datagram that is sent is sendable once the call is done. -/
  emitted : ∃ ds : List Datagram, side'.emitted = side.emitted ++ ds.map Datagram.bytes ∧
    ∀ d ∈ ds, Sendable side'.endpoint (side'.endpoint.unacked.map Unacked.segment) d

/-- What preparing keeps, and what it sends. -/
theorem prepared_frame {side peer : Side} {c : Call} {data : List UInt8} {m : RdpeudpState}
    {out : StepOutput} (segments : List (UInt32 × List UInt8))
    (h : Prepared side peer c data m out) :
    (m.role = side.endpoint.role ∧ m.cfg = side.endpoint.cfg ∧
      m.outQueue = side.endpoint.outQueue ++ data ∧ m.sendNext = side.endpoint.sendNext ∧
      ∃ p, m.unacked = side.endpoint.unacked.dropWhile p) ∧
    ∃ ds : List Datagram, out.toSend = ds.map Datagram.bytes ∧ ∀ d ∈ ds, Sendable m segments d := by
  have hkept : side.endpoint.unacked = side.endpoint.unacked.dropWhile fun _ => false := by
    cases side.endpoint.unacked <;> rfl
  cases h with
  | start hrole hpush =>
    rw [push_some hpush]
    refine ⟨⟨rfl, rfl, by simp, rfl, _, hkept⟩, [_], rfl, ?_⟩
    intro d hd
    rw [List.mem_singleton.mp hd]
    exact .syn (.inl hrole)
  | enqueue => exact ⟨⟨rfl, rfl, rfl, rfl, _, hkept⟩, [], rfl, by simp⟩
  | idle => exact ⟨⟨rfl, rfl, by simp, rfl, _, hkept⟩, [], rfl, by simp⟩
  | receive hin hhandle =>
    obtain ⟨hh, ds, hsend, hall⟩ := handle_frame segments hhandle
    exact ⟨⟨hh.role, hh.cfg, by simp [hh.outQueue], hh.sendNext, _, hh.unacked⟩, ds,
      by simpa using hsend, hall⟩

/-- What one call of a reliable side does. -/
theorem call_spec {side peer side' : Side} {nowMs : UInt64} {c : Call}
    (hmode : side.endpoint.cfg.mode = .reliable) (h : side.call peer nowMs c = some side') :
    ∃ data m out segs, Prepared side peer c data m out ∧ Called side side' data m out segs := by
  obtain ⟨data, m, out, s', out', hprep, hpump, rfl⟩ := call_some h
  obtain ⟨⟨hrole, hcfg, hqueue, hnext, hunacked⟩, ds, hds, hsendable⟩ :=
    prepared_frame (s'.unacked.map Unacked.segment) hprep
  obtain ⟨segs, hpumped, ⟨hdelivered, ds', hds', hsendable'⟩, hcount⟩ :=
    pump_spec (by rw [hcfg]; exact hmode) hpump
  refine ⟨data, m, out, segs, hprep, ?_⟩
  constructor
  · exact hpumped.same.role.trans hrole
  · exact hpumped.same.cfg.trans hcfg
  · exact hqueue
  · exact hnext
  · exact hunacked
  · exact hpumped
  · rfl
  · simp only [Side.absorb, hdelivered]
  · simp only [Side.absorb, hpumped.sendNext, hnext]
    have hsub := serial_sub side.endpoint.sendNext (Nat.zero_le segs.length)
    rw [serial_zero] at hsub
    omega
  · refine ⟨ds ++ ds', ?_, ?_⟩
    · simp only [Side.absorb, hds', hds, List.map_append]
    · intro d hd
      have hm : Sendable m (s'.unacked.map Unacked.segment) d :=
        (List.mem_append.mp hd).elim (hsendable d) (hsendable' d)
      exact hm.congr hpumped.same.symm fun _ hmem => hmem

end Macrdp.RdpeudpNetwork
