import Mathlib.Data.List.AList
import Macrdp.RdpeudpDatagram
import Macrdp.SerialNumber

/-!
# The transport endpoint

The state machine of one end of the UDP transport: it takes inbound datagrams
and a millisecond clock, and gives the payloads to deliver and the datagrams to
send. `none` is a panic of the source, where a datagram did not fit the buffer
it is encoded to.
-/

namespace Macrdp.RdpeudpEndpoint

open RdpeudpPdu RdpeudpDatagram

/-- Which end of the connection an endpoint is. -/
inductive Role where
  /-- The active opener, which sends the SYN. -/
  | client
  /-- The passive opener, which answers with the SYN+ACK. -/
  | server
  deriving DecidableEq, Repr

/-- How source payloads are delivered and sent. -/
inductive DeliveryMode where
  /-- In order, each once, retransmitted until acknowledged. -/
  | reliable
  /-- On arrival, sent once. -/
  | lossy
  deriving DecidableEq, Repr

/-- Configuration of one connection, with its defaults. -/
structure Config where
  /-- Advertised receive window, in datagrams. -/
  recvWindow : UInt16 := 64
  /-- MTU, which bounds the payload of a datagram. -/
  mtu : UInt16 := 1232
  /-- Initial sequence number, taken by the SYN. -/
  initialSeq : UInt32 := 0
  /-- Retransmission timeout in milliseconds. -/
  rtoMs : UInt64 := 300
  /-- Delivery policy. -/
  mode : DeliveryMode := .reliable
  /-- Send each lossy datagram twice. -/
  duplicateLossySends : Bool := false
  deriving DecidableEq

/-- What one call of the endpoint produced. -/
structure StepOutput where
  /-- Payloads to hand up, in order. -/
  delivered : List (List UInt8) := []
  /-- Encoded datagrams to send. -/
  toSend : List (List UInt8) := []
  /-- Data segments retransmitted. -/
  retransmits : ℕ := 0
  /-- Whether the SYN was retransmitted. -/
  synRetransmit : Bool := false
  deriving DecidableEq

/-- State of the open. -/
inductive ConnState where
  /-- Server, before any SYN. -/
  | listen
  /-- Client, awaiting the SYN+ACK. -/
  | synSent
  | established
  deriving DecidableEq, Repr

/-- A segment sent and not acknowledged. -/
structure Unacked where
  /-- Its sequence number. -/
  seq : UInt32
  /-- Its payload. -/
  payload : List UInt8
  /-- When it was last sent. -/
  lastSentMs : UInt64
  deriving DecidableEq

/-- A segment as it is known on the wire: its number and its payload. -/
def Unacked.segment (u : Unacked) : UInt32 × List UInt8 := (u.seq, u.payload)

/-- One end of the transport. -/
structure RdpeudpState where
  /-- Which end this is. -/
  role : Role
  /-- State of the open. -/
  state : ConnState
  /-- Configuration. -/
  cfg : Config
  /-- The peer's receive window, negotiated. -/
  peerRecvWindow : UInt16
  /-- The peer's initial sequence number. -/
  peerIsn : UInt32
  /-- Version negotiated from the SYN. -/
  negotiatedVersion : UdpVersion
  /-- Sequence number of the next new segment. -/
  sendNext : UInt32
  /-- Bytes queued and not sent. -/
  outQueue : List UInt8
  /-- Segments in flight, oldest first. -/
  unacked : List Unacked
  /-- When the SYN was last sent. -/
  synLastSentMs : UInt64
  /-- Next in-order sequence number to receive. -/
  recvNext : UInt32
  /-- Segments received ahead of order. -/
  reorder : AList fun _ : UInt32 => List UInt8
  /-- Whether an acknowledgment is owed. -/
  needAck : Bool
  /-- Whether the peer's numbering is known. -/
  havePeerSeq : Bool

/-- `a <= b` in 32-bit wrapping sequence space. -/
def seqLeq (a b : UInt32) : Bool := decide (b - a < 0x80000000)

/-- FEC header, smallest acknowledgment vector and source payload header. -/
def headersOverhead : ℕ := 8 + 4 + 8

/-- Encode a datagram and queue it for sending; `none` is the panic of a
datagram that does not fit. -/
def push (out : StepOutput) (d : Datagram) : Option StepOutput :=
  match d.encode with
  | .ok bytes => some { out with toSend := out.toSend ++ [bytes] }
  | .error _ => none

/-- Runs of at most 63 received datagrams that cover `count` of them. The fuel
is the count. -/
def ackRuns : ℕ → ℕ → List AckVectorElement
  | 0, _ => []
  | fuel + 1, count =>
    if count = 0 then []
    else ⟨.received, UInt8.ofNat (min count 63)⟩ :: ackRuns fuel (count - min count 63)

namespace RdpeudpState

/-- A new endpoint; the SYN takes the initial sequence number. -/
def new (role : Role) (cfg : Config) : RdpeudpState where
  role := role
  state := match role with
    | .client => .synSent
    | .server => .listen
  cfg := cfg
  peerRecvWindow := 1
  peerIsn := 0
  negotiatedVersion := .v2
  sendNext := cfg.initialSeq + 1
  outQueue := []
  unacked := []
  synLastSentMs := 0
  recvNext := 0
  reorder := ∅
  needAck := false
  havePeerSeq := false

/-- Whether the open is complete. -/
def isEstablished (s : RdpeudpState) : Bool := s.state == .established

/-- The cumulative acknowledgment: the highest in-order number, `-1` before the
peer's numbering is known. -/
def ackNum (s : RdpeudpState) : Int32 :=
  if s.havePeerSeq then (s.recvNext - 1).toInt32 else -1

/-- The selective acknowledgment of the in-order run, bounded by the advertised
window. -/
def ackVector (s : RdpeudpState) : AckVectorHeader :=
  if s.havePeerSeq then
    let count := min ((s.recvNext - s.peerIsn).toNat - 1) s.cfg.recvWindow.toNat
    ⟨ackRuns count count⟩
  else
    ⟨[]⟩

/-- The SYN payload of this end. -/
def synData (s : RdpeudpState) : SynData := ⟨s.cfg.initialSeq, s.cfg.mtu, s.cfg.mtu⟩

/-- The SYN of a client. -/
def synDatagram (s : RdpeudpState) : Datagram :=
  .ofSyn s.ackNum s.cfg.recvWindow s.synData none none

/-- The SYN+ACK of a server. -/
def synAckDatagram (s : RdpeudpState) : Datagram :=
  .ofSynAck s.peerIsn s.cfg.recvWindow s.synData s.negotiatedVersion

/-- The datagram of a source segment. -/
def dataDatagram (s : RdpeudpState) (seq : UInt32) (payload : List UInt8)
    (ackVector : AckVectorHeader) : Datagram :=
  .ofData s.ackNum s.cfg.recvWindow ackVector ⟨⟨seq, seq⟩, payload⟩

/-- A pure acknowledgment. -/
def ackDatagram (s : RdpeudpState) (ackVector : AckVectorHeader) : Datagram :=
  .ofAck s.ackNum s.cfg.recvWindow ackVector

/-- Retransmit the SYN of a client whose timeout elapsed. -/
def retransmitSyn (s : RdpeudpState) (nowMs : UInt64) (out : StepOutput) :
    Option (RdpeudpState × StepOutput) :=
  if s.state = .synSent ∧ s.cfg.rtoMs ≤ nowMs - s.synLastSentMs then do
    let s := { s with synLastSentMs := nowMs }
    let out ← push out s.synDatagram
    return (s, { out with synRetransmit := true })
  else
    some (s, out)

/-- Retransmit the segments whose timeout elapsed; the flag says whether data
was sent. -/
def retransmitData (s : RdpeudpState) (nowMs : UInt64) (ackVector : AckVectorHeader) :
    List Unacked → StepOutput → Bool → Option (List Unacked × StepOutput × Bool)
  | [], out, sentData => some ([], out, sentData)
  | entry :: rest, out, sentData =>
    if s.cfg.rtoMs ≤ nowMs - entry.lastSentMs then do
      let out ← push out (s.dataDatagram entry.seq entry.payload ackVector)
      let (rest, out, sentData) ← s.retransmitData nowMs ackVector rest
        { out with retransmits := out.retransmits + 1 } true
      return ({ entry with lastSentMs := nowMs } :: rest, out, sentData)
    else do
      let (rest, out, sentData) ← s.retransmitData nowMs ackVector rest out sentData
      return (entry :: rest, out, sentData)

/-- Largest payload of a segment. -/
def maxPayload (s : RdpeudpState) : ℕ := max (s.cfg.mtu.toNat - headersOverhead) 1

/-- Take one new segment out of the queue and send it. -/
def sendSegment (s : RdpeudpState) (nowMs : UInt64) (ackVector : AckVectorHeader)
    (out : StepOutput) : Option (RdpeudpState × StepOutput) := do
  let payload := s.outQueue.take s.maxPayload
  let seq := s.sendNext
  let datagram := s.dataDatagram seq payload ackVector
  let out ←
    if s.cfg.mode = .lossy ∧ s.cfg.duplicateLossySends = true then push out datagram else some out
  let out ← push out datagram
  return ({ s with
      outQueue := s.outQueue.drop s.maxPayload
      sendNext := s.sendNext + 1
      unacked := if s.cfg.mode = .reliable then s.unacked ++ [⟨seq, payload, nowMs⟩]
        else s.unacked }, out)

/-- Send new segments while the window of the peer allows. The fuel is the
length of the queue, of which every segment takes at least a byte. -/
def sendNew (nowMs : UInt64) (ackVector : AckVectorHeader) :
    ℕ → RdpeudpState → StepOutput → Bool → Option (RdpeudpState × StepOutput × Bool)
  | 0, s, out, sentData => some (s, out, sentData)
  | fuel + 1, s, out, sentData =>
    if s.outQueue ≠ [] ∧ s.unacked.length < s.peerRecvWindow.toNat then do
      let (s, out) ← s.sendSegment nowMs ackVector out
      sendNew nowMs ackVector fuel s out true
    else
      some (s, out, sentData)

/-- Send an acknowledgment that is owed and was not sent with data. -/
def sendAck (s : RdpeudpState) (ackVector : AckVectorHeader) (out : StepOutput)
    (sentData : Bool) : Option (RdpeudpState × StepOutput) := do
  let out ← if s.needAck && !sentData then push out (s.ackDatagram ackVector) else some out
  return ({ s with needAck := if sentData || s.needAck then false else s.needAck }, out)

/-- Retransmit what timed out, send new data within the window, and acknowledge. -/
def pump (s : RdpeudpState) (nowMs : UInt64) (out : StepOutput) :
    Option (RdpeudpState × StepOutput) := do
  let (s, out) ← s.retransmitSyn nowMs out
  if s.isEstablished then do
    let ackVector := s.ackVector
    let (unacked, out, sentData) ← s.retransmitData nowMs ackVector s.unacked out false
    let s := { s with unacked := unacked }
    let (s, out, sentData) ← sendNew nowMs ackVector s.outQueue.length s out sentData
    s.sendAck ackVector out sentData
  else
    return (s, out)

/-- Client: send the initial SYN. Server: nothing. -/
def start (s : RdpeudpState) (nowMs : UInt64) : Option (RdpeudpState × StepOutput) :=
  match s.role with
  | .client => do
    let s := { s with state := .synSent, synLastSentMs := nowMs }
    let out ← push {} s.synDatagram
    s.pump nowMs out
  | .server => s.pump nowMs {}

/-- Queue bytes for delivery and pump. -/
def enqueue (s : RdpeudpState) (nowMs : UInt64) (data : List UInt8) :
    Option (RdpeudpState × StepOutput) :=
  { s with outQueue := s.outQueue ++ data }.pump nowMs {}

/-- Learn the peer's numbering, window and version from its SYN or SYN+ACK. -/
def learnSyn (s : RdpeudpState) (fec : FecHeader) (syn : SynData) (synEx : Option SynDataEx) :
    RdpeudpState :=
  { s with
    peerRecvWindow := max (max s.peerRecvWindow fec.recvWindow) 1
    peerIsn := syn.initialSeq
    negotiatedVersion := synEx.elim s.negotiatedVersion SynDataEx.udpVersion
    recvNext := if s.havePeerSeq then s.recvNext else syn.initialSeq + 1
    havePeerSeq := true }

/-- Take a SYN or SYN+ACK: a server answers it, a client completes its open. -/
def handleSyn (s : RdpeudpState) (fec : FecHeader) (syn : SynData) (synEx : Option SynDataEx)
    (out : StepOutput) : Option (RdpeudpState × StepOutput) :=
  let s := s.learnSyn fec syn synEx
  match s.role with
  | .server => do
    let s := { s with state := .established }
    let out ← push out s.synAckDatagram
    return (s, out)
  | .client =>
    some ({ s with state := if s.state = .synSent then .established else s.state }, out)

/-- Release every leading segment up to and including the acknowledged number. -/
def processAck (s : RdpeudpState) (sndSourceAck : Int32) : RdpeudpState :=
  { s with unacked := s.unacked.dropWhile fun u => seqLeq u.seq sndSourceAck.toUInt32 }

/-- Deliver the buffered segments that are now in order. The fuel is the number
of buffered segments. -/
def drainReorder : ℕ → RdpeudpState → StepOutput → RdpeudpState × StepOutput
  | 0, s, out => (s, out)
  | fuel + 1, s, out =>
    match s.reorder.lookup s.recvNext with
    | none => (s, out)
    | some payload =>
      drainReorder fuel
        { s with reorder := s.reorder.erase s.recvNext, recvNext := s.recvNext + 1 }
        { out with delivered := out.delivered ++ [payload] }

/-- Adopt the number of data that precedes the peer's SYN. -/
def adoptSeq (s : RdpeudpState) (seq : UInt32) : RdpeudpState :=
  if s.havePeerSeq then s else { s with recvNext := seq, havePeerSeq := true }

/-- Place one reliable segment: deliver it with what it puts in order, buffer it
ahead of order, or ignore a duplicate. -/
def placeSegment (s : RdpeudpState) (seq : UInt32) (payload : List UInt8) (out : StepOutput) :
    RdpeudpState × StepOutput :=
  if seq = s.recvNext then
    drainReorder s.reorder.entries.length { s with recvNext := s.recvNext + 1 }
      { out with delivered := out.delivered ++ [payload] }
  else if seqLeq s.recvNext seq then
    ({ s with
        reorder := if (s.reorder.lookup seq).isSome then s.reorder
          else s.reorder.insert seq payload }, out)
  else
    (s, out)

/-- Take a source segment in. -/
def recvSource (s : RdpeudpState) (src : SourcePacket) (out : StepOutput) :
    RdpeudpState × StepOutput :=
  let seq := src.header.snSourceStart
  let s : RdpeudpState := { s.adoptSeq seq with needAck := true }
  if s.cfg.mode = .lossy then
    ({ s with recvNext := if seqLeq s.recvNext seq then seq + 1 else s.recvNext },
      { out with delivered := out.delivered ++ [src.payload] })
  else
    s.placeSegment seq src.payload out

/-- Take a source segment in, if the datagram carries one. -/
def recvSection (s : RdpeudpState) (source : Option SourcePacket) (out : StepOutput) :
    RdpeudpState × StepOutput :=
  match source with
  | none => (s, out)
  | some src => s.recvSource src out

/-- Process one decoded datagram. -/
def handle (s : RdpeudpState) (dg : Datagram) (out : StepOutput) :
    Option (RdpeudpState × StepOutput) := do
  let (s, out) ← match dg.syn with
    | some syn => s.handleSyn dg.fec syn dg.synEx out
    | none => some ({ s with peerRecvWindow := max dg.fec.recvWindow 1 }, out)
  return (s.processAck dg.fec.sndSourceAck).recvSection dg.source out

/-- Process an inbound datagram, or none on a timer tick, and pump; a malformed
datagram is dropped. -/
def step (s : RdpeudpState) (nowMs : UInt64) (inbound : Option (List UInt8)) :
    Option (RdpeudpState × StepOutput) := do
  let (s, out) ← match inbound with
    | none => some (s, {})
    | some bytes =>
      match Datagram.decode bytes with
      | .ok dg => s.handle dg {}
      | .error _ => some (s, {})
  s.pump nowMs out

end RdpeudpState
end Macrdp.RdpeudpEndpoint
