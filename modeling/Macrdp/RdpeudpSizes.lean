import Mathlib.Algebra.Order.BigOperators.Group.List
import Macrdp.StepSystem
import Macrdp.RdpeudpReceive

/-!
# The sizes of the datagrams of an endpoint

A datagram is encoded to a buffer of a fixed size beside its payload, and a payload is cut so that
the smallest acknowledgment vector fits beside it. The vector grows with the received run, so both
hold as long as the vector leaves room for what is sent with it.
-/

namespace Macrdp.RdpeudpSizes

open StepSystem ByteCodec RdpeudpPdu RdpeudpDatagram RdpeudpEndpoint RdpeudpEndpoint.RdpeudpState
  RdpeudpPump RdpeudpReceive

/-! ## Sizes -/

/-- The received run that an acknowledgment reports, in datagrams. -/
def receivedRun (s : RdpeudpState) : ℕ :=
  if s.havePeerSeq then min ((s.recvNext - s.peerIsn).toNat - 1) s.cfg.recvWindow.toNat else 0

/-- The bytes of the vector that reports a run. -/
def vectorSize (run : ℕ) : ℕ := AckVectorHeader.paddedLen ((run + 62) / 63)

/-- One element reports up to 63 datagrams. -/
theorem length_ackRuns {fuel count : ℕ} (h : count ≤ fuel) :
    (ackRuns fuel count).length = (count + 62) / 63 := by
  induction fuel generalizing count with
  | zero =>
    rw [Nat.le_zero.mp h]
    rfl
  | succ fuel ih =>
    rw [ackRuns]
    split
    · next hzero => rw [hzero]; rfl
    · next hpos =>
      have hrest : count - min count 63 ≤ fuel := by omega
      rw [List.length_cons, ih hrest]
      omega

/-- The vector of an endpoint has the bytes of its run. -/
theorem length_ackVector (s : RdpeudpState) :
    s.ackVector.bytes.length = vectorSize (receivedRun s) := by
  rw [AckVectorHeader.length_bytes, vectorSize]
  congr 1
  unfold ackVector receivedRun
  split
  · exact length_ackRuns (Nat.le_refl _)
  · rfl

/-- The bytes of a FEC header. -/
theorem length_fec (h : FecHeader) : h.bytes.length = 8 := by
  simp only [FecHeader.bytes, List.length_append, length_bigEndian]

/-- The bytes of a data datagram. -/
theorem length_data (s : RdpeudpState) (seq : UInt32) (payload : List UInt8)
    (v : AckVectorHeader) :
    (s.dataDatagram seq payload v).bytes.length = 16 + v.bytes.length + payload.length := by
  simp only [dataDatagram, Datagram.ofData, Datagram.bytes, Option.elim, List.length_append,
    length_fec, SourcePacket.bytes, SourcePayloadHeader.bytes, length_bigEndian, List.length_nil]
  omega

/-- The bytes of an acknowledgment. -/
theorem length_ack (s : RdpeudpState) (v : AckVectorHeader) :
    (s.ackDatagram v).bytes.length = 8 + v.bytes.length := by
  simp only [ackDatagram, Datagram.ofAck, Datagram.bytes, Option.elim, List.length_append,
    length_fec, List.length_nil]
  omega

/-- The bytes of a SYN. -/
theorem length_syn (s : RdpeudpState) : s.synDatagram.bytes.length = 16 := by
  simp only [synDatagram, synData, Datagram.ofSyn, Datagram.bytes, Option.elim, List.length_append,
    length_fec, SynData.bytes, length_bigEndian, List.length_nil]

/-- The bytes of a SYN+ACK. -/
theorem length_synAck (s : RdpeudpState) : s.synAckDatagram.bytes.length ≤ 96 := by
  simp [synAckDatagram, synData, Datagram.ofSynAck, Datagram.bytes, FecHeader.bytes,
    SynData.bytes, SynDataEx.bytes]

/-- A datagram is queued exactly if it fits its buffer. -/
theorem push_eq (out : StepOutput) (d : Datagram) :
    push out d = if d.bytes.length ≤ d.encodeCapacity then
      some { out with toSend := out.toSend ++ [d.bytes] } else none := by
  unfold push
  split
  · next bytes hencode =>
    obtain ⟨rfl, hfits⟩ := Datagram.encode_eq hencode
    rw [if_pos hfits]
  · next e hencode =>
    rw [if_neg]
    intro hfits
    have hok : d.encode = .ok d.bytes := Writer.toBytes_ok d.emits_encodeCursor hfits
    rw [hok] at hencode
    cases hencode

/-! ## What fits -/

/-- Every datagram has at most so many bytes. -/
def Fits (mtu : ℕ) (out : StepOutput) : Prop := ∀ b ∈ out.toSend, b.length ≤ mtu

/-- A segment fits beside a vector, in its datagram and in the buffer of it. -/
def SegmentFits (mtu vector payload : ℕ) : Prop := vector ≤ 80 ∧ 16 + vector + payload ≤ mtu

instance (mtu vector payload : ℕ) : Decidable (SegmentFits mtu vector payload) :=
  inferInstanceAs (Decidable (vector ≤ 80 ∧ 16 + vector + payload ≤ mtu))

variable {mtu : ℕ} {out : StepOutput}

/-- One datagram more fits exactly if it does. -/
theorem fits_push (hout : Fits mtu out) (d : Datagram) :
    (∃ out', push out d = some out' ∧ Fits mtu out') ↔
      d.bytes.length ≤ d.encodeCapacity ∧ d.bytes.length ≤ mtu := by
  rw [push_eq]
  constructor
  · rintro ⟨out', hpush, hfits⟩
    split at hpush
    · next hcapacity =>
      cases hpush
      exact ⟨hcapacity, hfits _ (List.mem_append_right _ List.mem_cons_self)⟩
    · cases hpush
  · rintro ⟨hcapacity, hmtu⟩
    rw [if_pos hcapacity]
    refine ⟨_, rfl, fun b hb => ?_⟩
    rcases List.mem_append.mp hb with hold | hnew
    · exact hout b hold
    · rw [List.mem_singleton.mp hnew]
      exact hmtu

/-- A segment is sent exactly if it fits. -/
theorem fits_data (hout : Fits mtu out) (s : RdpeudpState)
    (seq : UInt32) (payload : List UInt8) (v : AckVectorHeader) :
    (∃ out', push out (s.dataDatagram seq payload v) = some out' ∧ Fits mtu out') ↔
      SegmentFits mtu v.bytes.length payload.length := by
  have hcapacity : (s.dataDatagram seq payload v).encodeCapacity = 96 + payload.length := rfl
  rw [fits_push hout, length_data, hcapacity, SegmentFits]
  constructor
  · rintro ⟨hbuffer, hmtu⟩
    exact ⟨by omega, hmtu⟩
  · rintro ⟨hbuffer, hmtu⟩
    exact ⟨by omega, hmtu⟩

/-- An acknowledgment is sent exactly if its vector fits the buffer. -/
theorem fits_ack (hmtu : 1132 ≤ mtu) (hout : Fits mtu out)
    (s : RdpeudpState) (v : AckVectorHeader) :
    (∃ out', push out (s.ackDatagram v) = some out' ∧ Fits mtu out') ↔ v.bytes.length ≤ 88 := by
  have hcapacity : (s.ackDatagram v).encodeCapacity = 96 := rfl
  rw [fits_push hout, length_ack, hcapacity]
  constructor
  · rintro ⟨hbuffer, -⟩
    omega
  · intro hv
    exact ⟨by omega, by omega⟩

/-- A SYN is sent. -/
theorem fits_syn (hmtu : 1132 ≤ mtu) (hout : Fits mtu out)
    (s : RdpeudpState) : ∃ out', push out s.synDatagram = some out' ∧ Fits mtu out' := by
  have hcapacity : s.synDatagram.encodeCapacity = 96 := rfl
  rw [fits_push hout, length_syn, hcapacity]
  omega

/-! ## One pump -/

/-- The payloads that a pump sends: of the segments that are due, and of the first new one, which
is the longest of these. -/
def payloads (s : RdpeudpState) (nowMs : UInt64) : List ℕ :=
  (s.unacked.filter fun u => s.cfg.rtoMs ≤ nowMs - u.lastSentMs).map (fun u => u.payload.length) ++
    if s.outQueue ≠ [] ∧ s.unacked.length < s.peerRecvWindow.toNat then
      [min s.maxPayload s.outQueue.length]
    else []

/-- The vector of the received run leaves room for every payload that is sent; if none is, an
acknowledgment that is owed fits its buffer. -/
def pumpOrderly (mtu : ℕ) (s : RdpeudpState) (nowMs : UInt64) : Bool :=
  !s.isEstablished ||
    if payloads s nowMs = [] then !s.needAck || vectorSize (receivedRun s) ≤ 88
    else (payloads s nowMs).all fun n => SegmentFits mtu (vectorSize (receivedRun s)) n

/-- The SYN is retransmitted. -/
theorem retransmitSyn_fits (s : RdpeudpState) (hmtu : 1132 ≤ mtu) (nowMs : UInt64)
    (hout : Fits mtu out) :
    ∃ s' out', s.retransmitSyn nowMs out = some (s', out') ∧ Fits mtu out' := by
  unfold retransmitSyn
  split
  · obtain ⟨out', hpush, hfits⟩ := fits_syn hmtu hout { s with synLastSentMs := nowMs }
    simp only [Option.bind_eq_bind, hpush, Option.bind_some]
    exact ⟨_, _, rfl, hfits⟩
  · exact ⟨s, out, rfl, hout⟩

/-- The segments that are due are retransmitted if they fit; without any, no data was sent. -/
theorem retransmitData_fits (s : RdpeudpState) (nowMs : UInt64) (v : AckVectorHeader)
    (entries : List Unacked) (sent : Bool) (hout : Fits mtu out)
    (hall : ∀ u ∈ entries, s.cfg.rtoMs ≤ nowMs - u.lastSentMs →
      SegmentFits mtu v.bytes.length u.payload.length) :
    ∃ entries' out' sent', s.retransmitData nowMs v entries out sent =
        some (entries', out', sent') ∧ Fits mtu out' ∧ entries'.length = entries.length ∧
      (sent' = true ↔ sent = true ∨ ∃ u ∈ entries, s.cfg.rtoMs ≤ nowMs - u.lastSentMs) := by
  induction entries generalizing out sent with
  | nil =>
    refine ⟨[], out, sent, rfl, hout, rfl, .inl, fun h => h.resolve_right ?_⟩
    rintro ⟨u, hu, -⟩
    cases hu
  | cons entry rest ih =>
    have hrest : ∀ u ∈ rest, s.cfg.rtoMs ≤ nowMs - u.lastSentMs →
        SegmentFits mtu v.bytes.length u.payload.length :=
      fun u hu => hall u (List.mem_cons_of_mem entry hu)
    rw [retransmitData]
    by_cases hdue : s.cfg.rtoMs ≤ nowMs - entry.lastSentMs
    · obtain ⟨out₁, hpush, hfits⟩ := (fits_data hout s entry.seq entry.payload v).mpr
        (hall entry List.mem_cons_self hdue)
      have hfits' : Fits mtu { out₁ with retransmits := out₁.retransmits + 1 } := hfits
      obtain ⟨rest', out₂, sent', hloop, hfits₂, hlength, hsent⟩ := ih true hfits' hrest
      rw [if_pos hdue, hpush]
      simp only [Option.bind_eq_bind, Option.bind_some, hloop]
      refine ⟨_, _, _, rfl, hfits₂, congrArg (· + 1) hlength, fun _ => ?_, fun _ => ?_⟩
      · exact .inr ⟨entry, List.mem_cons_self, hdue⟩
      · exact hsent.mpr (.inl rfl)
    · obtain ⟨rest', out₂, sent', hloop, hfits₂, hlength, hsent⟩ := ih sent hout hrest
      rw [if_neg hdue]
      simp only [Option.bind_eq_bind, Option.bind_some, hloop]
      refine ⟨_, _, _, rfl, hfits₂, congrArg (· + 1) hlength, hsent.trans (or_congr_right ?_)⟩
      constructor
      · rintro ⟨u, hu, hu'⟩
        exact ⟨u, List.mem_cons_of_mem entry hu, hu'⟩
      · rintro ⟨u, hu, hu'⟩
        rcases List.mem_cons.mp hu with rfl | hin
        · exact absurd hu' hdue
        · exact ⟨u, hin, hu'⟩

/-- A new segment is sent if it fits, twice where the policy says so. -/
theorem sendSegment_fits (s : RdpeudpState) (nowMs : UInt64) (v : AckVectorHeader)
    (hout : Fits mtu out)
    (hfits : SegmentFits mtu v.bytes.length (min s.maxPayload s.outQueue.length)) :
    ∃ s' out', s.sendSegment nowMs v out = some (s', out') ∧ Fits mtu out' ∧
      s'.outQueue = s.outQueue.drop s.maxPayload ∧ s'.cfg = s.cfg ∧ s'.needAck = s.needAck := by
  have hdata : ∀ {out : StepOutput}, Fits mtu out → ∃ out', push out (s.dataDatagram s.sendNext
      (s.outQueue.take s.maxPayload) v) = some out' ∧ Fits mtu out' :=
    fun hout => (fits_data hout s _ _ v).mpr (by rw [List.length_take]; exact hfits)
  unfold sendSegment
  obtain ⟨out₁, hpush₁, hfits₁⟩ := hdata hout
  by_cases htwice : s.cfg.mode = .lossy ∧ s.cfg.duplicateLossySends = true
  · obtain ⟨out₂, hpush₂, hfits₂⟩ := hdata hfits₁
    simp only [if_pos htwice, Option.bind_eq_bind, hpush₁, Option.bind_some, hpush₂]
    exact ⟨_, _, rfl, hfits₂, rfl, rfl, rfl⟩
  · simp only [if_neg htwice, Option.bind_eq_bind, Option.bind_some, hpush₁]
    exact ⟨_, _, rfl, hfits₁, rfl, rfl, rfl⟩

/-- The new segments are sent if the first fits, which is the longest. -/
theorem sendNew_fits (nowMs : UInt64) (v : AckVectorHeader) (fuel : ℕ)
    (s : RdpeudpState) (sent : Bool) (hout : Fits mtu out) (hfuel : s.outQueue.length ≤ fuel)
    (hfirst : s.outQueue ≠ [] ∧ s.unacked.length < s.peerRecvWindow.toNat →
      SegmentFits mtu v.bytes.length (min s.maxPayload s.outQueue.length)) :
    ∃ s' out' sent', sendNew nowMs v fuel s out sent = some (s', out', sent') ∧ Fits mtu out' ∧
      s'.needAck = s.needAck ∧
      (sent' = true ↔
        sent = true ∨ (s.outQueue ≠ [] ∧ s.unacked.length < s.peerRecvWindow.toNat)) := by
  induction fuel generalizing s out sent with
  | zero =>
    have hempty : s.outQueue = [] := List.length_eq_zero_iff.mp (Nat.le_zero.mp hfuel)
    exact ⟨s, out, sent, rfl, hout, rfl, .inl, fun h => h.resolve_right fun hroom => hroom.1 hempty⟩
  | succ fuel ih =>
    rw [sendNew]
    by_cases hroom : s.outQueue ≠ [] ∧ s.unacked.length < s.peerRecvWindow.toNat
    · have hfits := hfirst hroom
      obtain ⟨s₁, out₁, hseg, hfits₁, hqueue, hcfg, hack⟩ := sendSegment_fits s nowMs v hout hfits
      have hmax : s₁.maxPayload = s.maxPayload := by rw [maxPayload, maxPayload, hcfg]
      have hpos : 1 ≤ s.maxPayload := Nat.le_max_right _ 1
      have hlength : s₁.outQueue.length = s.outQueue.length - s.maxPayload := by
        rw [hqueue, List.length_drop]
      have hnonempty : 0 < s.outQueue.length := List.length_pos_of_ne_nil hroom.1
      obtain ⟨s', out', sent', hloop, hfits', hack', hsent⟩ :=
        ih s₁ true hfits₁ (by omega) fun _ => by
          rw [hmax, hlength]
          exact ⟨hfits.1, by have h := hfits.2; omega⟩
      rw [if_pos hroom, hseg]
      simp only [Option.bind_eq_bind, Option.bind_some, hloop]
      exact ⟨s', out', sent', rfl, hfits', hack'.trans hack, fun _ => .inr hroom,
        fun _ => hsent.mpr (.inl rfl)⟩
    · rw [if_neg hroom]
      exact ⟨s, out, sent, rfl, hout, rfl, .inl, fun h => h.resolve_right hroom⟩

/-- An acknowledgment that is owed is sent if its vector fits. -/
theorem sendAck_fits (hmtu : 1132 ≤ mtu) (s : RdpeudpState) (v : AckVectorHeader)
    (sent : Bool) (hout : Fits mtu out)
    (hv : sent = false → s.needAck = true → v.bytes.length ≤ 88) :
    ∃ s' out', s.sendAck v out sent = some (s', out') ∧ Fits mtu out' := by
  unfold sendAck
  by_cases howed : (s.needAck && !sent) = true
  · rw [Bool.and_eq_true, Bool.not_eq_true'] at howed
    obtain ⟨out', hpush, hfits⟩ := (fits_ack hmtu hout s v).mpr (hv howed.2 howed.1)
    rw [if_pos (by rw [howed.1, howed.2]; rfl), hpush]
    exact ⟨_, _, rfl, hfits⟩
  · rw [if_neg howed]
    exact ⟨_, _, rfl, hout⟩

variable {s : RdpeudpState}

/-- A pump sends what fits, and does not fail. -/
theorem pump_fits (hmtu : 1132 ≤ mtu) {nowMs : UInt64}
    (hout : Fits mtu out) (horderly : pumpOrderly mtu s nowMs = true) :
    ∃ s' out', s.pump nowMs out = some (s', out') ∧ Fits mtu out' := by
  obtain ⟨t, out₁, hsyn, hfits₁⟩ := retransmitSyn_fits s hmtu nowMs hout
  obtain ⟨ms, rfl⟩ : ∃ ms, t = { s with synLastSentMs := ms } :=
    ⟨_, (retransmitSyn_spec [] hsyn).1⟩
  have hest : { s with synLastSentMs := ms }.isEstablished = s.isEstablished := rfl
  have hvector : { s with synLastSentMs := ms }.ackVector = s.ackVector := rfl
  have hsize := length_ackVector s
  unfold pump
  simp only [Option.bind_eq_bind, hsyn, Option.bind_some, hest, hvector]
  unfold pumpOrderly at horderly
  cases hopen : s.isEstablished with
  | false => exact ⟨_, _, rfl, hfits₁⟩
  | true =>
    rw [hopen, Bool.not_true, Bool.false_or] at horderly
    have hsegments : ∀ n ∈ payloads s nowMs,
        SegmentFits mtu s.ackVector.bytes.length n := by
      intro n hn
      rw [if_neg (List.ne_nil_of_mem hn)] at horderly
      rw [hsize]
      exact of_decide_eq_true (List.all_eq_true.mp horderly n hn)
    obtain ⟨entries, out₂, sent₂, hdata, hfits₂, hlength, hsent₂⟩ :=
      retransmitData_fits { s with synLastSentMs := ms } nowMs s.ackVector s.unacked false hfits₁
        fun u hu hdue => hsegments _ (List.mem_append_left _ (List.mem_map_of_mem
          (List.mem_filter.mpr ⟨hu, decide_eq_true hdue⟩)))
    obtain ⟨t, out₃, sent₃, hnew, hfits₃, hack, hsent₃⟩ :=
      sendNew_fits nowMs s.ackVector s.outQueue.length
        { s with synLastSentMs := ms, unacked := entries } sent₂ hfits₂ (Nat.le_refl _)
        fun hroom => hsegments _ (List.mem_append_right _ (by
          rw [if_pos ⟨hroom.1, hlength ▸ hroom.2⟩]
          exact List.mem_singleton_self _))
    have hv : sent₃ = false → t.needAck = true → s.ackVector.bytes.length ≤ 88 := by
      intro hfalse howed
      rw [hfalse] at hsent₃
      have hnone : payloads s nowMs = [] := by
        have hdue : (s.unacked.filter fun u => s.cfg.rtoMs ≤ nowMs - u.lastSentMs) = [] := by
          refine List.filter_eq_nil_iff.mpr fun u hu hdue => ?_
          exact Bool.false_ne_true (hsent₃.mpr (.inl (hsent₂.mpr (.inr
            ⟨u, hu, of_decide_eq_true hdue⟩))))
        rw [payloads, hdue, if_neg fun h =>
          Bool.false_ne_true (hsent₃.mpr (.inr ⟨h.1, hlength.symm ▸ h.2⟩))]
        rfl
      rw [if_pos hnone, hack.symm.trans howed, Bool.not_true, Bool.false_or] at horderly
      rw [hsize]
      exact of_decide_eq_true horderly
    obtain ⟨s', out₄, hlast, hfits₄⟩ := sendAck_fits hmtu t s.ackVector sent₃ hfits₃ hv
    simp only [if_true, hdata, Option.bind_some, hnew, hlast]
    exact ⟨s', out₄, rfl, hfits₄⟩

/-- A SYN is taken in without a failure. -/
theorem handleSyn_some (s : RdpeudpState) (fec : FecHeader) (syn : SynData)
    (synEx : Option SynDataEx) (out : StepOutput) :
    ∃ r, s.handleSyn fec syn synEx out = some r := by
  simp only [handleSyn]
  split
  · simp only [push_synAck, Option.bind_eq_bind, Option.bind_some]
    exact ⟨_, rfl⟩
  · exact ⟨_, rfl⟩

/-- A datagram is handled without a failure; a server answers a SYN with what fits. -/
theorem handle_fits (s : RdpeudpState) (hmtu : 1132 ≤ mtu) (dg : Datagram) (hout : Fits mtu out) :
    ∃ s' out', s.handle dg out = some (s', out') ∧ Fits mtu out' ∧ s'.cfg = s.cfg := by
  obtain ⟨⟨s', out'⟩, hhandle⟩ : ∃ r, s.handle dg out = some r := by
    simp only [handle]
    cases dg.syn with
    | none => exact ⟨_, rfl⟩
    | some syn =>
      obtain ⟨r, hr⟩ := handleSyn_some s dg.fec syn dg.synEx out
      simp only [hr, Option.bind_eq_bind, Option.bind_some]
      exact ⟨_, rfl⟩
  obtain ⟨m, o, hopen, hrecv⟩ := handle_some hhandle
  have hsend : out'.toSend = o.toSend := by
    cases hsrc : dg.source with
    | none =>
      rw [hsrc] at hrecv
      cases hrecv
      rfl
    | some src =>
      rw [hsrc] at hrecv
      exact (recvSource_frame hrecv).2.2
  refine ⟨s', out', hhandle, fun b hb => ?_, (handle_frame [] hhandle).1.cfg⟩
  rw [hsend] at hb
  rcases hopen.answer with hnone | ⟨-, -, hanswer⟩
  · rw [hnone] at hb
    exact hout b hb
  · rw [hanswer] at hb
    rcases List.mem_append.mp hb with hold | hnew
    · exact hout b hold
    · rw [List.mem_singleton.mp hnew]
      have hlength := length_synAck m
      omega

/-! ## When a call panics -/

/-- The vector of the received run fits the buffer of what is sent with it. -/
def pumpEncodes (s : RdpeudpState) (nowMs : UInt64) : Bool :=
  !s.isEstablished ||
    if payloads s nowMs = [] then !s.needAck || vectorSize (receivedRun s) ≤ 88
    else vectorSize (receivedRun s) ≤ 80

variable {v : AckVectorHeader}

/-- A segment beside a vector that is too long does not fit its buffer. -/
theorem push_data_none (hv : 80 < v.bytes.length) (out : StepOutput)
    (s : RdpeudpState) (seq : UInt32) (payload : List UInt8) :
    push out (s.dataDatagram seq payload v) = none := by
  have hcapacity : (s.dataDatagram seq payload v).encodeCapacity = 96 + payload.length := rfl
  rw [push_eq, length_data, hcapacity, if_neg (by omega)]

/-- A segment that is due is not retransmitted beside such a vector. -/
theorem retransmitData_none (hv : 80 < v.bytes.length)
    (nowMs : UInt64) (entries : List Unacked) (out : StepOutput) (sent : Bool)
    (hdue : ∃ u ∈ entries, s.cfg.rtoMs ≤ nowMs - u.lastSentMs) :
    s.retransmitData nowMs v entries out sent = none := by
  induction entries generalizing out sent with
  | nil =>
    obtain ⟨u, hu, -⟩ := hdue
    cases hu
  | cons entry rest ih =>
    rw [retransmitData]
    by_cases hfirst : s.cfg.rtoMs ≤ nowMs - entry.lastSentMs
    · rw [if_pos hfirst, push_data_none hv]
      rfl
    · have hrest : ∃ u ∈ rest, s.cfg.rtoMs ≤ nowMs - u.lastSentMs := by
        obtain ⟨u, hu, hu'⟩ := hdue
        rcases List.mem_cons.mp hu with rfl | hin
        · exact absurd hu' hfirst
        · exact ⟨u, hin, hu'⟩
      rw [if_neg hfirst, ih out sent hrest]
      rfl

/-- No new segment is sent beside such a vector. -/
theorem sendNew_none (hv : 80 < v.bytes.length) (nowMs : UInt64) (out : StepOutput) (sent : Bool)
    (hroom : s.outQueue ≠ [] ∧ s.unacked.length < s.peerRecvWindow.toNat) :
    sendNew nowMs v s.outQueue.length s out sent = none := by
  have hpos : 0 < s.outQueue.length := List.length_pos_of_ne_nil hroom.1
  obtain ⟨fuel, hfuel⟩ := Nat.exists_eq_succ_of_ne_zero (Nat.ne_of_gt hpos)
  have hseg : s.sendSegment nowMs v out = none := by
    by_cases htwice : s.cfg.mode = .lossy ∧ s.cfg.duplicateLossySends = true
    · simp only [sendSegment, if_pos htwice, push_data_none hv, Option.bind_eq_bind,
        Option.bind_none]
    · simp only [sendSegment, if_neg htwice, push_data_none hv, Option.bind_eq_bind,
        Option.bind_some, Option.bind_none]
  rw [hfuel, sendNew, if_pos hroom, hseg]
  rfl

/-- An acknowledgment that is owed is not sent with a vector that is too long for it. -/
theorem sendAck_none (hv : 88 < v.bytes.length)
    (howed : s.needAck = true) (out : StepOutput) : s.sendAck v out false = none := by
  have hcapacity : (s.ackDatagram v).encodeCapacity = 96 := rfl
  have hpush : push out (s.ackDatagram v) = none := by
    rw [push_eq, length_ack, hcapacity, if_neg (by omega)]
  simp only [sendAck, howed, Bool.not_false, Bool.and_self, if_true, hpush, Option.bind_eq_bind,
    Option.bind_none]

/-- A bound that no datagram of a pump reaches. -/
theorem exists_mtu (s : RdpeudpState) (nowMs : UInt64) (out : StepOutput) :
    ∃ mtu, 1132 ≤ mtu ∧ Fits mtu out ∧ ∀ n ∈ payloads s nowMs, 96 + n ≤ mtu := by
  refine ⟨1132 + (out.toSend.map List.length).sum + (payloads s nowMs).sum, by omega, ?_, ?_⟩
  · intro b hb
    have hmem : b.length ∈ out.toSend.map List.length := List.mem_map_of_mem hb
    have hle := List.single_le_sum (fun _ _ => Nat.zero_le _) _ hmem
    omega
  · intro n hn
    have hle := List.single_le_sum (fun _ _ => Nat.zero_le _) _ hn
    omega

/-- A pump beside a vector that fits does not panic. -/
theorem pump_isSome {nowMs : UInt64} (out : StepOutput)
    (hencodes : pumpEncodes s nowMs = true) : (s.pump nowMs out).isSome = true := by
  obtain ⟨mtu, hmtu, hout, hall⟩ := exists_mtu s nowMs out
  have horderly : pumpOrderly mtu s nowMs = true := by
    unfold pumpEncodes at hencodes
    unfold pumpOrderly
    rcases Bool.or_eq_true _ _ ▸ hencodes with hclosed | hfits
    · rw [hclosed, Bool.true_or]
    · by_cases hnone : payloads s nowMs = []
      · rw [if_pos hnone] at hfits
        rw [if_pos hnone, hfits, Bool.or_true]
      · rw [if_neg hnone] at hfits
        rw [if_neg hnone]
        have hle := of_decide_eq_true hfits
        refine Bool.or_eq_true_iff.mpr (.inr (List.all_eq_true.mpr fun n hn => ?_))
        have hroom := hall n hn
        exact decide_eq_true ⟨hle, by omega⟩
  obtain ⟨s', out', hpump, -⟩ := pump_fits hmtu hout horderly
  rw [hpump]
  rfl

/-- A pump panics exactly if the vector does not fit. -/
theorem pump_isSome_iff {nowMs : UInt64} :
    (s.pump nowMs out).isSome = true ↔ pumpEncodes s nowMs = true := by
  refine ⟨fun hsome => ?_, pump_isSome out⟩
  obtain ⟨⟨s', out'⟩, hpump⟩ := Option.isSome_iff_exists.mp hsome
  simp only [pump, Option.bind_eq_bind, Option.bind_eq_some_iff] at hpump
  obtain ⟨⟨t, out₁⟩, hsyn, hpump⟩ := hpump
  obtain ⟨ms, rfl⟩ : ∃ ms, t = { s with synLastSentMs := ms } :=
    ⟨_, (retransmitSyn_spec [] hsyn).1⟩
  unfold pumpEncodes
  cases hopen : s.isEstablished with
  | false => rfl
  | true =>
    have hopen' : { s with synLastSentMs := ms }.isEstablished = true := hopen
    have hsize : s.ackVector.bytes.length = vectorSize (receivedRun s) := length_ackVector s
    have hvector : { s with synLastSentMs := ms }.ackVector = s.ackVector := rfl
    simp only [hopen', if_true, Option.bind_eq_some_iff, hvector] at hpump
    obtain ⟨⟨entries, out₂, sent₂⟩, hdata, ⟨u, out₃, sent₃⟩, hnew, hack⟩ := hpump
    rw [Bool.not_true, Bool.false_or]
    obtain ⟨mtu, -, hout, -⟩ := exists_mtu s nowMs out₁
    -- Without a due segment the first loop sends nothing and keeps all segments.
    have hquiet : (∀ v ∈ s.unacked, ¬ s.cfg.rtoMs ≤ nowMs - v.lastSentMs) →
        entries.length = s.unacked.length ∧ sent₂ = false := by
      intro hnone
      obtain ⟨entries', out', sent', hloop, -, hlength, hsent⟩ :=
        retransmitData_fits { s with synLastSentMs := ms } nowMs s.ackVector s.unacked false hout
          fun v hv hdue => absurd hdue (hnone v hv)
      rw [hdata] at hloop
      cases hloop
      refine ⟨hlength, Bool.eq_false_iff.mpr fun htrue => ?_⟩
      obtain ⟨v, hv, hdue⟩ := (hsent.mp htrue).resolve_left Bool.false_ne_true
      exact hnone v hv hdue
    by_cases hnone : payloads s nowMs = []
    · rw [if_pos hnone]
      obtain ⟨hdue, hroom⟩ := List.append_eq_nil_iff.mp hnone
      have hnotDue : ∀ v ∈ s.unacked, ¬ s.cfg.rtoMs ≤ nowMs - v.lastSentMs := by
        intro v hv hle
        have hnil := List.map_eq_nil_iff.mp hdue
        exact List.filter_eq_nil_iff.mp hnil v hv (decide_eq_true hle)
      obtain ⟨hlength, hquiet⟩ := hquiet hnotDue
      have hfull : ¬ (s.outQueue ≠ [] ∧ s.unacked.length < s.peerRecvWindow.toNat) := by
        intro h
        rw [if_pos h] at hroom
        exact List.cons_ne_nil _ _ hroom
      have hstill : ¬ (s.outQueue ≠ [] ∧ entries.length < s.peerRecvWindow.toNat) := by
        rw [hlength]
        exact hfull
      have hkept : sent₃ = false ∧ u.needAck = s.needAck := by
        cases hqueue : s.outQueue with
        | nil =>
          simp only [hqueue, List.length_nil, sendNew, Option.some.injEq, Prod.mk.injEq] at hnew
          obtain ⟨rfl, -, rfl⟩ := hnew
          exact ⟨hquiet, rfl⟩
        | cons b queue =>
          simp only [hqueue, List.length_cons, sendNew] at hnew
          rw [hqueue] at hstill
          rw [if_neg hstill] at hnew
          cases hnew
          exact ⟨hquiet, rfl⟩
      obtain ⟨rfl, hneed⟩ := hkept
      cases howed : s.needAck with
      | false => rfl
      | true =>
        rw [Bool.not_true, Bool.false_or, decide_eq_true_eq]
        by_contra hlong
        rw [sendAck_none (by omega) (hneed.trans howed)] at hack
        cases hack
    · rw [if_neg hnone, decide_eq_true_eq]
      by_contra hlong
      have hlong' : 80 < s.ackVector.bytes.length := by omega
      have hnotDue : ∀ v ∈ s.unacked, ¬ s.cfg.rtoMs ≤ nowMs - v.lastSentMs := by
        intro v hv hle
        rw [retransmitData_none (s := { s with synLastSentMs := ms }) hlong' _ _ _ _
          ⟨v, hv, hle⟩] at hdata
        cases hdata
      obtain ⟨hlength, -⟩ := hquiet hnotDue
      have hroom : s.outQueue ≠ [] ∧ entries.length < s.peerRecvWindow.toNat := by
        by_contra hfull
        have hdue : (s.unacked.filter fun v => s.cfg.rtoMs ≤ nowMs - v.lastSentMs) = [] :=
          List.filter_eq_nil_iff.mpr fun v hv hle => hnotDue v hv (of_decide_eq_true hle)
        rw [hlength] at hfull
        rw [payloads, hdue, if_neg hfull] at hnone
        exact hnone rfl
      rw [sendNew_none (s := { s with synLastSentMs := ms, unacked := entries }) hlong' _ _ _
        hroom] at hnew
      cases hnew

/-! ## Runs -/

/-- A call of the endpoint at a time. -/
inductive EndpointCall where
  | start (nowMs : UInt64)
  | enqueue (nowMs : UInt64) (data : List UInt8)
  | step (nowMs : UInt64) (inbound : Option (List UInt8))
  deriving DecidableEq

namespace EndpointCall

/-- When the call is made. -/
def nowMs : EndpointCall → UInt64
  | .start nowMs => nowMs
  | .enqueue nowMs _ => nowMs
  | .step nowMs _ => nowMs

/-- Carry out a call; `none` is a panic. -/
def apply (s : RdpeudpState) : EndpointCall → Option (RdpeudpState × StepOutput)
  | .start nowMs => s.start nowMs
  | .enqueue nowMs data => s.enqueue nowMs data
  | .step nowMs inbound => s.step nowMs inbound

/-- The state after a call took in what it was given, before it pumps. -/
def taken (s : RdpeudpState) : EndpointCall → RdpeudpState
  | .start nowMs =>
    match s.role with
    | .client => { s with state := .synSent, synLastSentMs := nowMs }
    | .server => s
  | .enqueue _ data => { s with outQueue := s.outQueue ++ data }
  | .step _ none => s
  | .step _ (some bytes) =>
    match Datagram.decode bytes with
    | .ok dg => ((s.handle dg {}).map Prod.fst).getD s
    | .error _ => s

/-- The vector leaves room for what the call sends. -/
def orderly (s : RdpeudpState) (c : EndpointCall) : Bool :=
  pumpOrderly s.cfg.mtu.toNat (c.taken s) c.nowMs

/-- The vector fits the buffers of what the call sends. -/
def encodes (s : RdpeudpState) (c : EndpointCall) : Bool := pumpEncodes (c.taken s) c.nowMs

/-- The call does not panic, and every datagram that it sends fits the mtu. -/
def Sound (s : RdpeudpState) (c : EndpointCall) : Prop :=
  ∃ s' out, c.apply s = some (s', out) ∧ Fits s.cfg.mtu.toNat out

/-- A call whose vector leaves room is sound. -/
theorem apply_fits {mtu : ℕ} {s : RdpeudpState} (hmtu : 1132 ≤ mtu) {c : EndpointCall}
    (horderly : pumpOrderly mtu (c.taken s) c.nowMs = true) :
    ∃ s' out, c.apply s = some (s', out) ∧ Fits mtu out ∧ s'.cfg = s.cfg := by
  have hempty : Fits mtu {} := fun b hb => absurd hb List.not_mem_nil
  -- Whatever the call took in, the pump behind it sends what fits.
  have hpump : ∀ {m : RdpeudpState} {out : StepOutput}, m.cfg = s.cfg → Fits mtu out →
      pumpOrderly mtu m c.nowMs = true →
      ∃ s' out', m.pump c.nowMs out = some (s', out') ∧ Fits mtu out' ∧ s'.cfg = s.cfg := by
    intro m out hcfg hout hm
    obtain ⟨s', out', hs', hfits⟩ := pump_fits hmtu hout hm
    exact ⟨s', out', hs', hfits, (pump_frame hs').cfg.trans hcfg⟩
  cases c with
  | start nowMs =>
    change ∃ s' out, s.start nowMs = some (s', out) ∧ _
    cases hrole : s.role with
    | server =>
      simp only [taken, hrole] at horderly
      simp only [RdpeudpState.start, hrole]
      exact hpump rfl hempty horderly
    | client =>
      obtain ⟨out, hpush, hfits⟩ :=
        fits_syn hmtu hempty { s with state := .synSent, synLastSentMs := nowMs }
      simp only [taken, hrole] at horderly
      simp only [hrole] at hpush
      simp only [RdpeudpState.start, hrole, hpush, Option.bind_eq_bind, Option.bind_some]
      exact hpump rfl hfits horderly
  | enqueue nowMs data => exact hpump rfl hempty horderly
  | step nowMs inbound =>
    change ∃ s' out, s.step nowMs inbound = some (s', out) ∧ _
    cases inbound with
    | none => exact hpump rfl hempty horderly
    | some bytes =>
      simp only [taken] at horderly
      cases hdecode : Datagram.decode bytes with
      | error e =>
        simp only [hdecode] at horderly
        simp only [RdpeudpState.step, hdecode, Option.bind_eq_bind, Option.bind_some]
        exact hpump rfl hempty horderly
      | ok dg =>
        obtain ⟨m, out, hhandle, hfits, hcfg⟩ := handle_fits s hmtu dg hempty
        simp only [hdecode, hhandle, Option.map_some, Option.getD_some] at horderly
        simp only [RdpeudpState.step, hdecode, hhandle, Option.bind_eq_bind, Option.bind_some]
        exact hpump hcfg hfits horderly

/-- A call panics exactly if the vector does not fit. -/
theorem apply_isSome_iff {s : RdpeudpState} {c : EndpointCall} :
    (c.apply s).isSome = true ↔ c.encodes s = true := by
  cases c with
  | start nowMs =>
    change (s.start nowMs).isSome = true ↔ _
    cases hrole : s.role with
    | server =>
      simp only [encodes, taken, RdpeudpState.start, hrole]
      exact pump_isSome_iff
    | client =>
      have hempty : Fits 1132 {} := fun b hb => absurd hb List.not_mem_nil
      obtain ⟨out, hpush, -⟩ :=
        fits_syn (Nat.le_refl _) hempty { s with state := .synSent, synLastSentMs := nowMs }
      simp only [hrole] at hpush
      simp only [encodes, taken, RdpeudpState.start, hrole, hpush, Option.bind_eq_bind,
        Option.bind_some]
      exact pump_isSome_iff
  | enqueue nowMs data => exact pump_isSome_iff
  | step nowMs inbound =>
    change (s.step nowMs inbound).isSome = true ↔ _
    cases inbound with
    | none => exact pump_isSome_iff
    | some bytes =>
      cases hdecode : Datagram.decode bytes with
      | error e =>
        simp only [encodes, taken, RdpeudpState.step, hdecode, Option.bind_eq_bind,
          Option.bind_some]
        exact pump_isSome_iff
      | ok dg =>
        have hempty : Fits 1132 {} := fun b hb => absurd hb List.not_mem_nil
        obtain ⟨m, out, hhandle, -, -⟩ := handle_fits s (Nat.le_refl _) dg hempty
        simp only [encodes, taken, RdpeudpState.step, hdecode, hhandle, Option.bind_eq_bind,
          Option.bind_some, Option.map_some, Option.getD_some]
        exact pump_isSome_iff

/-- In every run of an endpoint whose vector leaves room at each call, no call panics and every
datagram fits the mtu. -/
theorem sound_of_orderly (role : Role) {cfg : Config} (hmtu : 1132 ≤ cfg.mtu.toNat)
    {calls : List EndpointCall}
    (horderly : Meets (fun s c => (apply s c).map Prod.fst) (fun s c => c.orderly s = true)
      (RdpeudpState.new role cfg) calls) :
    Meets (fun s c => (apply s c).map Prod.fst) (fun s c => c.Sound s)
      (RdpeudpState.new role cfg) calls := by
  refine Meets.of_invariant (fun s => s.cfg = cfg) (fun s c s' hcfg hc hstep => ?_)
    (fun s c hcfg hc => ?_) rfl horderly
  · rw [← hcfg] at hmtu
    obtain ⟨t, out, happly, -, hsame⟩ := apply_fits hmtu hc
    rw [happly] at hstep
    cases hstep
    exact hsame.trans hcfg
  · rw [← hcfg] at hmtu
    obtain ⟨t, out, happly, hfits, -⟩ := apply_fits hmtu hc
    exact ⟨t, out, happly, hfits⟩

/-- The SYN of a peer. -/
def sampleSyn : List UInt8 := (Datagram.ofSyn (-1) 64 ⟨0, 1232, 1232⟩ none none).bytes

/-- A segment of the peer. -/
def sampleSegment (seq : UInt32) : List UInt8 :=
  (Datagram.ofData 0 64 ⟨[]⟩ ⟨⟨seq, seq⟩, [7]⟩).bytes

/-- A server is opened, receives a segment and sends one that fills its datagram. -/
def receiveAndFill (seq : UInt32) : List EndpointCall :=
  [.step 0 (some sampleSyn), .step 1 (some (sampleSegment seq)),
    .enqueue 2 (List.replicate 1212 0)]

/-- The first segment of the peer leaves a vector of one element. -/
theorem sound_of_orderly_first :
    Meets (fun s c => (apply s c).map Prod.fst) (fun s c => c.Sound s)
      (RdpeudpState.new .server {}) (receiveAndFill 1) :=
  sound_of_orderly .server (by decide) (meetsBool_iff.mp (by decide +kernel))

/-- A window of 200 datagrams. -/
def wideConfig : Config := { recvWindow := 200, mode := .lossy }

/-- A segment that is 130 ahead leaves a vector of three elements, and the next full datagram is
longer than the mtu. -/
theorem not_sound_ahead :
    ¬∀ (role : Role) (cfg : Config) (calls : List EndpointCall),
      1132 ≤ cfg.mtu.toNat → cfg.mtu.toNat ≤ 1232 →
        Meets (fun s c => (apply s c).map Prod.fst) (fun s c => c.Sound s)
          (RdpeudpState.new role cfg) calls := by
  intro h
  have hlong : ((run (fun s c => (apply s c).map Prod.fst) (RdpeudpState.new .server wideConfig)
      ((receiveAndFill 130).take 2)).bind fun s =>
        (apply s (.enqueue 2 (List.replicate 1212 0))).map fun r =>
          (s.cfg.mtu.toNat, r.2.toSend.map List.length)) = some (1232, [1236]) := by
    decide +kernel
  obtain ⟨s, hrun, happly⟩ := Option.bind_eq_some_iff.mp hlong
  obtain ⟨⟨s', out⟩, hcall, hlengths⟩ := Option.map_eq_some_iff.mp happly
  rw [Prod.mk.injEq] at hlengths
  obtain ⟨-, hlast⟩ := (meets_append ((receiveAndFill 130).take 2)
    [.enqueue 2 (List.replicate 1212 0)] _).mp
    (h .server wideConfig (receiveAndFill 130) (by decide) (by decide))
  obtain ⟨t, out', hsound, hfits⟩ := (hlast s hrun).1
  rw [hcall] at hsound
  cases hsound
  have hmem : 1236 ∈ out.toSend.map List.length := by
    rw [hlengths.2]
    exact List.mem_cons_self
  obtain ⟨b, hb, hlength⟩ := List.mem_map.mp hmem
  have hle := hfits b hb
  rw [hlengths.1, hlength] at hle
  omega

end EndpointCall

end Macrdp.RdpeudpSizes
