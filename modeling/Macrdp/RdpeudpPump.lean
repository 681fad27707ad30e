import Macrdp.RdpeudpEndpoint

/-!
# What an endpoint puts on the wire

Everything a pump does to its endpoint is to move bytes from the queue into
numbered segments in flight; everything it sends is a SYN, a segment in flight
or an acknowledgment, with the acknowledgment number of the endpoint, and is
decoded by the peer to what was sent.
-/

namespace Macrdp.RdpeudpPump

open RdpeudpPdu RdpeudpDatagram RdpeudpEndpoint RdpeudpEndpoint.RdpeudpState SerialNumber

/-- An acknowledgment vector that survives the wire. -/
def WellFormed (v : AckVectorHeader) : Prop :=
  v.elements.length < 2 ^ 16 ∧ ∀ e ∈ v.elements, e.runLength ≤ 63

/-- Runs cover their count with no more elements than datagrams. -/
theorem ackRuns_wellFormed {fuel count : ℕ} :
    (ackRuns fuel count).length ≤ count ∧ ∀ e ∈ ackRuns fuel count, e.runLength ≤ 63 := by
  induction fuel generalizing count with
  | zero => exact ⟨Nat.zero_le _, by simp [ackRuns]⟩
  | succ fuel ih =>
    simp only [ackRuns]
    split
    · exact ⟨Nat.zero_le _, by simp⟩
    · next hcount =>
      obtain ⟨hlen, hruns⟩ := @ih (count - min count 63)
      refine ⟨?_, ?_⟩
      · rw [List.length_cons]
        omega
      · intro e he
        rcases List.mem_cons.mp he with rfl | he
        · have hrun : (UInt8.ofNat (min count 63)).toNat = min count 63 :=
            UInt8.toNat_ofNat_of_lt' (by simp only [UInt8.size]; omega)
          rw [UInt8.le_iff_toNat_le, hrun]
          exact Nat.min_le_right _ _
        · exact hruns e he

/-- The vector of an endpoint survives the wire. -/
theorem ackVector_wellFormed (s : RdpeudpState) : WellFormed s.ackVector := by
  simp only [ackVector]
  split
  · obtain ⟨hlen, hruns⟩ := @ackRuns_wellFormed
      (min ((s.recvNext - s.peerIsn).toNat - 1) s.cfg.recvWindow.toNat)
      (min ((s.recvNext - s.peerIsn).toNat - 1) s.cfg.recvWindow.toNat)
    have hwindow := s.cfg.recvWindow.toNat_lt
    refine ⟨?_, hruns⟩
    show (ackRuns _ _).length < 2 ^ 16
    omega
  · exact ⟨by simp, by simp⟩

/-- The datagrams an endpoint sends in its present state, with the segments that
are in flight. -/
inductive Sendable (s : RdpeudpState) (segments : List (UInt32 × List UInt8)) :
    Datagram → Prop where
  | syn : s.role = .client ∨ s.state = .synSent → Sendable s segments s.synDatagram
  | synAck : s.role = .server → s.state = .established → Sendable s segments s.synAckDatagram
  | data {seq payload v} : s.state = .established → (seq, payload) ∈ segments → WellFormed v →
      Sendable s segments (s.dataDatagram seq payload v)
  | ack {v} : s.state = .established → WellFormed v → Sendable s segments (s.ackDatagram v)

variable {s s' : RdpeudpState} {segments : List (UInt32 × List UInt8)} {d : Datagram}

/-- What is sent is decoded to what was sent. -/
theorem Sendable.decode (h : Sendable s segments d) : Datagram.decode d.bytes = .ok d := by
  cases h with
  | syn => exact Datagram.decode_ofSyn _ _ _
  | synAck => exact Datagram.decode_ofSynAck _ _ _ _
  | data _ _ hv => exact Datagram.decode_ofData _ _ _ hv.1 hv.2
  | ack _ hv => exact Datagram.decode_ofAck _ _ hv.1 hv.2

/-- Two states that agree on everything a receiver and its acknowledgments
depend on. -/
structure SameReceiver (s s' : RdpeudpState) : Prop where
  role : s'.role = s.role
  state : s'.state = s.state
  cfg : s'.cfg = s.cfg
  peerIsn : s'.peerIsn = s.peerIsn
  negotiatedVersion : s'.negotiatedVersion = s.negotiatedVersion
  recvNext : s'.recvNext = s.recvNext
  reorder : s'.reorder = s.reorder
  havePeerSeq : s'.havePeerSeq = s.havePeerSeq

theorem SameReceiver.refl (s : RdpeudpState) : SameReceiver s s :=
  ⟨rfl, rfl, rfl, rfl, rfl, rfl, rfl, rfl⟩

theorem SameReceiver.symm (h : SameReceiver s s') : SameReceiver s' s :=
  ⟨h.role.symm, h.state.symm, h.cfg.symm, h.peerIsn.symm, h.negotiatedVersion.symm,
    h.recvNext.symm, h.reorder.symm, h.havePeerSeq.symm⟩

theorem SameReceiver.trans {s'' : RdpeudpState} (h : SameReceiver s s')
    (h' : SameReceiver s' s'') : SameReceiver s s'' :=
  ⟨h'.role.trans h.role, h'.state.trans h.state, h'.cfg.trans h.cfg, h'.peerIsn.trans h.peerIsn,
    h'.negotiatedVersion.trans h.negotiatedVersion, h'.recvNext.trans h.recvNext,
    h'.reorder.trans h.reorder, h'.havePeerSeq.trans h.havePeerSeq⟩

/-- The acknowledgment number depends on the receiver alone. -/
theorem SameReceiver.ackNum (h : SameReceiver s s') : s'.ackNum = s.ackNum := by
  simp only [RdpeudpState.ackNum, h.havePeerSeq, h.recvNext]

/-- What is sendable depends on the receiver and the segments in flight, and only
grows with the latter. -/
theorem Sendable.congr {segments' : List (UInt32 × List UInt8)}
    (h : Sendable s' segments d) (hsame : SameReceiver s s')
    (hsub : ∀ segment ∈ segments, segment ∈ segments') : Sendable s segments' d := by
  have hack := hsame.ackNum
  cases h with
  | syn hrole =>
    have he : s'.synDatagram = s.synDatagram := by
      simp only [synDatagram, synData, hack, hsame.cfg]
    rw [he]
    exact .syn (by rwa [← hsame.role, ← hsame.state])
  | synAck hrole hstate =>
    have he : s'.synAckDatagram = s.synAckDatagram := by
      simp only [synAckDatagram, synData, hsame.cfg, hsame.peerIsn, hsame.negotiatedVersion]
    rw [he]
    exact .synAck (by rwa [← hsame.role]) (by rwa [← hsame.state])
  | @data seq payload v hstate hmem hv =>
    have he : s'.dataDatagram seq payload v = s.dataDatagram seq payload v := by
      simp only [dataDatagram, hack, hsame.cfg]
    rw [he]
    exact .data (by rwa [← hsame.state]) (hsub _ hmem) hv
  | @ack v hstate hv =>
    have he : s'.ackDatagram v = s.ackDatagram v := by
      simp only [ackDatagram, hack, hsame.cfg]
    rw [he]
    exact .ack (by rwa [← hsame.state]) hv

/-- The output grows by sendable datagrams and by no delivery. -/
def Sends (s : RdpeudpState) (segments : List (UInt32 × List UInt8)) (out out' : StepOutput) :
    Prop :=
  out'.delivered = out.delivered ∧
    ∃ ds : List Datagram, out'.toSend = out.toSend ++ ds.map Datagram.bytes ∧
      ∀ d ∈ ds, Sendable s segments d

theorem Sends.refl (s : RdpeudpState) (segments : List (UInt32 × List UInt8)) (out : StepOutput) :
    Sends s segments out out := ⟨rfl, [], by simp, by simp⟩

variable {out out' : StepOutput}

theorem Sends.trans {out'' : StepOutput} (h : Sends s segments out out')
    (h' : Sends s segments out' out'') : Sends s segments out out'' := by
  obtain ⟨hd, ds, hs, hall⟩ := h
  obtain ⟨hd', ds', hs', hall'⟩ := h'
  refine ⟨hd'.trans hd, ds ++ ds', ?_, ?_⟩
  · rw [hs', hs, List.map_append, List.append_assoc]
  · intro d hmem
    exact (List.mem_append.mp hmem).elim (hall d) (hall' d)

theorem Sends.congr {segments' : List (UInt32 × List UInt8)}
    (h : Sends s' segments out out') (hsame : SameReceiver s s')
    (hsub : ∀ segment ∈ segments, segment ∈ segments') : Sends s segments' out out' := by
  obtain ⟨hd, ds, hs, hall⟩ := h
  exact ⟨hd, ds, hs, fun d hmem => (hall d hmem).congr hsame hsub⟩

/-- A pushed datagram is appended with its own bytes. -/
theorem push_some (h : push out d = some out') :
    out' = { out with toSend := out.toSend ++ [d.bytes] } := by
  simp only [push] at h
  split at h
  · next bytes he =>
    cases h
    rw [(Datagram.encode_eq he).1]
  · cases h

/-- Pushing a sendable datagram sends it. -/
theorem sends_push (hd : Sendable s segments d)
    (h : push out d = some out') : Sends s segments out out' := by
  rw [push_some h]
  exact ⟨rfl, [d], by simp, by simpa using hd⟩

variable {nowMs : UInt64}

/-- Retransmitting the SYN moves its timer only. -/
theorem retransmitSyn_spec (segments : List (UInt32 × List UInt8))
    (h : s.retransmitSyn nowMs out = some (s', out')) :
    s' = { s with synLastSentMs := s'.synLastSentMs } ∧ Sends s segments out out' := by
  simp only [retransmitSyn] at h
  split at h
  · next hdue =>
    simp only [Option.bind_eq_bind, Option.bind_eq_some_iff, Option.pure_def,
      Option.some.injEq, Prod.mk.injEq] at h
    obtain ⟨pushed, hpush, rfl, rfl⟩ := h
    refine ⟨rfl, ?_⟩
    have hsendable : Sendable s segments s.synDatagram := .syn (.inr hdue.1)
    have hsent := sends_push hsendable hpush
    exact hsent
  · cases h
    exact ⟨rfl, Sends.refl _ _ _⟩

variable {v : AckVectorHeader} {sent : Bool}

/-- Retransmission changes when segments were sent, not which are in flight. -/
theorem retransmitData_spec {entries entries' : List Unacked} {sent' : Bool}
    (segments : List (UInt32 × List UInt8)) (hstate : s.state = .established) (hv : WellFormed v)
    (hsub : ∀ entry ∈ entries, entry.segment ∈ segments)
    (h : s.retransmitData nowMs v entries out sent = some (entries', out', sent')) :
    entries'.map Unacked.segment = entries.map Unacked.segment ∧ Sends s segments out out' := by
  induction entries generalizing out sent entries' with
  | nil =>
    cases h
    exact ⟨rfl, Sends.refl _ _ _⟩
  | cons entry rest ih =>
    have hrest : ∀ e ∈ rest, e.segment ∈ segments := fun e he =>
      hsub e (List.mem_cons_of_mem _ he)
    simp only [retransmitData] at h
    split at h
    · simp only [Option.bind_eq_bind, Option.bind_eq_some_iff, Option.pure_def,
        Option.some.injEq, Prod.mk.injEq] at h
      obtain ⟨pushed, hpush, ⟨rest', out₁, sent₁⟩, hloop, rfl, rfl, rfl⟩ := h
      obtain ⟨hkeep, hsends⟩ := ih hrest hloop
      have hfirst := sends_push (Sendable.data hstate (hsub entry List.mem_cons_self) hv) hpush
      refine ⟨?_, ?_⟩
      · simp only [List.map_cons, hkeep]
        rfl
      · exact hfirst.trans hsends
    · simp only [Option.bind_eq_bind, Option.bind_eq_some_iff, Option.pure_def,
        Option.some.injEq, Prod.mk.injEq] at h
      obtain ⟨⟨rest', out₁, sent₁⟩, hloop, rfl, rfl, rfl⟩ := h
      obtain ⟨hkeep, hsends⟩ := ih hrest hloop
      exact ⟨by simp only [List.map_cons, hkeep], hsends⟩

/-- `s'` is `s` after new segments moved from its queue into flight. -/
structure Pumped (s s' : RdpeudpState) (segs : List (List UInt8)) : Prop where
  /-- The receiver is untouched. -/
  same : SameReceiver s s'
  /-- The segments are the front of the queue. -/
  outQueue : s.outQueue = segs.flatten ++ s'.outQueue
  /-- They take the next numbers. -/
  sendNext : s'.sendNext = serial s.sendNext segs.length
  /-- They are in flight behind the segments that were. -/
  unacked : s'.unacked.map Unacked.segment =
    s.unacked.map Unacked.segment ++ numbered s.sendNext segs

theorem Pumped.refl (s : RdpeudpState) : Pumped s s [] :=
  ⟨SameReceiver.refl s, by simp, by simp, by simp⟩

theorem Pumped.trans {s'' : RdpeudpState} {first second : List (List UInt8)}
    (h : Pumped s s' first) (h' : Pumped s' s'' second) : Pumped s s'' (first ++ second) where
  same := h.same.trans h'.same
  outQueue := by rw [h.outQueue, h'.outQueue, List.flatten_append, List.append_assoc]
  sendNext := by rw [h'.sendNext, h.sendNext, serial_add, List.length_append]
  unacked := by
    rw [h'.unacked, h.unacked, h.sendNext, numbered_append, List.append_assoc]

/-- One new segment, sent and kept in flight. -/
theorem sendSegment_spec (hmode : s.cfg.mode = .reliable) (hstate : s.state = .established)
    (hv : WellFormed v) (h : s.sendSegment nowMs v out = some (s', out')) :
    Pumped s s' [s.outQueue.take s.maxPayload] ∧
      Sends s (s'.unacked.map Unacked.segment) out out' ∧
      s'.unacked.length = s.unacked.length + 1 ∧ s'.peerRecvWindow = s.peerRecvWindow := by
  simp only [sendSegment, hmode, reduceCtorEq, false_and, if_false, if_true, Option.bind_eq_bind,
    Option.bind_some, Option.bind_eq_some_iff, Option.pure_def, Option.some.injEq,
    Prod.mk.injEq] at h
  obtain ⟨pushed, hpush, rfl, rfl⟩ := h
  refine ⟨⟨⟨rfl, rfl, rfl, rfl, rfl, rfl, rfl, rfl⟩, ?_, rfl, ?_⟩, ?_, ?_, rfl⟩
  · simp
  · simp [Unacked.segment]
  · exact sends_push (Sendable.data hstate (by simp [Unacked.segment]) hv) hpush
  · simp

/-- New segments are sent while the window of the peer has room. -/
theorem sendNew_spec {fuel : ℕ} {sent' : Bool} (hmode : s.cfg.mode = .reliable)
    (hstate : s.state = .established) (hv : WellFormed v)
    (h : sendNew nowMs v fuel s out sent = some (s', out', sent')) :
    ∃ segs, Pumped s s' segs ∧ Sends s (s'.unacked.map Unacked.segment) out out' ∧
      (segs = [] ∨ s'.unacked.length ≤ s.peerRecvWindow.toNat) := by
  induction fuel generalizing s out sent with
  | zero =>
    cases h
    exact ⟨[], Pumped.refl _, Sends.refl _ _ _, .inl rfl⟩
  | succ fuel ih =>
    simp only [sendNew] at h
    split at h
    · next hroom =>
      simp only [Option.bind_eq_bind, Option.bind_eq_some_iff] at h
      obtain ⟨⟨t, out₁⟩, hseg, hloop⟩ := h
      obtain ⟨hfirst, hsent, hlen, hwindow⟩ := sendSegment_spec hmode hstate hv hseg
      obtain ⟨segs, hrest, hsends, hbound⟩ :=
        ih (by rw [hfirst.same.cfg]; exact hmode) (by rw [hfirst.same.state]; exact hstate) hloop
      refine ⟨_, hfirst.trans hrest, ?_, .inr ?_⟩
      · refine Sends.trans (hsent.congr (SameReceiver.refl s) ?_)
          (hsends.congr hfirst.same fun _ hmem => hmem)
        intro segment hmem
        rw [hrest.unacked]
        exact List.mem_append_left _ hmem
      · rcases hbound with rfl | hbound
        · have hkeep := congrArg List.length hrest.unacked
          simp only [List.length_map, numbered_nil, List.append_nil] at hkeep
          omega
        · rw [hwindow] at hbound
          exact hbound
    · cases h
      exact ⟨[], Pumped.refl _, Sends.refl _ _ _, .inl rfl⟩

/-- An acknowledgment that is owed is sent and no longer owed. -/
theorem sendAck_spec (segments : List (UInt32 × List UInt8)) (hstate : s.state = .established)
    (hv : WellFormed v) (h : s.sendAck v out sent = some (s', out')) :
    s' = { s with needAck := s'.needAck } ∧ Sends s segments out out' := by
  simp only [sendAck] at h
  split at h
  · simp only [Option.bind_eq_bind, Option.bind_eq_some_iff, Option.pure_def, Option.some.injEq,
      Prod.mk.injEq] at h
    obtain ⟨pushed, hpush, rfl, rfl⟩ := h
    exact ⟨rfl, sends_push (Sendable.ack hstate hv) hpush⟩
  · simp only [Option.bind_eq_bind, Option.bind_some, Option.pure_def, Option.some.injEq,
      Prod.mk.injEq] at h
    obtain ⟨rfl, rfl⟩ := h
    exact ⟨rfl, Sends.refl _ _ _⟩

/-- A new segment leaves the receiver alone, whatever the policy. -/
theorem sendSegment_frame (h : s.sendSegment nowMs v out = some (s', out')) :
    SameReceiver s s' := by
  simp only [sendSegment] at h
  split at h
  · simp only [Option.bind_eq_bind, Option.bind_eq_some_iff, Option.pure_def,
      Option.some.injEq, Prod.mk.injEq] at h
    obtain ⟨_, -, _, -, rfl, -⟩ := h
    exact ⟨rfl, rfl, rfl, rfl, rfl, rfl, rfl, rfl⟩
  · simp only [Option.bind_eq_bind, Option.bind_some, Option.bind_eq_some_iff, Option.pure_def,
      Option.some.injEq, Prod.mk.injEq] at h
    obtain ⟨_, -, rfl, -⟩ := h
    exact ⟨rfl, rfl, rfl, rfl, rfl, rfl, rfl, rfl⟩

/-- New segments leave the receiver alone. -/
theorem sendNew_frame {fuel : ℕ} {sent' : Bool}
    (h : sendNew nowMs v fuel s out sent = some (s', out', sent')) : SameReceiver s s' := by
  induction fuel generalizing s out sent with
  | zero =>
    cases h
    exact SameReceiver.refl _
  | succ fuel ih =>
    simp only [sendNew] at h
    split at h
    · obtain ⟨⟨t, out₁⟩, hseg, hloop⟩ := Option.bind_eq_some_iff.mp h
      exact (sendSegment_frame hseg).trans (ih hloop)
    · cases h
      exact SameReceiver.refl _

/-- A pump leaves the receiver alone. -/
theorem pump_frame (h : s.pump nowMs out = some (s', out')) : SameReceiver s s' := by
  simp only [pump, Option.bind_eq_bind, Option.bind_eq_some_iff] at h
  obtain ⟨⟨t, out₁⟩, hsyn, h⟩ := h
  have hsame : SameReceiver s t := by
    rw [(retransmitSyn_spec [] hsyn).1]
    exact ⟨rfl, rfl, rfl, rfl, rfl, rfl, rfl, rfl⟩
  split at h
  · next hest =>
    simp only [isEstablished, beq_iff_eq] at hest
    simp only [Option.bind_eq_some_iff] at h
    obtain ⟨⟨entries, out₂, sent₂⟩, -, ⟨u, out₃, sent₃⟩, hnew, hack⟩ := h
    have hentries : SameReceiver t { t with unacked := entries } :=
      ⟨rfl, rfl, rfl, rfl, rfl, rfl, rfl, rfl⟩
    have hnewSame := sendNew_frame hnew
    have hlast : SameReceiver u s' := by
      rw [(sendAck_spec [] (hnewSame.state.trans hest) (ackVector_wellFormed t) hack).1]
      exact ⟨rfl, rfl, rfl, rfl, rfl, rfl, rfl, rfl⟩
    exact ((hsame.trans hentries).trans hnewSame).trans hlast
  · cases h
    exact hsame

/-- An established endpoint with nothing to send or acknowledge pumps nothing. -/
theorem pump_idle (hstate : s.state = .established) (hunacked : s.unacked = [])
    (hqueue : s.outQueue = []) (hack : s.needAck = false) (nowMs : UInt64) (out : StepOutput) :
    s.pump nowMs out = some (s, out) := by
  have hest : s.isEstablished = true := by rw [isEstablished, hstate]; rfl
  have hsyn : s.retransmitSyn nowMs out = some (s, out) := by
    rw [retransmitSyn, hstate, if_neg (by simp)]
  have hsame : { s with outQueue := [], unacked := [] } = s := by rw [← hunacked, ← hqueue]
  have hlast : s.sendAck s.ackVector out false = some (s, out) := by
    simp only [sendAck, hack, Bool.false_and, Bool.false_eq_true, if_false, Bool.or_self,
      Option.bind_eq_bind, Option.bind_some, Option.pure_def]
    rw [← hack]
  simp only [pump, hsyn, hest, hunacked, retransmitData, hsame, hqueue, List.length_nil, sendNew,
    hlast, if_true, Option.bind_eq_bind, Option.bind_some]

/-- A SYN+ACK fits its buffer. -/
theorem push_synAck (s : RdpeudpState) (out : StepOutput) :
    push out s.synAckDatagram =
      some { out with toSend := out.toSend ++ [s.synAckDatagram.bytes] } := by
  have hfits : s.synAckDatagram.bytes.length ≤ s.synAckDatagram.encodeCapacity := by
    simp [synAckDatagram, synData, Datagram.ofSynAck, Datagram.bytes, FecHeader.bytes,
      SynData.bytes, SynDataEx.bytes, Datagram.encodeCapacity]
  have hencode : s.synAckDatagram.encode = .ok s.synAckDatagram.bytes :=
    ByteCodec.Writer.toBytes_ok s.synAckDatagram.emits_encodeCursor hfits
  rw [push, hencode]

/-- What one pump of a reliable endpoint does and sends. -/
theorem pump_spec (hmode : s.cfg.mode = .reliable) (h : s.pump nowMs out = some (s', out')) :
    ∃ segs, Pumped s s' segs ∧ Sends s (s'.unacked.map Unacked.segment) out out' ∧
      segs.length < 2 ^ 16 := by
  simp only [pump, Option.bind_eq_bind, Option.bind_eq_some_iff] at h
  obtain ⟨⟨t, out₁⟩, hsyn, h⟩ := h
  obtain ⟨ht, hsynSends⟩ := retransmitSyn_spec (s'.unacked.map Unacked.segment) hsyn
  have hsame : SameReceiver s t := by
    rw [ht]
    exact ⟨rfl, rfl, rfl, rfl, rfl, rfl, rfl, rfl⟩
  split at h
  · next hest =>
    simp only [isEstablished, beq_iff_eq] at hest
    simp only [Option.bind_eq_some_iff] at h
    obtain ⟨⟨entries, out₂, sent₂⟩, hdata, ⟨u, out₃, sent₃⟩, hnew, hack⟩ := h
    have hv := ackVector_wellFormed t
    obtain ⟨hkeep, hdataSends⟩ := retransmitData_spec (t.unacked.map Unacked.segment) hest hv
      (fun entry he => List.mem_map_of_mem he) hdata
    have hstart : Pumped t { t with unacked := entries } [] :=
      ⟨⟨rfl, rfl, rfl, rfl, rfl, rfl, rfl, rfl⟩, by simp, by simp, by simp [hkeep]⟩
    obtain ⟨segs, hpumped, hnewSends, hbound⟩ :=
      sendNew_spec (s := { t with unacked := entries }) (by rw [← hmode, ht]) hest hv hnew
    have hstate : u.state = .established := hpumped.same.state.trans hest
    obtain ⟨hu, hackSends⟩ := sendAck_spec (s'.unacked.map Unacked.segment) hstate hv hack
    have hlast : Pumped u s' [] := by
      rw [hu]
      exact ⟨⟨rfl, rfl, rfl, rfl, rfl, rfl, rfl, rfl⟩, by simp, by simp, by simp⟩
    have hbegin : Pumped s t [] := ⟨hsame, by rw [ht]; simp, by rw [ht]; simp, by rw [ht]; simp⟩
    have hall := ((hbegin.trans hstart).trans hpumped).trans hlast
    have hin : ∀ segment ∈ u.unacked.map Unacked.segment,
        segment ∈ s'.unacked.map Unacked.segment := by
      rw [hlast.unacked]
      simp
    refine ⟨segs, by simpa using hall, ?_, ?_⟩
    · have hfirst : Sends s (s'.unacked.map Unacked.segment) out₁ out₂ := by
        refine hdataSends.congr hsame fun segment hmem => hin _ ?_
        rw [hpumped.unacked, hkeep]
        exact List.mem_append_left _ hmem
      have hsecond : Sends s (s'.unacked.map Unacked.segment) out₂ out₃ :=
        hnewSends.congr (hsame.trans hstart.same) hin
      have hthird : Sends s (s'.unacked.map Unacked.segment) out₃ out' :=
        hackSends.congr (hsame.trans (hstart.same.trans hpumped.same)) fun _ hmem => hmem
      exact hsynSends.trans (hfirst.trans (hsecond.trans hthird))
    · rcases hbound with rfl | hbound
      · simp
      · have hcount := congrArg List.length hpumped.unacked
        simp only [List.length_map, List.length_append, length_numbered] at hcount
        have hwindow := t.peerRecvWindow.toNat_lt
        simp only at hbound
        omega
  · cases h
    refine ⟨[], ⟨hsame, by rw [ht]; simp, by rw [ht]; simp, by rw [ht]; simp⟩, hsynSends, by simp⟩

end Macrdp.RdpeudpPump
