import Macrdp.RdpeudpPump

/-!
# What an endpoint does with a datagram

A receiver that knows the numbering of a stream of segments has delivered the
segments up to some point, expects the next one, and buffers only segments of
the stream; every datagram of the stream moves that point forward or leaves it.
-/

namespace Macrdp.RdpeudpReceive

open RdpeudpPdu RdpeudpDatagram RdpeudpEndpoint RdpeudpEndpoint.RdpeudpState RdpeudpPump
  SerialNumber

/-- The endpoint has handed up `bytes`, which are the first `r` of the segments
numbered from `base`, and knows no others but segments of the same stream. -/
structure Tracks (base : UInt32) (segs : List (List UInt8)) (s : RdpeudpState)
    (bytes : List UInt8) (r : ℕ) : Prop where
  /-- The next segment is expected under its number. -/
  numbered : s.havePeerSeq = true → s.recvNext = serial base r
  /-- Before the numbering is known nothing was received. -/
  fresh : s.havePeerSeq = false → r = 0
  /-- What was handed up are the first segments. -/
  delivered : bytes = (segs.take r).flatten
  /-- They are all of the stream. -/
  bound : r ≤ segs.length
  /-- Buffered segments are segments of the stream under their numbers. -/
  buffered : ∀ q p, s.reorder.lookup q = some p → (q, p) ∈ SerialNumber.numbered base segs

variable {base : UInt32} {segs : List (List UInt8)} {s s' : RdpeudpState} {r : ℕ}
variable {bytes payload : List UInt8}

/-- A stream that grows is still tracked. -/
theorem Tracks.grow {more : List (List UInt8)} (h : Tracks base segs s bytes r) :
    Tracks base (segs ++ more) s bytes r where
  __ := h
  delivered := by rw [h.delivered, List.take_append_of_le_length h.bound]
  bound := by
    have hbound := h.bound
    rw [List.length_append]
    omega
  buffered q p hp := by
    rw [numbered_append]
    exact List.mem_append_left _ (h.buffered q p hp)

/-- Tracking depends on the receiver alone. -/
theorem Tracks.congr (h : Tracks base segs s bytes r)
    (hrecv : s'.recvNext = s.recvNext) (hreorder : s'.reorder = s.reorder)
    (hhave : s'.havePeerSeq = s.havePeerSeq) : Tracks base segs s' bytes r where
  __ := h
  numbered := by rw [hhave, hrecv]; exact h.numbered
  fresh := by rw [hhave]; exact h.fresh
  buffered := by rw [hreorder]; exact h.buffered

/-- The expected segment of the stream is the next one. -/
theorem next_segment (hcount : segs.length < 2 ^ 32) (hr : r ≤ segs.length)
    (hmem : (serial base r, payload) ∈ SerialNumber.numbered base segs) :
    r < segs.length ∧ (segs.take (r + 1)).flatten = (segs.take r).flatten ++ payload := by
  obtain ⟨k, hk, hget⟩ := mem_numbered.mp hmem
  have hlt : k < segs.length := (List.getElem?_eq_some_iff.mp hget).1
  have hkr : r = k := serial_inj (by omega) (by omega) hk
  subst hkr
  refine ⟨hlt, ?_⟩
  have hvalue := (List.getElem?_eq_some_iff.mp hget).2
  rw [List.take_succ_eq_append_getElem hlt, List.flatten_append, hvalue]
  simp

/-- Handing up the expected segment of the stream. -/
theorem Tracks.deliver (h : Tracks base segs s bytes r)
    (hcount : segs.length < 2 ^ 32) (hhave : s.havePeerSeq = true)
    (hmem : (s.recvNext, payload) ∈ SerialNumber.numbered base segs)
    (reorder : AList fun _ : UInt32 => List UInt8)
    (hreorder : ∀ q p, reorder.lookup q = some p → s.reorder.lookup q = some p) :
    Tracks base segs { s with reorder := reorder, recvNext := s.recvNext + 1 }
      (bytes ++ payload) (r + 1) := by
  have hnext := h.numbered hhave
  rw [hnext] at hmem
  obtain ⟨hlt, htake⟩ := next_segment hcount h.bound hmem
  refine ⟨?_, ?_, ?_, hlt, ?_⟩
  · intro _
    show s.recvNext + 1 = _
    rw [hnext, serial_succ]
  · intro hnone
    simp only [hhave] at hnone
    cases hnone
  · rw [htake, h.delivered]
  · exact fun q p hp => h.buffered q p (hreorder q p hp)

variable {before : List UInt8} {out out' : StepOutput}

/-- Draining hands up buffered segments of the stream in order. -/
theorem drainReorder_tracks {fuel : ℕ} (hcount : segs.length < 2 ^ 32)
    (hhave : s.havePeerSeq = true)
    (htracks : Tracks base segs s (before ++ out.delivered.flatten) r)
    (h : drainReorder fuel s out = (s', out')) :
    ∃ r', r ≤ r' ∧ Tracks base segs s' (before ++ out'.delivered.flatten) r' := by
  induction fuel generalizing s out r with
  | zero =>
    cases h
    exact ⟨r, Nat.le_refl r, htracks⟩
  | succ fuel ih =>
    simp only [drainReorder] at h
    split at h
    · cases h
      exact ⟨r, Nat.le_refl r, htracks⟩
    · next payload hlookup =>
      have hkept : ∀ q p, (s.reorder.erase s.recvNext).lookup q = some p →
          s.reorder.lookup q = some p := by
        intro q p hq
        by_cases hne : q = s.recvNext
        · rw [hne, AList.lookup_erase] at hq
          cases hq
        · rwa [AList.lookup_erase_ne hne] at hq
      have hnext := htracks.deliver hcount hhave (htracks.buffered _ _ hlookup) _ hkept
      have hnext' : Tracks base segs
          { s with reorder := s.reorder.erase s.recvNext, recvNext := s.recvNext + 1 }
          (before ++ (out.delivered ++ [payload]).flatten) (r + 1) := by simpa using hnext
      obtain ⟨r', hr', ht⟩ :=
        ih (s := { s with reorder := s.reorder.erase s.recvNext, recvNext := s.recvNext + 1 })
          hhave hnext' h
      exact ⟨r', by omega, ht⟩

/-- Placing a segment of the stream keeps the receiver on it, and the expected one moves it on. -/
theorem placeSegment_tracks {seq : UInt32}
    (hcount : segs.length < 2 ^ 32) (hhave : s.havePeerSeq = true)
    (htracks : Tracks base segs s (before ++ out.delivered.flatten) r)
    (hmem : (seq, payload) ∈ SerialNumber.numbered base segs)
    (h : s.placeSegment seq payload out = (s', out')) :
    ∃ r', r ≤ r' ∧ Tracks base segs s' (before ++ out'.delivered.flatten) r' ∧
      (seq = s.recvNext → r < r') := by
  simp only [placeSegment] at h
  split at h
  · next hseq =>
    rw [hseq] at hmem
    have hnext := htracks.deliver hcount hhave hmem s.reorder fun _ _ hq => hq
    obtain ⟨r', hr', ht⟩ :=
      drainReorder_tracks (s := { s with recvNext := s.recvNext + 1 }) hcount hhave
        (by simpa using hnext) h
    exact ⟨r', by omega, ht, fun _ => by omega⟩
  · next hseq =>
    split at h
    · cases h
      refine ⟨r, Nat.le_refl r, ⟨htracks.numbered, htracks.fresh, htracks.delivered,
        htracks.bound, ?_⟩, fun he => absurd he hseq⟩
      intro q p hq
      split at hq
      · exact htracks.buffered q p hq
      · by_cases hne : q = seq
        · rw [hne, AList.lookup_insert] at hq
          cases hq
          rw [hne]
          exact hmem
        · rw [AList.lookup_insert_ne hne] at hq
          exact htracks.buffered q p hq
    · cases h
      exact ⟨r, Nat.le_refl r, htracks, fun he => absurd he hseq⟩

/-- A known numbering is not adopted again. -/
theorem adoptSeq_known (h : s.havePeerSeq = true) (seq : UInt32) : s.adoptSeq seq = s := by
  simp only [adoptSeq, h, if_true]

/-- Data ahead of the SYN fixes the numbering. -/
theorem adoptSeq_unknown (h : s.havePeerSeq = false) (seq : UInt32) :
    s.adoptSeq seq = { s with recvNext := seq, havePeerSeq := true } := by
  simp only [adoptSeq, h, Bool.false_eq_true, if_false]

/-- Taking in a reliable segment of the stream; one that arrives before the
numbering is known has to be the first. -/
theorem recvSource_tracks {src : SourcePacket}
    (hmode : s.cfg.mode = .reliable) (hcount : segs.length < 2 ^ 32)
    (htracks : Tracks base segs s (before ++ out.delivered.flatten) r)
    (hmem : (src.header.snSourceStart, src.payload) ∈ SerialNumber.numbered base segs)
    (hadopt : s.havePeerSeq = false → src.header.snSourceStart = base)
    (h : s.recvSource src out = (s', out')) :
    ∃ r', r ≤ r' ∧ Tracks base segs s' (before ++ out'.delivered.flatten) r' ∧
      (s.havePeerSeq = true → src.header.snSourceStart = s.recvNext → r < r') := by
  cases hhave : s.havePeerSeq with
  | true =>
    simp only [recvSource, adoptSeq_known hhave, hmode, reduceCtorEq, if_false] at h
    have hstart : Tracks base segs { s with needAck := true }
        (before ++ out.delivered.flatten) r := htracks.congr rfl rfl rfl
    obtain ⟨r', hr', ht, hnext⟩ :=
      placeSegment_tracks (s := { s with needAck := true }) hcount hhave hstart hmem h
    exact ⟨r', hr', ht, fun _ => hnext⟩
  | false =>
    simp only [recvSource, adoptSeq_unknown hhave, hmode, reduceCtorEq, if_false] at h
    have hzero := htracks.fresh hhave
    subst hzero
    have hstart : Tracks base segs
        { s with recvNext := src.header.snSourceStart, havePeerSeq := true, needAck := true }
        (before ++ out.delivered.flatten) 0 :=
      ⟨fun _ => by simpa using hadopt hhave, fun _ => rfl, htracks.delivered, htracks.bound,
        htracks.buffered⟩
    obtain ⟨r', hr', ht, -⟩ := placeSegment_tracks hcount rfl hstart hmem h
    exact ⟨r', hr', ht, nofun⟩

/-- `s'` is `s` after its receiver took something in: the open, the
configuration and the sender are as they were. -/
structure SameSender (s s' : RdpeudpState) : Prop where
  role : s'.role = s.role
  state : s'.state = s.state
  cfg : s'.cfg = s.cfg
  peerIsn : s'.peerIsn = s.peerIsn
  negotiatedVersion : s'.negotiatedVersion = s.negotiatedVersion
  sendNext : s'.sendNext = s.sendNext
  outQueue : s'.outQueue = s.outQueue
  unacked : s'.unacked = s.unacked

/-- Draining touches the receiver alone and sends nothing. -/
theorem drainReorder_frame {fuel : ℕ} (h : drainReorder fuel s out = (s', out')) :
    SameSender s s' ∧ s'.havePeerSeq = s.havePeerSeq ∧ out'.toSend = out.toSend := by
  induction fuel generalizing s out with
  | zero =>
    cases h
    exact ⟨⟨rfl, rfl, rfl, rfl, rfl, rfl, rfl, rfl⟩, rfl, rfl⟩
  | succ fuel ih =>
    simp only [drainReorder] at h
    split at h
    · cases h
      exact ⟨⟨rfl, rfl, rfl, rfl, rfl, rfl, rfl, rfl⟩, rfl, rfl⟩
    · obtain ⟨hsame, hhave, hsend⟩ := ih h
      exact ⟨{ __ := hsame }, hhave, hsend⟩

/-- Taking in a segment touches the receiver alone and sends nothing. -/
theorem recvSource_frame {src : SourcePacket} (h : s.recvSource src out = (s', out')) :
    SameSender s s' ∧ s'.havePeerSeq = true ∧ out'.toSend = out.toSend := by
  have hadopt : SameSender s (s.adoptSeq src.header.snSourceStart) ∧
      (s.adoptSeq src.header.snSourceStart).havePeerSeq = true := by
    cases hhave : s.havePeerSeq with
    | true =>
      rw [adoptSeq_known hhave]
      exact ⟨⟨rfl, rfl, rfl, rfl, rfl, rfl, rfl, rfl⟩, hhave⟩
    | false =>
      rw [adoptSeq_unknown hhave]
      exact ⟨⟨rfl, rfl, rfl, rfl, rfl, rfl, rfl, rfl⟩, rfl⟩
  obtain ⟨ha, hknown⟩ := hadopt
  have hkeep : ∀ t : RdpeudpState, SameSender (s.adoptSeq src.header.snSourceStart) t →
      SameSender s t := fun t ht =>
    ⟨ht.role.trans ha.role, ht.state.trans ha.state, ht.cfg.trans ha.cfg,
      ht.peerIsn.trans ha.peerIsn, ht.negotiatedVersion.trans ha.negotiatedVersion,
      ht.sendNext.trans ha.sendNext, ht.outQueue.trans ha.outQueue, ht.unacked.trans ha.unacked⟩
  simp only [recvSource] at h
  split at h
  · cases h
    exact ⟨hkeep _ ⟨rfl, rfl, rfl, rfl, rfl, rfl, rfl, rfl⟩, hknown, rfl⟩
  · simp only [placeSegment] at h
    split at h
    · obtain ⟨hsame, hhave, hsend⟩ := drainReorder_frame h
      exact ⟨hkeep _ { __ := hsame }, hhave.trans hknown, hsend⟩
    · split at h <;> cases h <;>
        exact ⟨hkeep _ ⟨rfl, rfl, rfl, rfl, rfl, rfl, rfl, rfl⟩, hknown, rfl⟩

/-- What handling a datagram does to the open and to the sender. -/
structure Handled (s s' : RdpeudpState) (dg : Datagram) : Prop where
  role : s'.role = s.role
  cfg : s'.cfg = s.cfg
  sendNext : s'.sendNext = s.sendNext
  outQueue : s'.outQueue = s.outQueue
  /-- The leading segments up to the acknowledged number are released. -/
  unacked : s'.unacked =
    s.unacked.dropWhile fun u => seqLeq u.seq dg.fec.sndSourceAck.toUInt32
  /-- The open is kept or completed, -/
  state : s'.state = s.state ∨ s'.state = .established
  /-- which takes a SYN or SYN+ACK, -/
  opened : s'.state = .established → s.state = .established ∨ dg.syn.isSome = true
  /-- and that makes the numbering of the peer known, -/
  known : s.havePeerSeq = true ∨ dg.syn.isSome = true → s'.havePeerSeq = true
  /-- from the initial number it carries. -/
  peerIsn : s'.peerIsn = dg.syn.elim s.peerIsn SynData.initialSeq

/-- The open after the SYN section of a datagram, and the answer to it. -/
structure Opened (s m : RdpeudpState) (dg : Datagram) (out out' : StepOutput) : Prop where
  role : m.role = s.role
  cfg : m.cfg = s.cfg
  sendNext : m.sendNext = s.sendNext
  outQueue : m.outQueue = s.outQueue
  unacked : m.unacked = s.unacked
  reorder : m.reorder = s.reorder
  peerIsn : m.peerIsn = dg.syn.elim s.peerIsn SynData.initialSeq
  /-- The open is kept or completed. -/
  state : m.state = s.state ∨ m.state = .established
  /-- Only a SYN or SYN+ACK completes it. -/
  opened : m.state = .established → s.state = .established ∨ dg.syn.isSome = true
  /-- A SYN or SYN+ACK makes the numbering known. -/
  havePeerSeq : m.havePeerSeq = (s.havePeerSeq || dg.syn.isSome)
  /-- A numbering that was known is kept. -/
  recvNext : m.recvNext =
    if s.havePeerSeq then s.recvNext else dg.syn.elim s.recvNext fun syn => syn.initialSeq + 1
  /-- Nothing is delivered. -/
  delivered : out'.delivered = out.delivered
  /-- A server answers a SYN with its SYN+ACK. -/
  answer : out'.toSend = out.toSend ∨ (m.role = .server ∧ m.state = .established ∧
    out'.toSend = out.toSend ++ [m.synAckDatagram.bytes])

variable {dg : Datagram}

/-- Handling a datagram opens, then acknowledges, then receives. -/
theorem handle_some (h : s.handle dg out = some (s', out')) :
    ∃ m o, Opened s m dg out o ∧
      (m.processAck dg.fec.sndSourceAck).recvSection dg.source o = (s', out') := by
  cases hsyn : dg.syn with
  | none =>
    simp only [handle, hsyn, Option.bind_eq_bind, Option.bind_some, Option.pure_def,
      Option.some.injEq] at h
    refine ⟨_, _, ?_, h⟩
    constructor <;> simp [hsyn]
  | some syn =>
    simp only [handle, hsyn, Option.bind_eq_bind, Option.bind_eq_some_iff, Option.pure_def,
      Option.some.injEq] at h
    obtain ⟨⟨m, o⟩, hopen, h⟩ := h
    refine ⟨m, o, ?_, h⟩
    cases hrole : s.role with
    | server =>
      simp only [handleSyn, learnSyn, hrole, Option.bind_eq_bind, Option.bind_eq_some_iff,
        Option.pure_def, Option.some.injEq, Prod.mk.injEq] at hopen
      obtain ⟨pushed, hpush, rfl, rfl⟩ := hopen
      rw [push_some hpush]
      constructor <;> simp [hsyn, hrole]
    | client =>
      simp only [handleSyn, learnSyn, hrole, Option.some.injEq, Prod.mk.injEq] at hopen
      obtain ⟨rfl, rfl⟩ := hopen
      by_cases hstate : s.state = .synSent <;> constructor <;> simp [hsyn, hrole, hstate]

/-- What handling a datagram does to the open and the sender, and what it sends. -/
theorem handle_frame
    (segments : List (UInt32 × List UInt8)) (h : s.handle dg out = some (s', out')) :
    Handled s s' dg ∧ ∃ ds : List Datagram, out'.toSend = out.toSend ++ ds.map Datagram.bytes ∧
      ∀ d ∈ ds, Sendable s' segments d := by
  obtain ⟨m, o, hopen, hrecv⟩ := handle_some h
  have hsame : SameSender (m.processAck dg.fec.sndSourceAck) s' ∧
      (m.havePeerSeq = true → s'.havePeerSeq = true) ∧ out'.toSend = o.toSend := by
    cases hsrc : dg.source with
    | none =>
      simp only [recvSection, hsrc, Prod.mk.injEq] at hrecv
      obtain ⟨rfl, rfl⟩ := hrecv
      exact ⟨⟨rfl, rfl, rfl, rfl, rfl, rfl, rfl, rfl⟩, fun hhave => hhave, rfl⟩
    | some src =>
      simp only [recvSection, hsrc] at hrecv
      obtain ⟨hsame, hhave, hsend⟩ := recvSource_frame hrecv
      exact ⟨hsame, fun _ => hhave, hsend⟩
  obtain ⟨hsame, hhave, hsend⟩ := hsame
  refine ⟨⟨hsame.role.trans hopen.role, hsame.cfg.trans hopen.cfg,
    hsame.sendNext.trans hopen.sendNext, hsame.outQueue.trans hopen.outQueue, ?_, ?_, ?_, ?_,
    hsame.peerIsn.trans hopen.peerIsn⟩, ?_⟩
  · rw [hsame.unacked]
    simp only [processAck, hopen.unacked]
  · have hstate : s'.state = m.state := hsame.state
    rw [hstate]
    exact hopen.state
  · intro hest
    exact hopen.opened (hsame.state ▸ hest)
  · intro hknown
    apply hhave
    rw [hopen.havePeerSeq, Bool.or_eq_true]
    exact hknown
  · rcases hopen.answer with hnone | ⟨hrole, hstate, hanswer⟩
    · exact ⟨[], by simp [hsend, hnone], by simp⟩
    · have he : m.synAckDatagram = s'.synAckDatagram := by
        simp only [synAckDatagram, synData, hsame.cfg, hsame.peerIsn, hsame.negotiatedVersion,
          processAck]
      refine ⟨[s'.synAckDatagram], by simp [hsend, hanswer, he], ?_⟩
      intro d hd
      rw [List.mem_singleton.mp hd]
      exact .synAck (hsame.role.trans hrole) (hsame.state.trans hstate)

/-- Handling a datagram of the stream keeps the receiver on it, and the expected segment moves
it on. -/
theorem handle_tracks (hmode : s.cfg.mode = .reliable) (hcount : segs.length < 2 ^ 32)
    (htracks : Tracks base segs s (before ++ out.delivered.flatten) r)
    (hsyn : ∀ syn, dg.syn = some syn → syn.initialSeq + 1 = base)
    (hsource : ∀ src, dg.source = some src →
      (src.header.snSourceStart, src.payload) ∈ SerialNumber.numbered base segs ∧
        (s.havePeerSeq = false → dg.syn = none → src.header.snSourceStart = base))
    (h : s.handle dg out = some (s', out')) :
    ∃ r', r ≤ r' ∧ Tracks base segs s' (before ++ out'.delivered.flatten) r' ∧
      (s.havePeerSeq = true → (∃ src, dg.source = some src ∧
        src.header.snSourceStart = s.recvNext) → r < r') := by
  obtain ⟨m, o, hopen, hrecv⟩ := handle_some h
  have hm : Tracks base segs (m.processAck dg.fec.sndSourceAck)
      (before ++ o.delivered.flatten) r := by
    refine ⟨?_, ?_, by rw [hopen.delivered]; exact htracks.delivered, htracks.bound, ?_⟩
    · intro hhave
      show m.recvNext = _
      rw [hopen.recvNext]
      split
      · next hknown => exact htracks.numbered hknown
      · next hknown =>
        rw [Bool.not_eq_true] at hknown
        have hzero := htracks.fresh hknown
        subst hzero
        have hsome : dg.syn.isSome = true := by
          have hm : m.havePeerSeq = true := hhave
          rw [hopen.havePeerSeq, hknown, Bool.false_or] at hm
          exact hm
        obtain ⟨syn, he⟩ := Option.isSome_iff_exists.mp hsome
        rw [he, serial_zero]
        exact hsyn syn he
    · intro hhave
      have hm : m.havePeerSeq = false := hhave
      rw [hopen.havePeerSeq, Bool.or_eq_false_iff] at hm
      exact htracks.fresh hm.1
    · intro q p hq
      exact htracks.buffered q p (hopen.reorder ▸ hq)
  cases hsrc : dg.source with
  | none =>
    simp only [recvSection, hsrc, Prod.mk.injEq] at hrecv
    obtain ⟨rfl, rfl⟩ := hrecv
    refine ⟨r, Nat.le_refl r, hm, fun _ hsome => ?_⟩
    obtain ⟨src, he, -⟩ := hsome
    cases he
  | some src =>
    simp only [recvSection, hsrc] at hrecv
    obtain ⟨hmem, hadopt⟩ := hsource src hsrc
    have hmode' : m.cfg.mode = .reliable := by
      rw [hopen.cfg]
      exact hmode
    have hadopt' : m.havePeerSeq = false → src.header.snSourceStart = base := by
      intro hhave
      rw [hopen.havePeerSeq, Bool.or_eq_false_iff] at hhave
      exact hadopt hhave.1 (by simpa using hhave.2)
    obtain ⟨r', hr', ht, hnext⟩ := recvSource_tracks (s := m.processAck dg.fec.sndSourceAck)
      hmode' hcount hm hmem hadopt' hrecv
    refine ⟨r', hr', ht, fun hknown hsome => ?_⟩
    obtain ⟨src', he, hseq⟩ := hsome
    cases he
    have hhave : m.havePeerSeq = true := by rw [hopen.havePeerSeq, hknown, Bool.true_or]
    have hkept : m.recvNext = s.recvNext := by rw [hopen.recvNext, if_pos hknown]
    exact hnext hhave (hseq.trans hkept.symm)

end Macrdp.RdpeudpReceive
