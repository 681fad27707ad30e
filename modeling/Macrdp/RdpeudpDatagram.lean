import Macrdp.RdpeudpPdu

/-!
# Whole datagrams of the UDP transport

A datagram is the FEC header and the sections its flags select. The four kinds
the transport sends (SYN, SYN+ACK, data, acknowledgment) are read back as they
were written.
-/

namespace Macrdp.RdpeudpDatagram

open ByteCodec ByteCodec.Writer ByteCodec.Reader RdpeudpPdu

/-- The application payload of a source packet with its header. -/
structure SourcePacket where
  /-- The sequence numbers of the packet. -/
  header : SourcePayloadHeader
  /-- The application bytes. -/
  payload : List UInt8
  deriving DecidableEq

/-- The FEC header and the sections its flags select. -/
structure Datagram where
  /-- The mandatory header. -/
  fec : FecHeader
  /-- The acknowledgment vector. -/
  ackVector : Option AckVectorHeader
  /-- The source payload. -/
  source : Option SourcePacket
  /-- The SYN payload. -/
  syn : Option SynData
  /-- The correlation identifier. -/
  correlation : Option CorrelationId
  /-- The version negotiation payload. -/
  synEx : Option SynDataEx
  deriving DecidableEq

namespace SourcePacket

/-- Write the header, checked, and the payload, unchecked. -/
def encode (s : SourcePacket) : Writer Unit := do
  s.header.encode
  writeSlice s.payload

/-- Read the header and take everything behind it as the payload. -/
def decode : Reader SourcePacket := do
  let header ← SourcePayloadHeader.decode
  let payload ← readRemaining
  return ⟨header, payload⟩

/-- The bytes of the packet. -/
def bytes (s : SourcePacket) : List UInt8 := s.header.bytes ++ s.payload

theorem emits_encode (s : SourcePacket) : Emits s.encode s.bytes :=
  emits_append s.header.emits_encode (emits_writeSlice _)

theorem getsAll_decode (s : SourcePacket) : GetsAll decode s.bytes s :=
  getsAll_bind s.header.gets_decode (getsAll_map (getsAll_readRemaining _))

end SourcePacket

namespace Datagram

/-- A client SYN, or a generic one with an acknowledgment vector. -/
def ofSyn (sndSourceAck : Int32) (recvWindow : UInt16) (syn : SynData)
    (synEx : Option SynDataEx) (ackVector : Option AckVectorHeader) : Datagram :=
  let flags := FecFlags.syn
  let flags := if synEx.isSome then flags.union .synEx else flags
  let flags := if ackVector.isSome then flags.union .ack else flags
  { fec := ⟨sndSourceAck, recvWindow, flags⟩
    ackVector := ackVector
    source := none
    syn := some syn
    correlation := none
    synEx := synEx }

/-- The SYN+ACK of the server: the client's initial number rides in the header,
and there is neither a vector nor a cookie hash. -/
def ofSynAck (clientIsn : UInt32) (recvWindow : UInt16) (syn : SynData)
    (udpVersion : UdpVersion) : Datagram where
  fec := ⟨clientIsn.toInt32, recvWindow, (FecFlags.syn.union .ack).union .synEx⟩
  ackVector := none
  source := none
  syn := some syn
  correlation := none
  synEx := some ⟨SynDataEx.versionInfoValid, udpVersion, none⟩

/-- A source payload with the cumulative and selective acknowledgment. -/
def ofData (sndSourceAck : Int32) (recvWindow : UInt16) (ackVector : AckVectorHeader)
    (source : SourcePacket) : Datagram where
  fec := ⟨sndSourceAck, recvWindow, FecFlags.data.union .ack⟩
  ackVector := some ackVector
  source := some source
  syn := none
  correlation := none
  synEx := none

/-- A pure acknowledgment. -/
def ofAck (sndSourceAck : Int32) (recvWindow : UInt16) (ackVector : AckVectorHeader) :
    Datagram where
  fec := ⟨sndSourceAck, recvWindow, FecFlags.ack⟩
  ackVector := some ackVector
  source := none
  syn := none
  correlation := none
  synEx := none

/-- Write the header and the sections that are there. -/
def encodeCursor (d : Datagram) : Writer Unit := do
  d.fec.encode
  Writer.optional d.ackVector AckVectorHeader.encode
  Writer.optional d.source SourcePacket.encode
  Writer.optional d.syn SynData.encode
  Writer.optional d.correlation CorrelationId.encode
  Writer.optional d.synEx SynDataEx.encode

/-- The size of the buffer a datagram is written to. -/
def encodeCapacity (d : Datagram) : ℕ :=
  8 + 8 + 8 + 4 + 32 + 36 + d.source.elim 0 fun s => s.payload.length

/-- Encode a datagram. -/
def encode (d : Datagram) : Except EncodeError (List UInt8) :=
  d.encodeCursor.toBytes d.encodeCapacity

/-- Skip an acknowledgment of acknowledgments. -/
def skipAckOfAcks (there : Bool) : Reader Unit :=
  if there then do
    ensureSize 4
    let _ ← readU32Be
  else
    pure ()

/-- Read the sections behind the header and the acknowledgment vector. -/
def decodeSections (fec : FecHeader) (ackVector : Option AckVectorHeader) : Reader Datagram :=
  if fec.flags.contains .syn then do
    let syn ← SynData.decode
    let correlation ← Reader.optional (fec.flags.contains .correlationId) CorrelationId.decode
    let synEx ← Reader.optional (fec.flags.contains .synEx)
      (SynDataEx.decodeDirectional (!fec.flags.contains .ack))
    return ⟨fec, ackVector, none, some syn, correlation, synEx⟩
  else if fec.flags.contains .data then do
    let source ← SourcePacket.decode
    return ⟨fec, ackVector, some source, none, none, none⟩
  else
    return ⟨fec, ackVector, none, none, none, none⟩

/-- Read a datagram; a SYN has no acknowledgment vector whatever its flags. -/
def decodeCursor : Reader Datagram := do
  let fec ← FecHeader.decode
  let ackVector ← Reader.optional (fec.flags.contains .ack && !fec.flags.contains .syn)
    AckVectorHeader.decode
  skipAckOfAcks (fec.flags.contains .ackOfAcks && !fec.flags.contains .syn)
  decodeSections fec ackVector

/-- Decode a datagram; bytes behind its sections are ignored. -/
def decode (bytes : List UInt8) : Except DecodeError Datagram := decodeCursor.fromBytes bytes

/-- The flags of a datagram, read without decoding it. -/
def peekFecFlags (bytes : List UInt8) : Option FecFlags :=
  if bytes.length < FecHeader.fixedPartSize then none
  else some ⟨UInt16.ofNat (ofBigEndian ((bytes.drop 6).take 2))⟩

/-- The bytes of a datagram. -/
def bytes (d : Datagram) : List UInt8 :=
  d.fec.bytes ++ (d.ackVector.elim [] AckVectorHeader.bytes ++
    (d.source.elim [] SourcePacket.bytes ++ (d.syn.elim [] SynData.bytes ++
      (d.correlation.elim [] CorrelationId.bytes ++ d.synEx.elim [] SynDataEx.bytes))))

theorem emits_encodeCursor (d : Datagram) : Emits d.encodeCursor d.bytes :=
  emits_append d.fec.emits_encode (emits_append (emits_optional AckVectorHeader.emits_encode _)
    (emits_append (emits_optional SourcePacket.emits_encode _)
      (emits_append (emits_optional SynData.emits_encode _)
        (emits_append (emits_optional CorrelationId.emits_encode _)
          (emits_optional SynDataEx.emits_encode _)))))

/-- Whatever a datagram is encoded to is its bytes, and they fitted the buffer. -/
theorem encode_eq {d : Datagram} {out : List UInt8} (h : d.encode = .ok out) :
    out = d.bytes ∧ d.bytes.length ≤ d.encodeCapacity :=
  toBytes_eq d.emits_encodeCursor h

/-- Without an acknowledgment of acknowledgments nothing is skipped. -/
theorem gets_skipAckOfAcks_false : Gets (skipAckOfAcks false) [] () := gets_pure ()

/-- The section is skipped whatever it holds. -/
theorem gets_skipAckOfAcks (acks : Option (ByteBlock 4)) :
    Gets (skipAckOfAcks acks.isSome) (acks.elim [] Subtype.val) () := by
  cases acks with
  | none => exact gets_skipAckOfAcks_false
  | some acks =>
    have hread : Gets (do let _ ← readU32Be; pure ()) acks.1 () :=
      gets_map (gets_map (f := fun bytes => UInt32.ofNat (ofBigEndian bytes))
        (gets_readSlice acks.2))
    exact gets_ensureSize hread (Nat.le_of_eq acks.2.symm)

/-- A datagram that is not a SYN is read back when its sections are the ones its
flags select: the vector, what a peer acknowledges of it, which is not kept, and
the source payload if the data flag is set. -/
theorem getsAll_plain {fec : FecHeader} {ackVector : AckVectorHeader}
    {acks : Option (ByteBlock 4)} {source : Option SourcePacket}
    (hsyn : fec.flags.contains .syn = false)
    (hack : fec.flags.contains .ack = true)
    (hacks : fec.flags.contains .ackOfAcks = acks.isSome)
    (hdata : fec.flags.contains .data = source.isSome)
    (hcount : ackVector.elements.length < 2 ^ 16)
    (hruns : ∀ e ∈ ackVector.elements, e.runLength ≤ 63) :
    GetsAll decodeCursor
      (fec.bytes ++ (ackVector.bytes ++
        (acks.elim [] Subtype.val ++ source.elim [] SourcePacket.bytes)))
      ⟨fec, some ackVector, source, none, none, none⟩ := by
  refine getsAll_bind (FecHeader.gets_decode fec) ?_
  simp only [hack, hsyn, hacks, Bool.not_false, Bool.and_true]
  refine getsAll_bind (gets_optional_true (AckVectorHeader.gets_decode hcount hruns)) ?_
  refine getsAll_bind (gets_skipAckOfAcks acks) ?_
  cases source with
  | none =>
    simp only [decodeSections, hsyn, hdata, Option.isSome_none, Bool.false_eq_true, if_false]
    exact (gets_pure _).all
  | some source =>
    simp only [decodeSections, hsyn, hdata, Option.isSome_some, Bool.false_eq_true, if_false,
      if_true]
    exact getsAll_map source.getsAll_decode

/-- A SYN is read back, whatever follows it, when its sections are the ones its
flags select. -/
theorem gets_syn {fec : FecHeader} {syn : SynData} {synEx : Option SynDataEx}
    (hsyn : fec.flags.contains .syn = true) (hcorr : fec.flags.contains .correlationId = false)
    (hex : fec.flags.contains .synEx = synEx.isSome)
    (hhash : ∀ x ∈ synEx, x.cookieHash.isSome =
      (!fec.flags.contains .ack && x.udpVersion == .v3)) :
    Gets decodeCursor (fec.bytes ++ (syn.bytes ++ synEx.elim [] SynDataEx.bytes))
      ⟨fec, none, none, some syn, none, synEx⟩ := by
  refine gets_bind (FecHeader.gets_decode fec) ?_
  simp only [hsyn, Bool.not_true, Bool.and_false]
  have hsections : Gets (decodeSections fec none) (syn.bytes ++ synEx.elim [] SynDataEx.bytes)
      ⟨fec, none, none, some syn, none, synEx⟩ := by
    simp only [decodeSections, hsyn, hcorr, hex, if_true]
    refine gets_bind syn.gets_decode ?_
    have hlast : Gets (do
        let correlation ← Reader.optional false CorrelationId.decode
        let x ← Reader.optional synEx.isSome
          (SynDataEx.decodeDirectional (!fec.flags.contains .ack))
        return (⟨fec, none, none, some syn, correlation, x⟩ : Datagram))
        ([] ++ synEx.elim [] SynDataEx.bytes) ⟨fec, none, none, some syn, none, synEx⟩ := by
      refine gets_bind (gets_optional_false _) ?_
      cases synEx with
      | none => exact gets_map (gets_optional_false _)
      | some x =>
        exact gets_map (gets_optional_true (SynDataEx.gets_decodeDirectional (hhash x rfl)))
    exact hlast
  have hstart : Gets (do
      let ackVector ← Reader.optional false AckVectorHeader.decode
      skipAckOfAcks false
      decodeSections fec ackVector)
      ([] ++ ([] ++ (syn.bytes ++ synEx.elim [] SynDataEx.bytes)))
      ⟨fec, none, none, some syn, none, synEx⟩ :=
    gets_bind (gets_optional_false _) (gets_bind gets_skipAckOfAcks_false hsections)
  exact hstart

/-- The sections a data datagram and a pure acknowledgment have. -/
theorem plain_flags : ∀ flags ∈ [FecFlags.data.union .ack, FecFlags.ack],
    flags.contains .syn = false ∧ flags.contains .ack = true ∧
      flags.contains .ackOfAcks = false ∧
      flags.contains .data = decide (flags = FecFlags.data.union .ack) := by
  decide

/-- The sections a SYN and a SYN+ACK have. -/
theorem syn_flags : ∀ flags ∈ [FecFlags.syn, FecFlags.syn.union .synEx,
    (FecFlags.syn.union .ack).union .synEx],
    flags.contains .syn = true ∧ flags.contains .correlationId = false ∧
      flags.contains .synEx = decide (flags ≠ FecFlags.syn) ∧
      flags.contains .ack = decide (flags = (FecFlags.syn.union .ack).union .synEx) := by
  decide

/-- A data datagram is read back. -/
theorem decode_ofData (sndSourceAck : Int32) (recvWindow : UInt16) {ackVector : AckVectorHeader}
    (source : SourcePacket) (hcount : ackVector.elements.length < 2 ^ 16)
    (hruns : ∀ e ∈ ackVector.elements, e.runLength ≤ 63) :
    decode (ofData sndSourceAck recvWindow ackVector source).bytes =
      .ok (ofData sndSourceAck recvWindow ackVector source) := by
  obtain ⟨hsyn, hack, hacks, hdata⟩ := plain_flags (FecFlags.data.union .ack) (by decide)
  have hnone : (FecFlags.data.union .ack).contains .ackOfAcks =
      (none : Option (ByteBlock 4)).isSome := hacks
  have h : GetsAll decodeCursor _ (ofData sndSourceAck recvWindow ackVector source) :=
    getsAll_plain hsyn hack hnone hdata hcount hruns
  simpa [decode, bytes, ofData] using fromBytes_of_getsAll h

/-- A pure acknowledgment is read back. -/
theorem decode_ofAck (sndSourceAck : Int32) (recvWindow : UInt16) {ackVector : AckVectorHeader}
    (hcount : ackVector.elements.length < 2 ^ 16)
    (hruns : ∀ e ∈ ackVector.elements, e.runLength ≤ 63) :
    decode (ofAck sndSourceAck recvWindow ackVector).bytes =
      .ok (ofAck sndSourceAck recvWindow ackVector) := by
  obtain ⟨hsyn, hack, hacks, hdata⟩ := plain_flags FecFlags.ack (by decide)
  have hnone : FecFlags.ack.contains .ackOfAcks = (none : Option (ByteBlock 4)).isSome := hacks
  have h : GetsAll decodeCursor _ (ofAck sndSourceAck recvWindow ackVector) :=
    getsAll_plain hsyn hack hnone hdata hcount hruns
  simpa [decode, bytes, ofAck] using fromBytes_of_getsAll h

/-- A SYN is read back, whatever follows it, when its version payload has a
cookie hash exactly for the third version. -/
theorem gets_ofSyn (sndSourceAck : Int32) (recvWindow : UInt16) (syn : SynData)
    {synEx : Option SynDataEx} (hex : ∀ x ∈ synEx, x.cookieHash.isSome = (x.udpVersion == .v3)) :
    Gets decodeCursor (ofSyn sndSourceAck recvWindow syn synEx none).bytes
      (ofSyn sndSourceAck recvWindow syn synEx none) := by
  cases synEx with
  | none =>
    obtain ⟨hsyn, hcorr, hex', -⟩ := syn_flags FecFlags.syn (by decide)
    have h : Gets decodeCursor _ (ofSyn sndSourceAck recvWindow syn none none) :=
      gets_syn hsyn hcorr hex' (by simp)
    simpa [bytes, ofSyn] using h
  | some x =>
    obtain ⟨hsyn, hcorr, hex', hack⟩ := syn_flags (FecFlags.syn.union .synEx) (by decide)
    have hhash : ∀ y ∈ some x, y.cookieHash.isSome =
        (!(FecFlags.syn.union .synEx).contains .ack && y.udpVersion == .v3) := by
      intro y hy
      rw [hex y hy]
      rfl
    have h : Gets decodeCursor _ (ofSyn sndSourceAck recvWindow syn (some x) none) :=
      gets_syn hsyn hcorr hex' hhash
    simpa [bytes, ofSyn] using h

/-- A SYN+ACK is read back, whatever follows it. -/
theorem gets_ofSynAck (clientIsn : UInt32) (recvWindow : UInt16) (syn : SynData)
    (udpVersion : UdpVersion) :
    Gets decodeCursor (ofSynAck clientIsn recvWindow syn udpVersion).bytes
      (ofSynAck clientIsn recvWindow syn udpVersion) := by
  obtain ⟨hsyn, hcorr, hex, hack⟩ :=
    syn_flags ((FecFlags.syn.union .ack).union .synEx) (by decide)
  have hhash : ∀ x ∈ some (⟨SynDataEx.versionInfoValid, udpVersion, none⟩ : SynDataEx),
      x.cookieHash.isSome =
        (!((FecFlags.syn.union .ack).union .synEx).contains .ack && x.udpVersion == .v3) := by
    rintro x ⟨⟩
    simp [hack]
  have h : Gets decodeCursor _ (ofSynAck clientIsn recvWindow syn udpVersion) :=
    gets_syn hsyn hcorr hex hhash
  simpa [bytes, ofSynAck] using h

/-- A SYN without version negotiation is read back. -/
theorem decode_ofSyn (sndSourceAck : Int32) (recvWindow : UInt16) (syn : SynData) :
    decode (ofSyn sndSourceAck recvWindow syn none none).bytes =
      .ok (ofSyn sndSourceAck recvWindow syn none none) :=
  fromBytes_of_getsAll (gets_ofSyn sndSourceAck recvWindow syn (by simp)).all

/-- A SYN+ACK is read back. -/
theorem decode_ofSynAck (clientIsn : UInt32) (recvWindow : UInt16) (syn : SynData)
    (udpVersion : UdpVersion) :
    decode (ofSynAck clientIsn recvWindow syn udpVersion).bytes =
      .ok (ofSynAck clientIsn recvWindow syn udpVersion) :=
  fromBytes_of_getsAll (gets_ofSynAck clientIsn recvWindow syn udpVersion).all

/-- A decoded datagram has the flags that are read without decoding, its SYN
section when they say so, and then no payload. -/
theorem decode_sections {src : List UInt8} {dg : Datagram} (h : decode src = .ok dg) :
    peekFecFlags src = some dg.fec.flags ∧
      dg.syn.isSome = dg.fec.flags.contains .syn ∧ (dg.syn.isSome → dg.source = none) := by
  simp only [decode, Reader.fromBytes] at h
  cases hread : decodeCursor src with
  | error e =>
    rw [hread] at h
    cases h
  | ok result =>
    rw [hread] at h
    cases h
    obtain ⟨fec, src₁, hfec, hread⟩ := Reader.bind_ok hread
    obtain ⟨ackVector, src₂, -, hread⟩ := Reader.bind_ok hread
    obtain ⟨_, src₃, -, hread⟩ := Reader.bind_ok hread
    obtain ⟨hlen, hflags⟩ := FecHeader.decode_flags hfec
    have hpeek : peekFecFlags src = some fec.flags := by
      rw [peekFecFlags, if_neg (Nat.not_lt.mpr hlen)]
      exact congrArg some hflags.symm
    simp only [decodeSections] at hread
    split at hread
    · next hsyn =>
      obtain ⟨syn, src₄, -, hread⟩ := Reader.bind_ok hread
      obtain ⟨correlation, src₅, -, hread⟩ := Reader.bind_ok hread
      obtain ⟨synEx, src₆, -, hread⟩ := Reader.bind_ok hread
      cases hread
      exact ⟨hpeek, hsyn.symm, fun _ => rfl⟩
    · next hsyn =>
      have hnosyn := (Bool.eq_false_of_not_eq_true hsyn).symm
      split at hread
      · obtain ⟨source, src₄, -, hread⟩ := Reader.bind_ok hread
        cases hread
        exact ⟨hpeek, hnosyn, fun hsome => absurd hsome Bool.false_ne_true⟩
      · cases hread
        exact ⟨hpeek, hnosyn, fun hsome => absurd hsome Bool.false_ne_true⟩

end Datagram
end Macrdp.RdpeudpDatagram
