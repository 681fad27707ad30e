import Macrdp.UdpListener

/-!
# What the transport sends is what its peer reads

The constructors build every datagram the transport sends. Each is read back as
it was built, under the padding the listener adds to the opening packets and
under the acknowledgment of acknowledgments a peer adds to data.
-/

namespace Macrdp.RdpeudpRoundTrip

open ByteCodec ByteCodec.Reader RdpeudpPdu RdpeudpDatagram UdpListener

/-- A version payload a client may put into a SYN: a cookie hash goes with the
third version and with no other. -/
def FromClient (x : SynDataEx) : Prop :=
  x.cookieHash.isSome = (x.udpVersion == .v3)

/-- A vector whose count and runs fit their wire fields. -/
structure FitsWire (v : AckVectorHeader) : Prop where
  /-- The count has sixteen bits. -/
  count : v.elements.length ≤ 65535
  /-- A run has six bits. -/
  runs : ∀ e ∈ v.elements, e.runLength ≤ 63

/-- The datagrams the constructors build from fitting parts. -/
inductive Built : Datagram → Prop where
  | syn (sndSourceAck : Int32) (recvWindow : UInt16) (syn : SynData) (synEx : Option SynDataEx)
      (hex : ∀ x ∈ synEx, FromClient x) :
      Built (.ofSyn sndSourceAck recvWindow syn synEx none)
  | synAck (clientIsn : UInt32) (recvWindow : UInt16) (syn : SynData) (udpVersion : UdpVersion) :
      Built (.ofSynAck clientIsn recvWindow syn udpVersion)
  | data (sndSourceAck : Int32) (recvWindow : UInt16) (ackVector : AckVectorHeader)
      (source : SourcePacket) (hfits : FitsWire ackVector) :
      Built (.ofData sndSourceAck recvWindow ackVector source)
  | ack (sndSourceAck : Int32) (recvWindow : UInt16) (ackVector : AckVectorHeader)
      (hfits : FitsWire ackVector) :
      Built (.ofAck sndSourceAck recvWindow ackVector)

/-- Where the vector of `runs` runs of an encoded datagram ends. -/
def vectorEnd (runs : ℕ) : ℕ := FecHeader.fixedPartSize + AckVectorHeader.paddedLen runs

/-- Set the high bit of the flags that announces an acknowledgment of
acknowledgments; the flags are the seventh and eighth byte. -/
def setAckOfAcks (b : List UInt8) : List UInt8 := b.modify 6 fun byte => byte ||| 0x01

/-- An encoded datagram with an acknowledgment of acknowledgments behind its
vector of `runs` runs. -/
def insertAckOfAcks (runs : ℕ) (acks : ByteBlock 4) (b : List UInt8) : List UInt8 :=
  (setAckOfAcks b).take (vectorEnd runs) ++ (acks.1 ++ (setAckOfAcks b).drop (vectorEnd runs))

/-- A data datagram that also announces an acknowledgment of acknowledgments. -/
def ofDataAcks (sndSourceAck : Int32) (recvWindow : UInt16) (ackVector : AckVectorHeader)
    (source : SourcePacket) : Datagram :=
  { Datagram.ofData sndSourceAck recvWindow ackVector source with
    fec := ⟨sndSourceAck, recvWindow, (FecFlags.data.union .ack).union .ackOfAcks⟩ }

/-- The bytes of a header whose flags get another bit of their high byte. -/
theorem setAckOfAcks_fec (sndSourceAck : Int32) (recvWindow : UInt16) (rest : List UInt8) :
    setAckOfAcks (FecHeader.bytes ⟨sndSourceAck, recvWindow, FecFlags.data.union .ack⟩ ++ rest) =
      FecHeader.bytes ⟨sndSourceAck, recvWindow, (FecFlags.data.union .ack).union .ackOfAcks⟩ ++
        rest := by
  simp only [setAckOfAcks, FecHeader.bytes, bigEndian, List.cons_append, List.nil_append,
    List.modify_succ_cons, List.modify_zero_cons]
  rfl

theorem length_fec_bytes (fec : FecHeader) : fec.bytes.length = FecHeader.fixedPartSize := by
  simp [FecHeader.bytes, FecHeader.fixedPartSize]

/-- The section goes between the vector and the source payload. -/
theorem insertAckOfAcks_bytes (sndSourceAck : Int32) (recvWindow : UInt16)
    (ackVector : AckVectorHeader) (source : SourcePacket) (acks : ByteBlock 4) :
    insertAckOfAcks ackVector.elements.length acks
        (Datagram.ofData sndSourceAck recvWindow ackVector source).bytes =
      FecHeader.bytes ⟨sndSourceAck, recvWindow, (FecFlags.data.union .ack).union .ackOfAcks⟩ ++
        (ackVector.bytes ++ (acks.1 ++ source.bytes)) := by
  have hbytes : (Datagram.ofData sndSourceAck recvWindow ackVector source).bytes =
      FecHeader.bytes ⟨sndSourceAck, recvWindow, FecFlags.data.union .ack⟩ ++
        (ackVector.bytes ++ source.bytes) := by
    simp [Datagram.bytes, Datagram.ofData]
  have hend : vectorEnd ackVector.elements.length = (FecHeader.bytes ⟨sndSourceAck, recvWindow,
      (FecFlags.data.union .ack).union .ackOfAcks⟩ ++ ackVector.bytes).length := by
    rw [List.length_append, length_fec_bytes, ackVector.length_bytes]
    rfl
  rw [insertAckOfAcks, hbytes, setAckOfAcks_fec, hend, ← List.append_assoc (FecHeader.bytes _),
    List.take_left, List.drop_left, List.append_assoc]

/-- A data datagram with an acknowledgment of acknowledgments is read as one
without, its flags apart. -/
theorem decode_insertAckOfAcks (sndSourceAck : Int32) (recvWindow : UInt16)
    {ackVector : AckVectorHeader} (source : SourcePacket) (acks : ByteBlock 4)
    (hfits : FitsWire ackVector) :
    Datagram.decode (insertAckOfAcks ackVector.elements.length acks
        (Datagram.ofData sndSourceAck recvWindow ackVector source).bytes) =
      .ok (ofDataAcks sndSourceAck recvWindow ackVector source) := by
  have hcount : ackVector.elements.length < 2 ^ 16 := by
    have := hfits.count
    omega
  have hsyn : ((FecFlags.data.union .ack).union .ackOfAcks).contains .syn = false := by decide
  have hack : ((FecFlags.data.union .ack).union .ackOfAcks).contains .ack = true := by decide
  have hsome : ((FecFlags.data.union .ack).union .ackOfAcks).contains .ackOfAcks =
      (some acks).isSome := by rfl
  have hdata : ((FecFlags.data.union .ack).union .ackOfAcks).contains .data =
      (some source).isSome := by rfl
  have h : GetsAll Datagram.decodeCursor _ (ofDataAcks sndSourceAck recvWindow ackVector source) :=
    Datagram.getsAll_plain hsyn hack hsome hdata hcount hfits.runs
  rw [insertAckOfAcks_bytes]
  exact fromBytes_of_getsAll h

/-- A datagram the constructors build is read back from its bytes. -/
theorem decode_built {d : Datagram} (hd : Built d) : Datagram.decode d.bytes = .ok d := by
  cases hd with
  | syn sndSourceAck recvWindow syn synEx hex =>
    exact fromBytes_of_getsAll (Datagram.gets_ofSyn sndSourceAck recvWindow syn hex).all
  | synAck clientIsn recvWindow syn udpVersion =>
    exact Datagram.decode_ofSynAck clientIsn recvWindow syn udpVersion
  | data sndSourceAck recvWindow ackVector source hfits =>
    exact Datagram.decode_ofData sndSourceAck recvWindow source
      (Nat.lt_succ_of_le hfits.count) hfits.runs
  | ack sndSourceAck recvWindow ackVector hfits =>
    exact Datagram.decode_ofAck sndSourceAck recvWindow (Nat.lt_succ_of_le hfits.count) hfits.runs

/-- A reader that gets its value whatever follows gets it from a longer buffer. -/
theorem decode_append {d : Datagram} {b : List UInt8} (h : Gets Datagram.decodeCursor b d)
    (rest : List UInt8) : Datagram.decode (b ++ rest) = .ok d := by
  rw [Datagram.decode, fromBytes, h rest]
  rfl

/-- A datagram of the opening exchange is read back from a longer buffer. -/
theorem decode_padded {d : Datagram} (hd : Built d) (hsyn : d.fec.flags.contains .syn = true)
    (rest : List UInt8) : Datagram.decode (d.bytes ++ rest) = .ok d := by
  cases hd with
  | syn sndSourceAck recvWindow syn synEx hex =>
    exact decode_append (Datagram.gets_ofSyn sndSourceAck recvWindow syn hex) rest
  | synAck clientIsn recvWindow syn udpVersion =>
    exact decode_append (Datagram.gets_ofSynAck clientIsn recvWindow syn udpVersion) rest
  | data => exact absurd hsyn (by simp [Datagram.ofData]; decide)
  | ack => exact absurd hsyn (by simp [Datagram.ofAck]; decide)

/-- Whatever a built datagram is encoded to, its bytes are read back as it, its
flags are found without reading it, an opening packet is read back under any zero
padding, and data is read with the same vector and payload when an acknowledgment
of acknowledgments is put in. -/
theorem decode_encode {d : Datagram} {b : List UInt8} (hd : Built d) (hb : d.encode = .ok b) :
    Datagram.decode b = .ok d ∧
    Datagram.peekFecFlags b = some d.fec.flags ∧
    (isSynFamily b = true → ∀ n, Datagram.decode (b ++ List.replicate n 0) = .ok d) ∧
    (∀ ackVector source, d.ackVector = some ackVector → d.source = some source →
      ∀ acks : ByteBlock 4, ∃ d',
        Datagram.decode (insertAckOfAcks ackVector.elements.length acks b) = .ok d' ∧
          d'.ackVector = some ackVector ∧ d'.source = some source ∧
          d'.fec = { d.fec with flags := d.fec.flags.union .ackOfAcks }) := by
  obtain ⟨rfl, -⟩ := Datagram.encode_eq hb
  have hback := decode_built hd
  obtain ⟨hpeek, -, -⟩ := Datagram.decode_sections hback
  refine ⟨hback, hpeek, fun hfamily n => decode_padded hd ?_ _, ?_⟩
  · rwa [isSynFamily, hpeek, Option.any_some] at hfamily
  · intro ackVector source hack hsource acks
    cases hd with
    | syn => cases hack
    | synAck => cases hack
    | data sndSourceAck recvWindow vector packet hfits =>
      cases hack
      cases hsource
      exact ⟨_, decode_insertAckOfAcks sndSourceAck recvWindow source acks hfits, rfl, rfl, rfl⟩
    | ack => cases hsource

/-- A data datagram with two runs, so that its vector is not padded. -/
def sampleData : Datagram :=
  .ofData 41 64 ⟨[⟨.received, 3⟩, ⟨.notYetReceived, 1⟩]⟩ ⟨⟨43, 43⟩, [0x68, 0x69]⟩

/-- The sample is read back with and without the section put in behind its vector. -/
theorem decode_encode_sample :
    Datagram.decode sampleData.bytes = .ok sampleData ∧
    Datagram.peekFecFlags sampleData.bytes = some (FecFlags.data.union .ack) ∧
    ∃ d', Datagram.decode (insertAckOfAcks 2 ⟨[0, 0, 0, 7], rfl⟩ sampleData.bytes) = .ok d' ∧
      d'.source = sampleData.source := by
  have hfits : FitsWire ⟨[⟨.received, 3⟩, ⟨.notYetReceived, 1⟩]⟩ :=
    ⟨by decide, by decide⟩
  have hencode : sampleData.encode = .ok sampleData.bytes := rfl
  obtain ⟨hback, hpeek, -, hacks⟩ := decode_encode (.data 41 64 _ _ hfits) hencode
  obtain ⟨d', hd', -, hsource, -⟩ := hacks _ _ rfl rfl ⟨[0, 0, 0, 7], rfl⟩
  exact ⟨hback, hpeek, d', hd', hsource⟩

end Macrdp.RdpeudpRoundTrip
