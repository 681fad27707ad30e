import Macrdp.ByteCodec

/-!
# The wire structures of the UDP transport

Headers and payloads of the first protocol version, each with its writer, its
reader and the round trip between them. All multi-byte fields are big-endian.
-/

namespace Macrdp.RdpeudpPdu

open ByteCodec ByteCodec.Writer ByteCodec.Reader

/-- `uFlags` of the FEC header. -/
structure FecFlags where
  /-- The flag bits, unknown ones included. -/
  bits : UInt16
  deriving DecidableEq, Repr

namespace FecFlags

/-- Start a connection. -/
def syn : FecFlags := ⟨0x0001⟩

/-- An acknowledgment vector is present. -/
def ack : FecFlags := ⟨0x0004⟩

/-- A source payload is present. -/
def data : FecFlags := ⟨0x0008⟩

/-- An acknowledgment of acknowledgments is present. -/
def ackOfAcks : FecFlags := ⟨0x0100⟩

/-- A correlation identifier is present. -/
def correlationId : FecFlags := ⟨0x0800⟩

/-- A SYN opens a lossy flow. -/
def synLossy : FecFlags := ⟨0x0200⟩

/-- A version negotiation payload is present. -/
def synEx : FecFlags := ⟨0x1000⟩

/-- All flags of either operand. -/
def union (a b : FecFlags) : FecFlags := ⟨a.bits ||| b.bits⟩

/-- Whether all of the given flags are set. -/
def contains (a b : FecFlags) : Bool := a.bits &&& b.bits == b.bits

end FecFlags

/-- The header in front of every datagram. -/
structure FecHeader where
  /-- Highest source sequence number acknowledged, `-1` before any. -/
  sndSourceAck : Int32
  /-- The receive window of the sender, in datagrams. -/
  recvWindow : UInt16
  /-- Which sections follow. -/
  flags : FecFlags
  deriving DecidableEq

namespace FecHeader

/-- Bytes of a FEC header. -/
def fixedPartSize : ℕ := 8

/-- Write the header. -/
def encode (h : FecHeader) : Writer Unit := do
  ensureSize fixedPartSize
  writeU32Be h.sndSourceAck.toUInt32
  writeU16Be h.recvWindow
  writeU16Be h.flags.bits

/-- Read the header, keeping unknown flags. -/
def decode : Reader FecHeader := do
  ensureSize fixedPartSize
  let sndSourceAck ← readU32Be
  let recvWindow ← readU16Be
  let flags ← readU16Be
  return ⟨sndSourceAck.toInt32, recvWindow, ⟨flags⟩⟩

/-- The bytes of the header. -/
def bytes (h : FecHeader) : List UInt8 :=
  bigEndian 4 h.sndSourceAck.toUInt32.toNat ++
    (bigEndian 2 h.recvWindow.toNat ++ bigEndian 2 h.flags.bits.toNat)

theorem emits_encode (h : FecHeader) : Emits h.encode h.bytes :=
  emits_ensureSize (emits_append (emits_writeU32Be _) (emits_append (emits_writeU16Be _)
    (emits_writeU16Be _))) (by simp [bytes, fixedPartSize])

theorem gets_decode (h : FecHeader) : Gets decode h.bytes h :=
  gets_ensureSize (gets_bind (gets_readU32Be _) (gets_bind (gets_readU16Be _)
    (gets_map (gets_readU16Be _)))) (by simp [bytes, fixedPartSize])

/-- The flags of a header that was read are its last two bytes. -/
theorem decode_flags {src : List UInt8} {result : FecHeader × List UInt8}
    (h : decode src = .ok result) : fixedPartSize ≤ src.length ∧
      result.1.flags = ⟨UInt16.ofNat (ofBigEndian ((src.drop 6).take 2))⟩ := by
  obtain ⟨_, src₁, hsize, h⟩ := bind_ok h
  obtain ⟨hlen, hsrc⟩ := ensureSize_ok hsize
  obtain ⟨ack, src₂, hack, h⟩ := bind_ok h
  obtain ⟨window, src₃, hwindow, h⟩ := bind_ok h
  obtain ⟨flags, src₄, hflags, h⟩ := bind_ok h
  cases h
  have hack := readU32Be_ok hack
  have hwindow := readU16Be_ok hwindow
  have hflags := readU16Be_ok hflags
  simp only [Prod.mk.injEq] at hsrc hack hwindow hflags
  refine ⟨hlen, ?_⟩
  rw [hflags.1, hwindow.2, hack.2, hsrc, List.drop_drop]

end FecHeader

/-- The payload of a SYN or SYN+ACK. -/
structure SynData where
  /-- The sequence number of the SYN itself. -/
  initialSeq : UInt32
  /-- Upstream MTU. -/
  upstreamMtu : UInt16
  /-- Downstream MTU. -/
  downstreamMtu : UInt16
  deriving DecidableEq

namespace SynData

/-- Bytes of a SYN payload. -/
def fixedPartSize : ℕ := 8

/-- Write the payload. -/
def encode (s : SynData) : Writer Unit := do
  ensureSize fixedPartSize
  writeU32Be s.initialSeq
  writeU16Be s.upstreamMtu
  writeU16Be s.downstreamMtu

/-- Read the payload. -/
def decode : Reader SynData := do
  ensureSize fixedPartSize
  let initialSeq ← readU32Be
  let upstreamMtu ← readU16Be
  let downstreamMtu ← readU16Be
  return ⟨initialSeq, upstreamMtu, downstreamMtu⟩

/-- The bytes of the payload. -/
def bytes (s : SynData) : List UInt8 :=
  bigEndian 4 s.initialSeq.toNat ++
    (bigEndian 2 s.upstreamMtu.toNat ++ bigEndian 2 s.downstreamMtu.toNat)

theorem emits_encode (s : SynData) : Emits s.encode s.bytes :=
  emits_ensureSize (emits_append (emits_writeU32Be _) (emits_append (emits_writeU16Be _)
    (emits_writeU16Be _))) (by simp [bytes, fixedPartSize])

theorem gets_decode (s : SynData) : Gets decode s.bytes s :=
  gets_ensureSize (gets_bind (gets_readU32Be _) (gets_bind (gets_readU16Be _)
    (gets_map (gets_readU16Be _)))) (by simp [bytes, fixedPartSize])

end SynData

/-- A version of the UDP protocol. -/
inductive UdpVersion where
  | v1
  | v2
  /-- Selects the second framing of the data path. -/
  | v3
  deriving DecidableEq, Repr

namespace UdpVersion

/-- The version a wire number names. -/
def fromU16 (v : UInt16) : Option UdpVersion :=
  if v = 0x0001 then some .v1
  else if v = 0x0002 then some .v2
  else if v = 0x0101 then some .v3
  else none

/-- The wire number of a version. -/
def asU16 : UdpVersion → UInt16
  | .v1 => 0x0001
  | .v2 => 0x0002
  | .v3 => 0x0101

/-- A version is the one its wire number names. -/
theorem fromU16_asU16 (version : UdpVersion) : fromU16 version.asU16 = some version := by
  cases version <;> decide

end UdpVersion

/-- The version negotiation payload of a SYN. -/
structure SynDataEx where
  /-- `uSynExFlags`, unknown ones included. -/
  flags : UInt16
  /-- The offered or selected version. -/
  udpVersion : UdpVersion
  /-- Hash of the security cookie, sent by a client that offers version 3. -/
  cookieHash : Option (ByteBlock 32)
  deriving DecidableEq

namespace SynDataEx

/-- Bytes of the payload without a cookie hash. -/
def fixedPartSize : ℕ := 4

/-- Bytes of the cookie hash. -/
def cookieHashSize : ℕ := 32

/-- `uUdpVer` carries a valid version. -/
def versionInfoValid : UInt16 := 0x0001

/-- Read the payload; whether a version 3 payload has a cookie hash depends on
the direction it travels. -/
def decodeDirectional (expectCookieHash : Bool) : Reader SynDataEx := do
  ensureSize fixedPartSize
  let flags ← readU16Be
  let version ← readU16Be
  match UdpVersion.fromU16 version with
  | none => invalidField "uUdpVer" "unknown RDP-UDP protocol version"
  | some udpVersion =>
    if expectCookieHash && udpVersion == .v3 then do
      ensureSize cookieHashSize
      let hash ← readArray cookieHashSize
      return ⟨flags, udpVersion, some hash⟩
    else
      return ⟨flags, udpVersion, none⟩

/-- Write the payload. -/
def encode (x : SynDataEx) : Writer Unit := do
  ensureSize fixedPartSize
  writeU16Be x.flags
  writeU16Be x.udpVersion.asU16
  match x.cookieHash with
  | none => pure ()
  | some hash => do
    ensureSize cookieHashSize
    writeSlice hash.1

/-- The bytes of the payload. -/
def bytes (x : SynDataEx) : List UInt8 :=
  bigEndian 2 x.flags.toNat ++ (bigEndian 2 x.udpVersion.asU16.toNat ++
    (x.cookieHash.elim [] Subtype.val))

theorem emits_encode (x : SynDataEx) : Emits x.encode x.bytes := by
  refine emits_ensureSize (emits_append (emits_writeU16Be _) (emits_append (emits_writeU16Be _) ?_))
    (by simp [bytes, fixedPartSize]; omega)
  cases x.cookieHash with
  | none => exact emits_pure
  | some hash => exact emits_ensureSize (emits_writeSlice _) (by simp [cookieHashSize, hash.2])

/-- A payload is read back when its cookie hash is present exactly as the
direction and the version say. -/
theorem gets_decodeDirectional {x : SynDataEx} {expectCookieHash : Bool}
    (h : x.cookieHash.isSome = (expectCookieHash && x.udpVersion == .v3)) :
    Gets (decodeDirectional expectCookieHash) x.bytes x := by
  refine gets_ensureSize (gets_bind (gets_readU16Be _) (gets_bind (gets_readU16Be _) ?_))
    (by simp [bytes, fixedPartSize]; omega)
  obtain ⟨flags, version, _ | hash⟩ := x
  · simp only [UdpVersion.fromU16_asU16, Option.isSome_none] at h ⊢
    rw [← h]
    exact gets_pure _
  · simp only [UdpVersion.fromU16_asU16, Option.isSome_some] at h ⊢
    rw [← h]
    exact gets_ensureSize (gets_map (gets_readArray _)) (by simp [cookieHashSize, hash.2])

end SynDataEx

/-- The correlation identifier payload of a SYN. -/
structure CorrelationId where
  /-- The identifier. -/
  id : ByteBlock 16
  deriving DecidableEq

namespace CorrelationId

/-- Bytes of the payload, the reserved ones included. -/
def fixedPartSize : ℕ := 32

/-- Write the identifier and the zero reserve. -/
def encode (c : CorrelationId) : Writer Unit := do
  ensureSize fixedPartSize
  writeSlice c.id.1
  writeSlice (List.replicate 16 0)

/-- Read the identifier and skip the reserve. -/
def decode : Reader CorrelationId := do
  ensureSize fixedPartSize
  let id ← readArray 16
  let _ ← readArray 16
  return ⟨id⟩

/-- The bytes of the payload. -/
def bytes (c : CorrelationId) : List UInt8 := c.id.1 ++ List.replicate 16 0

theorem emits_encode (c : CorrelationId) : Emits c.encode c.bytes :=
  emits_ensureSize (emits_append (emits_writeSlice _) (emits_writeSlice _))
    (by simp [bytes, fixedPartSize, c.id.2])

end CorrelationId

/-- The header in front of the application data of a source packet. -/
structure SourcePayloadHeader where
  /-- Sequence number for coding. -/
  snCoded : UInt32
  /-- Sequence number of the source packet. -/
  snSourceStart : UInt32
  deriving DecidableEq

namespace SourcePayloadHeader

/-- Bytes of a source payload header. -/
def fixedPartSize : ℕ := 8

/-- Write the header. -/
def encode (h : SourcePayloadHeader) : Writer Unit := do
  ensureSize fixedPartSize
  writeU32Be h.snCoded
  writeU32Be h.snSourceStart

/-- Read the header. -/
def decode : Reader SourcePayloadHeader := do
  ensureSize fixedPartSize
  let snCoded ← readU32Be
  let snSourceStart ← readU32Be
  return ⟨snCoded, snSourceStart⟩

/-- The bytes of the header. -/
def bytes (h : SourcePayloadHeader) : List UInt8 :=
  bigEndian 4 h.snCoded.toNat ++ bigEndian 4 h.snSourceStart.toNat

theorem emits_encode (h : SourcePayloadHeader) : Emits h.encode h.bytes :=
  emits_ensureSize (emits_append (emits_writeU32Be _) (emits_writeU32Be _))
    (by simp [bytes, fixedPartSize])

theorem gets_decode (h : SourcePayloadHeader) : Gets decode h.bytes h :=
  gets_ensureSize (gets_bind (gets_readU32Be _) (gets_map (gets_readU32Be _)))
    (by simp [bytes, fixedPartSize])

end SourcePayloadHeader

/-- The state of a run of datagrams in the queue of the receiver. -/
inductive VectorElementState where
  | received
  | reserved1
  | reserved2
  | notYetReceived
  deriving DecidableEq, Repr

namespace VectorElementState

/-- The state named by the low two bits. -/
def fromBits (v : UInt8) : VectorElementState :=
  if v &&& 3 = 0 then .received
  else if v &&& 3 = 1 then .reserved1
  else if v &&& 3 = 2 then .reserved2
  else .notYetReceived

/-- The two bits that name a state. -/
def toBits : VectorElementState → UInt8
  | .received => 0
  | .reserved1 => 1
  | .reserved2 => 2
  | .notYetReceived => 3

end VectorElementState

/-- One run of an acknowledgment vector. -/
structure AckVectorElement where
  /-- The state shared by the run. -/
  state : VectorElementState
  /-- Datagrams in the run, at most 63 on the wire. -/
  runLength : UInt8
  deriving DecidableEq

namespace AckVectorElement

/-- The wire byte of a run; a length beyond six bits is cut. -/
def toByte (e : AckVectorElement) : UInt8 := (e.state.toBits <<< 6) ||| (e.runLength &&& 0x3f)

/-- The run of a wire byte. -/
def fromByte (b : UInt8) : AckVectorElement := ⟨.fromBits (b >>> 6), b &&& 0x3f⟩

/-- A run of at most 63 datagrams is the one its wire byte names. -/
theorem fromByte_toByte {e : AckVectorElement} (h : e.runLength ≤ 63) :
    fromByte e.toByte = e := by
  obtain ⟨state, runLength⟩ := e
  have hall : ∀ n : Fin 256, n.val ≤ 63 →
      fromByte (toByte ⟨state, UInt8.ofFin n⟩) = ⟨state, UInt8.ofFin n⟩ := by
    cases state <;> decide +kernel
  have hle := UInt8.le_iff_toNat_le.mp h
  exact hall runLength.toFin hle

end AckVectorElement

/-- The selective acknowledgment vector. -/
structure AckVectorHeader where
  /-- The runs, for decreasing sequence numbers. -/
  elements : List AckVectorElement
  deriving DecidableEq

namespace AckVectorHeader

/-- Bytes of the element count. -/
def fixedPartSize : ℕ := 2

/-- Bytes of a vector of `n` runs, padded to a multiple of four. -/
def paddedLen (n : ℕ) : ℕ := (fixedPartSize + n + 3) / 4 * 4

/-- Write the vector: count (cut to 16 bits), runs and zero padding. -/
def encode (v : AckVectorHeader) : Writer Unit := do
  ensureSize (paddedLen v.elements.length)
  writeU16Be (UInt16.ofNat v.elements.length)
  v.elements.forM fun e => writeU8 e.toByte
  (List.range (paddedLen v.elements.length - fixedPartSize - v.elements.length)).forM
    fun _ => writeU8 0

/-- Read the vector and skip the padding. -/
def decode : Reader AckVectorHeader := do
  ensureSize fixedPartSize
  let n ← readU16Be
  ensureSize n.toNat
  let elements ← replicateM (do let b ← readU8; return AckVectorElement.fromByte b) n.toNat
  ensureSize (paddedLen n.toNat - fixedPartSize - n.toNat)
  let _ ← readSlice (paddedLen n.toNat - fixedPartSize - n.toNat)
  return ⟨elements⟩

/-- The padding of the vector. -/
def padding (v : AckVectorHeader) : List UInt8 :=
  (List.range (paddedLen v.elements.length - fixedPartSize - v.elements.length)).flatMap
    fun _ => [0]

/-- The bytes of the vector. -/
def bytes (v : AckVectorHeader) : List UInt8 :=
  bigEndian 2 (UInt16.ofNat v.elements.length).toNat ++
    ((v.elements.flatMap fun e => [e.toByte]) ++ v.padding)

theorem length_padding (v : AckVectorHeader) :
    v.padding.length = paddedLen v.elements.length - fixedPartSize - v.elements.length := by
  simp [padding, List.length_flatMap]

/-- A padded vector has the padded length. -/
theorem length_bytes (v : AckVectorHeader) : v.bytes.length = paddedLen v.elements.length := by
  have hruns : (v.elements.flatMap fun e => [e.toByte]).length = v.elements.length := by
    simp [List.length_flatMap]
  simp only [bytes, List.length_append, length_bigEndian, length_padding, hruns]
  simp only [paddedLen, fixedPartSize]
  omega

theorem emits_encode (v : AckVectorHeader) : Emits v.encode v.bytes :=
  emits_ensureSize (emits_append (emits_writeU16Be _) (emits_append
    (emits_forM fun _ => emits_writeU8 _) (emits_forM fun _ => emits_writeU8 0)))
    (v.length_bytes ▸ Nat.le_refl _)

/-- A vector of at most 65535 runs of at most 63 datagrams is read back. -/
theorem gets_decode {v : AckVectorHeader} (hcount : v.elements.length < 2 ^ 16)
    (hruns : ∀ e ∈ v.elements, e.runLength ≤ 63) : Gets decode v.bytes v := by
  have hn : (UInt16.ofNat v.elements.length).toNat = v.elements.length :=
    UInt16.toNat_ofNat_of_lt' hcount
  have hpadding : Gets (do
      ensureSize (paddedLen v.elements.length - fixedPartSize - v.elements.length)
      let _ ← readSlice (paddedLen v.elements.length - fixedPartSize - v.elements.length)
      return (⟨v.elements⟩ : AckVectorHeader)) v.padding v :=
    gets_ensureSize (gets_map (gets_readSlice v.length_padding)) (v.length_padding ▸ Nat.le_refl _)
  have helements : Gets (replicateM (do let b ← readU8; return AckVectorElement.fromByte b)
      v.elements.length) (v.elements.flatMap fun e => [e.toByte]) v.elements := by
    refine gets_replicateM fun e he => ?_
    have h := gets_map (f := AckVectorElement.fromByte) (gets_readU8 e.toByte)
    rwa [AckVectorElement.fromByte_toByte (hruns e he)] at h
  refine gets_ensureSize (gets_bind (gets_readU16Be _) ?_)
    (by simp [bytes, fixedPartSize])
  rw [hn]
  exact gets_ensureSize (gets_bind helements hpadding) (by simp [List.length_flatMap])

end AckVectorHeader

end Macrdp.RdpeudpPdu
