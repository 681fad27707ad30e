import Macrdp.ByteCodec

/-!
# Tunnel messages

The messages inside the secured stream of a tunnel: the request that names the
security cookie of a session, the response to it, and the data of migrated
channels. Numbers are little-endian.
-/

namespace Macrdp.EmtTunnel

open ByteCodec ByteCodec.Writer ByteCodec.Reader

/-- Create the tunnel. -/
def actionCreateRequest : UInt8 := 0x0

/-- The result of a request. -/
def actionCreateResponse : UInt8 := 0x1

/-- Channel data. -/
def actionData : UInt8 := 0x2

/-- The success result. -/
def hrSOk : UInt32 := 0

/-- The header in front of every tunnel message. -/
structure TunnelHeader where
  /-- What the message is. -/
  action : UInt8
  flags : UInt8
  /-- Bytes behind the header. -/
  payloadLength : UInt16
  /-- Bytes of the header with its sub-headers. -/
  headerLength : UInt8
  deriving DecidableEq

namespace TunnelHeader

/-- Bytes of a header without sub-headers. -/
def fixedPartSize : ℕ := 4

/-- Bytes of the whole message, if the header length is valid. -/
def totalLen (h : TunnelHeader) : Option ℕ :=
  if h.headerLength.toNat < fixedPartSize then none
  else some (h.headerLength.toNat + h.payloadLength.toNat)

/-- A header without sub-headers. -/
def simple (action : UInt8) (payloadLength : UInt16) : TunnelHeader := ⟨action, 0, payloadLength, 4⟩

/-- Write the header. -/
def encode (h : TunnelHeader) : Writer Unit := do
  Writer.ensureSize fixedPartSize
  writeU8 ((h.action &&& (0x0f : UInt8)) ||| ((h.flags &&& (0x0f : UInt8)) <<< (4 : UInt8)))
  writeU16Le h.payloadLength
  writeU8 h.headerLength

/-- Read the header, skipping sub-headers. -/
def decode : Reader TunnelHeader := do
  Reader.ensureSize fixedPartSize
  let b0 ← readU8
  let payloadLength ← readU16Le
  let headerLength ← readU8
  if headerLength.toNat < fixedPartSize then
    invalidField "HeaderLength" "below the 4-byte minimum"
  let subLen := headerLength.toNat - fixedPartSize
  Reader.ensureSize subLen
  let _ ← readSlice subLen
  return ⟨b0 &&& 0x0f, (b0 >>> 4) &&& 0x0f, payloadLength, headerLength⟩

end TunnelHeader

/-- The length of the message a buffer starts with, if its header is there and
valid. -/
def peekPduLen : List UInt8 → Option ℕ
  | _ :: lo :: hi :: headerLength :: _ =>
    if headerLength.toNat < TunnelHeader.fixedPartSize then none
    else some (headerLength.toNat + ofBigEndian [hi, lo])
  | _ => none

/-- A message is no shorter than its header. -/
theorem fixedPartSize_le_peekPduLen {buf : List UInt8} {total : ℕ}
    (h : peekPduLen buf = some total) : TunnelHeader.fixedPartSize ≤ total := by
  unfold peekPduLen at h
  split at h
  · split at h
    · cases h
    · next hlen =>
      cases h
      omega
  · cases h

/-- The action of a buffered message. -/
def peekAction (buf : List UInt8) : Option UInt8 := buf.head?.map (· &&& 0x0f)

/-- A security cookie. -/
abbrev Cookie := ByteBlock 16

/-- The cookie that is one byte over and over. -/
def Cookie.replicate (byte : UInt8) : Cookie := ⟨List.replicate 16 byte, List.length_replicate⟩

/-- The request to bind a tunnel to a session. -/
structure TunnelCreateRequest where
  /-- The request identifier of the offer. -/
  requestId : UInt32
  /-- The cookie of the offer. -/
  securityCookie : Cookie
  deriving DecidableEq

namespace TunnelCreateRequest

/-- Bytes of the payload. -/
def payloadSize : ℕ := 24

/-- Read a request. -/
def reader : Reader (TunnelCreateRequest × ℕ) := do
  let header ← TunnelHeader.decode
  if header.action ≠ actionCreateRequest then
    invalidField "Action" "not a CREATEREQUEST"
  if header.payloadLength.toNat < payloadSize then
    invalidField "PayloadLength" "too short for CREATEREQUEST"
  Reader.ensureSize payloadSize
  let requestId ← readU32Le
  let _ ← readU32Le
  let securityCookie ← readArray 16
  match header.totalLen with
  | some consumed => return (⟨requestId, securityCookie⟩, consumed)
  | none => invalidField "HeaderLength" "malformed"

/-- Decode a request, with the length of its message. -/
def decode (buf : List UInt8) : Except DecodeError (TunnelCreateRequest × ℕ) := reader.fromBytes buf

end TunnelCreateRequest

/-- The response to a request. -/
structure TunnelCreateResponse where
  /-- The result. -/
  hrResponse : UInt32
  deriving DecidableEq

namespace TunnelCreateResponse

/-- Bytes of the payload. -/
def payloadSize : ℕ := 4

/-- Success. -/
def ok : TunnelCreateResponse := ⟨hrSOk⟩

/-- Write the response. -/
def encode (r : TunnelCreateResponse) : Writer Unit := do
  (TunnelHeader.simple actionCreateResponse (UInt16.ofNat payloadSize)).encode
  Writer.ensureSize payloadSize
  writeU32Le r.hrResponse

/-- The bytes of the response; a failed encoding leaves the buffer zero. -/
def toVec (r : TunnelCreateResponse) : List UInt8 :=
  let total := TunnelHeader.fixedPartSize + payloadSize
  match r.encode.toBytes total with
  | .ok bytes => bytes
  | .error _ => List.replicate total 0

example : ok.toVec = [1, 4, 0, 4, 0, 0, 0, 0] := by decide +kernel

end TunnelCreateResponse

/-- Wrap channel data in a data message. -/
def encodeTunnelData (higherLayerData : List UInt8) : List UInt8 :=
  let length := higherLayerData.length
  let header := TunnelHeader.simple actionData
    (if length ≤ 65535 then UInt16.ofNat length else 65535)
  let front := match header.encode.toBytes (TunnelHeader.fixedPartSize + length) with
    | .ok bytes => bytes
    | .error _ => List.replicate TunnelHeader.fixedPartSize 0
  front ++ higherLayerData

/-- The channel data of a data message. -/
def tunnelDataPayload (pdu : List UInt8) : Except DecodeError (List UInt8) := do
  let header ← TunnelHeader.decode.fromBytes pdu
  let start := header.headerLength.toNat
  let stop := start + header.payloadLength.toNat
  if stop ≤ pdu.length then .ok ((pdu.take stop).drop start)
  else .error (.invalidField "PayloadLength" "exceeds buffer")

end Macrdp.EmtTunnel
