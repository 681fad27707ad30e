import Mathlib.Data.List.Basic
import Mathlib.Data.List.GetD
import Mathlib.Data.List.Induction

/-!
# The processor of a redirected camera

A device channel is opened by the server, which asks for the camera's streams and media types,
starts one stream and then pulls samples: each sample that arrives is answered by the request
for one more.
-/

namespace Macrdp.CameraDevice

/-! ## The second byte of a message's header -/

namespace MsgId

def successResponse : UInt8 := 0x01
def errorResponse : UInt8 := 0x02
def activateDeviceRequest : UInt8 := 0x07
def streamListRequest : UInt8 := 0x09
def streamListResponse : UInt8 := 0x0A
def mediaTypeListRequest : UInt8 := 0x0B
def mediaTypeListResponse : UInt8 := 0x0C
def startStreamsRequest : UInt8 := 0x0F
def sampleRequest : UInt8 := 0x11
def sampleResponse : UInt8 := 0x12
def sampleErrorResponse : UInt8 := 0x13

end MsgId

/-! ## The first byte of a media type -/

namespace Format

def h264 : UInt8 := 0x01
def mjpg : UInt8 := 0x02
def nv12 : UInt8 := 0x04
def i420 : UInt8 := 0x05

end Format

/-- A compressed format has to be decoded. -/
def flagDecodingRequired : UInt8 := 0x01

/-- The bytes of a media type description. -/
abbrev mediaTypeDescLen : ℕ := 26

/-- The sample requests to keep outstanding. -/
def samplePipelineDepth : ℕ := 4

/-- A media type description as the client sent it. -/
abbrev MediaTypeDesc := Vector UInt8 mediaTypeDescLen

/-- A message of the server. -/
structure CameraMsg where
  version : UInt8
  msgId : UInt8
  body : List UInt8
  deriving DecidableEq

/-- A call of the sink that decodes the samples. -/
inductive SinkCall where
  | onMediaType (format : UInt8) (width height : UInt32)
  | onSample (frame : List UInt8)
  deriving DecidableEq

/-- How far the negotiation is. -/
inductive DeviceState where
  | activating
  | listingStreams
  | listingMediaTypes
  | starting
  | streaming
  | done
  deriving DecidableEq

/-- The processor of one device channel. -/
structure RdCameraDeviceProcessor where
  version : UInt8
  state : DeviceState
  streamIndex : UInt8
  /-- A sink takes the samples. -/
  sink : Bool
  deriving DecidableEq

/-- What handling a payload leaves, sends and tells the sink. -/
structure Outcome where
  device : RdCameraDeviceProcessor
  messages : List CameraMsg
  calls : List SinkCall

/-- Split off the header; a payload that is too short has none. -/
def splitHeader : List UInt8 → Option (UInt8 × UInt8 × List UInt8)
  | version :: id :: body => some (version, id, body)
  | _ => none

/-- A payload of the client by its message id, with what is read of its body. -/
inductive Incoming where
  | successResponse
  | errorResponse
  | streamListResponse
  | mediaTypeListResponse (body : List UInt8)
  | sampleResponse (body : List UInt8)
  | sampleErrorResponse
  /-- Too short, or not handled. -/
  | other
  deriving DecidableEq

/-- Tell the messages apart. -/
def Incoming.ofPayload (payload : List UInt8) : Incoming :=
  match splitHeader payload with
  | none => .other
  | some (_, id, body) =>
    if id = MsgId.successResponse then .successResponse
    else if id = MsgId.errorResponse then .errorResponse
    else if id = MsgId.streamListResponse then .streamListResponse
    else if id = MsgId.mediaTypeListResponse then .mediaTypeListResponse body
    else if id = MsgId.sampleResponse then .sampleResponse body
    else if id = MsgId.sampleErrorResponse then .sampleErrorResponse
    else .other

/-- The little-endian word at an offset. -/
def u32At (d : List UInt8) (o : ℕ) : UInt32 :=
  (d.getD o 0).toUInt32 ||| (d.getD (o + 1) 0).toUInt32 <<< 8 |||
    (d.getD (o + 2) 0).toUInt32 <<< 16 ||| (d.getD (o + 3) 0).toUInt32 <<< 24

/-- The preference among the formats. -/
def rank (fmt : UInt8) : ℕ :=
  if fmt = Format.h264 then 4
  else if fmt = Format.mjpg then 3
  else if fmt = Format.nv12 ∨ fmt = Format.i420 then 2
  else 1

/-- The description at an index of a media type list. -/
def entry (body : List UInt8) (i : ℕ) : MediaTypeDesc :=
  Vector.ofFn fun j => body.getD (i * mediaTypeDescLen + j) 0

/-- A description replaces the best one so far if its rank is greater. -/
def better (best : Option (ℕ × MediaTypeDesc)) (d : MediaTypeDesc) : Option (ℕ × MediaTypeDesc) :=
  if best.all fun b => rank d[0] > b.1 then some (rank d[0], d) else best

/-- Ask for decoding of a compressed format. -/
def requireDecoding (d : MediaTypeDesc) : MediaTypeDesc :=
  if d[0] = Format.h264 ∨ d[0] = Format.mjpg then d.set 25 (d[25] ||| flagDecodingRequired) else d

/-- The best media type of a list, the first among equals. -/
def pickMediaType (body : List UInt8) : Option MediaTypeDesc :=
  let count := body.length / mediaTypeDescLen
  if count = 0 then none
  else (((List.range count).map (entry body)).foldl better none).map fun b => requireDecoding b.2

namespace RdCameraDeviceProcessor

/-- A processor for a channel that the client named. -/
def new (version : UInt8) (sink : Bool) : RdCameraDeviceProcessor :=
  ⟨version, .activating, 0, sink⟩

/-- A message under the negotiated version. -/
def msg (p : RdCameraDeviceProcessor) (id : UInt8) (body : List UInt8) : CameraMsg :=
  ⟨p.version, id, body⟩

/-- Requests for samples. -/
def sampleRequests (p : RdCameraDeviceProcessor) (n : ℕ) : List CameraMsg :=
  List.replicate n (p.msg MsgId.sampleRequest [p.streamIndex])

/-- The channel is open. -/
def start (p : RdCameraDeviceProcessor) : Outcome :=
  ⟨{ p with state := .activating }, [p.msg MsgId.activateDeviceRequest []], []⟩

/-- The client did what the last request asked for. -/
def success (p : RdCameraDeviceProcessor) : Outcome :=
  match p.state with
  | .activating =>
    ⟨{ p with state := .listingStreams }, [p.msg MsgId.streamListRequest []], []⟩
  | .starting => ⟨{ p with state := .streaming }, p.sampleRequests samplePipelineDepth, []⟩
  | _ => ⟨p, [], []⟩

/-- The camera has streams; the first is driven. -/
def streamList (p : RdCameraDeviceProcessor) : Outcome :=
  ⟨{ p with streamIndex := 0, state := .listingMediaTypes },
    [p.msg MsgId.mediaTypeListRequest [0]], []⟩

/-- The stream has media types; the best is started. -/
def mediaTypeList (p : RdCameraDeviceProcessor) (body : List UInt8) : Outcome :=
  match pickMediaType body with
  | none => ⟨{ p with state := .done }, [], []⟩
  | some chosen =>
    ⟨{ p with state := .starting },
      [p.msg MsgId.startStreamsRequest (p.streamIndex :: chosen.toList)],
      if p.sink then [.onMediaType chosen[0] (u32At chosen.toList 1) (u32At chosen.toList 5)]
      else []⟩

/-- A sample arrived. -/
def sample (p : RdCameraDeviceProcessor) (body : List UInt8) : Outcome :=
  ⟨p, p.sampleRequests 1, if p.sink then [.onSample (body.drop 1)] else []⟩

/-- Handle a payload of the client. -/
def process (p : RdCameraDeviceProcessor) (payload : List UInt8) : Outcome :=
  match Incoming.ofPayload payload with
  | .successResponse => p.success
  | .errorResponse => ⟨{ p with state := .done }, [], []⟩
  | .streamListResponse => p.streamList
  | .mediaTypeListResponse body => p.mediaTypeList body
  | .sampleResponse body => p.sample body
  | .sampleErrorResponse => ⟨p, p.sampleRequests 1, []⟩
  | .other => ⟨p, [], []⟩

end RdCameraDeviceProcessor

/-- The best description so far, once there is one, is one of those seen, has the greatest rank
among them, and comes with its rank. -/
structure Leads (seen : List MediaTypeDesc) (r : ℕ) (d : MediaTypeDesc) : Prop where
  mem : d ∈ seen
  rank : r = rank d[0]
  greatest : ∀ e ∈ seen, CameraDevice.rank e[0] ≤ r

/-- Looking at the descriptions leaves one that leads. -/
theorem leads_foldl (descs : List MediaTypeDesc) (hne : descs ≠ []) :
    ∃ r d, descs.foldl better none = some (r, d) ∧ Leads descs r d := by
  induction descs using List.reverseRecOn with
  | nil => exact absurd rfl hne
  | append_singleton seen next ih =>
    rw [List.foldl_append, List.foldl_cons, List.foldl_nil]
    by_cases hseen : seen = []
    · refine ⟨rank next[0], next, by rw [hseen]; rfl, by simp, rfl, ?_⟩
      intro e he
      rw [hseen, List.nil_append, List.mem_singleton] at he
      exact Nat.le_of_eq (by rw [he])
    · obtain ⟨r, d, hbest, hleads⟩ := ih hseen
      rw [hbest]
      by_cases hgreater : rank next[0] > r
      · refine ⟨rank next[0], next, by simp [better, hgreater], by simp, rfl, ?_⟩
        intro e he
        rcases List.mem_append.mp he with he | he
        · have hle := hleads.greatest e he
          omega
        · exact Nat.le_of_eq (by rw [List.mem_singleton.mp he])
      · refine ⟨r, d, by simp [better, hgreater], List.mem_append_left _ hleads.mem,
          hleads.rank, ?_⟩
        intro e he
        rcases List.mem_append.mp he with he | he
        · exact hleads.greatest e he
        · rw [List.mem_singleton.mp he]
          omega

/-- A list that holds a description has entries. -/
theorem entries_ne_nil {body : List UInt8} (hcount : body.length / mediaTypeDescLen ≠ 0) :
    (List.range (body.length / mediaTypeDescLen)).map (entry body) ≠ [] := by
  intro hnil
  have hlen := congrArg List.length hnil
  rw [List.length_map, List.length_range] at hlen
  exact hcount hlen

/-- The chosen media type is one that the client offered, but for its decoding flag, and none
of the offered ones has a greater rank. -/
theorem pickMediaType_best {body : List UInt8} {chosen : MediaTypeDesc}
    (h : pickMediaType body = some chosen) :
    ∃ i < body.length / mediaTypeDescLen, chosen = requireDecoding (entry body i) ∧
      ∀ j < body.length / mediaTypeDescLen, rank (entry body j)[0] ≤ rank (entry body i)[0] := by
  unfold pickMediaType at h
  dsimp only at h
  split at h
  · cases h
  · next hcount =>
    obtain ⟨r, d, hbest, hleads⟩ := leads_foldl _ (entries_ne_nil hcount)
    rw [hbest] at h
    obtain ⟨i, hi, hentry⟩ := List.mem_map.mp hleads.mem
    refine ⟨i, List.mem_range.mp hi, ?_, ?_⟩
    · rw [hentry]
      exact (Option.some.inj h).symm
    · intro j hj
      have hmem : entry body j ∈ (List.range (body.length / mediaTypeDescLen)).map (entry body) :=
        List.mem_map.mpr ⟨j, List.mem_range.mpr hj, rfl⟩
      have hle := hleads.greatest _ hmem
      rw [hleads.rank] at hle
      rw [hentry]
      exact hle

/-- A raw and a compressed format. -/
def twoFormats : List UInt8 :=
  Format.nv12 :: List.replicate 25 0 ++ Format.mjpg :: List.replicate 25 0

theorem pickMediaType_best_compressed :
    ∃ i < 2, requireDecoding (entry twoFormats 1) = requireDecoding (entry twoFormats i) ∧
      ∀ j < 2, rank (entry twoFormats j)[0] ≤ rank (entry twoFormats i)[0] :=
  pickMediaType_best (by decide : pickMediaType twoFormats = some _)

/-- A list is unusable exactly if it does not hold one description. -/
theorem pickMediaType_eq_none {body : List UInt8} :
    pickMediaType body = none ↔ body.length < mediaTypeDescLen := by
  constructor
  · intro h
    by_contra hlong
    have hcount : body.length / mediaTypeDescLen ≠ 0 := by
      have hpos : 0 < body.length / mediaTypeDescLen := Nat.div_pos (by omega) (by decide)
      omega
    obtain ⟨r, d, hbest, -⟩ := leads_foldl _ (entries_ne_nil hcount)
    unfold pickMediaType at h
    dsimp only at h
    rw [if_neg hcount, hbest] at h
    cases h
  · intro h
    unfold pickMediaType
    dsimp only
    rw [if_pos (Nat.div_eq_of_lt h)]

end Macrdp.CameraDevice
