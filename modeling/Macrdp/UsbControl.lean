import Mathlib.Algebra.Order.Ring.Nat
import Mathlib.Order.Basic

/-!
# Control requests of a redirected device

A SETUP packet is sent to the client as a typed URB, since the client takes no other: the URB's
function, its payload and the message around it stand for the request type, the recipient, the
request, its value and index, and the data stage. What a message stands for is compared with the
packet.
-/

namespace Macrdp.UsbControl

/-! ## Packets -/

/-- The eight bytes of a SETUP packet. -/
structure Setup where
  bmRequestType : UInt8
  bRequest : UInt8
  wValueLo : UInt8
  wValueHi : UInt8
  wIndexLo : UInt8
  wIndexHi : UInt8
  wLengthLo : UInt8
  wLengthHi : UInt8
  deriving DecidableEq

/-- Two bytes in little-endian order. -/
def fromLeBytes (lo hi : UInt8) : UInt16 := lo.toUInt16 ||| (hi.toUInt16 <<< 8)

namespace Setup

def wValue (s : Setup) : UInt16 := fromLeBytes s.wValueLo s.wValueHi

def wIndex (s : Setup) : UInt16 := fromLeBytes s.wIndexLo s.wIndexHi

def wLength (s : Setup) : UInt16 := fromLeBytes s.wLengthLo s.wLengthHi

/-- Standard is 0, class 1, vendor 2. -/
def reqType (s : Setup) : UInt8 := (s.bmRequestType >>> 5) &&& 0x03

/-- The device is 0, an interface 1, an endpoint 2, other 3. -/
def recipient (s : Setup) : UInt8 := s.bmRequestType &&& 0x1f

end Setup

/-- The direction of a transfer. -/
inductive Dir where
  | inward
  | outward
  deriving DecidableEq

/-- The direction bit of a request type. -/
def dirOf (bmRequestType : UInt8) : Dir :=
  if bmRequestType &&& 0x80 = 0x80 then .inward else .outward

/-! ## URBs -/

/-- The functions of typed control URBs. -/
inductive UrbFunction where
  | controlTransferEx
  | classDevice
  | classInterface
  | classEndpoint
  | classOther
  | vendorDevice
  | vendorInterface
  | vendorEndpoint
  | vendorOther
  | getDescriptorFromDevice
  | getDescriptorFromInterface
  | getDescriptorFromEndpoint
  | setDescriptorToDevice
  | setDescriptorToInterface
  | setDescriptorToEndpoint
  | setFeatureToDevice
  | setFeatureToInterface
  | setFeatureToEndpoint
  | clearFeatureToDevice
  | clearFeatureToInterface
  | clearFeatureToEndpoint
  | getStatusFromDevice
  | getStatusFromInterface
  | getStatusFromEndpoint
  | getConfiguration
  | getInterface
  deriving DecidableEq

/-- A packet as a URB carries it verbatim. -/
structure SetupPacket where
  requestType : UInt8
  request : UInt8
  value : UInt16
  index : UInt16
  length : UInt16
  deriving DecidableEq

/-- The payload of a control URB. -/
inductive UrbKind where
  | vendorClassReq (transferFlags : UInt32) (request : UInt8) (value index : UInt16)
  | ctlDescReq (index descType : UInt8) (langId : UInt16)
  | ctlFeatReq (featSelector index : UInt16)
  | ctlGetStatus (index : UInt16)
  | ctlGetConfig
  | ctlGetIface (interface : UInt16)
  | ctlTransferEx (pipe transferFlags timeout : UInt32) (setupPacket : SetupPacket)
  deriving DecidableEq

/-- The id of a request, of which 31 bits are used. -/
abbrev RequestId := { id : UInt32 // id.toNat < 2 ^ 31 }

/-- The header of a URB; its size is filled in when it is encoded. -/
structure UrbHeader where
  tsUrbSize : UInt16
  func : UrbFunction
  reqId : RequestId
  noAck : Bool

/-- A message to the client. -/
inductive DvcMessage where
  | regReqCb (msgId : UInt32) (udevIface requestCompletion : UInt32)
  | transferIn (msgId udevIface : UInt32) (header : UrbHeader) (kind : UrbKind)
    (outputBufferSize : UInt32)
  | transferOut (msgId udevIface : UInt32) (header : UrbHeader) (kind : UrbKind)
    (outputBuffer : List UInt8)

def usbdTransferDirectionIn : UInt32 := 0x1

/-! ## The mapping -/

/-- The function for a device, an interface or an endpoint. -/
def forRecipient (device interface endpoint : UrbFunction) (recipient : UInt8) :
    Option UrbFunction :=
  if recipient = 0 then some device
  else if recipient = 1 then some interface
  else if recipient = 2 then some endpoint
  else none

/-- The function of a class or a vendor request. -/
def vendorClassFunction (reqType recipient : UInt8) : UrbFunction :=
  if reqType = 1 then
    (forRecipient .classDevice .classInterface .classEndpoint recipient).getD .classOther
  else (forRecipient .vendorDevice .vendorInterface .vendorEndpoint recipient).getD .vendorOther

/-- The packet verbatim, on the default control pipe. -/
def controlTransferEx (s : Setup) (transferFlags : UInt32) : UrbFunction × UrbKind :=
  (.controlTransferEx, .ctlTransferEx 0 transferFlags 0
    ⟨s.bmRequestType, s.bRequest, s.wValue, s.wIndex, s.wLength⟩)

/-- The typed URB of a packet, where there is one. -/
def setupToTypedUrb (s : Setup) (transferFlags : UInt32) : UrbFunction × UrbKind :=
  let typed (func : Option UrbFunction) (kind : UrbKind) : UrbFunction × UrbKind :=
    match func with
    | some func => (func, kind)
    | none => controlTransferEx s transferFlags
  if s.reqType = 1 ∨ s.reqType = 2 then
    (vendorClassFunction s.reqType s.recipient,
      .vendorClassReq transferFlags s.bRequest s.wValue s.wIndex)
  else if s.reqType = 0 then
    if s.bRequest = 0x06 then
      typed (forRecipient .getDescriptorFromDevice .getDescriptorFromInterface
        .getDescriptorFromEndpoint s.recipient) (.ctlDescReq s.wValueLo s.wValueHi s.wIndex)
    else if s.bRequest = 0x07 then
      typed (forRecipient .setDescriptorToDevice .setDescriptorToInterface
        .setDescriptorToEndpoint s.recipient) (.ctlDescReq s.wValueLo s.wValueHi s.wIndex)
    else if s.bRequest = 0x01 then
      typed (forRecipient .clearFeatureToDevice .clearFeatureToInterface
        .clearFeatureToEndpoint s.recipient) (.ctlFeatReq s.wValue s.wIndex)
    else if s.bRequest = 0x03 then
      typed (forRecipient .setFeatureToDevice .setFeatureToInterface
        .setFeatureToEndpoint s.recipient) (.ctlFeatReq s.wValue s.wIndex)
    else if s.bRequest = 0x00 then
      typed (forRecipient .getStatusFromDevice .getStatusFromInterface
        .getStatusFromEndpoint s.recipient) (.ctlGetStatus s.wIndex)
    else if s.bRequest = 0x08 then (.getConfiguration, .ctlGetConfig)
    else if s.bRequest = 0x0a then (.getInterface, .ctlGetIface s.wIndex)
    else controlTransferEx s transferFlags
  else controlTransferEx s transferFlags

/-- The payload in a message that carries data to the device, where it has a form for it. -/
def inKindToOutKind : UrbKind → Option UrbKind
  | .vendorClassReq flags request value index => some (.vendorClassReq flags request value index)
  | .ctlDescReq index descType langId => some (.ctlDescReq index descType langId)
  | .ctlTransferEx pipe flags timeout packet => some (.ctlTransferEx pipe flags timeout packet)
  | _ => none

/-- Feature requests have no form that carries data. -/
def UrbKind.forcesTransferIn : UrbKind → Bool
  | .ctlFeatReq _ _ => true
  | _ => false

/-- The messages of a control request. -/
def controlTransferRequest (deviceIface : UInt32) (reqId : RequestId) (s : Setup) (dir : Dir)
    (inLength : UInt32) (outData : List UInt8) : List DvcMessage :=
  let transferFlags :=
    match dir with
    | .inward => usbdTransferDirectionIn
    | .outward => 0
  let (func, kind) := setupToTypedUrb s transferFlags
  let header : UrbHeader := ⟨0, func, reqId, false⟩
  let transfer :=
    if kind.forcesTransferIn ∨ dir = .inward then
      .transferIn 0 deviceIface header kind (if kind.forcesTransferIn then 0 else inLength)
    else
      match inKindToOutKind kind with
      | some out => .transferOut 0 deviceIface header out outData
      | none => .transferIn 0 deviceIface header kind inLength
  [.regReqCb 0 deviceIface deviceIface, transfer]

/-- The messages of a request for a descriptor of the device. -/
def getDescriptorRequest (deviceIface : UInt32) (reqId : RequestId) (descType index : UInt8)
    (langId : UInt16) (maxLen : UInt32) : List DvcMessage :=
  [.regReqCb 0 deviceIface deviceIface,
    .transferIn 0 deviceIface ⟨0, .getDescriptorFromDevice, reqId, false⟩
      (.ctlDescReq index descType langId) maxLen]

/-- A control request of the local controller: room for an answer, or data. -/
inductive TransferReq where
  | controlIn (maxLen : UInt32)
  | controlOut (data : List UInt8)

/-- The messages of a request as the handle builds them. -/
def TransferReq.request (deviceIface : UInt32) (reqId : RequestId) (s : Setup) :
    TransferReq → List DvcMessage
  | .controlIn maxLen => controlTransferRequest deviceIface reqId s .inward maxLen []
  | .controlOut data => controlTransferRequest deviceIface reqId s .outward 0 data

/-- The messages of a request of a presented device: a standard request for a descriptor of the
device has a path of its own. -/
def TransferReq.present (deviceIface : UInt32) (reqId : RequestId) (s : Setup) :
    TransferReq → List DvcMessage
  | .controlIn maxLen =>
    if s.bmRequestType = 0x80 ∧ s.bRequest = 0x06 then
      getDescriptorRequest deviceIface reqId s.wValueHi s.wValueLo s.wIndex maxLen
    else controlTransferRequest deviceIface reqId s .inward maxLen []
  | .controlOut data => controlTransferRequest deviceIface reqId s .outward 0 data

/-! ## What a message stands for -/

/-- The data stage of a request. -/
inductive Stage where
  | inward (length : ℕ)
  | outward (data : List UInt8)
  deriving DecidableEq

/-- A control request on the bus. -/
structure ControlRequest where
  reqType : UInt8
  recipient : UInt8
  request : UInt8
  value : UInt16
  index : UInt16
  stage : Stage
  deriving DecidableEq

/-- The request of a packet with its data stage. -/
def Setup.meaning (s : Setup) (stage : Stage) : ControlRequest :=
  ⟨s.reqType, s.recipient, s.bRequest, s.wValue, s.wIndex, stage⟩

/-- The request and the recipient that a function of a descriptor request stands for. -/
def UrbFunction.descriptor : UrbFunction → Option (UInt8 × UInt8)
  | .getDescriptorFromDevice => some (0x06, 0)
  | .getDescriptorFromInterface => some (0x06, 1)
  | .getDescriptorFromEndpoint => some (0x06, 2)
  | .setDescriptorToDevice => some (0x07, 0)
  | .setDescriptorToInterface => some (0x07, 1)
  | .setDescriptorToEndpoint => some (0x07, 2)
  | _ => none

/-- The request and the recipient that a function of a feature request stands for. -/
def UrbFunction.feature : UrbFunction → Option (UInt8 × UInt8)
  | .clearFeatureToDevice => some (0x01, 0)
  | .clearFeatureToInterface => some (0x01, 1)
  | .clearFeatureToEndpoint => some (0x01, 2)
  | .setFeatureToDevice => some (0x03, 0)
  | .setFeatureToInterface => some (0x03, 1)
  | .setFeatureToEndpoint => some (0x03, 2)
  | _ => none

/-- The recipient that a function of a status request stands for. -/
def UrbFunction.status : UrbFunction → Option UInt8
  | .getStatusFromDevice => some 0
  | .getStatusFromInterface => some 1
  | .getStatusFromEndpoint => some 2
  | _ => none

/-- The type and the recipient that a function of a class or vendor request stands for. -/
def UrbFunction.vendorClass : UrbFunction → Option (UInt8 × UInt8)
  | .classDevice => some (1, 0)
  | .classInterface => some (1, 1)
  | .classEndpoint => some (1, 2)
  | .classOther => some (1, 3)
  | .vendorDevice => some (2, 0)
  | .vendorInterface => some (2, 1)
  | .vendorEndpoint => some (2, 2)
  | .vendorOther => some (2, 3)
  | _ => none

/-- The request of a packet that is carried verbatim on the default pipe, if the flags, the packet
and the message agree on its direction and length. -/
def verbatim (pipe transferFlags : UInt32) (p : SetupPacket) (dir : Dir) (length : ℕ)
    (stage : Stage) : Option ControlRequest :=
  if pipe = 0 ∧ dirOf p.requestType = dir ∧ p.length.toNat = length ∧
      (transferFlags &&& usbdTransferDirectionIn ≠ 0 ↔ dir = .inward) then
    some ⟨(p.requestType >>> 5) &&& 0x03, p.requestType &&& 0x1f, p.request, p.value, p.index,
      stage⟩
  else none

/-- The request that a message to the client stands for. -/
def denote : DvcMessage → Option ControlRequest
  | .regReqCb _ _ _ => none
  | .transferIn _ _ header kind size =>
    match kind with
    | .ctlDescReq index descType langId =>
      match header.func.descriptor with
      | some (request, recipient) =>
        if request = 0x06 then
          some ⟨0, recipient, request, fromLeBytes index descType, langId, .inward size.toNat⟩
        else none
      | none => none
    | .ctlFeatReq featSelector index =>
      match header.func.feature with
      | some (request, recipient) =>
        if size = 0 then some ⟨0, recipient, request, featSelector, index, .outward []⟩ else none
      | none => none
    | .ctlGetStatus index =>
      header.func.status.map fun recipient =>
        ⟨0, recipient, 0x00, 0, index, .inward size.toNat⟩
    | .ctlGetConfig =>
      if header.func = .getConfiguration then some ⟨0, 0, 0x08, 0, 0, .inward size.toNat⟩
      else none
    | .ctlGetIface interface =>
      if header.func = .getInterface then some ⟨0, 1, 0x0a, 0, interface, .inward size.toNat⟩
      else none
    | .vendorClassReq transferFlags request value index =>
      match header.func.vendorClass with
      | some (reqType, recipient) =>
        if transferFlags &&& usbdTransferDirectionIn ≠ 0 then
          some ⟨reqType, recipient, request, value, index, .inward size.toNat⟩
        else none
      | none => none
    | .ctlTransferEx pipe transferFlags _ packet =>
      if header.func = .controlTransferEx then
        verbatim pipe transferFlags packet .inward size.toNat (.inward size.toNat)
      else none
  | .transferOut _ _ header kind data =>
    match kind with
    | .ctlDescReq index descType langId =>
      match header.func.descriptor with
      | some (request, recipient) =>
        if request = 0x07 then
          some ⟨0, recipient, request, fromLeBytes index descType, langId, .outward data⟩
        else none
      | none => none
    | .vendorClassReq transferFlags request value index =>
      match header.func.vendorClass with
      | some (reqType, recipient) =>
        if transferFlags &&& usbdTransferDirectionIn = 0 then
          some ⟨reqType, recipient, request, value, index, .outward data⟩
        else none
      | none => none
    | .ctlTransferEx pipe transferFlags _ packet =>
      if header.func = .controlTransferEx then
        verbatim pipe transferFlags packet .outward data.length (.outward data)
      else none
    | _ => none

/-! ## Valid requests -/

/-- The direction of a request. -/
def TransferReq.dir : TransferReq → Dir
  | .controlIn _ => .inward
  | .controlOut _ => .outward

/-- The number of bytes of a request's data stage. -/
def TransferReq.length : TransferReq → ℕ
  | .controlIn maxLen => maxLen.toNat
  | .controlOut data => data.length

/-- The data stage of a request. -/
def TransferReq.stage : TransferReq → Stage
  | .controlIn maxLen => .inward maxLen.toNat
  | .controlOut data => .outward data

/-- The packet agrees with the request in direction and length, and goes to a recipient that its
standard request can have. -/
structure Valid (s : Setup) (r : TransferReq) : Prop where
  dir : dirOf s.bmRequestType = r.dir
  length : s.wLength.toNat = r.length
  recipient : s.recipient ≤ 3
  feature : s.reqType = 0 → s.bRequest ∈ [0x00, 0x01, 0x03, 0x06, 0x07] → s.recipient ≤ 2
  configuration : s.reqType = 0 → s.bRequest = 0x08 → s.recipient = 0
  interface : s.reqType = 0 → s.bRequest = 0x0a → s.recipient = 1

/-- A standard request that has a typed URB has the direction, value, index and data that are
prescribed for it. -/
def Prescribed (s : Setup) (r : TransferReq) : Prop :=
  s.reqType = 0 →
    (s.bRequest = 0x00 → r.dir = .inward ∧ s.wValue = 0) ∧
    (s.bRequest = 0x01 ∨ s.bRequest = 0x03 → r = .controlOut []) ∧
    (s.bRequest = 0x06 → r.dir = .inward) ∧
    (s.bRequest = 0x07 → r.dir = .outward) ∧
    (s.bRequest = 0x08 → r.dir = .inward ∧ s.wValue = 0 ∧ s.wIndex = 0) ∧
    (s.bRequest = 0x0a → r.dir = .inward ∧ s.wValue = 0)

/-! ## The mapping keeps the request -/

/-- What the mapping of a packet comes to. -/
inductive Mapped (s : Setup) (flags : UInt32) : UrbFunction × UrbKind → Prop where
  | vendorClass (func : UrbFunction) (h : func.vendorClass = some (s.reqType, s.recipient))
    (hne : s.reqType ≠ 0) :
    Mapped s flags (func, .vendorClassReq flags s.bRequest s.wValue s.wIndex)
  | descriptor (func : UrbFunction) (h : func.descriptor = some (s.bRequest, s.recipient))
    (htype : s.reqType = 0) (hrequest : s.bRequest = 0x06 ∨ s.bRequest = 0x07) :
    Mapped s flags (func, .ctlDescReq s.wValueLo s.wValueHi s.wIndex)
  | feature (func : UrbFunction) (h : func.feature = some (s.bRequest, s.recipient))
    (htype : s.reqType = 0) (hrequest : s.bRequest = 0x01 ∨ s.bRequest = 0x03) :
    Mapped s flags (func, .ctlFeatReq s.wValue s.wIndex)
  | status (func : UrbFunction) (h : func.status = some s.recipient) (htype : s.reqType = 0)
    (hrequest : s.bRequest = 0x00) : Mapped s flags (func, .ctlGetStatus s.wIndex)
  | configuration (htype : s.reqType = 0) (hrequest : s.bRequest = 0x08)
    (hrecipient : s.recipient = 0) : Mapped s flags (.getConfiguration, .ctlGetConfig)
  | interface (htype : s.reqType = 0) (hrequest : s.bRequest = 0x0a)
    (hrecipient : s.recipient = 1) : Mapped s flags (.getInterface, .ctlGetIface s.wIndex)
  | verbatim (h : s.reqType = 0 → s.bRequest ∉ [0x00, 0x01, 0x03, 0x06, 0x07, 0x08, 0x0a]) :
    Mapped s flags (controlTransferEx s flags)

/-- A recipient is the device, an interface or an endpoint. -/
theorem recipient_cases {recipient : UInt8} (h : recipient ≤ 2) :
    recipient = 0 ∨ recipient = 1 ∨ recipient = 2 := by
  have hle : recipient.toNat ≤ 2 := UInt8.le_iff_toNat_le.mp h
  have hcases : recipient.toNat = 0 ∨ recipient.toNat = 1 ∨ recipient.toNat = 2 := by omega
  obtain h0 | h1 | h2 := hcases
  · exact .inl (UInt8.toNat_inj.mp h0)
  · exact .inr (.inl (UInt8.toNat_inj.mp h1))
  · exact .inr (.inr (UInt8.toNat_inj.mp h2))

/-- The function of a class or vendor request stands for its type and recipient. -/
theorem vendorClass_vendorClassFunction {reqType recipient : UInt8}
    (htype : reqType = 1 ∨ reqType = 2) (h : recipient ≤ 3) :
    (vendorClassFunction reqType recipient).vendorClass = some (reqType, recipient) := by
  have hrecipient : recipient ≤ 2 ∨ recipient = 3 := by
    have hle : recipient.toNat ≤ 3 := UInt8.le_iff_toNat_le.mp h
    by_cases hthree : recipient.toNat = 3
    · exact .inr (UInt8.toNat_inj.mp hthree)
    · refine .inl (UInt8.le_iff_toNat_le.mpr ?_)
      change recipient.toNat ≤ 2
      omega
  cases hrecipient with
  | inl hle =>
    obtain rfl | rfl | rfl := recipient_cases hle <;> obtain rfl | rfl := htype <;> rfl
  | inr hother =>
    rw [hother]
    obtain rfl | rfl := htype <;> rfl

/-- Every packet of a valid request is mapped. -/
theorem mapped {s : Setup} {r : TransferReq} (h : Valid s r) (flags : UInt32) :
    Mapped s flags (setupToTypedUrb s flags) := by
  unfold setupToTypedUrb
  dsimp only
  split
  · next htype =>
    refine .vendorClass _ (vendorClass_vendorClassFunction htype h.recipient) fun hzero => ?_
    rw [hzero] at htype
    exact absurd htype (by decide)
  split
  · next _ htype =>
    have hrecipient : ∀ b, s.bRequest = b → b ∈ [0x00, 0x01, 0x03, 0x06, 0x07] →
        s.recipient = 0 ∨ s.recipient = 1 ∨ s.recipient = 2 := fun b hb hmem =>
      recipient_cases (h.feature htype (by rw [hb]; exact hmem))
    split
    · next hb =>
      obtain hr | hr | hr := hrecipient _ hb (by decide) <;> rw [hr] <;>
        exact .descriptor _ (by rw [hb, hr]; rfl) htype (.inl hb)
    split
    · next hb =>
      obtain hr | hr | hr := hrecipient _ hb (by decide) <;> rw [hr] <;>
        exact .descriptor _ (by rw [hb, hr]; rfl) htype (.inr hb)
    split
    · next hb =>
      obtain hr | hr | hr := hrecipient _ hb (by decide) <;> rw [hr] <;>
        exact .feature _ (by rw [hb, hr]; rfl) htype (.inl hb)
    split
    · next hb =>
      obtain hr | hr | hr := hrecipient _ hb (by decide) <;> rw [hr] <;>
        exact .feature _ (by rw [hb, hr]; rfl) htype (.inr hb)
    split
    · next hb =>
      obtain hr | hr | hr := hrecipient _ hb (by decide) <;> rw [hr] <;>
        exact .status _ (by rw [hr]; rfl) htype hb
    split
    · next hb => exact .configuration htype hb (h.configuration htype hb)
    split
    · next hb => exact .interface htype hb (h.interface htype hb)
    · next h6 h7 h1 h3 h0 h8 ha =>
      refine .verbatim fun _ hmem => ?_
      simp only [List.mem_cons, List.not_mem_nil, or_false, h0, h1, h3, h6, h7, h8, ha] at hmem
  · next _ htype => exact .verbatim fun hzero => absurd hzero htype

/-- A request that is carried verbatim is the request of its packet. -/
theorem verbatim_eq {s : Setup} {r : TransferReq} (h : Valid s r) {flags : UInt32}
    (hflags : flags &&& usbdTransferDirectionIn ≠ 0 ↔ r.dir = .inward) :
    verbatim 0 flags ⟨s.bmRequestType, s.bRequest, s.wValue, s.wIndex, s.wLength⟩ r.dir r.length
      r.stage = some (s.meaning r.stage) := by
  unfold verbatim
  rw [if_pos ⟨rfl, h.dir, h.length, hflags⟩]
  rfl

/-- A packet whose request has no typed URB meets every prescription. -/
theorem prescribed_of_other {s : Setup} {r : TransferReq}
    (h : s.reqType = 0 → s.bRequest ∉ [0x00, 0x01, 0x03, 0x06, 0x07, 0x08, 0x0a]) :
    Prescribed s r := by
  intro htype
  have hmem := h htype
  simp only [List.mem_cons, List.not_mem_nil, or_false, not_or] at hmem
  obtain ⟨h0, h1, h3, h6, h7, h8, ha⟩ := hmem
  refine ⟨fun hb => absurd hb h0, fun hb => ?_, fun hb => absurd hb h6, fun hb => absurd hb h7,
    fun hb => absurd hb h8, fun hb => absurd hb ha⟩
  cases hb with
  | inl hb => exact absurd hb h1
  | inr hb => exact absurd hb h3

/-- The registration of a completion stands for no request. -/
theorem denote_messages (msgId iface completion : UInt32) (transfer : DvcMessage)
    (m : ControlRequest) :
    [.regReqCb msgId iface completion, transfer].filterMap denote = [m] ↔
      denote transfer = some m := by
  rw [List.filterMap_cons_none rfl]
  cases h : denote transfer with
  | none => simp [List.filterMap_cons_none h]
  | some n => simp [List.filterMap_cons_some h]

section

variable {s : Setup} (iface : UInt32) (id : RequestId)

/-- The messages of a request that is read from the device stand for the packet's request exactly
if it is as prescribed. -/
theorem denote_controlIn_iff (maxLen : UInt32) (h : Valid s (.controlIn maxLen)) :
    (controlTransferRequest iface id s .inward maxLen []).filterMap denote =
      [s.meaning (.inward maxLen.toNat)] ↔ Prescribed s (.controlIn maxLen) := by
  have hflags : usbdTransferDirectionIn &&& usbdTransferDirectionIn ≠ 0 ↔
      (TransferReq.controlIn maxLen).dir = .inward := iff_of_true (by decide) rfl
  have hmapped := mapped h usbdTransferDirectionIn
  have hverbatim := verbatim_eq h hflags
  unfold controlTransferRequest
  dsimp only
  rw [denote_messages]
  generalize setupToTypedUrb s usbdTransferDirectionIn = out at hmapped ⊢
  cases hmapped with
  | vendorClass func hfunc hne =>
    refine iff_of_true ?_ fun htype => absurd htype hne
    simp [UrbKind.forcesTransferIn, denote, hfunc, usbdTransferDirectionIn, Setup.meaning]
  | descriptor func hfunc htype hrequest =>
    obtain hb | hb := hrequest
    · simp [UrbKind.forcesTransferIn, denote, hfunc, Setup.meaning, Prescribed, htype, hb,
        TransferReq.dir, Setup.wValue]
    · simp [UrbKind.forcesTransferIn, denote, hfunc, Prescribed, htype, hb, TransferReq.dir]
  | feature func hfunc htype hrequest =>
    obtain hb | hb := hrequest <;>
    simp [UrbKind.forcesTransferIn, denote, hfunc, Setup.meaning, Prescribed, htype, hb]
  | status func hfunc htype hb =>
    simp [UrbKind.forcesTransferIn, denote, hfunc, Setup.meaning, Prescribed, htype, hb,
      TransferReq.dir, eq_comm]
  | configuration htype hb hrecipient | interface htype hb hrecipient =>
    simp [UrbKind.forcesTransferIn, denote, Setup.meaning, Prescribed, htype, hb, hrecipient,
      TransferReq.dir, eq_comm]
  | verbatim hother =>
    exact iff_of_true hverbatim (prescribed_of_other hother)

/-- The messages of a request that is written to the device stand for the packet's request with
all its data exactly if it is as prescribed. -/
theorem denote_controlOut_iff (data : List UInt8) (h : Valid s (.controlOut data)) :
    (controlTransferRequest iface id s .outward 0 data).filterMap denote =
      [s.meaning (.outward data)] ↔ Prescribed s (.controlOut data) := by
  have hflags : (0 : UInt32) &&& usbdTransferDirectionIn ≠ 0 ↔
      (TransferReq.controlOut data).dir = .inward := iff_of_false (by decide) nofun
  have hmapped := mapped h 0
  have hverbatim := verbatim_eq h hflags
  unfold controlTransferRequest
  dsimp only
  rw [denote_messages]
  generalize setupToTypedUrb s 0 = out at hmapped ⊢
  cases hmapped with
  | vendorClass func hfunc hne =>
    refine iff_of_true ?_ fun htype => absurd htype hne
    simp [UrbKind.forcesTransferIn, inKindToOutKind, denote, hfunc, Setup.meaning]
  | descriptor func hfunc htype hrequest =>
    obtain hb | hb := hrequest
    · simp [UrbKind.forcesTransferIn, inKindToOutKind, denote, hfunc, Prescribed, htype, hb,
        TransferReq.dir]
    · simp [UrbKind.forcesTransferIn, inKindToOutKind, denote, hfunc, Setup.meaning, Prescribed,
        htype, hb, TransferReq.dir, Setup.wValue]
  | feature func hfunc htype hrequest =>
    obtain hb | hb := hrequest <;>
    simp [UrbKind.forcesTransferIn, denote, hfunc, Setup.meaning, Prescribed, htype, hb, eq_comm]
  | status func hfunc htype hb =>
    simp [UrbKind.forcesTransferIn, inKindToOutKind, denote, hfunc, Setup.meaning, Prescribed,
      htype, hb, TransferReq.dir]
  | configuration htype hb hrecipient | interface htype hb hrecipient =>
    simp [UrbKind.forcesTransferIn, inKindToOutKind, denote, Setup.meaning, Prescribed, htype, hb,
      hrecipient, TransferReq.dir]
  | verbatim hother =>
    exact iff_of_true hverbatim (prescribed_of_other hother)

/-- The path of its own for a descriptor of the device builds the same messages. -/
theorem present_eq (r : TransferReq) : r.present iface id s = r.request iface id s := by
  cases r with
  | controlOut data => rfl
  | controlIn maxLen =>
    unfold TransferReq.present TransferReq.request
    dsimp only
    split
    · next h =>
      have htype : s.reqType = 0 := by
        rw [Setup.reqType, h.1]
        decide
      have hrecipient : s.recipient = 0 := by
        rw [Setup.recipient, h.1]
        decide
      have htyped : setupToTypedUrb s usbdTransferDirectionIn =
          (.getDescriptorFromDevice, .ctlDescReq s.wValueLo s.wValueHi s.wIndex) := by
        unfold setupToTypedUrb
        dsimp only
        rw [if_neg (by rw [htype]; decide), if_pos htype, if_pos h.2, hrecipient]
        rfl
      unfold getDescriptorRequest controlTransferRequest
      dsimp only
      rw [htyped]
      rfl
    · rfl

end

/-- The messages that a presented device sends for a packet, which are those of the control request
itself, stand for exactly its request and data stage, if and only if a standard request that has a
typed URB is as prescribed. -/
theorem present_denotes_iff (iface : UInt32) (id : RequestId) (s : Setup) (r : TransferReq)
    (h : Valid s r) :
    r.present iface id s = r.request iface id s ∧
      ((r.present iface id s).filterMap denote = [s.meaning r.stage] ↔ Prescribed s r) := by
  refine ⟨present_eq iface id r, ?_⟩
  rw [present_eq]
  cases r with
  | controlIn maxLen => exact denote_controlIn_iff iface id maxLen h
  | controlOut data => exact denote_controlOut_iff iface id data h

/-- A class request to an interface, with three bytes of data. -/
theorem present_denotes_iff_class :
    ((TransferReq.controlOut [1, 2, 3]).present 4 ⟨7, by decide⟩
      ⟨0x21, 0x09, 0x00, 0x02, 0x01, 0x00, 0x03, 0x00⟩).filterMap denote =
      [⟨1, 1, 0x09, 0x0200, 0x0001, .outward [1, 2, 3]⟩] :=
  (present_denotes_iff 4 ⟨7, by decide⟩ ⟨0x21, 0x09, 0x00, 0x02, 0x01, 0x00, 0x03, 0x00⟩
    (.controlOut [1, 2, 3])
    ⟨by decide, by decide, by decide, by decide, by decide, by decide⟩).2.mpr
    fun h => absurd h (by decide)

/-- A status request with a value loses it: its URB has no field for one. -/
theorem not_denotes_status :
    ¬ ∀ (iface : UInt32) (id : RequestId) (s : Setup) (r : TransferReq), Valid s r →
      (r.present iface id s).filterMap denote = [s.meaning r.stage] := by
  intro h
  have hstatus := h 4 ⟨7, by decide⟩ ⟨0x80, 0x00, 0x01, 0x00, 0x00, 0x00, 0x02, 0x00⟩
    (.controlIn 2) ⟨by decide, by decide, by decide, by decide, by decide, by decide⟩
  revert hstatus
  decide

end Macrdp.UsbControl
