import Macrdp.ByteCodec
import Macrdp.ByteProcess

/-!
# The loopback protocol of the smart-card reader

The reader driver and the bridge talk over a loopback connection: the driver writes a request
and reads its reply, the session of the bridge reads requests in a loop, performs each on the
client's card and writes the reply. Both sides are processes over bytes; the bytes of requests
and replies, which both have by heart, are stated once and compared with what each side does.
-/

namespace Macrdp.SmartcardProtocol

open ByteCodec ByteProcess ByteProcess.Proc

/-- Opcode of a power-up. -/
def cmdPowerOn : UInt8 := 1

/-- Opcode of a power-down. -/
def cmdPowerOff : UInt8 := 2

/-- Opcode of a command for the card. -/
def cmdTransmit : UInt8 := 3

/-- Opcode of a presence poll. -/
def cmdPresence : UInt8 := 4

/-- The longest command that the bridge takes. -/
def maxApduLen : ℕ := 65544

/-- An operation of the bridge. -/
inductive Request where
  | presence
  | powerOn
  | powerOff
  | transmit (apdu : List UInt8) (recvLen : UInt32)
  deriving DecidableEq

/-- What the operations of the bridge come to, `none` for a failure. That of a power-down is
never looked at. -/
structure Outcome where
  presence : Option Bool
  powerOn : Option (List UInt8)
  transmit : Option (List UInt8)
  deriving DecidableEq

/-- What the driver makes of a reply. -/
inductive Answer where
  /-- The one byte of a reply. -/
  | status (byte : UInt8)
  /-- The body that follows a zero status. -/
  | body (bytes : Option (List UInt8))
  deriving DecidableEq

section Bytes

variable {ο ρ α : Type}

/-- Read a byte. -/
def readU8 (next : UInt8 → Proc UInt8 ο ρ α) : Proc UInt8 ο ρ α :=
  .read 1 fun bytes => next (bytes.headD 0)

/-- Read a length of four bytes. -/
def readU32 (next : ℕ → Proc UInt8 ο ρ α) : Proc UInt8 ο ρ α :=
  .read 4 fun bytes => next (ofBigEndian bytes)

/-- A byte is read from itself. -/
theorem reads_readU8 (next : UInt8 → Proc UInt8 ο ρ α) {byte : UInt8} {rest : List UInt8}
    {q : Proc UInt8 ο ρ α} (h : Reads (next byte) rest q) : Reads (readU8 next) (byte :: rest) q := by
  have hread : Reads (readU8 next) ([byte] ++ rest) q := .read rfl h
  exact hread

/-- A length is read from its big-endian bytes. -/
theorem reads_readU32 (next : ℕ → Proc UInt8 ο ρ α) {n : ℕ} {rest : List UInt8}
    {q : Proc UInt8 ο ρ α} (hn : n < 2 ^ 32) (h : Reads (next n) rest q) :
    Reads (readU32 next) (bigEndian 4 n ++ rest) q := by
  refine Reads.read (length_bigEndian 4 n) ?_
  have hvalue : ofBigEndian (bigEndian 4 n) = n := by
    rw [ofBigEndian_bigEndian]
    exact Nat.mod_eq_of_lt hn
  rw [hvalue]
  exact h

end Bytes

/-- The bytes of a request. -/
def Request.bytes : Request → List UInt8
  | .presence => [cmdPresence]
  | .powerOn => [cmdPowerOn]
  | .powerOff => [cmdPowerOff]
  | .transmit apdu recvLen =>
    cmdTransmit :: (bigEndian 4 apdu.length ++ (apdu ++ bigEndian 4 recvLen.toNat))

/-- The length byte of an answer to reset; one that does not fit is none. -/
def atrLen (atr : List UInt8) : UInt8 := if atr.length < 256 then UInt8.ofNat atr.length else 0

/-- The length field of a response; one that does not fit is the largest. -/
def respLen (resp : List UInt8) : ℕ := if resp.length < 2 ^ 32 then resp.length else 2 ^ 32 - 1

/-- The byte of a presence poll. -/
def presentByte (o : Outcome) : UInt8 := if o.presence.getD false then 1 else 0

/-- The bytes of the reply to a request, by what its operation came to. -/
def replyBytes : Request → Outcome → List UInt8
  | .presence, o => [presentByte o]
  | .powerOn, o =>
    match o.powerOn with
    | some atr => 0 :: atrLen atr :: atr.take (atrLen atr).toNat
    | none => [1]
  | .powerOff, _ => [0]
  | .transmit _ _, o =>
    match o.transmit with
    | some resp => 0 :: (bigEndian 4 (respLen resp) ++ resp.take (respLen resp))
    | none => [1]

/-- What the reply to a request says, by what its operation came to. -/
def answerOf : Request → Outcome → Answer
  | .presence, o => .status (presentByte o)
  | .powerOn, o => .body (o.powerOn.map fun atr => atr.take (atrLen atr).toNat)
  | .powerOff, _ => .status 0
  | .transmit _ _, o => .body (o.transmit.map fun resp => resp.take (respLen resp))

/-- What the session of the bridge writes after the operation of a request. -/
def writeReply : Request → Outcome → Proc UInt8 Request Outcome Bool
  | .presence, o => .write [presentByte o] (.done true)
  | .powerOn, o =>
    match o.powerOn with
    | some atr =>
      .write [0] (.write [atrLen atr] (.write (atr.take (atrLen atr).toNat) (.done true)))
    | none => .write [1] (.done true)
  | .powerOff, _ => .write [0] (.done true)
  | .transmit _ _, o =>
    match o.transmit with
    | some resp =>
      .write [0]
        (.write (bigEndian 4 (respLen resp)) (.write (resp.take (respLen resp)) (.done true)))
    | none => .write [1] (.done true)

/-- Perform a request and write its reply. -/
def respond (r : Request) : Proc UInt8 Request Outcome Bool := .perform r (writeReply r)

/-- One round of the session of the bridge; the result tells whether another follows. -/
def serve : Proc UInt8 Request Outcome Bool :=
  readU8 fun cmd =>
    if cmd = cmdPresence then respond .presence
    else if cmd = cmdPowerOn then respond .powerOn
    else if cmd = cmdTransmit then
      readU32 fun sendLen =>
        -- The bound is checked before the buffer is allocated; beyond it the session ends.
        if maxApduLen < sendLen then .done false
        else .read sendLen fun apdu =>
          readU32 fun recvLen => respond (.transmit apdu (UInt32.ofNat recvLen))
    else if cmd = cmdPowerOff then respond .powerOff
    else .done false

/-- Read the status; only a zero one is followed by a body. -/
def readStatus (body : Proc UInt8 Empty Empty Answer) : Proc UInt8 Empty Empty Answer :=
  readU8 fun status => if status ≠ 0 then .done (.body none) else body

/-- What the driver reads after it wrote a request. -/
def readReply : Request → Proc UInt8 Empty Empty Answer
  | .presence => readU8 fun byte => .done (.status byte)
  | .powerOff => readU8 fun byte => .done (.status byte)
  | .powerOn =>
    readStatus (readU8 fun len => .read len.toNat fun atr => .done (.body (some atr)))
  | .transmit _ _ =>
    readStatus (readU32 fun len => .read len fun resp => .done (.body (some resp)))

/-- One exchange of the driver. -/
def exchange (r : Request) : Proc UInt8 Empty Empty Answer := .write r.bytes (readReply r)

/-- A request that the bridge takes. -/
def Request.Fits : Request → Prop
  | .transmit apdu _ => apdu.length ≤ maxApduLen
  | _ => True

instance (r : Request) : Decidable r.Fits := by
  cases r <;> unfold Request.Fits <;> infer_instance

/-- The session parses from the bytes of a request that request, with its arguments. -/
theorem serve_reads {r : Request} (h : r.Fits) : Reads serve r.bytes (respond r) := by
  cases r with
  | presence => exact reads_readU8 _ (.refl (respond .presence))
  | powerOn => exact reads_readU8 _ (.refl (respond .powerOn))
  | powerOff => exact reads_readU8 _ (.refl (respond .powerOff))
  | transmit apdu recvLen =>
    have hlen : apdu.length ≤ maxApduLen := h
    have hrecv : UInt32.ofNat recvLen.toNat = recvLen := UInt32.ofNat_toNat
    have hend : Reads (readU32 fun n => respond (.transmit apdu (UInt32.ofNat n)))
        (bigEndian 4 recvLen.toNat ++ []) (respond (.transmit apdu recvLen)) := by
      refine reads_readU32 _ recvLen.toNat_lt ?_
      rw [hrecv]
      exact .refl _
    rw [List.append_nil] at hend
    have hbody : Reads (readU32 fun sendLen => if maxApduLen < sendLen then .done false
          else .read sendLen fun apdu => readU32 fun recvLen =>
            respond (.transmit apdu (UInt32.ofNat recvLen)))
        (bigEndian 4 apdu.length ++ (apdu ++ bigEndian 4 recvLen.toNat))
        (respond (.transmit apdu recvLen)) := by
      refine reads_readU32 _ (Nat.lt_of_le_of_lt hlen (by decide)) ?_
      rw [if_neg (Nat.not_lt.mpr hlen)]
      exact Reads.read rfl hend
    exact reads_readU8 _ hbody

/-- The session writes the bytes of the reply. -/
theorem writeReply_writes (r : Request) (o : Outcome) :
    Writes (writeReply r o) (replyBytes r o) (.done true) := by
  cases r with
  | presence | powerOff => exact .last _ _
  | powerOn =>
    dsimp only [writeReply, replyBytes]
    cases o.powerOn with
    | none => exact .last _ _
    | some atr => exact .one (.one (.last _ _))
  | transmit apdu recvLen =>
    dsimp only [writeReply, replyBytes]
    cases o.transmit with
    | none => exact .last _ _
    | some resp => exact .one (.write (.last _ _))

/-- The length byte counts the bytes that follow it. -/
theorem length_take_atrLen (atr : List UInt8) :
    (atr.take (atrLen atr).toNat).length = (atrLen atr).toNat := by
  rw [List.length_take]
  refine Nat.min_eq_left ?_
  unfold atrLen
  split
  · rw [UInt8.toNat_ofNat']
    exact Nat.mod_le ..
  · exact Nat.zero_le _

/-- The length field counts the bytes that follow it. -/
theorem length_take_respLen (resp : List UInt8) :
    (resp.take (respLen resp)).length = respLen resp := by
  rw [List.length_take]
  refine Nat.min_eq_left ?_
  unfold respLen
  split <;> omega

/-- The length field fits its four bytes. -/
theorem respLen_lt (resp : List UInt8) : respLen resp < 2 ^ 32 := by
  unfold respLen
  split <;> omega

/-- After a zero status comes the body. -/
theorem reads_readStatus {body : Proc UInt8 Empty Empty Answer} {bytes : List UInt8}
    {q : Proc UInt8 Empty Empty Answer} (h : Reads body bytes q) :
    Reads (readStatus body) (0 :: bytes) q :=
  reads_readU8 _ h

/-- After another status comes nothing. -/
theorem reads_readStatus_one (body : Proc UInt8 Empty Empty Answer) :
    Reads (readStatus body) [1] (.done (.body none)) := by
  refine reads_readU8 _ ?_
  rw [if_pos (by decide)]
  exact .refl _

/-- The driver reads from the bytes of a reply what it says. -/
theorem readReply_reads (r : Request) (o : Outcome) :
    Reads (readReply r) (replyBytes r o) (.done (answerOf r o)) := by
  cases r with
  | presence | powerOff => exact reads_readU8 (fun byte => .done (Answer.status byte)) (.refl _)
  | powerOn =>
    dsimp only [replyBytes, answerOf]
    cases o.powerOn with
    | none => exact reads_readStatus_one _
    | some atr => exact reads_readStatus (reads_readU8 _ (.last (length_take_atrLen atr)))
  | transmit apdu recvLen =>
    dsimp only [replyBytes, answerOf]
    cases o.transmit with
    | none => exact reads_readStatus_one _
    | some resp =>
      exact reads_readStatus
        (reads_readU32 _ (respLen_lt resp) (.last (length_take_respLen resp)))

end Macrdp.SmartcardProtocol
