import Macrdp.SmartcardProtocol
import Macrdp.StepSystem

/-!
# The reader driver and the bridge over one connection

The driver's entry points run one at a time, under its lock. A call that needs the card dials
when there is no connection, writes its request and reads its reply; an error drops the
connection and the cached answer to reset. The session of the bridge runs on the other end. The
bytes under way in either direction arrive in pieces of any size. A session whose connection is
dropped shares no byte with a later one and is not followed further.
-/

namespace Macrdp.SmartcardReader

open ByteProcess SmartcardProtocol

/-- Result code of a call that did what it was asked. -/
def ifdSuccess : ℕ := 0

/-- An unknown capability, or no room for its value. -/
def ifdErrorTag : ℕ := 600

/-- The card could not be powered up. -/
def ifdErrorPowerAction : ℕ := 608

def ifdCommunicationError : ℕ := 612

def ifdNotSupported : ℕ := 614

def ifdIccPresent : ℕ := 615

def ifdIccNotPresent : ℕ := 616

/-- Action of a power-up. -/
def ifdPowerUp : UInt32 := 500

/-- Action of a power-down. -/
def ifdPowerDown : UInt32 := 501

/-- Action of a reset. -/
def ifdReset : UInt32 := 502

def tagIfdAtr : UInt32 := 0x0303

def tagIfdSlotThreadSafe : UInt32 := 0x0FAC

def tagIfdThreadSafe : UInt32 := 0x0FAD

def tagIfdSlotsNumber : UInt32 := 0x0FAE

def tagIfdSimultaneousAccess : UInt32 := 0x0FAF

/-- The longest answer to reset that a caller's buffer holds. -/
def maxAtr : ℕ := 33

/-- A call of an entry point. A Boolean tells whether a pointer is there, an option holds what
it points at. -/
inductive Call where
  | createChannel
  | closeChannel
  | getCapabilities (tag : UInt32) (length : Option UInt32) (value : Bool)
  | setCapabilities
  | setProtocolParameters
  | powerIcc (action : UInt32) (atr atrLength : Bool)
  | transmitToIcc (tx : Option (List UInt8)) (rxBuffer : Bool) (rxLength : Option UInt32)
  | control (bytesReturned : Bool)
  | iccPresence
  deriving DecidableEq

/-- What a call gives back: its code, and the bytes and length it stores for its caller. -/
structure Returned where
  code : ℕ
  out : Option (List UInt8)
  deriving DecidableEq

namespace Call

/-- The request that a call makes of the bridge. -/
def request : Call → Option Request
  | .closeChannel => some .powerOff
  | .powerIcc action _ _ =>
    if action = ifdPowerUp ∨ action = ifdReset then some .powerOn
    else if action = ifdPowerDown then some .powerOff
    else none
  | .transmitToIcc tx _ rxLength => rxLength.map fun cap => .transmit (tx.getD []) cap
  | .iccPresence => some .presence
  | _ => none

/-- Opening and closing a channel drop the connection. -/
def resets : Call → Bool
  | .createChannel => true
  | .closeChannel => true
  | _ => false

/-- Store a value of a capability for the caller. -/
def writeBytes (bytes : List UInt8) (length : UInt32) (value : Bool) : Returned :=
  if value ∧ bytes.length ≤ length.toNat then ⟨ifdSuccess, some bytes⟩ else ⟨ifdErrorTag, none⟩

/-- The capabilities that are fixed, and the cached answer to reset. -/
def capability (atr : List UInt8) (tag length : UInt32) (value : Bool) : Returned :=
  if tag = tagIfdSlotsNumber ∨ tag = tagIfdSimultaneousAccess then writeBytes [1] length value
  else if tag = tagIfdThreadSafe ∨ tag = tagIfdSlotThreadSafe then writeBytes [0] length value
  else if tag = tagIfdAtr then writeBytes atr length value
  else ⟨ifdErrorTag, none⟩

/-- A length that is reported as zero, where there is room for it. -/
def zeroed (pointer : Bool) : Option (List UInt8) := if pointer then some [] else none

/-- End a power-up. The answer to reset is cached before the caller's pointers are looked at. -/
def finishPowerUp (atr atrLength : Bool) : Option Answer → Returned × List UInt8
  | some (.body (some bytes)) =>
    if bytes ≠ [] ∧ bytes.length ≤ maxAtr then
      if atr ∧ atrLength then (⟨ifdSuccess, some bytes⟩, bytes)
      else (⟨ifdCommunicationError, none⟩, bytes)
    else (⟨ifdErrorPowerAction, zeroed atrLength⟩, [])
  | _ => (⟨ifdErrorPowerAction, zeroed atrLength⟩, [])

/-- End a command; a response that does not fit the caller's buffer was read all the same. -/
def finishTransmit (rxBuffer : Bool) (rxLength : Option UInt32) : Option Answer → Returned
  | some (.body (some resp)) =>
    match rxLength with
    | some cap =>
      if rxBuffer ∧ resp.length ≤ cap.toNat then ⟨ifdSuccess, some resp⟩
      else ⟨ifdCommunicationError, none⟩
    | none => ⟨ifdCommunicationError, none⟩
  | _ => ⟨ifdCommunicationError, none⟩

/-- What a call returns and the answer to reset that it leaves cached, by what the driver made
of the reply; `none` when there was no exchange or an error ended it. -/
def finish (c : Call) (answer : Option Answer) (cached : List UInt8) : Returned × List UInt8 :=
  match c with
  | .createChannel => (⟨ifdSuccess, none⟩, [])
  | .closeChannel => (⟨ifdSuccess, none⟩, [])
  | .getCapabilities _ none _ => (⟨ifdCommunicationError, none⟩, cached)
  | .getCapabilities tag (some length) value => (capability cached tag length value, cached)
  | .setCapabilities => (⟨ifdSuccess, none⟩, cached)
  | .setProtocolParameters => (⟨ifdSuccess, none⟩, cached)
  | .powerIcc action atr atrLength =>
    if action = ifdPowerUp ∨ action = ifdReset then finishPowerUp atr atrLength answer
    else if action = ifdPowerDown then (⟨ifdSuccess, zeroed atrLength⟩, [])
    else (⟨ifdNotSupported, none⟩, cached)
  | .transmitToIcc _ rxBuffer rxLength => (finishTransmit rxBuffer rxLength answer, cached)
  | .control bytesReturned => (⟨ifdNotSupported, zeroed bytesReturned⟩, cached)
  | .iccPresence =>
    (⟨if answer = some (.status 1) then ifdIccPresent else ifdIccNotPresent, none⟩, cached)

/-- A call whose command the bridge takes. -/
def Fits (c : Call) : Prop := ∀ r ∈ c.request, r.Fits

instance (c : Call) : Decidable c.Fits := inferInstanceAs (Decidable (∀ r ∈ c.request, r.Fits))

end Call

/-- A connection: the bytes under way in each direction, and the session at its far end. -/
structure Link where
  number : ℕ
  /-- Written by the driver and not yet read. -/
  up : List UInt8
  /-- Written by the session and not yet read. -/
  down : List UInt8
  /-- The session; between two rounds it is done with one. -/
  bridge : Endpoint UInt8 Request Outcome Bool
  /-- The session is gone. -/
  ended : Bool

namespace Link

/-- A connection that was just made. -/
def dial (number : ℕ) : Link := ⟨number, [], [], .start (.done true), false⟩

/-- The session begins a round when it has finished one. -/
def resume (l : Link) : Endpoint UInt8 Request Outcome Bool :=
  if l.bridge.proc.result = some true then .start serve else l.bridge

end Link

/-- A call that awaits its reply. -/
structure Running where
  call : Call
  request : Request
  /-- The number of its connection. -/
  conn : ℕ
  driver : Endpoint UInt8 Empty Empty Answer
  /-- What it has read. -/
  consumed : List UInt8
  /-- What the session has performed since it began. -/
  served : List (Request × Outcome)

/-- A call that has returned. -/
structure Entry where
  call : Call
  /-- The connection it used. -/
  conn : Option ℕ
  consumed : List UInt8
  served : List (Request × Outcome)
  /-- What the driver made of the reply, if it was read in full. -/
  answer : Option Answer
  returned : Returned
  deriving DecidableEq

/-- The driver and the bridge. -/
structure State where
  link : Option Link
  /-- Connections made so far. -/
  dials : ℕ
  /-- The cached answer to reset. -/
  atr : List UInt8
  running : Option Running
  /-- Requests that the session performed while no call was running. -/
  strays : List Request
  log : List Entry

/-- A step of the system. -/
inductive Action where
  /-- An entry point is called; `reachable` tells whether the bridge listens. -/
  | call (c : Call) (reachable : Bool)
  | driverWrite (k : ℕ)
  | driverRead (k : ℕ)
  | bridgeRead (k : ℕ)
  | bridgeWrite (k : ℕ)
  /-- The operation that the session asked for comes to an outcome. -/
  | perform (o : Outcome)
  /-- The call whose reply was read returns. -/
  | finish
  /-- A read or write of the driver fails or times out. -/
  | fail
  /-- The session goes away. -/
  | endSession
  deriving DecidableEq

/-- The moves that the driver and the session make by themselves while a call is running. -/
def Action.Moves : Action → Prop
  | .call _ _ => False
  | .fail => False
  | .endSession => False
  | _ => True

namespace State

/-- Nothing was called yet. -/
def new : State := ⟨none, 0, [], none, [], []⟩

/-- Dial when there is no connection. -/
def connect (reachable : Bool) (s : State) : State :=
  match s.link with
  | some _ => s
  | none => if reachable then { s with link := some (.dial s.dials), dials := s.dials + 1 } else s

/-- Drop the connection. -/
def reset (s : State) : State := { s with link := none, atr := [] }

/-- A call returns. -/
def conclude (c : Call) (conn : Option ℕ) (consumed : List UInt8)
    (served : List (Request × Outcome)) (answer : Option Answer) (s : State) : State :=
  let (returned, atr) := c.finish answer s.atr
  { s with
    link := if c.resets then none else s.link
    atr := atr
    running := none
    log := s.log ++ [⟨c, conn, consumed, served, answer, returned⟩] }

/-- Begin a call: without a request it returns at once, and without a connection it fails. -/
def begin (c : Call) (reachable : Bool) (s : State) : State :=
  match c.request with
  | none => s.conclude c none [] [] none
  | some r =>
    match (s.connect reachable).link with
    | none => s.conclude c none [] [] none
    | some l =>
      { s.connect reachable with running := some ⟨c, r, l.number, .start (exchange r), [], []⟩ }

/-- The session performed a request. -/
def record (r : Request) (o : Outcome) (s : State) : State :=
  match s.running with
  | some call => { s with running := some { call with served := call.served ++ [(r, o)] } }
  | none => { s with strays := s.strays ++ [r] }

/-- A step; one that cannot be taken is refused. -/
def step (s : State) : Action → Option State
  | .call c reachable => if s.running.isSome then none else some (s.begin c reachable)
  | .driverWrite k =>
    match s.running, s.link with
    | some call, some l =>
      (call.driver.send k l.up).map fun (driver, up) =>
        { s with link := some { l with up := up }, running := some { call with driver := driver } }
    | _, _ => none
  | .driverRead k =>
    match s.running, s.link with
    | some call, some l =>
      (call.driver.receive k l.down).map fun (driver, down) =>
        { s with
          link := some { l with down := down }
          running := some
            { call with driver := driver, consumed := call.consumed ++ l.down.take k } }
    | _, _ => none
  | .bridgeRead k =>
    match s.link with
    | some l =>
      if l.ended then none
      else (l.resume.receive k l.up).map fun (bridge, up) =>
        { s with link := some { l with bridge := bridge, up := up } }
    | none => none
  | .bridgeWrite k =>
    match s.link with
    | some l =>
      if l.ended then none
      else (l.bridge.send k l.down).map fun (bridge, down) =>
        { s with link := some { l with bridge := bridge, down := down } }
    | none => none
  | .perform o =>
    match s.link with
    | some l =>
      if l.ended then none
      else (l.bridge.answer o).map fun (r, bridge) =>
        { s with link := some { l with bridge := bridge } }.record r o
    | none => none
  | .finish =>
    match s.running with
    | some call =>
      call.driver.proc.result.map fun answer =>
        s.conclude call.call (some call.conn) call.consumed call.served (some answer)
    | none => none
  | .fail =>
    s.running.map fun call =>
      s.reset.conclude call.call (some call.conn) call.consumed call.served none
  | .endSession =>
    s.link.bind fun l =>
      if l.ended then none else some { s with link := some { l with ended := true } }

end State

end Macrdp.SmartcardReader
