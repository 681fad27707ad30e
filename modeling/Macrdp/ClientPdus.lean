import Macrdp.StepSystem

/-!
# The PDUs of a client

What a client sends is read by the acceptor until it is accepted, and by the client loop
from then on. The acceptor takes over again when the display is resized; what it kept
aside is replayed before the client loop starts, while the server has no channels.
-/

namespace Macrdp.ClientPdus

variable {κ δ ρ : Type*}

/-- What a client sends on the I/O channel. -/
inductive IoPdu where
  | confirmActive
  | fontList
  | shutdownRequest
  /-- Another share control PDU: finalization, input, and what is about output. -/
  | shareControl
  /-- Not a share control PDU. -/
  | multitransportResponse
  | invalid
  deriving DecidableEq

/-- A share control PDU can be decoded. -/
def IoPdu.isShareControl : IoPdu → Bool
  | .multitransportResponse => false
  | .invalid => false
  | _ => true

/-- A PDU of a client. -/
inductive ClientPdu (δ : Type*) where
  | fastPath (valid : Bool)
  | io (pdu : IoPdu)
  /-- Data on another channel: a static one, or the message channel. -/
  | sendData (channelId : UInt16) (data : δ)
  | disconnectProviderUltimatum (userRequested : Bool)
  /-- Another MCS message. -/
  | otherMcs
  | invalid
  deriving DecidableEq

/-- How far the finalization of an activation is. -/
inductive FinalizationState where
  | waitSynchronize
  | waitControlCooperate
  | waitRequestControl
  | waitFontList
  | sendSynchronizeConfirm
  | sendControlCooperateConfirm
  | sendGrantedControlConfirm
  | sendFontMap
  | finished
  deriving DecidableEq

/-- The finalization of an activation. -/
structure FinalizationSequence (δ : Type*) where
  state : FinalizationState
  /-- What came instead of the font list. -/
  inputEvents : List (ClientPdu δ)
  deriving DecidableEq

/-- How far the acceptor is with an activation. -/
inductive AcceptorState (δ : Type*) where
  | capabilitiesSendServer
  | monitorLayoutSend
  | capabilitiesWaitConfirm
  | connectionFinalization (finalization : FinalizationSequence δ)
  | accepted (inputEvents : List (ClientPdu δ))
  deriving DecidableEq

/-- Which PDUs a state waits for. -/
inductive PduHint where
  | x224
  | rdp
  deriving DecidableEq

/-- What the client loop does about PDUs. -/
inductive Handling (δ ρ : Type*) where
  | reading
  /-- A PDU was read; the lock of the server is waited for. -/
  | inHand (pdu : ClientPdu δ)
  /-- The response to static channel data is written. -/
  | responding (response : ρ)
  deriving DecidableEq

/-- Where the connection is. -/
inductive Stage (δ ρ : Type*) where
  | acceptor (state : AcceptorState δ)
  /-- The client is accepted; what the acceptor kept is replayed. -/
  | clientAccepted (inputEvents : List (ClientPdu δ))
  | looping (handling : Handling δ ρ)
  | ended
  deriving DecidableEq

def Stage.isEnded : Stage δ ρ → Bool
  | .ended => true
  | _ => false

/-- The static channels of a connection, and what the client supports. -/
structure Config (κ δ ρ : Type*) where
  staticIds : List UInt16
  /-- The client supports the monitor layout PDU. -/
  monitorLayout : Bool
  /-- A PDU that is not waited for is skipped when it is read; it is an error otherwise. -/
  skipsUnmatched : Bool
  /-- Start the channels; `none` is an error. -/
  start : κ → Option κ
  /-- Process data of a channel; `none` is an error. -/
  process : κ → UInt16 → δ → Option (κ × ρ)

/-- The static channel data of a PDU. -/
def ClientPdu.staticData (cfg : Config κ δ ρ) : ClientPdu δ → List (UInt16 × δ)
  | .sendData channelId data =>
    if channelId ∈ cfg.staticIds then [(channelId, data)] else []
  | _ => []

/-- One connection. -/
structure Connection (κ δ ρ : Type*) where
  stage : Stage δ ρ
  reactivation : Bool
  /-- The states of the static channels. -/
  channels : κ
  /-- The static channel data that was received. -/
  received : List (UInt16 × δ)
  /-- The static channel data that was given to its channel. -/
  processed : List (UInt16 × δ)
  /-- What the channels returned. -/
  responses : List ρ
  /-- What was written of that. -/
  written : List ρ
  deriving DecidableEq

/-- A step of the connection. -/
inductive Action (κ δ : Type*) where
  /-- The acceptor sends a PDU. -/
  | send
  /-- The next PDU is read. -/
  | pdu (pdu : ClientPdu δ)
  /-- The client is accepted. -/
  | getResult
  /-- A PDU that the acceptor kept is replayed. -/
  | replay
  | clientLoop
  /-- The PDU in hand is dispatched, under the lock of the server. -/
  | dispatch
  /-- The response is written, or that failed. -/
  | written (ok : Bool)
  /-- Something else changes the channels under the lock. -/
  | event (channels : κ)
  /-- The display is resized: the client loop ends for a reactivation. -/
  | resize
  /-- The connection ends by another task or an error. -/
  | finish
  deriving DecidableEq

namespace FinalizationSequence

def init : FinalizationSequence δ := ⟨.waitSynchronize, []⟩

/-- Which PDUs the finalization waits for, if it does. -/
def nextPduHint (f : FinalizationSequence δ) : Option PduHint :=
  match f.state with
  | .waitSynchronize => some .x224
  | .waitControlCooperate => some .x224
  | .waitRequestControl => some .x224
  | .waitFontList => some .rdp
  | _ => none

/-- A PDU the finalization waited for; `none` is an error. -/
def stepInput (f : FinalizationSequence δ) (pdu : ClientPdu δ) : Option (FinalizationSequence δ) :=
  match f.state, pdu with
  -- Data that is not on the I/O channel is skipped in every state.
  | _, .sendData _ _ => some f
  | .waitSynchronize, _ => some { f with state := .waitControlCooperate }
  | .waitControlCooperate, _ => some { f with state := .waitRequestControl }
  | .waitRequestControl, .io p =>
    if p.isShareControl then some { f with state := .waitFontList } else none
  | .waitRequestControl, _ => none
  | .waitFontList, .io .fontList => some { f with state := .sendSynchronizeConfirm }
  | .waitFontList, pdu => some { f with inputEvents := f.inputEvents ++ [pdu] }
  | _, _ => none

/-- Send what is next. -/
def stepSend (f : FinalizationSequence δ) : Option (FinalizationSequence δ) :=
  match f.state with
  | .sendSynchronizeConfirm => some { f with state := .sendControlCooperateConfirm }
  | .sendControlCooperateConfirm => some { f with state := .sendGrantedControlConfirm }
  | .sendGrantedControlConfirm => some { f with state := .sendFontMap }
  | .sendFontMap => some { f with state := .finished }
  | _ => none

end FinalizationSequence

namespace AcceptorState

/-- The finalization is over, or goes on. -/
def ofFinalization (f : FinalizationSequence δ) : AcceptorState δ :=
  if f.state = .finished then .accepted f.inputEvents else .connectionFinalization f

/-- Which PDUs the acceptor waits for, if it does. -/
def nextPduHint : AcceptorState δ → Option PduHint
  | .capabilitiesWaitConfirm => some .x224
  | .connectionFinalization f => f.nextPduHint
  | _ => none

/-- A PDU while the capabilities are waited for. -/
def confirm (reactivation : Bool) : ClientPdu δ → Option (AcceptorState δ)
  | .invalid => if reactivation then some .capabilitiesWaitConfirm else none
  | .sendData _ _ => some .capabilitiesWaitConfirm
  | .io .confirmActive => some (.connectionFinalization .init)
  | .io p => if !p.isShareControl && reactivation then some .capabilitiesWaitConfirm else none
  | .disconnectProviderUltimatum _ => none
  | .otherMcs => some .capabilitiesWaitConfirm
  | .fastPath _ => none

/-- A PDU the acceptor waited for; `none` is an error. -/
def stepInput (reactivation : Bool) (pdu : ClientPdu δ) :
    AcceptorState δ → Option (AcceptorState δ)
  | .capabilitiesWaitConfirm => confirm reactivation pdu
  | .connectionFinalization f => (f.stepInput pdu).map ofFinalization
  | _ => none

/-- Send what is next. -/
def stepSend (monitorLayout : Bool) : AcceptorState δ → Option (AcceptorState δ)
  | .capabilitiesSendServer =>
    some (if monitorLayout then .monitorLayoutSend else .capabilitiesWaitConfirm)
  | .monitorLayoutSend => some .capabilitiesWaitConfirm
  | .connectionFinalization f => f.stepSend.map ofFinalization
  | _ => none

end AcceptorState

namespace Connection

variable (cfg : Config κ δ ρ) (s : Connection κ δ ρ)

/-- The connection once its channels are there and the first Demand Active is due. -/
def init (channels : κ) : Connection κ δ ρ where
  stage := .acceptor .capabilitiesSendServer
  reactivation := false
  channels
  received := []
  processed := []
  responses := []
  written := []

/-- The connection is elsewhere. -/
def goto (s : Connection κ δ ρ) (stage : Stage δ ρ) : Connection κ δ ρ := { s with stage }

/-- Note static channel data that was received. -/
def receive (s : Connection κ δ ρ) (pdu : ClientPdu δ) : Connection κ δ ρ :=
  { s with received := s.received ++ pdu.staticData cfg }

/-- What is said on the I/O channel: whether the client disconnects; `none` is an error. -/
def handleIoChannelData : IoPdu → Option Bool
  | .shutdownRequest => some true
  | .invalid => none
  | _ => some false

/-- Handle an X.224 PDU while the server has no channels: what becomes of it is ignored. -/
def replay (s : Connection κ δ ρ) (rest : List (ClientPdu δ)) : ClientPdu δ → Connection κ δ ρ
  | .fastPath valid => s.goto (if valid then .clientAccepted rest else .ended)
  | _ => s.goto (.clientAccepted rest)

/-- Dispatch a PDU in the client loop. -/
def dispatchPdu (s : Connection κ δ ρ) : ClientPdu δ → Connection κ δ ρ
  | .fastPath valid => s.goto (if valid then .looping .reading else .ended)
  | .io p => s.goto (if handleIoChannelData p = some false then .looping .reading else .ended)
  | .sendData channelId data =>
    if channelId ∈ cfg.staticIds then
      match cfg.process s.channels channelId data with
      | none => { s with stage := .ended, processed := s.processed ++ [(channelId, data)] }
      | some (channels, response) =>
        { s with
          stage := .looping (.responding response)
          channels
          processed := s.processed ++ [(channelId, data)]
          responses := s.responses ++ [response] }
    else s.goto (.looping .reading)
  | .disconnectProviderUltimatum userRequested =>
    s.goto (if userRequested then .ended else .looping .reading)
  | .otherMcs => s.goto (.looping .reading)
  | .invalid => s.goto .ended

/-- The acceptor is in its next state, or has failed. -/
def accept (s : Connection κ δ ρ) : Option (AcceptorState δ) → Connection κ δ ρ
  | none => s.goto .ended
  | some state => s.goto (.acceptor state)

/-- The acceptor reads a PDU, if it waits for one. -/
def acceptorPdu (s : Connection κ δ ρ) (state : AcceptorState δ) (pdu : ClientPdu δ) :
    Option (Connection κ δ ρ) :=
  match state.nextPduHint, pdu with
  | none, _ => none
  | some .x224, .fastPath _ => some (if cfg.skipsUnmatched then s else s.goto .ended)
  | some _, pdu => some ((s.receive cfg pdu).accept (state.stepInput s.reactivation pdu))

/-- The channels are moved to the server, and started the first time. -/
def clientLoop (s : Connection κ δ ρ) : Connection κ δ ρ :=
  if s.reactivation then s.goto (.looping .reading)
  else
    match cfg.start s.channels with
    | none => s.goto .ended
    | some channels => { s with channels, stage := .looping .reading }

/-- One step of the connection. -/
def step (s : Connection κ δ ρ) : Action κ δ → Option (Connection κ δ ρ)
  | .send =>
    match s.stage with
    | .acceptor state =>
      (state.stepSend cfg.monitorLayout).map fun state => s.goto (.acceptor state)
    | _ => none
  | .pdu pdu =>
    match s.stage with
    | .acceptor state => s.acceptorPdu cfg state pdu
    | .looping .reading => some ((s.receive cfg pdu).goto (.looping (.inHand pdu)))
    | _ => none
  | .getResult =>
    match s.stage with
    | .acceptor (.accepted inputEvents) => some (s.goto (.clientAccepted inputEvents))
    | _ => none
  | .replay =>
    match s.stage with
    | .clientAccepted (pdu :: rest) => some (s.replay rest pdu)
    | _ => none
  | .clientLoop =>
    match s.stage with
    | .clientAccepted [] => some (s.clientLoop cfg)
    | _ => none
  | .dispatch =>
    match s.stage with
    | .looping (.inHand pdu) => some (s.dispatchPdu cfg pdu)
    | _ => none
  | .written ok =>
    match s.stage with
    | .looping (.responding response) =>
      some (if ok then
        { s with stage := .looping .reading, written := s.written ++ [response] }
      else s.goto .ended)
    | _ => none
  | .event channels =>
    match s.stage with
    | .looping .reading => some { s with channels }
    | .looping (.inHand _) => some { s with channels }
    | _ => none
  | .resize =>
    match s.stage with
    | .looping _ => some { s with stage := .acceptor .capabilitiesSendServer, reactivation := true }
    | _ => none
  | .finish => if s.stage.isEnded then none else some (s.goto .ended)

/-- The connection is in a client loop. -/
def isLooping : Bool :=
  match s.stage with
  | .looping _ => true
  | _ => false

/-- The static channel data that was read and is not yet given to its channel. -/
def inHand : List (UInt16 × δ) :=
  match s.stage with
  | .looping (.inHand pdu) => pdu.staticData cfg
  | _ => []

/-- The response that is being written. -/
def responding : List ρ :=
  match s.stage with
  | .looping (.responding response) => [response]
  | _ => []

/-- The steps there are, each with the stage it is taken in. -/
inductive StepCase (s : Connection κ δ ρ) : Action κ δ → Connection κ δ ρ → Prop
  | send (state next : AcceptorState δ) (hstage : s.stage = .acceptor state)
    (hnext : state.stepSend cfg.monitorLayout = some next) :
    StepCase s .send (s.goto (.acceptor next))
  /-- A PDU the acceptor waits for. -/
  | acceptor (state : AcceptorState δ) (pdu : ClientPdu δ) (s' : Connection κ δ ρ)
    (hstage : s.stage = .acceptor state) (h : s.acceptorPdu cfg state pdu = some s') :
    StepCase s (.pdu pdu) s'
  /-- A PDU the client loop reads. -/
  | read (pdu : ClientPdu δ) (hstage : s.stage = .looping .reading) :
    StepCase s (.pdu pdu) ((s.receive cfg pdu).goto (.looping (.inHand pdu)))
  | getResult (inputEvents : List (ClientPdu δ))
    (hstage : s.stage = .acceptor (.accepted inputEvents)) :
    StepCase s .getResult (s.goto (.clientAccepted inputEvents))
  | replay (pdu : ClientPdu δ) (rest : List (ClientPdu δ))
    (hstage : s.stage = .clientAccepted (pdu :: rest)) : StepCase s .replay (s.replay rest pdu)
  | clientLoop (hstage : s.stage = .clientAccepted []) : StepCase s .clientLoop (s.clientLoop cfg)
  | dispatch (pdu : ClientPdu δ) (hstage : s.stage = .looping (.inHand pdu)) :
    StepCase s .dispatch (s.dispatchPdu cfg pdu)
  | written (response : ρ) (hstage : s.stage = .looping (.responding response)) :
    StepCase s (.written true)
      { s with stage := .looping .reading, written := s.written ++ [response] }
  | failed (response : ρ) (hstage : s.stage = .looping (.responding response)) :
    StepCase s (.written false) (s.goto .ended)
  | event (channels : κ)
    (hstage : s.stage = .looping .reading ∨ ∃ pdu, s.stage = .looping (.inHand pdu)) :
    StepCase s (.event channels) { s with channels }
  | resize (handling : Handling δ ρ) (hstage : s.stage = .looping handling) :
    StepCase s .resize { s with stage := .acceptor .capabilitiesSendServer, reactivation := true }
  | finish (halive : s.stage.isEnded = false) : StepCase s .finish (s.goto .ended)

variable {cfg s} in
/-- Every step is one of these. -/
theorem step_cases {s' : Connection κ δ ρ} {a : Action κ δ} (h : s.step cfg a = some s') :
    StepCase cfg s a s' := by
  cases a with simp only [step] at h
  | send =>
    split at h
    · next state hstage =>
      obtain ⟨next, hnext, rfl⟩ := Option.map_eq_some_iff.mp h
      exact .send state next hstage hnext
    · cases h
  | pdu pdu =>
    split at h
    · next state hstage => exact .acceptor state pdu s' hstage h
    · next hstage =>
      cases h
      exact .read pdu hstage
    · cases h
  | getResult =>
    split at h
    · next inputEvents hstage =>
      cases h
      exact .getResult inputEvents hstage
    · cases h
  | replay =>
    split at h
    · next pdu rest hstage =>
      cases h
      exact .replay pdu rest hstage
    · cases h
  | clientLoop =>
    split at h
    · next hstage =>
      cases h
      exact .clientLoop hstage
    · cases h
  | dispatch =>
    split at h
    · next pdu hstage =>
      cases h
      exact .dispatch pdu hstage
    · cases h
  | written ok =>
    split at h
    · next response hstage =>
      cases h
      cases ok with
      | true => exact .written response hstage
      | false => exact .failed response hstage
    · cases h
  | event channels =>
    split at h
    · next hstage =>
      cases h
      exact .event channels (.inl hstage)
    · next pdu hstage =>
      cases h
      exact .event channels (.inr ⟨pdu, hstage⟩)
    · cases h
  | resize =>
    split at h
    · next handling hstage =>
      cases h
      exact .resize handling hstage
    · cases h
  | finish =>
    obtain ⟨halive, heq⟩ := Option.ite_none_left_eq_some.mp h
    cases heq
    exact .finish (by simpa using halive)

end Connection

end Macrdp.ClientPdus
