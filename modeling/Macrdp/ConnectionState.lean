import Macrdp.SoftSync

/-!
# What connections leave to each other

Connections are served one after another by one server, whose fields are reset in four
places: where a connection starts, in the branch without an offer, in the branch with
one, and after a connection has ended. A connection that won a preemption skips the
branches.
-/

namespace Macrdp.ConnectionState

open EmtTunnel SoftSync

/-- The fields and shared cells that belong to one connection. -/
inductive Field where
  | egfxOnUdp
  | egfxOnUdpHandle
  | egfxOnLossyHandle
  | demigrateRequest
  | lossyAudioFormat
  | lossyAudioBlockNo
  | lossyAudioStreaming
  | multitransportMigration
  | udpTunnelBound
  | tunnelInboundRx
  | displaySuppressed
  | autoReconnectSent
  deriving DecidableEq

/-- The settings of the server. -/
structure ServerConfig where
  settings : Settings
  /-- UDP multitransport is offered. -/
  multitransport : Bool
  /-- The registry of cookies is there. -/
  multitransportCookies : Bool
  /-- There is a cookie for automatic reconnection. -/
  autoReconnectCookie : Bool

/-- An offer for a connection. -/
structure Offer where
  requestId : UInt32
  cookie : Cookie
  deriving DecidableEq

/-- Where the served connection is; `first` until its client loop has run. -/
inductive Phase where
  | idle
  /-- A sequence of the acceptor, and the replay of its backlog. -/
  | connecting (first : Bool)
  /-- The client was accepted. -/
  | accepted (first : Bool)
  | looping
  deriving DecidableEq

/-- The server and the connection it serves. -/
structure System where
  routing : State
  /-- The number of the receiver for what the tunnel brings in. -/
  tunnelInboundRx : Option ℕ
  displaySuppressed : Bool
  autoReconnectSent : Bool
  phase : Phase
  /-- The offer that was handed to the acceptor. -/
  offer : Option Offer
  /-- The fields a step of the served connection has stored into. -/
  own : Field → Bool

/-- What a client sends that changes a field. -/
inductive ClientPdu where
  /-- Without a rectangle, output is suppressed. -/
  | suppressOutput (suppress : Bool)
  | refreshRectangle
  | ioResponse (requestId : UInt32) (success : Bool)
  | messageResponse (requestId : UInt32) (success : Bool)
  deriving DecidableEq

/-- A step of the server. -/
inductive Action where
  /-- A fresh connection; offers are withheld in a cooldown and from slow links. -/
  | runConnection (withheld : Bool) (offer : Offer) (inboundRx : ℕ)
  /-- A connection that won a preemption. -/
  | serveNegotiated
  /-- From the backlog, or in the client loop. -/
  | pdu (pdu : ClientPdu)
  /-- The client is accepted; the acceptor sent the offer, or it did not. -/
  | clientAccepted (offered : Bool)
  | autoReconnect
  | clientLoop
  /-- Something else happens in the client loop. -/
  | routing (a : SoftSync.Action)
  /-- The listener raises or lowers the flag. -/
  | tunnelBound (value : Bool)
  /-- The client loop ends for a reactivation. -/
  | deactivate
  /-- The connection ends, wherever it is. -/
  | disconnect

namespace System

/-- The server before its first connection. -/
def init (cfg : ServerConfig) : System where
  routing := { State.init cfg.settings none none none with attached := false }
  tunnelInboundRx := none
  displaySuppressed := false
  autoReconnectSent := false
  phase := .idle
  offer := none
  own := fun _ => false

/-- Mark a field as stored into. -/
def mark (s : System) (f : Field) : System := { s with own := Function.update s.own f true }

/-- The routing fields that differ. -/
def changed (old new : Server) : Field → Bool
  | .egfxOnUdp => decide (old.egfxOnUdp ≠ new.egfxOnUdp)
  | .egfxOnUdpHandle => decide (old.egfxOnUdpHandle ≠ new.egfxOnUdpHandle)
  | .egfxOnLossyHandle => decide (old.egfxOnLossyHandle ≠ new.egfxOnLossyHandle)
  | .demigrateRequest => decide (old.demigrateRequest ≠ new.demigrateRequest)
  | .lossyAudioFormat => decide (old.lossyAudioFormat ≠ new.lossyAudioFormat)
  | .lossyAudioBlockNo => decide (old.lossyAudioBlockNo ≠ new.lossyAudioBlockNo)
  | .lossyAudioStreaming => decide (old.lossyAudioStreaming ≠ new.lossyAudioStreaming)
  | .multitransportMigration => decide (old.migration ≠ new.migration)
  | _ => false

/-- The routing steps of the connection store into what they change. -/
def setRouting (s : System) (routing : State) : System :=
  { s with
    routing
    own := fun f => s.own f || changed s.routing.server routing.server f }

/-- A connection starts: its channels are attached, and nothing is stored yet. -/
def start (s : System) (channels : DrdynvcServer) : System :=
  { s with
    routing :=
      { s.routing with
        drdynvc := channels, attached := false, pending := none, requested := [], sent := [] }
    autoReconnectSent := false
    phase := .connecting true
    offer := none
    own := fun _ => false }

/-- No offer is made: what the last connection left of its own is dropped. -/
def withholdOffer (s : System) : System :=
  { s with
    routing := { s.routing with server := { s.routing.server with
      migration := none, udpTunnelBound := none } }
    tunnelInboundRx := none }

/-- An offer is made, its cookie registered. -/
def makeOffer (cfg : ServerConfig) (s : System) (offer : Offer) (inboundRx : ℕ) : System :=
  if cfg.multitransportCookies then
    ({ s with
      routing := { s.routing with server := { s.routing.server with
        udpTunnelBound := some false } }
      tunnelInboundRx := some inboundRx
      offer := some offer }.mark .udpTunnelBound).mark .tunnelInboundRx
  else { s with offer := some offer }

/-- All channels, requested by none. -/
def attachChannels (cfg : ServerConfig) : DrdynvcServer :=
  cfg.settings.channels.map fun c => ⟨c.1, c.2, .pending⟩

/-- The channels of a candidate: it has none for audio. -/
def candidateChannels (cfg : ServerConfig) : DrdynvcServer :=
  (attachChannels cfg).filter fun c =>
    decide (c.channelName ≠ audioPlaybackLossyDvc ∧ c.channelName ≠ "AUDIO_PLAYBACK_DVC")

/-- A fresh connection. -/
def runConnection (cfg : ServerConfig) (s : System) (withheld : Bool) (offer : Offer)
    (inboundRx : ℕ) : System :=
  if cfg.multitransport then
    if withheld then (s.start (attachChannels cfg)).withholdOffer
    else (s.start (attachChannels cfg)).makeOffer cfg offer inboundRx
  else s.start (attachChannels cfg)

/-- What the client sends is handled. -/
def handlePdu (cfg : ServerConfig) (s : System) : ClientPdu → Option System
  | .suppressOutput suppress =>
    some ({ s with displaySuppressed := suppress }.mark .displaySuppressed)
  | .refreshRectangle => some ({ s with displaySuppressed := false }.mark .displaySuppressed)
  | .ioResponse requestId success =>
    (s.routing.step cfg.settings (.handleMultitransportResponse requestId success)).map s.setRouting
  | .messageResponse requestId success =>
    (s.routing.step cfg.settings (.maybeHandleMultitransportResponse requestId success)).map
      s.setRouting

/-- The offer the acceptor sent is recorded, on the first activation. -/
def recordOffer (s : System) : System :=
  match s.offer with
  | none => s
  | some offer =>
    { s with routing := { s.routing with server := { s.routing.server with
      migration := some ⟨offer.requestId, offer.cookie, false⟩ } } }.mark .multitransportMigration

/-- The connection has ended. -/
def reset (s : System) : System :=
  { s with
    routing := { s.routing with
      attached := false
      pending := none
      server := { s.routing.server with
        egfxOnUdp := false
        lossyAudioBlockNo := 0
        lossyAudioStreaming := false
        egfxOnLossyHandle := false
        egfxOnUdpHandle := false
        demigrateRequest := false
        udpTunnelBound := s.routing.server.udpTunnelBound.map fun _ => false } }
    phase := .idle }

/-- One step of the server. -/
def step (cfg : ServerConfig) (s : System) : Action → Option System
  | .runConnection withheld offer inboundRx =>
    if s.phase = .idle then some (s.runConnection cfg withheld offer inboundRx) else none
  | .serveNegotiated =>
    if s.phase = .idle then some (s.start (candidateChannels cfg)) else none
  | .pdu pdu =>
    match s.phase with
    | .connecting _ => s.handlePdu cfg pdu
    | .looping => s.handlePdu cfg pdu
    | _ => none
  | .clientAccepted offered =>
    match s.phase with
    | .connecting first =>
      if offered ∧ s.offer = none then none
      else some { if first && offered then s.recordOffer else s with phase := .accepted first }
    | _ => none
  | .autoReconnect =>
    match s.phase with
    | .accepted _ =>
      if s.autoReconnectSent = false ∧ cfg.autoReconnectCookie then
        some ({ s with autoReconnectSent := true }.mark .autoReconnectSent)
      else none
    | _ => none
  | .clientLoop =>
    match s.phase with
    | .accepted _ =>
      some { s with
        routing := { s.routing with attached := true }
        tunnelInboundRx := none
        phase := .looping }
    | _ => none
  | .routing a =>
    if s.phase = .looping ∧ a ≠ .deactivate ∧ a ≠ .reactivated then
      (s.routing.step cfg.settings a).map s.setRouting
    else none
  | .tunnelBound value =>
    (s.routing.step cfg.settings (.tunnelBound value)).map fun routing => { s with routing }
  | .deactivate =>
    if s.phase = .looping then
      (s.routing.step cfg.settings .deactivate).map fun routing =>
        { s with routing, phase := .connecting false }
    else none
  | .disconnect => if s.phase = .idle then none else some s.reset

/-- A field has its initial value. -/
def isInitial (s : System) : Field → Bool
  | .egfxOnUdp => !s.routing.server.egfxOnUdp
  | .egfxOnUdpHandle => !s.routing.server.egfxOnUdpHandle
  | .egfxOnLossyHandle => !s.routing.server.egfxOnLossyHandle
  | .demigrateRequest => !s.routing.server.demigrateRequest
  | .lossyAudioFormat => s.routing.server.lossyAudioFormat.isNone
  | .lossyAudioBlockNo => decide (s.routing.server.lossyAudioBlockNo = 0)
  | .lossyAudioStreaming => !s.routing.server.lossyAudioStreaming
  | .multitransportMigration => s.routing.server.migration.isNone
  | .udpTunnelBound => s.routing.server.udpTunnelBound.isNone
  | .tunnelInboundRx => s.tunnelInboundRx.isNone
  | .displaySuppressed => !s.displaySuppressed
  | .autoReconnectSent => !s.autoReconnectSent

end System

/-- In a client loop every field is as it was initially, or was stored by the connection. -/
def Clean (s : System) : Prop :=
  s.phase = .looping → ∀ f, s.isInitial f = true ∨ s.own f = true

/-- What the resets skip was not left over: output is not suppressed and no audio format
negotiated when a connection starts, nothing of an offer when it is a candidate's, and
no offer is on record when a client was not sent one. -/
def NothingLeft (s : System) : Action → Prop
  | .runConnection _ _ _ =>
    s.displaySuppressed = false ∧ s.routing.server.lossyAudioFormat = none
  | .serveNegotiated =>
    s.displaySuppressed = false ∧ s.routing.server.lossyAudioFormat = none ∧
      s.routing.server.migration = none ∧ s.routing.server.udpTunnelBound = none ∧
      s.tunnelInboundRx = none
  | .clientAccepted offered =>
    s.phase = .connecting true → offered = false → s.routing.server.migration = none
  | _ => True

instance (s : System) : ∀ a, Decidable (NothingLeft s a)
  | .runConnection _ _ _ => inferInstanceAs (Decidable (_ ∧ _))
  | .serveNegotiated => inferInstanceAs (Decidable (_ ∧ _ ∧ _ ∧ _ ∧ _))
  | .clientAccepted _ => inferInstanceAs (Decidable (_ → _ → _))
  | .pdu _ => .isTrue trivial
  | .autoReconnect => .isTrue trivial
  | .clientLoop => .isTrue trivial
  | .routing _ => .isTrue trivial
  | .tunnelBound _ => .isTrue trivial
  | .deactivate => .isTrue trivial
  | .disconnect => .isTrue trivial

end Macrdp.ConnectionState
