import Macrdp.EmtTunnel
import Macrdp.StepSystem

/-!
# Moving channels onto the tunnel

A Soft-Sync request names the dynamic channels that move onto the UDP tunnel. It is
sent once the tunnel is bound and graphics are shipping, and what moved is routed to
the tunnel from then on. Every event is handled under the lock of the server, up to
its last write; a reactivation may come between any two of its writes.
-/

namespace Macrdp.SoftSync

open EmtTunnel

/-- The name of the graphics channel. -/
def egfxDvcChannelName : String := "Microsoft::Windows::RDS::Graphics"

/-- The name of the channel for audio over the lossy tunnel. -/
def audioPlaybackLossyDvc : String := "AUDIO_PLAYBACK_LOSSY_DVC"

/-- How far the creation of a dynamic channel is. -/
inductive ChannelState where
  | pending
  /-- Requested; the client has not responded. -/
  | creation
  | opened
  | creationFailed (status : UInt32)
  deriving DecidableEq

/-- A dynamic channel. -/
structure DynamicChannel where
  channelId : UInt32
  channelName : String
  state : ChannelState
  deriving DecidableEq

/-- The dynamic channels of a connection, in the order of their numbers. -/
abbrev DrdynvcServer := List DynamicChannel

/-- What a client says about its dynamic channels. -/
inductive DrdynvcClientPdu where
  | capabilities
  | create (channelId creationStatus : UInt32)
  | close (channelId : UInt32)
  deriving DecidableEq

namespace DrdynvcServer

/-- The channel of a name. -/
def getChannelIdByName (d : DrdynvcServer) (name : String) : Option UInt32 :=
  (d.find? fun c => decide (c.channelName = name)).map (·.channelId)

/-- The channels the client has opened. -/
def openedChannels (d : DrdynvcServer) : List UInt32 :=
  (d.filter fun c => decide (c.state = .opened)).map (·.channelId)

/-- Move a channel. -/
def setState (d : DrdynvcServer) (channelId : UInt32) (state : ChannelState) : DrdynvcServer :=
  d.map fun c => if c.channelId = channelId then { c with state } else c

/-- Process what the client says; `none` is an error, which ends the session. -/
def process (d : DrdynvcServer) : DrdynvcClientPdu → Option DrdynvcServer
  | .capabilities =>
    some (d.map fun c => if c.state = .pending then { c with state := .creation } else c)
  | .create channelId creationStatus =>
    (d.find? fun c => decide (c.channelId = channelId)).bind fun c =>
      if c.state ≠ .creation then none
      else if creationStatus ≠ 0 then some (d.setState channelId (.creationFailed creationStatus))
      else some (d.setState channelId .opened)
  | .close channelId => some (d.filter fun c => decide (c.channelId ≠ channelId))

end DrdynvcServer

/-- The tunnel a request switches to. -/
inductive TunnelType where
  | udpfecr
  | udpfecl
  deriving DecidableEq

/-- The offer the client was sent. -/
structure MigrationState where
  requestId : UInt32
  cookie : Cookie
  /-- The one-time guard of the Soft-Sync request. -/
  softSyncSent : Bool
  deriving DecidableEq

/-- The switches of the migration, and the channels that are registered. -/
structure Settings where
  migrateEgfx : Bool
  migrateEgfxLossy : Bool
  /-- The audio channels are registered. -/
  lossyAudioFormats : Bool
  /-- There is a way to hand data to the listener. -/
  tunnelSender : Bool
  channels : List (UInt32 × String)
  ids_nodup : (channels.map Prod.fst).Nodup
  names_nodup : (channels.map Prod.snd).Nodup

/-- What the server keeps about the migration. -/
structure Server where
  migration : Option MigrationState
  /-- The tunnel-bound flag, if a cookie was registered. -/
  udpTunnelBound : Option Bool
  egfxOnUdp : Bool
  egfxOnUdpHandle : Bool
  egfxOnLossyHandle : Bool
  demigrateRequest : Bool
  /-- The format index the reliable audio channel negotiated. -/
  lossyAudioFormat : Option UInt16
  lossyAudioBlockNo : UInt8
  lossyAudioStreaming : Bool
  deriving DecidableEq

/-- Why data was dropped. -/
inductive Reason where
  | noTunnelSender
  | noMigrationCookie
  deriving DecidableEq

/-- What was done with data, in the order it was done. -/
inductive Output where
  /-- A Soft-Sync request; with the channels that were open when it was written. -/
  | softSync (tunnel : TunnelType) (channelIds opened : List UInt32)
  | tcp (channelId : UInt32)
  | udp (channelId : UInt32)
  | discarded (channelId : UInt32) (reason : Reason)
  /-- Graphics went back to TCP. -/
  | demigrated
  deriving DecidableEq

/-- The write the lock of the server is held for. -/
inductive Pending where
  /-- Graphics, on TCP. -/
  | frame (channelId : UInt32)
  | request (tunnel : TunnelType) (channelIds : List UInt32)
  deriving DecidableEq

/-- One connection. -/
structure State where
  server : Server
  drdynvc : DrdynvcServer
  /-- The static channels are in place: no reactivation is going on. -/
  attached : Bool
  pending : Option Pending
  /-- The channels a request was made for. -/
  requested : List UInt32
  sent : List Output
  deriving DecidableEq

/-- A step of the connection. -/
inductive Action where
  /-- Graphics are to be sent. -/
  | egfx (channelId : UInt32)
  /-- An audio wave is to be sent. -/
  | wave
  /-- The listener raises or lowers the flag. -/
  | tunnelBound (value : Bool)
  /-- A response on the I/O channel. -/
  | handleMultitransportResponse (requestId : UInt32) (success : Bool)
  /-- A response on the message channel. -/
  | maybeHandleMultitransportResponse (requestId : UInt32) (success : Bool)
  | dvc (pdu : DrdynvcClientPdu)
  /-- The client confirms the training of the reliable audio channel. -/
  | trainingConfirm (formatNo : UInt16)
  | demigrateRequest
  /-- The write the lock is held for is done. -/
  | written
  /-- The client loop ends for a reactivation. -/
  | deactivate
  | reactivated
  deriving DecidableEq

namespace State

/-- A connection finds the server with graphics on TCP. -/
def init (cfg : Settings) (migration : Option MigrationState) (udpTunnelBound : Option Bool)
    (lossyAudioFormat : Option UInt16) : State where
  server :=
    { migration
      udpTunnelBound
      egfxOnUdp := false
      egfxOnUdpHandle := false
      egfxOnLossyHandle := false
      demigrateRequest := false
      lossyAudioFormat
      lossyAudioBlockNo := 0
      lossyAudioStreaming := false }
  drdynvc := cfg.channels.map fun c => ⟨c.1, c.2, .pending⟩
  attached := true
  pending := none
  requested := []
  sent := []

def log (s : State) (out : Output) : State := { s with sent := s.sent ++ [out] }

/-- The tunnel is bound. -/
def isBound (s : State) : Bool := s.server.udpTunnelBound.getD false

/-- Hand the data of a channel to the listener. -/
def routeDvcOverUdp (cfg : Settings) (s : State) (channelId : UInt32) : State :=
  if cfg.tunnelSender then
    match s.server.migration with
    | some _ => s.log (.udp channelId)
    | none => s.log (.discarded channelId .noMigrationCookie)
  else s.log (.discarded channelId .noTunnelSender)

/-- Set the one-time guard. -/
def softSyncSent (s : State) : State :=
  { s with server := { s.server with
    migration := s.server.migration.map fun m => { m with softSyncSent := true } } }

/-- The guard is not set yet. -/
def canSoftSync (s : State) : Bool := s.server.migration.any fun m => !m.softSyncSent

/-- Start to write a request, if there is a static channel for it. -/
def sendSoftSyncRequest (s : State) (tunnel : TunnelType) (channelIds : List UInt32) : State :=
  if s.attached then
    { s with pending := some (.request tunnel channelIds), requested := channelIds ++ s.requested }
  else s

/-- Graphics move onto the tunnel. -/
def egfxOnto (s : State) (tunnel : TunnelType) : State :=
  { s with server := { s.server with
    egfxOnUdp := true
    egfxOnUdpHandle := true
    egfxOnLossyHandle := decide (tunnel = .udpfecl) || s.server.egfxOnLossyHandle } }

/-- Graphics were written: send the request once, if the tunnel is bound. -/
def maybeSoftSyncOnEgfx (cfg : Settings) (s : State) : State :=
  if s.isBound then
    if cfg.lossyAudioFormats then
      match s.drdynvc.getChannelIdByName audioPlaybackLossyDvc with
      | none => s
      | some audioId =>
        if s.canSoftSync then s.softSyncSent.sendSoftSyncRequest .udpfecl [audioId] else s
    else if s.canSoftSync then
      let tunnel := if cfg.migrateEgfxLossy then .udpfecl else .udpfecr
      if cfg.migrateEgfx then
        match s.drdynvc.getChannelIdByName egfxDvcChannelName with
        | some gfxId => (s.softSyncSent.egfxOnto tunnel).sendSoftSyncRequest tunnel [gfxId]
        | none => s.softSyncSent.sendSoftSyncRequest tunnel []
      else s.softSyncSent.sendSoftSyncRequest tunnel []
    else s
  else s

/-- Graphics go back to TCP. -/
def demigrate (s : State) : State :=
  { s with server := { s.server with egfxOnUdp := false, egfxOnUdpHandle := false } }

/-- Graphics are to be sent. -/
def dispatchEgfx (cfg : Settings) (s : State) (channelId : UInt32) : State :=
  if s.server.egfxOnUdp then
    if s.server.demigrateRequest then
      { s.demigrate.log .demigrated with pending := some (.frame channelId) }
    else s.routeDvcOverUdp cfg channelId
  else { s with pending := some (.frame channelId) }

/-- Where an audio wave goes instead of the static channel. -/
def lossyAudioTarget (cfg : Settings) (s : State) : Option (UInt16 × UInt32) :=
  if cfg.lossyAudioFormats ∧ cfg.tunnelSender ∧ s.server.migration.isSome ∧ s.isBound then
    s.server.lossyAudioFormat.bind fun formatNo =>
      (s.drdynvc.getChannelIdByName audioPlaybackLossyDvc).map fun lossyId => (formatNo, lossyId)
  else none

/-- Send an audio wave on its channel. -/
def routeLossyAudioWave (cfg : Settings) (s : State) (lossyId : UInt32) : State :=
  { s with server := { s.server with
    lossyAudioBlockNo := s.server.lossyAudioBlockNo + 1
    lossyAudioStreaming := true } }.routeDvcOverUdp cfg lossyId

/-- An audio wave is to be sent. -/
def dispatchWave (cfg : Settings) (s : State) : State :=
  match s.lossyAudioTarget cfg with
  | some (_, lossyId) => s.routeLossyAudioWave cfg lossyId
  | none => s

/-- The response carries the number of the request in flight. -/
def inFlight (s : State) (requestId : UInt32) : Bool :=
  s.server.migration.any fun m => decide (m.requestId = requestId)

/-- Forget the offer. -/
def forgetMigration (s : State) : State := { s with server := { s.server with migration := none } }

/-- A response on the I/O channel. -/
def handleMultitransportResponse (s : State) (requestId : UInt32) : State :=
  if s.inFlight requestId then s.forgetMigration else s

/-- A response on the message channel. -/
def maybeHandleMultitransportResponse (s : State) (requestId : UInt32) (success : Bool) : State :=
  if s.inFlight requestId then
    if success then
      if s.canSoftSync then s.softSyncSent.sendSoftSyncRequest .udpfecr [] else s
    else s.forgetMigration
  else s

/-- The write the lock is held for is done. -/
def written (cfg : Settings) (s : State) : Option State :=
  match s.pending with
  | none => none
  | some (.frame channelId) =>
    some (({ s with pending := none }.log (.tcp channelId)).maybeSoftSyncOnEgfx cfg)
  | some (.request tunnel channelIds) =>
    some ({ s with pending := none }.log
      (.softSync tunnel channelIds s.drdynvc.openedChannels))

/-- An event can be handled in a client loop. -/
def ready (s : State) : Bool := s.attached && decide (s.pending = none)

/-- One step of the connection. -/
def step (cfg : Settings) (s : State) : Action → Option State
  | .egfx channelId =>
    if s.ready ∧ (channelId, egfxDvcChannelName) ∈ cfg.channels then
      some (s.dispatchEgfx cfg channelId)
    else none
  | .wave => if s.ready then some (s.dispatchWave cfg) else none
  | .tunnelBound value =>
    some { s with server := { s.server with
      udpTunnelBound := s.server.udpTunnelBound.map fun _ => value } }
  | .handleMultitransportResponse requestId _ =>
    if s.pending = none then some (s.handleMultitransportResponse requestId) else none
  | .maybeHandleMultitransportResponse requestId success =>
    if s.pending = none then some (s.maybeHandleMultitransportResponse requestId success) else none
  | .dvc pdu =>
    if s.ready then (s.drdynvc.process pdu).map fun d => { s with drdynvc := d } else none
  | .trainingConfirm formatNo =>
    if s.ready then some { s with server := { s.server with lossyAudioFormat := some formatNo } }
    else none
  | .demigrateRequest => some { s with server := { s.server with demigrateRequest := true } }
  | .written => s.written cfg
  | .deactivate => if s.attached then some { s with attached := false, pending := none } else none
  | .reactivated => if s.attached then none else some { s with attached := true }

end State

/-- The number of requests that were written. -/
def softSyncs (sent : List Output) : ℕ :=
  sent.countP fun out => match out with
    | .softSync _ _ _ => true
    | _ => false

/-- The routing of a connection keeps to its requests. -/
structure Disciplined (s : State) : Prop where
  once : softSyncs s.sent ≤ 1
  opened : ∀ tunnel channelIds opened, .softSync tunnel channelIds opened ∈ s.sent →
    channelIds ⊆ opened
  named : ∀ before channelId after, s.sent = before ++ .udp channelId :: after →
    ∃ tunnel channelIds opened, .softSync tunnel channelIds opened ∈ before ∧
      channelId ∈ channelIds
  moved : ∀ before tunnel channelIds opened between channelId after,
    s.sent = before ++ .softSync tunnel channelIds opened :: (between ++ .tcp channelId :: after) →
      channelId ∈ channelIds → .demigrated ∈ between
  kept : ∀ channelId, .discarded channelId .noMigrationCookie ∉ s.sent
  handle : s.server.egfxOnUdp = s.server.egfxOnUdpHandle

/-- The channels a request would name if graphics had just been written. -/
def State.dueChannels (cfg : Settings) (s : State) : List UInt32 :=
  if s.isBound ∧ s.canSoftSync then
    if cfg.lossyAudioFormats then (s.drdynvc.getChannelIdByName audioPlaybackLossyDvc).toList
    else if cfg.migrateEgfx then (s.drdynvc.getChannelIdByName egfxDvcChannelName).toList
    else []
  else []

/-- The write the lock is held for is that of graphics. -/
def State.writesFrame (s : State) : Bool :=
  match s.pending with
  | some (.frame _) => true
  | _ => false

/-- The channels of the request that is being written. -/
def State.channelsUnderway (s : State) : List UInt32 :=
  match s.pending with
  | some (.request _ channelIds) => channelIds
  | _ => []

/-- A request names open channels and is not cut, no wave comes before the request for
its channel, and no response takes the offer from under graphics on the tunnel. -/
def InTurn (cfg : Settings) (s : State) : Action → Prop
  | .written => s.writesFrame = true → s.dueChannels cfg ⊆ s.drdynvc.openedChannels
  | .wave => ∀ target ∈ s.lossyAudioTarget cfg, target.2 ∈ s.requested
  | .handleMultitransportResponse requestId _ =>
    s.server.egfxOnUdp = true → s.inFlight requestId = false
  | .maybeHandleMultitransportResponse requestId success =>
    s.server.egfxOnUdp = true → success = true ∨ s.inFlight requestId = false
  | .deactivate => s.channelsUnderway = []
  | _ => True

instance (cfg : Settings) (s : State) : ∀ a, Decidable (InTurn cfg s a)
  | .written => inferInstanceAs (Decidable (s.writesFrame = true →
      s.dueChannels cfg ⊆ s.drdynvc.openedChannels))
  | .wave => inferInstanceAs (Decidable (∀ target ∈ s.lossyAudioTarget cfg,
      target.2 ∈ s.requested))
  | .handleMultitransportResponse requestId _ => inferInstanceAs (Decidable
      (s.server.egfxOnUdp = true → s.inFlight requestId = false))
  | .maybeHandleMultitransportResponse requestId success => inferInstanceAs (Decidable
      (s.server.egfxOnUdp = true → success = true ∨ s.inFlight requestId = false))
  | .deactivate => inferInstanceAs (Decidable (s.channelsUnderway = []))
  | .egfx _ => isTrue trivial
  | .tunnelBound _ => isTrue trivial
  | .dvc _ => isTrue trivial
  | .trainingConfirm _ => isTrue trivial
  | .demigrateRequest => isTrue trivial
  | .reactivated => isTrue trivial

end Macrdp.SoftSync
