import Mathlib.Data.List.Monad
import Macrdp.CookieRegistry
import Macrdp.KeyedMap
import Macrdp.NetAddress
import Macrdp.RdpeudpEndpoint

/-!
# The UDP listener

The receive loop of the multitransport listener: it keeps a peer per source
address with its transport, binds tunnels to sessions by their cookie, and drops
peers whose tunnel ended, died or went idle. The encryption of a flow is not
modelled; what it decrypts from a delivery and what it sends in answer are inputs
of the transition that takes the delivery in.
-/

namespace Macrdp.UdpListener

open CookieRegistry EmtTunnel KeyedMap NetAddress PlatformTime RdpeudpDatagram RdpeudpEndpoint

/-- Configuration of the listener. -/
structure ListenerConfig where
  /-- Advertised receive window, in datagrams. -/
  recvWindow : UInt16 := 64
  /-- MTU, to which SYN and SYN+ACK are padded. -/
  mtu : UInt16 := 1232
  /-- From which the initial sequence numbers are derived. -/
  serverIsnSeed : UInt32 := 0x50524400
  /-- Retransmission timeout in milliseconds. -/
  rtoMs : UInt64 := 300
  /-- Lossy flows use lossy delivery. -/
  lossyDelivery : Bool := false
  /-- Lossy flows send every source datagram twice. -/
  lossyDup : Bool := false
  /-- A cookie registry is given. -/
  cookieBinding : Bool := true
  deriving DecidableEq

/-- The session of one source address. -/
structure Peer where
  /-- The transport. -/
  sm : RdpeudpState
  /-- Decrypted bytes of an incomplete tunnel message. -/
  emtInbound : List UInt8
  /-- The request was answered. -/
  tunnelCreated : Bool
  /-- The sink of the owning connection. -/
  inboundSink : Option ℕ
  /-- The tunnel-bound flag of the owning connection. -/
  boundFlag : Option ℕ
  /-- Time of the last datagram from the address. -/
  lastSeenMs : UInt64
  /-- How many peers were made before this one, which tells it from another peer
  of the same address. -/
  serial : ℕ
  /-- The datagram that established the transport. -/
  opening : List UInt8

/-- The peer once its transport processed a datagram. -/
def Peer.afterStep (peer : Peer) (nowMs : UInt64) (data : List UInt8) (sm : RdpeudpState) : Peer :=
  { peer with
    lastSeenMs := nowMs
    sm := sm
    opening := if !peer.sm.isEstablished && sm.isEstablished then data else peer.opening }

/-- The state of the loop, with the registry it shares with the server. -/
structure Listener where
  cfg : ListenerConfig
  peers : AList fun _ : SocketAddr => Peer
  /-- The peer of each bound cookie. -/
  boundAddrs : AList fun _ : Cookie => SocketAddr
  sessionCounter : UInt32
  /-- How many peers were made. -/
  nextSerial : ℕ
  registry : Registry

/-- Time after which a silent peer is dropped. -/
def peerIdleTimeoutMs : UInt64 := 60000

/-- The difference, or zero. -/
def saturatingSub (a b : UInt64) : UInt64 := if b ≤ a then a - b else 0

/-- The SYN flag is set. -/
def isSynFamily (bytes : List UInt8) : Bool :=
  (Datagram.peekFecFlags bytes).any fun flags => flags.contains .syn

/-- A SYN or SYN+ACK padded with zeros to the MTU. -/
def padSyn (mtu : UInt16) (bytes : List UInt8) : List UInt8 :=
  if isSynFamily bytes then bytes ++ List.replicate (mtu.toNat - bytes.length) 0 else bytes

/-- What the encryption of a flow made of a delivery. -/
structure SecureOutput where
  /-- The bytes it decrypted. -/
  plain : List UInt8
  /-- The tunnel messages are parsed, which takes a completed handshake. -/
  parse : Bool
  /-- What it sends back, record by record. -/
  records : List (List UInt8)
  deriving DecidableEq

/-- What parsing tunnel messages decided. -/
structure EmtTunnelOutcome where
  /-- The cookie that was bound. -/
  boundCookie : Option Cookie := none
  /-- The response to send. -/
  response : Option (List UInt8) := none
  deriving DecidableEq

/-- A peer under the parsing of its tunnel messages, with the registry, the
outcome and the payloads forwarded so far. -/
structure EmtState where
  peer : Peer
  registry : Registry
  outcome : EmtTunnelOutcome
  forwarded : List (ℕ × List UInt8)

namespace EmtState

/-- Answer a request, once for a peer: with a registry, only if its cookie is
there to be consumed. -/
def createRequest (cookieBinding : Bool) (e : EmtState) (pdu : List UInt8) : EmtState :=
  match TunnelCreateRequest.decode pdu with
  | .error _ => e
  | .ok (req, _) =>
    if e.peer.tunnelCreated then e
    else if cookieBinding then
      match e.registry.take req.securityCookie with
      | none => e
      | some ((sink, flag), registry) =>
        { e with
          peer := { e.peer with
            tunnelCreated := true, inboundSink := some sink, boundFlag := some flag }
          registry := registry
          outcome := ⟨some req.securityCookie, some TunnelCreateResponse.ok.toVec⟩ }
    else
      { e with
        peer := { e.peer with tunnelCreated := true, inboundSink := none }
        outcome := ⟨some req.securityCookie, some TunnelCreateResponse.ok.toVec⟩ }

/-- Forward channel data to the sink of the connection. -/
def data (e : EmtState) (pdu : List UInt8) : EmtState :=
  match tunnelDataPayload pdu, e.peer.inboundSink with
  | .ok higher, some sink => { e with forwarded := e.forwarded ++ [(sink, higher)] }
  | _, _ => e

/-- Process one tunnel message. -/
def pdu (cookieBinding : Bool) (e : EmtState) (bytes : List UInt8) : EmtState :=
  match peekAction bytes with
  | some action =>
    if action = actionCreateRequest then e.createRequest cookieBinding bytes
    else if action = actionData then e.data bytes
    else e
  | none => e

/-- Take complete messages from the front of the buffer. The fuel is the length
of the buffer, of which every message takes at least its header. -/
def messages (cookieBinding : Bool) : ℕ → EmtState → EmtState
  | 0, e => e
  | fuel + 1, e =>
    match peekPduLen e.peer.emtInbound with
    | none => e
    | some total =>
      if e.peer.emtInbound.length < total then e
      else
        messages cookieBinding fuel
          ({ e with peer := { e.peer with emtInbound := e.peer.emtInbound.drop total } }.pdu
            cookieBinding (e.peer.emtInbound.take total))

end EmtState

/-- Parse the complete tunnel messages of a peer. -/
def handleEmtTunnel (cookieBinding : Bool) (peer : Peer) (registry : Registry) : EmtState :=
  EmtState.messages cookieBinding peer.emtInbound.length ⟨peer, registry, {}, []⟩

theorem EmtState.createRequest_emtInbound (cookieBinding : Bool) (e : EmtState)
    (bytes : List UInt8) :
    (e.createRequest cookieBinding bytes).peer.emtInbound = e.peer.emtInbound := by
  unfold EmtState.createRequest
  split
  · rfl
  split
  · rfl
  split
  · split <;> rfl
  · rfl

theorem EmtState.data_emtInbound (e : EmtState) (bytes : List UInt8) :
    (e.data bytes).peer.emtInbound = e.peer.emtInbound := by
  unfold EmtState.data
  split <;> rfl

/-- A message leaves the bytes behind it alone. -/
theorem EmtState.pdu_emtInbound (cookieBinding : Bool) (e : EmtState) (bytes : List UInt8) :
    (e.pdu cookieBinding bytes).peer.emtInbound = e.peer.emtInbound := by
  unfold EmtState.pdu
  split
  · split
    · exact createRequest_emtInbound cookieBinding e bytes
    split
    · exact data_emtInbound e bytes
    · rfl
  · rfl

/-- Enough fuel is left for every complete message. -/
theorem EmtState.messages_complete (cookieBinding : Bool) {fuel : ℕ} {e : EmtState}
    (hfuel : e.peer.emtInbound.length ≤ fuel) {total : ℕ}
    (h : peekPduLen (messages cookieBinding fuel e).peer.emtInbound = some total) :
    (messages cookieBinding fuel e).peer.emtInbound.length < total := by
  induction fuel generalizing e with
  | zero =>
    simp only [messages] at h ⊢
    have hpos := fixedPartSize_le_peekPduLen h
    simp only [TunnelHeader.fixedPartSize] at hpos
    omega
  | succ fuel ih =>
    simp only [messages] at h ⊢
    split at h
    · next hnone =>
      rw [h] at hnone
      cases hnone
    next t ht =>
    have hpos := fixedPartSize_le_peekPduLen ht
    simp only [TunnelHeader.fixedPartSize] at hpos
    split at h
    · next hlt =>
      rw [if_pos hlt]
      rw [h, Option.some.injEq] at ht
      rw [ht]
      exact hlt
    · next hge =>
      rw [if_neg hge]
      refine ih ?_ h
      rw [pdu_emtInbound]
      simp only [List.length_drop]
      omega

/-- Parsing stops only at an incomplete message. -/
theorem handleEmtTunnel_complete {cookieBinding : Bool} {peer : Peer} {registry : Registry}
    {total : ℕ}
    (h : peekPduLen (handleEmtTunnel cookieBinding peer registry).peer.emtInbound = some total) :
    (handleEmtTunnel cookieBinding peer registry).peer.emtInbound.length < total :=
  EmtState.messages_complete (e := ⟨peer, registry, {}, []⟩) cookieBinding le_rfl h

/-- Send records through a transport. -/
def enqueueAll (nowMs : UInt64) :
    RdpeudpState → List (List UInt8) → Option (RdpeudpState × List (List UInt8))
  | sm, [] => some (sm, [])
  | sm, record :: rest => do
    let (sm, out) ← sm.enqueue nowMs record
    let (sm, sent) ← enqueueAll nowMs sm rest
    return (sm, out.toSend ++ sent)

/-- What a transition gives besides the next state. -/
structure Emitted where
  /-- What parsing tunnel messages decided. -/
  outcome : EmtTunnelOutcome := {}
  /-- Payloads forwarded to sinks. -/
  forwarded : List (ℕ × List UInt8) := []
  /-- Datagrams sent, with their destination. -/
  sent : List (SocketAddr × List UInt8) := []

namespace Listener

def new (cfg : ListenerConfig) : Listener := ⟨cfg, ∅, ∅, 0, 0, Registry.new⟩

/-- Store the peer of an address. -/
def insertPeer (l : Listener) (addr : SocketAddr) (peer : Peer) : Listener :=
  { l with peers := l.peers.insert addr peer }

/-- Lower a tunnel-bound flag, if there is one. -/
def lower (l : Listener) (flag : Option ℕ) : Listener :=
  match flag with
  | some flag => { l with registry := l.registry.store flag false }
  | none => l

/-- Drop the cookies bound to an address. -/
def unbind (l : Listener) (addr : SocketAddr) : Listener :=
  { l with boundAddrs := retain (fun _ a => if a = addr then none else some a) l.boundAddrs }

/-- Drop a peer: lower its flag and drop its cookies. -/
def dropPeer (l : Listener) (addr : SocketAddr) : Listener :=
  match l.peers.lookup addr with
  | some peer => ({ l with peers := l.peers.erase addr }.lower peer.boundFlag).unbind addr
  | none => l

/-- Check one peer for a dead tunnel: one whose flag the server lowered, or that
was silent too long. -/
def checkTunnel (nowMs deadMs : UInt64) (now : Instant) (cooldown : Duration)
    (st : Listener × List SocketAddr) (addr : SocketAddr) :
    Option (Listener × List SocketAddr) :=
  let (l, retired) := st
  match l.peers.lookup addr with
  | none => some st
  | some peer =>
    match peer.boundFlag with
    | none => some st
    | some flag =>
      let idleMs := saturatingSub nowMs peer.lastSeenMs
      if l.registry.flags flag && decide (idleMs ≤ deadMs) then some st
      else do
        let l := l.insertPeer addr { peer with boundFlag := none }
        let l := if l.registry.flags flag then l.lower (some flag) else l
        let registry ←
          if deadMs < idleMs ∧ cookieSuppresses l.cfg cooldown then
            l.registry.suppressMultitransport now cooldown
          else some l.registry
        return ({ l with registry := registry }, retired ++ [addr])
where
  /-- A death suppresses offers, if there is a registry and a cooldown. -/
  cookieSuppresses (cfg : ListenerConfig) (cooldown : Duration) : Bool :=
    cfg.cookieBinding && decide (0 < cooldown.nanos)

/-- Check all peers for dead tunnels; gives the addresses of those retired. -/
def checkDeadTunnels (l : Listener) (nowMs deadMs : UInt64) (now : Instant) (cooldown : Duration) :
    Option (Listener × List SocketAddr) :=
  if deadMs = 0 then some (l, [])
  else l.peers.keys.foldlM (checkTunnel nowMs deadMs now cooldown) (l, [])

/-- Evict the peers whose tunnel was retired. -/
def evictRetiredPeers (l : Listener) (retired : List SocketAddr) : Listener :=
  retired.foldl dropPeer l

/-- Evict the peers that were silent for the idle timeout. -/
def gcIdlePeers (l : Listener) (nowMs : UInt64) : Listener :=
  let gone := l.peers.entries.filter fun e =>
    decide (peerIdleTimeoutMs < saturatingSub nowMs e.2.lastSeenMs)
  (gone.map Sigma.fst).foldl dropPeer l

/-- Drop an established peer of an address that opens a new flow. -/
def replaceStale (l : Listener) (addr : SocketAddr) (data : List UInt8) : Listener :=
  if isSynFamily data && (l.peers.lookup addr).any (fun peer => peer.sm.isEstablished) then
    l.dropPeer addr
  else l

/-- The configuration of the next transport. -/
def nextConfig (l : Listener) (data : List UInt8) : Config :=
  let useLossy := l.cfg.lossyDelivery &&
    (Datagram.peekFecFlags data).any fun flags => flags.contains .synLossy
  { recvWindow := l.cfg.recvWindow
    mtu := l.cfg.mtu
    initialSeq := l.cfg.serverIsnSeed + (l.sessionCounter + 1)
    rtoMs := l.cfg.rtoMs
    mode := if useLossy then .lossy else .reliable
    duplicateLossySends := useLossy && l.cfg.lossyDup }

/-- The peer of an address, made if it is not there. -/
def peerFor (l : Listener) (addr : SocketAddr) (nowMs : UInt64) (data : List UInt8) :
    Peer × Listener :=
  match l.peers.lookup addr with
  | some peer => (peer, l)
  | none =>
    (⟨RdpeudpState.new .server (l.nextConfig data), [], false, none, none, nowMs, l.nextSerial, []⟩,
      { l with sessionCounter := l.sessionCounter + 1, nextSerial := l.nextSerial + 1 })

/-- Take in what was decrypted from a delivery: parse tunnel messages, record a
bound cookie, and send the answer. -/
def deliver (l : Listener) (addr : SocketAddr) (nowMs : UInt64) (peer : Peer)
    (secure : SecureOutput) : Option (Peer × Listener × Emitted) := do
  let peer := { peer with emtInbound := peer.emtInbound ++ secure.plain }
  let e : EmtState :=
    if secure.parse then handleEmtTunnel l.cfg.cookieBinding peer l.registry
    else ⟨peer, l.registry, {}, []⟩
  let boundAddrs := match e.outcome.boundCookie with
    | some cookie => l.boundAddrs.insert cookie addr
    | none => l.boundAddrs
  let (sm, sent) ← enqueueAll nowMs e.peer.sm secure.records
  return ({ e.peer with sm := sm }, { l with registry := e.registry, boundAddrs := boundAddrs },
    ⟨e.outcome, e.forwarded, sent.map fun bytes => (addr, bytes)⟩)

/-- Process one inbound datagram. -/
def datagram (l : Listener) (addr : SocketAddr) (nowMs : UInt64) (data : List UInt8)
    (secure : SecureOutput) : Option (Listener × Emitted) := do
  let (peer, l) := (l.replaceStale addr data).peerFor addr nowMs data
  let (sm, out) ← peer.sm.step nowMs (some data)
  let peer := peer.afterStep nowMs data sm
  let answer := out.toSend.map fun bytes => (addr, bytes)
  let (peer, l, emitted) ←
    if out.delivered.flatten = [] then some (peer, l, {}) else l.deliver addr nowMs peer secure
  return (l.insertPeer addr peer,
    { emitted with sent := (answer ++ emitted.sent).map fun s => (s.1, padSyn l.cfg.mtu s.2) })

/-- Ship channel data of the server to the peer of a cookie, as the records that
encrypt it. -/
def shipOutbound (l : Listener) (cookie : Cookie) (nowMs : UInt64) (records : List (List UInt8)) :
    Option (Listener × Emitted) :=
  match l.boundAddrs.lookup cookie with
  | none => some (l, {})
  | some addr =>
    match l.peers.lookup addr with
    | none => some (l, {})
    | some peer => do
      let (sm, sent) ← enqueueAll nowMs peer.sm records
      return (l.insertPeer addr { peer with sm := sm },
        { sent := sent.map fun bytes => (addr, padSyn l.cfg.mtu bytes) })

/-- Pump the transport of one established peer. -/
def pumpPeer (nowMs : UInt64) (l : Listener) (addr : SocketAddr) : Option Listener :=
  match l.peers.lookup addr with
  | none => some l
  | some peer =>
    if peer.sm.isEstablished then
      (peer.sm.step nowMs none).map fun (sm, _) => l.insertPeer addr { peer with sm := sm }
    else some l

/-- Pump all established peers on a timer tick. -/
def pumpPeersOnTimer (l : Listener) (nowMs : UInt64) : Option Listener :=
  l.peers.keys.foldlM (pumpPeer nowMs) l

/-- A peer stored again replaces the first. -/
@[simp] theorem insertPeer_insertPeer (l : Listener) (addr : SocketAddr) (p q : Peer) :
    (l.insertPeer addr p).insertPeer addr q = l.insertPeer addr q := by
  simp only [insertPeer, AList.insert_insert]

theorem lookup_insertPeer (l : Listener) (addr a : SocketAddr) (p : Peer) :
    (l.insertPeer addr p).peers.lookup a = if a = addr then some p else l.peers.lookup a := by
  split
  · next h =>
    subst h
    exact AList.lookup_insert _
  · next h => exact AList.lookup_insert_ne h

theorem lookup_insertPeer_self {l : Listener} {addr : SocketAddr} {p : Peer} :
    (l.insertPeer addr p).peers.lookup addr = some p := AList.lookup_insert _

/-- A peer put where there was none leaves the others. -/
theorem lookup_insertPeer_of_some {l : Listener} {addr a : SocketAddr} {p q : Peer}
    (hnone : l.peers.lookup addr = none) (hq : l.peers.lookup a = some q) :
    (l.insertPeer addr p).peers.lookup a = some q := by
  have ha : a ≠ addr := by
    rintro rfl
    rw [hnone] at hq
    cases hq
  rw [lookup_insertPeer, if_neg ha]
  exact hq

/-- Lowering a flag changes no other. -/
theorem lower_eq (l : Listener) (flag : Option ℕ) :
    l.lower flag = { l with registry := { l.registry with
      flags := fun f => if flag = some f then false else l.registry.flags f } } := by
  cases flag with
  | none => rfl
  | some flag =>
    simp only [lower, Registry.store, Option.some.injEq]
    congr
    funext f
    simp only [Function.update_apply, eq_comm]

/-- A flag that is not raised need not be lowered. -/
theorem lower_of_not_raised {l : Listener} {flag : ℕ} (h : l.registry.flags flag = false) :
    l.lower (some flag) = l := by
  simp only [lower, Registry.store, ← h, Function.update_eq_self]

/-- A dropped peer is gone. -/
theorem lookup_dropPeer (l : Listener) (addr : SocketAddr) :
    (l.dropPeer addr).peers.lookup addr = none := by
  unfold dropPeer
  cases hp : l.peers.lookup addr with
  | none => exact hp
  | some p =>
    simp only [lower_eq]
    exact AList.lookup_erase _ _

/-- A check leaves the listener alone, or takes the flag of a peer and lowers it. -/
theorem checkTunnel_cases {nowMs deadMs : UInt64} {now : Instant} {cooldown : Duration}
    {l : Listener} {retired : List SocketAddr} {addr : SocketAddr}
    {st : Listener × List SocketAddr}
    (h : checkTunnel nowMs deadMs now cooldown (l, retired) addr = some st) :
    st.1 = l ∨ ∃ p flag registry, l.peers.lookup addr = some p ∧ p.boundFlag = some flag ∧
      st.1 = { (l.insertPeer addr { p with boundFlag := none }).lower (some flag) with
        registry := registry } ∧
      (registry = (l.lower (some flag)).registry ∨
        (l.lower (some flag)).registry.suppressMultitransport now cooldown = some registry) := by
  simp only [checkTunnel] at h
  split at h
  · cases h
    exact .inl rfl
  next p hp =>
  split at h
  · cases h
    exact .inl rfl
  next flag hflag =>
  split at h
  · cases h
    exact .inl rfl
  have hlowered : (if (l.insertPeer addr { p with boundFlag := none }).registry.flags flag then
      (l.insertPeer addr { p with boundFlag := none }).lower (some flag)
      else l.insertPeer addr { p with boundFlag := none }) =
      (l.insertPeer addr { p with boundFlag := none }).lower (some flag) := by
    split
    · rfl
    · next hf => exact (lower_of_not_raised (Bool.eq_false_of_not_eq_true hf)).symm
  rw [hlowered] at h
  split at h
  · obtain ⟨registry, hregistry, h⟩ := Option.bind_eq_some_iff.mp h
    cases h
    exact .inr ⟨p, flag, registry, hp, hflag, rfl, .inr hregistry⟩
  · cases h
    exact .inr ⟨p, flag, _, hp, hflag, rfl, .inl rfl⟩

theorem lookup_unbind (l : Listener) (addr : SocketAddr) (cookie : Cookie) :
    (l.unbind addr).boundAddrs.lookup cookie =
      (l.boundAddrs.lookup cookie).bind fun a => if a = addr then none else some a :=
  lookup_retain _ _ _

end Listener
end Macrdp.UdpListener
