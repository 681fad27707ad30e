import Macrdp.StepSystem
import Macrdp.UdpListener

/-!
# Retiring a tunnel

When a session ends the server lowers the tunnel-bound flag of its connection and
then drops the cookie it offered. The listener runs beside it and shares the flags
and the registry; every access to either is one step of its own. What is left of
the listener's peers is what those accesses depend on.
-/

namespace Macrdp.TunnelRetirement

open CookieRegistry EmtTunnel NetAddress PlatformTime UdpListener

/-- What the retirement of a tunnel depends on of a peer. -/
structure TunnelPeer where
  /-- The request was answered. -/
  tunnelCreated : Bool
  /-- The tunnel-bound flag of the owning connection. -/
  boundFlag : Option ℕ
  /-- Time of the last datagram from the address. -/
  lastSeenMs : UInt64

/-- The settings of the tunnel-death detection. -/
structure DeathConfig where
  /-- How long a bound peer may be silent; `0` disables the detection. -/
  deadMs : UInt64
  /-- How long no offers are made after a death, in seconds. -/
  cooldownSecs : UInt64

/-- Where the server is in the life of a connection. -/
inductive ServerPhase where
  | idle
  /-- The previous cookie is dropped and the offer is registered next. -/
  | offering
  | serving
  /-- The flag is lowered and the cookie is dropped next. -/
  | lowered
  deriving DecidableEq

/-- What a check of a peer found when it loaded the flag. -/
structure Observation where
  flag : ℕ
  /-- The value that was loaded. -/
  raised : Bool
  idleMs : UInt64
  /-- The connection of the flag had been reset. -/
  afterReset : Bool

/-- Where the listener is. -/
inductive ListenerPhase where
  | waiting
  /-- Peers are checked for a dead tunnel. -/
  | checking (todo retired : List SocketAddr) (nowMs : UInt64)
  /-- A peer with a raised flag was silent too long: its flag is lowered next. -/
  | lowering (seen : Observation) (addr : SocketAddr) (todo retired : List SocketAddr)
    (nowMs : UInt64)
  /-- Offers are suppressed next. -/
  | suppressing (seen : Observation) (addr : SocketAddr) (todo retired : List SocketAddr)
    (nowMs : UInt64)
  /-- Retired peers are evicted. -/
  | evicting (retired : List SocketAddr) (nowMs : UInt64)
  /-- Silent peers are dropped. -/
  | collecting (gone : List SocketAddr)

/-- The server and the listener over what they share. -/
structure System where
  reg : Registry
  server : ServerPhase
  /-- The flag of the connection that made an offer last. -/
  udpTunnelBound : Option ℕ
  /-- The cookie offered on this connection. -/
  currentOfferCookie : Option Cookie
  /-- The cookie of the migration that was recorded last. -/
  migration : Option Cookie
  listener : ListenerPhase
  peers : AList fun _ : SocketAddr => TunnelPeer
  /-- The flags of the connections whose reset is complete. -/
  retiredFlags : List ℕ
  /-- What was found where a cooldown was started. -/
  cooldowns : List Observation

/-- A step of the server. -/
inductive ServerStep where
  /-- A candidate that won is served: it has no offer. -/
  | negotiated
  /-- A connection without an offer is served: what the last one left is dropped. -/
  | withheld
  /-- A connection with an offer: the cookie of the last migration is dropped, -/
  | offer
  /-- and the new one registered. -/
  | register (cookie : Cookie) (inbound : ℕ)
  /-- The client has accepted: the offer is recorded as a migration. -/
  | activate
  /-- The migration is over. -/
  | forgetMigration
  /-- The session has ended: the flag is lowered, -/
  | lower
  /-- and the cookie dropped. -/
  | remove

/-- A step of the listener. -/
inductive ListenerStep where
  | datagram (addr : SocketAddr) (nowMs : UInt64)
  /-- A request for a tunnel, from a peer that was not answered. -/
  | createRequest (addr : SocketAddr) (cookie : Cookie)
  /-- A new flow replaces a peer of its address. -/
  | replace (addr : SocketAddr)
  | tick (nowMs : UInt64)
  /-- The next access of the tick. -/
  | go (now : Instant)

/-- A step of either. -/
inductive Action where
  | server (step : ServerStep)
  | listener (step : ListenerStep)

namespace System

/-- Before the first connection and the first datagram. -/
def init : System where
  reg := Registry.new
  server := .idle
  udpTunnelBound := none
  currentOfferCookie := none
  migration := none
  listener := .waiting
  peers := ∅
  retiredFlags := []
  cooldowns := []

/-- Drop a cookie, if there is one. -/
def dropCookie (s : System) (cookie : Option Cookie) : System :=
  { s with reg := cookie.elim s.reg s.reg.remove }

/-- Lower a flag, if there is one. -/
def lower (s : System) (flag : Option ℕ) : System :=
  { s with reg := flag.elim s.reg fun f => s.reg.store f false }

/-- The flag of the connection, if it made an offer. -/
def ownFlag (s : System) : Option ℕ := s.currentOfferCookie.bind fun _ => s.udpTunnelBound

/-- One step of the server. -/
def stepServer (s : System) : ServerStep → Option System
  | .negotiated => if s.server = .idle then some { s with server := .serving } else none
  | .withheld =>
    if s.server = .idle then
      some { s.dropCookie s.migration with
        server := .serving, migration := none, udpTunnelBound := none }
    else none
  | .offer =>
    if s.server = .idle then some { s.dropCookie s.migration with server := .offering } else none
  | .register cookie inbound =>
    if s.server = .offering then
      let (flag, reg) := s.reg.register cookie inbound
      some { s with
        reg, server := .serving, udpTunnelBound := some flag, currentOfferCookie := some cookie }
    else none
  | .activate =>
    if s.server = .serving then some { s with migration := s.currentOfferCookie.or s.migration }
    else none
  | .forgetMigration => if s.server = .serving then some { s with migration := none } else none
  | .lower =>
    if s.server = .serving then some { s.lower s.udpTunnelBound with server := .lowered } else none
  | .remove =>
    if s.server = .lowered then
      some { s.dropCookie s.currentOfferCookie with
        server := .idle
        currentOfferCookie := none
        retiredFlags := s.ownFlag.toList ++ s.retiredFlags }
    else none

/-- Store the peer of an address. -/
def insertPeer (s : System) (addr : SocketAddr) (peer : TunnelPeer) : System :=
  { s with peers := s.peers.insert addr peer }

/-- Drop a peer and lower its flag. -/
def dropPeer (s : System) (addr : SocketAddr) : System :=
  match s.peers.lookup addr with
  | some peer => { s with peers := s.peers.erase addr }.lower peer.boundFlag
  | none => s

/-- The peers that were silent for the idle timeout. -/
def gone (s : System) (nowMs : UInt64) : List SocketAddr :=
  (s.peers.entries.filter fun e =>
    decide (peerIdleTimeoutMs < saturatingSub nowMs e.2.lastSeenMs)).map Sigma.fst

/-- Go on with a peer that is retired: offers are suppressed first, if it was silent
too long and there is a cooldown. -/
def retire (cfg : DeathConfig) (s : System) (seen : Observation) (addr : SocketAddr)
    (todo retired : List SocketAddr) (nowMs : UInt64) : System :=
  { s with listener :=
    if cfg.deadMs < seen.idleMs ∧ 0 < cfg.cooldownSecs then
      .suppressing seen addr todo retired nowMs
    else .checking todo (retired ++ [addr]) nowMs }

/-- Load the flag of the next peer. -/
def check (cfg : DeathConfig) (s : System) (addr : SocketAddr) (todo retired : List SocketAddr)
    (nowMs : UInt64) : System :=
  match s.peers.lookup addr with
  | none => { s with listener := .checking todo retired nowMs }
  | some peer =>
    match peer.boundFlag with
    | none => { s with listener := .checking todo retired nowMs }
    | some flag =>
      let seen : Observation := ⟨flag, s.reg.flags flag, saturatingSub nowMs peer.lastSeenMs,
        decide (flag ∈ s.retiredFlags)⟩
      let s' := s.insertPeer addr { peer with boundFlag := none }
      if seen.raised then
        if seen.idleMs ≤ cfg.deadMs then { s with listener := .checking todo retired nowMs }
        else { s' with listener := .lowering seen addr todo retired nowMs }
      else s'.retire cfg seen addr todo retired nowMs

/-- The next access of a tick. -/
def go (cfg : DeathConfig) (s : System) (now : Instant) : Option System :=
  match s.listener with
  | .waiting => none
  | .checking [] retired nowMs => some { s with listener := .evicting retired nowMs }
  | .checking (addr :: todo) retired nowMs => some (s.check cfg addr todo retired nowMs)
  | .lowering seen addr todo retired nowMs =>
    some ((s.lower (some seen.flag)).retire cfg seen addr todo retired nowMs)
  | .suppressing seen addr todo retired nowMs =>
    (s.reg.suppressMultitransport now (.fromSecs cfg.cooldownSecs)).map fun reg =>
      { s with
        reg
        listener := .checking todo (retired ++ [addr]) nowMs
        cooldowns := seen :: s.cooldowns }
  | .evicting [] nowMs => some { s with listener := .collecting (s.gone nowMs) }
  | .evicting (addr :: retired) nowMs =>
    some { s.dropPeer addr with listener := .evicting retired nowMs }
  | .collecting [] => some { s with listener := .waiting }
  | .collecting (addr :: gone) => some { s.dropPeer addr with listener := .collecting gone }

/-- The listener is between two events. -/
def listens (s : System) : Bool :=
  match s.listener with
  | .waiting => true
  | _ => false

/-- A datagram arrives: the peer of its address is new, or was seen again. -/
def datagram (s : System) (addr : SocketAddr) (nowMs : UInt64) : System :=
  s.insertPeer addr
    { (s.peers.lookup addr).getD ⟨false, none, nowMs⟩ with lastSeenMs := nowMs }

/-- A peer asks for a tunnel: the cookie is taken and the flag raised. -/
def createRequest (s : System) (addr : SocketAddr) (cookie : Cookie) : Option System :=
  (s.peers.lookup addr).bind fun peer =>
    if peer.tunnelCreated then none
    else
      some (match s.reg.take cookie with
        | none => s
        | some ((_, flag), reg) =>
          { s with reg }.insertPeer addr
            { peer with tunnelCreated := true, boundFlag := some flag })

/-- One step of the listener. -/
def stepListener (cfg : DeathConfig) (s : System) : ListenerStep → Option System
  | .datagram addr nowMs => if s.listens then some (s.datagram addr nowMs) else none
  | .createRequest addr cookie => if s.listens then s.createRequest addr cookie else none
  | .replace addr => if s.listens then some (s.dropPeer addr) else none
  | .tick nowMs =>
    if s.listens then
      some { s with listener :=
        if cfg.deadMs = 0 then .evicting [] nowMs else .checking s.peers.keys [] nowMs }
    else none
  | .go now => s.go cfg now

/-- One step of the system. -/
def step (cfg : DeathConfig) (s : System) : Action → Option System
  | .server a => s.stepServer a
  | .listener a => s.stepListener cfg a

end System

/-- Once a connection was reset its flag is down, and a cooldown decided on from then
on was for a peer whose retirement was observed, with the peer silent too long. -/
structure Final (cfg : DeathConfig) (s : System) : Prop where
  flags : ∀ f ∈ s.retiredFlags, s.reg.flags f = false
  cooldowns : ∀ seen ∈ s.cooldowns,
    cfg.deadMs < seen.idleMs ∧ (seen.afterReset = true → seen.raised = false)

/-- No request takes the cookie of a connection between the two steps of its reset. -/
def NotBetween (s : System) : Action → Prop
  | .listener (.createRequest _ cookie) => s.server = .lowered →
      ∀ entry ∈ s.reg.entries.lookup cookie, s.udpTunnelBound ≠ some entry.bound
  | _ => True

instance (s : System) : ∀ a, Decidable (NotBetween s a)
  | .listener (.createRequest _ cookie) => inferInstanceAs (Decidable (s.server = .lowered →
      ∀ entry ∈ s.reg.entries.lookup cookie, s.udpTunnelBound ≠ some entry.bound))
  | .listener (.datagram _ _) => isTrue trivial
  | .listener (.replace _) => isTrue trivial
  | .listener (.tick _) => isTrue trivial
  | .listener (.go _) => isTrue trivial
  | .server _ => isTrue trivial

end Macrdp.TunnelRetirement
