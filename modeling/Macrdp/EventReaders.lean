import Macrdp.ServerEvents

/-!
# The readers of the events

The channel is read by the accept loop while no connection is served, by the client loop
of the one that is, and by the filter that runs before a candidate that won is served. It
takes everything from the channel and sends it back without the evictions.
-/

namespace Macrdp.ServerEvents

/-- What the run loop is doing. -/
inductive Stage where
  /-- It waits for an event or a connection. -/
  | accepting
  /-- The filter takes what is on the channel. -/
  | collecting
  /-- The filter sends back what it kept. -/
  | resending
  | serving
  | stopped
  deriving DecidableEq

/-- The server: the connection it serves or served last, and the run loop. -/
structure Server where
  session : Session
  stage : Stage
  /-- What the filter has kept. -/
  keep : List ServerEvent
  /-- A candidate has won against the connection. -/
  pending : Bool
  deriving DecidableEq

/-- A step of the server. -/
inductive ServerAction where
  /-- A producer sends while no connection is served. -/
  | send (kind : EventKind) (producedFor : ℕ)
  /-- The accept loop takes an event. -/
  | acceptEvent
  /-- A connection is accepted and served. -/
  | runConnection
  /-- A step of the connection that is served, or of a producer meanwhile. -/
  | session (a : Action)
  /-- A candidate wins; the connection is told so. -/
  | evict
  /-- The connection has ended; a candidate may be there, or the handler may stop. -/
  | disconnected (handoff stop : Bool)
  | collect
  | resend
  deriving DecidableEq

namespace Server

/-- The server before its first connection. -/
def init (creds : Option Credentials) : Server where
  session := { Session.start 0 [] creds with phase := .ended }
  stage := .accepting
  keep := []
  pending := false

/-- The next connection is served. -/
def serve (s : Server) : Server :=
  { s with
    session := { s.session with
      connection := s.session.connection + 1
      phase := .accepting
      events := []
      dispatching := none }
    stage := .serving
    pending := false }

/-- Take the first event from the channel. -/
def take (s : Server) (e : ServerEvent) (rest : List ServerEvent) : Server :=
  { s with session := { s.session with channel := rest, taken := s.session.taken ++ [e] } }

/-- The accept loop handles an event, or drops it. -/
def handleEvent (s : Server) (e : ServerEvent) : Server :=
  match e.kind with
  | .quit => { s with session := s.session.takeEffect none e, stage := .stopped }
  | .getLocalAddr => { s with session := s.session.takeEffect none e }
  | .setCredentials _ => { s with session := s.session.takeEffect none e }
  | _ => s

/-- The filter takes an event, or has taken all. -/
def collect (s : Server) : Server :=
  match s.session.channel with
  | e :: rest =>
    { s with
      session := { s.session with channel := rest }
      keep := if e.kind = .evictedByOtherConnection then s.keep else s.keep ++ [e] }
  | [] => if s.keep = [] then s.serve else { s with stage := .resending }

/-- The filter sends an event back; the candidate is served after the last. -/
def resend (s : Server) (e : ServerEvent) (rest : List ServerEvent) : Server :=
  let s := { s with
    session := { s.session with channel := s.session.channel ++ [e] }
    keep := rest }
  if rest = [] then s.serve else s

/-- One step of the server. -/
def step (s : Server) : ServerAction → Option Server
  | .send kind producedFor =>
    if s.stage = .serving ∨ kind = .evictedByOtherConnection then none
    else some { s with session := s.session.send kind producedFor }
  | .acceptEvent =>
    if s.stage = .accepting then
      match s.session.channel with
      | [] => none
      | e :: rest => some ((s.take e rest).handleEvent e)
    else none
  | .runConnection => if s.stage = .accepting then some s.serve else none
  | .session a =>
    if s.stage = .serving then (s.session.step a).map fun session => { s with session } else none
  | .evict =>
    if s.stage = .serving ∧ s.session.phase ≠ .ended ∧ s.pending = false then
      some { s with
        session := s.session.send .evictedByOtherConnection s.session.connection
        pending := true }
    else none
  | .disconnected handoff stop =>
    if s.stage = .serving ∧ s.session.phase = .ended then
      some { s with
        stage := if stop then .stopped
          else if s.pending || handoff then .collecting else .accepting }
    else none
  | .collect => if s.stage = .collecting then some s.collect else none
  | .resend =>
    if s.stage = .resending then
      match s.keep with
      | [] => none
      | e :: rest => some (s.resend e rest)
    else none

/-- What was sent and has not been taken to be handled, in the order it will be. -/
def queued (s : Server) : List ServerEvent :=
  match s.stage with
  | .resending => s.session.channel ++ s.keep
  | _ => s.keep ++ s.session.channel

end Server

/-- Everything but an eviction. -/
def ServerEvent.isOther (e : ServerEvent) : Bool :=
  decide (e.kind ≠ .evictedByOtherConnection)

/-- Events stay with their connections, and none but evictions get lost on the way. -/
structure Isolated (creds : Option Credentials) (s : Server) : Prop where
  /-- What was dispatched on a connection was produced for it, an eviction too. -/
  own : ∀ n e, (some n, e) ∈ s.session.effects →
    e.kind.ofConnection = true ∨ e.kind = .evictedByOtherConnection → e.producedFor = n
  /-- And so was what is being dispatched. -/
  dispatching : ∀ e ∈ s.session.dispatching,
    e.kind.ofConnection = true ∨ e.kind = .evictedByOtherConnection →
      e.producedFor = s.session.connection
  /-- What was taken for the server was handled, or waits in a client loop. -/
  controls : (s.session.taken.filter fun e => e.kind.isControl) =
    ((s.session.effects.map Prod.snd ++ s.session.waiting).filter fun e => e.kind.isControl)
  once : (s.session.effects.map Prod.snd).Nodup
  answered : s.session.answered =
    (s.session.effects.map Prod.snd).filter fun e => decide (e.kind = .getLocalAddr)
  creds : s.session.creds = credsAfter creds (s.session.effects.map Prod.snd)
  /-- Everything but evictions is taken in the order of sending, through the filter too. -/
  order : s.session.sends.filter ServerEvent.isOther =
    s.session.taken.filter ServerEvent.isOther ++ s.queued.filter ServerEvent.isOther

/-- Nothing on the channel was produced for another connection than the next. -/
def Server.NothingStale (s : Server) : Prop :=
  ∀ e ∈ s.queued, e.kind.ofConnection = true → e.producedFor = s.session.connection + 1

/-- Connections are served when nothing is left of another, producers send for the one
that is served and not while the filter sends back, and client loops end when nothing for
the server is left in their batch. -/
def InOrder (s : Server) : ServerAction → Prop
  | .send _ _ => s.stage ≠ .resending
  | .runConnection => s.NothingStale
  | .session a =>
    (∀ e ∈ s.session.dropped a, e.kind.isControl = false) ∧
      ∀ e ∈ s.session.posted a, e.kind.ofConnection = true → e.producedFor = s.session.connection
  | .resend => s.keep.length = 1 → s.NothingStale
  | _ => True

instance (s : Server) : Decidable s.NothingStale :=
  inferInstanceAs (Decidable (∀ _ ∈ s.queued, _))

instance (s : Server) : ∀ a, Decidable (InOrder s a)
  | .send _ _ => inferInstanceAs (Decidable (_ ≠ _))
  | .runConnection => inferInstanceAs (Decidable s.NothingStale)
  | .session _ => inferInstanceAs (Decidable (_ ∧ _))
  | .resend => inferInstanceAs (Decidable (_ → _))
  | .acceptEvent => .isTrue trivial
  | .evict => .isTrue trivial
  | .disconnected _ _ => .isTrue trivial
  | .collect => .isTrue trivial

end Macrdp.ServerEvents
