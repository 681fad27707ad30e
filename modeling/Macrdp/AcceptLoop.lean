import Macrdp.AuthGuard
import Macrdp.CandidateRace

/-!
# The accept loop and its guard

The server accepts one connection at a time and serves it, negotiating meanwhile
with one candidate that takes the session over if it authenticates. The guard is
told of arrivals, of the verdicts on credentials, of the identity a client
claims and of the end of a served session.
-/

namespace Macrdp.AcceptLoop

open AuthGuard NetAddress PlatformTime
open CandidateRace (repreemptCooldown repreemptMaxLockout)

/-- What a client says of itself. -/
structure ClientFingerprint where
  clientName : String
  rdpVersion : UInt32
  clientBuild : UInt32
  platform : String
  deriving DecidableEq

/-- A record of the audit log, without its texts. -/
inductive AuditRecord where
  | accept (peer : SocketAddr)
  | reject (ip : IpAddr) (decision : Decision)
  | auth (peer : SocketAddr) (success : Bool)
  | fingerprint (peer : SocketAddr) (client : ClientFingerprint)
  | disconnect (peer : SocketAddr) (duration : Duration) (outcome : Outcome)

/-- The guard as the server calls it. -/
structure AuthGuardHandler where
  /-- The decision core. -/
  core : AuthGuardCore
  /-- The peer accepted last, which the hooks without a peer refer to. -/
  lastPeer : Option SocketAddr
  /-- Address of a session that authenticated, and when. -/
  liveSession : Option (IpAddr × Instant)

namespace AuthGuardHandler

/-- A guard that has seen no connection. -/
def new (cfg : GuardConfig) : AuthGuardHandler := ⟨.withConfig cfg, none, none⟩

/-- Whether a connection may go on, and the record about it. -/
def onAccept (h : AuthGuardHandler) (peer : SocketAddr) (now : Instant) :
    Bool × List AuditRecord × AuthGuardHandler :=
  let (decision, core) := h.core.decide now peer.ip
  let h := { h with core, lastPeer := some peer }
  match decision with
  | .accept => (true, [.accept peer], h)
  | reject => (false, [.reject peer.ip reject], h)

/-- The verdict on the credentials of some connection. -/
def onAuthenticated (h : AuthGuardHandler) (success : Bool) (now : Instant) :
    List AuditRecord × AuthGuardHandler :=
  let live := h.lastPeer.map fun peer => (peer.ip, now)
  (h.lastPeer.toList.map fun peer => .auth peer success,
    if success then { h with liveSession := live.or h.liveSession } else h)

/-- The identity some connection claims. -/
def onClientFingerprint (h : AuthGuardHandler) (client : ClientFingerprint) : List AuditRecord :=
  h.lastPeer.toList.map fun peer => .fingerprint peer client

/-- A served connection is over; `none` is the panic of the core. -/
def onDisconnected (h : AuthGuardHandler) (peer : SocketAddr) (duration : Duration)
    (errored : Bool) (now : Instant) : Option (List AuditRecord × AuthGuardHandler) :=
  let outcome := classifyOutcome errored duration h.core.cfg.failfastWindow
  let live := h.liveSession.filter fun l => decide (l.1 ≠ peer.ip)
  (h.core.recordOutcome now peer.ip outcome).map fun core =>
    ([.disconnect peer duration outcome], { h with core, liveSession := live })

end AuthGuardHandler

/-- How far a connection is; the ones behind the credentials only a served
connection reaches. -/
inductive Stage where
  | x224
  | tls
  | credssp
  /-- The capabilities are exchanged. -/
  | finalize
  /-- The client loop runs. -/
  | active
  deriving DecidableEq

/-- The credentials were accepted. -/
def Stage.authenticated : Stage → Bool
  | .finalize | .active => true
  | .x224 | .tls | .credssp => false

/-- A connection that was admitted. -/
structure Conn where
  /-- Its number among those admitted. -/
  id : ℕ
  peer : SocketAddr
  /-- When it was admitted. -/
  since : Instant

/-- The connection being served. -/
structure Served where
  conn : Conn
  stage : Stage
  /-- When serving it began. -/
  started : Instant

/-- A connection negotiated beside the served one. -/
structure Probe where
  conn : Conn
  stage : Stage

/-- How a served connection ended: by its own failure, or in good order or by
being cancelled. -/
structure Ended where
  failed : Bool
  time : Instant

/-- What is next once a served connection has ended. -/
inductive Next where
  | nothing
  /-- A candidate is given a moment to finish. -/
  | probing (probe : Probe)
  /-- It did, and is served next. -/
  | handedOver (conn : Conn)
  /-- A candidate evicted the connection and is served next. -/
  | preempted (conn : Conn)

/-- What the accept loop waits for. -/
inductive Mode where
  | waiting
  /-- A connection is served next. -/
  | admitted (conn : Conn) (stage : Stage)
  | serving (served : Served) (probe : Option Probe)
  /-- The served connection is given a moment to wind down. -/
  | evicting (served : Served) (winner : Conn) (since : Instant)
  /-- The served connection has ended and the guard is not told yet. -/
  | ending (served : Served) (ended : Ended) (next : Next)

/-- The end of a connection, kept for the statements only. -/
structure Ending where
  conn : Conn
  authenticated : Bool
  /-- It failed, rather than closing in good order or being dropped. -/
  failed : Bool
  /-- How long it lasted. -/
  lasted : Duration
  /-- When it was gone. -/
  time : Instant

/-- The accept loop. -/
structure LoopState where
  handler : AuthGuardHandler
  /-- Address, time of eviction and last try of the peer just evicted. -/
  recentlyEvicted : Option (IpAddr × Instant × Instant)
  mode : Mode
  /-- The time of the last step. -/
  clock : Instant
  /-- Connections admitted so far. -/
  nextId : ℕ
  /-- The peer the guard was asked about last. -/
  arrived : Option SocketAddr
  /-- The ends of connections, newest first. -/
  ledger : List Ending
  /-- The audit records, each with the peer of the connection it is about. -/
  audit : List (AuditRecord × SocketAddr)

/-- What happens to the served connection. -/
inductive ServedEvent where
  | beginDone
  | tlsAccepted
  | credsspDone
  | clientAccepted (client : ClientFingerprint)
  | failed
  | finished

/-- What happens to a candidate. -/
inductive CandidateEvent where
  | beginDone
  | tlsAccepted
  | credsspDone
  | failed
  /-- Its ten seconds are over. -/
  | timedOut
  /-- The session it waited beside is over and its moment as well. -/
  | abandoned

/-- What the accept loop does. -/
inductive Event where
  | accept (peer : SocketAddr)
  | serve
  | served (event : ServedEvent)
  | candidate (event : CandidateEvent)
  /-- The evicted connection did not wind down in time. -/
  | evictionOver
  /-- The guard is told that the served connection is over. -/
  | settle

/-- A step at a time. -/
structure Action where
  now : Instant
  event : Event

/-- How long a candidate may negotiate. -/
def candidateNegotiationTimeout : Duration := .fromSecs 10

/-- How long a candidate may go on when the session has ended. -/
def candidateHandoffGrace : Duration := ⟨750000000, by decide⟩

/-- How long an evicted session may take to wind down. -/
def evictionGrace : Duration := ⟨750000000, by decide⟩

/-- Whether a peer was evicted a moment ago; a try within the window re-arms it. -/
def bouncedBack (recent : Option (IpAddr × Instant × Instant)) (peer : SocketAddr)
    (now : Instant) : Bool × Option (IpAddr × Instant × Instant) :=
  match recent with
  | some (ip, evictedAt, lastTry) =>
    if ip = peer.ip then
      let within := decide (now.saturatingDurationSince lastTry < repreemptCooldown)
        && decide (now.saturatingDurationSince evictedAt < repreemptMaxLockout)
      (within, if within then some (ip, evictedAt, now) else recent)
    else (false, recent)
  | none => (false, none)

namespace LoopState

/-- The loop before its first connection. -/
def init (cfg : GuardConfig) (now : Instant) : LoopState where
  handler := .new cfg
  recentlyEvicted := none
  mode := .waiting
  clock := now
  nextId := 0
  arrived := none
  ledger := []
  audit := []

/-- Write records about the connection of a peer. -/
def log (s : LoopState) (records : List AuditRecord) (peer : SocketAddr) : LoopState :=
  { s with audit := s.audit ++ records.map fun r => (r, peer) }

/-- Ask the guard about an arrival. -/
def onAccept (s : LoopState) (peer : SocketAddr) (now : Instant) : Bool × LoopState :=
  let (pass, records, handler) := s.handler.onAccept peer now
  (pass, { s with handler, arrived := some peer }.log records peer)

/-- Tell the guard the verdict on a connection. -/
def onAuthenticated (s : LoopState) (conn : Conn) (success : Bool) (now : Instant) : LoopState :=
  let (records, handler) := s.handler.onAuthenticated success now
  { s with handler }.log records conn.peer

/-- Tell the guard the identity a connection claims. -/
def onClientFingerprint (s : LoopState) (conn : Conn) (client : ClientFingerprint) : LoopState :=
  s.log (s.handler.onClientFingerprint client) conn.peer

/-- A connection is gone. -/
def close (s : LoopState) (conn : Conn) (authenticated failed : Bool) (lasted : Duration)
    (now : Instant) : LoopState :=
  { s with ledger := ⟨conn, authenticated, failed, lasted, now⟩ :: s.ledger }

/-- A connection is admitted. -/
def admitPeer (s : LoopState) (peer : SocketAddr) (now : Instant) (mode : Conn → Mode) :
    LoopState :=
  { s with mode := mode ⟨s.nextId, peer, now⟩, nextId := s.nextId + 1 }

/-- A connection arrives. -/
def accept (s : LoopState) (peer : SocketAddr) (now : Instant) : Option LoopState :=
  match s.mode with
  | .waiting =>
    let (pass, s) := s.onAccept peer now
    some (if pass then s.admitPeer peer now fun conn => .admitted conn .x224 else s)
  | .serving served none =>
    let (bounced, recentlyEvicted) := bouncedBack s.recentlyEvicted peer now
    let s := { s with recentlyEvicted }
    if bounced then some s
    else
      let (pass, s) := s.onAccept peer now
      some (if pass then
          s.admitPeer peer now fun conn => .serving served (some ⟨conn, .x224⟩)
        else s)
  | _ => none

/-- The next connection is served. -/
def serve (s : LoopState) (now : Instant) : Option LoopState :=
  match s.mode with
  | .admitted conn stage => some { s with mode := .serving ⟨conn, stage, now⟩ none }
  | _ => none

/-- The served connection goes on to a stage. -/
def goOn (s : LoopState) (stage : Stage) : Option LoopState :=
  match s.mode with
  | .serving served probe => some { s with mode := .serving { served with stage } probe }
  | .evicting served winner since =>
    some { s with mode := .evicting { served with stage } winner since }
  | _ => none

/-- The served connection ends. -/
def endServed (s : LoopState) (failed : Bool) (now : Instant) : Option LoopState :=
  match s.mode with
  | .serving served probe =>
    some { s with mode := .ending served ⟨failed, now⟩ (probe.elim .nothing .probing) }
  | .evicting served winner _ =>
    some { s with mode := .ending served ⟨failed, now⟩ (.preempted winner) }
  | _ => none

/-- The connection being served. -/
def served? (s : LoopState) : Option Served :=
  match s.mode with
  | .serving served _ | .evicting served _ _ => some served
  | _ => none

/-- The served connection makes a step: a failed exchange of credentials is
reported before the connection ends. -/
def stepServed (s : LoopState) (served : Served) (now : Instant) :
    ServedEvent → Option LoopState
  | .beginDone => if served.stage = .x224 then s.goOn .tls else none
  | .tlsAccepted => if served.stage = .tls then s.goOn .credssp else none
  | .credsspDone =>
    if served.stage = .credssp then (s.onAuthenticated served.conn true now).goOn .finalize
    else none
  | .clientAccepted client =>
    if served.stage = .finalize then (s.onClientFingerprint served.conn client).goOn .active
    else none
  | .failed =>
    (if served.stage = .credssp then s.onAuthenticated served.conn false now else s).endServed
      true now
  | .finished => if served.stage = .active then s.endServed false now else none

/-- The candidate being negotiated. -/
def probe? (s : LoopState) : Option Probe :=
  match s.mode with
  | .serving _ probe => probe
  | .ending _ _ (.probing probe) => some probe
  | _ => none

/-- The candidate is at a stage, or gone. -/
def withProbe (s : LoopState) (probe : Option Probe) : LoopState :=
  match s.mode with
  | .serving served _ => { s with mode := .serving served probe }
  | .ending served ended _ =>
    { s with mode := .ending served ended (probe.elim .nothing .probing) }
  | _ => s

/-- The candidate has authenticated: it evicts the session, or follows it. -/
def win (s : LoopState) (conn : Conn) (now : Instant) : LoopState :=
  match s.mode with
  | .serving served _ =>
    { s with
      mode := .evicting served conn now
      recentlyEvicted := some (served.conn.peer.ip, now, now) }
  | .ending served ended _ => { s with mode := .ending served ended (.handedOver conn) }
  | _ => s

@[simp] theorem withProbe_handler (s : LoopState) (probe : Option Probe) :
    (s.withProbe probe).handler = s.handler := by
  simp only [withProbe]
  split <;> rfl

@[simp] theorem withProbe_audit (s : LoopState) (probe : Option Probe) :
    (s.withProbe probe).audit = s.audit := by
  simp only [withProbe]
  split <;> rfl

@[simp] theorem withProbe_arrived (s : LoopState) (probe : Option Probe) :
    (s.withProbe probe).arrived = s.arrived := by
  simp only [withProbe]
  split <;> rfl

@[simp] theorem withProbe_ledger (s : LoopState) (probe : Option Probe) :
    (s.withProbe probe).ledger = s.ledger := by
  simp only [withProbe]
  split <;> rfl

@[simp] theorem withProbe_nextId (s : LoopState) (probe : Option Probe) :
    (s.withProbe probe).nextId = s.nextId := by
  simp only [withProbe]
  split <;> rfl

@[simp] theorem withProbe_clock (s : LoopState) (probe : Option Probe) :
    (s.withProbe probe).clock = s.clock := by
  simp only [withProbe]
  split <;> rfl

@[simp] theorem win_handler (s : LoopState) (conn : Conn) (now : Instant) :
    (s.win conn now).handler = s.handler := by
  simp only [win]
  split <;> rfl

@[simp] theorem win_audit (s : LoopState) (conn : Conn) (now : Instant) :
    (s.win conn now).audit = s.audit := by
  simp only [win]
  split <;> rfl

@[simp] theorem win_arrived (s : LoopState) (conn : Conn) (now : Instant) :
    (s.win conn now).arrived = s.arrived := by
  simp only [win]
  split <;> rfl

@[simp] theorem win_ledger (s : LoopState) (conn : Conn) (now : Instant) :
    (s.win conn now).ledger = s.ledger := by
  simp only [win]
  split <;> rfl

@[simp] theorem win_nextId (s : LoopState) (conn : Conn) (now : Instant) :
    (s.win conn now).nextId = s.nextId := by
  simp only [win]
  split <;> rfl

@[simp] theorem win_clock (s : LoopState) (conn : Conn) (now : Instant) :
    (s.win conn now).clock = s.clock := by
  simp only [win]
  split <;> rfl

/-- The candidate is gone before it authenticated; the guard is not told. -/
def dropProbe (s : LoopState) (conn : Conn) (failed : Bool) (now : Instant) : LoopState :=
  (s.withProbe none).close conn false failed (now.saturatingDurationSince conn.since) now

/-- A span has passed since a time. -/
def passed (span : Duration) (since now : Instant) : Bool :=
  decide (span ≤ now.saturatingDurationSince since)

/-- The candidate makes a step. -/
def stepCandidate (s : LoopState) (probe : Probe) (now : Instant) :
    CandidateEvent → Option LoopState
  | .beginDone =>
    if probe.stage = .x224 then some (s.withProbe (some { probe with stage := .tls })) else none
  | .tlsAccepted =>
    if probe.stage = .tls then some (s.withProbe (some { probe with stage := .credssp })) else none
  | .credsspDone =>
    if probe.stage = .credssp then
      some ((s.onAuthenticated probe.conn true now).win probe.conn now)
    else none
  | .failed =>
    some ((if probe.stage = .credssp then s.onAuthenticated probe.conn false now
      else s).dropProbe probe.conn true now)
  | .timedOut =>
    if passed candidateNegotiationTimeout probe.conn.since now then
      some (s.dropProbe probe.conn true now)
    else none
  | .abandoned =>
    match s.mode with
    | .ending _ ended _ =>
      if passed candidateHandoffGrace ended.time now then some (s.dropProbe probe.conn false now)
      else none
    | _ => none

/-- The mode after a connection has ended and the guard was told. -/
def Next.mode : Next → Option Mode
  | .nothing => some .waiting
  | .probing _ => none
  | .handedOver conn | .preempted conn => some (.admitted conn .finalize)

/-- A failed connection ends with an error, unless it failed in the TLS accept,
which ends it as if in good order. -/
def errored (served : Served) (ended : Ended) : Bool :=
  ended.failed && decide (served.stage ≠ .tls)

/-- Tell the guard that the served connection is over. -/
def settle (s : LoopState) (now : Instant) : Option LoopState :=
  match s.mode with
  | .ending served ended next =>
    (Next.mode next).bind fun mode =>
      (s.handler.onDisconnected served.conn.peer (now.saturatingDurationSince served.started)
        (errored served ended) now).map fun (records, handler) =>
          (({ s with
            handler
            mode
            recentlyEvicted := match next with
              | .preempted _ => s.recentlyEvicted
              | _ => none } : LoopState).log records served.conn.peer).close served.conn
            served.stage.authenticated ended.failed
            (ended.time.saturatingDurationSince served.started) now
  | _ => none

/-- The evicted connection is cancelled. -/
def evictionOver (s : LoopState) (now : Instant) : Option LoopState :=
  match s.mode with
  | .evicting _ _ since => if passed evictionGrace since now then s.endServed false now else none
  | _ => none

/-- One step of the loop at a time that does not run backwards. -/
def step (s : LoopState) (a : Action) : Option LoopState :=
  if a.now < s.clock then none
  else
    let s := { s with clock := a.now }
    match a.event with
    | .accept peer => s.accept peer a.now
    | .serve => s.serve a.now
    | .served event => s.served?.bind fun served => s.stepServed served a.now event
    | .candidate event => s.probe?.bind fun probe => s.stepCandidate probe a.now event
    | .evictionOver => s.evictionOver a.now
    | .settle => s.settle a.now

/-- What the guard may be told about a connection before it is over. -/
inductive Told (s : LoopState) (conn : Conn) (now : Instant) : LoopState → Prop
  | nothing : Told s conn now s
  | verdict (success : Bool) : Told s conn now (s.onAuthenticated conn success now)
  | identity (client : ClientFingerprint) : Told s conn now (s.onClientFingerprint conn client)

/-- What an arrival comes to. -/
inductive Arrival (s : LoopState) (peer : SocketAddr) (now : Instant) : LoopState → Prop
  /-- It was evicted a moment ago, and the guard is not asked. -/
  | bounced (recent : Option (IpAddr × Instant × Instant)) :
    Arrival s peer now { s with recentlyEvicted := recent }
  | rejected (recent : Option (IpAddr × Instant × Instant))
    (hasked : s.mode = .waiting ∨ (∃ served, s.mode = .serving served none) ∧
      (bouncedBack s.recentlyEvicted peer now).1 = false) :
    Arrival s peer now (onAccept { s with recentlyEvicted := recent } peer now).2
  /-- It is served next. -/
  | admitted (hmode : s.mode = .waiting) :
    Arrival s peer now
      ((s.onAccept peer now).2.admitPeer peer now fun conn => .admitted conn .x224)
  /-- It is negotiated with beside the session. -/
  | beside (served : Served) (recent : Option (IpAddr × Instant × Instant))
    (hmode : s.mode = .serving served none)
    (hfresh : (bouncedBack s.recentlyEvicted peer now).1 = false) :
    Arrival s peer now
      ((onAccept { s with recentlyEvicted := recent } peer now).2.admitPeer peer now
        fun conn => .serving served (some ⟨conn, .x224⟩))

/-- Which part of the loop makes a step, from the state whose clock has been set. -/
inductive StepCase (s : LoopState) (a : Action) (s' : LoopState) : Prop
  | accept (peer : SocketAddr) (hevent : a.event = .accept peer)
    (h : Arrival { s with clock := a.now } peer a.now s')
  | serve (conn : Conn) (stage : Stage) (hevent : a.event = .serve)
    (hmode : s.mode = .admitted conn stage)
    (h : s' = { s with clock := a.now, mode := .serving ⟨conn, stage, a.now⟩ none })
  | served (event : ServedEvent) (served : Served) (hevent : a.event = .served event)
    (hserved : s.served? = some served)
    (h : stepServed { s with clock := a.now } served a.now event = some s')
  | candidate (event : CandidateEvent) (probe : Probe) (hevent : a.event = .candidate event)
    (hprobe : s.probe? = some probe)
    (h : stepCandidate { s with clock := a.now } probe a.now event = some s')
  | evictionOver (hevent : a.event = .evictionOver)
    (h : endServed { s with clock := a.now } false a.now = some s')
  | settle (hevent : a.event = .settle) (h : settle { s with clock := a.now } a.now = some s')

variable {s s' : LoopState} {a : Action} {now : Instant}

/-- A connection goes on while it is served or winds down. -/
theorem goOn_cases {stage : Stage} (h : s.goOn stage = some s') :
    (∃ served probe, s.mode = .serving served probe ∧
      s' = { s with mode := .serving { served with stage } probe }) ∨
    ∃ served winner since, s.mode = .evicting served winner since ∧
      s' = { s with mode := .evicting { served with stage } winner since } := by
  simp only [goOn] at h
  split at h
  · next served probe hmode =>
    cases h
    exact .inl ⟨served, probe, hmode, rfl⟩
  · next served winner since hmode =>
    cases h
    exact .inr ⟨served, winner, since, hmode, rfl⟩
  · cases h

/-- A served connection ends beside a candidate or none, or is followed by the one
that evicted it. -/
theorem endServed_cases {failed : Bool} (h : s.endServed failed now = some s') :
    (∃ served probe, s.mode = .serving served probe ∧
      s' = { s with
        mode := .ending served ⟨failed, now⟩ (probe.elim .nothing .probing) }) ∨
    ∃ served winner since, s.mode = .evicting served winner since ∧
      s' = { s with mode := .ending served ⟨failed, now⟩ (.preempted winner) } := by
  simp only [endServed] at h
  split at h
  · next served probe hmode =>
    cases h
    exact .inl ⟨served, probe, hmode, rfl⟩
  · next served winner since hmode =>
    cases h
    exact .inr ⟨served, winner, since, hmode, rfl⟩
  · cases h

/-- A candidate is negotiated with beside a session, or beside the end of one. -/
theorem probe?_cases {probe : Probe} (h : s.probe? = some probe) :
    (∃ served, s.mode = .serving served (some probe)) ∨
      ∃ served ended, s.mode = .ending served ended (.probing probe) := by
  simp only [probe?] at h
  split at h
  · next served p hmode =>
    rw [h] at hmode
    exact .inl ⟨served, hmode⟩
  · next served ended p hmode =>
    cases h
    exact .inr ⟨served, ended, hmode⟩
  · cases h

/-- The guard may be told something, and the served connection goes on or ends. -/
theorem stepServed_cases {served : Served} {event : ServedEvent}
    (h : s.stepServed served now event = some s') :
    ∃ told, Told s served.conn now told ∧
      ((∃ stage, told.goOn stage = some s') ∨
        ∃ failed, told.endServed failed now = some s') := by
  cases event with
  | beginDone | tlsAccepted => exact ⟨s, .nothing, .inl ⟨_, (Option.ite_none_right_eq_some.mp h).2⟩⟩
  | credsspDone => exact ⟨_, .verdict true, .inl ⟨_, (Option.ite_none_right_eq_some.mp h).2⟩⟩
  | clientAccepted client =>
    exact ⟨_, .identity client, .inl ⟨_, (Option.ite_none_right_eq_some.mp h).2⟩⟩
  | failed =>
    simp only [stepServed] at h
    split at h
    · exact ⟨_, .verdict false, .inr ⟨true, h⟩⟩
    · exact ⟨s, .nothing, .inr ⟨true, h⟩⟩
  | finished => exact ⟨s, .nothing, .inr ⟨_, (Option.ite_none_right_eq_some.mp h).2⟩⟩

/-- The guard may be told something, and the candidate goes on, wins or is gone. -/
theorem stepCandidate_cases {probe : Probe} {event : CandidateEvent}
    (h : s.stepCandidate probe now event = some s') :
    ∃ told, Told s probe.conn now told ∧
      ((∃ stage, s' = told.withProbe (some { probe with stage })) ∨
        s' = told.win probe.conn now ∨
        ∃ failed, s' = told.dropProbe probe.conn failed now ∧
          (failed = true → event = .failed ∨ event = .timedOut)) := by
  cases event with
  | beginDone | tlsAccepted =>
    cases (Option.ite_none_right_eq_some.mp h).2
    exact ⟨s, .nothing, .inl ⟨_, rfl⟩⟩
  | credsspDone =>
    cases (Option.ite_none_right_eq_some.mp h).2
    exact ⟨_, .verdict true, .inr (.inl rfl)⟩
  | failed =>
    simp only [stepCandidate, Option.some.injEq] at h
    subst h
    split
    · exact ⟨_, .verdict false, .inr (.inr ⟨true, rfl, fun _ => .inl rfl⟩)⟩
    · exact ⟨s, .nothing, .inr (.inr ⟨true, rfl, fun _ => .inl rfl⟩)⟩
  | timedOut =>
    cases (Option.ite_none_right_eq_some.mp h).2
    exact ⟨s, .nothing, .inr (.inr ⟨true, rfl, fun _ => .inr rfl⟩)⟩
  | abandoned =>
    simp only [stepCandidate] at h
    split at h
    · cases (Option.ite_none_right_eq_some.mp h).2
      exact ⟨s, .nothing, .inr (.inr ⟨false, rfl, by simp⟩)⟩
    · cases h

/-- An arrival is one of the four. -/
theorem accept_cases {peer : SocketAddr} (h : s.accept peer now = some s') :
    Arrival s peer now s' := by
  simp only [accept] at h
  split at h
  · next hmode =>
    cases h
    split
    · exact .admitted hmode
    · exact .rejected s.recentlyEvicted (.inl hmode)
  · next served hmode =>
    split at h
    · cases h
      exact .bounced _
    · next hbounced =>
      have hfresh := Bool.eq_false_of_not_eq_true hbounced
      cases h
      split
      · exact .beside served _ hmode hfresh
      · exact .rejected _ (.inr ⟨⟨served, hmode⟩, hfresh⟩)
  · cases h

/-- The guard records the outcome, and the loop goes on as the end has left it. -/
theorem settle_cases (h : s.settle now = some s') :
    ∃ served ended next mode core, s.mode = .ending served ended next ∧
      Next.mode next = some mode ∧
      s.handler.core.recordOutcome now served.conn.peer.ip (classifyOutcome
        (errored served ended) (now.saturatingDurationSince served.started)
        s.handler.core.cfg.failfastWindow) = some core ∧
      s'.handler = { s.handler with
        core, liveSession := s.handler.liveSession.filter fun l =>
          decide (l.1 ≠ served.conn.peer.ip) } ∧
      s'.mode = mode ∧ s'.arrived = s.arrived ∧ s'.nextId = s.nextId ∧ s'.clock = s.clock ∧
      (∃ duration outcome, s'.audit =
        s.audit ++ [(.disconnect served.conn.peer duration outcome, served.conn.peer)]) ∧
      s'.ledger = ⟨served.conn, served.stage.authenticated, ended.failed,
        ended.time.saturatingDurationSince served.started, now⟩ :: s.ledger := by
  simp only [settle] at h
  split at h
  · next served ended next hmode =>
    simp only [Option.bind_eq_some_iff, Option.map_eq_some_iff] at h
    obtain ⟨mode, hnext, ⟨records, handler⟩, htold, rfl⟩ := h
    simp only [AuthGuardHandler.onDisconnected, Option.map_eq_some_iff] at htold
    obtain ⟨core, hcore, htold⟩ := htold
    cases htold
    exact ⟨served, ended, next, mode, core, hmode, hnext, hcore, rfl, rfl, rfl, rfl, rfl,
      ⟨_, _, rfl⟩, rfl⟩
  · cases h

/-- Every step is taken by one part of the loop, no earlier than the last. -/
theorem step_cases (h : s.step a = some s') : s.clock ≤ a.now ∧ StepCase s a s' := by
  simp only [step] at h
  split at h
  · cases h
  next hclock =>
  refine ⟨le_of_not_gt hclock, ?_⟩
  cases hevent : a.event with rw [hevent] at h
  | accept peer =>
    exact .accept peer hevent (accept_cases h)
  | serve =>
    simp only [serve] at h
    split at h
    · next conn stage hmode =>
      cases h
      exact .serve conn stage hevent hmode rfl
    · cases h
  | served event =>
    obtain ⟨served, hserved, h⟩ := Option.bind_eq_some_iff.mp h
    exact .served event served hevent hserved h
  | candidate event =>
    obtain ⟨probe, hprobe, h⟩ := Option.bind_eq_some_iff.mp h
    exact .candidate event probe hevent hprobe h
  | evictionOver =>
    simp only [evictionOver] at h
    split at h
    · exact .evictionOver hevent (Option.ite_none_right_eq_some.mp h).2
    · cases h
  | settle =>
    exact .settle hevent h

end LoopState
end Macrdp.AcceptLoop
