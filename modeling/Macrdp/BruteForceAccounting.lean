import Macrdp.AdmittedOnce
import Macrdp.GuardFailures

/-!
# What failed connections cost their address

The guard learns of a connection's end from the loop. Where it learns of every
failure before the credentials were accepted, and of no end that was none of the
connection's doing, an address that fails over and over is locked out.
-/

namespace Macrdp.BruteForceAccounting

open AuthGuard AuthGuardHistory NetAddress PlatformTime AcceptLoop StepSystem GuardFailures
  AdmittedOnce

/-- The address an end is accounted to. -/
def accountOf (e : Ending) : IpAddr := canonicalIp e.conn.peer.ip

/-- The connection failed within the window without having authenticated. -/
def failedFast (cfg : GuardConfig) (e : Ending) : Bool :=
  e.failed && !e.authenticated && decide (e.lasted < cfg.failfastWindow)

/-- The connection authenticated or lasted. -/
def mayReset (cfg : GuardConfig) (e : Ending) : Bool :=
  e.authenticated || decide (cfg.failfastWindow ≤ e.lasted)

/-- What one step may do to the failures of the addresses. -/
structure Accounts (cfg : GuardConfig) (s s' : LoopState) : Prop where
  /-- A failure within the window is one more failure of its address. -/
  counted : ∀ e, s'.ledger = e :: s.ledger → failedFast cfg e = true →
    (accountOf e).isLoopback = false →
    failuresOf s'.handler.core (accountOf e) =
      saturatingSucc (failuresOf s.handler.core (accountOf e))
  /-- Failures are forgotten only for a connection that authenticated or lasted. -/
  reset : ∀ a, failuresOf s'.handler.core a < failuresOf s.handler.core a →
    ∃ e, s'.ledger = e :: s.ledger ∧ accountOf e = a ∧ mayReset cfg e = true
  /-- Failures are added only for a connection that failed. -/
  grown : ∀ a, failuresOf s.handler.core a < failuresOf s'.handler.core a →
    ∃ e, s'.ledger = e :: s.ledger ∧ accountOf e = a ∧ e.failed = true

/-- When the connections of an address were gone that failed within the window in a
row, newest first. -/
def charged (cfg : GuardConfig) (ledger : List Ending) (a : IpAddr) : List Instant :=
  ((ledger.filter fun e => decide (accountOf e = a)).takeWhile (failedFast cfg)).map
    Ending.time

/-- The guard is asked about the arrival. -/
def asks (s : LoopState) (peer : SocketAddr) (now : Instant) : Bool :=
  match s.mode with
  | .waiting => true
  | .serving _ none => !(bouncedBack s.recentlyEvicted peer now).1
  | _ => false

/-- An address with the threshold of failures in a row is told that it is locked
out, until the base cooldown is over. -/
def LockedOut (cfg : GuardConfig) (s : LoopState) (act : Action) : Prop :=
  ∀ peer, act.event = .accept peer → asks s peer act.now = true →
    (canonicalIp peer.ip).isLoopback = false → 0 < cfg.failureThreshold →
    cfg.failureThreshold.toNat ≤ (charged cfg s.ledger (canonicalIp peer.ip)).length →
    (∀ last ∈ (charged cfg s.ledger (canonicalIp peer.ip)).head?,
      act.now.nanos < last.nanos + min cfg.baseCooldown.nanos cfg.maxCooldown.nanos) →
    ∃ retryAfter, (s.handler.core.decide act.now peer.ip).1 = .rejectCooldown retryAfter

/-- The end of a served connection that neither authenticated nor lasted: a failure
is not one of the TLS accept and is told within the window, and a connection that was
dropped has no failures to forget. -/
def SettlesFast (cfg : GuardConfig) (core : AuthGuardCore) (served : Served) (ended : Ended)
    (now : Instant) : Prop :=
  if ended.failed then
    served.stage ≠ .tls ∧ now.saturatingDurationSince served.started < cfg.failfastWindow
  else failuresOf core (canonicalIp served.conn.peer.ip) = 0

/-- The served connection whose end the guard is to be told. -/
def ending? (s : LoopState) : Option (Served × Ended) :=
  match s.mode with
  | .ending served ended _ => some (served, ended)
  | _ => none

/-- The step is none of those that the guard accounts wrongly: an arrival at a full
table drops no failures, no candidate from elsewhere fails within the window, and a
served connection from elsewhere that neither authenticated nor lasted ends as it
should. -/
def Counted (cfg : GuardConfig) (s : LoopState) (act : Action) : Prop :=
  match act.event with
  | .accept peer => asks s peer act.now = true → (canonicalIp peer.ip).isLoopback = false →
      KeepsFailures s.handler.core act.now
  | .candidate .failed | .candidate .timedOut => ∀ p ∈ s.probe?,
      (canonicalIp p.conn.peer.ip).isLoopback = false →
      cfg.failfastWindow ≤ act.now.saturatingDurationSince p.conn.since
  | .settle => ∀ x ∈ ending? s, (canonicalIp x.1.conn.peer.ip).isLoopback = false →
      x.1.stage.authenticated = false →
      x.2.time.saturatingDurationSince x.1.started < cfg.failfastWindow →
      SettlesFast cfg s.handler.core x.1 x.2 act.now
  | .serve | .served _ | .evictionOver | .candidate .beginDone | .candidate .tlsAccepted
  | .candidate .credsspDone | .candidate .abandoned => True

instance (cfg : GuardConfig) (core : AuthGuardCore) (served : Served) (ended : Ended)
    (now : Instant) : Decidable (SettlesFast cfg core served ended now) :=
  inferInstanceAs (Decidable (if ended.failed then
    served.stage ≠ .tls ∧ now.saturatingDurationSince served.started < cfg.failfastWindow
  else failuresOf core (canonicalIp served.conn.peer.ip) = 0))

instance (cfg : GuardConfig) (s : LoopState) : (act : Action) → Decidable (Counted cfg s act)
  | ⟨now, .accept peer⟩ =>
    inferInstanceAs (Decidable (asks s peer now = true →
      (canonicalIp peer.ip).isLoopback = false → KeepsFailures s.handler.core now))
  | ⟨now, .candidate .failed⟩ | ⟨now, .candidate .timedOut⟩ =>
    inferInstanceAs (Decidable (∀ p ∈ s.probe?, (canonicalIp p.conn.peer.ip).isLoopback = false →
      cfg.failfastWindow ≤ now.saturatingDurationSince p.conn.since))
  | ⟨now, .settle⟩ =>
    inferInstanceAs (Decidable (∀ x ∈ ending? s,
      (canonicalIp x.1.conn.peer.ip).isLoopback = false → x.1.stage.authenticated = false →
      x.2.time.saturatingDurationSince x.1.started < cfg.failfastWindow →
      SettlesFast cfg s.handler.core x.1 x.2 now))
  | ⟨_, .serve⟩ | ⟨_, .served _⟩ | ⟨_, .evictionOver⟩ | ⟨_, .candidate .beginDone⟩
  | ⟨_, .candidate .tlsAccepted⟩ | ⟨_, .candidate .credsspDone⟩ | ⟨_, .candidate .abandoned⟩ =>
    isTrue trivial

/-- What a step does to the guard's core and to the ends of connections. -/
inductive Recorded (s : LoopState) (act : Action) (s' : LoopState) : Prop where
  | quiet (hcore : s'.handler.core = s.handler.core) (hledger : s'.ledger = s.ledger)
  | asked (peer : SocketAddr) (hevent : act.event = .accept peer)
      (hasks : asks s peer act.now = true)
      (hcore : s'.handler.core = (s.handler.core.decide act.now peer.ip).2)
      (hledger : s'.ledger = s.ledger)
  | gone (probe : Probe) (failed : Bool) (hprobe : s.probe? = some probe)
      (hevent : failed = true → act.event = .candidate .failed ∨ act.event = .candidate .timedOut)
      (hcore : s'.handler.core = s.handler.core)
      (hledger : s'.ledger = ⟨probe.conn, false, failed,
        act.now.saturatingDurationSince probe.conn.since, act.now⟩ :: s.ledger)
  | settled (served : Served) (ended : Ended) (next : Next) (hevent : act.event = .settle)
      (hmode : s.mode = .ending served ended next)
      (hcore : s.handler.core.recordOutcome act.now served.conn.peer.ip
        (classifyOutcome (LoopState.errored served ended)
          (act.now.saturatingDurationSince served.started) s.handler.core.cfg.failfastWindow) =
        some s'.handler.core)
      (hledger : s'.ledger = ⟨served.conn, served.stage.authenticated, ended.failed,
        ended.time.saturatingDurationSince served.started, act.now⟩ :: s.ledger)

variable {cfg : GuardConfig} {s s' : LoopState} {act : Action} {core core' : AuthGuardCore}
  {now : Instant}

/-- Verdicts do not reach the core. -/
theorem core_onAuthenticated (s : LoopState) (conn : Conn) (success : Bool) (now : Instant) :
    (s.onAuthenticated conn success now).handler.core = s.handler.core := by
  simp only [LoopState.onAuthenticated, AuthGuardHandler.onAuthenticated, LoopState.log]
  split <;> rfl

/-- Nothing the guard is told of a connection before it is over is recorded. -/
theorem quiet_told {conn : Conn} {told : LoopState} (h : s.Told conn now told) :
    told.handler.core = s.handler.core ∧ told.ledger = s.ledger ∧ told.clock = s.clock ∧
      told.probe? = s.probe? := by
  cases h with
  | nothing | identity client => exact ⟨rfl, rfl, rfl, rfl⟩
  | verdict success => exact ⟨core_onAuthenticated s conn success now, rfl, rfl, rfl⟩

/-- The end of a served connection is recorded when it is settled. -/
theorem quiet_endServed {failed : Bool} (h : s.endServed failed now = some s') :
    s'.handler.core = s.handler.core ∧ s'.ledger = s.ledger ∧ s'.clock = s.clock := by
  rcases LoopState.endServed_cases h with ⟨x, probe, hmode, rfl⟩ | ⟨x, winner, since, hmode, rfl⟩
  · exact ⟨rfl, rfl, rfl⟩
  · exact ⟨rfl, rfl, rfl⟩

/-- Nothing the served connection does before it is over is recorded. -/
theorem quiet_stepServed {served : Served} {event : ServedEvent}
    (h : s.stepServed served now event = some s') :
    s'.handler.core = s.handler.core ∧ s'.ledger = s.ledger ∧ s'.clock = s.clock := by
  obtain ⟨told, htold, hcase⟩ := LoopState.stepServed_cases h
  obtain ⟨hcore, hledger, hclock, -⟩ := quiet_told htold
  rw [← hcore, ← hledger, ← hclock]
  rcases hcase with ⟨stage, hgo⟩ | ⟨failed, hend⟩
  · rcases LoopState.goOn_cases hgo with ⟨x, probe, hmode, rfl⟩ | ⟨x, winner, since, hmode, rfl⟩
    · exact ⟨rfl, rfl, rfl⟩
    · exact ⟨rfl, rfl, rfl⟩
  · exact quiet_endServed hend

/-- A candidate's end, with or without a verdict, is not told to the core. -/
theorem recorded_stepCandidate {probe : Probe} {event : CandidateEvent}
    (hevent : act.event = .candidate event) (hprobe : s.probe? = some probe)
    (h : s.stepCandidate probe act.now event = some s') :
    Recorded s act s' ∧ s'.clock = s.clock := by
  obtain ⟨told, htold, hcase⟩ := LoopState.stepCandidate_cases h
  obtain ⟨hcore, hledger, hclock, -⟩ := quiet_told htold
  rcases hcase with ⟨stage, rfl⟩ | rfl | ⟨failed, rfl, hfailed⟩
  · exact ⟨.quiet (by simp [hcore]) (by simp [hledger]), by simp [hclock]⟩
  · exact ⟨.quiet (by simp [hcore]) (by simp [hledger]), by simp [hclock]⟩
  · refine ⟨.gone probe failed hprobe ?_ ?_ ?_, ?_⟩
    · intro hgone
      rw [hevent, Event.candidate.injEq, Event.candidate.injEq]
      exact hfailed hgone
    · exact (congrArg AuthGuardHandler.core (LoopState.withProbe_handler told none)).trans hcore
    · rw [LoopState.dropProbe, LoopState.close, LoopState.withProbe_ledger, hledger]
    · exact (LoopState.withProbe_clock told none).trans hclock

/-- Asking the guard is all that an arrival does to its core. -/
theorem core_onAccept (s : LoopState) (peer : SocketAddr) (now : Instant) :
    (s.onAccept peer now).2.handler.core = (s.handler.core.decide now peer.ip).2 := by
  simp only [LoopState.onAccept, AuthGuardHandler.onAccept, LoopState.log]
  split <;> rfl

theorem recorded_accept {peer : SocketAddr} (hevent : act.event = .accept peer)
    (h : s.Arrival peer act.now s') : Recorded s act s' ∧ s'.clock = s.clock := by
  cases h with
  | bounced recent => exact ⟨.quiet rfl rfl, rfl⟩
  | rejected recent hasked =>
    refine ⟨.asked peer hevent ?_ (core_onAccept _ peer act.now) rfl, rfl⟩
    rcases hasked with hmode | ⟨⟨served, hmode⟩, hfresh⟩
    · simp only [asks, hmode]
    · simp only [asks, hmode, hfresh, Bool.not_false]
  | admitted hmode =>
    exact ⟨.asked peer hevent (by simp only [asks, hmode]) (core_onAccept s peer act.now) rfl, rfl⟩
  | beside served recent hmode hfresh =>
    exact ⟨.asked peer hevent (by simp only [asks, hmode, hfresh, Bool.not_false])
      (core_onAccept _ peer act.now) rfl, rfl⟩

theorem recorded_settle (hevent : act.event = .settle) (h : s.settle act.now = some s') :
    Recorded s act s' ∧ s'.clock = s.clock := by
  obtain ⟨served, ended, next, mode, core, hmode, -, hcore, hhandler, -, -, -, hclock, -,
    hledger⟩ := LoopState.settle_cases h
  refine ⟨.settled served ended next hevent hmode ?_ hledger, hclock⟩
  rw [hhandler]
  exact hcore

/-- Every step does one of the four things to the core and the ends. -/
theorem recorded_step (h : s.step act = some s') :
    Recorded s act s' ∧ s.clock ≤ act.now ∧ s'.clock = act.now := by
  obtain ⟨hclock, hcase⟩ := LoopState.step_cases h
  -- the step is taken in the state whose clock has been set
  have hset : ∀ {s' : LoopState}, Recorded { s with clock := act.now } act s' ∧
      s'.clock = act.now → Recorded s act s' ∧ s.clock ≤ act.now ∧ s'.clock = act.now := by
    rintro s' ⟨hrecorded, htime⟩
    refine ⟨?_, hclock, htime⟩
    cases hrecorded with
    | quiet hcore hledger => exact .quiet hcore hledger
    | asked peer hevent hasks hcore hledger => exact .asked peer hevent hasks hcore hledger
    | gone probe failed hprobe hevent hcore hledger =>
      exact .gone probe failed hprobe hevent hcore hledger
    | settled served ended next hevent hmode hcore hledger =>
      exact .settled served ended next hevent hmode hcore hledger
  cases hcase with
  | accept peer hevent harrival => exact hset (recorded_accept hevent harrival)
  | serve conn stage hevent hmode hserve =>
    subst hserve
    exact hset ⟨.quiet rfl rfl, rfl⟩
  | served event served hevent hserved hstep =>
    obtain ⟨hcore, hledger, htime⟩ := quiet_stepServed hstep
    exact hset ⟨.quiet hcore hledger, htime⟩
  | candidate event probe hevent hprobe hstep =>
    exact hset (recorded_stepCandidate hevent hprobe hstep)
  | evictionOver hevent hend =>
    obtain ⟨hcore, hledger, htime⟩ := quiet_endServed hend
    exact hset ⟨.quiet hcore hledger, htime⟩
  | settle hevent hsettle => exact hset (recorded_settle hevent hsettle)

/-- A step that changes no failures and ends no connection accounts for nothing. -/
theorem Accounts.of_kept (hledger : s'.ledger = s.ledger)
    (hkept : ∀ a, failuresOf s'.handler.core a = failuresOf s.handler.core a) :
    Accounts cfg s s' where
  counted e he := by
    rw [hledger] at he
    exact absurd he.symm (List.cons_ne_self e s.ledger)
  reset a hlt := by
    rw [hkept a] at hlt
    exact absurd hlt (UInt32.lt_irrefl _)
  grown a hlt := by
    rw [hkept a] at hlt
    exact absurd hlt (UInt32.lt_irrefl _)

/-- The outcome of a served connection from elsewhere that failed within the window is
a failure if it is settled fast. -/
theorem outcome_of_settlesFast {served : Served} {ended : Ended}
    (hsettles : SettlesFast cfg core served ended now) (hfailed : ended.failed = true) :
    classifyOutcome (LoopState.errored served ended)
      (now.saturatingDurationSince served.started) cfg.failfastWindow = .failure := by
  rw [SettlesFast, if_pos hfailed] at hsettles
  have herrored : LoopState.errored served ended = true := by
    simp [LoopState.errored, hfailed, hsettles.1]
  rw [classifyOutcome, if_pos ⟨herrored, hsettles.2⟩]

/-- The end of a candidate accounts for nothing, and owes nothing if it was slow or
came from here. -/
theorem accounts_gone {e : Ending} (hcore : s'.handler.core = s.handler.core)
    (hledger : s'.ledger = e :: s.ledger)
    (howed : failedFast cfg e = true → (accountOf e).isLoopback = true) : Accounts cfg s s' where
  counted e' he hfast hip := by
    rw [hledger, List.cons.injEq] at he
    obtain ⟨rfl, -⟩ := he
    rw [howed hfast] at hip
    cases hip
  reset a hlt := by
    rw [hcore] at hlt
    exact absurd hlt (UInt32.lt_irrefl _)
  grown a hlt := by
    rw [hcore] at hlt
    exact absurd hlt (UInt32.lt_irrefl _)

/-- The end of a served connection from elsewhere accounts for what it may. -/
theorem accounts_settled {served : Served} {ended : Ended} {e : Ending}
    (he : e = ⟨served.conn, served.stage.authenticated, ended.failed,
      ended.time.saturatingDurationSince served.started, now⟩)
    (hledger : s'.ledger = e :: s.ledger)
    (hsettles : served.stage.authenticated = false →
      ended.time.saturatingDurationSince served.started < cfg.failfastWindow →
      SettlesFast cfg s.handler.core served ended now)
    (hafter : ∀ a, failuresOf s'.handler.core a = if a = accountOf e then
      failuresAfter (classifyOutcome (LoopState.errored served ended)
        (now.saturatingDurationSince served.started) cfg.failfastWindow)
        (failuresOf s.handler.core a) else failuresOf s.handler.core a) :
    Accounts cfg s s' where
  counted e' he' hfast _ := by
    rw [hledger, List.cons.injEq] at he'
    obtain ⟨rfl, -⟩ := he'
    rw [he] at hfast
    simp only [failedFast, Bool.and_eq_true, Bool.not_eq_true', decide_eq_true_eq] at hfast
    obtain ⟨⟨hfailed, hauth⟩, hlt⟩ := hfast
    rw [hafter, if_pos rfl, outcome_of_settlesFast (hsettles hauth hlt) hfailed]
    rfl
  reset a hlt := by
    rw [hafter] at hlt
    split at hlt
    · next heq =>
      refine ⟨e, hledger, heq.symm, ?_⟩
      by_contra hmay
      rw [he] at hmay
      simp only [mayReset, Bool.or_eq_true, decide_eq_true_eq, not_or, not_le,
        Bool.not_eq_true] at hmay
      have hfast := hsettles hmay.1 hmay.2
      cases hfailed : ended.failed with
      | true =>
        rw [outcome_of_settlesFast hfast hfailed] at hlt
        exact absurd hlt (UInt32.not_lt.mpr (le_saturatingSucc _))
      | false =>
        rw [SettlesFast, hfailed, if_neg Bool.false_ne_true] at hfast
        rw [heq, he] at hlt
        rw [accountOf, hfast] at hlt
        exact absurd hlt UInt32.not_lt_zero
    · exact absurd hlt (UInt32.lt_irrefl _)
  grown a hlt := by
    rw [hafter] at hlt
    split at hlt
    · next heq =>
      refine ⟨e, hledger, heq.symm, ?_⟩
      rw [he]
      cases hfailed : ended.failed with
      | true => rfl
      | false =>
        have hsuccess : classifyOutcome (LoopState.errored served ended)
            (now.saturatingDurationSince served.started) cfg.failfastWindow = .success := by
          simp [classifyOutcome, LoopState.errored, hfailed]
        rw [hsuccess] at hlt
        exact absurd hlt UInt32.not_lt_zero
    · exact absurd hlt (UInt32.lt_irrefl _)

/-- A candidate from elsewhere that fails in a step accounted rightly was slow. -/
theorem owes_nothing {probe : Probe} {failed : Bool} (hcounted : Counted cfg s act)
    (hprobe : s.probe? = some probe)
    (hevent : failed = true →
      act.event = .candidate .failed ∨ act.event = .candidate .timedOut)
    (hfast : failedFast cfg ⟨probe.conn, false, failed,
      act.now.saturatingDurationSince probe.conn.since, act.now⟩ = true) :
    (canonicalIp probe.conn.peer.ip).isLoopback = true := by
  by_contra hip
  simp only [failedFast, Bool.and_eq_true, decide_eq_true_eq] at hfast
  obtain ⟨⟨hfailed, -⟩, hlt⟩ := hfast
  have hslow : cfg.failfastWindow ≤ act.now.saturatingDurationSince probe.conn.since := by
    rcases hevent hfailed with hevent | hevent
    all_goals
      simp only [Counted, hevent] at hcounted
      exact hcounted probe hprobe (Bool.eq_false_of_not_eq_true hip)
  exact absurd hlt (not_lt_of_ge hslow)

/-- A step the guard accounts rightly does to the failures what it may. -/
theorem accounts_step (hcfg : s.handler.core.cfg = cfg) (hcounted : Counted cfg s act)
    (hrecorded : Recorded s act s') : Accounts cfg s s' := by
  cases hrecorded with
  | quiet hcore hledger => exact .of_kept hledger fun a => by rw [hcore]
  | asked peer hevent hasks hcore hledger =>
    simp only [Counted, hevent] at hcounted
    refine .of_kept hledger fun a => ?_
    rw [hcore, failuresOf_asked (hcounted hasks)]
  | gone probe failed hprobe hevent hcore hledger =>
    exact accounts_gone hcore hledger (owes_nothing hcounted hprobe hevent)
  | settled served ended next hevent hmode hcore hledger =>
    simp only [Counted, hevent, ending?, hmode] at hcounted
    have hcounted := hcounted _ rfl
    rw [hcfg] at hcore
    cases hip : (canonicalIp served.conn.peer.ip).isLoopback with
    | true =>
      exact accounts_gone (recordOutcome_loopback hcore hip) hledger fun _ => hip
    | false =>
      exact accounts_settled rfl hledger (hcounted hip) (failuresOf_recordOutcome hcore hip)

/-- What the guard holds of an address with failures in a row: as many counted, and
a lockout once there are enough of them. -/
structure Tracks (cfg : GuardConfig) (s : LoopState) : Prop where
  config : s.handler.core.cfg = cfg
  count : ∀ a : IpAddr, a.isLoopback = false →
    saturated (charged cfg s.ledger a).length ≤ (failuresOf s.handler.core a).toNat
  locked : ∀ a : IpAddr, a.isLoopback = false → 0 < cfg.failureThreshold →
    cfg.failureThreshold.toNat ≤ (charged cfg s.ledger a).length →
    ∀ last ∈ (charged cfg s.ledger a).head?,
      s.clock.nanos < last.nanos + min cfg.baseCooldown.nanos cfg.maxCooldown.nanos →
      ∃ entry, s.handler.core.ips.lookup a = some entry ∧ ∃ expiry,
        entry.cooldownUntil = some expiry ∧
        last.nanos + min cfg.baseCooldown.nanos cfg.maxCooldown.nanos ≤ expiry.nanos

/-- An end of another address, or one that breaks the row. -/
theorem charged_cons {e : Ending} {ledger : List Ending} {a : IpAddr} :
    charged cfg (e :: ledger) a =
      if accountOf e = a then
        if failedFast cfg e then e.time :: charged cfg ledger a else []
      else charged cfg ledger a := by
  simp only [charged, List.filter_cons]
  by_cases ha : accountOf e = a
  · by_cases hfast : failedFast cfg e = true
    · simp [ha, hfast]
    · simp [ha, hfast]
  · simp [ha]

/-- Time passes. -/
theorem Tracks.later (h : Tracks cfg s) (hcore : s'.handler.core = s.handler.core)
    (hledger : s'.ledger = s.ledger) (hclock : s.clock ≤ s'.clock) : Tracks cfg s' where
  config := by rw [hcore, h.config]
  count := by
    rw [hcore, hledger]
    exact h.count
  locked a ha hthreshold hrow last hlast hlt := by
    rw [hcore]
    rw [hledger] at hrow hlast
    exact h.locked a ha hthreshold hrow last hlast ((Instant.le_iff.mp hclock).trans_lt hlt)

/-- An address with a row of failures has some. -/
theorem Tracks.pos (h : Tracks cfg s) {a : IpAddr} (ha : a.isLoopback = false)
    (hthreshold : 0 < cfg.failureThreshold)
    (hrow : cfg.failureThreshold.toNat ≤ (charged cfg s.ledger a).length) :
    failuresOf s.handler.core a ≠ 0 := by
  intro hzero
  have hcount := h.count a ha
  have hpos := UInt32.lt_iff_toNat_lt.mp hthreshold
  rw [hzero] at hcount
  simp only [saturated, UInt32.toNat_zero] at hcount hpos
  omega

/-- Asking the guard keeps what it holds. -/
theorem tracks_asked {ip : IpAddr} (h : Tracks cfg s)
    (hkeeps : (canonicalIp ip).isLoopback = false → KeepsFailures s.handler.core now)
    (hcore : s'.handler.core = (s.handler.core.decide now ip).2) (hledger : s'.ledger = s.ledger)
    (hclock : s.clock ≤ now) (htime : s'.clock = now) : Tracks cfg s' where
  config := by rw [hcore, cfg_decide, h.config]
  count := by
    intro a ha
    rw [hcore, hledger, failuresOf_asked hkeeps]
    exact h.count a ha
  locked a ha hthreshold hrow last hlast hlt := by
    rw [hledger] at hrow hlast
    rw [htime] at hlt
    obtain ⟨entry, hentry, expiry, hexpiry, hle⟩ := h.locked a ha hthreshold hrow last hlast
      ((Instant.le_iff.mp hclock).trans_lt hlt)
    have hbefore : now < expiry := Instant.lt_iff.mpr (hlt.trans_le hle)
    have hconfig : 0 < s.handler.core.cfg.failureThreshold := by rwa [h.config]
    obtain ⟨⟨kept, hkept, hkeptExpiry⟩, -⟩ :=
      decide_locked hkeeps hconfig hentry hexpiry (h.pos ha hthreshold hrow) hbefore
    rw [hcore]
    exact ⟨kept, hkept, expiry, hkeptExpiry, hle⟩

/-- An end that no outcome is recorded for keeps what the guard holds, if it owes
nothing. -/
theorem tracks_gone {e : Ending} (h : Tracks cfg s) (hcore : s'.handler.core = s.handler.core)
    (hledger : s'.ledger = e :: s.ledger)
    (howed : failedFast cfg e = true → (accountOf e).isLoopback = true)
    (hclock : s.clock ≤ s'.clock) : Tracks cfg s' := by
  have hrow : ∀ a : IpAddr, a.isLoopback = false →
      charged cfg s'.ledger a = charged cfg s.ledger a ∨ charged cfg s'.ledger a = [] := by
    intro a ha
    rw [hledger, charged_cons]
    by_cases heq : accountOf e = a
    · rw [if_pos heq]
      split
      · next hfast =>
        rw [← heq, howed hfast] at ha
        cases ha
      · exact .inr rfl
    · exact .inl (if_neg heq)
  refine ⟨by rw [hcore, h.config], ?_, ?_⟩
  · intro a ha
    rw [hcore]
    rcases hrow a ha with heq | hnil
    · rw [heq]
      exact h.count a ha
    · rw [hnil]
      exact Nat.zero_le _
  · intro a ha hthreshold hreached last hlast hlt
    rw [hcore]
    rcases hrow a ha with heq | hnil
    · rw [heq] at hreached hlast
      exact h.locked a ha hthreshold hreached last hlast
        ((Instant.le_iff.mp hclock).trans_lt hlt)
    · rw [hnil] at hlast
      cases hlast

/-- The end of a served connection from elsewhere keeps what the guard holds: one that
failed within the window adds to the row and may lock its address out. -/
theorem tracks_settled {ip : IpAddr} {outcome : Outcome} {e : Ending} (h : Tracks cfg s)
    (hcore : s.handler.core.recordOutcome now ip outcome = some s'.handler.core)
    (hledger : s'.ledger = e :: s.ledger) (hip : (canonicalIp ip).isLoopback = false)
    (haccount : accountOf e = canonicalIp ip) (hend : e.time = now)
    (houtcome : failedFast cfg e = true → outcome = .failure)
    (hclock : s.clock ≤ s'.clock) : Tracks cfg s' := by
  have hafter := failuresOf_recordOutcome hcore hip
  refine ⟨by rw [cfg_recordOutcome hcore, h.config], ?_, ?_⟩
  · intro a ha
    rw [hafter, hledger, charged_cons, haccount]
    by_cases heq : canonicalIp ip = a
    · rw [if_pos heq, if_pos heq.symm]
      split
      · next hfast =>
        have hcount := h.count a ha
        rw [houtcome hfast, failuresAfter, saturatingSucc_toNat, List.length_cons]
        simp only [saturated] at hcount ⊢
        omega
      · exact Nat.zero_le _
    · rw [if_neg heq, if_neg (Ne.symm heq)]
      exact h.count a ha
  · intro a ha hthreshold hreached last hlast hlt
    rw [hledger, charged_cons, haccount] at hreached hlast
    by_cases heq : canonicalIp ip = a
    · rw [if_pos heq] at hreached hlast
      split at hlast
      · next hfast =>
        cases hlast
        rw [if_pos hfast, List.length_cons] at hreached
        rw [houtcome hfast] at hcore
        have hcount := h.count a ha
        have hbound := cfg.failureThreshold.toNat_lt
        rw [← h.config, hend, ← heq]
        refine recordOutcome_locked hcore hip (by rwa [h.config]) ?_
        rw [h.config, UInt32.le_iff_toNat_le, saturatingSucc_toNat, heq]
        simp only [saturated] at hcount ⊢
        omega
      · cases hlast
    · rw [if_neg heq] at hreached hlast
      rw [lookup_recordOutcome_ne hcore (Ne.symm heq)]
      exact h.locked a ha hthreshold hreached last hlast
        ((Instant.le_iff.mp hclock).trans_lt hlt)

/-- A step the guard accounts rightly keeps what it holds. -/
theorem tracks_step (h : Tracks cfg s) (hcounted : Counted cfg s act)
    (hrecorded : Recorded s act s') (hclock : s.clock ≤ act.now) (htime : s'.clock = act.now) :
    Tracks cfg s' := by
  have hlater : s.clock ≤ s'.clock := by rwa [htime]
  cases hrecorded with
  | quiet hcore hledger => exact h.later hcore hledger hlater
  | asked peer hevent hasks hcore hledger =>
    simp only [Counted, hevent] at hcounted
    exact tracks_asked h (hcounted hasks) hcore hledger hclock htime
  | gone probe failed hprobe hevent hcore hledger =>
    exact tracks_gone h hcore hledger (owes_nothing hcounted hprobe hevent) hlater
  | settled served ended next hevent hmode hcore hledger =>
    simp only [Counted, hevent, ending?, hmode] at hcounted
    have hcounted := hcounted _ rfl
    rw [h.config] at hcore
    cases hip : (canonicalIp served.conn.peer.ip).isLoopback with
    | true =>
      exact tracks_gone h (recordOutcome_loopback hcore hip) hledger (fun _ => hip) hlater
    | false =>
      refine tracks_settled h hcore hledger hip rfl rfl (fun hfast => ?_) hlater
      simp only [failedFast, Bool.and_eq_true, Bool.not_eq_true', decide_eq_true_eq] at hfast
      obtain ⟨⟨hfailed, hauth⟩, hlt⟩ := hfast
      exact outcome_of_settlesFast (hcounted hip hauth hlt) hfailed

/-- An address with enough failures in a row is told that it is locked out. -/
theorem lockedOut_of_tracks (h : Tracks cfg s) (hcounted : Counted cfg s act)
    (hclock : s.clock ≤ act.now) : LockedOut cfg s act := by
  intro peer hevent hasks hip hthreshold hreached hlast
  simp only [Counted, hevent] at hcounted
  obtain ⟨last, older, hrow⟩ := List.exists_cons_of_length_pos
    ((UInt32.lt_iff_toNat_lt.mp hthreshold).trans_le hreached)
  have hlt := hlast last (by rw [hrow]; rfl)
  obtain ⟨entry, hentry, expiry, hexpiry, hle⟩ := h.locked _ hip hthreshold hreached last
    (by rw [hrow]; rfl) ((Instant.le_iff.mp hclock).trans_lt hlt)
  have hconfig : 0 < s.handler.core.cfg.failureThreshold := by rwa [h.config]
  exact (decide_locked (hcounted hasks) hconfig hentry hexpiry (h.pos hip hthreshold hreached)
    (Instant.lt_iff.mpr (hlt.trans_le hle))).2 hip rfl

/-- In every run whose steps the guard accounts rightly, each failure before the
credentials were accepted and within the window is one more failure of its address,
whether the connection was served or a candidate; failures are forgotten only for a
connection that authenticated or lasted; an address with the threshold of failures in
a row is locked out; and every admitted connection is alive or has ended once. -/
theorem accounting_complete {cfg : GuardConfig} {start : Instant} {acts : List Action}
    {act : Action} {s s' : LoopState}
    (hmeets : Meets LoopState.step (Counted cfg) (.init cfg start) (acts ++ [act]))
    (hrun : run LoopState.step (.init cfg start) acts = some s) (hstep : s.step act = some s') :
    Accounts cfg s s' ∧ LockedOut cfg s act ∧ OnceEach s' := by
  obtain ⟨hbefore, hlast⟩ := (meets_append acts [act] _).mp hmeets
  have hcounted : Counted cfg s act := (hlast s hrun).1
  have hinit : Tracks cfg (.init cfg start) ∧ OnceEach (.init cfg start) :=
    ⟨⟨rfl, fun _ _ => Nat.zero_le _, by rintro a - - - last ⟨⟩⟩, List.Perm.refl _⟩
  have hinv : Tracks cfg s ∧ OnceEach s := by
    refine run_invariant (fun s => Tracks cfg s ∧ OnceEach s) ?_ hinit hbefore hrun
    rintro s a s' ⟨htracks, honce⟩ hcounted hstep
    obtain ⟨hrecorded, hclock, htime⟩ := recorded_step hstep
    exact ⟨tracks_step htracks hcounted hrecorded hclock htime, onceEach_step honce hstep⟩
  obtain ⟨hrecorded, hclock, -⟩ := recorded_step hstep
  exact ⟨accounts_step hinv.1.config hcounted hrecorded,
    lockedOut_of_tracks hinv.1 hcounted hclock, onceEach_step hinv.2 hstep⟩

/-- Thresholds of a guard that locks out after two failures. -/
def sampleConfig : GuardConfig := ⟨.fromSecs 60, 10, 2, .fromSecs 3, .fromSecs 30, .fromSecs 900⟩

/-- A peer that guesses passwords. -/
def guesser : SocketAddr := ⟨.v4 ⟨203, 0, 113, 9⟩, 40000⟩

/-- A connection of the guesser is served and its credentials are rejected, all within
a second. -/
def rejected (secs : UInt32) : List Action :=
  [.accept guesser, .serve, .served .beginDone, .served .tlsAccepted, .served .failed,
    .settle].map fun event => ⟨.fromSecs secs, event⟩

/-- The third try of a guesser is told that it is locked out. -/
theorem accounting_complete_lockout :
    ∃ s, run LoopState.step (.init sampleConfig (.fromSecs 0)) (rejected 1 ++ rejected 2) = some s ∧
      ∃ retryAfter, (s.handler.core.decide (.fromSecs 3) guesser.ip).1 =
        .rejectCooldown retryAfter := by
  have hmeets : meetsBool LoopState.step (fun s a => decide (Counted sampleConfig s a))
      (.init sampleConfig (.fromSecs 0))
      ((rejected 1 ++ rejected 2) ++ [⟨.fromSecs 3, .accept guesser⟩]) = true := by
    decide +kernel
  have hcounted := meetsBool_iff.mp hmeets
  simp only [decide_eq_true_eq] at hcounted
  have hrun : (run LoopState.step (.init sampleConfig (.fromSecs 0))
      (rejected 1 ++ rejected 2)).any
      (fun s => (s.step ⟨.fromSecs 3, .accept guesser⟩).isSome &&
        asks s guesser (.fromSecs 3) &&
        decide (charged sampleConfig s.ledger (canonicalIp guesser.ip) =
          [.fromSecs 2, .fromSecs 1])) = true := by
    decide +kernel
  obtain ⟨s, hs, hfacts⟩ := (Option.any_eq_true _ _).mp hrun
  simp only [Bool.and_eq_true, decide_eq_true_eq] at hfacts
  obtain ⟨⟨hstep, hasks⟩, hrow⟩ := hfacts
  obtain ⟨s', hs'⟩ := Option.isSome_iff_exists.mp hstep
  obtain ⟨-, hlocked, -⟩ := accounting_complete hcounted hs hs'
  refine ⟨s, hs, hlocked guesser rfl hasks (by decide) (by decide) ?_ ?_⟩
  · rw [hrow]
    decide
  · rw [hrow]
    rintro last ⟨⟩
    decide

/-- A session is live, and the guesser's candidate is about to be rejected. -/
def besideSession : List Action :=
  [.accept ⟨.v4 ⟨198, 51, 100, 7⟩, 50000⟩, .serve, .served .beginDone, .served .tlsAccepted,
    .served .credsspDone, .accept guesser, .candidate .beginDone, .candidate .tlsAccepted].map
    fun event => ⟨.fromSecs 1, event⟩

/-- The rejected candidate costs its address nothing. -/
theorem not_accounting_candidate :
    ¬∀ (cfg : GuardConfig) (start : Instant) (acts : List Action) (act : Action)
      (s s' : LoopState), run LoopState.step (.init cfg start) acts = some s →
        s.step act = some s' → Accounts cfg s s' := by
  intro h
  have hrun : (run LoopState.step (.init sampleConfig (.fromSecs 0)) besideSession).any
      (fun s => (s.step ⟨.fromSecs 1, .candidate .failed⟩).any fun s' =>
        decide (s'.ledger.map (fun e => (accountOf e, failedFast sampleConfig e)) =
            (guesser.ip, true) :: s.ledger.map (fun e => (accountOf e, failedFast sampleConfig e)) ∧
          failuresOf s'.handler.core guesser.ip ≠
            saturatingSucc (failuresOf s.handler.core guesser.ip))) = true := by
    decide +kernel
  obtain ⟨s, hs, hstep⟩ := (Option.any_eq_true _ _).mp hrun
  obtain ⟨s', hs', hfacts⟩ := (Option.any_eq_true _ _).mp hstep
  obtain ⟨hledger, hfailures⟩ := of_decide_eq_true hfacts
  have haccounts := h _ _ _ _ s s' hs hs'
  obtain ⟨hrecorded, -, -⟩ := recorded_step hs'
  cases hrecorded with
  | quiet hcore hkept =>
    rw [hkept] at hledger
    exact absurd hledger.symm (List.cons_ne_self _ _)
  | asked peer hevent => cases hevent
  | gone probe failed hprobe hevent hcore hgone =>
    rw [hgone, List.map_cons, List.cons.injEq, Prod.mk.injEq] at hledger
    obtain ⟨⟨haccount, hfast⟩, -⟩ := hledger
    have hcounted := haccounts.counted _ hgone hfast (by rw [haccount]; decide)
    rw [haccount] at hcounted
    exact hfailures hcounted
  | settled served ended next hevent => cases hevent

end Macrdp.BruteForceAccounting
