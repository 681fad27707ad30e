import Macrdp.AcceptLoop

/-!
# Whom the audit log blames

The hooks for a verdict and for a claimed identity name no peer, and the guard
takes the one it was asked about last. The records are about the right peer, and
the live session is one that authenticated, exactly when nobody else has arrived
since the connection that reports.
-/

namespace Macrdp.AuditAttribution

open AuthGuard NetAddress PlatformTime AcceptLoop StepSystem

/-- The peer a verdict or an identity is recorded for. -/
def verdictPeer : AuditRecord → Option SocketAddr
  | .auth peer _ | .fingerprint peer _ => some peer
  | .accept _ | .reject _ _ | .disconnect _ _ _ => none

/-- The connections that authenticated and whose end the guard was not told. -/
def authenticated : Mode → List Conn
  | .waiting => []
  | .admitted conn stage => if stage.authenticated then [conn] else []
  | .serving served _ => if served.stage.authenticated then [served.conn] else []
  | .evicting served winner _ =>
    (if served.stage.authenticated then [served.conn] else []) ++ [winner]
  | .ending served _ next =>
    (if served.stage.authenticated then [served.conn] else []) ++
      match next with
      | .nothing | .probing _ => []
      | .handedOver conn | .preempted conn => [conn]

/-- Every verdict and identity is recorded for the peer it is about, and the live
session has the address of one that authenticated and is not over. -/
structure Attributed (s : LoopState) : Prop where
  records : ∀ x ∈ s.audit, ∀ peer ∈ verdictPeer x.1, peer = x.2
  live : ∀ l ∈ s.handler.liveSession, ∃ conn ∈ authenticated s.mode, conn.peer.ip = l.1

/-- What the guard is told of at a stage. -/
def reports (stage : Stage) : ServedEvent → Bool
  | .credsspDone | .clientAccepted _ => true
  | .failed => decide (stage = .credssp)
  | .beginDone | .tlsAccepted | .finished => false

/-- If the served connection reports, the guard was asked about its peer last. -/
def OwnArrival (s : LoopState) (a : Action) : Prop :=
  match a.event with
  | .served event => ∀ served ∈ s.served?, reports served.stage event = true →
      s.arrived = some served.conn.peer
  | _ => True

instance (s : LoopState) : (a : Action) → Decidable (OwnArrival s a)
  | ⟨_, .served event⟩ =>
    inferInstanceAs (Decidable (∀ served ∈ s.served?, reports served.stage event = true →
      s.arrived = some served.conn.peer))
  | ⟨_, .accept _⟩ | ⟨_, .serve⟩ | ⟨_, .candidate _⟩ | ⟨_, .evictionOver⟩ | ⟨_, .settle⟩ =>
    isTrue trivial

/-- The guard refers to the peer that arrived last, which is the candidate's while
one is negotiated. -/
structure Remembers (s : LoopState) : Prop where
  lastPeer : s.handler.lastPeer = s.arrived
  probe : ∀ p ∈ s.probe?, s.arrived = some p.conn.peer
  busy : s.mode ≠ .waiting → s.arrived.isSome = true

variable {s s' : LoopState} {a : Action} {now : Instant}

/-- Attribution depends on the log, the live session and who authenticated. -/
theorem Attributed.of_eq (h : Attributed s) (haudit : s'.audit = s.audit)
    (hlive : s'.handler.liveSession = s.handler.liveSession)
    (hmode : authenticated s.mode ⊆ authenticated s'.mode) : Attributed s' where
  records := by
    rw [haudit]
    exact h.records
  live := by
    rw [hlive]
    intro l hl
    obtain ⟨conn, hconn, hip⟩ := h.live l hl
    exact ⟨conn, hmode hconn, hip⟩

/-- Asking the guard about an arrival records no verdict. -/
theorem Attributed.onAccept (h : Attributed s) (peer : SocketAddr) :
    Attributed (s.onAccept peer now).2 := by
  simp only [LoopState.onAccept, AuthGuardHandler.onAccept, LoopState.log]
  refine ⟨?_, ?_⟩
  · intro x hx
    rcases List.mem_append.mp hx with hx | hx
    · exact h.records x hx
    · obtain ⟨r, hr, rfl⟩ := List.mem_map.mp hx
      rintro p hp
      split at hr
      all_goals
        cases List.mem_singleton.mp hr
        cases hp
  · split
    all_goals exact h.live

variable {conn : Conn}

/-- A verdict on the connection whose peer arrived last is recorded for it. -/
theorem Attributed.onAuthenticated (success : Bool) (h : Attributed s)
    (hlast : s.handler.lastPeer = some conn.peer)
    (haudit : s'.audit = (s.onAuthenticated conn success now).audit)
    (hlive : s'.handler.liveSession =
      (s.onAuthenticated conn success now).handler.liveSession)
    (hmode : authenticated s.mode ⊆ authenticated s'.mode)
    (hconn : success = true → conn ∈ authenticated s'.mode) : Attributed s' where
  records := by
    rw [haudit]
    intro x hx
    simp only [LoopState.onAuthenticated, AuthGuardHandler.onAuthenticated, hlast,
      LoopState.log, List.mem_append] at hx
    rcases hx with hx | hx
    · exact h.records x hx
    · cases List.mem_singleton.mp hx
      rintro peer ⟨⟩
      rfl
  live := by
    rw [hlive]
    intro l hl
    simp only [LoopState.onAuthenticated, AuthGuardHandler.onAuthenticated, hlast,
      LoopState.log] at hl
    cases success with
    | true =>
      cases hl
      exact ⟨conn, hconn rfl, rfl⟩
    | false =>
      obtain ⟨c, hc, hip⟩ := h.live l hl
      exact ⟨c, hmode hc, hip⟩

/-- The identity of the connection whose peer arrived last is recorded for it. -/
theorem Attributed.onClientFingerprint {client : ClientFingerprint}
    (h : Attributed s) (hlast : s.handler.lastPeer = some conn.peer) :
    Attributed (s.onClientFingerprint conn client) where
  records := by
    intro x hx
    simp only [LoopState.onClientFingerprint, AuthGuardHandler.onClientFingerprint, hlast,
      LoopState.log, List.mem_append] at hx
    rcases hx with hx | hx
    · exact h.records x hx
    · cases List.mem_singleton.mp hx
      rintro peer ⟨⟩
      rfl
  live := h.live

/-- Going on forgets no connection, and one that goes on behind the credentials has
authenticated. -/
theorem authenticated_goOn {served : Served} {stage : Stage} (hserved : s.served? = some served)
    (hstage : served.stage.authenticated = true → stage.authenticated = true)
    (hgo : s.goOn stage = some s') :
    s'.audit = s.audit ∧ s'.handler = s.handler ∧
      authenticated s.mode ⊆ authenticated s'.mode ∧
      (stage.authenticated = true → served.conn ∈ authenticated s'.mode) := by
  rcases LoopState.goOn_cases hgo with ⟨x, probe, hmode, rfl⟩ | ⟨x, winner, since, hmode, rfl⟩
  · simp only [LoopState.served?, hmode, Option.some.injEq] at hserved
    subst hserved
    refine ⟨rfl, rfl, ?_, ?_⟩
    · intro c
      rw [hmode]
      simp only [authenticated]
      split
      · next hx => simp only [hstage hx, if_true, imp_self]
      · simp
    · intro h
      simp only [authenticated, h, if_true, List.mem_singleton]
  · simp only [LoopState.served?, hmode, Option.some.injEq] at hserved
    subst hserved
    refine ⟨rfl, rfl, ?_, ?_⟩
    · intro c
      rw [hmode]
      simp only [authenticated]
      split
      · next hx => simp only [hstage hx, if_true, imp_self]
      · intro hc
        exact List.mem_append_right _ (by simpa using hc)
    · intro h
      simp [authenticated, h]

/-- The end of the served connection forgets no connection. -/
theorem authenticated_endServed {failed : Bool} (hend : s.endServed failed now = some s') :
    s'.audit = s.audit ∧ s'.handler = s.handler ∧
      authenticated s.mode ⊆ authenticated s'.mode := by
  rcases LoopState.endServed_cases hend with
    ⟨x, probe, hmode, rfl⟩ | ⟨x, winner, since, hmode, rfl⟩
  · rw [hmode]
    exact ⟨rfl, rfl, List.subset_append_left _ _⟩
  · rw [hmode]
    exact ⟨rfl, rfl, List.Subset.refl _⟩

/-- A step of the served connection that reports only after its own arrival keeps
the attribution. -/
theorem attributed_stepServed {served : Served} {event : ServedEvent} (h : Attributed s)
    (hserved : s.served? = some served)
    (hown : reports served.stage event = true → s.handler.lastPeer = some served.conn.peer)
    (hstep : s.stepServed served now event = some s') : Attributed s' := by
  cases event with
  | beginDone | tlsAccepted =>
    obtain ⟨hstage, hgo⟩ := Option.ite_none_right_eq_some.mp hstep
    obtain ⟨haudit, hhandler, hmode, -⟩ :=
      authenticated_goOn hserved (by simp [hstage, Stage.authenticated]) hgo
    exact h.of_eq haudit (by rw [hhandler]) hmode
  | credsspDone =>
    obtain ⟨hstage, hgo⟩ := Option.ite_none_right_eq_some.mp hstep
    obtain ⟨haudit, hhandler, hmode, hconn⟩ :=
      authenticated_goOn (s := s.onAuthenticated served.conn true now) hserved
        (fun _ => rfl) hgo
    exact h.onAuthenticated true (hown rfl) haudit (by rw [hhandler]) hmode fun _ => hconn rfl
  | clientAccepted client =>
    obtain ⟨hstage, hgo⟩ := Option.ite_none_right_eq_some.mp hstep
    obtain ⟨haudit, hhandler, hmode, -⟩ :=
      authenticated_goOn (s := s.onClientFingerprint served.conn client) hserved
        (fun _ => rfl) hgo
    exact (h.onClientFingerprint (hown rfl)).of_eq haudit (by rw [hhandler]) hmode
  | failed =>
    simp only [LoopState.stepServed] at hstep
    split at hstep
    · next hstage =>
      obtain ⟨haudit, hhandler, hmode⟩ := authenticated_endServed hstep
      have hlast := hown (by simp [reports, hstage])
      exact h.onAuthenticated false hlast haudit (by rw [hhandler]) hmode (by simp)
    · obtain ⟨haudit, hhandler, hmode⟩ := authenticated_endServed hstep
      exact h.of_eq haudit (by rw [hhandler]) hmode
  | finished =>
    obtain ⟨-, hend⟩ := Option.ite_none_right_eq_some.mp hstep
    obtain ⟨haudit, hhandler, hmode⟩ := authenticated_endServed hend
    exact h.of_eq haudit (by rw [hhandler]) hmode

variable {probe : Probe}

/-- A candidate's next stage, or its end, changes nothing about who authenticated. -/
theorem authenticated_withProbe {next : Option Probe} (hprobe : s.probe? = some probe) :
    authenticated s.mode ⊆ authenticated (s.withProbe next).mode := by
  rcases LoopState.probe?_cases hprobe with ⟨x, hmode⟩ | ⟨x, ended, hmode⟩
  · simp only [LoopState.withProbe, hmode, authenticated]
    exact List.Subset.refl _
  · cases next with
    | none | some q => simp [LoopState.withProbe, hmode, authenticated]

/-- A candidate that wins is one of those who authenticated. -/
theorem authenticated_win (hprobe : s.probe? = some probe) :
    authenticated s.mode ⊆ authenticated (s.win conn now).mode ∧
      conn ∈ authenticated (s.win conn now).mode := by
  rcases LoopState.probe?_cases hprobe with ⟨x, hmode⟩ | ⟨x, ended, hmode⟩
  · simp [LoopState.win, hmode, authenticated]
  · simp [LoopState.win, hmode, authenticated]

/-- A step of the candidate, whose peer arrived last, keeps the attribution. -/
theorem attributed_stepCandidate {event : CandidateEvent} (h : Attributed s)
    (hprobe : s.probe? = some probe) (hlast : s.handler.lastPeer = some probe.conn.peer)
    (hstep : s.stepCandidate probe now event = some s') : Attributed s' := by
  have hdrop : ∀ failed, Attributed (s.dropProbe probe.conn failed now) := fun failed =>
    h.of_eq (LoopState.withProbe_audit _ _)
      (congrArg AuthGuardHandler.liveSession (LoopState.withProbe_handler _ _))
      (authenticated_withProbe hprobe)
  cases event with
  | beginDone | tlsAccepted =>
    obtain ⟨-, hgo⟩ := Option.ite_none_right_eq_some.mp hstep
    cases hgo
    exact h.of_eq (by simp)
      (by simp) (authenticated_withProbe hprobe)
  | credsspDone =>
    obtain ⟨-, hgo⟩ := Option.ite_none_right_eq_some.mp hstep
    cases hgo
    have hwin : authenticated s.mode ⊆
          authenticated ((s.onAuthenticated probe.conn true now).win probe.conn now).mode ∧
        probe.conn ∈
          authenticated ((s.onAuthenticated probe.conn true now).win probe.conn now).mode :=
      authenticated_win (s := s.onAuthenticated probe.conn true now) hprobe
    exact h.onAuthenticated true hlast (LoopState.win_audit _ _ _)
      (by rw [LoopState.win_handler]) hwin.1 fun _ => hwin.2
  | failed =>
    simp only [LoopState.stepCandidate, Option.some.injEq] at hstep
    subst hstep
    split
    · exact h.onAuthenticated false hlast (LoopState.withProbe_audit _ _)
        (congrArg AuthGuardHandler.liveSession (LoopState.withProbe_handler _ _))
        (authenticated_withProbe (s := s.onAuthenticated probe.conn false now) hprobe)
        (by simp)
    · exact hdrop true
  | timedOut =>
    obtain ⟨-, hgo⟩ := Option.ite_none_right_eq_some.mp hstep
    cases hgo
    exact hdrop true
  | abandoned =>
    simp only [LoopState.stepCandidate] at hstep
    split at hstep
    · obtain ⟨-, hgo⟩ := Option.ite_none_right_eq_some.mp hstep
      cases hgo
      exact hdrop false
    · cases hstep

/-- An arrival keeps the attribution. -/
theorem attributed_accept {peer : SocketAddr} (h : Attributed s)
    (harrival : s.Arrival peer now s') : Attributed s' := by
  have hrecent : ∀ recent, Attributed { s with recentlyEvicted := recent } := fun recent =>
    h.of_eq rfl rfl (List.Subset.refl _)
  cases harrival with
  | bounced recent => exact hrecent recent
  | rejected recent hasked => exact (hrecent recent).onAccept peer
  | admitted hmode =>
    refine (h.onAccept peer).of_eq rfl rfl ?_
    show authenticated s.mode ⊆ _
    rw [hmode]
    exact List.nil_subset _
  | beside served recent hmode hfresh =>
    refine ((hrecent recent).onAccept peer).of_eq rfl rfl ?_
    show authenticated s.mode ⊆ _
    rw [hmode]
    exact List.Subset.refl _

/-- Telling the guard that a session is over keeps the attribution: only its own
address stops being live. -/
theorem attributed_settle (h : Attributed s) (hstep : s.settle now = some s') :
    Attributed s' := by
  obtain ⟨served, ended, next, mode, core, hmode, hnext, -, hhandler, hmode', -, -, -,
    ⟨duration, outcome, haudit⟩, -⟩ := LoopState.settle_cases hstep
  refine ⟨?_, ?_⟩
  · rw [haudit]
    intro x hx
    rcases List.mem_append.mp hx with hx | hx
    · exact h.records x hx
    · cases List.mem_singleton.mp hx
      rintro peer ⟨⟩
  · rw [hhandler, hmode']
    intro l hl
    obtain ⟨hl, hne⟩ := Option.filter_eq_some_iff.mp hl
    rw [decide_eq_true_eq] at hne
    obtain ⟨conn, hconn, hip⟩ := h.live l hl
    refine ⟨conn, ?_, hip⟩
    rw [hmode] at hconn
    simp only [authenticated, List.mem_append] at hconn
    rcases hconn with hconn | hconn
    · split at hconn
      · cases List.mem_singleton.mp hconn
        exact absurd hip.symm hne
      · cases hconn
    · cases next with
      | nothing | probing => cases hconn
      | handedOver c | preempted c =>
        cases hnext
        exact hconn

/-- One step keeps the attribution if what it reports follows its own arrival. -/
theorem attributed_step (hr : Remembers s) (h : Attributed s) (hown : OwnArrival s a)
    (hstep : s.step a = some s') : Attributed s' := by
  have hclock : Attributed { s with clock := a.now } := h.of_eq rfl rfl (List.Subset.refl _)
  cases (LoopState.step_cases hstep).2 with
  | accept peer hevent harrival => exact attributed_accept hclock harrival
  | serve conn stage hevent hmode hserve =>
    subst hserve
    refine h.of_eq rfl rfl ?_
    rw [hmode]
    exact List.Subset.refl _
  | served event served hevent hserved hstep =>
    simp only [OwnArrival, hevent] at hown
    exact attributed_stepServed hclock hserved
      (fun hreports => hr.lastPeer.trans (hown served hserved hreports)) hstep
  | candidate event probe hevent hprobe hstep =>
    exact attributed_stepCandidate hclock hprobe (hr.lastPeer.trans (hr.probe probe hprobe)) hstep
  | evictionOver hevent hend =>
    obtain ⟨haudit, hhandler, hmode⟩ := authenticated_endServed hend
    exact hclock.of_eq haudit (by rw [hhandler]) hmode
  | settle hevent hsettle => exact attributed_settle hclock hsettle

/-- Steps without an arrival bring no new candidate. -/
theorem Remembers.of_eq (h : Remembers s)
    (hlast : s'.handler.lastPeer = s.handler.lastPeer) (harrived : s'.arrived = s.arrived)
    (hprobe : ∀ p' ∈ s'.probe?, ∃ p ∈ s.probe?, p.conn = p'.conn)
    (hbusy : s'.mode ≠ .waiting → s.mode ≠ .waiting) : Remembers s' where
  lastPeer := by rw [hlast, harrived, h.lastPeer]
  probe := by
    intro p' hp'
    obtain ⟨p, hp, hconn⟩ := hprobe p' hp'
    rw [harrived, h.probe p hp, hconn]
  busy hmode := by
    rw [harrived]
    exact h.busy (hbusy hmode)

theorem Remembers.goOn {stage : Stage} (h : Remembers s) (hgo : s.goOn stage = some s') :
    Remembers s' := by
  rcases LoopState.goOn_cases hgo with ⟨x, probe, hmode, rfl⟩ | ⟨x, winner, since, hmode, rfl⟩
  · exact h.of_eq rfl rfl (fun p hp => ⟨p, by rw [LoopState.probe?, hmode]; exact hp, rfl⟩)
      (by simp [hmode])
  · exact h.of_eq rfl rfl (fun p hp => by cases hp) (by simp [hmode])

theorem Remembers.endServed {failed : Bool} (h : Remembers s)
    (hend : s.endServed failed now = some s') : Remembers s' := by
  rcases LoopState.endServed_cases hend with
    ⟨x, probe, hmode, rfl⟩ | ⟨x, winner, since, hmode, rfl⟩
  · refine h.of_eq rfl rfl ?_ (by simp [hmode])
    intro p hp
    refine ⟨p, ?_, rfl⟩
    cases probe with
    | none => cases hp
    | some q =>
      rw [LoopState.probe?, hmode]
      exact hp
  · exact h.of_eq rfl rfl (fun p hp => by cases hp) (by simp [hmode])

theorem lastPeer_onAuthenticated (s : LoopState) (conn : Conn) (success : Bool) (now : Instant) :
    (s.onAuthenticated conn success now).handler.lastPeer = s.handler.lastPeer := by
  simp only [LoopState.onAuthenticated, AuthGuardHandler.onAuthenticated, LoopState.log]
  split <;> rfl

/-- Nothing the guard is told of a connection changes whom it refers to. -/
theorem Remembers.told {told : LoopState} (h : Remembers s)
    (htold : s.Told conn now told) : Remembers told ∧ told.probe? = s.probe? := by
  cases htold with
  | nothing => exact ⟨h, rfl⟩
  | verdict success =>
    exact ⟨h.of_eq (lastPeer_onAuthenticated s conn success now) rfl
      (fun p hp => ⟨p, hp, rfl⟩) id, rfl⟩
  | identity client => exact ⟨h.of_eq rfl rfl (fun p hp => ⟨p, hp, rfl⟩) id, rfl⟩

theorem remembers_stepServed {served : Served} {event : ServedEvent} (h : Remembers s)
    (hstep : s.stepServed served now event = some s') : Remembers s' := by
  obtain ⟨told, htold, ⟨stage, hgo⟩ | ⟨failed, hend⟩⟩ := LoopState.stepServed_cases hstep
  · exact (h.told htold).1.goOn hgo
  · exact (h.told htold).1.endServed hend

theorem Remembers.withProbe (h : Remembers s) (hprobe : s.probe? = some probe)
    {next : Option Probe} (hnext : ∀ p ∈ next, p.conn = probe.conn) :
    Remembers (s.withProbe next) := by
  have hcandidate : ∀ p ∈ (s.withProbe next).probe?, p ∈ next := by
    intro p hp
    rcases LoopState.probe?_cases hprobe with ⟨x, hmode⟩ | ⟨x, ended, hmode⟩
    · simpa [LoopState.probe?, LoopState.withProbe, hmode] using hp
    · cases next with
      | none => simp [LoopState.probe?, LoopState.withProbe, hmode] at hp
      | some q => simpa [LoopState.probe?, LoopState.withProbe, hmode] using hp
  refine h.of_eq (by simp) (by simp) ?_ ?_
  · exact fun p hp => ⟨probe, hprobe, (hnext p (hcandidate p hp)).symm⟩
  · rintro - hmode
    simp [LoopState.probe?, hmode] at hprobe

theorem Remembers.win (h : Remembers s) (hprobe : s.probe? = some probe)
    (conn : Conn) : Remembers (s.win conn now) := by
  refine h.of_eq (by simp) (by simp) ?_ ?_
  · intro p hp
    rcases LoopState.probe?_cases hprobe with ⟨x, hmode⟩ | ⟨x, ended, hmode⟩
    · simp [LoopState.probe?, LoopState.win, hmode] at hp
    · simp [LoopState.probe?, LoopState.win, hmode] at hp
  · rintro - hmode
    simp [LoopState.probe?, hmode] at hprobe

theorem Remembers.dropProbe (h : Remembers s) (hprobe : s.probe? = some probe)
    (conn : Conn) (failed : Bool) : Remembers (s.dropProbe conn failed now) := by
  have hnone : Remembers (s.withProbe none) := h.withProbe hprobe (by simp)
  exact hnone.of_eq rfl rfl (fun p hp => ⟨p, hp, rfl⟩) id

theorem remembers_stepCandidate {event : CandidateEvent} (h : Remembers s)
    (hprobe : s.probe? = some probe) (hstep : s.stepCandidate probe now event = some s') :
    Remembers s' := by
  obtain ⟨told, htold, hcase⟩ := LoopState.stepCandidate_cases hstep
  obtain ⟨hremembers, hsame⟩ := h.told htold
  rw [← hsame] at hprobe
  rcases hcase with ⟨stage, rfl⟩ | rfl | ⟨failed, rfl, -⟩
  · exact hremembers.withProbe hprobe (by simp)
  · exact hremembers.win hprobe _
  · exact hremembers.dropProbe hprobe _ failed

/-- A peer the guard is asked about is the one it refers to. -/
theorem onAccept_last (s : LoopState) (peer : SocketAddr) (now : Instant) :
    (s.onAccept peer now).2.handler.lastPeer = some peer := by
  simp only [LoopState.onAccept, AuthGuardHandler.onAccept, LoopState.log]
  split <;> rfl

theorem remembers_accept {peer : SocketAddr} (h : Remembers s)
    (harrival : s.Arrival peer now s') : Remembers s' := by
  cases harrival with
  | bounced recent => exact h.of_eq rfl rfl (fun p hp => ⟨p, hp, rfl⟩) id
  | rejected recent hasked =>
    have hnone : s.probe? = none := by
      rcases hasked with hmode | ⟨⟨served, hmode⟩, -⟩
      · rw [LoopState.probe?, hmode]
      · rw [LoopState.probe?, hmode]
    refine ⟨onAccept_last { s with recentlyEvicted := recent } peer now, fun p hp => ?_,
      fun _ => rfl⟩
    have hsome : s.probe? = some p := hp
    rw [hnone] at hsome
    cases hsome
  | admitted hmode =>
    exact ⟨onAccept_last s peer now, (fun p hp => by cases hp), fun _ => rfl⟩
  | beside served recent hmode hfresh =>
    refine ⟨onAccept_last { s with recentlyEvicted := recent } peer now, ?_, fun _ => rfl⟩
    rintro p ⟨⟩
    rfl

theorem remembers_settle (h : Remembers s) (hstep : s.settle now = some s') : Remembers s' := by
  obtain ⟨served, ended, next, mode, core, hmode, hnext, -, hhandler, hmode', harrived, -⟩ :=
    LoopState.settle_cases hstep
  refine h.of_eq (by rw [hhandler]) harrived ?_ (by simp [hmode])
  intro p hp
  rw [LoopState.probe?, hmode'] at hp
  cases next with
  | nothing | handedOver c | preempted c =>
    cases hnext
    cases hp
  | probing => cases hnext

/-- One step keeps what the guard refers to. -/
theorem remembers_step (h : Remembers s) (hstep : s.step a = some s') : Remembers s' := by
  have hclock : Remembers { s with clock := a.now } :=
    h.of_eq rfl rfl (fun p hp => ⟨p, hp, rfl⟩) id
  cases (LoopState.step_cases hstep).2 with
  | accept peer hevent harrival => exact remembers_accept hclock harrival
  | serve conn stage hevent hmode hserve =>
    subst hserve
    exact h.of_eq rfl rfl (fun p hp => by cases hp) (by simp [hmode])
  | served event served hevent hserved hstep => exact remembers_stepServed hclock hstep
  | candidate event probe hevent hprobe hstep => exact remembers_stepCandidate hclock hprobe hstep
  | evictionOver hevent hend => exact hclock.endServed hend
  | settle hevent hsettle => exact remembers_settle hclock hsettle

/-- What is recorded for another peer stays in the log. -/
theorem ownArrival_of_attributed (hr : Remembers s) (hstep : s.step a = some s')
    (h' : Attributed s') : OwnArrival s a := by
  simp only [OwnArrival]
  split
  · next event hevent =>
    intro served hserved hreports
    have hstep : LoopState.stepServed { s with clock := a.now } served a.now event = some s' := by
      cases (LoopState.step_cases hstep).2 with
      | served x y hx hy hstep =>
        rw [hx, Event.served.injEq] at hevent
        rw [Option.mem_def.mp hserved, Option.some.injEq] at hy
        rwa [hevent, ← hy] at hstep
      | accept peer hx | serve conn stage hx | candidate x probe hx | evictionOver hx | settle hx
        => cases hx.symm.trans hevent
    have hbusy : s.mode ≠ .waiting := by
      intro hmode
      simp [LoopState.served?, hmode] at hserved
    obtain ⟨peer, harrived⟩ := Option.isSome_iff_exists.mp (hr.busy hbusy)
    have hlast : s.handler.lastPeer = some peer := hr.lastPeer.trans harrived
    rw [harrived, Option.some.injEq]
    have hlog : ∃ r, (r, served.conn.peer) ∈ s'.audit ∧ verdictPeer r = some peer := by
      cases event with
      | credsspDone =>
        obtain ⟨-, hgo⟩ := Option.ite_none_right_eq_some.mp hstep
        obtain ⟨haudit, -⟩ := authenticated_goOn
          (s := LoopState.onAuthenticated { s with clock := a.now } served.conn true a.now)
          hserved (fun _ => rfl) hgo
        refine ⟨.auth peer true, ?_, rfl⟩
        simp [haudit, LoopState.onAuthenticated, AuthGuardHandler.onAuthenticated, LoopState.log,
          hlast]
      | clientAccepted client =>
        obtain ⟨-, hgo⟩ := Option.ite_none_right_eq_some.mp hstep
        obtain ⟨haudit, -⟩ := authenticated_goOn
          (s := LoopState.onClientFingerprint { s with clock := a.now } served.conn client)
          hserved (fun _ => rfl) hgo
        refine ⟨.fingerprint peer client, ?_, rfl⟩
        simp [haudit, LoopState.onClientFingerprint, AuthGuardHandler.onClientFingerprint,
          LoopState.log, hlast]
      | failed =>
        simp only [reports, decide_eq_true_eq] at hreports
        simp only [LoopState.stepServed, if_pos hreports] at hstep
        obtain ⟨haudit, -⟩ := authenticated_endServed hstep
        refine ⟨.auth peer false, ?_, rfl⟩
        simp [haudit, LoopState.onAuthenticated, AuthGuardHandler.onAuthenticated, LoopState.log,
          hlast]
      | beginDone | tlsAccepted | finished => cases hreports
    obtain ⟨r, hr, hpeer⟩ := hlog
    exact h'.records _ hr peer hpeer
  · trivial

/-- The loop before its first connection. -/
theorem attributed_init (cfg : GuardConfig) (now : Instant) :
    Attributed (.init cfg now) ∧ Remembers (.init cfg now) :=
  ⟨⟨by simp [LoopState.init], by simp [LoopState.init, AuthGuardHandler.new]⟩,
    ⟨rfl, by simp [LoopState.init, LoopState.probe?], by simp [LoopState.init]⟩⟩

/-- In every run every verdict and every identity is recorded for the peer it is
about, and the live session has the address of one that authenticated and is not
over, exactly when the served connection reports nothing after another peer has
arrived. -/
theorem attributed_iff_ownArrivals {cfg : GuardConfig} {start : Instant} {acts : List Action}
    {s : LoopState} (hrun : run LoopState.step (.init cfg start) acts = some s) :
    (∀ before t, before <+: acts → run LoopState.step (.init cfg start) before = some t →
        Attributed t) ↔
      Meets LoopState.step OwnArrival (.init cfg start) acts :=
  prefixes_iff_meets (fun _ _ _ => remembers_step)
    (fun _ _ _ hr h hown hstep => attributed_step hr h hown hstep)
    (fun _ _ _ hr hstep h' => ownArrival_of_attributed hr hstep h')
    (attributed_init cfg start).2 (attributed_init cfg start).1 hrun

/-- Thresholds of a guard that is not configured otherwise. -/
def sampleConfig : GuardConfig := ⟨.fromSecs 60, 10, 5, .fromSecs 3, .fromSecs 30, .fromSecs 900⟩

/-- The peer of the served connection. -/
def samplePeer : SocketAddr := ⟨.v4 ⟨198, 51, 100, 7⟩, 50000⟩

/-- A peer that connects meanwhile. -/
def otherPeer : SocketAddr := ⟨.v4 ⟨203, 0, 113, 9⟩, 40000⟩

/-- A connection is accepted, served and waited on for its credentials. -/
def toCredentials : List Action :=
  [⟨.fromSecs 0, .accept samplePeer⟩, ⟨.fromSecs 0, .serve⟩, ⟨.fromSecs 0, .served .beginDone⟩,
    ⟨.fromSecs 0, .served .tlsAccepted⟩]

/-- A second connection arrives once the credentials of the first were accepted, and
the first one's session is the live one. -/
theorem attributed_iff_ownArrivals_second :
    ∃ s, run LoopState.step (.init sampleConfig (.fromSecs 0))
        (toCredentials ++ [⟨.fromSecs 1, .served .credsspDone⟩, ⟨.fromSecs 2, .accept otherPeer⟩]) =
          some s ∧ Attributed s := by
  have hrun : (run LoopState.step (.init sampleConfig (.fromSecs 0))
      (toCredentials ++ [⟨.fromSecs 1, .served .credsspDone⟩,
        ⟨.fromSecs 2, .accept otherPeer⟩])).isSome = true := by decide +kernel
  obtain ⟨s, hs⟩ := Option.isSome_iff_exists.mp hrun
  have hmeets : meetsBool LoopState.step (fun s a => decide (OwnArrival s a))
      (.init sampleConfig (.fromSecs 0))
      (toCredentials ++ [⟨.fromSecs 1, .served .credsspDone⟩,
        ⟨.fromSecs 2, .accept otherPeer⟩]) = true := by decide +kernel
  have hown := meetsBool_iff.mp hmeets
  simp only [decide_eq_true_eq] at hown
  exact ⟨s, hs, (attributed_iff_ownArrivals hs).mpr hown _ s List.prefix_rfl hs⟩

/-- A second connection arrives before the credentials of the first are accepted: the
verdict is recorded for it, and it is the live session without having said a word. -/
theorem not_attributed_overtaken :
    ¬∀ (cfg : GuardConfig) (start : Instant) (acts : List Action) (s : LoopState),
      run LoopState.step (.init cfg start) acts = some s → Attributed s := by
  intro h
  have hrun : (run LoopState.step (.init sampleConfig (.fromSecs 0))
      (toCredentials ++ [⟨.fromSecs 1, .accept otherPeer⟩,
        ⟨.fromSecs 2, .served .credsspDone⟩])).map
      (fun s => s.audit.any fun x =>
        decide (verdictPeer x.1 = some otherPeer) && decide (x.2 = samplePeer)) = some true := by
    decide +kernel
  obtain ⟨s, hs, hlog⟩ := Option.map_eq_some_iff.mp hrun
  obtain ⟨x, hx, hblame⟩ := List.any_eq_true.mp hlog
  rw [Bool.and_eq_true, decide_eq_true_eq, decide_eq_true_eq] at hblame
  have hsame := (h _ _ _ s hs).records x hx otherPeer hblame.1
  rw [hblame.2] at hsame
  exact absurd hsame (by decide)

end Macrdp.AuditAttribution
