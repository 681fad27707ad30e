import Macrdp.AcceptLoop

/-!
# An evicted client does not bounce back

The accept loop keeps one record of an evicted peer, so that a client that connects again by itself
does not win the session back. What is expected is a bar for every address that was evicted: as long
as it keeps trying, it is not negotiated with, but not for longer than a limit, and nobody else is
refused for this reason.
-/

namespace Macrdp.RepreemptThrottle

open AcceptLoop NetAddress PlatformTime StepSystem
open CandidateRace (repreemptCooldown repreemptMaxLockout)

/-- What there is to know of an address that was evicted. -/
structure Bar where
  evictedAt : Instant
  /-- The latest try, or the eviction itself. -/
  lastTry : Instant
  /-- Every try came soon after the one before, or after the eviction. -/
  unbroken : Bool

/-- The evictions and tries since a session has ended without being replaced. -/
structure History where
  bars : IpAddr → Option Bar
  /-- The address that was evicted last. -/
  last : Option IpAddr

/-- No eviction. -/
def History.empty : History := ⟨fun _ => none, none⟩

/-- A try comes soon after an earlier one. -/
def soon (earlier now : Instant) : Bool :=
  decide (now.saturatingDurationSince earlier < repreemptCooldown)

/-- One more try. -/
def Bar.try (bar : Bar) (now : Instant) : Bar :=
  { bar with lastTry := now, unbroken := bar.unbroken && soon bar.lastTry now }

/-- An address tries to connect beside a session. -/
def History.attempt (h : History) (ip : IpAddr) (now : Instant) : History :=
  { h with bars := Function.update h.bars ip ((h.bars ip).map fun bar => bar.try now) }

/-- An address is evicted. -/
def History.evict (h : History) (ip : IpAddr) (now : Instant) : History :=
  ⟨Function.update h.bars ip (some ⟨now, now, true⟩), some ip⟩

@[simp]
theorem History.attempt_self (h : History) (ip : IpAddr) (now : Instant) :
    (h.attempt ip now).bars ip = (h.bars ip).map fun bar => bar.try now :=
  Function.update_self ..

variable {ip : IpAddr}

theorem History.attempt_of_ne (h : History) {other : IpAddr} (now : Instant) (hne : other ≠ ip) :
    (h.attempt ip now).bars other = h.bars other :=
  Function.update_of_ne hne ..

@[simp]
theorem History.evict_self (h : History) (ip : IpAddr) (now : Instant) :
    (h.evict ip now).bars ip = some ⟨now, now, true⟩ :=
  Function.update_self ..

theorem History.evict_of_ne (h : History) {other : IpAddr} (now : Instant) (hne : other ≠ ip) :
    (h.evict ip now).bars other = h.bars other :=
  Function.update_of_ne hne ..

/-- What a step of the loop adds. -/
def History.note (h : History) (s : LoopState) (a : Action) : History :=
  match a.event, s.mode with
  | .accept peer, .serving _ none => h.attempt peer.ip a.now
  | .candidate .credsspDone, .serving served (some _) => h.evict served.conn.peer.ip a.now
  | .settle, .ending _ _ (.preempted _) => h
  | .settle, _ => .empty
  | _, _ => h

/-- The loop, and what has happened. -/
structure Watched where
  loop : LoopState
  history : History

/-- The loop before its first connection. -/
def Watched.init (cfg : AuthGuard.GuardConfig) (now : Instant) : Watched := ⟨.init cfg now, .empty⟩

/-- One step of the loop. -/
def Watched.step (w : Watched) (a : Action) : Option Watched :=
  (w.loop.step a).map fun loop => ⟨loop, w.history.note w.loop a⟩

/-- An address was evicted a moment ago and keeps trying. -/
def History.Barred (h : History) (ip : IpAddr) (now : Instant) : Prop :=
  ∃ bar ∈ h.bars ip, bar.evictedAt < now ∧
    now.saturatingDurationSince bar.evictedAt < repreemptMaxLockout ∧ soon bar.lastTry now = true

/-- Beside a session, an address that was evicted a moment ago and keeps trying is not negotiated
with, and one is refused for this reason only a limited time after it was evicted. -/
def Throttled (w : Watched) (a : Action) : Prop :=
  ∀ peer served next, a.event = .accept peer → w.loop.mode = .serving served none →
    w.loop.step a = some next →
      (w.history.Barred peer.ip a.now → next.probe? = none) ∧
      ((bouncedBack w.loop.recentlyEvicted peer a.now).1 = true →
        ∃ bar ∈ w.history.bars peer.ip,
          a.now.saturatingDurationSince bar.evictedAt < repreemptMaxLockout)

/-- No other address was evicted after this one, and each of its tries came soon after the one
before. -/
def History.UpToDate (h : History) (ip : IpAddr) : Prop :=
  h.last = some ip ∧ ∀ bar ∈ h.bars ip, bar.unbroken = true

/-- An address that was evicted a moment ago and keeps trying is the one evicted last and has never
paused, or the guard refuses it. -/
def Remembered (w : Watched) (a : Action) : Prop :=
  ∀ peer served, a.event = .accept peer → w.loop.mode = .serving served none →
    w.loop.clock ≤ a.now → w.history.Barred peer.ip a.now →
      w.history.UpToDate peer.ip ∨ (w.loop.handler.onAccept peer a.now).1 = false

/-! ## The record of the loop -/

/-- The record after a step. -/
def recentAfter (s : LoopState) (a : Action) : Option (IpAddr × Instant × Instant) :=
  match a.event, s.mode with
  | .accept peer, .serving _ none => (bouncedBack s.recentlyEvicted peer a.now).2
  | .candidate .credsspDone, .serving served (some _) =>
    some (served.conn.peer.ip, a.now, a.now)
  | .settle, .ending _ _ (.preempted _) => s.recentlyEvicted
  | .settle, _ => none
  | _, _ => s.recentlyEvicted

variable {s s' : LoopState} {a : Action} {now : Instant}

theorem goOn_recent {stage : Stage} (h : s.goOn stage = some s') :
    s'.recentlyEvicted = s.recentlyEvicted ∧ s'.clock = s.clock := by
  obtain ⟨served, probe, -, rfl⟩ | ⟨served, winner, since, -, rfl⟩ := LoopState.goOn_cases h
  · exact ⟨rfl, rfl⟩
  · exact ⟨rfl, rfl⟩

theorem endServed_recent {failed : Bool} (h : s.endServed failed now = some s') :
    s'.recentlyEvicted = s.recentlyEvicted ∧ s'.clock = s.clock := by
  obtain ⟨served, probe, -, rfl⟩ | ⟨served, winner, since, -, rfl⟩ := LoopState.endServed_cases h
  · exact ⟨rfl, rfl⟩
  · exact ⟨rfl, rfl⟩

theorem serve_recent (h : s.serve now = some s') :
    s'.recentlyEvicted = s.recentlyEvicted ∧ s'.clock = s.clock := by
  unfold LoopState.serve at h
  split at h
  · cases h
    exact ⟨rfl, rfl⟩
  · cases h

theorem evictionOver_recent (h : s.evictionOver now = some s') :
    s'.recentlyEvicted = s.recentlyEvicted ∧ s'.clock = s.clock := by
  unfold LoopState.evictionOver at h
  split at h
  · exact endServed_recent (Option.ite_none_right_eq_some.mp h).2
  · cases h

theorem told_recent {conn : Conn} {told : LoopState} (h : s.Told conn now told) :
    told.recentlyEvicted = s.recentlyEvicted ∧ told.clock = s.clock ∧ told.mode = s.mode := by
  cases h <;> exact ⟨rfl, rfl, rfl⟩

theorem withProbe_recent (s : LoopState) (probe : Option Probe) :
    (s.withProbe probe).recentlyEvicted = s.recentlyEvicted := by
  unfold LoopState.withProbe
  split <;> rfl

variable {served : Served}

theorem stepServed_recent {event : ServedEvent} (h : s.stepServed served now event = some s') :
    s'.recentlyEvicted = s.recentlyEvicted ∧ s'.clock = s.clock := by
  obtain ⟨told, htold, ⟨stage, hgo⟩ | ⟨failed, hend⟩⟩ := LoopState.stepServed_cases h
  · obtain ⟨hrecent, hclock, -⟩ := told_recent htold
    exact ⟨(goOn_recent hgo).1.trans hrecent, (goOn_recent hgo).2.trans hclock⟩
  · obtain ⟨hrecent, hclock, -⟩ := told_recent htold
    exact ⟨(endServed_recent hend).1.trans hrecent, (endServed_recent hend).2.trans hclock⟩

theorem dropProbe_recent (s : LoopState) (conn : Conn) (failed : Bool) (now : Instant) :
    (s.dropProbe conn failed now).recentlyEvicted = s.recentlyEvicted ∧
      (s.dropProbe conn failed now).clock = s.clock :=
  ⟨withProbe_recent s none, LoopState.withProbe_clock s none⟩

/-- A candidate that has not authenticated does not touch the record. -/
theorem stepCandidate_recent {probe : Probe} {event : CandidateEvent}
    (hevent : event ≠ .credsspDone) (h : s.stepCandidate probe now event = some s') :
    s'.recentlyEvicted = s.recentlyEvicted ∧ s'.clock = s.clock := by
  cases event with
  | beginDone | tlsAccepted =>
    cases (Option.ite_none_right_eq_some.mp h).2
    exact ⟨withProbe_recent s _, LoopState.withProbe_clock s _⟩
  | credsspDone => exact absurd rfl hevent
  | failed =>
    simp only [LoopState.stepCandidate, Option.some.injEq] at h
    subst h
    split
    · exact dropProbe_recent _ _ _ _
    · exact dropProbe_recent _ _ _ _
  | timedOut =>
    cases (Option.ite_none_right_eq_some.mp h).2
    exact dropProbe_recent _ _ _ _
  | abandoned =>
    simp only [LoopState.stepCandidate] at h
    split at h
    · cases (Option.ite_none_right_eq_some.mp h).2
      exact dropProbe_recent _ _ _ _
    · cases h

/-- One that has authenticated beside a session puts the session's peer in the record. -/
theorem stepCandidate_win {probe : Probe} (hprobe : s.probe? = some probe)
    (h : s.stepCandidate probe now .credsspDone = some s') :
    s'.clock = s.clock ∧ s'.recentlyEvicted = recentAfter s ⟨now, .candidate .credsspDone⟩ := by
  cases (Option.ite_none_right_eq_some.mp h).2
  refine ⟨LoopState.win_clock _ _ _, ?_⟩
  obtain ⟨served, hmode⟩ | ⟨served, ended, hmode⟩ := LoopState.probe?_cases hprobe
  · simp [recentAfter, LoopState.win, LoopState.onAuthenticated, LoopState.log, hmode]
  · simp [recentAfter, LoopState.win, LoopState.onAuthenticated, LoopState.log, hmode]

theorem settle_recent (h : s.settle now = some s') :
    s'.clock = s.clock ∧ s'.recentlyEvicted = recentAfter s ⟨now, .settle⟩ := by
  unfold LoopState.settle at h
  split at h
  · rename_i served ended next hmode
    obtain ⟨mode, hnext, h⟩ := Option.bind_eq_some_iff.mp h
    obtain ⟨told, -, rfl⟩ := Option.map_eq_some_iff.mp h
    refine ⟨rfl, ?_⟩
    cases next with
    | nothing | handedOver conn | preempted conn
      => simp [recentAfter, hmode, LoopState.close, LoopState.log]
    | probing probe => cases hnext
  · cases h

variable {peer : SocketAddr}

/-- What a connection that arrives beside a session comes to. -/
theorem accept_beside (hmode : s.mode = .serving served none) (h : s.accept peer now = some s') :
    s'.clock = s.clock ∧ s'.recentlyEvicted = (bouncedBack s.recentlyEvicted peer now).2 ∧
      (s'.probe? = none ↔ (bouncedBack s.recentlyEvicted peer now).1 = true ∨
        (s.handler.onAccept peer now).1 = false) := by
  simp only [LoopState.accept, hmode] at h
  split at h
  · rename_i hbounced
    cases h
    exact ⟨rfl, rfl, by simp [LoopState.probe?, hbounced]⟩
  · rename_i hbounced
    cases h
    split
    · rename_i hpass
      refine ⟨rfl, rfl, ?_⟩
      have hguard : (s.handler.onAccept peer now).1 = true := hpass
      simp [LoopState.probe?, LoopState.admitPeer, hbounced, hguard]
    · rename_i hpass
      refine ⟨rfl, rfl, ?_⟩
      have hguard : (s.handler.onAccept peer now).1 = false := Bool.eq_false_of_not_eq_true hpass
      simp [LoopState.probe?, LoopState.onAccept, LoopState.log, hguard]

theorem accept_waiting (hmode : s.mode = .waiting) (h : s.accept peer now = some s') :
    s'.clock = s.clock ∧ s'.recentlyEvicted = s.recentlyEvicted := by
  simp only [LoopState.accept, hmode] at h
  cases h
  split <;> exact ⟨rfl, rfl⟩

/-- Connections are accepted before a session and beside one. -/
theorem accept_mode (h : s.accept peer now = some s') :
    s.mode = .waiting ∨ ∃ served, s.mode = .serving served none := by
  unfold LoopState.accept at h
  split at h
  · rename_i hmode
    exact .inl hmode
  · rename_i served hmode
    exact .inr ⟨served, hmode⟩
  · cases h

/-- Every step sets the clock, and leaves the record as its kind says. -/
theorem step_recent (h : s.step a = some s') :
    s.clock ≤ a.now ∧ s'.clock = a.now ∧ s'.recentlyEvicted = recentAfter s a := by
  obtain ⟨time, event⟩ := a
  unfold LoopState.step at h
  split at h
  · cases h
  rename_i hclock
  refine ⟨le_of_not_gt hclock, ?_⟩
  cases event with
  | accept peer =>
    obtain hmode | ⟨served, hmode⟩ := accept_mode h
    · obtain ⟨hset, hrecent⟩ := accept_waiting hmode h
      have hmode : s.mode = .waiting := hmode
      exact ⟨hset, by simp [hrecent, recentAfter, hmode]⟩
    · obtain ⟨hset, hrecent, -⟩ := accept_beside hmode h
      have hmode : s.mode = .serving served none := hmode
      exact ⟨hset, by simp [hrecent, recentAfter, hmode]⟩
  | serve =>
    obtain ⟨hrecent, hset⟩ := serve_recent h
    exact ⟨hset, hrecent⟩
  | served event =>
    obtain ⟨served, -, h⟩ := Option.bind_eq_some_iff.mp h
    obtain ⟨hrecent, hset⟩ := stepServed_recent h
    exact ⟨hset, hrecent⟩
  | candidate event =>
    obtain ⟨probe, hprobe, h⟩ := Option.bind_eq_some_iff.mp h
    by_cases hevent : event = .credsspDone
    · subst hevent
      exact stepCandidate_win hprobe h
    · obtain ⟨hrecent, hset⟩ := stepCandidate_recent hevent h
      refine ⟨hset, hrecent.trans ?_⟩
      cases event with
      | credsspDone => exact absurd rfl hevent
      | beginDone | tlsAccepted | failed | timedOut | abandoned => rfl
  | evictionOver =>
    obtain ⟨hrecent, hset⟩ := evictionOver_recent h
    exact ⟨hset, hrecent⟩
  | settle => exact settle_recent h

/-! ## The record and the history -/

variable {earlier : Instant}

/-- How many nanoseconds a span after an earlier point has to stay below. -/
theorem since_lt_iff {d : Duration} (hd : 0 < d.nanos) :
    now.saturatingDurationSince earlier < d ↔ now.nanos < earlier.nanos + d.nanos := by
  have hiff : now.saturatingDurationSince earlier < d ↔
      (now.nanos - earlier.nanos).toNat < d.nanos := Iff.rfl
  rw [hiff]
  omega

theorem soon_iff :
    soon earlier now = true ↔ now.nanos < earlier.nanos + repreemptCooldown.nanos := by
  rw [soon, decide_eq_true_eq]
  exact since_lt_iff (by decide)

theorem within_lockout_iff :
    now.saturatingDurationSince earlier < repreemptMaxLockout ↔
      now.nanos < earlier.nanos + repreemptMaxLockout.nanos :=
  since_lt_iff (by decide)

/-- The record agrees with what is known of the address evicted last: its last try is the latest
as long as the tries were unbroken, and an old one afterwards. -/
structure Agrees (bar : Bar) (evictedAt lastTry : Instant) : Prop where
  evicted : bar.evictedAt = evictedAt
  tried : lastTry ≤ bar.lastTry
  unbroken : bar.unbroken = true → lastTry = bar.lastTry ∨
    evictedAt.nanos + repreemptMaxLockout.nanos ≤ bar.lastTry.nanos
  broken : bar.unbroken = false →
    lastTry.nanos + repreemptCooldown.nanos ≤ bar.lastTry.nanos

/-- The record is about the address evicted last. -/
inductive Recorded (h : History) : Option (IpAddr × Instant × Instant) → Prop
  | nothing (hlast : h.last = none) (hbars : ∀ ip, h.bars ip = none) : Recorded h none
  | evicted {ip : IpAddr} {bar : Bar} {evictedAt lastTry : Instant} (hlast : h.last = some ip)
    (hbar : h.bars ip = some bar) (hagrees : Agrees bar evictedAt lastTry) :
    Recorded h (some (ip, evictedAt, lastTry))

/-- What holds of the loop and its history. -/
structure Inv (w : Watched) : Prop where
  recorded : Recorded w.history w.loop.recentlyEvicted
  /-- No try is later than the last step. -/
  past : ∀ ip, ∀ bar ∈ w.history.bars ip, bar.lastTry ≤ w.loop.clock

theorem inv_init (cfg : AuthGuard.GuardConfig) (now : Instant) : Inv (.init cfg now) :=
  ⟨.nothing rfl fun _ => rfl, fun _ _ hbar => by cases hbar⟩

variable {evictedAt lastTry : Instant}

/-- Whether the peer in the record is refused. -/
theorem bouncedBack_own (hip : ip = peer.ip) :
    bouncedBack (some (ip, evictedAt, lastTry)) peer now =
      if soon lastTry now = true ∧ now.saturatingDurationSince evictedAt < repreemptMaxLockout then
        (true, some (ip, evictedAt, now))
      else (false, some (ip, evictedAt, lastTry)) := by
  by_cases hsoon : now.saturatingDurationSince lastTry < repreemptCooldown <;>
    by_cases hlockout : now.saturatingDurationSince evictedAt < repreemptMaxLockout <;>
    simp [bouncedBack, hip, soon, hsoon, hlockout]

theorem bouncedBack_other (hip : ip ≠ peer.ip) :
    bouncedBack (some (ip, evictedAt, lastTry)) peer now =
      (false, some (ip, evictedAt, lastTry)) := by
  simp [bouncedBack, hip]

/-- A try that is refused is put in the record. -/
theorem Agrees.refused {bar : Bar} (h : Agrees bar evictedAt lastTry)
    (hpast : bar.lastTry ≤ now) (hsoon : soon lastTry now = true)
    (hlockout : now.saturatingDurationSince evictedAt < repreemptMaxLockout) :
    bar.unbroken = true ∧ bar.lastTry = lastTry ∧ Agrees (bar.try now) evictedAt now := by
  have hpast := Instant.le_iff.mp hpast
  have hcooldown := soon_iff.mp hsoon
  have hcap := within_lockout_iff.mp hlockout
  have hunbroken : bar.unbroken = true := by
    by_contra hbroken
    have hpause := h.broken (Bool.eq_false_of_not_eq_true hbroken)
    omega
  have hsame : lastTry = bar.lastTry := by
    obtain hsame | hlate := h.unbroken hunbroken
    · exact hsame
    · omega
  refine ⟨hunbroken, hsame.symm, h.evicted, le_refl now, fun _ => .inl rfl, fun hbroken => ?_⟩
  rw [Bar.try, ← hsame, hunbroken, hsoon] at hbroken
  cases hbroken

/-- One that is not refused comes after a pause, or late. -/
theorem Agrees.passed {bar : Bar} (h : Agrees bar evictedAt lastTry) (hpast : bar.lastTry ≤ now)
    (hpass : ¬(soon lastTry now = true ∧
      now.saturatingDurationSince evictedAt < repreemptMaxLockout)) :
    Agrees (bar.try now) evictedAt lastTry := by
  have hpast := Instant.le_iff.mp hpast
  have htried := Instant.le_iff.mp h.tried
  rw [soon_iff, within_lockout_iff] at hpass
  have hle : lastTry ≤ now := Instant.le_iff.mpr (htried.trans hpast)
  refine ⟨h.evicted, hle, fun hunbroken => ?_, fun hbroken => ?_⟩
  · obtain ⟨hbefore, hsoon⟩ := Bool.and_eq_true_iff.mp hunbroken
    have hcooldown := soon_iff.mp hsoon
    refine .inr ?_
    show evictedAt.nanos + repreemptMaxLockout.nanos ≤ now.nanos
    obtain rfl | hlate := h.unbroken hbefore
    · omega
    · omega
  · show lastTry.nanos + repreemptCooldown.nanos ≤ now.nanos
    obtain hbefore | hpause := Bool.and_eq_false_iff.mp hbroken
    · have hearlier := h.broken hbefore
      omega
    · have hcooldown : ¬now.nanos < bar.lastTry.nanos + repreemptCooldown.nanos := by
        rw [← soon_iff, hpause]
        exact Bool.false_ne_true
      omega

variable {h : History}
variable {recent : Option (IpAddr × Instant × Instant)}

/-- Trying again keeps the record about the address evicted last. -/
theorem Recorded.attempt (hrecorded : Recorded h recent) (peer : SocketAddr)
    (hpast : ∀ bar ∈ h.bars peer.ip, bar.lastTry ≤ now) :
    Recorded (h.attempt peer.ip now) (bouncedBack recent peer now).2 := by
  cases hrecorded with
  | nothing hlast hbars =>
    refine .nothing hlast fun ip => ?_
    by_cases hip : ip = peer.ip
    · rw [hip, History.attempt_self, hbars peer.ip, Option.map_none]
    · rw [History.attempt_of_ne _ _ hip, hbars ip]
  | @evicted ip bar evictedAt lastTry hlast hbar hagrees =>
    by_cases hip : ip = peer.ip
    · rw [bouncedBack_own hip]
      rw [hip] at hbar hlast
      have htried : (h.attempt peer.ip now).bars peer.ip = some (bar.try now) := by
        rw [History.attempt_self, hbar, Option.map_some]
      rw [hip]
      split
      · rename_i hwithin
        exact .evicted hlast htried
          (hagrees.refused (hpast bar hbar) hwithin.1 hwithin.2).2.2
      · rename_i hpass
        exact .evicted hlast htried (hagrees.passed (hpast bar hbar) hpass)
    · rw [bouncedBack_other hip]
      exact .evicted hlast ((h.attempt_of_ne now hip).trans hbar) hagrees

/-- An eviction puts the address in the record. -/
theorem Recorded.evict (h : History) (ip : IpAddr) (now : Instant) :
    Recorded (h.evict ip now) (some (ip, now, now)) := by
  refine .evicted rfl (h.evict_self ip now) ⟨rfl, le_refl now, fun _ => .inl rfl, ?_⟩
  intro hbroken
  cases hbroken

/-- No try is later than the step that notes it. -/
theorem past_note (hpast : ∀ ip, ∀ bar ∈ h.bars ip, bar.lastTry ≤ a.now) :
    ∀ ip, ∀ bar ∈ (h.note s a).bars ip, bar.lastTry ≤ a.now := by
  intro ip bar hbar
  unfold History.note at hbar
  split at hbar
  · rename_i peer served hevent hmode
    by_cases hip : ip = peer.ip
    · rw [hip, History.attempt_self] at hbar
      obtain ⟨old, -, rfl⟩ := Option.map_eq_some_iff.mp hbar
      exact le_refl a.now
    · rw [History.attempt_of_ne _ _ hip] at hbar
      exact hpast ip bar hbar
  · rename_i served probe hevent hmode
    by_cases hip : ip = served.conn.peer.ip
    · rw [hip, History.evict_self] at hbar
      cases hbar
      exact le_refl a.now
    · rw [History.evict_of_ne _ _ hip] at hbar
      exact hpast ip bar hbar
  · exact hpast ip bar hbar
  · cases hbar
  · exact hpast ip bar hbar

variable {w : Watched}

/-- A step keeps the record about the address evicted last. -/
theorem Inv.step {w' : Watched} (h : Inv w) (hstep : w.step a = some w') : Inv w' := by
  obtain ⟨loop, hloop, rfl⟩ := Option.map_eq_some_iff.mp hstep
  obtain ⟨hnow, hclock, hrecent⟩ := step_recent hloop
  have hpast : ∀ ip, ∀ bar ∈ w.history.bars ip, bar.lastTry ≤ a.now := fun ip bar hbar =>
    (h.past ip bar hbar).trans hnow
  refine ⟨?_, ?_⟩
  · show Recorded (w.history.note w.loop a) loop.recentlyEvicted
    rw [hrecent]
    unfold recentAfter History.note
    split
    · exact h.recorded.attempt _ (hpast _)
    · exact Recorded.evict _ _ _
    · exact h.recorded
    · exact .nothing rfl fun _ => rfl
    · exact h.recorded
  · show ∀ ip, ∀ bar ∈ (w.history.note w.loop a).bars ip, bar.lastTry ≤ loop.clock
    rw [hclock]
    exact past_note hpast

/-! ## Who is barred -/

/-- An address that is to be barred is refused if and only if the record is up to date. -/
theorem bounced_iff (hrecorded : Recorded h recent)
    (hpast : ∀ bar ∈ h.bars peer.ip, bar.lastTry ≤ now) (hbarred : h.Barred peer.ip now) :
    (bouncedBack recent peer now).1 = true ↔ h.UpToDate peer.ip := by
  obtain ⟨bar, hbar, -, hlockout, hsoon⟩ := hbarred
  have hsame : ∀ other ∈ h.bars peer.ip, other = bar := by
    intro other hother
    exact Option.some.inj (hother.symm.trans hbar)
  cases hrecorded with
  | nothing hlast hbars =>
    rw [hbars peer.ip] at hbar
    cases hbar
  | @evicted ip own evictedAt lastTry hlast hown hagrees =>
    by_cases hip : ip = peer.ip
    · rw [hip] at hown hlast
      obtain rfl := hsame own hown
      rw [hagrees.evicted] at hlockout
      rw [bouncedBack_own hip]
      constructor
      · intro hbounced
        split at hbounced
        · rename_i hwithin
          refine ⟨hlast, fun other hother => ?_⟩
          rw [hsame other hother]
          exact (hagrees.refused (hpast own hown) hwithin.1 hwithin.2).1
        · cases hbounced
      · intro hdate
        have hcap := within_lockout_iff.mp hlockout
        have hpast := Instant.le_iff.mp (hpast own hown)
        obtain rfl | hlate := hagrees.unbroken (hdate.2 own hown)
        · rw [if_pos ⟨hsoon, hlockout⟩]
        · omega
    · rw [bouncedBack_other hip]
      simp only [Bool.false_eq_true, false_iff]
      intro hdate
      exact hip (Option.some.inj (hlast.symm.trans hdate.1))

/-- A refused address was evicted, and not too long ago. -/
theorem evicted_of_bounced
    (hrecorded : Recorded h recent) (hbounced : (bouncedBack recent peer now).1 = true) :
    ∃ bar ∈ h.bars peer.ip, now.saturatingDurationSince bar.evictedAt < repreemptMaxLockout := by
  cases hrecorded with
  | nothing => cases hbounced
  | @evicted ip own evictedAt lastTry hlast hown hagrees =>
    by_cases hip : ip = peer.ip
    · rw [bouncedBack_own hip] at hbounced
      split at hbounced
      · rename_i hwithin
        refine ⟨own, hip ▸ hown, ?_⟩
        rw [hagrees.evicted]
        exact hwithin.2
      · cases hbounced
    · rw [bouncedBack_other hip] at hbounced
      cases hbounced

/-- A connection that arrives beside a session is refused or negotiated with. -/
theorem exists_accept (hevent : a.event = .accept peer)
    (hmode : s.mode = .serving served none) (hnow : s.clock ≤ a.now) :
    ∃ next, s.step a = some next ∧
      (next.probe? = none ↔ (bouncedBack s.recentlyEvicted peer a.now).1 = true ∨
        (s.handler.onAccept peer a.now).1 = false) := by
  have hstep : s.step a = LoopState.accept { s with clock := a.now } peer a.now := by
    simp [LoopState.step, hevent, not_lt.mpr hnow]
  have hsome : ∃ next, LoopState.accept { s with clock := a.now } peer a.now = some next := by
    simp only [LoopState.accept, hmode]
    split
    · exact ⟨_, rfl⟩
    · exact ⟨_, rfl⟩
  obtain ⟨next, hnext⟩ := hsome
  have hbeside := accept_beside (s := { s with clock := a.now }) hmode hnext
  exact ⟨next, hstep.trans hnext, hbeside.2.2⟩

/-- A step bars whom it should if and only if the address is remembered. -/
theorem throttled_step_iff (h : Inv w) : Throttled w a ↔ Remembered w a := by
  constructor
  · intro hthrottled peer served hevent hmode hnow hbarred
    have hpast : ∀ bar ∈ w.history.bars peer.ip, bar.lastTry ≤ a.now := fun bar hbar =>
      (h.past peer.ip bar hbar).trans hnow
    obtain ⟨next, hstep, haccept⟩ := exists_accept hevent hmode hnow
    have hnone := (hthrottled peer served next hevent hmode hstep).1 hbarred
    obtain hbounced | hguard := haccept.mp hnone
    · exact .inl ((bounced_iff h.recorded hpast hbarred).mp hbounced)
    · exact .inr hguard
  · intro hremembered peer served next hevent hmode hstep
    have hnow := (step_recent hstep).1
    have hpast : ∀ bar ∈ w.history.bars peer.ip, bar.lastTry ≤ a.now := fun bar hbar =>
      (h.past peer.ip bar hbar).trans hnow
    refine ⟨fun hbarred => ?_, evicted_of_bounced h.recorded⟩
    obtain ⟨other, hother, haccept⟩ := exists_accept hevent hmode hnow
    obtain rfl := Option.some.inj (hstep.symm.trans hother)
    refine haccept.mpr ?_
    obtain hdate | hguard := hremembered peer served hevent hmode hnow hbarred
    · exact .inl ((bounced_iff h.recorded hpast hbarred).mpr hdate)
    · exact .inr hguard

/-- In every run of the loop, every address is barred as expected at each step, if and only if at
each step the address that is to be barred is the one evicted last and has never paused, or the
guard refuses it. -/
theorem throttled_iff_remembered (cfg : AuthGuard.GuardConfig) (start : Instant)
    (acts : List Action) :
    Meets Watched.step Throttled (.init cfg start) acts ↔
      Meets Watched.step Remembered (.init cfg start) acts :=
  meets_congr Inv (fun _ _ h => throttled_step_iff h) (fun _ _ _ h _ hstep => h.step hstep)
    (inv_init cfg start)

/-- A guard that refuses nobody. -/
def openConfig : AuthGuard.GuardConfig :=
  ⟨.fromSecs 60, 0, 0, .fromSecs 3, .fromSecs 30, .fromSecs 900⟩

def firstPeer : SocketAddr := ⟨.v4 ⟨198, 51, 100, 7⟩, 50000⟩

def secondPeer : SocketAddr := ⟨.v4 ⟨203, 0, 113, 9⟩, 50000⟩

def thirdPeer : SocketAddr := ⟨.v4 ⟨192, 0, 2, 5⟩, 50000⟩

/-- A peer connects beside a session, authenticates, and is served when the session has failed. -/
def takeover (peer : SocketAddr) (secs : UInt32) : List Action :=
  [.accept peer, .candidate .beginDone, .candidate .tlsAccepted, .candidate .credsspDone,
    .served .failed, .settle, .serve].map fun event => ⟨.fromSecs secs, event⟩

/-- A session is taken over by a second client, and that one's by a third. -/
def takeovers : List Action :=
  [.accept firstPeer, .serve].map (fun event => ⟨.fromSecs 1, event⟩) ++
    takeover secondPeer 11 ++ takeover thirdPeer 13

/-- Whether an address is barred beside a session, and is negotiated with if it connects. -/
def slipsThrough (w : Watched) (peer : SocketAddr) (now : Instant) : Bool :=
  (match w.loop.mode with
    | .serving _ none => true
    | _ => false) &&
  (w.history.bars peer.ip).any (fun bar => decide (bar.evictedAt < now) &&
    decide (now.saturatingDurationSince bar.evictedAt < repreemptMaxLockout) &&
    soon bar.lastTry now) &&
  (w.loop.step ⟨now, .accept peer⟩).any fun next => next.probe?.isSome

theorem not_throttled_of_slipsThrough
    (h : slipsThrough w peer now = true) : ¬Throttled w ⟨now, .accept peer⟩ := by
  intro hthrottled
  simp only [slipsThrough, Bool.and_eq_true, Option.any_eq_true, decide_eq_true_eq] at h
  obtain ⟨⟨hmode, bar, hbar, ⟨hlater, hlockout⟩, hsoon⟩, next, hnext, hprobe⟩ := h
  split at hmode
  · rename_i served hserving
    have hnone := (hthrottled peer served next rfl hserving hnext).1
      ⟨bar, hbar, hlater, hlockout, hsoon⟩
    rw [hnone] at hprobe
    cases hprobe
  · cases hmode

/-- A second takeover makes the loop forget whom the first one has evicted. -/
theorem not_throttled_takeovers :
    ¬∀ (cfg : AuthGuard.GuardConfig) (start : Instant) (acts : List Action),
      Meets Watched.step Throttled (.init cfg start) acts := by
  intro h
  have hrun : (run Watched.step (.init openConfig (.fromSecs 0)) takeovers).any
      (fun w => slipsThrough w firstPeer (.fromSecs 14)) = true := by
    decide +kernel
  obtain ⟨w, hw, hslips⟩ := (Option.any_eq_true _ _).mp hrun
  have hmeets := h openConfig (.fromSecs 0) (takeovers ++ [⟨.fromSecs 14, .accept firstPeer⟩])
  have hlast := ((meets_append _ _ _).mp hmeets).2 w hw
  exact not_throttled_of_slipsThrough hslips hlast.1

end Macrdp.RepreemptThrottle
