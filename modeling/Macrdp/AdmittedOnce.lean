import Macrdp.AcceptLoop

/-!
# Every admitted connection ends once

The connections that were admitted are those alive and those in the ledger, each
once, whatever the order in which candidates and sessions come and go.
-/

namespace Macrdp.AdmittedOnce

open NetAddress PlatformTime AcceptLoop

/-- The connections that are admitted and not gone. -/
def alive : Mode → List Conn
  | .waiting => []
  | .admitted conn _ => [conn]
  | .serving served probe => served.conn :: probe.toList.map Probe.conn
  | .evicting served winner _ => [served.conn, winner]
  | .ending served _ next => served.conn :: match next with
    | .nothing => []
    | .probing probe => [probe.conn]
    | .handedOver conn | .preempted conn => [conn]

/-- Every admitted connection is alive or has ended once. -/
def OnceEach (s : LoopState) : Prop :=
  (s.ledger.map (fun e => e.conn.id) ++ (alive s.mode).map Conn.id).Perm (List.range s.nextId)

variable {s s' : LoopState} {act : Action} {now : Instant}

/-- Steps that admit and end nobody. -/
theorem OnceEach.of_eq (h : OnceEach s) (hledger : s'.ledger = s.ledger)
    (hnext : s'.nextId = s.nextId) (halive : alive s'.mode = alive s.mode) : OnceEach s' := by
  simp only [OnceEach, hledger, hnext, halive]
  exact h

/-- A connection that ends is no longer alive. -/
theorem OnceEach.close {e : Ending} (h : OnceEach s) (hledger : s'.ledger = e :: s.ledger)
    (hnext : s'.nextId = s.nextId)
    (halive : (alive s.mode).Perm (e.conn :: alive s'.mode)) : OnceEach s' := by
  simp only [OnceEach, hledger, hnext, List.map_cons, List.cons_append]
  have hmap : ((alive s.mode).map Conn.id).Perm (e.conn.id :: (alive s'.mode).map Conn.id) := by
    have hmap := halive.map Conn.id
    rwa [List.map_cons] at hmap
  exact (List.perm_middle.symm.trans (hmap.symm.append_left _)).trans h

/-- A connection that is admitted gets the next number. -/
theorem OnceEach.admitPeer {peer : SocketAddr} {mode : Conn → Mode} (h : OnceEach s)
    (halive : ∀ conn, alive (mode conn) = alive s.mode ++ [conn]) :
    OnceEach (s.admitPeer peer now mode) := by
  simp only [OnceEach, LoopState.admitPeer, halive, List.map_append, List.map_cons, List.map_nil]
  rw [List.range_succ, ← List.append_assoc]
  exact List.Perm.append_right _ h

theorem OnceEach.goOn {stage : Stage} (h : OnceEach s) (hgo : s.goOn stage = some s') :
    OnceEach s' := by
  rcases LoopState.goOn_cases hgo with
    ⟨served, probe, hmode, rfl⟩ | ⟨served, winner, since, hmode, rfl⟩
  · exact h.of_eq rfl rfl (by rw [hmode]; rfl)
  · exact h.of_eq rfl rfl (by rw [hmode]; rfl)

theorem OnceEach.endServed {failed : Bool} (h : OnceEach s)
    (hend : s.endServed failed now = some s') : OnceEach s' := by
  rcases LoopState.endServed_cases hend with
    ⟨served, probe, hmode, rfl⟩ | ⟨served, winner, since, hmode, rfl⟩
  · refine h.of_eq rfl rfl ?_
    rw [hmode]
    cases probe with
    | none | some p => rfl
  · exact h.of_eq rfl rfl (by rw [hmode]; rfl)

/-- Nothing the guard is told of a connection admits or ends one. -/
theorem OnceEach.told {conn : Conn} {told : LoopState} (h : OnceEach s)
    (htold : s.Told conn now told) : OnceEach told ∧ told.probe? = s.probe? := by
  cases htold with
  | nothing | verdict success | identity client => exact ⟨h, rfl⟩

theorem alive_withProbe {probe next : Probe} (hprobe : s.probe? = some probe)
    (hconn : next.conn = probe.conn) : alive (s.withProbe (some next)).mode = alive s.mode := by
  rcases LoopState.probe?_cases hprobe with ⟨served, hmode⟩ | ⟨served, ended, hmode⟩
  · simp [LoopState.withProbe, hmode, alive, hconn]
  · simp [LoopState.withProbe, hmode, alive, hconn]

theorem alive_win {probe : Probe} (hprobe : s.probe? = some probe) :
    alive (s.win probe.conn now).mode = alive s.mode := by
  rcases LoopState.probe?_cases hprobe with ⟨served, hmode⟩ | ⟨served, ended, hmode⟩
  · simp [LoopState.win, hmode, alive]
  · simp [LoopState.win, hmode, alive]

theorem alive_dropProbe {probe : Probe} (hprobe : s.probe? = some probe) :
    (alive s.mode).Perm (probe.conn :: alive (s.withProbe none).mode) := by
  rcases LoopState.probe?_cases hprobe with ⟨served, hmode⟩ | ⟨served, ended, hmode⟩
  · simp only [LoopState.withProbe, hmode, alive, Option.toList_some, Option.toList_none,
      List.map_cons, List.map_nil]
    exact List.Perm.swap _ _ _
  · simp only [LoopState.withProbe, hmode, alive, Option.elim_none]
    exact List.Perm.swap _ _ _

theorem OnceEach.dropProbe {probe : Probe} (h : OnceEach s) (hprobe : s.probe? = some probe)
    (failed : Bool) : OnceEach (s.dropProbe probe.conn failed now) := by
  refine h.close (e := ⟨probe.conn, false, failed,
    now.saturatingDurationSince probe.conn.since, now⟩) ?_ ?_ (alive_dropProbe hprobe)
  · rw [LoopState.dropProbe, LoopState.close, LoopState.withProbe_ledger]
  · exact LoopState.withProbe_nextId s none

theorem onceEach_stepServed {served : Served} {event : ServedEvent} (h : OnceEach s)
    (hstep : s.stepServed served now event = some s') : OnceEach s' := by
  obtain ⟨told, htold, ⟨stage, hgo⟩ | ⟨failed, hend⟩⟩ := LoopState.stepServed_cases hstep
  · exact (h.told htold).1.goOn hgo
  · exact (h.told htold).1.endServed hend

theorem onceEach_stepCandidate {probe : Probe} {event : CandidateEvent} (h : OnceEach s)
    (hprobe : s.probe? = some probe) (hstep : s.stepCandidate probe now event = some s') :
    OnceEach s' := by
  obtain ⟨told, htold, hcase⟩ := LoopState.stepCandidate_cases hstep
  obtain ⟨honce, hsame⟩ := h.told htold
  rw [← hsame] at hprobe
  rcases hcase with ⟨stage, rfl⟩ | rfl | ⟨failed, rfl, -⟩
  · exact honce.of_eq (by simp) (by simp) (alive_withProbe hprobe rfl)
  · exact honce.of_eq (by simp) (by simp) (alive_win hprobe)
  · exact honce.dropProbe hprobe failed

theorem onceEach_accept {peer : SocketAddr} (h : OnceEach s)
    (harrival : s.Arrival peer now s') : OnceEach s' := by
  cases harrival with
  | bounced recent | rejected recent hasked => exact h
  | admitted hmode =>
    have hasked : OnceEach (s.onAccept peer now).2 := h
    refine hasked.admitPeer fun conn => ?_
    show [conn] = alive s.mode ++ [conn]
    rw [hmode]
    rfl
  | beside served recent hmode hfresh =>
    have hasked : OnceEach (LoopState.onAccept { s with recentlyEvicted := recent } peer now).2 := h
    refine hasked.admitPeer fun conn => ?_
    show [served.conn, conn] = alive s.mode ++ [conn]
    rw [hmode]
    rfl

theorem onceEach_settle (h : OnceEach s) (hstep : s.settle now = some s') : OnceEach s' := by
  obtain ⟨served, ended, next, mode, core, hmode, hnext, -, -, hmode', -, hid, -, -, hledger⟩ :=
    LoopState.settle_cases hstep
  refine h.close hledger hid ?_
  rw [hmode, hmode']
  cases next with
  | probing => cases hnext
  | nothing | handedOver conn | preempted conn =>
    cases hnext
    exact List.Perm.refl _

/-- Every step admits or ends each connection once. -/
theorem onceEach_step (h : OnceEach s) (hstep : s.step act = some s') : OnceEach s' := by
  have hclock : OnceEach { s with clock := act.now } := h
  cases (LoopState.step_cases hstep).2 with
  | accept peer hevent harrival => exact onceEach_accept hclock harrival
  | serve conn stage hevent hmode hserve =>
    subst hserve
    exact h.of_eq rfl rfl (by rw [hmode]; rfl)
  | served event served hevent hserved hstep => exact onceEach_stepServed hclock hstep
  | candidate event probe hevent hprobe hstep => exact onceEach_stepCandidate hclock hprobe hstep
  | evictionOver hevent hend => exact hclock.endServed hend
  | settle hevent hsettle => exact onceEach_settle hclock hsettle

end Macrdp.AdmittedOnce
