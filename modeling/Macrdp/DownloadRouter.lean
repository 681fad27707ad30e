import Mathlib.Data.Finset.Basic
import Macrdp.PendingReplies
import Macrdp.StepSystem

/-!
# Routing the contents of remote files

All connections share one router. A task registers a stream id, sends its request
on a connection and waits for the response; the router hands a response to
whoever is registered under its stream id, whatever connection it came on, and the
end of a connection leaves the router as it is.
-/

namespace Macrdp.DownloadRouter

open StepSystem PendingReplies

/-- A response: the connection it came on and its stream id. -/
abbrev Response := ℕ × UInt32

/-- The router, and the connections that share it. A task is known by the connection its request
was sent on. -/
structure State where
  board : Board UInt32 ℕ Response
  nextStreamId : UInt32
  nextConn : ℕ
  connections : Finset ℕ

/-- A step of the system. -/
inductive Action where
  | connect
  /-- A task registers; its request cannot be sent once the server is gone. -/
  | register (conn : ℕ) (sent : Bool)
  /-- A response comes on a connection. -/
  | deliver (conn : ℕ) (streamId : UInt32)
  | abort (i : ℕ)
  | disconnect (conn : ℕ)
  deriving DecidableEq

namespace State

/-- No connection yet. -/
def new : State := ⟨.empty, 0, 0, ∅⟩

/-- The stream id of the next registration: zero is skipped. -/
def streamId (s : State) : UInt32 := if s.nextStreamId = 0 then s.nextStreamId + 1 else s.nextStreamId

/-- A task registers under a new stream id. -/
def register (conn : ℕ) (s : State) : State :=
  { s with board := s.board.register s.streamId conn, nextStreamId := s.streamId + 1 }

/-- A step; one that cannot be taken is refused. -/
def step (s : State) : Action → Option State
  | .connect =>
    some { s with nextConn := s.nextConn + 1, connections := insert s.nextConn s.connections }
  | .register conn sent =>
    if conn < s.nextConn then
      some (if sent then s.register conn
        else
          { s.register conn with
            board := (s.register conn).board.cancel s.board.callers.length })
    else none
  | .deliver conn streamId =>
    if conn ∈ s.connections then some { s with board := s.board.deliver streamId (conn, streamId) }
    else none
  | .abort i => some { s with board := s.board.cancel i }
  | .disconnect conn =>
    if conn ∈ s.connections then some { s with connections := s.connections.erase conn } else none

/-- A task got at most one response, its own and from its own connection, and does not wait on a
connection that has ended. -/
structure Served (connections : Finset ℕ) (c : Caller UInt32 ℕ Response) : Prop where
  routed : ∀ r ∈ c.received, r = (c.info, c.key)
  once : c.received.length ≤ 1
  awaited : c.waiting = true → c.info ∈ connections

/-- Every task is served. -/
def Sound (s : State) : Prop :=
  ∀ (i : ℕ) (c : Caller UInt32 ℕ Response), s.board.callers[i]? = some c → Served s.connections c

/-- A request is sent on a connection that has not ended, a response comes on the connection of
the task that is registered for it, and no task waits on a connection that ends. -/
def orderly (s : State) : Action → Bool
  | .register conn sent => !sent || decide (conn ∈ s.connections)
  | .deliver conn streamId =>
    (s.board.pending.lookup streamId).all fun i =>
      (s.board.callers[i]?).all fun c => c.cancelled || decide (c.info = conn)
  | .disconnect conn => s.board.callers.all fun c => !(c.waiting && decide (c.info = conn))
  | _ => true

variable {s s' : State} {a : Action}

/-- Every step keeps the entries and their tasks linked. -/
theorem linked_step (h : s.board.Linked) (hstep : s.step a = some s') : s'.board.Linked := by
  cases a with
  | connect =>
    cases hstep
    exact h
  | register conn sent =>
    simp only [step, Option.ite_none_right_eq_some] at hstep
    rw [← Option.some.inj hstep.2]
    have hregistered := h.register s.streamId conn
    cases sent with
    | true => exact hregistered
    | false => exact hregistered.cancel s.board.callers.length
  | deliver conn streamId =>
    simp only [step, Option.ite_none_right_eq_some] at hstep
    rw [← Option.some.inj hstep.2]
    exact h.deliver streamId (conn, streamId)
  | abort i =>
    cases hstep
    exact h.cancel i
  | disconnect conn =>
    simp only [step, Option.ite_none_right_eq_some] at hstep
    rw [← Option.some.inj hstep.2]
    exact h

variable {c : Caller UInt32 ℕ Response}

/-- A task that gives up waits for nothing. -/
theorem Served.cancel {connections : Finset ℕ}
    (h : Served connections c) : Served connections c.cancel where
  __ := h
  awaited := fun hwaiting => by simp [Caller.waiting, Caller.cancel] at hwaiting

/-- A task that is released waits for nothing. -/
theorem Served.close {connections : Finset ℕ}
    (h : Served connections c) : Served connections c.close where
  __ := h
  awaited := fun hwaiting => by simp [Caller.waiting, Caller.close] at hwaiting

/-- A task that gives up leaves all served. -/
theorem sound_cancel (h : s.Sound) (n : ℕ) :
    ({ s with board := s.board.cancel n } : State).Sound := by
  intro i c hc
  have hc' : (s.board.cancel n).callers[i]? = some c := hc
  rw [Board.getElem?_cancel] at hc'
  split at hc'
  · obtain ⟨d, hd, rfl⟩ := Option.map_eq_some_iff.mp hc'
    exact (h i d hd).cancel
  · exact h i c hc'

/-- A task that registers is new, and the others are served as before. -/
theorem served_register (h : s.Sound) (conn : ℕ) {i : ℕ}
    (hc : (s.register conn).board.callers[i]? = some c) :
    i = s.board.callers.length ∧ c = .new s.streamId conn ∨
      i ≠ s.board.callers.length ∧ Served s.connections c := by
  have hc' : (s.board.register s.streamId conn).callers[i]? = some c := hc
  rw [Board.getElem?_register] at hc'
  split at hc'
  · next hlast => exact .inl ⟨hlast, (Option.some.inj hc').symm⟩
  · next hother =>
    split at hc'
    · obtain ⟨d, hd, rfl⟩ := Option.map_eq_some_iff.mp hc'
      exact .inr ⟨hother, (h i d hd).close⟩
    · exact .inr ⟨hother, h i c hc'⟩

/-- A registration is sound exactly if its connection has not ended. -/
theorem sound_register (h : s.Sound) (conn : ℕ) :
    (s.register conn).Sound ↔ conn ∈ s.connections := by
  constructor
  · intro hnew
    have hlast : (s.register conn).board.callers[s.board.callers.length]? =
        some (.new s.streamId conn) := by
      have hget := Board.getElem?_register s.streamId conn s.board s.board.callers.length
      rw [if_pos rfl] at hget
      exact hget
    exact (hnew _ _ hlast).awaited rfl
  · intro hconn i c hc
    rcases served_register h conn hc with ⟨-, rfl⟩ | ⟨-, hserved⟩
    · exact ⟨fun r hr => absurd hr List.not_mem_nil, Nat.zero_le 1, fun _ => hconn⟩
    · exact hserved

/-- A registration whose request is not sent waits for nothing. -/
theorem sound_unsent (h : s.Sound) (conn : ℕ) :
    ({ s.register conn with
        board := (s.register conn).board.cancel s.board.callers.length } : State).Sound := by
  intro i c hc
  have hc' : ((s.register conn).board.cancel s.board.callers.length).callers[i]? = some c := hc
  rw [Board.getElem?_cancel] at hc'
  split at hc'
  · next hlast =>
    obtain ⟨d, hd, rfl⟩ := Option.map_eq_some_iff.mp hc'
    rcases served_register h conn hd with ⟨-, rfl⟩ | ⟨hother, -⟩
    · refine ⟨fun r hr => absurd hr List.not_mem_nil, Nat.zero_le 1, fun hwaiting => ?_⟩
      cases hwaiting
    · exact absurd hlast.symm hother
  · next hother =>
    rcases served_register h conn hc' with ⟨hlast, -⟩ | ⟨-, hserved⟩
    · exact absurd hlast.symm hother
    · exact hserved

/-- A response is sound exactly if the task it goes to sent its request on the same
connection. -/
theorem sound_deliver (hlinked : s.board.Linked) (h : s.Sound) (conn : ℕ) (streamId : UInt32) :
    ({ s with board := s.board.deliver streamId (conn, streamId) } : State).Sound ↔
      s.orderly (.deliver conn streamId) = true := by
  have hget := Board.getElem?_deliver streamId ((conn, streamId) : Response) s.board
  cases hentry : s.board.pending.lookup streamId with
  | none =>
    have hsame : s.board.deliver streamId (conn, streamId) = s.board := by
      rw [Board.deliver, hentry]
    refine iff_of_true ?_ ?_
    · rw [hsame]
      exact h
    · simp only [orderly, hentry, Option.all_none]
  | some n =>
    obtain ⟨own, hown, hkey, -, hnone⟩ := hlinked.entry streamId n hentry
    have horderly : s.orderly (.deliver conn streamId) = true ↔
        own.cancelled = true ∨ own.info = conn := by
      simp only [orderly, hentry, Option.all_some, hown, Bool.or_eq_true, decide_eq_true_iff]
    rw [horderly]
    constructor
    · intro hnew
      cases hcancelled : own.cancelled with
      | true => exact .inl rfl
      | false =>
        have hgot := hget n
        rw [if_pos hentry, hown] at hgot
        have hreceived : (conn, streamId) ∈ (own.receive (conn, streamId)).received := by
          rw [Caller.receive, hcancelled]
          exact List.mem_append_right _ (List.mem_singleton_self _)
        have hrouted := (hnew n _ hgot).routed _ hreceived
        have hinfo : (own.receive ((conn, streamId) : Response)).info = own.info := by
          unfold Caller.receive
          split <;> rfl
        have hpair : conn = (own.receive ((conn, streamId) : Response)).info :=
          (Prod.mk.inj hrouted).1
        rw [hinfo] at hpair
        exact .inr hpair.symm
    · intro hsame i c hc
      have hc' : (s.board.deliver streamId (conn, streamId)).callers[i]? = some c := hc
      rw [hget, hentry] at hc'
      split at hc'
      · next hi =>
        obtain ⟨d, hd, rfl⟩ := Option.map_eq_some_iff.mp hc'
        rw [← Option.some.inj hi, hown, Option.some.injEq] at hd
        rw [← hd]
        unfold Caller.receive
        cases hcancelled : own.cancelled with
        | true => exact h n own hown
        | false =>
          have hconn : own.info = conn := by
            rcases hsame with hgone | hconn
            · rw [hcancelled] at hgone
              cases hgone
            · exact hconn
          constructor
          · intro r hr
            have hr' : r ∈ own.received ++ [((conn, streamId) : Response)] := hr
            rw [hnone, List.nil_append, List.mem_singleton] at hr'
            exact hr'.trans (Prod.ext hconn.symm hkey.symm)
          · have hlen : (own.received ++ [((conn, streamId) : Response)]).length ≤ 1 := by
              rw [hnone]
              exact Nat.le_refl 1
            exact hlen
          · intro hwaiting
            simp [Caller.waiting] at hwaiting
      · exact h i c hc'

/-- A step is sound exactly if it is orderly. -/
theorem sound_step (hlinked : s.board.Linked) (h : s.Sound)
    (hstep : s.step a = some s') : s'.Sound ↔ s.orderly a = true := by
  cases a with
  | connect =>
    cases hstep
    refine iff_of_true (fun i c hc => ?_) rfl
    have hserved := h i c hc
    exact ⟨hserved.routed, hserved.once, fun hwaiting =>
      Finset.mem_insert_of_mem (hserved.awaited hwaiting)⟩
  | register conn sent =>
    simp only [step, Option.ite_none_right_eq_some] at hstep
    rw [← Option.some.inj hstep.2]
    cases sent with
    | true =>
      have hsound := sound_register h conn
      simpa [orderly] using hsound
    | false => exact iff_of_true (sound_unsent h conn) rfl
  | deliver conn streamId =>
    simp only [step, Option.ite_none_right_eq_some] at hstep
    rw [← Option.some.inj hstep.2]
    exact sound_deliver hlinked h conn streamId
  | abort i =>
    cases hstep
    exact iff_of_true (sound_cancel h i) rfl
  | disconnect conn =>
    simp only [step, Option.ite_none_right_eq_some] at hstep
    rw [← Option.some.inj hstep.2, orderly, List.all_eq_true]
    constructor
    · intro hnew c hc
      obtain ⟨i, hi⟩ := List.mem_iff_getElem?.mp hc
      cases hwaiting : c.waiting with
      | false => rfl
      | true =>
        have hlive := (hnew i c hi).awaited hwaiting
        have hne : c.info ≠ conn := (Finset.mem_erase.mp hlive).1
        simp [hne]
    · intro hfree i c hc
      have hserved := h i c hc
      refine ⟨hserved.routed, hserved.once, fun hwaiting => ?_⟩
      have hnot := hfree c (List.mem_of_getElem? hc)
      have hne : c.info ≠ conn := by simpa [hwaiting] using hnot
      exact Finset.mem_erase.mpr ⟨hne, hserved.awaited hwaiting⟩

/-- A registration. -/
def registers : Action → Bool
  | .register _ _ => true
  | _ => false

/-- The stream ids count the registrations from one, as long as they fit. -/
structure Counted (past : List Action) (s : State) : Prop where
  count : s.board.keys.length = past.countP registers
  keys : s.board.keys.length < 2 ^ 32 →
    s.board.keys = (List.range s.board.keys.length).map fun k => UInt32.ofNat (k + 1)
  next : s.board.keys.length + 1 < 2 ^ 32 →
    s.streamId = UInt32.ofNat (s.board.keys.length + 1)

/-- Each registration takes the next stream id. -/
theorem counted_step {past : List Action} (h : Counted past s)
    (hstep : s.step a = some s') : Counted (past ++ [a]) s' := by
  have hkept : s'.board.keys = s.board.keys → s'.nextStreamId = s.nextStreamId →
      registers a = false → Counted (past ++ [a]) s' := by
    intro hkeys hnext hnot
    have hid : s'.streamId = s.streamId := by rw [streamId, streamId, hnext]
    constructor
    · rw [hkeys, h.count, List.countP_append]
      simp [hnot]
    · rw [hkeys]
      exact h.keys
    · rw [hkeys, hid]
      exact h.next
  cases a with
  | connect =>
    cases hstep
    exact hkept rfl rfl rfl
  | register conn sent =>
    simp only [step, Option.ite_none_right_eq_some] at hstep
    have hkeys : s'.board.keys = s.board.keys ++ [s.streamId] := by
      rw [← Option.some.inj hstep.2]
      cases sent with
      | true => exact Board.keys_register _ _ _
      | false => exact (Board.keys_cancel _ _).trans (Board.keys_register _ _ _)
    have hnext : s'.nextStreamId = s.streamId + 1 := by
      rw [← Option.some.inj hstep.2]
      cases sent <;> rfl
    have hlen : s'.board.keys.length = s.board.keys.length + 1 := by
      rw [hkeys, List.length_append, List.length_singleton]
    constructor
    · rw [hlen, h.count, List.countP_append]
      rfl
    · intro hfew
      rw [hlen] at hfew ⊢
      rw [hkeys, List.range_succ, List.map_append, ← h.keys (by omega), h.next hfew]
      rfl
    · intro hfew
      rw [hlen] at hfew ⊢
      have hsum : s'.nextStreamId = UInt32.ofNat (s.board.keys.length + 1 + 1) := by
        rw [hnext, h.next (by omega)]
        exact (UInt32.ofNat_add (s.board.keys.length + 1) 1).symm
      have hnat : (UInt32.ofNat (s.board.keys.length + 1 + 1)).toNat =
          s.board.keys.length + 1 + 1 := UInt32.toNat_ofNat_of_lt' hfew
      have hne : s'.nextStreamId ≠ 0 := by
        intro hzero
        rw [← hsum, hzero] at hnat
        cases hnat
      rw [streamId, if_neg hne]
      exact hsum
  | deliver conn streamId =>
    simp only [step, Option.ite_none_right_eq_some] at hstep
    refine hkept ?_ ?_ rfl
    · rw [← Option.some.inj hstep.2]
      exact Board.keys_deliver _ _ _
    · rw [← Option.some.inj hstep.2]
  | abort i =>
    cases hstep
    exact hkept (Board.keys_cancel _ _) rfl rfl
  | disconnect conn =>
    simp only [step, Option.ite_none_right_eq_some] at hstep
    refine hkept ?_ ?_ rfl <;> rw [← Option.some.inj hstep.2]

/-- With fewer than 2^32 registrations no two tasks have the same stream id. -/
theorem Counted.nodup {past : List Action} (h : Counted past s)
    (hfew : past.countP registers < 2 ^ 32) : s.board.keys.Nodup := by
  rw [h.keys (h.count.symm ▸ hfew)]
  have hcount := h.count
  exact nodup_ids 1 _ (by omega)

/-- No two tasks have the same stream id, and every task gets at most one response, its own and
from its own connection, and waits on no connection that has ended, exactly as long as every step
is orderly. -/
theorem sound_iff_orderly {acts : List Action} {t : State} (hrun : run step new acts = some t)
    (hfew : acts.countP registers < 2 ^ 32) :
    t.board.keys.Nodup ∧
      ((∀ before s, before <+: acts → run step new before = some s → s.Sound) ↔
        Meets step (fun s a => s.orderly a = true) new acts) := by
  constructor
  · have hcounted : Counted acts t := by
      refine run_history Counted (fun past s a s' h hstep => counted_step h hstep) ?_ hrun
      exact ⟨rfl, fun _ => rfl, fun _ => rfl⟩
    exact hcounted.nodup hfew
  · have hinv : ∀ (s : State) (a : Action) (s' : State), s.board.Linked → s.step a = some s' →
        s'.board.Linked := fun s a s' h hstep => linked_step h hstep
    have hiff : ∀ (s : State) (a : Action) (s' : State), True → s.board.Linked → s.Sound →
        s.step a = some s' → (s'.Sound ↔ s.orderly a = true) :=
      fun s a s' _ hlinked h hstep => sound_step hlinked h hstep
    have hnew : new.Sound := fun i c hc => by cases hc
    exact prefixes_iff_meets_of_iff (fun _ => True) hinv hiff Board.linked_empty hnew hrun
      fun _ _ => trivial

/-- Two connections, each with a task; the responses come in the other order, and then both
connections end. -/
def twoConnections : List Action :=
  [.connect, .connect, .register 0 true, .register 1 true, .register 1 true, .deliver 1 2,
    .abort 2, .deliver 0 1, .disconnect 0, .deliver 1 3, .disconnect 1]

/-- Both tasks have their own response, and the aborted one has none. -/
theorem sound_twoConnections :
    ((run step new twoConnections).map fun s =>
      s.board.callers.map fun c => (c.info, c.key, c.received)) =
        some [(0, 1, [(0, 1)]), (1, 2, [(1, 2)]), (1, 3, [])] ∧
      ∀ before s, before <+: twoConnections → run step new before = some s → s.Sound := by
  refine ⟨by decide +kernel, ?_⟩
  cases hrun : run step new twoConnections with
  | none =>
    have hsome : (run step new twoConnections).isSome = true := by decide +kernel
    rw [hrun] at hsome
    cases hsome
  | some t =>
    exact (sound_iff_orderly hrun (by decide)).2.mpr (meetsBool_iff.mp (by decide +kernel))

/-- A task sends its request on a connection, and the connection ends. -/
def strandedTask : List Action := [.connect, .register 0 true, .disconnect 0]

/-- The task waits on after the end. -/
theorem not_sound_strandedTask :
    ¬ ∀ (acts : List Action) (s : State), run step new acts = some s →
      acts.countP registers < 2 ^ 32 → s.Sound := by
  intro h
  cases hrun : run step new strandedTask with
  | none =>
    have hsome : (run step new strandedTask).isSome = true := by decide +kernel
    rw [hrun] at hsome
    cases hsome
  | some t =>
    have hend : (run step new strandedTask).map (fun s => (s.board.callers, s.connections)) =
        some ([.new 1 0], ∅) := by decide +kernel
    rw [hrun, Option.map_some, Option.some.injEq] at hend
    obtain ⟨hcallers, hconnections⟩ := Prod.mk.inj hend
    have hlive := (h strandedTask t hrun (by decide) 0 (.new 1 0) (by rw [hcallers]; rfl)).awaited rfl
    rw [hconnections] at hlive
    exact absurd hlive (Finset.notMem_empty _)

end State

end Macrdp.DownloadRouter
