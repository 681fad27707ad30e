import Macrdp.PendingReplies
import Macrdp.StepSystem

/-!
# Matching device I/O completions to requests

Each request of a redirected device enters a completion id and waits for the body
of its completion. The router is kept alive by the channel's processor and by
every clone of the handle; a call that waits holds the handle it was made on.
-/

namespace Macrdp.IoCompletions

open StepSystem PendingReplies

/-- A completion: its id and its body. -/
abbrev Completion := UInt32 × List UInt8

/-- The router of a connection, and what keeps it alive. -/
structure State where
  board : Board UInt32 Unit Completion
  nextId : UInt32
  /-- The connection's processor is there. -/
  attached : Bool
  /-- Clones of the handle, but for those that a waiting call holds. -/
  clones : ℕ

/-- A step of the system. -/
inductive Action where
  /-- A call registers; its request cannot be sent on a closed event channel. -/
  | call (sent : Bool)
  | completion (id : UInt32) (body : List UInt8)
  /-- A completion that cannot be decoded. -/
  | undecodable
  | cancel (i : ℕ)
  | clone
  | dropClone
  | disconnect
  deriving DecidableEq

namespace State

/-- A connection begins with the handle that its backend is given. -/
def new : State := ⟨.empty, 0, true, 1⟩

/-- The router is freed when nothing keeps it alive. -/
def release (s : State) : State :=
  if s.attached = false ∧ s.clones = 0 ∧ s.board.callers.all (fun c => !c.waiting) = true then
    { s with board := s.board.drop }
  else s

/-- A call registers under the next id. -/
def register (s : State) : State :=
  { s with board := s.board.register s.nextId (), nextId := s.nextId + 1 }

/-- A step; one that cannot be taken is refused. -/
def step (s : State) : Action → Option State
  | .call sent =>
    if 0 < s.clones then
      some (if sent then s.register
        else { s.register with board := s.register.board.cancel s.board.callers.length })
    else none
  | .completion id body =>
    if s.attached then some { s with board := s.board.deliver id (id, body) } else none
  | .undecodable => if s.attached then some s else none
  | .cancel i => some { s with board := s.board.cancel i }.release
  | .clone => if 0 < s.clones then some { s with clones := s.clones + 1 } else none
  | .dropClone => if 0 < s.clones then some { s with clones := s.clones - 1 }.release else none
  | .disconnect => if s.attached then some { s with attached := false }.release else none

/-- A caller got at most one completion, and its own. -/
structure Served (c : Caller UInt32 Unit Completion) : Prop where
  routed : ∀ r ∈ c.received, r.1 = c.key
  once : c.received.length ≤ 1

/-- Every caller is served, and once the connection has ended none waits and no entry is left. -/
structure Sound (s : State) : Prop where
  served : ∀ (i : ℕ) (c : Caller UInt32 Unit Completion), s.board.callers[i]? = some c → Served c
  released : s.attached = false → s.board.pending.entries = [] ∧
    ∀ (i : ℕ) (c : Caller UInt32 Unit Completion), s.board.callers[i]? = some c → c.waiting = false

/-- No call is made after the end of the connection, and at the end no entry is left, unless
nothing keeps the router. -/
def orderly (s : State) : Action → Bool
  | .call _ => s.attached
  | .disconnect =>
    s.board.pending.entries.isEmpty ||
      decide (s.clones = 0) && s.board.callers.all fun c => !c.waiting
  | _ => true

/-- Freeing the router changes nothing else. -/
theorem release_eq (s : State) : s.release = { s with board := s.release.board } ∧
    (s.release.board = s.board ∨ s.release.board = s.board.drop) := by
  unfold release
  split
  · exact ⟨rfl, .inr rfl⟩
  · exact ⟨rfl, .inl rfl⟩

variable {s s' : State}

/-- Freeing the router keeps the links. -/
theorem linked_release (h : s.board.Linked) : s.release.board.Linked := by
  rcases (release_eq s).2 with hsame | hdrop
  · rw [hsame]
    exact h
  · rw [hdrop]
    exact h.drop

variable {a : Action}

/-- Every step keeps the entries and their callers linked. -/
theorem linked_step (h : s.board.Linked) (hstep : s.step a = some s') : s'.board.Linked := by
  cases a with simp only [step, Option.ite_none_right_eq_some, Option.some.injEq] at hstep
  | call sent =>
    rw [← hstep.2]
    have hregistered := h.register s.nextId ()
    cases sent with
    | true => exact hregistered
    | false => exact hregistered.cancel s.board.callers.length
  | completion id body =>
    rw [← hstep.2]
    exact h.deliver id (id, body)
  | undecodable | clone =>
    rw [← hstep.2]
    exact h
  | cancel i =>
    rw [← hstep]
    exact linked_release (h.cancel i)
  | dropClone =>
    rw [← hstep.2]
    have hlinked := linked_release (s := { s with clones := s.clones - 1 }) h
    exact hlinked
  | disconnect =>
    rw [← hstep.2]
    have hlinked := linked_release (s := { s with attached := false }) h
    exact hlinked

variable {i : ℕ} {c : Caller UInt32 Unit Completion}

/-- A completion changes no caller of another id. -/
theorem undisturbed (h : s.board.Linked) {id : UInt32} {body : List UInt8}
    (hstep : s.step (.completion id body) = some s')
    (hc : s.board.callers[i]? = some c) (hother : c.key ≠ id) : s'.board.callers[i]? = some c := by
  simp only [step, Option.ite_none_right_eq_some] at hstep
  rw [← Option.some.inj hstep.2]
  have hget := Board.getElem?_deliver id ((id, body) : Completion) s.board i
  have hentry : s.board.pending.lookup id ≠ some i := by
    intro hentry
    obtain ⟨d, hd, hkey, -⟩ := h.entry id i hentry
    rw [hc, Option.some.injEq] at hd
    rw [hd] at hother
    exact hother hkey
  rw [if_neg hentry] at hget
  exact hget.trans hc

/-- Nothing is left of a router that is freed. -/
theorem Sound.release (h : s.Sound) : s.release.Sound := by
  obtain ⟨heq, hboard⟩ := release_eq s
  rcases hboard with hsame | hdrop
  · rw [heq, hsame]
    exact h
  · rw [heq, hdrop]
    constructor
    · intro i c hc
      obtain ⟨d, hd, hkey, -, hreceived⟩ := Board.exists_of_drop hc
      have hserved := h.served i d hd
      refine ⟨?_, ?_⟩
      · rw [hkey, hreceived]
        exact hserved.routed
      · rw [hreceived]
        exact hserved.once
    · exact fun _ => ⟨rfl, fun i c hc => Board.waiting_drop hc⟩

/-- A call that is made before the end leaves all served. -/
theorem served_register (h : s.Sound) (hc : s.register.board.callers[i]? = some c) : Served c := by
  have hc' : (s.board.register s.nextId ()).callers[i]? = some c := hc
  rw [Board.getElem?_register] at hc'
  split at hc'
  · cases hc'
    exact ⟨fun r hr => absurd hr List.not_mem_nil, Nat.zero_le 1⟩
  · split at hc'
    · obtain ⟨d, hd, rfl⟩ := Option.map_eq_some_iff.mp hc'
      have hserved := h.served i d hd
      exact ⟨hserved.routed, hserved.once⟩
    · exact h.served i c hc'

/-- A caller that gives up is served as before. -/
theorem served_cancel {b : Board UInt32 Unit Completion} {n : ℕ}
    (h : ∀ (i : ℕ) (c : Caller UInt32 Unit Completion), b.callers[i]? = some c → Served c)
    (hc : (b.cancel n).callers[i]? = some c) : Served c := by
  rw [Board.getElem?_cancel] at hc
  split at hc
  · obtain ⟨d, hd, rfl⟩ := Option.map_eq_some_iff.mp hc
    have hserved := h i d hd
    exact ⟨hserved.routed, hserved.once⟩
  · exact h i c hc

/-- A call is sound exactly if the connection has not ended. -/
theorem sound_call {sent : Bool} (h : s.Sound)
    (hstep : s.step (.call sent) = some s') : s'.Sound ↔ s.attached = true := by
  simp only [step, Option.ite_none_right_eq_some] at hstep
  have hattached : s'.attached = s.attached := by
    rw [← Option.some.inj hstep.2]
    cases sent <;> rfl
  have hpending : s'.board.pending = s.board.pending.insert s.nextId s.board.callers.length := by
    rw [← Option.some.inj hstep.2]
    cases sent <;> rfl
  constructor
  · intro hnew
    by_contra hended
    rw [Bool.not_eq_true] at hended
    have hempty := (hnew.released (hattached.trans hended)).1
    have hlookup : s'.board.pending.lookup s.nextId = some s.board.callers.length := by
      rw [hpending]
      exact AList.lookup_insert _
    have hmem := AList.mem_lookup_iff.mp hlookup
    rw [hempty] at hmem
    exact absurd hmem List.not_mem_nil
  · intro hlive
    constructor
    · intro i c hc
      rw [← Option.some.inj hstep.2] at hc
      cases sent with
      | true => exact served_register h hc
      | false => exact served_cancel (fun i c hc => served_register h hc) hc
    · intro hended
      rw [hattached, hlive] at hended
      cases hended

/-- A completion leaves all served. -/
theorem sound_completion {id : UInt32} {body : List UInt8} (hlinked : s.board.Linked)
    (h : s.Sound) (hstep : s.step (.completion id body) = some s') : s'.Sound := by
  have hlinked' := linked_step hlinked hstep
  simp only [step, Option.ite_none_right_eq_some] at hstep
  constructor
  · intro i c hc
    refine ⟨?_, hlinked'.received_le i c hc⟩
    rw [← Option.some.inj hstep.2] at hc
    have hc' : (s.board.deliver id (id, body)).callers[i]? = some c := hc
    rw [Board.getElem?_deliver] at hc'
    split at hc'
    · next hentry =>
      obtain ⟨d, hd, rfl⟩ := Option.map_eq_some_iff.mp hc'
      obtain ⟨own, hown, hkey, -, hnone⟩ := hlinked.entry id i hentry
      rw [hd, Option.some.injEq] at hown
      unfold Caller.receive
      split
      · exact (h.served i d hd).routed
      · intro r hr
        have hr' : r ∈ d.received ++ [((id, body) : Completion)] := hr
        rw [hown, hnone, List.nil_append, List.mem_singleton] at hr'
        rw [hr', hown]
        exact hkey.symm
    · exact (h.served i c hc').routed
  · intro hended
    rw [← Option.some.inj hstep.2] at hended
    have hlive : s.attached = true := hstep.1
    rw [hlive] at hended
    cases hended

/-- The end of the connection is sound exactly if it is orderly. -/
theorem sound_disconnect (hlinked : s.board.Linked) (h : s.Sound)
    (hstep : s.step .disconnect = some s') : s'.Sound ↔ s.orderly .disconnect = true := by
  simp only [step, Option.ite_none_right_eq_some] at hstep
  rw [← Option.some.inj hstep.2, orderly, Bool.or_eq_true, Bool.and_eq_true, decide_eq_true_iff]
  have hnone : s.board.pending.entries = [] → ∀ (i : ℕ) (c : Caller UInt32 Unit Completion),
      s.board.callers[i]? = some c → c.waiting = false := by
    intro hempty i c hc
    refine Bool.eq_false_iff.mpr fun hwaiting => ?_
    have hmem := AList.mem_lookup_iff.mp (hlinked.waits i c hc hwaiting)
    rw [hempty] at hmem
    exact absurd hmem List.not_mem_nil
  by_cases hfree : s.clones = 0 ∧ s.board.callers.all (fun c => !c.waiting) = true
  · refine iff_of_true ?_ (.inr hfree)
    have hreleased : ({ s with attached := false } : State).release =
        { s with attached := false, board := s.board.drop } := if_pos ⟨rfl, hfree⟩
    rw [hreleased]
    refine ⟨fun i c hc => ?_, fun _ => ⟨rfl, fun i c hc => Board.waiting_drop hc⟩⟩
    obtain ⟨d, hd, hkey, -, hreceived⟩ := Board.exists_of_drop hc
    have hserved := h.served i d hd
    refine ⟨?_, ?_⟩
    · rw [hkey, hreceived]
      exact hserved.routed
    · rw [hreceived]
      exact hserved.once
  · have hkept : ({ s with attached := false } : State).release = { s with attached := false } :=
      if_neg fun hall => hfree hall.2
    rw [hkept, List.isEmpty_iff]
    constructor
    · exact fun hnew => .inl (hnew.released rfl).1
    · intro horderly
      rcases horderly with hempty | hall
      · exact ⟨h.served, fun _ => ⟨hempty, hnone hempty⟩⟩
      · exact absurd hall hfree

/-- A step is sound exactly if it is orderly. -/
theorem sound_step (hlinked : s.board.Linked) (h : s.Sound)
    (hstep : s.step a = some s') : s'.Sound ↔ s.orderly a = true := by
  cases a with
  | call sent => exact sound_call h hstep
  | completion id body => exact iff_of_true (sound_completion hlinked h hstep) rfl
  | undecodable =>
    simp only [step, Option.ite_none_right_eq_some] at hstep
    rw [← Option.some.inj hstep.2]
    exact iff_of_true h rfl
  | cancel i =>
    cases hstep
    have hcancelled : ({ s with board := s.board.cancel i } : State).Sound := by
      refine ⟨fun j c hc => served_cancel h.served hc, fun hended => ?_⟩
      obtain ⟨hempty, hnone⟩ := h.released hended
      refine ⟨hempty, fun j c hc => ?_⟩
      have hc' : (s.board.cancel i).callers[j]? = some c := hc
      rw [Board.getElem?_cancel] at hc'
      split at hc'
      · obtain ⟨d, -, rfl⟩ := Option.map_eq_some_iff.mp hc'
        simp [Caller.waiting, Caller.cancel]
      · exact hnone j c hc'
    exact iff_of_true hcancelled.release rfl
  | clone =>
    simp only [step, Option.ite_none_right_eq_some] at hstep
    rw [← Option.some.inj hstep.2]
    exact iff_of_true ⟨h.served, h.released⟩ rfl
  | dropClone =>
    simp only [step, Option.ite_none_right_eq_some] at hstep
    rw [← Option.some.inj hstep.2]
    have hdropped : ({ s with clones := s.clones - 1 } : State).Sound := ⟨h.served, h.released⟩
    exact iff_of_true hdropped.release rfl
  | disconnect => exact sound_disconnect hlinked h hstep

/-- A request. -/
def calls : Action → Bool
  | .call _ => true
  | _ => false

/-- The completion ids count the requests from zero. -/
structure Counted (past : List Action) (s : State) : Prop where
  count : s.board.keys.length = past.countP calls
  keys : s.board.keys = (List.range s.board.keys.length).map UInt32.ofNat
  next : s.nextId = UInt32.ofNat s.board.keys.length

/-- Each request takes the next completion id. -/
theorem counted_step {past : List Action} (h : Counted past s)
    (hstep : s.step a = some s') : Counted (past ++ [a]) s' := by
  have hkept : s'.board.keys = s.board.keys → s'.nextId = s.nextId → calls a = false →
      Counted (past ++ [a]) s' := by
    intro hkeys hnext hnot
    constructor
    · rw [hkeys, h.count, List.countP_append]
      simp [hnot]
    · rw [hkeys]
      exact h.keys
    · rw [hkeys, hnext]
      exact h.next
  have hreleased : ∀ t : State, t.release.board.keys = t.board.keys ∧
      t.release.nextId = t.nextId := by
    intro t
    obtain ⟨heq, hboard⟩ := release_eq t
    refine ⟨?_, by rw [heq]⟩
    rcases hboard with hsame | hdrop
    · rw [hsame]
    · rw [hdrop]
      exact Board.keys_drop t.board
  cases a with simp only [step, Option.ite_none_right_eq_some, Option.some.injEq] at hstep
  | call sent =>
    have hkeys : s'.board.keys = s.board.keys ++ [s.nextId] := by
      rw [← hstep.2]
      cases sent with
      | true => exact Board.keys_register _ _ _
      | false => exact (Board.keys_cancel _ _).trans (Board.keys_register _ _ _)
    have hnext : s'.nextId = s.nextId + 1 := by
      rw [← hstep.2]
      cases sent <;> rfl
    have hlen : s'.board.keys.length = s.board.keys.length + 1 := by
      rw [hkeys, List.length_append, List.length_singleton]
    constructor
    · rw [hlen, h.count, List.countP_append]
      rfl
    · rw [hlen, hkeys, List.range_succ, List.map_append, ← h.keys, h.next]
      rfl
    · rw [hlen, hnext, h.next]
      exact (UInt32.ofNat_add s.board.keys.length 1).symm
  | completion id body =>
    rw [← hstep.2] at hkept ⊢
    exact hkept (Board.keys_deliver _ _ _) rfl rfl
  | undecodable | clone =>
    rw [← hstep.2] at hkept ⊢
    exact hkept rfl rfl rfl
  | cancel i =>
    rw [← hstep] at hkept ⊢
    obtain ⟨hkeys, hnext⟩ := hreleased { s with board := s.board.cancel i }
    exact hkept (hkeys.trans (Board.keys_cancel i s.board)) hnext rfl
  | dropClone =>
    rw [← hstep.2] at hkept ⊢
    obtain ⟨hkeys, hnext⟩ := hreleased { s with clones := s.clones - 1 }
    exact hkept hkeys hnext rfl
  | disconnect =>
    rw [← hstep.2] at hkept ⊢
    obtain ⟨hkeys, hnext⟩ := hreleased { s with attached := false }
    exact hkept hkeys hnext rfl

/-- No two requests have the same completion id, and a completion changes no caller of another;
every caller gets at most one completion, its own, and once the connection has ended none waits
and no entry is left, exactly as long as every step is orderly. -/
theorem completions_iff_orderly {acts : List Action} {t : State} (hrun : run step new acts = some t)
    (hfew : acts.countP calls < 2 ^ 32) :
    t.board.keys.Nodup ∧
      (∀ id body s', t.step (.completion id body) = some s' →
        ∀ (i : ℕ) (c : Caller UInt32 Unit Completion), t.board.callers[i]? = some c →
          c.key ≠ id → s'.board.callers[i]? = some c) ∧
      ((∀ before s, before <+: acts → run step new before = some s → s.Sound) ↔
        Meets step (fun s a => s.orderly a = true) new acts) := by
  have hinv : ∀ (s : State) (a : Action) (s' : State), s.board.Linked → s.step a = some s' →
      s'.board.Linked := fun s a s' h hstep => linked_step h hstep
  refine ⟨?_, ?_, ?_⟩
  · have hcounted : Counted acts t :=
      run_history Counted (fun past s a s' h hstep => counted_step h hstep) ⟨rfl, rfl, rfl⟩ hrun
    have hcount := hcounted.count
    rw [hcounted.keys]
    exact nodup_ids 0 _ (by omega)
  · have hlinked := run_invariant_of_step (fun s : State => s.board.Linked) hinv
      Board.linked_empty hrun
    exact fun id body s' hstep i c hc hother => undisturbed hlinked hstep hc hother
  · have hiff : ∀ (s : State) (a : Action) (s' : State), True → s.board.Linked → s.Sound →
        s.step a = some s' → (s'.Sound ↔ s.orderly a = true) :=
      fun s a s' _ hlinked h hstep => sound_step hlinked h hstep
    have hnew : new.Sound := ⟨fun i c hc => (by cases hc), fun hended => (by cases hended)⟩
    exact prefixes_iff_meets_of_iff (fun _ => True) hinv hiff Board.linked_empty hnew hrun
      fun _ _ => trivial

/-- Requests are completed out of order, one twice, and the connection ends. -/
def completedCalls : List Action :=
  [.call true, .call true, .clone, .completion 1 [7], .completion 1 [8], .undecodable,
    .completion 5 [], .completion 0 [9], .disconnect, .dropClone]

/-- Each caller has its own completion, and the end leaves nothing. -/
theorem sound_completedCalls :
    ((run step new completedCalls).map fun s =>
      s.board.callers.map fun c => (c.key, c.received)) =
        some [(0, [(0, [9])]), (1, [(1, [7])])] ∧
      ∀ before s, before <+: completedCalls → run step new before = some s → s.Sound := by
  refine ⟨by decide +kernel, ?_⟩
  cases hrun : run step new completedCalls with
  | none =>
    have hsome : (run step new completedCalls).isSome = true := by decide +kernel
    rw [hrun] at hsome
    cases hsome
  | some t =>
    exact (completions_iff_orderly hrun (by decide)).2.2.mpr (meetsBool_iff.mp (by decide +kernel))

/-- A call waits for its completion, and the connection ends. -/
def strandedCall : List Action := [.call true, .disconnect]

/-- The call waits on after the end. -/
theorem not_sound_strandedCall :
    ¬ ∀ (acts : List Action) (s : State), run step new acts = some s →
      acts.countP calls < 2 ^ 32 → s.Sound := by
  intro h
  cases hrun : run step new strandedCall with
  | none =>
    have hsome : (run step new strandedCall).isSome = true := by decide +kernel
    rw [hrun] at hsome
    cases hsome
  | some t =>
    have hend : (run step new strandedCall).map (fun s => (s.attached, s.board.callers)) =
        some (false, [.new 0 ()]) := by decide +kernel
    rw [hrun, Option.map_some, Option.some.injEq] at hend
    obtain ⟨hattached, hcallers⟩ := Prod.mk.inj hend
    have hnone := ((h strandedCall t hrun (by decide)).released hattached).2 0 (.new 0 ())
      (by rw [hcallers]; rfl)
    cases hnone

end State

end Macrdp.IoCompletions
