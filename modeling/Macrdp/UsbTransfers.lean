import Macrdp.PendingReplies
import Macrdp.StepSystem

/-!
# Matching URB completions to USB transfers

A transfer of a redirected device enters a request id, ships its request and waits for the
completion of that id or for the end of the device channel, whichever its task sees first. The
task sleeps until one of the two wakes it. The channel ends when the client closes it, or with
its processor.
-/

namespace Macrdp.UsbTransfers

open StepSystem PendingReplies

/-- What a waiter needs of a completion. -/
structure UrbReply where
  outputBuffer : List UInt8
  urbResult : List UInt8
  hresult : UInt32
  deriving DecidableEq

/-- A completion as it is routed: its request id and its reply. -/
abbrev Completion := UInt32 × UrbReply

/-- The payload of a completion's result: as bytes, or decoded. -/
inductive TsUrbResultPayload where
  | raw (bytes : List UInt8)
  | typed
  deriving DecidableEq

/-- The bytes that a waiter is given. -/
def TsUrbResultPayload.bytes : TsUrbResultPayload → List UInt8
  | .raw bytes => bytes
  | .typed => []

/-- A message of the client on the device channel. -/
inductive ClientDevicePdu where
  | urbComp (reqId : UInt32) (payload : TsUrbResultPayload) (outputBuffer : List UInt8)
    (hresult : UInt32)
  | urbCompNoData (reqId : UInt32) (payload : TsUrbResultPayload) (hresult : UInt32)
  /-- A message that completes no request. -/
  | other
  deriving DecidableEq

/-- The completion that a message carries. -/
def ClientDevicePdu.completion : ClientDevicePdu → Option Completion
  | .urbComp reqId payload outputBuffer hresult =>
    some (reqId, ⟨outputBuffer, payload.bytes, hresult⟩)
  | .urbCompNoData reqId payload hresult => some (reqId, ⟨[], payload.bytes, hresult⟩)
  | .other => none

/-- What a call ends with. -/
inductive Outcome where
  | replied (completion : Completion)
  /-- The sending end of its completion was dropped. -/
  | connectionClosed
  | channelClosed
  /-- The event loop did not take the request. -/
  | eventLoopGone
  deriving DecidableEq

/-- How far a call is. -/
inductive Phase where
  /-- It has its request id. -/
  | registered
  /-- It awaits the reply; its task sleeps unless it was woken. -/
  | waiting (woken : Bool)
  | resolved (outcome : Outcome)
  /-- Its time ran out. -/
  | cancelled
  deriving DecidableEq

/-- A sleeping task is to be polled. -/
def Phase.wake : Phase → Phase
  | .waiting _ => .waiting true
  | p => p

/-- The router of a device, its calls, and what they depend on. -/
structure State where
  board : Board UInt32 Unit Completion
  phases : List Phase
  nextId : UInt32
  /-- The value of the liveness watch. -/
  closed : Bool
  /-- The processor of the device channel, which holds the watch's sender, is there. -/
  processor : Bool
  eventLoop : Bool

/-- A step of the system. -/
inductive Action where
  /-- A transfer is called on a clone of the handle. -/
  | register
  /-- A call ships its request. -/
  | send (i : ℕ)
  /-- The task of a call is polled. -/
  | poll (i : ℕ)
  /-- The time-out drops a call. -/
  | cancel (i : ℕ)
  /-- The processor gets a payload; one that cannot be decoded is no message. -/
  | process (pdu : Option ClientDevicePdu)
  /-- The client closes the channel. -/
  | close
  | dropProcessor
  | dropEventLoop
  deriving DecidableEq

namespace State

/-- A device that was just announced. -/
def new : State := ⟨.empty, [], 0, false, true, true⟩

/-- The device is gone: the watch's value was flipped, or its sender is dropped. -/
def gone (s : State) : Bool := s.closed || !s.processor

/-- The next request id has 31 bits. -/
def requestId (s : State) : UInt32 := s.nextId &&& 0x7FFFFFFF

/-- Wake the task whose call is entered under an id. -/
def wakeEntry (id : UInt32) (s : State) : List Phase :=
  match s.board.pending.lookup id with
  | some i => s.phases.modify i .wake
  | none => s.phases

/-- A call enters under the next id; the sending end that it replaces is dropped. -/
def register (s : State) : State :=
  { s with
    board := s.board.register s.requestId ()
    phases := s.wakeEntry s.requestId ++ [.registered]
    nextId := s.nextId + 1 }

/-- A completion goes to the call that is entered under its id. -/
def deliver (completion : Completion) (s : State) : State :=
  { s with
    board := s.board.deliver completion.1 completion
    phases := s.wakeEntry completion.1 }

/-- A call ends in a phase, and its receiving end with it. -/
def finish (i : ℕ) (phase : Phase) (s : State) : State :=
  { s with board := s.board.cancel i, phases := s.phases.set i phase }

/-- All sleeping tasks are woken. -/
def wakeAll (s : State) : State := { s with phases := s.phases.map .wake }

/-- Poll the reply of a call, and only then whether the device is gone. -/
def awaitReply (i : ℕ) (c : Caller UInt32 Unit Completion) (s : State) : State :=
  match c.received.head? with
  | some completion => { s with phases := s.phases.set i (.resolved (.replied completion)) }
  | none =>
    if c.closed then s.finish i (.resolved .connectionClosed)
    else if s.gone then s.finish i (.resolved .channelClosed)
    else { s with phases := s.phases.set i (.waiting false) }

/-- A step; one that cannot be taken is refused. -/
def step (s : State) : Action → Option State
  | .register => some s.register
  | .send i =>
    if s.phases[i]? = some .registered then
      some (if s.eventLoop then { s with phases := s.phases.set i (.waiting true) }
        else s.finish i (.resolved .eventLoopGone))
    else none
  | .poll i =>
    if s.phases[i]? = some (.waiting true) then (s.board.callers[i]?).map fun c => s.awaitReply i c
    else none
  | .cancel i =>
    match s.phases[i]? with
    | some (.waiting _) => some (s.finish i .cancelled)
    | _ => none
  | .process pdu =>
    if s.processor then
      some (match pdu.bind ClientDevicePdu.completion with
        | some completion => s.deliver completion
        | none => s)
    else none
  | .close => if s.processor then some { s.wakeAll with closed := true } else none
  | .dropProcessor => if s.processor then some { s.wakeAll with processor := false } else none
  | .dropEventLoop => some { s with eventLoop := false }

/-- What is known of a call in a phase; `gone` tells that the device is gone. -/
def Fits (gone : Bool) (c : Caller UInt32 Unit Completion) : Phase → Prop
  | .registered => c.cancelled = false
  | .waiting woken =>
    c.cancelled = false ∧ (woken = false → c.received = [] ∧ c.closed = false ∧ gone = false)
  | .resolved (.replied completion) => completion ∈ c.received
  | .resolved .connectionClosed => c.received = [] ∧ c.cancelled = true ∧ c.closed = true
  | .resolved .channelClosed => c.received = [] ∧ c.cancelled = true
  | .resolved .eventLoopGone => c.cancelled = true
  | .cancelled => c.cancelled = true

/-- What is known of a device. -/
structure Inv (s : State) : Prop where
  linked : s.board.Linked
  aligned : s.phases.length = s.board.callers.length
  routed : ∀ (i : ℕ) (c : Caller UInt32 Unit Completion), s.board.callers[i]? = some c →
    ∀ r ∈ c.received, r.1 = c.key
  fits : ∀ (i : ℕ) (c : Caller UInt32 Unit Completion) (p : Phase), s.board.callers[i]? = some c →
    s.phases[i]? = some p → Fits s.gone c p

/-- The phases after the entry of an id was woken. -/
theorem getElem?_wakeEntry (id : UInt32) (s : State) (j : ℕ) :
    (s.wakeEntry id)[j]? =
      if s.board.pending.lookup id = some j then (s.phases[j]?).map .wake else s.phases[j]? := by
  unfold wakeEntry
  split
  · next i hlookup => simp only [getElem?_modify_eq, hlookup, Option.some.injEq]
  · next hlookup => rw [hlookup, if_neg (by simp)]

/-- Waking adds no call. -/
theorem length_wakeEntry (id : UInt32) (s : State) : (s.wakeEntry id).length = s.phases.length := by
  unfold wakeEntry
  split
  · exact List.length_modify ..
  · rfl

variable {c : Caller UInt32 Unit Completion}

/-- A woken call fits whatever the device is. -/
theorem fits_wake {before after : Bool} {p : Phase}
    (h : Fits before c p) : Fits after c p.wake := by
  cases p with
  | registered => exact h
  | waiting woken => exact ⟨h.1, nofun⟩
  | resolved outcome => cases outcome <;> exact h
  | cancelled => exact h

/-- A call whose sending end is dropped fits when it was woken. -/
theorem fits_wake_close {gone : Bool} {p : Phase}
    (h : Fits gone c p) : Fits gone c.close p.wake := by
  cases p with
  | registered => exact h
  | waiting woken => exact ⟨h.1, nofun⟩
  | resolved outcome =>
    cases outcome with
    | connectionClosed => exact ⟨h.1, h.2.1, rfl⟩
    | _ => exact h
  | cancelled => exact h

/-- A call that gets a completion fits when it was woken. -/
theorem fits_wake_receive {gone : Bool} {p : Phase}
    (completion : Completion) (h : Fits gone c p) : Fits gone (c.receive completion) p.wake := by
  unfold Caller.receive
  split
  · exact fits_wake h
  · next hlive =>
    cases p with
    | registered => exact h
    | waiting woken => exact ⟨h.1, nofun⟩
    | resolved outcome =>
      cases outcome with
      | replied own => exact List.mem_append_left _ h
      | connectionClosed => exact absurd h.2.1 hlive
      | channelClosed => exact absurd h.2 hlive
      | eventLoopGone => exact absurd h hlive
    | cancelled => exact absurd h hlive

variable {s s' : State}

/-- Entering keeps what is known. -/
theorem Inv.register (h : s.Inv) : s.register.Inv := by
  have hlen : (s.wakeEntry s.requestId).length = s.board.callers.length :=
    (length_wakeEntry _ s).trans h.aligned
  have hphases : ∀ j, s.register.phases[j]? =
      if j = s.board.callers.length then some .registered else (s.wakeEntry s.requestId)[j]? := by
    intro j
    change (s.wakeEntry s.requestId ++ [Phase.registered])[j]? = _
    by_cases hlast : j = s.board.callers.length
    · rw [if_pos hlast, List.getElem?_append_right (by omega), hlast, hlen, Nat.sub_self]
      rfl
    · rw [if_neg hlast]
      by_cases hin : j < s.board.callers.length
      · exact List.getElem?_append_left (by omega)
      · rw [List.getElem?_eq_none (by rw [List.length_append, hlen, List.length_singleton]; omega),
          List.getElem?_eq_none (by omega)]
  constructor
  · exact h.linked.register _ _
  · have hcallers : s.register.board.callers.length = s.board.callers.length + 1 := by
      have hkeys := congrArg List.length (Board.keys_register s.requestId () s.board)
      rw [Board.keys, Board.keys, List.length_append, List.length_map, List.length_map] at hkeys
      exact hkeys
    rw [hcallers]
    change (s.wakeEntry s.requestId ++ [Phase.registered]).length = _
    rw [List.length_append, hlen]
    rfl
  · intro i c hc
    have hc' : (s.board.register s.requestId ()).callers[i]? = some c := hc
    rw [Board.getElem?_register] at hc'
    split at hc'
    · cases hc'
      exact fun r hr => absurd hr List.not_mem_nil
    · split at hc'
      · obtain ⟨d, hd, rfl⟩ := Option.map_eq_some_iff.mp hc'
        exact h.routed i d hd
      · exact h.routed i c hc'
  · intro i c p hc hp
    have hc' : (s.board.register s.requestId ()).callers[i]? = some c := hc
    rw [Board.getElem?_register] at hc'
    rw [hphases] at hp
    by_cases hlast : i = s.board.callers.length
    · rw [if_pos hlast] at hc' hp
      cases hc'
      cases hp
      exact rfl
    · rw [if_neg hlast] at hc' hp
      rw [getElem?_wakeEntry] at hp
      by_cases hentry : s.board.pending.lookup s.requestId = some i
      · rw [if_pos hentry] at hc' hp
        obtain ⟨d, hd, rfl⟩ := Option.map_eq_some_iff.mp hc'
        obtain ⟨q, hq, rfl⟩ := Option.map_eq_some_iff.mp hp
        exact fits_wake_close (h.fits i d q hd hq)
      · rw [if_neg hentry] at hc' hp
        exact h.fits i c p hc' hp

/-- A completion keeps what is known. -/
theorem Inv.deliver (h : s.Inv) (completion : Completion) : (s.deliver completion).Inv := by
  constructor
  · exact h.linked.deliver _ _
  · have hcallers : (s.deliver completion).board.callers.length = s.board.callers.length := by
      have hkeys := congrArg List.length (Board.keys_deliver completion.1 completion s.board)
      rw [Board.keys, Board.keys, List.length_map, List.length_map] at hkeys
      exact hkeys
    rw [hcallers]
    exact (length_wakeEntry _ s).trans h.aligned
  · intro i c hc
    have hc' : (s.board.deliver completion.1 completion).callers[i]? = some c := hc
    rw [Board.getElem?_deliver] at hc'
    split at hc'
    · next hentry =>
      obtain ⟨d, hd, rfl⟩ := Option.map_eq_some_iff.mp hc'
      obtain ⟨own, hown, hkey, -⟩ := h.linked.entry _ i hentry
      rw [hd, Option.some.injEq] at hown
      unfold Caller.receive
      split
      · exact h.routed i d hd
      · intro r hr
        rcases List.mem_append.mp hr with hr | hr
        · exact h.routed i d hd r hr
        · rw [List.mem_singleton.mp hr, hown]
          exact hkey.symm
    · exact h.routed i c hc'
  · intro i c p hc hp
    have hc' : (s.board.deliver completion.1 completion).callers[i]? = some c := hc
    have hp' : (s.wakeEntry completion.1)[i]? = some p := hp
    rw [Board.getElem?_deliver] at hc'
    rw [getElem?_wakeEntry] at hp'
    by_cases hentry : s.board.pending.lookup completion.1 = some i
    · rw [if_pos hentry] at hc' hp'
      obtain ⟨d, hd, rfl⟩ := Option.map_eq_some_iff.mp hc'
      obtain ⟨q, hq, rfl⟩ := Option.map_eq_some_iff.mp hp'
      exact fits_wake_receive completion (h.fits i d q hd hq)
    · rw [if_neg hentry] at hc' hp'
      exact h.fits i c p hc' hp'

variable {i : ℕ}

/-- A call that goes on to a phase that fits keeps what is known. -/
theorem Inv.set (h : s.Inv) {phase : Phase}
    (hfits : ∀ c, s.board.callers[i]? = some c → Fits s.gone c phase) :
    ({ s with phases := s.phases.set i phase } : State).Inv := by
  refine ⟨h.linked, (List.length_set ..).trans h.aligned, h.routed, ?_⟩
  intro j c p hc hp
  have hp' : (s.phases.set i phase)[j]? = some p := hp
  rw [List.getElem?_set] at hp'
  split at hp'
  · next hij =>
    split at hp'
    · cases hp'
      exact hfits c (hij ▸ hc)
    · cases hp'
  · exact h.fits j c p hc hp'

/-- A call that ends in a phase that fits keeps what is known. -/
theorem Inv.finish (h : s.Inv) {phase : Phase}
    (hfits : ∀ c, s.board.callers[i]? = some c → Fits s.gone c.cancel phase) :
    (s.finish i phase).Inv := by
  have hcallers : ∀ j, (s.finish i phase).board.callers[j]? =
      if i = j then (s.board.callers[j]?).map .cancel else s.board.callers[j]? :=
    fun j => Board.getElem?_cancel i s.board j
  constructor
  · exact h.linked.cancel i
  · have hlen : (s.finish i phase).board.callers.length = s.board.callers.length :=
      List.length_modify ..
    rw [hlen]
    exact (List.length_set ..).trans h.aligned
  · intro j c hc
    rw [hcallers] at hc
    split at hc
    · obtain ⟨d, hd, rfl⟩ := Option.map_eq_some_iff.mp hc
      exact h.routed j d hd
    · exact h.routed j c hc
  · intro j c p hc hp
    have hp' : (s.phases.set i phase)[j]? = some p := hp
    rw [hcallers] at hc
    rw [List.getElem?_set] at hp'
    by_cases hij : i = j
    · rw [if_pos hij] at hc hp'
      obtain ⟨d, hd, rfl⟩ := Option.map_eq_some_iff.mp hc
      split at hp'
      · cases hp'
        exact hfits d (hij ▸ hd)
      · cases hp'
    · rw [if_neg hij] at hc hp'
      exact h.fits j c p hc hp'

/-- When all tasks are woken, the device may be gone. -/
theorem Inv.wakeAll (h : s.Inv) (closed processor : Bool) :
    ({ s.wakeAll with closed := closed, processor := processor } : State).Inv := by
  refine ⟨h.linked, (List.length_map _).trans h.aligned, h.routed, ?_⟩
  intro i c p hc hp
  have hp' : (s.phases.map Phase.wake)[i]? = some p := hp
  rw [List.getElem?_map] at hp'
  obtain ⟨q, hq, rfl⟩ := Option.map_eq_some_iff.mp hp'
  exact fits_wake (h.fits i c q hc hq)

/-- A poll keeps what is known. -/
theorem Inv.awaitReply (h : s.Inv)
    (hc : s.board.callers[i]? = some c) (hphase : s.phases[i]? = some (.waiting true)) :
    (s.awaitReply i c).Inv := by
  have hsame : ∀ d, s.board.callers[i]? = some d → d = c := by
    intro d hd
    rw [hc, Option.some.injEq] at hd
    exact hd.symm
  have hlive := (h.fits i c _ hc hphase).1
  unfold State.awaitReply
  split
  · next completion hhead =>
    refine h.set fun d hd => ?_
    rw [hsame d hd]
    exact List.mem_of_mem_head? hhead
  · next hhead =>
    have hnone : c.received = [] := List.head?_eq_none_iff.mp hhead
    split
    · next hclosed =>
      refine h.finish fun d hd => ?_
      rw [hsame d hd]
      exact ⟨hnone, rfl, hclosed⟩
    · next hopen =>
      split
      · refine h.finish fun d hd => ?_
        rw [hsame d hd]
        exact ⟨hnone, rfl⟩
      · next hthere =>
        refine h.set fun d hd => ?_
        rw [hsame d hd]
        exact ⟨hlive, fun _ => ⟨hnone, Bool.eq_false_iff.mpr hopen, Bool.eq_false_iff.mpr hthere⟩⟩

variable {a : Action}

/-- Every step keeps what is known. -/
theorem inv_step (h : s.Inv) (hstep : s.step a = some s') : s'.Inv := by
  cases a with
  | register =>
    cases hstep
    exact h.register
  | send i =>
    simp only [step, Option.ite_none_right_eq_some, Option.some.injEq] at hstep
    obtain ⟨hphase, rfl⟩ := hstep
    have hlive : ∀ c, s.board.callers[i]? = some c → c.cancelled = false :=
      fun c hc => h.fits i c _ hc hphase
    split
    · exact h.set fun c hc => ⟨hlive c hc, nofun⟩
    · exact h.finish fun c hc => rfl
  | poll i =>
    simp only [step, Option.ite_none_right_eq_some] at hstep
    obtain ⟨c, hc, rfl⟩ := Option.map_eq_some_iff.mp hstep.2
    exact h.awaitReply hc hstep.1
  | cancel i =>
    simp only [step] at hstep
    split at hstep
    · cases hstep
      exact h.finish fun c hc => rfl
    · cases hstep
  | process pdu =>
    simp only [step, Option.ite_none_right_eq_some, Option.some.injEq] at hstep
    rw [← hstep.2]
    split
    · next completion _ => exact h.deliver completion
    · exact h
  | close =>
    simp only [step, Option.ite_none_right_eq_some, Option.some.injEq] at hstep
    rw [← hstep.2]
    exact h.wakeAll true s.processor
  | dropProcessor =>
    simp only [step, Option.ite_none_right_eq_some, Option.some.injEq] at hstep
    rw [← hstep.2]
    exact h.wakeAll s.closed false
  | dropEventLoop =>
    cases hstep
    exact { __ := h }

/-- A device that was just announced is known. -/
theorem inv_new : new.Inv :=
  ⟨Board.linked_empty, rfl, fun i c hc => (by cases hc), fun i c p hc => (by cases hc)⟩

/-- A phase that was set stays one that was not asked for. -/
theorem getElem?_set_of_ne {phases : List Phase} {j : ℕ} {before after phase : Phase}
    (hi : phases[i]? = some before) (hj : phases[j]? = some phase) (hne : phase ≠ before) :
    (phases.set i after)[j]? = some phase := by
  have hij : i ≠ j := by
    rintro rfl
    rw [hi, Option.some.injEq] at hj
    exact hne hj.symm
  rw [List.getElem?_set_ne hij]
  exact hj

/-- A call that was resolved stays resolved as it was. -/
theorem resolved_step (hstep : s.step a = some s')
    {outcome : Outcome} (hresolved : s.phases[i]? = some (.resolved outcome)) :
    s'.phases[i]? = some (.resolved outcome) := by
  have hwake : ∀ id, (s.wakeEntry id)[i]? = some (.resolved outcome) := by
    intro id
    rw [getElem?_wakeEntry, hresolved]
    split <;> rfl
  have hall : (s.phases.map Phase.wake)[i]? = some (.resolved outcome) := by
    rw [List.getElem?_map, hresolved]
    rfl
  cases a with
  | register =>
    cases hstep
    change (s.wakeEntry s.requestId ++ [Phase.registered])[i]? = _
    have hlt := (List.getElem?_eq_some_iff.mp (hwake s.requestId)).1
    rw [List.getElem?_append_left hlt]
    exact hwake s.requestId
  | send j =>
    simp only [step, Option.ite_none_right_eq_some, Option.some.injEq] at hstep
    obtain ⟨hphase, rfl⟩ := hstep
    split <;> exact getElem?_set_of_ne hphase hresolved (by simp)
  | poll j =>
    simp only [step, Option.ite_none_right_eq_some] at hstep
    obtain ⟨hphase, hpolled⟩ := hstep
    obtain ⟨c, -, rfl⟩ := Option.map_eq_some_iff.mp hpolled
    have hkept : ∀ after, (s.phases.set j after)[i]? = some (.resolved outcome) :=
      fun after => getElem?_set_of_ne hphase hresolved (by simp)
    unfold awaitReply
    split
    · exact hkept _
    · split
      · exact hkept _
      · split
        · exact hkept _
        · exact hkept _
  | cancel j =>
    simp only [step] at hstep
    split at hstep
    · next woken hphase =>
      cases hstep
      exact getElem?_set_of_ne hphase hresolved (by simp)
    · cases hstep
  | process pdu =>
    simp only [step, Option.ite_none_right_eq_some, Option.some.injEq] at hstep
    rw [← hstep.2]
    split
    · exact hwake _
    · exact hresolved
  | close | dropProcessor =>
    simp only [step, Option.ite_none_right_eq_some, Option.some.injEq] at hstep
    rw [← hstep.2]
    exact hall
  | dropEventLoop =>
    cases hstep
    exact hresolved

/-- A transfer is called. -/
def registers : Action → Bool
  | .register => true
  | _ => false

/-- The request id of a call by its number. -/
def idOf (k : ℕ) : UInt32 := UInt32.ofNat k &&& 0x7FFFFFFF

/-- Request ids do not repeat before 31 bits are used up. -/
theorem idOf_inj {j : ℕ} (hi : i < 2 ^ 31) (hj : j < 2 ^ 31) (heq : idOf i = idOf j) : i = j := by
  have hvalue : ∀ k < 2 ^ 31, (idOf k).toNat = k := by
    intro k hk
    rw [idOf, UInt32.toNat_and, UInt32.toNat_ofNat_of_lt' (show k < 2 ^ 32 by omega)]
    change k &&& (2 ^ 31 - 1) = k
    rw [Nat.and_two_pow_sub_one_eq_mod, Nat.mod_eq_of_lt hk]
  rw [← hvalue i hi, ← hvalue j hj, heq]

/-- The request ids count the calls, and no call lost the sending end of its completion. -/
structure Counted (past : List Action) (s : State) : Prop where
  count : s.board.keys.length = past.countP registers
  keys : s.board.keys = (List.range s.board.keys.length).map idOf
  next : s.nextId = UInt32.ofNat s.board.keys.length
  undropped : past.countP registers < 2 ^ 31 →
    ∀ (i : ℕ) (c : Caller UInt32 Unit Completion), s.board.callers[i]? = some c → c.closed = false

variable {past : List Action}

/-- Counted calls have different ids. -/
theorem Counted.nodup (h : Counted past s)
    (hfew : past.countP registers < 2 ^ 31) : s.board.keys.Nodup := by
  have hcount := h.count
  rw [h.keys]
  refine List.Nodup.map_on ?_ List.nodup_range
  intro i hi j hj heq
  have hi' := List.mem_range.mp hi
  have hj' := List.mem_range.mp hj
  exact idOf_inj (by omega) (by omega) heq

/-- The next id is not one of those in use. -/
theorem Counted.fresh (h : Counted past s)
    (hfew : past.countP registers + 1 < 2 ^ 31) : s.requestId ∉ s.board.keys := by
  have hcount := h.count
  have hnext : s.requestId = idOf s.board.keys.length := by
    rw [requestId, h.next]
    rfl
  intro hmem
  rw [hnext, h.keys] at hmem
  obtain ⟨k, hk, heq⟩ := List.mem_map.mp hmem
  rw [List.length_map, List.length_range] at heq
  have hk' := List.mem_range.mp hk
  have hsame := idOf_inj (by omega) (by omega) heq
  omega

/-- A step that enters no call and drops no sending end keeps the count. -/
theorem Counted.of_callers (h : Counted past s)
    (hnot : registers a = false) (hnext : s'.nextId = s.nextId)
    (hkeys : s'.board.keys = s.board.keys)
    (hopen : ∀ (i : ℕ) (c' : Caller UInt32 Unit Completion), s'.board.callers[i]? = some c' →
      ∃ c, s.board.callers[i]? = some c ∧ c'.closed = c.closed) : Counted (past ++ [a]) s' := by
  have hpast : (past ++ [a]).countP registers = past.countP registers := by
    rw [List.countP_append]
    simp [hnot]
  constructor
  · rw [hkeys, h.count, hpast]
  · rw [hkeys]
    exact h.keys
  · rw [hkeys, hnext]
    exact h.next
  · intro hfew i c' hc'
    rw [hpast] at hfew
    obtain ⟨c, hc, hclosed⟩ := hopen i c' hc'
    rw [hclosed]
    exact h.undropped hfew i c hc

/-- A call that gives up keeps its sending end. -/
theorem closed_cancel {b : Board UInt32 Unit Completion} {n : ℕ}
    {c' : Caller UInt32 Unit Completion} (hc' : (b.cancel n).callers[i]? = some c') :
    ∃ c, b.callers[i]? = some c ∧ c'.closed = c.closed := by
  rw [Board.getElem?_cancel] at hc'
  split at hc'
  · obtain ⟨d, hd, rfl⟩ := Option.map_eq_some_iff.mp hc'
    exact ⟨d, hd, rfl⟩
  · exact ⟨c', hc', rfl⟩

/-- Each call takes the next request id. -/
theorem counted_step (h : s.board.Linked ∧ Counted past s) (hstep : s.step a = some s') :
    Counted (past ++ [a]) s' := by
  obtain ⟨hlinked, hcounted⟩ := h
  have hfinish : ∀ i phase, registers a = false → Counted (past ++ [a]) (s.finish i phase) := by
    intro i phase hnot
    exact hcounted.of_callers hnot rfl (Board.keys_cancel i s.board) fun j c' hc' =>
      closed_cancel hc'
  have hsame : ∀ t : State, registers a = false → t.nextId = s.nextId → t.board = s.board →
      Counted (past ++ [a]) t := by
    intro t hnot hnext hboard
    refine hcounted.of_callers hnot hnext (by rw [hboard]) fun j c' hc' => ⟨c', ?_, rfl⟩
    rw [← hboard]
    exact hc'
  cases a with
  | register =>
    cases hstep
    have hkeys : s.register.board.keys = s.board.keys ++ [s.requestId] :=
      Board.keys_register _ _ _
    have hlen : s.register.board.keys.length = s.board.keys.length + 1 := by
      rw [hkeys, List.length_append, List.length_singleton]
    have hnext : s.requestId = idOf s.board.keys.length := by
      rw [requestId, hcounted.next]
      rfl
    have hpast : (past ++ [Action.register]).countP registers = past.countP registers + 1 := by
      rw [List.countP_append]
      rfl
    constructor
    · rw [hlen, hcounted.count, hpast]
    · rw [hlen, hkeys, List.range_succ, List.map_append, ← hcounted.keys, hnext]
      rfl
    · have hid : s.register.nextId = s.nextId + 1 := rfl
      rw [hlen, hid, hcounted.next]
      exact (UInt32.ofNat_add s.board.keys.length 1).symm
    · intro hfew i c hc
      rw [hpast] at hfew
      have hc' : (s.board.register s.requestId ()).callers[i]? = some c := hc
      rw [Board.getElem?_register] at hc'
      split at hc'
      · cases hc'
        rfl
      · split at hc'
        · next hentry =>
          obtain ⟨d, hd, hkey, -⟩ := hlinked.entry _ i hentry
          have hmem : s.requestId ∈ s.board.keys :=
            List.mem_map.mpr ⟨d, List.mem_of_getElem? hd, hkey⟩
          exact absurd hmem (hcounted.fresh hfew)
        · exact hcounted.undropped (by omega) i c hc'
  | send i =>
    simp only [step, Option.ite_none_right_eq_some, Option.some.injEq] at hstep
    rw [← hstep.2]
    split
    · exact hsame _ rfl rfl rfl
    · exact hfinish i _ rfl
  | poll i =>
    simp only [step, Option.ite_none_right_eq_some] at hstep
    obtain ⟨c, -, rfl⟩ := Option.map_eq_some_iff.mp hstep.2
    unfold awaitReply
    split
    · exact hsame _ rfl rfl rfl
    · split
      · exact hfinish i _ rfl
      · split
        · exact hfinish i _ rfl
        · exact hsame _ rfl rfl rfl
  | cancel i =>
    simp only [step] at hstep
    split at hstep
    · cases hstep
      exact hfinish i _ rfl
    · cases hstep
  | process pdu =>
    simp only [step, Option.ite_none_right_eq_some, Option.some.injEq] at hstep
    rw [← hstep.2]
    split
    · next completion _ =>
      refine hcounted.of_callers rfl rfl (Board.keys_deliver _ _ _) fun j c' hc' => ?_
      have hget : (s.board.deliver completion.1 completion).callers[j]? = some c' := hc'
      rw [Board.getElem?_deliver] at hget
      split at hget
      · obtain ⟨d, hd, rfl⟩ := Option.map_eq_some_iff.mp hget
        refine ⟨d, hd, ?_⟩
        unfold Caller.receive
        split <;> rfl
      · exact ⟨c', hget, rfl⟩
    · exact hsame s rfl rfl rfl
  | close | dropProcessor =>
    simp only [step, Option.ite_none_right_eq_some, Option.some.injEq] at hstep
    rw [← hstep.2]
    exact hsame _ rfl rfl rfl
  | dropEventLoop =>
    cases hstep
    exact hsame _ rfl rfl rfl

/-- What holds of the calls of a device at any time. -/
structure Matched (s : State) : Prop where
  /-- No two requests carry the same id. -/
  distinct : s.board.keys.Nodup
  /-- A call is resolved by a completion of its own id only. -/
  own : ∀ (i : ℕ) (c : Caller UInt32 Unit Completion) (r : Completion),
    s.board.callers[i]? = some c → s.phases[i]? = some (.resolved (.replied r)) → r.1 = c.key
  /-- A completion changes no call of another id. -/
  undisturbed : ∀ (pdu : ClientDevicePdu) (r : Completion) (s' : State),
    pdu.completion = some r → s.step (.process (some pdu)) = some s' →
      ∀ (i : ℕ) (c : Caller UInt32 Unit Completion), s.board.callers[i]? = some c → c.key ≠ r.1 →
        s'.board.callers[i]? = some c ∧ s'.phases[i]? = s.phases[i]?
  /-- A completion reaches the call of its id, unless that call has one or has ended. -/
  reached : ∀ (pdu : ClientDevicePdu) (r : Completion) (s' : State),
    pdu.completion = some r → s.step (.process (some pdu)) = some s' →
      ∀ (i : ℕ) (c : Caller UInt32 Unit Completion), s.board.callers[i]? = some c → c.key = r.1 →
        c.received = [] → c.cancelled = false →
          (s'.board.callers[i]?).map Caller.received = some [r]
  /-- A call gets at most one completion. -/
  once : ∀ (i : ℕ) (c : Caller UInt32 Unit Completion), s.board.callers[i]? = some c →
    c.received.length ≤ 1
  /-- A call that has a completion does not end with the channel; if it still waits, it wakes and
  takes the completion. -/
  kept : ∀ (i : ℕ) (c : Caller UInt32 Unit Completion) (r : Completion),
    s.board.callers[i]? = some c → r ∈ c.received →
      s.phases[i]? ≠ some (.resolved .channelClosed) ∧
      ∀ woken, s.phases[i]? = some (.waiting woken) → woken = true ∧
        (s.step (.poll i)).map (fun s' => s'.phases[i]?) = some (some (.resolved (.replied r)))
  /-- Once the device is gone, every call that still waits wakes and is resolved. -/
  freed : s.gone = true → ∀ i woken, s.phases[i]? = some (.waiting woken) → woken = true ∧
    ∃ outcome, (s.step (.poll i)).map (fun s' => s'.phases[i]?) = some (some (.resolved outcome))

/-- The phase that was set is there. -/
theorem getElem?_set_phase {phases : List Phase} {before : Phase} (after : Phase)
    (hi : phases[i]? = some before) : (phases.set i after)[i]? = some after := by
  have hlt := (List.getElem?_eq_some_iff.mp hi).1
  rw [List.getElem?_set_self hlt]

/-- Where all is known, the calls are matched with their completions. -/
theorem Inv.matched (h : s.Inv) (hcounted : Counted past s)
    (hfew : past.countP registers < 2 ^ 31) : s.Matched := by
  constructor
  · exact hcounted.nodup hfew
  · intro i c r hc hp
    exact h.routed i c hc r (h.fits i c _ hc hp)
  · intro pdu r s' hpdu hstep i c hc hother
    have hbind : (some pdu).bind ClientDevicePdu.completion = some r := hpdu
    simp only [step, Option.ite_none_right_eq_some, Option.some.injEq, hbind] at hstep
    rw [← hstep.2]
    have hentry : s.board.pending.lookup r.1 ≠ some i := by
      intro hentry
      obtain ⟨d, hd, hkey, -⟩ := h.linked.entry _ i hentry
      rw [hc, Option.some.injEq] at hd
      rw [hd] at hother
      exact hother hkey
    have hget := Board.getElem?_deliver r.1 r s.board i
    have hphase := getElem?_wakeEntry r.1 s i
    rw [if_neg hentry] at hget hphase
    exact ⟨hget.trans hc, hphase⟩
  · intro pdu r s' hpdu hstep i c hc hkey hnone hlive
    have hbind : (some pdu).bind ClientDevicePdu.completion = some r := hpdu
    simp only [step, Option.ite_none_right_eq_some, Option.some.injEq, hbind] at hstep
    rw [← hstep.2]
    have hwaiting : c.waiting = true := by
      simp [Caller.waiting, hlive, hcounted.undropped hfew i c hc, hnone]
    have hentry := h.linked.waits i c hc hwaiting
    rw [hkey] at hentry
    have hget := Board.getElem?_deliver r.1 r s.board i
    rw [if_pos hentry, hc, Option.map_some] at hget
    have hget' : (s.deliver r).board.callers[i]? = some (c.receive r) := hget
    rw [hget', Option.map_some, Caller.receive, if_neg (by rw [hlive]; decide), hnone]
    rfl
  · exact h.linked.received_le
  · intro i c r hc hr
    have hone : c.received = [r] := by
      have hle := h.linked.received_le i c hc
      cases hreceived : c.received with
      | nil =>
        rw [hreceived] at hr
        cases hr
      | cons first rest =>
        rw [hreceived, List.length_cons] at hle
        have hrest : rest = [] := List.length_eq_zero_iff.mp (by omega)
        rw [hreceived, hrest, List.mem_singleton] at hr
        rw [hrest, hr]
    constructor
    · intro hp
      have hnone := (h.fits i c _ hc hp).1
      rw [hone] at hnone
      cases hnone
    · intro woken hp
      have hwoken : woken = true := by
        by_contra hasleep
        have hnone := ((h.fits i c _ hc hp).2 (Bool.eq_false_iff.mpr hasleep)).1
        rw [hone] at hnone
        cases hnone
      refine ⟨hwoken, ?_⟩
      rw [hwoken] at hp
      have hhead : c.received.head? = some r := by rw [hone]; rfl
      simp only [step, hp, if_true, hc, Option.map_some, State.awaitReply, hhead]
      exact congrArg some (getElem?_set_phase _ hp)
  · intro hgone i woken hp
    have hlt : i < s.board.callers.length := by
      rw [← h.aligned]
      exact (List.getElem?_eq_some_iff.mp hp).1
    obtain ⟨c, hc⟩ : ∃ c, s.board.callers[i]? = some c := ⟨_, List.getElem?_eq_getElem hlt⟩
    have hwoken : woken = true := by
      by_contra hasleep
      have hthere := ((h.fits i c _ hc hp).2 (Bool.eq_false_iff.mpr hasleep)).2.2
      rw [hgone] at hthere
      cases hthere
    refine ⟨hwoken, ?_⟩
    rw [hwoken] at hp
    simp only [step, hp, if_true, hc, Option.map_some, State.awaitReply]
    split
    · exact ⟨_, congrArg some (getElem?_set_phase _ hp)⟩
    · rw [if_pos hgone]
      split
      · exact ⟨_, congrArg some (getElem?_set_phase _ hp)⟩
      · exact ⟨_, congrArg some (getElem?_set_phase _ hp)⟩

/-- At the end of every run with fewer than 2^31 requests the calls are matched with their
completions, and a call that was resolved on the way is resolved as it was. -/
theorem transfers_matched {acts : List Action} {t : State} (hrun : run step new acts = some t)
    (hfew : acts.countP registers < 2 ^ 31) :
    t.Matched ∧ ∀ (before rest : List Action) (s : State), before ++ rest = acts →
      run step new before = some s → ∀ (i : ℕ) (outcome : Outcome),
        s.phases[i]? = some (Phase.resolved outcome) → t.phases[i]? = some (Phase.resolved outcome) := by
  constructor
  · have hhistory : ∀ (past : List Action) (s : State) (a : Action) (s' : State),
        s.Inv ∧ Counted past s → s.step a = some s' → s'.Inv ∧ Counted (past ++ [a]) s' :=
      fun past s a s' h hstep => ⟨inv_step h.1 hstep, counted_step ⟨h.1.linked, h.2⟩ hstep⟩
    have hnew : Counted [] new := ⟨rfl, rfl, rfl, fun _ i c hc => (by cases hc)⟩
    obtain ⟨hinv, hcounted⟩ := run_history (fun past s => s.Inv ∧ Counted past s) hhistory
      ⟨inv_new, hnew⟩ hrun
    exact hinv.matched hcounted hfew
  · intro before rest s hsplit hbefore i outcome hresolved
    rw [← hsplit, run_append, hbefore] at hrun
    have hrest : run step s rest = some t := hrun
    exact run_invariant_of_step (fun s : State => s.phases[i]? = some (Phase.resolved outcome))
      (fun s a s' h hstep => resolved_step hstep h) hresolved hrest

/-- Completions out of order, twice, unknown and undecodable, a time-out, and the client closes
the channel before all calls have theirs; one more call is made after that. -/
def closedDevice : List Action :=
  [.register, .register, .register, .register, .send 1, .poll 1, .send 0, .send 2, .poll 2,
    .send 3, .process (some (.urbComp 1 (.raw [7]) [1, 2] 0)), .process none,
    .process (some (.urbCompNoData 1 .typed 5)), .process (some (.urbComp 9 .typed [] 0)),
    .process (some .other), .cancel 3, .close, .poll 2, .poll 0, .poll 1, .register, .send 4,
    .poll 4, .dropProcessor]

/-- The call whose completion came before the close has it, and no call waits. -/
theorem matched_closedDevice :
    ((run step new closedDevice).map fun s => s.phases) =
        some [.resolved .channelClosed, .resolved (.replied (1, ⟨[1, 2], [7], 0⟩)),
          .resolved .channelClosed, .cancelled, .resolved .channelClosed] ∧
      ∀ t, run step new closedDevice = some t → t.Matched :=
  ⟨by decide +kernel, fun t hrun => (transfers_matched hrun (by decide)).1⟩

end State

end Macrdp.UsbTransfers
