import Mathlib.Data.Int.Notation
import Macrdp.StepSystem

/-!
# The queue of the audio waves

The capture puts waves into a bounded queue, which drops the oldest when it is full, and the
connection takes them out. A receive looks at the queue and at the number of senders in two steps.
What is expected is that no wave is lost but for those that are counted, and that the end of the
stream is reported when it is over.
-/

namespace Macrdp.AudioQueue

open StepSystem

/-! ## Waves and their durations -/

/-- The arithmetic of the durations, and how long uncompressed audio of a length plays. -/
structure Arithmetic (F : Type*) where
  zero : F
  add : F → F → F
  sub : F → F → F
  exceeds : F → F → Bool
  ofLength : ℕ → F

/-- A chunk of audio, its time and, if it is known, how long it plays. -/
structure AudioWave (F : Type*) where
  data : List UInt8
  ts : UInt32
  duration : Option F
  deriving DecidableEq

variable {F : Type*}

/-- How long a wave plays. -/
def AudioWave.durationMs (ar : Arithmetic F) (w : AudioWave F) : F :=
  w.duration.getD (ar.ofLength w.data.length)

/-- How long all waves of a queue play. -/
def queuedDurationMs (ar : Arithmetic F) (queue : List (AudioWave F)) : F :=
  (queue.map (AudioWave.durationMs ar)).foldl ar.add ar.zero

/-- Take waves off while the rest plays longer than it may. -/
def popUntilBelow (ar : Arithmetic F) (maxMs : F) : F → List (AudioWave F) → List (AudioWave F)
  | _, [] => []
  | queuedMs, w :: rest =>
    if ar.exceeds queuedMs maxMs then
      popUntilBelow ar maxMs (ar.sub queuedMs (w.durationMs ar)) rest
    else w :: rest

/-! ## The channel -/

/-- What the senders and the receiver share. -/
structure Channel (F : Type*) where
  queue : List (AudioWave F)
  capacity : ℕ
  senderCount : ℕ
  receiverAlive : Bool
  dropped : ℕ
  deriving DecidableEq

/-- A sender, and the waves of its calls that have found the receiver alive. -/
structure Sender (F : Type*) where
  alive : Bool
  calls : List (AudioWave F)
  deriving DecidableEq

/-- Where the receiver is: not in a receive, behind the look at an empty queue, waiting for a
notification, or dropped. -/
inductive Receiver where
  | idle
  | looked
  | waiting
  | gone
  deriving DecidableEq

/-- An end of the stream that was reported: how many senders there were and how many waves were
left. -/
structure End where
  senders : ℕ
  left : ℕ
  deriving DecidableEq

/-- A wave that was accepted, with the queue before and after. -/
structure Accepted (F : Type*) where
  before : List (AudioWave F)
  wave : AudioWave F
  after : List (AudioWave F)

/-- The channel and its users. Recorded are the waves that were accepted and received, how many were
cleared, whether one was accepted since the receiver found the queue empty, and the reported
ends. -/
structure System (F : Type*) where
  channel : Channel F
  senders : List (Sender F)
  receiver : Receiver
  sends : List (Accepted F)
  received : List (AudioWave F)
  cleared : ℕ
  late : Bool
  ends : List End

/-- A new channel has one sender. -/
def System.new (capacity : ℕ) : System F where
  channel := ⟨[], capacity, 1, true, 0⟩
  senders := [⟨true, []⟩]
  receiver := .idle
  sends := []
  received := []
  cleared := 0
  late := false
  ends := []

/-- A step of a sender or of the receiver. -/
inductive Action (F : Type*) where
  /-- A call finds the receiver alive or not. -/
  | call (i : ℕ) (w : AudioWave F)
  /-- A call has the lock of the queue. -/
  | send (i k : ℕ)
  | clone (i : ℕ)
  | dropSender (i : ℕ)
  | look
  | loadCount
  /-- The receive is dropped while it waits. -/
  | cancel
  | clear
  | dropOldestUntilBelow (maxMs : F)
  | dropReceiver

/-- The queue of a channel when a wave is put into it. -/
def Channel.push (c : Channel F) (w : AudioWave F) : List (AudioWave F) :=
  (if c.capacity ≤ c.queue.length then c.queue.tail else c.queue) ++ [w]

/-- Put a wave into the queue. -/
def Channel.trySend (c : Channel F) (w : AudioWave F) : Channel F :=
  { c with
    queue := c.push w
    dropped := if c.capacity ≤ c.queue.length then c.dropped + 1 else c.dropped }

/-- A call gets to the queue: the wave is accepted if the receiver is there. -/
def System.accept (s : System F) (w : AudioWave F) : System F :=
  if s.channel.receiverAlive then
    { s with
      channel := s.channel.trySend w
      sends := s.sends ++ [⟨s.channel.queue, w, s.channel.push w⟩]
      late := true }
  else s

/-- Take waves off the queue until the rest plays not too long. -/
def Channel.trim (ar : Arithmetic F) (maxMs : F) (c : Channel F) : Channel F :=
  let rest := popUntilBelow ar maxMs (queuedDurationMs ar c.queue) c.queue
  { c with queue := rest, dropped := c.dropped + (c.queue.length - rest.length) }

/-- The receiver looks at the queue. -/
def System.look (s : System F) : System F :=
  match s.channel.queue with
  | [] => { s with receiver := .looked, late := false }
  | w :: rest =>
    { s with
      channel := { s.channel with queue := rest }
      receiver := .idle
      received := s.received ++ [w] }

/-- The receiver looks at the number of senders. -/
def System.loadCount (s : System F) : System F :=
  if s.channel.senderCount = 0 then
    { s with
      receiver := .idle
      ends := s.ends ++ [⟨s.senders.countP Sender.alive, s.channel.queue.length⟩] }
  else { s with receiver := .waiting }

/-- One step; `none` if it cannot happen. -/
def System.step (ar : Arithmetic F) (s : System F) : Action F → Option (System F)
  | .call i w => s.senders[i]?.bind fun sender =>
    if sender.alive then
      some (if s.channel.receiverAlive then
        { s with senders := s.senders.set i { sender with calls := sender.calls ++ [w] } }
      else s)
    else none
  | .send i k => s.senders[i]?.bind fun sender => sender.calls[k]?.map fun w =>
    { s.accept w with senders := s.senders.set i { sender with calls := sender.calls.eraseIdx k } }
  | .clone i => s.senders[i]?.bind fun sender =>
    if sender.alive then
      some { s with
        channel := { s.channel with senderCount := s.channel.senderCount + 1 }
        senders := s.senders ++ [⟨true, []⟩] }
    else none
  | .dropSender i => s.senders[i]?.bind fun sender =>
    if sender.alive ∧ sender.calls.isEmpty then
      some { s with
        channel := { s.channel with senderCount := s.channel.senderCount - 1 }
        senders := s.senders.set i ⟨false, []⟩ }
    else none
  | .look => if s.receiver = .idle ∨ s.receiver = .waiting then some s.look else none
  | .loadCount => if s.receiver = .looked then some s.loadCount else none
  | .cancel => if s.receiver = .waiting then some { s with receiver := .idle } else none
  | .clear =>
    if s.receiver = .idle then
      some { s with
        channel := { s.channel with queue := [] }
        cleared := s.cleared + s.channel.queue.length }
    else none
  | .dropOldestUntilBelow maxMs =>
    if s.receiver = .idle then some { s with channel := s.channel.trim ar maxMs } else none
  | .dropReceiver =>
    if s.receiver = .idle then
      some { s with channel := { s.channel with receiverAlive := false }, receiver := .gone }
    else none

/-! ## What is expected -/

/-- The waves that were accepted. -/
def System.accepted (s : System F) : List (AudioWave F) := s.sends.map Accepted.wave

/-- A wave was accepted without loss, or for the oldest of a full queue. -/
def Accepted.Frugal (capacity : ℕ) (a : Accepted F) : Prop :=
  a.before.length < capacity ∧ a.after = a.before ++ [a.wave] ∨
    a.before.length = capacity ∧ ∃ oldest rest, a.before = oldest :: rest ∧
      a.after = rest ++ [a.wave]

/-- Waves are received in order and once, all that were accepted are accounted for, the queue keeps
its capacity and drops the oldest only, and the end is reported when there are no senders and no
waves left. -/
structure Kept (s : System F) : Prop where
  ordered : s.received.Sublist s.accepted
  counted : s.accepted.length =
    s.received.length + s.channel.dropped + s.cleared + s.channel.queue.length
  bounded : s.channel.queue.length ≤ s.channel.capacity
  frugal : ∀ a ∈ s.sends, a.Frugal s.channel.capacity
  ended : ∀ e ∈ s.ends, e.senders = 0 ∧ e.left = 0

/-- When the receiver finds the last sender gone, no wave was accepted since it found the queue
empty. -/
def Undisturbed (s : System F) : Action F → Prop
  | .loadCount => s.channel.senderCount = 0 → s.late = false
  | _ => True

/-! ## What a step does -/

variable {ar : Arithmetic F} {s s' t : System F} {a : Action F} {acts : List (Action F)}

/-- What a step does to the system. -/
inductive Moved (s : System F) : Action F → System F → Prop where
  /-- The senders and their calls change. -/
  | counted {a : Action F} (count : ℕ) (senders : List (Sender F)) (free : Undisturbed s a)
      (h : s.channel.senderCount = s.senders.countP Sender.alive →
        count = senders.countP Sender.alive) :
      Moved s a { s with
        channel := { s.channel with senderCount := count }
        senders := senders }
  /-- A wave is put into the queue. -/
  | pushed {a : Action F} (w : AudioWave F) (senders : List (Sender F)) (free : Undisturbed s a)
      (h : senders.countP Sender.alive = s.senders.countP Sender.alive) :
      Moved s a { s with
        channel := s.channel.trySend w
        sends := s.sends ++ [⟨s.channel.queue, w, s.channel.push w⟩]
        late := true
        senders := senders }
  | looked {a : Action F} (free : Undisturbed s a) : Moved s a s.look
  | loaded (h : s.receiver = .looked) : Moved s .loadCount s.loadCount
  /-- Waves are taken off the queue and counted. -/
  | removed {a : Action F} (rest : List (AudioWave F)) (dropped cleared : ℕ)
      (free : Undisturbed s a) (idle : s.receiver = .idle) (h : rest <:+ s.channel.queue)
      (hcount : dropped + cleared + rest.length =
        s.channel.dropped + s.cleared + s.channel.queue.length) :
      Moved s a { s with
        channel := { s.channel with queue := rest, dropped := dropped }
        cleared := cleared }
  /-- The receiver leaves a receive, or goes. -/
  | left {a : Action F} (alive : Bool) (r : Receiver) (free : Undisturbed s a)
      (h : r ≠ .looked) :
      Moved s a { s with
        channel := { s.channel with receiverAlive := alive }
        receiver := r }

/-- What is left of the queue after the removal of the oldest waves is its end. -/
theorem popUntilBelow_suffix (maxMs queuedMs : F) (queue : List (AudioWave F)) :
    popUntilBelow ar maxMs queuedMs queue <:+ queue := by
  induction queue generalizing queuedMs with
  | nil => exact List.suffix_refl []
  | cons w rest ih =>
    rw [popUntilBelow]
    split
    · exact (ih _).trans (List.suffix_cons w rest)
    · exact List.suffix_refl _

variable {senders : List (Sender F)} {i : ℕ}

/-- A sender that stays alive is counted as before. -/
theorem countP_set_same {sender : Sender F}
    (hi : senders[i]? = some sender) (calls : List (AudioWave F)) :
    (senders.set i { sender with calls := calls }).countP Sender.alive =
      senders.countP Sender.alive := by
  obtain ⟨hlt, hget⟩ := List.getElem?_eq_some_iff.mp hi
  have hpos : sender.alive = true → 0 < senders.countP Sender.alive := by
    intro halive
    exact List.countP_pos_iff.mpr ⟨sender, List.mem_of_getElem? hi, halive⟩
  rw [List.countP_set hlt, hget]
  cases halive : sender.alive with
  | false => simp
  | true =>
    have := hpos halive
    simp only [if_true]
    omega

/-- A sender that goes is counted no more. -/
theorem countP_set_gone {sender : Sender F}
    (hi : senders[i]? = some sender) (halive : sender.alive = true) :
    (senders.set i ⟨false, []⟩).countP Sender.alive = senders.countP Sender.alive - 1 := by
  obtain ⟨hlt, hget⟩ := List.getElem?_eq_some_iff.mp hi
  rw [List.countP_set hlt, hget, halive]
  simp

theorem call_moved {w : AudioWave F} (h : s.step ar (.call i w) = some s') :
    Moved s (.call i w) s' := by
  obtain ⟨sender, hi, hs⟩ := Option.bind_eq_some_iff.mp h
  have hs := (Option.ite_none_right_eq_some.mp hs).2
  rw [Option.some.injEq] at hs
  rw [← hs]
  split
  · exact .counted s.channel.senderCount _ trivial fun hc => hc.trans (countP_set_same hi _).symm
  · exact .counted s.channel.senderCount s.senders trivial id

theorem send_moved {k : ℕ} (h : s.step ar (.send i k) = some s') : Moved s (.send i k) s' := by
  obtain ⟨sender, hi, hs⟩ := Option.bind_eq_some_iff.mp h
  obtain ⟨w, -, hs⟩ := Option.map_eq_some_iff.mp hs
  have hsame := countP_set_same hi (sender.calls.eraseIdx k)
  rw [← hs, System.accept]
  split
  · exact .pushed w _ trivial hsame
  · exact .counted s.channel.senderCount _ trivial fun hc => hc.trans hsame.symm

theorem clone_moved (h : s.step ar (.clone i) = some s') : Moved s (.clone i) s' := by
  obtain ⟨sender, -, hs⟩ := Option.bind_eq_some_iff.mp h
  have hs := (Option.ite_none_right_eq_some.mp hs).2
  rw [Option.some.injEq] at hs
  rw [← hs]
  refine .counted _ _ trivial fun hc => ?_
  rw [hc, List.countP_append]
  rfl

theorem dropSender_moved (h : s.step ar (.dropSender i) = some s') :
    Moved s (.dropSender i) s' := by
  obtain ⟨sender, hi, hs⟩ := Option.bind_eq_some_iff.mp h
  obtain ⟨⟨halive, -⟩, hs⟩ := Option.ite_none_right_eq_some.mp hs
  rw [Option.some.injEq] at hs
  rw [← hs]
  refine .counted _ _ trivial fun hc => ?_
  rw [hc, countP_set_gone hi halive]

/-- Every step does one of these things. -/
theorem step_moved (h : s.step ar a = some s') : Moved s a s' := by
  cases a with
  | call i w => exact call_moved h
  | send i k => exact send_moved h
  | clone i => exact clone_moved h
  | dropSender i => exact dropSender_moved h
  | look =>
    have hs := (Option.ite_none_right_eq_some.mp h).2
    rw [Option.some.injEq] at hs
    rw [← hs]
    exact .looked trivial
  | loadCount =>
    obtain ⟨hlooked, hs⟩ := Option.ite_none_right_eq_some.mp h
    rw [Option.some.injEq] at hs
    rw [← hs]
    exact .loaded hlooked
  | cancel =>
    have hs := (Option.ite_none_right_eq_some.mp h).2
    rw [Option.some.injEq] at hs
    rw [← hs]
    exact .left s.channel.receiverAlive .idle trivial Receiver.noConfusion
  | clear =>
    obtain ⟨hidle, hs⟩ := Option.ite_none_right_eq_some.mp h
    rw [Option.some.injEq] at hs
    rw [← hs]
    refine .removed [] s.channel.dropped _ trivial hidle List.nil_suffix ?_
    rw [List.length_nil]
    omega
  | dropOldestUntilBelow maxMs =>
    obtain ⟨hidle, hs⟩ := Option.ite_none_right_eq_some.mp h
    rw [Option.some.injEq] at hs
    rw [← hs]
    have hsuffix := @popUntilBelow_suffix F ar maxMs (queuedDurationMs ar s.channel.queue)
      s.channel.queue
    refine .removed _ _ s.cleared trivial hidle hsuffix ?_
    have hlength := hsuffix.length_le
    omega
  | dropReceiver =>
    have hs := (Option.ite_none_right_eq_some.mp h).2
    rw [Option.some.injEq] at hs
    rw [← hs]
    exact .left false .gone trivial Receiver.noConfusion

/-! ## The account of the waves -/

/-- The senders are counted, and the waves are in order and accounted for. Behind the look at an
empty queue a wave was accepted if the queue is not empty any more. -/
structure Inv (s : System F) : Prop where
  capacity : 0 < s.channel.capacity
  senders : s.channel.senderCount = s.senders.countP Sender.alive
  ordered : (s.received ++ s.channel.queue).Sublist s.accepted
  counted : s.accepted.length =
    s.received.length + s.channel.dropped + s.cleared + s.channel.queue.length
  bounded : s.channel.queue.length ≤ s.channel.capacity
  frugal : ∀ a ∈ s.sends, a.Frugal s.channel.capacity
  looked : s.receiver = .looked → (s.late = false ↔ s.channel.queue = [])

variable {c : Channel F}

/-- The queue with a new wave keeps the capacity. -/
theorem push_length (hcapacity : 0 < c.capacity)
    (hbounded : c.queue.length ≤ c.capacity) (w : AudioWave F) :
    (c.push w).length ≤ c.capacity := by
  rw [Channel.push, List.length_append, List.length_singleton]
  split
  · rw [List.length_tail]
    omega
  · omega

/-- What a call does to the queue is frugal. -/
theorem push_frugal (hcapacity : 0 < c.capacity)
    (hbounded : c.queue.length ≤ c.capacity) (w : AudioWave F) :
    Accepted.Frugal c.capacity ⟨c.queue, w, c.push w⟩ := by
  rw [Accepted.Frugal, Channel.push]
  split
  case isTrue hfull =>
    cases hqueue : c.queue with
    | nil =>
      rw [hqueue, List.length_nil] at hfull
      omega
    | cons oldest rest =>
      rw [hqueue] at hfull hbounded
      exact .inr ⟨Nat.le_antisymm hbounded hfull, oldest, rest, rfl, rfl⟩
  case isFalse hroom => exact .inl ⟨Nat.lt_of_not_le hroom, rfl⟩

/-- A wave that comes in is accounted for. -/
theorem trySend_counted (hcapacity : 0 < c.capacity) (w : AudioWave F) :
    (c.trySend w).dropped + (c.trySend w).queue.length = c.dropped + c.queue.length + 1 := by
  simp only [Channel.trySend, Channel.push, List.length_append, List.length_singleton]
  split
  · rw [List.length_tail]
    omega
  · omega

/-- The queue with a new wave has waves that were in it, and the new one. -/
theorem push_sublist (c : Channel F) (w : AudioWave F) :
    (c.push w).Sublist (c.queue ++ [w]) := by
  rw [Channel.push]
  split
  · exact (List.tail_sublist _).append_right _
  · exact List.Sublist.refl _

theorem Inv.pushed (h : Inv s) (w : AudioWave F)
    (hcount : senders.countP Sender.alive = s.senders.countP Sender.alive) :
    Inv { s with
      channel := s.channel.trySend w
      sends := s.sends ++ [⟨s.channel.queue, w, s.channel.push w⟩]
      late := true
      senders := senders } := by
  constructor
  · exact h.capacity
  · exact h.senders.trans hcount.symm
  · have hqueue := (push_sublist s.channel w).append_left s.received
    rw [← List.append_assoc] at hqueue
    simp only [System.accepted, List.map_append, List.map_cons, List.map_nil]
    exact hqueue.trans (h.ordered.append_right [w])
  · have hsent := trySend_counted h.capacity w
    have hcounted := h.counted
    simp only [System.accepted, List.length_map] at hcounted
    simp only [System.accepted, List.length_map, List.length_append, List.length_singleton]
    omega
  · exact push_length h.capacity h.bounded w
  · intro a ha
    cases List.mem_append.mp ha with
    | inl hold => exact h.frugal a hold
    | inr hnew =>
      rw [List.mem_singleton.mp hnew]
      exact push_frugal h.capacity h.bounded w
  · intro _
    simp [Channel.trySend, Channel.push]

theorem Inv.look (h : Inv s) : Inv s.look := by
  unfold System.look
  split
  case h_1 hqueue =>
    exact ⟨h.capacity, h.senders, h.ordered, h.counted, h.bounded, h.frugal,
      fun _ => ⟨fun _ => hqueue, fun _ => rfl⟩⟩
  case h_2 w rest hqueue =>
    have hordered := h.ordered
    have hcounted := h.counted
    have hbounded := h.bounded
    rw [hqueue] at hordered hcounted hbounded
    rw [List.length_cons] at hcounted hbounded
    refine ⟨h.capacity, h.senders, ?_, ?_, ?_, h.frugal, Receiver.noConfusion⟩
    · rw [List.append_assoc]
      exact hordered
    · simp only [System.accepted, List.length_map] at hcounted
      simp only [System.accepted, List.length_map, List.length_append, List.length_singleton]
      omega
    · exact Nat.le_of_succ_le hbounded

theorem Inv.removed (h : Inv s) {rest : List (AudioWave F)} {dropped cleared : ℕ}
    (hidle : s.receiver = .idle) (hrest : rest <:+ s.channel.queue)
    (hcount : dropped + cleared + rest.length =
      s.channel.dropped + s.cleared + s.channel.queue.length) :
    Inv { s with
      channel := { s.channel with queue := rest, dropped := dropped }
      cleared := cleared } := by
  constructor
  · exact h.capacity
  · exact h.senders
  · exact (hrest.sublist.append_left s.received).trans h.ordered
  · have hcounted := h.counted
    simp only [System.accepted, List.length_map] at hcounted ⊢
    omega
  · exact Nat.le_trans hrest.length_le h.bounded
  · exact h.frugal
  · intro hlooked
    exact Receiver.noConfusion (hidle.symm.trans hlooked)

/-- Every step keeps the account. -/
theorem Inv.step (h : Inv s) (hs : s.step ar a = some s') : Inv s' := by
  cases step_moved hs with
  | counted count senders free hcount =>
    exact ⟨h.capacity, hcount h.senders, h.ordered, h.counted, h.bounded, h.frugal, h.looked⟩
  | pushed w senders free hcount => exact h.pushed w hcount
  | looked free => exact h.look
  | loaded hlooked =>
    unfold System.loadCount
    split
    · exact ⟨h.capacity, h.senders, h.ordered, h.counted, h.bounded, h.frugal,
        Receiver.noConfusion⟩
    · exact ⟨h.capacity, h.senders, h.ordered, h.counted, h.bounded, h.frugal,
        Receiver.noConfusion⟩
  | removed rest dropped cleared free hidle hrest hcount => exact h.removed hidle hrest hcount
  | left alive r free hr =>
    exact ⟨h.capacity, h.senders, h.ordered, h.counted, h.bounded, h.frugal,
      fun hlooked => absurd hlooked hr⟩

theorem inv_new {capacity : ℕ} (hcapacity : 0 < capacity) :
    Inv (System.new capacity : System F) := by
  constructor
  · exact hcapacity
  · rfl
  · exact List.Sublist.refl []
  · rfl
  · exact Nat.zero_le capacity
  · exact fun a ha => absurd ha List.not_mem_nil
  · exact Receiver.noConfusion

/-- What is expected holds as far as it is not about the end of the stream. -/
theorem Inv.kept_iff (h : Inv s) : Kept s ↔ ∀ e ∈ s.ends, e.senders = 0 ∧ e.left = 0 := by
  constructor
  · exact fun hkept => hkept.ended
  · intro hends
    exact ⟨(List.sublist_append_left _ _).trans h.ordered, h.counted, h.bounded, h.frugal, hends⟩

/-- The end that is reported is the right one exactly if no wave came late. -/
theorem loadCount_ended_iff (h : Inv s) (hlooked : s.receiver = .looked)
    (hends : ∀ e ∈ s.ends, e.senders = 0 ∧ e.left = 0) :
    (∀ e ∈ s.loadCount.ends, e.senders = 0 ∧ e.left = 0) ↔
      Undisturbed s (.loadCount : Action F) := by
  have hlate := h.looked hlooked
  by_cases hzero : s.channel.senderCount = 0
  · have hgone : s.senders.countP Sender.alive = 0 := h.senders.symm.trans hzero
    have hnew : s.loadCount.ends = s.ends ++ [⟨0, s.channel.queue.length⟩] := by
      rw [System.loadCount, if_pos hzero, hgone]
    constructor
    · intro hall hnone
      have hmem : (⟨0, s.channel.queue.length⟩ : End) ∈ s.loadCount.ends := by
        rw [hnew]
        exact List.mem_append_right _ (List.mem_singleton.mpr rfl)
      have hleft := (hall _ hmem).2
      exact hlate.mpr (List.length_eq_zero_iff.mp hleft)
    · intro hfree e he
      rw [hnew] at he
      cases List.mem_append.mp he with
      | inl hold => exact hends e hold
      | inr hlast =>
        rw [List.mem_singleton.mp hlast]
        exact ⟨rfl, List.length_eq_zero_iff.mpr (hlate.mp (hfree hzero))⟩
  · have hsame : s.loadCount.ends = s.ends := by
      rw [System.loadCount, if_neg hzero]
    constructor
    · exact fun _ hz => absurd hz hzero
    · intro _ e he
      exact hends e (hsame ▸ he)

/-- A step keeps what is expected exactly if no wave came late when it reports the end. -/
theorem kept_step_iff (h : Inv s) (hkept : Kept s) (hs : s.step ar a = some s') :
    Kept s' ↔ Undisturbed s a := by
  have hsame : Undisturbed s a → s'.ends = s.ends → (Kept s' ↔ Undisturbed s a) := by
    intro free hends
    rw [(h.step hs).kept_iff, hends]
    exact ⟨fun _ => free, fun _ => hkept.ended⟩
  cases step_moved hs with
  | counted count senders free hcount | pushed w senders free hcount => exact hsame free rfl
  | looked free =>
    refine hsame free ?_
    unfold System.look
    split
    · rfl
    · rfl
  | loaded hlooked =>
    rw [(h.step hs).kept_iff]
    exact loadCount_ended_iff h hlooked hkept.ended
  | removed rest dropped cleared free hidle hrest hcount => exact hsame free rfl
  | left alive r free hr => exact hsame free rfl

/-! ## Whole runs -/

/-- For a channel of any capacity and any interleaving of the senders and the receiver: waves are
received in order and accounted for, the capacity is kept and the oldest dropped, and the end is
reported when it is over, exactly if whenever the receiver finds the last sender gone, no wave was
accepted since it found the queue empty. -/
theorem kept_iff_undisturbed {capacity : ℕ} (hcapacity : 0 < capacity)
    (hrun : run (System.step ar) (System.new capacity) acts = some t) :
    (∀ before u, before <+: acts → run (System.step ar) (System.new capacity) before = some u →
      Kept u) ↔ Meets (System.step ar) Undisturbed (System.new capacity) acts := by
  have hinit : Inv (System.new capacity : System F) := inv_new hcapacity
  refine prefixes_iff_meets_of_iff (fun _ => True) (fun s a s' => Inv.step) ?_ hinit
    (hinit.kept_iff.mpr fun e he => absurd he List.not_mem_nil) hrun fun _ _ => trivial
  exact fun s a s' _ h hkept hs => kept_step_iff h hkept hs

/-- Durations in hundredths of a millisecond. -/
def hundredths : Arithmetic ℤ where
  zero := 0
  add := (· + ·)
  sub := (· - ·)
  exceeds x y := decide (y < x)
  ofLength n := n * 1000 / 1764

/-- A wave of twenty milliseconds. -/
def shortWave : AudioWave ℤ := ⟨[1, 2, 3], 0, some 2000⟩

/-- Two waves go through a queue of one: the first is dropped and the second received, and then
the sender goes and the end is reported. -/
def drained : List (Action ℤ) :=
  [.look, .loadCount, .call 0 shortWave, .send 0 0, .call 0 { shortWave with ts := 20 },
    .send 0 0, .look, .dropSender 0, .look, .loadCount]

theorem kept_iff_undisturbed_drained :
    ∃ t, run (System.step hundredths) (System.new 1) drained = some t ∧ t.ends = [⟨0, 0⟩] ∧
      ((∀ before u, before <+: drained →
        run (System.step hundredths) (System.new 1) before = some u → Kept u) ↔
        Meets (System.step hundredths) Undisturbed (System.new 1) drained) := by
  refine ⟨_, rfl, by decide, ?_⟩
  exact kept_iff_undisturbed Nat.one_pos rfl

/-- The sender puts a wave into the queue that the receiver has just found empty, and goes. -/
def lastWave : List (Action ℤ) :=
  [.look, .call 0 shortWave, .send 0 0, .dropSender 0, .loadCount]

theorem not_always_kept :
    ¬ ∀ (capacity : ℕ) (acts : List (Action ℤ)) (t : System ℤ), 0 < capacity →
      run (System.step hundredths) (System.new capacity) acts = some t → Kept t := by
  intro h
  have hend := (h 4 lastWave _ (by decide) rfl).ended ⟨0, 1⟩ (by decide)
  exact absurd hend.2 (by decide)

/-- In every run, also one that ends too early, the waves are in order and accounted for, a wave
is dropped only from a full queue, and the senders that live are counted. -/
theorem waves_accounted {capacity : ℕ} (hcapacity : 0 < capacity)
    (hrun : run (System.step ar) (System.new capacity) acts = some t) :
    (t.received ++ t.channel.queue).Sublist t.accepted ∧
      t.accepted.length =
        t.received.length + t.channel.dropped + t.cleared + t.channel.queue.length ∧
      t.channel.queue.length ≤ capacity ∧ (∀ a ∈ t.sends, a.Frugal capacity) ∧
      t.channel.senderCount = t.senders.countP Sender.alive := by
  have hstep : ∀ (s : System F) (a : Action F) (s' : System F),
      Inv s ∧ s.channel.capacity = capacity → s.step ar a = some s' →
      Inv s' ∧ s'.channel.capacity = capacity := by
    rintro s a s' ⟨h, hsame⟩ hs
    refine ⟨h.step hs, ?_⟩
    rw [← hsame]
    cases step_moved hs with
    | looked => unfold System.look; split <;> rfl
    | loaded => unfold System.loadCount; split <;> rfl
    | _ => rfl
  obtain ⟨h, rfl⟩ := run_invariant_of_step _ hstep ⟨inv_new hcapacity, rfl⟩ hrun
  exact ⟨h.ordered, h.counted, h.bounded, h.frugal, h.senders⟩

/-- The wave that came late is in the queue. -/
theorem waves_accounted_lastWave : ∃ t,
    run (System.step hundredths) (System.new 4) lastWave = some t ∧ t.ends = [⟨0, 1⟩] ∧
      (t.received ++ t.channel.queue).Sublist t.accepted :=
  have hrun : run (System.step hundredths) (System.new 4) lastWave = some _ := rfl
  ⟨_, hrun, by decide, (waves_accounted (Nat.succ_pos 3) hrun).1⟩

end Macrdp.AudioQueue
