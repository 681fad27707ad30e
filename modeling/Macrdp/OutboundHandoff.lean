import Macrdp.OutboundAccounting
import Macrdp.OutboundOwner

/-!
# What the owner loop hands to the socket

Every packet the channel accepted is written, selected but not yet written,
pending, or still in the channel, class by class and in order. The loop leaves
when no bytes are queued, which is not the same as no packets being queued:
the exact condition under which it returns with nothing left behind is that
the scheduler is also empty of zero-length packets.
-/

namespace Macrdp.OutboundHandoff

open OutboundScheduling OutboundScheduling.OutboundScheduler OutboundLedger OutboundAccounting
  OutboundOwner OutboundOwner.Owner StepSystem

/-- What the run owes its producers, in any state it can be in. -/
structure HandedOff (maxBytes : ℕ) (o : Owner) : Prop where
  /-- A run that returns `Ok` wrote, class by class, exactly what was accepted. -/
  written : o.result = some (.ok ()) → ∀ c,
    stream (ofClass c o.written) = stream (ofClass c o.accepted)
  /-- It holds no packet back. -/
  empty : o.result = some (.ok ()) → o.pending = none ∧ o.scheduler.len = 0
  /-- A failing write is the last write. -/
  lastFailure : ∀ before attempt after, o.writes = before ++ attempt :: after →
    attempt.succeeded = false → after = []
  /-- `InvalidInput` is returned only for a packet beyond the byte budget. -/
  invalid : ∀ e, o.result = some (.error e) → e.isInvalidInput = true →
    ∃ packet ∈ o.accepted, maxBytes < packet.len

/-- The packets of the run, wherever they are. `inHand` is a received packet
that the current step has not placed yet. -/
structure Stored (maxBytes : ℕ) (inHand : List OutboundPacket) (o : Owner) : Prop where
  /-- The byte counters of the scheduler describe its queues. -/
  balanced : Balanced o.scheduler
  /-- The scheduler keeps its budget. -/
  schedulerBudget : o.scheduler.maxBytes = maxBytes
  /-- The loop read that budget. -/
  ownerBudget : o.maxBytes = maxBytes
  /-- Unless the run failed, written, queued, pending and unreceived bytes of a
  class are its accepted bytes, in order. -/
  conserved : (∀ e, o.result ≠ some (.error e)) → ∀ c,
    stream (ofClass c o.written) ++ (stream (o.scheduler.queues c) ++
      stream (ofClass c (o.pending.toList ++ (inHand ++ o.receiver.queue)))) =
    stream (ofClass c o.accepted)
  /-- What is pending, in hand or in the channel was accepted. -/
  held : ∀ packet ∈ o.pending.toList ++ (inHand ++ o.receiver.queue), packet ∈ o.accepted
  /-- `InvalidInput` has a cause among the accepted packets. -/
  invalid : ∀ e, o.result = some (.error e) → e.isInvalidInput = true →
    ∃ packet ∈ o.accepted, maxBytes < packet.len
  /-- A run that goes on has seen no write fail. -/
  succeeded : o.result = none → ∀ attempt ∈ o.writes, attempt.succeeded = true
  /-- A failing write is the last write. -/
  lastFailure : ∀ before attempt after, o.writes = before ++ attempt :: after →
    attempt.succeeded = false → after = []

/-- The guards of the loop agree with the packets it holds. -/
structure Guarded (o : Owner) : Prop where
  /-- The end of the channel is only seen once nothing can be sent. -/
  closedReceiver : o.closed = true → o.receiver.disconnected = true
  /-- Only a run that returned has a result, -/
  running : o.point ≠ .returned → o.result = none
  /-- and then it has dropped the receiver. -/
  returned : o.point = .returned → o.receiver.closed = true
  /-- The loop waits with no packet pending. -/
  waits : o.point = .waiting → o.pending = none
  /-- A packet is kept pending only behind a scheduler with bytes to write. -/
  behindBytes : o.point = .ingress ∨ o.point = .write → o.pending ≠ none →
    o.scheduler.isEmpty = false
  /-- What was admitted this turn is still queued. -/
  counted : o.point = .ingress ∨ o.point = .write → o.admittedThisTurn ≤ o.scheduler.len
  /-- Past the end of the channel the batch bound alone leaves packets in it. -/
  drained : o.point = .write → o.pending = none → o.closed = true →
    o.receiver.queue = [] ∨ maxIngressBatch ≤ o.admittedThisTurn
  /-- `Ok` is returned with nothing pending, and with packets left in the channel
  only when packets are left in the scheduler. -/
  exit : o.result = some (.ok ()) → o.pending = none ∧
    (o.scheduler.len = 0 → o.receiver.queue = [])

/-- Nothing is stored before the run. -/
theorem stored_new (maxBytes capacity : ℕ) : Stored maxBytes [] (Owner.new maxBytes capacity) where
  balanced := balanced_new maxBytes
  schedulerBudget := rfl
  ownerBudget := rfl
  conserved _ _ := rfl
  held packet h := by simp [Owner.new, Ingress.new] at h
  invalid e h := by simp [Owner.new] at h
  succeeded _ attempt h := by simp [Owner.new] at h
  lastFailure before attempt after h := by simp [Owner.new] at h

/-- The guards agree before the run. -/
theorem guarded_new (maxBytes capacity : ℕ) : Guarded (Owner.new maxBytes capacity) where
  closedReceiver h := by simp [Owner.new] at h
  running _ := rfl
  returned h := by simp [Owner.new] at h
  waits h := by simp [Owner.new] at h
  behindBytes h := by simp [Owner.new] at h
  counted h := by simp [Owner.new] at h
  drained h := by simp [Owner.new] at h
  exit h := by simp [Owner.new] at h

/-- What a channel gives up is its oldest packet; otherwise it is empty, and
disconnected if it says so. -/
theorem tryRecv_cases (ch : Ingress) :
    (∃ packet rest, ch.queue = packet :: rest ∧
      ch.tryRecv = ({ ch with queue := rest }, .ok packet)) ∨
    (ch.queue = [] ∧ ch.disconnected = false ∧ ch.tryRecv = (ch, .error .empty)) ∨
    (ch.queue = [] ∧ ch.disconnected = true ∧ ch.tryRecv = (ch, .error .disconnected)) := by
  cases hq : ch.queue with
  | cons packet rest => exact .inl ⟨packet, rest, rfl, by simp [Ingress.tryRecv, hq]⟩
  | nil =>
    right
    cases hd : ch.disconnected with
    | false => exact .inl ⟨rfl, rfl, by simp [Ingress.tryRecv, hq, hd]⟩
    | true => exact .inr ⟨rfl, rfl, by simp [Ingress.tryRecv, hq, hd]⟩

/-- What an admission can do: push the packet, fail the run for one beyond the
budget, or keep pending one that does not fit behind the queued bytes. -/
theorem admit_cases (o : Owner) (packet : OutboundPacket)
    (hbudget : o.maxBytes = o.scheduler.maxBytes) :
    (∃ s', o.scheduler.tryPush packet = (s', .ok ()) ∧
      o.stepAdmit packet = { o with scheduler := s', admittedThisTurn := o.admittedThisTurn + 1 }) ∨
    (o.maxBytes < packet.len ∧
      o.stepAdmit packet = o.finish (.error (.exceedsByteBudget packet.len))) ∨
    (o.scheduler.isEmpty = false ∧
      o.stepAdmit packet =
        { o with
          scheduler := { o.scheduler with
            rejectedPackets := saturatingAdd o.scheduler.rejectedPackets 1 }
          pending := some packet }) := by
  by_cases hlarge : o.maxBytes < packet.len
  · right
    left
    exact ⟨hlarge, by simp only [Owner.stepAdmit, admitPacket, if_pos hlarge]⟩
  · rcases tryPush_cases o.scheduler packet with ⟨-, he⟩ | ⟨hfull, he⟩
    · left
      exact ⟨_, he, by simp only [Owner.stepAdmit, admitPacket, if_neg hlarge, he]⟩
    · right
      right
      refine ⟨?_, by simp only [Owner.stepAdmit, admitPacket, if_neg hlarge, he]⟩
      simp only [isEmpty, beq_eq_false_iff_ne]
      omega

variable {maxBytes : ℕ} {o o' : Owner} {packet : OutboundPacket}

/-- Placing the packet in hand keeps every packet accounted for. -/
theorem Stored.stepAdmit
    (h : Stored maxBytes [packet] o) (hpending : o.pending = none) (hresult : o.result = none) :
    Stored maxBytes [] (o.stepAdmit packet) := by
  have hbudget : o.maxBytes = o.scheduler.maxBytes := h.ownerBudget.trans h.schedulerBudget.symm
  have hconserved := h.conserved (by simp [hresult])
  have hheld := h.held
  simp only [hpending, Option.toList_none, List.nil_append] at hconserved hheld
  rcases admit_cases o packet hbudget with ⟨s', hpush, he⟩ | ⟨hlarge, he⟩ | ⟨-, he⟩ <;> rw [he]
  · refine ⟨h.balanced.push hpush, ?_, h.ownerBudget, ?_, ?_, h.invalid, h.succeeded,
      h.lastFailure⟩
    · rw [← h.schedulerBudget]
      rcases tryPush_cases o.scheduler packet with ⟨-, hp⟩ | ⟨-, hp⟩ <;> rw [hp] at hpush <;>
        cases hpush
      rfl
    · intro _ c
      have hc := hconserved c
      rw [ofClass_append, stream_append] at hc
      simp only [hpending, Option.toList_none, List.nil_append, tryPush_stream hpush c,
        List.append_assoc]
      exact hc
    · intro p hp
      simp only [hpending, Option.toList_none, List.nil_append] at hp
      exact hheld p (List.mem_append_right _ hp)
  · refine ⟨h.balanced, h.schedulerBudget, h.ownerBudget, ?_, ?_, ?_, ?_, h.lastFailure⟩
    · intro hne
      exact absurd rfl (hne _)
    · intro p hp
      simp only [Owner.finish, hpending, Option.toList_none, List.nil_append] at hp
      exact hheld p (List.mem_append_right _ hp)
    · intro e _ _
      exact ⟨packet, hheld packet (by simp), h.ownerBudget ▸ hlarge⟩
    · intro hnone
      cases hnone
  · refine ⟨⟨h.balanced.classified, h.balanced.classBytes, h.balanced.queuedBytes,
      h.balanced.withinBudget⟩, h.schedulerBudget, h.ownerBudget, ?_, ?_, h.invalid, h.succeeded,
      h.lastFailure⟩
    · intro _ c
      exact hconserved c
    · intro p hp
      exact hheld p hp

/-- A run that returned guards only its result. -/
theorem guarded_finish {result : Except RunError Unit}
    (hexit : result = .ok () → o.pending = none ∧ (o.scheduler.len = 0 → o.receiver.queue = [])) :
    Guarded (o.finish result) where
  closedReceiver _ := by simp [Owner.finish, Ingress.disconnected]
  running h := by simp [Owner.finish] at h
  returned _ := rfl
  waits h := by simp [Owner.finish] at h
  behindBytes h := by simp [Owner.finish] at h
  counted h := by simp [Owner.finish] at h
  drained h := by simp [Owner.finish] at h
  exit h := hexit (Option.some.inj h)

/-- Placing the packet in hand keeps the guards in agreement. -/
theorem Guarded.stepAdmit (h : Guarded o)
    (hstored : Stored maxBytes [packet] o) (hpoint : o.point = .ingress) :
    Guarded (o.stepAdmit packet) := by
  have hbudget : o.maxBytes = o.scheduler.maxBytes :=
    hstored.ownerBudget.trans hstored.schedulerBudget.symm
  have hcounted := h.counted (.inl hpoint)
  rcases admit_cases o packet hbudget with ⟨s', hpush, he⟩ | ⟨-, he⟩ | ⟨hbytes, he⟩ <;> rw [he]
  · refine ⟨h.closedReceiver, h.running, h.returned, h.waits, ?_, ?_, ?_, ?_⟩
    · intro hp hne
      have hbefore := h.behindBytes hp hne
      rcases tryPush_cases o.scheduler packet with ⟨-, hp⟩ | ⟨-, hp⟩ <;> rw [hp] at hpush <;>
        cases hpush
      simp only [isEmpty, beq_eq_false_iff_ne] at hbefore ⊢
      omega
    · intro _
      simp only [tryPush_len hpush]
      omega
    · intro hwrite
      simp [hpoint] at hwrite
    · intro hok
      simp [h.running (by simp [hpoint])] at hok
  · exact guarded_finish (by simp)
  · refine ⟨h.closedReceiver, h.running, h.returned, ?_, fun _ _ => hbytes, fun _ => hcounted,
      ?_, ?_⟩
    · intro hwaiting
      simp [hpoint] at hwaiting
    · intro hwrite
      simp [hpoint] at hwrite
    · intro hok
      simp [h.running (by simp [hpoint])] at hok

/-- What is stored does not depend on the flags of the loop. -/
theorem Stored.congr {inHand : List OutboundPacket}
    (h : Stored maxBytes inHand o) (hscheduler : o'.scheduler = o.scheduler)
    (hbudget : o'.maxBytes = o.maxBytes) (hqueue : o'.receiver.queue = o.receiver.queue)
    (hpending : o'.pending = o.pending) (hresult : o'.result = o.result)
    (haccepted : o'.accepted = o.accepted) (hwrites : o'.writes = o.writes) :
    Stored maxBytes inHand o' where
  balanced := hscheduler ▸ h.balanced
  schedulerBudget := hscheduler ▸ h.schedulerBudget
  ownerBudget := hbudget ▸ h.ownerBudget
  conserved := by
    simp only [written, hscheduler, hqueue, hpending, hresult, haccepted, hwrites]
    exact h.conserved
  held := by
    simp only [hqueue, hpending, haccepted]
    exact h.held
  invalid := by
    simp only [hresult, haccepted]
    exact h.invalid
  succeeded := by
    simp only [hresult, hwrites]
    exact h.succeeded
  lastFailure := by
    simp only [hwrites]
    exact h.lastFailure

/-- Away from admission and writing only the end of the channel is guarded. -/
theorem guarded_of_point (hingress : o.point ≠ .ingress) (hwrite : o.point ≠ .write)
    (hreturned : o.point ≠ .returned) (hwaits : o.point = .waiting → o.pending = none)
    (hresult : o.result = none)
    (hclosed : o.closed = true → o.receiver.disconnected = true) : Guarded o where
  closedReceiver := hclosed
  running _ := hresult
  returned h := absurd h hreturned
  waits := hwaits
  behindBytes h := (h.elim hingress hwrite).elim
  counted h := (h.elim hingress hwrite).elim
  drained h := absurd h hwrite
  exit h := by simp [hresult] at h

/-- The head of the loop moves no packet. -/
theorem sound_stepHead (h : Stored maxBytes [] o) (hg : Guarded o) (hresult : o.result = none) :
    Stored maxBytes [] o.stepHead ∧ Guarded o.stepHead := by
  simp only [stepHead]
  split
  · next hidle =>
    simp only [Bool.and_eq_true, Option.isNone_iff_eq_none] at hidle
    split
    · refine ⟨h.congr rfl rfl rfl rfl rfl rfl rfl, ?_⟩
      exact guarded_of_point (by simp) (by simp) (by simp) (by simp) hresult
        (by simp [closeReceiver, Ingress.disconnected])
    · exact ⟨h.congr rfl rfl rfl rfl rfl rfl rfl,
        guarded_of_point (by simp) (by simp) (by simp) (fun _ => hidle.1.1) hresult
          hg.closedReceiver⟩
  · exact ⟨h.congr rfl rfl rfl rfl rfl rfl rfl,
      guarded_of_point (by simp) (by simp) (by simp) (by simp) hresult hg.closedReceiver⟩

/-- A packet taken from the channel is in hand until it is placed. -/
theorem Stored.receive {rest : List OutboundPacket} (h : Stored maxBytes [] o)
    (hqueue : o.receiver.queue = packet :: rest) :
    Stored maxBytes [packet] { o with receiver := { o.receiver with queue := rest } } where
  __ := h
  conserved hne c := by
    have hc := h.conserved hne c
    rw [hqueue] at hc
    exact hc
  held p hp := h.held p (by rw [hqueue]; exact hp)

/-- A packet in hand may be kept as the pending one. -/
theorem Stored.keep (h : Stored maxBytes [packet] o) (hpending : o.pending = none) :
    Stored maxBytes [] { o with pending := some packet } where
  __ := h
  conserved hne c := by
    have hc := h.conserved hne c
    rw [hpending] at hc
    exact hc
  held p hp := h.held p (by rw [hpending]; exact hp)

/-- The pending packet may be taken in hand. -/
theorem Stored.take (h : Stored maxBytes [] o) (hpending : o.pending = some packet) :
    Stored maxBytes [packet] { o with pending := none } where
  __ := h
  conserved hne c := by
    have hc := h.conserved hne c
    rw [hpending] at hc
    exact hc
  held p hp := h.held p (by rw [hpending]; exact hp)

/-- The wait keeps the packet it receives. -/
theorem sound_stepWaiting {fired : Bool} (h : Stored maxBytes [] o)
    (hg : Guarded o) (hpoint : o.point = .waiting)
    (hstep : o.stepWaiting fired = some o') : Stored maxBytes [] o' ∧ Guarded o' := by
  have hresult := hg.running (by simp [hpoint])
  have hpending := hg.waits hpoint
  simp only [stepWaiting] at hstep
  split at hstep
  · split at hstep
    · cases hstep
      refine ⟨h.congr rfl rfl rfl rfl rfl rfl rfl, ?_⟩
      exact guarded_of_point (by simp) (by simp) (by simp) (by simp) hresult
        (by simp [closeReceiver, Ingress.disconnected])
    · cases hstep
  · rcases tryRecv_cases o.receiver with ⟨packet, rest, hqueue, he⟩ | ⟨-, -, he⟩ | ⟨-, hdisc, he⟩
    · simp only [Ingress.recv, he, Option.some.injEq] at hstep
      subst hstep
      refine ⟨((h.receive hqueue).keep hpending).congr rfl rfl rfl rfl rfl rfl rfl, ?_⟩
      exact guarded_of_point (by simp) (by simp) (by simp) (by simp) hresult hg.closedReceiver
    · simp only [Ingress.recv, he] at hstep
      cases hstep
    · simp only [Ingress.recv, he, Option.some.injEq] at hstep
      subst hstep
      exact ⟨h.congr rfl rfl rfl rfl rfl rfl rfl,
        guarded_of_point (by simp) (by simp) (by simp) (by simp) hresult fun _ => hdisc⟩

/-- The pending packet is placed at the start of the turn. -/
theorem sound_stepPending (h : Stored maxBytes [] o) (hg : Guarded o) (hresult : o.result = none) :
    Stored maxBytes [] o.stepPending ∧ Guarded o.stepPending := by
  have hstart : ∀ o' : Owner, o'.pending = none → o'.admittedThisTurn = 0 →
      o'.point = .ingress → o'.result = none → o'.closed = o.closed → o'.receiver = o.receiver →
      Guarded o' := by
    intro o' hpending hcount hpoint hnone hclosed hreceiver
    refine ⟨?_, fun _ => hnone, ?_, fun _ => hpending, fun _ hne => absurd hpending hne, ?_, ?_,
      ?_⟩
    · rw [hclosed, hreceiver]
      exact hg.closedReceiver
    · intro hreturned
      simp [hpoint] at hreturned
    · intro _
      omega
    · intro hwrite
      simp [hpoint] at hwrite
    · intro hok
      simp [hnone] at hok
  simp only [stepPending]
  split
  · next hpending =>
    exact ⟨h.congr rfl rfl rfl rfl rfl rfl rfl, hstart _ hpending rfl rfl hresult rfl rfl⟩
  · next packet hpending =>
    have htaken : Stored maxBytes [packet]
        { o with admittedThisTurn := 0, pending := none, point := .ingress } :=
      (h.take hpending).congr rfl rfl rfl rfl rfl rfl rfl
    have hguarded : Guarded { o with admittedThisTurn := 0, pending := none, point := .ingress } :=
      hstart _ rfl rfl rfl hresult rfl rfl
    exact ⟨htaken.stepAdmit rfl hresult, hguarded.stepAdmit htaken rfl⟩

/-- A round of draining places what it receives, and ends with an empty channel
or a full batch. -/
theorem sound_stepIngress (h : Stored maxBytes [] o) (hg : Guarded o)
    (hpoint : o.point = .ingress) : Stored maxBytes [] o.stepIngress ∧ Guarded o.stepIngress := by
  have hresult := hg.running (by simp [hpoint])
  have hbytes := hg.behindBytes (.inl hpoint)
  have hcounted := hg.counted (.inl hpoint)
  have hends : ∀ closed : Bool, (closed = true → o.receiver.disconnected = true) →
      (o.pending = none → closed = true →
        o.receiver.queue = [] ∨ maxIngressBatch ≤ o.admittedThisTurn) →
      Guarded { o with closed := closed, point := .write } := by
    intro closed hclosed hdrained
    exact ⟨hclosed, fun _ => hresult, by simp, by simp, fun _ => hbytes, fun _ => hcounted,
      fun _ => hdrained, by simp [hresult]⟩
  simp only [stepIngress]
  split
  · next hmore =>
    simp only [Bool.and_eq_true, Option.isNone_iff_eq_none] at hmore
    rcases tryRecv_cases o.receiver with ⟨packet, rest, hqueue, he⟩ | ⟨hqueue, hdisc, he⟩ |
      ⟨hqueue, hdisc, he⟩
    · simp only [he]
      have hreceived := h.receive hqueue
      have hguarded : Guarded { o with receiver := { o.receiver with queue := rest } } :=
        ⟨hg.closedReceiver, hg.running, hg.returned, hg.waits, hg.behindBytes, hg.counted,
          fun hwrite => by simp [hpoint] at hwrite, fun hok => by simp [hresult] at hok⟩
      exact ⟨hreceived.stepAdmit hmore.1 hresult, hguarded.stepAdmit hreceived hpoint⟩
    · simp only [he]
      refine ⟨h.congr rfl rfl rfl rfl rfl rfl rfl, hends o.closed hg.closedReceiver ?_⟩
      exact fun _ _ => .inl hqueue
    · simp only [he]
      refine ⟨h.congr rfl rfl rfl rfl rfl rfl rfl, hends true (fun _ => hdisc) ?_⟩
      exact fun _ _ => .inl hqueue
  · next hmore =>
    refine ⟨h.congr rfl rfl rfl rfl rfl rfl rfl, hends o.closed hg.closedReceiver ?_⟩
    intro hpending _
    right
    simpa [hpending] using hmore

/-- A write takes the selected buffers out of the scheduler. -/
theorem Stored.write {s' : OutboundScheduler} {c : OutboundClass}
    {bufs : List OutboundPacket} (succeeded : Bool)
    (h : Stored maxBytes [] o) (hresult : o.result = none)
    (hd : Drains o.scheduler s' c bufs) (hcls : packet.cls = c)
    (hbytes : packet.bytes = stream bufs) {result : Option (Except RunError Unit)}
    (hok : succeeded = true ∧ result = none ∨ result = some (.error .writeFailed)) :
    Stored maxBytes [] { o with
      scheduler := s', writes := o.writes ++ [⟨packet, succeeded⟩], result := result } := by
  refine ⟨h.balanced.drains hd, hd.maxBytes.trans h.schedulerBudget, h.ownerBudget, ?_, h.held,
    ?_, ?_, ?_⟩
  · intro _ d
    have hc := h.conserved (by simp [hresult]) d
    rw [stream_drains hd hcls hbytes] at hc
    simp only [written, List.map_append, List.map_cons, List.map_nil, ofClass_append,
      stream_append, List.append_assoc] at hc ⊢
    exact hc
  · rintro e he hinvalid
    rcases hok with ⟨-, hnone⟩ | hfailed
    · simp [hnone] at he
    · simp only [hfailed, Option.some.injEq, Except.error.injEq] at he
      subst he
      cases hinvalid
  · intro hnone attempt hmem
    rcases List.mem_append.mp hmem with hmem | hmem
    · exact h.succeeded hresult attempt hmem
    · rcases hok with ⟨hsucc, -⟩ | hfailed
      · rw [List.mem_singleton.mp hmem]
        exact hsucc
      · simp [hfailed] at hnone
  · intro before attempt after hsplit hfails
    rcases List.eq_nil_or_concat after with rfl | ⟨front, last, rfl⟩
    · rfl
    · simp only [List.concat_eq_append, ← List.cons_append, ← List.append_assoc] at hsplit
      have hmem : attempt ∈ o.writes := by
        rw [List.append_inj_left' hsplit rfl]
        simp
      rw [h.succeeded hresult attempt hmem] at hfails
      cases hfails

/-- A run that goes on may return an error other than `InvalidInput`, or `Ok`. -/
theorem Stored.finish (h : Stored maxBytes [] o)
    (hresult : o.result = none) : Stored maxBytes [] (o.finish (.ok ())) where
  __ := h
  conserved _ := h.conserved (by simp [hresult])
  invalid e he := by simp [Owner.finish] at he
  succeeded hnone := by simp [Owner.finish] at hnone

/-- The end of a turn writes one packet, or returns past the end of the channel;
its guard against an unadmissible packet never fires. -/
theorem sound_stepWrite (writeSucceeds : Bool)
    (h : Stored maxBytes [] o) (hg : Guarded o) (hpoint : o.point = .write) :
    Stored maxBytes [] (o.stepWrite writeSucceeds) ∧ Guarded (o.stepWrite writeSucceeds) := by
  have hresult := hg.running (by simp [hpoint])
  simp only [stepWrite]
  split
  · next hbytes =>
    rcases hpop : o.scheduler.popNextCoalesced with ⟨s', _ | packet⟩
    · have hempty := h.balanced.isEmpty_of_queues (popNextCoalesced_none h.balanced hpop).1
      simp [hempty] at hbytes
    · obtain ⟨t, first, bufs, -, -, hd, hpacket, -, -⟩ :=
        popNextCoalesced_some h.balanced.classified hpop
      cases writeSucceeds with
      | true =>
        have hstored := h.write true hresult hd rfl hpacket (.inl ⟨rfl, hresult⟩)
        exact ⟨hstored.congr rfl rfl rfl rfl rfl rfl rfl,
          guarded_of_point (by simp) (by simp) (by simp) (by simp) hresult hg.closedReceiver⟩
      | false =>
        have hstored := h.write false hresult hd rfl hpacket (.inr rfl)
        exact ⟨hstored.congr rfl rfl rfl rfl rfl rfl rfl, guarded_finish (by simp)⟩
  · next hbytes =>
    split
    · next hpending =>
      have hne := hg.behindBytes (.inr hpoint) (Option.isSome_iff_ne_none.mp hpending)
      simp [hne] at hbytes
    · next hpending =>
      rw [Bool.not_eq_true, Option.isSome_eq_false_iff, Option.isNone_iff_eq_none] at hpending
      split
      · next hclosed =>
        refine ⟨h.finish hresult, guarded_finish fun _ => ⟨hpending, fun hlen => ?_⟩⟩
        have hcounted := hg.counted (.inr hpoint)
        rcases hg.drained hpoint hpending hclosed with hqueue | hbatch
        · exact hqueue
        · rw [maxIngressBatch] at hbatch
          omega
      · exact ⟨h.congr rfl rfl rfl rfl rfl rfl rfl,
          guarded_of_point (by simp) (by simp) (by simp) (by simp) hresult hg.closedReceiver⟩

/-- A packet sent is one more on its way, to a loop that is still going. -/
theorem sound_send
    (h : Stored maxBytes [] o) (hg : Guarded o) (hstep : o.step (.send packet) = some o') :
    Stored maxBytes [] o' ∧ Guarded o' := by
  simp only [step, Ingress.send] at hstep
  split at hstep
  · cases hstep
  · next hopen =>
    simp only [Option.map_some, Option.some.injEq] at hstep
    subst hstep
    simp only [Bool.or_eq_true, not_or, Bool.not_eq_true] at hopen
    have hclosed : o.closed = false := by
      rw [← Bool.not_eq_true]
      intro hc
      rw [hg.closedReceiver hc] at hopen
      simp at hopen
    have hgoing : o.result = none := by
      refine hg.running fun hreturned => ?_
      simp [Ingress.disconnected, hg.returned hreturned] at hopen
    refine ⟨⟨h.balanced, h.schedulerBudget, h.ownerBudget, ?_, ?_, ?_, h.succeeded,
      h.lastFailure⟩, ⟨?_, hg.running, hg.returned, hg.waits, hg.behindBytes, hg.counted, ?_, ?_⟩⟩
    · intro hne c
      have hc := h.conserved hne c
      simp only [List.nil_append, ofClass_append, stream_append] at hc ⊢
      simp only [written] at hc ⊢
      rw [← hc]
      simp only [List.append_assoc]
    · intro p hp
      simp only [List.nil_append, ← List.append_assoc] at hp
      rcases List.mem_append.mp hp with hp | hp
      · exact List.mem_append_left _ (h.held p (by simpa using hp))
      · exact List.mem_append_right _ hp
    · intro e he
      simp [hgoing] at he
    · intro hc
      simp [hclosed] at hc
    · intro _ _ hc
      simp [hclosed] at hc
    · intro hok
      simp [hgoing] at hok

/-- Every turn of the loop keeps the packets accounted for and the guards in
agreement. -/
theorem sound_turn {shutdownFired writeSucceeds : Bool} (h : Stored maxBytes [] o) (hg : Guarded o)
    (hstep : o.step (.turn shutdownFired writeSucceeds) = some o') :
    Stored maxBytes [] o' ∧ Guarded o' := by
  simp only [step, stepLoop] at hstep
  cases hpoint : o.point with rw [hpoint] at hstep
  | head =>
    cases hstep
    exact sound_stepHead h hg (hg.running (by simp [hpoint]))
  | waiting =>
    exact sound_stepWaiting h hg hpoint hstep
  | pending =>
    cases hstep
    exact sound_stepPending h hg (hg.running (by simp [hpoint]))
  | ingress =>
    cases hstep
    exact sound_stepIngress h hg hpoint
  | write =>
    cases hstep
    exact sound_stepWrite writeSucceeds h hg hpoint
  | returned =>
    cases hstep

/-- Every step of the loop and of its surroundings keeps the packets accounted
for and the guards in agreement. -/
theorem sound_step (o : Owner) (a : OwnerAction) (o' : Owner)
    (h : Stored maxBytes [] o ∧ Guarded o) (hstep : o.step a = some o') :
    Stored maxBytes [] o' ∧ Guarded o' := by
  obtain ⟨h, hg⟩ := h
  cases a with
  | send packet => exact sound_send h hg hstep
  | dropSenders =>
    cases hstep
    refine ⟨h.congr rfl rfl rfl rfl rfl rfl rfl, ⟨?_, hg.running, hg.returned, hg.waits,
      hg.behindBytes, hg.counted, hg.drained, hg.exit⟩⟩
    intro _
    simp [Ingress.disconnected]
  | requestShutdown =>
    cases hstep
    exact ⟨h.congr rfl rfl rfl rfl rfl rfl rfl, { __ := hg }⟩
  | turn shutdownFired writeSucceeds => exact sound_turn h hg hstep

/-- The step leaves the loop through its exit test. -/
def exits (o : Owner) : OwnerAction → Bool
  | .turn _ _ => o.point == .write && o.scheduler.isEmpty && o.pending.isNone && o.closed
  | _ => false

/-- Whenever the loop leaves, no zero-length packet is left in the scheduler. -/
def ExitsEmpty (o : Owner) (a : OwnerAction) : Prop := exits o a = true → o.scheduler.len = 0

/-- Placing a packet never returns `Ok`. -/
theorem admit_result (o : Owner) (packet : OutboundPacket) (hresult : o.result = none) :
    (o.stepAdmit packet).result ≠ some (.ok ()) := by
  simp only [Owner.stepAdmit]
  split <;> simp [hresult, Owner.finish]

/-- `Ok` is returned by the exit test only, which keeps the scheduler. -/
theorem stepLoop_ok {fired succeeds : Bool} (hresult : o.result = none)
    (hstep : o.stepLoop fired succeeds = some o') (hok : o'.result = some (.ok ())) :
    exits o (.turn fired succeeds) = true ∧ o'.scheduler = o.scheduler := by
  cases hpoint : o.point with
  | head =>
    simp only [stepLoop, hpoint, stepHead, Option.some.injEq] at hstep
    subst hstep
    split at hok
    · split at hok <;> simp [closeReceiver, hresult] at hok
    · simp [hresult] at hok
  | waiting =>
    simp only [stepLoop, hpoint, stepWaiting] at hstep
    split at hstep
    · split at hstep <;> cases hstep
      simp [closeReceiver, hresult] at hok
    · split at hstep <;> cases hstep <;> simp [hresult] at hok
  | pending =>
    simp only [stepLoop, hpoint, stepPending, Option.some.injEq] at hstep
    subst hstep
    split at hok
    · simp [hresult] at hok
    · exact absurd hok (admit_result _ _ hresult)
  | ingress =>
    simp only [stepLoop, hpoint, stepIngress, Option.some.injEq] at hstep
    subst hstep
    split at hok
    · split at hok
      · exact absurd hok (admit_result _ _ hresult)
      · simp [hresult] at hok
      · simp [hresult] at hok
    · simp [hresult] at hok
  | write =>
    simp only [stepLoop, hpoint, stepWrite, Option.some.injEq] at hstep
    subst hstep
    split at hok
    · split at hok
      · simp [hresult] at hok
      · split at hok <;> simp [hresult, Owner.finish] at hok
    · next hbytes =>
      split at hok
      · simp [Owner.finish] at hok
      · next hpending =>
        split at hok
        · next hclosed =>
          refine ⟨?_, ?_⟩
          · simp only [Bool.not_eq_true', Bool.not_eq_false] at hbytes
            simp only [Option.not_isSome_iff_eq_none] at hpending
            simp [exits, hpoint, hbytes, hpending, hclosed]
          · simp [hbytes, hpending, hclosed, Owner.finish]
        · simp [hresult] at hok
  | returned =>
    simp only [stepLoop, hpoint] at hstep
    cases hstep

/-- Leaving through the exit test returns `Ok` and keeps the scheduler. -/
theorem exits_step {a : OwnerAction} (hexit : exits o a = true) (hstep : o.step a = some o') :
    o'.result = some (.ok ()) ∧ o'.scheduler = o.scheduler ∧ o'.point = .returned := by
  cases a with
  | send packet | dropSenders | requestShutdown => cases hexit
  | turn fired succeeds =>
    simp only [exits, Bool.and_eq_true, beq_iff_eq, Option.isNone_iff_eq_none] at hexit
    obtain ⟨⟨⟨hpoint, hbytes⟩, hpending⟩, hclosed⟩ := hexit
    simp only [step, stepLoop, hpoint, stepWrite, hbytes, hpending, hclosed, Bool.not_true,
      Bool.false_eq_true, if_false, Option.isSome_none, if_true, Option.some.injEq] at hstep
    subst hstep
    exact ⟨rfl, rfl, rfl⟩

/-- A run that returned stays as it is. -/
theorem step_returned {a : OwnerAction} (hpoint : o.point = .returned)
    (hstep : o.step a = some o') :
    o'.point = .returned ∧ o'.result = o.result ∧ o'.scheduler = o.scheduler := by
  cases a with
  | send packet =>
    simp only [step, Option.map_eq_some_iff] at hstep
    obtain ⟨ch, -, rfl⟩ := hstep
    exact ⟨hpoint, rfl, rfl⟩
  | dropSenders | requestShutdown =>
    cases hstep
    exact ⟨hpoint, rfl, rfl⟩
  | turn fired succeeds =>
    simp only [step, stepLoop, hpoint] at hstep
    cases hstep

/-- If the run ends without packets in the scheduler behind an `Ok`, it left the
loop, if at all, without them. -/
theorem meets_of_ok {acts : List OwnerAction} {t : Owner} (hrun : run step o acts = some t)
    (hend : t.result = some (.ok ()) → t.scheduler.len = 0) : Meets step ExitsEmpty o acts := by
  induction acts generalizing o with
  | nil => trivial
  | cons a rest ih =>
    obtain ⟨o', hstep, hrest⟩ := run_cons_some.mp hrun
    refine ⟨fun hexit => ?_, ?_⟩
    · obtain ⟨hok, hscheduler, hpoint⟩ := exits_step hexit hstep
      have hstays : t.point = .returned ∧ t.result = o'.result ∧ t.scheduler = o'.scheduler := by
        refine run_invariant_of_step (fun u => u.point = .returned ∧
          u.result = o'.result ∧ u.scheduler = o'.scheduler) ?_ ⟨hpoint, rfl, rfl⟩ hrest
        rintro u b u' ⟨hp, hr, hs⟩ hu
        obtain ⟨hp', hr', hs'⟩ := step_returned hp hu
        exact ⟨hp', hr'.trans hr, hs'.trans hs⟩
      rw [← hscheduler, ← hstays.2.2]
      exact hend (hstays.2.1.trans hok)
    · rintro u hu
      rw [hstep] at hu
      cases hu
      exact ih hrest

/-- A run whose exits are empty returns `Ok` only with an empty scheduler. -/
theorem ok_of_meets {acts : List OwnerAction} {t : Owner} (hinit : Stored maxBytes [] o ∧ Guarded o)
    (hempty : o.result = some (.ok ()) → o.scheduler.len = 0)
    (hmeets : Meets step ExitsEmpty o acts) (hrun : run step o acts = some t) :
    t.result = some (.ok ()) → t.scheduler.len = 0 := by
  have hinv : (Stored maxBytes [] t ∧ Guarded t) ∧
      (t.result = some (.ok ()) → t.scheduler.len = 0) := by
    refine run_invariant (fun u => (Stored maxBytes [] u ∧ Guarded u) ∧
      (u.result = some (.ok ()) → u.scheduler.len = 0)) ?_ ⟨hinit, hempty⟩ hmeets hrun
    rintro u a u' ⟨hsound, hu⟩ hcond hstep
    refine ⟨sound_step u a u' hsound hstep, fun hok => ?_⟩
    by_cases hpoint : u.point = .returned
    · obtain ⟨-, hr, hs⟩ := step_returned hpoint hstep
      rw [hs]
      exact hu (hr ▸ hok)
    · have hresult := hsound.2.running hpoint
      cases a with
      | send packet =>
        simp only [step, Option.map_eq_some_iff] at hstep
        obtain ⟨ch, -, rfl⟩ := hstep
        exact hu hok
      | dropSenders | requestShutdown =>
        cases hstep
        exact hu hok
      | turn fired succeeds =>
        obtain ⟨hexit, hs⟩ := stepLoop_ok hresult hstep hok
        rw [hs]
        exact hcond hexit
  exact hinv.2

/-- The owner hands off exactly what it accepted on exactly the runs that never
leave the loop with a zero-length packet in the scheduler. -/
theorem handedOff_iff_exitsEmpty (maxBytes capacity : ℕ) (acts : List OwnerAction) (t : Owner)
    (hrun : run step (Owner.new maxBytes capacity) acts = some t) :
    HandedOff maxBytes t ↔ Meets step ExitsEmpty (Owner.new maxBytes capacity) acts := by
  have hinit : Stored maxBytes [] (Owner.new maxBytes capacity) ∧
      Guarded (Owner.new maxBytes capacity) :=
    ⟨stored_new maxBytes capacity, guarded_new maxBytes capacity⟩
  obtain ⟨h, hg⟩ := run_invariant_of_step _ sound_step hinit hrun
  constructor
  · intro hoff
    exact meets_of_ok hrun fun hok => (hoff.empty hok).2
  · intro hmeets
    have hlen := ok_of_meets hinit (by simp [Owner.new]) hmeets hrun
    refine ⟨?_, fun hok => ⟨(hg.exit hok).1, hlen hok⟩, h.lastFailure, h.invalid⟩
    intro hok c
    have hc := h.conserved (by simp [hok]) c
    obtain ⟨hpending, hqueue⟩ := hg.exit hok
    have hnone : t.scheduler.queues c = [] := queues_of_len (hlen hok) c
    rw [hnone, hpending, hqueue (hlen hok)] at hc
    simpa [ofClass] using hc

/-- One written packet, in a run that ends when the producers are gone. -/
theorem handedOff_iff_exitsEmpty_oneWrite :
    HandedOff 16 ((run step (Owner.new 16 4) ([.send ⟨.control, [7]⟩, .dropSenders] ++
        List.replicate 9 (.turn false true))).get (by decide +kernel)) ↔
      Meets step ExitsEmpty (Owner.new 16 4) ([.send ⟨.control, [7]⟩, .dropSenders] ++
        List.replicate 9 (.turn false true)) :=
  handedOff_iff_exitsEmpty 16 4 _ _ (Option.some_get _).symm

/-- A full batch of zero-length packets ahead of one byte, and a shutdown before
the owner's first turn: it returns `Ok` and the byte is still in the channel. -/
theorem not_handedOff_emptyBatch :
    ∃ t, run step (Owner.new 1024 128)
        (List.replicate 64 (.send ⟨.display, []⟩) ++ [.send ⟨.display, [7]⟩, .requestShutdown] ++
          List.replicate 68 (.turn false true)) = some t ∧
      t.result = some (.ok ()) ∧ t.receiver.queue = [⟨.display, [7]⟩] ∧ ¬ HandedOff 1024 t := by
  have hrun : (run step (Owner.new 1024 128)
      (List.replicate 64 (.send ⟨.display, []⟩) ++ [.send ⟨.display, [7]⟩, .requestShutdown] ++
        List.replicate 68 (.turn false true))).map
      (fun t => (t.result, t.receiver.queue, t.scheduler.len)) =
        some (some (.ok ()), [⟨.display, [7]⟩], 64) := by decide +kernel
  obtain ⟨t, ht, hvalues⟩ := Option.map_eq_some_iff.mp hrun
  simp only [Prod.mk.injEq] at hvalues
  obtain ⟨hok, hqueue, hlen⟩ := hvalues
  refine ⟨t, ht, hok, hqueue, fun hoff => ?_⟩
  have hempty := (hoff.empty hok).2
  omega

/-- In every run the scheduler keeps to its budget, and unless the run failed, what was accepted of
a class is written, queued, pending and still in the channel, in this order. -/
theorem conserved_in_flight {maxBytes capacity : ℕ} {acts : List OwnerAction} {t : Owner}
    (hrun : run step (Owner.new maxBytes capacity) acts = some t) :
    t.scheduler.queuedBytes ≤ maxBytes ∧ ((∀ e, t.result ≠ some (.error e)) → ∀ c,
      stream (ofClass c t.written) ++ (stream (t.scheduler.queues c) ++
        stream (ofClass c (t.pending.toList ++ t.receiver.queue))) =
          stream (ofClass c t.accepted)) := by
  obtain ⟨h, -⟩ := run_invariant_of_step _ sound_step
    ⟨stored_new maxBytes capacity, guarded_new maxBytes capacity⟩ hrun
  exact ⟨h.schedulerBudget ▸ h.balanced.withinBudget, h.conserved⟩

/-- A packet is sent while another one is queued. -/
theorem conserved_in_flight_twoPackets : ∃ t, run step (Owner.new 16 4)
    ([.send ⟨.control, [7]⟩] ++ List.replicate 4 (.turn false true) ++ [.send ⟨.control, [8]⟩]) =
      some t ∧ t.scheduler.queuedBytes ≤ 16 := by
  have hsome : (run step (Owner.new 16 4) ([.send ⟨.control, [7]⟩] ++
      List.replicate 4 (.turn false true) ++ [.send ⟨.control, [8]⟩])).isSome = true := by
    decide +kernel
  obtain ⟨t, ht⟩ := Option.isSome_iff_exists.mp hsome
  exact ⟨t, ht, (conserved_in_flight ht).1⟩

end Macrdp.OutboundHandoff
