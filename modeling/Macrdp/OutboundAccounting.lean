import Macrdp.StepSystem
import Macrdp.OutboundLedger

/-!
# No loss, no duplication and exact accounting in the scheduler

A ledger records the buffers the scheduler accepted and the packets it gave
up. After every sequence of pushes and pops the two agree, class by class, with
the buffers still queued, and the redundant byte and packet counters describe
the real queues.
-/

namespace Macrdp.OutboundAccounting

open OutboundScheduling OutboundScheduling.OutboundScheduler OutboundLedger StepSystem

/-- One call on the scheduler. -/
inductive SchedulerOp where
  | tryPush (packet : OutboundPacket)
  /-- `built` is what the framing closure returns when it is run. -/
  | tryPushAudio (upperBoundBytes : ℕ) (built : List UInt8)
  | popNext
  | popNextCoalesced
  deriving DecidableEq, Repr

/-- Whether the call selects a packet. -/
def SchedulerOp.isPop : SchedulerOp → Bool
  | .popNext | .popNextCoalesced => true
  | _ => false

/-- The scheduler next to what passed through it. -/
structure Ledger where
  /-- The live scheduler. -/
  scheduler : OutboundScheduler
  /-- Every accepted buffer, in acceptance order. -/
  accepted : List OutboundPacket
  /-- Every popped packet, in pop order. -/
  popped : List OutboundPacket

namespace Ledger

/-- Carry out one call and record what it accepted or gave up. -/
def apply (l : Ledger) : SchedulerOp → Ledger
  | .tryPush packet =>
    match l.scheduler.tryPush packet with
    | (s', .ok ()) => { l with scheduler := s', accepted := l.accepted ++ [packet] }
    | (s', .error _) => { l with scheduler := s' }
  | .tryPushAudio upperBoundBytes built =>
    match l.scheduler.tryPushAudio upperBoundBytes (fun _ => built) with
    | (s', .ok .enqueued) => { l with scheduler := s', accepted := l.accepted ++ [⟨.audio, built⟩] }
    | (s', _) => { l with scheduler := s' }
  | .popNext =>
    let next := l.scheduler.popNext
    { l with scheduler := next.1, popped := l.popped ++ next.2.toList }
  | .popNextCoalesced =>
    let next := l.scheduler.popNextCoalesced
    { l with scheduler := next.1, popped := l.popped ++ next.2.toList }

/-- The ledger of a new scheduler. -/
def new (maxBytes : ℕ) : Ledger := ⟨OutboundScheduler.new maxBytes, [], []⟩

/-- The ledger after a sequence of calls on a new scheduler. -/
def run (maxBytes : ℕ) (ops : List SchedulerOp) : Ledger := ops.foldl apply (new maxBytes)

end Ledger

/-- The buffers of one class, in order. -/
def ofClass (c : OutboundClass) (packets : List OutboundPacket) : List OutboundPacket :=
  packets.filter fun packet => packet.cls = c

@[simp] theorem ofClass_append (c : OutboundClass) (first second : List OutboundPacket) :
    ofClass c (first ++ second) = ofClass c first ++ ofClass c second := by
  simp only [ofClass, List.filter_append]

variable {c : OutboundClass} {packet : OutboundPacket}

/-- A packet of the class is kept by the class filter. -/
theorem ofClass_self (h : packet.cls = c) : ofClass c [packet] = [packet] := by
  simp [ofClass, h]

/-- A packet of another class is dropped by the class filter. -/
theorem ofClass_other (h : packet.cls ≠ c) : ofClass c [packet] = [] := by
  simp [ofClass, h]

/-- Moving an amount out of one class moves it out of the sum of all. -/
theorem sum_all_shift {f g : OutboundClass → ℕ} {amount : ℕ}
    (hc : f c = amount + g c) (hd : ∀ d, d ≠ c → g d = f d) :
    (OutboundClass.all.map f).sum = amount + (OutboundClass.all.map g).sum := by
  have hcontrol := hd .control
  have haudio := hd .audio
  have hclipboard := hd .clipboard
  have hegfx := hd .egfx
  have hdisplay := hd .display
  have hbulk := hd .bulk
  simp only [OutboundClass.all, List.map_cons, List.map_nil, List.sum_cons, List.sum_nil]
  cases c <;> simp only [ne_eq, reduceCtorEq, not_false_eq_true, forall_const, not_true_eq_false,
    false_implies] at hcontrol haudio hclipboard hegfx hdisplay hbulk <;> omega

variable {s s' : OutboundScheduler}

/-- A scheduler without packets has empty queues. -/
theorem queues_of_len (h : s.len = 0) (c : OutboundClass) : s.queues c = [] := by
  simp only [len, OutboundClass.all, List.map_cons, List.map_nil, List.sum_cons, List.sum_nil] at h
  rw [← List.length_eq_zero_iff]
  cases c <;> omega

/-- The redundant byte counters describe the real queues. -/
structure Balanced (s : OutboundScheduler) : Prop where
  /-- A class queue holds buffers of that class only. -/
  classified : ∀ c, ∀ packet ∈ s.queues c, packet.cls = c
  /-- The class counter is the length of the class queue in bytes. -/
  classBytes : ∀ c, s.classBytes c = totalBytes (s.queues c)
  /-- The total is the sum of the class counters. -/
  queuedBytes : s.queuedBytes = (OutboundClass.all.map s.classBytes).sum
  /-- The byte budget is respected. -/
  withinBudget : s.queuedBytes ≤ s.maxBytes

/-- A new scheduler is balanced. -/
theorem balanced_new (maxBytes : ℕ) : Balanced (OutboundScheduler.new maxBytes) where
  classified c packet h := by simp [OutboundScheduler.new] at h
  classBytes _ := rfl
  queuedBytes := rfl
  withinBudget := Nat.zero_le _

variable {bufs : List OutboundPacket}

/-- Draining whole buffers keeps every counter in step with its queue. -/
theorem Balanced.drains (h : Balanced s) (hd : Drains s s' c bufs) : Balanced s' := by
  have hclass : s.classBytes c = totalBytes bufs + s'.classBytes c := by
    rw [hd.classBytes, h.classBytes c, hd.queue, totalBytes_append]
    omega
  have hsum := sum_all_shift hclass hd.otherBytes
  refine ⟨?_, ?_, ?_, ?_⟩
  · intro d packet hp
    by_cases hdc : d = c
    · subst hdc
      exact h.classified d packet (by rw [hd.queue]; exact List.mem_append_right _ hp)
    · rw [hd.otherQueue d hdc] at hp
      exact h.classified d packet hp
  · intro d
    by_cases hdc : d = c
    · subst hdc
      rw [hd.classBytes, h.classBytes d, hd.queue, totalBytes_append, Nat.add_sub_cancel_left]
    · rw [hd.otherBytes d hdc, hd.otherQueue d hdc, h.classBytes d]
  · rw [hd.queuedBytes, h.queuedBytes, hsum, Nat.add_sub_cancel_left]
  · rw [hd.queuedBytes, hd.maxBytes]
    exact Nat.le_trans (Nat.sub_le _ _) h.withinBudget

/-- What one push can do: accept the buffer at the back of its class, within
the budget, or return that very buffer and count the rejection. -/
theorem tryPush_cases (s : OutboundScheduler) (packet : OutboundPacket) :
    (packet.len ≤ s.maxBytes - s.queuedBytes ∧
      s.tryPush packet =
        ({ s with
            enqueuedPackets := saturatingAdd s.enqueuedPackets 1
            queuedBytes := s.queuedBytes + packet.len
            classBytes := Function.update s.classBytes packet.cls
              (s.classBytes packet.cls + packet.len)
            queues := Function.update s.queues packet.cls (s.queues packet.cls ++ [packet]) },
          .ok ())) ∨
    (s.maxBytes - s.queuedBytes < packet.len ∧
      s.tryPush packet =
        ({ s with rejectedPackets := saturatingAdd s.rejectedPackets 1 },
          .error (.queueFull packet))) := by
  by_cases h : packet.len ≤ s.maxBytes - s.queuedBytes
  · left
    simp [tryPush, hasCapacityFor, h]
  · right
    simp [tryPush, hasCapacityFor, h, Nat.lt_of_not_le h]

/-- What one audio admission can do: drop the wave unframed and touch only the
drop counters, or push the framed wave. -/
theorem tryPushAudio_cases (s : OutboundScheduler) (upperBoundBytes : ℕ)
    (build : Unit → List UInt8) :
    s.tryPushAudio upperBoundBytes build =
        (s.recordAudioDrop upperBoundBytes, .ok (.droppedBeforeFraming upperBoundBytes)) ∨
    (∃ s', s.tryPush ⟨.audio, build ()⟩ = (s', .ok ()) ∧
      s.tryPushAudio upperBoundBytes build = (s', .ok .enqueued)) ∨
    (∃ s' e, s.tryPush ⟨.audio, build ()⟩ = (s', .error e) ∧
      s.tryPushAudio upperBoundBytes build = (s', .error e)) := by
  by_cases h : s.hasCapacityFor upperBoundBytes = false
  · left
    simp only [tryPushAudio, h, if_true]
  · right
    rcases hpush : s.tryPush ⟨.audio, build ()⟩ with ⟨s', e | ⟨⟩⟩
    · right
      exact ⟨s', e, rfl, by simp only [tryPushAudio, if_neg h, hpush]⟩
    · left
      exact ⟨s', rfl, by simp only [tryPushAudio, if_neg h, hpush]⟩

/-- Accepting a buffer within the budget keeps the counters in step. -/
theorem Balanced.push (h : Balanced s) (hpush : s.tryPush packet = (s', .ok ())) : Balanced s' := by
  rcases tryPush_cases s packet with ⟨hfits, he⟩ | ⟨-, he⟩
  · rw [he] at hpush
    cases hpush
    have hbudget := h.withinBudget
    refine ⟨?_, ?_, ?_, ?_⟩
    · intro c p hp
      by_cases hc : c = packet.cls
      · subst hc
        simp only [Function.update_self, List.mem_append, List.mem_singleton] at hp
        rcases hp with hp | rfl
        · exact h.classified _ p hp
        · rfl
      · simp only [Function.update_of_ne hc] at hp
        exact h.classified c p hp
    · intro c
      by_cases hc : c = packet.cls
      · subst hc
        simp only [Function.update_self, totalBytes_append, totalBytes_cons, totalBytes_nil,
          Nat.add_zero, h.classBytes]
      · simp only [Function.update_of_ne hc, h.classBytes]
    · have hsum : (OutboundClass.all.map (Function.update s.classBytes packet.cls
          (s.classBytes packet.cls + packet.len))).sum =
          packet.len + (OutboundClass.all.map s.classBytes).sum :=
        sum_all_shift (c := packet.cls) (by rw [Function.update_self, Nat.add_comm])
          (fun d hd => (Function.update_of_ne hd _ _).symm)
      show s.queuedBytes + packet.len = _
      rw [hsum, h.queuedBytes, Nat.add_comm]
    · simp only
      omega
  · rw [he] at hpush
    cases hpush

/-- An accepted buffer is one more packet. -/
theorem tryPush_len (hpush : s.tryPush packet = (s', .ok ())) : s'.len = s.len + 1 := by
  rcases tryPush_cases s packet with ⟨-, he⟩ | ⟨-, he⟩
  · rw [he] at hpush
    cases hpush
    have hsum : (OutboundClass.all.map fun c => (Function.update s.queues packet.cls
        (s.queues packet.cls ++ [packet]) c).length).sum =
        1 + (OutboundClass.all.map fun c => (s.queues c).length).sum :=
      sum_all_shift (c := packet.cls)
        (by simp only [Function.update_self, List.length_append, List.length_singleton,
          Nat.add_comm])
        (fun d hd => by simp only [Function.update_of_ne hd])
    simp only [len, hsum]
    omega
  · rw [he] at hpush
    cases hpush

/-- An accepted buffer extends the stream of its class and no other. -/
theorem tryPush_stream (hpush : s.tryPush packet = (s', .ok ())) (c : OutboundClass) :
    stream (s'.queues c) = stream (s.queues c) ++ stream (ofClass c [packet]) := by
  rcases tryPush_cases s packet with ⟨-, he⟩ | ⟨-, he⟩
  · rw [he] at hpush
    cases hpush
    by_cases hc : c = packet.cls
    · subst hc
      simp only [Function.update_self, stream_append, ofClass_self rfl]
    · simp only [Function.update_of_ne hc, ofClass_other (Ne.symm hc), stream_nil,
        List.append_nil]
  · rw [he] at hpush
    cases hpush

/-- A drained packet leaves the front of the stream of its class. -/
theorem stream_drains (hd : Drains s s' c bufs)
    (hcls : packet.cls = c) (hbytes : packet.bytes = stream bufs) (d : OutboundClass) :
    stream (s.queues d) = stream (ofClass d [packet]) ++ stream (s'.queues d) := by
  by_cases hdc : d = c
  · subst hdc
    rw [ofClass_self hcls, hd.queue, stream_append, stream_cons, stream_nil, List.append_nil,
      hbytes]
  · have hne : packet.cls ≠ d := fun he => hdc (he.symm.trans hcls)
    rw [ofClass_other hne, hd.otherQueue d hdc, stream_nil, List.nil_append]

/-- The ledger is exact: nothing accepted is lost, duplicated or reordered
within its class, and the saturating counters count real packets and bytes. -/
structure Exact (maxBytes : ℕ) (l : Ledger) : Prop where
  /-- The byte counters describe the queues. -/
  balanced : Balanced l.scheduler
  /-- The budget is the one the scheduler was created with. -/
  maxBytes : l.scheduler.maxBytes = maxBytes
  /-- Popped and queued bytes of a class are its accepted bytes, in order. -/
  conserved : ∀ c, stream (ofClass c l.popped) ++ stream (l.scheduler.queues c) =
    stream (ofClass c l.accepted)
  /-- Acceptances are counted. -/
  enqueued : l.scheduler.enqueuedPackets.toNat = min l.accepted.length u64Max
  /-- Every accepted packet that is not queued is counted as sent. -/
  sent : ∃ n, n + l.scheduler.len = l.accepted.length ∧
    l.scheduler.sentPackets.toNat = min n u64Max
  /-- Popped bytes are counted. -/
  sentBytes : l.scheduler.sentBytes.toNat = min (totalBytes l.popped) u64Max

/-- The ledger of a new scheduler is exact. -/
theorem exact_new (maxBytes : ℕ) : Exact maxBytes (Ledger.new maxBytes) where
  balanced := balanced_new maxBytes
  maxBytes := rfl
  conserved _ := rfl
  enqueued := rfl
  sent := ⟨0, rfl, rfl⟩
  sentBytes := rfl

variable {maxBytes : ℕ} {l : Ledger}

/-- An exact ledger stays exact when a push is accepted. -/
theorem Exact.accept (h : Exact maxBytes l) (hpush : l.scheduler.tryPush packet = (s', .ok ())) :
    Exact maxBytes { l with scheduler := s', accepted := l.accepted ++ [packet] } := by
  have hbalanced := h.balanced.push hpush
  have hstream := tryPush_stream hpush
  have hlen := tryPush_len hpush
  rcases tryPush_cases l.scheduler packet with ⟨-, he⟩ | ⟨-, he⟩
  · rw [he] at hpush
    cases hpush
    refine ⟨hbalanced, h.maxBytes, ?_, ?_, ?_, h.sentBytes⟩
    · intro c
      rw [hstream c, ofClass_append, stream_append, ← h.conserved, List.append_assoc]
    · rw [saturatingAdd_toNat, h.enqueued, List.length_append, List.length_singleton]
      omega
    · obtain ⟨n, hn, hsent⟩ := h.sent
      refine ⟨n, ?_, hsent⟩
      rw [List.length_append, List.length_singleton, hlen]
      omega
  · rw [he] at hpush
    cases hpush

/-- An exact ledger stays exact when a push is rejected. -/
theorem Exact.reject {e : EnqueueError} (h : Exact maxBytes l)
    (hpush : l.scheduler.tryPush packet = (s', .error e)) :
    Exact maxBytes { l with scheduler := s' } := by
  rcases tryPush_cases l.scheduler packet with ⟨-, he⟩ | ⟨-, he⟩
  · rw [he] at hpush
    cases hpush
  · rw [he] at hpush
    cases hpush
    exact ⟨⟨h.balanced.classified, h.balanced.classBytes, h.balanced.queuedBytes,
      h.balanced.withinBudget⟩, h.maxBytes, h.conserved, h.enqueued, h.sent, h.sentBytes⟩

/-- An exact ledger stays exact when a run of buffers leaves as one packet. -/
theorem Exact.pop (h : Exact maxBytes l) (hd : Drains l.scheduler s' c bufs) (hcls : packet.cls = c)
    (hbytes : packet.bytes = stream bufs) :
    Exact maxBytes { l with scheduler := s', popped := l.popped ++ [packet] } := by
  have hlen : packet.len = totalBytes bufs := by
    rw [OutboundPacket.len, hbytes, length_stream]
  refine ⟨h.balanced.drains hd, hd.maxBytes.trans h.maxBytes, ?_, ?_, ?_, ?_⟩
  · intro d
    rw [ofClass_append, stream_append, List.append_assoc, ← stream_drains hd hcls hbytes,
      h.conserved]
  · rw [hd.enqueuedPackets, h.enqueued]
  · obtain ⟨n, hn, hsent⟩ := h.sent
    refine ⟨n + bufs.length, ?_, ?_⟩
    · have hsum : (OutboundClass.all.map fun d => (l.scheduler.queues d).length).sum =
          bufs.length + (OutboundClass.all.map fun d => (s'.queues d).length).sum :=
        sum_all_shift (c := c) (by simp only [hd.queue, List.length_append])
          (fun d hdc => by simp only [hd.otherQueue d hdc])
      simp only [len, hsum] at hn ⊢
      omega
    · rw [hd.sentPackets, saturatingAdd_toNat, hsent]
      omega
  · rw [hd.sentBytes, saturatingAdd_toNat, h.sentBytes, totalBytes_append, totalBytes_cons,
      totalBytes_nil, hlen]
    omega

/-- An exact ledger stays exact when only the cursor and the budget move. -/
theorem Exact.idle (h : Exact maxBytes l) (hs : s' = { l.scheduler with
      dataCursor := s'.dataCursor, urgentRemaining := s'.urgentRemaining }) :
    Exact maxBytes { l with scheduler := s' } := by
  rw [hs]
  exact ⟨⟨h.balanced.classified, h.balanced.classBytes, h.balanced.queuedBytes,
    h.balanced.withinBudget⟩, h.maxBytes, h.conserved, h.enqueued, h.sent, h.sentBytes⟩

/-- A selected packet belongs to the class it was drained from. -/
theorem Balanced.cls_of_drains (h : Balanced s)
    (hd : Drains s s' c (packet :: bufs)) : packet.cls = c :=
  h.classified c packet (by rw [hd.queue]; exact List.mem_append_left _ List.mem_cons_self)

/-- A selection drains its packet or leaves everything but the cursor and the
budget alone. -/
theorem popNext_drains (h : Balanced s) :
    (∃ s' packet, s.popNext = (s', some packet) ∧ Drains s s' packet.cls [packet]) ∨
    (∃ s', s.popNext = (s', none) ∧ (∀ c, s.queues c = []) ∧
      s' = { s with dataCursor := s'.dataCursor, urgentRemaining := s'.urgentRemaining }) := by
  rcases popNext_cases s with ⟨s', packet, c, hpop, -, -, hd, -⟩ |
    ⟨s', packet, c, hpop, -, -, hd, -⟩ | ⟨s', hpop, hempty, hs⟩
  · rw [← h.cls_of_drains hd] at hd
    exact .inl ⟨s', packet, hpop, hd⟩
  · rw [← h.cls_of_drains hd] at hd
    exact .inl ⟨s', packet, hpop, hd⟩
  · refine .inr ⟨s', hpop, hempty, ?_⟩
    have hbudget : s'.urgentRemaining = maxUrgentBurst := by rw [hs]
    rw [hbudget]
    exact hs

/-- A coalesced pop comes back empty-handed only from an empty scheduler. -/
theorem popNextCoalesced_none (hb : Balanced s) (h : s.popNextCoalesced = (s', none)) :
    (∀ c, s.queues c = []) ∧
      s' = { s with dataCursor := s'.dataCursor, urgentRemaining := s'.urgentRemaining } := by
  rcases popNext_drains hb with ⟨t, packet, hnext, -⟩ | ⟨t, hnext, hempty, hs⟩
  · simp only [popNextCoalesced, hnext] at h
    cases h
  · simp only [popNextCoalesced, hnext] at h
    cases h
    exact ⟨hempty, hs⟩

/-- With no packet queued no byte is queued. -/
theorem Balanced.isEmpty_of_queues (h : Balanced s)
    (hempty : ∀ c, s.queues c = []) : s.isEmpty = true := by
  simp only [isEmpty, beq_iff_eq, h.queuedBytes, OutboundClass.all, List.map_cons, List.map_nil,
    List.sum_cons, List.sum_nil, h.classBytes, hempty, totalBytes_nil, Nat.add_zero]

/-- Every call keeps the ledger exact. -/
theorem exact_apply (l : Ledger) (op : SchedulerOp) (h : Exact maxBytes l) :
    Exact maxBytes (l.apply op) := by
  cases op with simp only [Ledger.apply]
  | tryPush packet =>
    split
    · next s' hpush => exact h.accept hpush
    · next s' e hpush => exact h.reject hpush
  | tryPushAudio upperBoundBytes built =>
    rcases tryPushAudio_cases l.scheduler upperBoundBytes (fun _ => built) with
      he | ⟨s', hpush, he⟩ | ⟨s', e, hpush, he⟩
    · rw [he]
      exact ⟨⟨h.balanced.classified, h.balanced.classBytes, h.balanced.queuedBytes,
        h.balanced.withinBudget⟩, h.maxBytes, h.conserved, h.enqueued, h.sent, h.sentBytes⟩
    · rw [he]
      exact h.accept hpush
    · rw [he]
      exact h.reject hpush
  | popNext =>
    rcases popNext_drains h.balanced with ⟨s', packet, hpop, hd⟩ | ⟨s', hpop, -, hs⟩
    · rw [hpop]
      exact h.pop hd rfl (by simp)
    · rw [hpop]
      simpa using h.idle hs
  | popNextCoalesced =>
    rcases hpop : l.scheduler.popNextCoalesced with ⟨s', _ | merged⟩
    · simpa using h.idle (popNextCoalesced_none h.balanced hpop).2
    · obtain ⟨t, packet, bufs, -, hcls, hd, hbytes, -, -⟩ :=
        popNextCoalesced_some h.balanced.classified hpop
      exact h.pop hd rfl hbytes

/-- Every reachable ledger is exact. -/
theorem exact_run (maxBytes : ℕ) (ops : List SchedulerOp) :
    Exact maxBytes (Ledger.run maxBytes ops) :=
  foldl_invariant _ (fun l op h => exact_apply l op h) (exact_new maxBytes) ops

/-- No loss, no duplication, per-class FIFO and exact accounting, after every
sequence of calls on a new scheduler. -/
theorem scheduler_conserves (maxBytes : ℕ) (ops : List SchedulerOp) :
    let l := Ledger.run maxBytes ops
    let s := l.scheduler
    (∀ c, stream (ofClass c l.popped) ++ stream (s.queues c) = stream (ofClass c l.accepted)) ∧
    (s.queuedBytes = (OutboundClass.all.map s.classBytes).sum ∧
      (∀ c, s.classBytes c = totalBytes (s.queues c)) ∧ s.queuedBytes ≤ maxBytes) ∧
    ((s.enqueuedPackets.toNat < u64Max →
        s.enqueuedPackets.toNat = s.sentPackets.toNat + s.len) ∧
      (s.sentBytes.toNat < u64Max → s.sentBytes.toNat = totalBytes l.popped)) ∧
    (∀ packet s' e, s.tryPush packet = (s', .error e) →
      e = .queueFull packet ∧ s'.queues = s.queues ∧ s'.classBytes = s.classBytes ∧
        s'.queuedBytes = s.queuedBytes) ∧
    (∀ s' merged, s.popNextCoalesced = (s', some merged) →
      ∃ first bufs, s.queues merged.cls = (first :: bufs) ++ s'.queues merged.cls ∧
        (∀ packet ∈ first :: bufs, packet.cls = merged.cls) ∧
        merged.bytes = stream (first :: bufs) ∧
        (maxCoalescedBytes < merged.len → maxCoalescedBytes < first.len ∧ bufs = [])) := by
  intro l s
  have h := exact_run maxBytes ops
  have hb := h.balanced
  refine ⟨h.conserved, ⟨hb.queuedBytes, hb.classBytes, ?_⟩, ⟨?_, ?_⟩, ?_, ?_⟩
  · exact h.maxBytes ▸ hb.withinBudget
  · intro hlt
    obtain ⟨n, hn, hsent⟩ := h.sent
    have henq := h.enqueued
    have hn' : n + s.len = l.accepted.length := hn
    have hsent' : s.sentPackets.toNat = min n u64Max := hsent
    have henq' : s.enqueuedPackets.toNat = min l.accepted.length u64Max := henq
    omega
  · intro hlt
    have hbytes : s.sentBytes.toNat = min (totalBytes l.popped) u64Max := h.sentBytes
    omega
  · intro packet s' e hpush
    rcases tryPush_cases s packet with ⟨-, he⟩ | ⟨-, he⟩
    · rw [he] at hpush
      cases hpush
    · rw [he] at hpush
      cases hpush
      exact ⟨rfl, rfl, rfl, rfl⟩
  · intro s' merged hpop
    obtain ⟨t, packet, bufs, -, -, hd, hbytes, hlong, -⟩ :=
      popNextCoalesced_some hb.classified hpop
    refine ⟨packet, bufs, hd.queue, ?_, hbytes, ?_⟩
    · intro p hp
      exact hb.classified _ p (by
        have hq : s.queues merged.cls = (packet :: bufs) ++ s'.queues merged.cls := hd.queue
        rw [hq]
        exact List.mem_append_left _ hp)
    · intro hover
      have hnone := hlong hover
      subst hnone
      refine ⟨?_, rfl⟩
      have hsame : merged.len = packet.len := by
        simp only [OutboundPacket.len, hbytes, stream_cons, stream_nil, List.append_nil]
      omega

end Macrdp.OutboundAccounting
