import Macrdp.OutboundScheduling

/-!
# What the outbound scheduler does to its buffers

Every pop removes a run of whole buffers from the front of one class and
accounts for it; `Drains` states this once for all of them. A ledger runs the
scheduler next to the buffers it accepted and the packets it gave up, so that
loss, duplication, reordering and drifting counters are statements about it.
-/

namespace Macrdp.OutboundLedger

open OutboundScheduling OutboundScheduling.OutboundScheduler

/-- Total bytes of a list of buffers. -/
def totalBytes (packets : List OutboundPacket) : ℕ := (packets.map OutboundPacket.len).sum

/-- The buffers joined into one byte stream. -/
def stream (packets : List OutboundPacket) : List UInt8 := packets.flatMap OutboundPacket.bytes

@[simp] theorem totalBytes_nil : totalBytes [] = 0 := rfl

@[simp] theorem totalBytes_cons (packet : OutboundPacket) (rest : List OutboundPacket) :
    totalBytes (packet :: rest) = packet.len + totalBytes rest := rfl

@[simp] theorem totalBytes_append (first second : List OutboundPacket) :
    totalBytes (first ++ second) = totalBytes first + totalBytes second := by
  simp only [totalBytes, List.map_append, List.sum_append]

@[simp] theorem stream_nil : stream [] = [] := rfl

@[simp] theorem stream_cons (packet : OutboundPacket) (rest : List OutboundPacket) :
    stream (packet :: rest) = packet.bytes ++ stream rest := rfl

@[simp] theorem stream_append (first second : List OutboundPacket) :
    stream (first ++ second) = stream first ++ stream second := by
  simp only [stream, List.flatMap_append]

/-- The stream of buffers is as long as their total. -/
theorem length_stream (packets : List OutboundPacket) :
    (stream packets).length = totalBytes packets := by
  induction packets with
  | nil => rfl
  | cons packet rest ih =>
    simp only [stream_cons, List.length_append, ih, totalBytes_cons, OutboundPacket.len]

/-- The value of a saturating sum. -/
theorem saturatingAdd_toNat (a : UInt64) (b : ℕ) :
    (saturatingAdd a b).toNat = min (a.toNat + b) u64Max := by
  rw [saturatingAdd, UInt64.toNat_ofNat_of_lt']
  simp only [u64Max, UInt64.size]
  omega

/-- Adding nothing leaves a counter alone. -/
theorem saturatingAdd_zero (a : UInt64) : saturatingAdd a 0 = a := by
  have ha := a.toNat_lt
  apply UInt64.toNat.inj
  rw [saturatingAdd_toNat, u64Max]
  omega

/-- Saturating additions combine into one. -/
theorem saturatingAdd_assoc (a : UInt64) (b c : ℕ) :
    saturatingAdd (saturatingAdd a b) c = saturatingAdd a (b + c) := by
  apply UInt64.toNat.inj
  simp only [saturatingAdd_toNat]
  omega

/-- `s'` is `s` after the buffers `bufs` left the front of class `c`; the
round-robin cursor and the burst budget are not constrained. -/
structure Drains (s s' : OutboundScheduler) (c : OutboundClass)
    (bufs : List OutboundPacket) : Prop where
  /-- The buffers were the oldest of their class. -/
  queue : s.queues c = bufs ++ s'.queues c
  /-- Other classes keep their buffers. -/
  otherQueue : ∀ d, d ≠ c → s'.queues d = s.queues d
  /-- The class gives up the bytes of the buffers. -/
  classBytes : s'.classBytes c = s.classBytes c - totalBytes bufs
  /-- Other classes keep their byte counts. -/
  otherBytes : ∀ d, d ≠ c → s'.classBytes d = s.classBytes d
  /-- The total gives up the same bytes. -/
  queuedBytes : s'.queuedBytes = s.queuedBytes - totalBytes bufs
  /-- The budget is fixed. -/
  maxBytes : s'.maxBytes = s.maxBytes
  /-- Nothing is accepted by a pop. -/
  enqueuedPackets : s'.enqueuedPackets = s.enqueuedPackets
  /-- Each buffer counts as one sent packet. -/
  sentPackets : s'.sentPackets = saturatingAdd s.sentPackets bufs.length
  /-- Each byte counts as one sent byte. -/
  sentBytes : s'.sentBytes = saturatingAdd s.sentBytes (totalBytes bufs)

/-- Nothing leaves an unchanged scheduler. -/
theorem Drains.refl (s : OutboundScheduler) (c : OutboundClass) : Drains s s c [] where
  queue := rfl
  otherQueue _ _ := rfl
  classBytes := rfl
  otherBytes _ _ := rfl
  queuedBytes := rfl
  maxBytes := rfl
  enqueuedPackets := rfl
  sentPackets := (saturatingAdd_zero _).symm
  sentBytes := (saturatingAdd_zero _).symm

variable {s s' : OutboundScheduler} {c : OutboundClass}

/-- Two runs of buffers leaving one class are one longer run. -/
theorem Drains.trans {s'' : OutboundScheduler}
    {first second : List OutboundPacket} (h : Drains s s' c first) (h' : Drains s' s'' c second) :
    Drains s s'' c (first ++ second) where
  queue := by rw [h.queue, h'.queue, List.append_assoc]
  otherQueue d hd := (h'.otherQueue d hd).trans (h.otherQueue d hd)
  classBytes := by rw [h'.classBytes, h.classBytes, totalBytes_append, Nat.sub_sub]
  otherBytes d hd := (h'.otherBytes d hd).trans (h.otherBytes d hd)
  queuedBytes := by rw [h'.queuedBytes, h.queuedBytes, totalBytes_append, Nat.sub_sub]
  maxBytes := h'.maxBytes.trans h.maxBytes
  enqueuedPackets := h'.enqueuedPackets.trans h.enqueuedPackets
  sentPackets := by
    rw [h'.sentPackets, h.sentPackets, saturatingAdd_assoc, List.length_append]
  sentBytes := by rw [h'.sentBytes, h.sentBytes, saturatingAdd_assoc, totalBytes_append]

variable {packet : OutboundPacket}

/-- Popping one class drains its oldest buffer and leaves the cursor and the
burst budget alone. -/
theorem popClass_drains (h : s.popClass c = (s', some packet)) :
    Drains s s' c [packet] ∧ s'.dataCursor = s.dataCursor ∧
      s'.urgentRemaining = s.urgentRemaining := by
  cases hq : s.queues c with
  | nil =>
    rw [popClass_nil hq] at h
    cases h
  | cons head rest =>
    rw [popClass_cons hq] at h
    cases h
    refine ⟨⟨?_, ?_, ?_, ?_, ?_, rfl, rfl, rfl, ?_⟩, rfl, rfl⟩
    · simp only [Function.update_self, hq, List.cons_append, List.nil_append]
    · intro d hd
      simp only [Function.update_of_ne hd]
    · simp only [Function.update_self, totalBytes_cons, totalBytes_nil, Nat.add_zero]
    · intro d hd
      simp only [Function.update_of_ne hd]
    · simp only [totalBytes_cons, totalBytes_nil, Nat.add_zero]
    · simp only [totalBytes_cons, totalBytes_nil, Nat.add_zero]

/-- Popping a class yields nothing exactly when the class is empty, and then
changes nothing. -/
theorem popClass_none (h : s.popClass c = (s', none)) : s' = s ∧ s.queues c = [] := by
  cases hq : s.queues c with
  | nil =>
    rw [popClass_nil hq] at h
    cases h
    exact ⟨rfl, rfl⟩
  | cons head rest =>
    rw [popClass_cons hq] at h
    cases h

/-- Draining is insensitive to the cursor and the budget of the old state. -/
theorem Drains.of_eq_queues {t : OutboundScheduler}
    {bufs : List OutboundPacket} (h : Drains t s' c bufs)
    (ht : t = { s with dataCursor := t.dataCursor, urgentRemaining := t.urgentRemaining }) :
    Drains s s' c bufs := by
  rw [ht] at h
  exact { __ := h }

/-- Draining is insensitive to the budget written in the new state. -/
theorem Drains.withUrgent {bufs : List OutboundPacket} (h : Drains s s' c bufs) (budget : UInt64) :
    Drains s { s' with urgentRemaining := budget } c bufs :=
  { __ := h }

/-- Slots are counted around the ring. -/
theorem ofNat_add_ofNat (a b : ℕ) : Fin.ofNat 8 a + Fin.ofNat 8 b = Fin.ofNat 8 (a + b) := by
  apply Fin.ext
  simp only [Fin.val_add, Fin.ofNat]
  omega

/-- Counting slots on from the next slot. -/
theorem add_one_add_ofNat (cursor : Fin 8) (i : ℕ) :
    cursor + 1 + Fin.ofNat 8 i = cursor + Fin.ofNat 8 (i + 1) := by
  apply Fin.ext
  simp only [Fin.val_add, Fin.ofNat, Fin.val_one]
  omega

variable {turns : ℕ}

/-- A round-robin turn that finds a buffer passed over empty slots, drained the
class of the next one and left the cursor behind it. -/
theorem popDataLoop_slot (h : popDataLoop turns s = (s', some packet)) :
    ∃ passed, (∀ i < passed,
        s.queues (OutboundClass.dataSlot (s.dataCursor + Fin.ofNat 8 i)) = []) ∧
      Drains s s' (OutboundClass.dataSlot (s.dataCursor + Fin.ofNat 8 passed)) [packet] ∧
      s'.dataCursor = s.dataCursor + Fin.ofNat 8 (passed + 1) ∧
      s'.urgentRemaining = s.urgentRemaining := by
  induction turns generalizing s with
  | zero => cases h
  | succ turns ih =>
    simp only [popDataLoop] at h
    split at h
    · next t found hpop =>
      cases h
      obtain ⟨hd, hcursor, hu⟩ := popClass_drains hpop
      refine ⟨0, fun i hi => absurd hi (Nat.not_lt_zero i), ?_, hcursor, hu⟩
      have hslot : s.dataCursor + Fin.ofNat 8 0 = s.dataCursor := Fin.add_zero _
      rw [hslot]
      exact hd.of_eq_queues rfl
    · next t hpop =>
      obtain ⟨rfl, hempty⟩ := popClass_none hpop
      obtain ⟨passed, hpassed, hd, hcursor, hu⟩ := ih h
      simp only [add_one_add_ofNat] at hpassed hd hcursor
      refine ⟨passed + 1, ?_, hd.of_eq_queues rfl, hcursor, hu⟩
      intro i hi
      cases i with
      | zero => simpa using hempty
      | succ i => exact hpassed i (by omega)

/-- A round-robin turn that finds a buffer drains it from a data class and
leaves the burst budget alone. -/
theorem popDataLoop_some (h : popDataLoop turns s = (s', some packet)) :
    (∃ c, c.isUrgent = false ∧ Drains s s' c [packet]) ∧
      s'.urgentRemaining = s.urgentRemaining := by
  obtain ⟨passed, -, hd, -, hu⟩ := popDataLoop_slot h
  exact ⟨⟨_, dataSlot_isUrgent _, hd⟩, hu⟩

/-- A round-robin turn that finds nothing moved the cursor past every slot it visited. -/
theorem popDataLoop_none_cursor (h : popDataLoop turns s = (s', none)) :
    s'.dataCursor = s.dataCursor + Fin.ofNat 8 turns := by
  induction turns generalizing s with
  | zero =>
    cases h
    exact (Fin.add_zero _).symm
  | succ turns ih =>
    simp only [popDataLoop] at h
    split at h
    · cases h
    · next t hpop =>
      obtain ⟨rfl, -⟩ := popClass_none hpop
      rw [ih h]
      exact add_one_add_ofNat _ _

/-- A round-robin turn that finds nothing passed only empty slots and moved
nothing but the cursor. -/
theorem popDataLoop_none (h : popDataLoop turns s = (s', none)) :
    s' = { s with dataCursor := s'.dataCursor } ∧
      ∀ i < turns, s.queues (OutboundClass.dataSlot (s.dataCursor + Fin.ofNat 8 i)) = [] := by
  induction turns generalizing s with
  | zero =>
    cases h
    exact ⟨rfl, fun i hi => absurd hi (Nat.not_lt_zero i)⟩
  | succ turns ih =>
    simp only [popDataLoop] at h
    split at h
    · cases h
    · next t hpop =>
      obtain ⟨rfl, hempty⟩ := popClass_none hpop
      obtain ⟨hs, hrest⟩ := ih h
      refine ⟨by rw [hs], ?_⟩
      intro i hi
      cases i with
      | zero => simpa using hempty
      | succ i =>
        have hslot := hrest i (by omega)
        rw [← add_one_add_ofNat]
        exact hslot

/-- Eight slots reach every data class, so an empty-handed selection means
that no data waits. -/
theorem popData_none (h : s.popData = (s', none)) :
    s' = { s with dataCursor := s'.dataCursor } ∧ s.hasData = false := by
  obtain ⟨hs, hslots⟩ := popDataLoop_none h
  refine ⟨hs, ?_⟩
  rw [Bool.eq_false_iff]
  intro hdata
  obtain ⟨c, hc, hne⟩ := hasData_iff.mp hdata
  obtain ⟨cursor, rfl⟩ := exists_dataSlot hc
  have hreach : ∀ a b : Fin 8, a + Fin.ofNat 8 (b - a).val = b := by decide
  have hslot := hslots (cursor - s.dataCursor).val (cursor - s.dataCursor).isLt
  rw [hreach] at hslot
  exact hne hslot

/-- An urgent pop drains one control or audio buffer and leaves the budget. -/
theorem popUrgent_some (h : s.popUrgent = (s', some packet)) :
    (∃ c, c.isUrgent = true ∧ Drains s s' c [packet]) ∧
      s'.urgentRemaining = s.urgentRemaining := by
  simp only [popUrgent] at h
  split at h
  · next t found hpop =>
    cases h
    obtain ⟨hd, -, hu⟩ := popClass_drains hpop
    exact ⟨⟨.control, rfl, hd⟩, hu⟩
  · next t hpop =>
    obtain ⟨rfl, -⟩ := popClass_none hpop
    obtain ⟨hd, -, hu⟩ := popClass_drains h
    exact ⟨⟨.audio, rfl, hd⟩, hu⟩

/-- An urgent pop yields nothing only when control and audio are empty. -/
theorem popUrgent_none (h : s.popUrgent = (s', none)) : s' = s ∧ s.urgentAvailable = false := by
  simp only [popUrgent] at h
  split at h
  · cases h
  · next t hpop =>
    obtain ⟨rfl, hc⟩ := popClass_none hpop
    obtain ⟨rfl, ha⟩ := popClass_none h
    exact ⟨rfl, by simp [urgentAvailable, hc, ha]⟩

/-- What one selection can do: an urgent pop inside the guarded branch, which
decrements the budget; a data pop, which restores it; or nothing at all, and
then every queue was empty. -/
theorem popNext_cases (s : OutboundScheduler) :
    (∃ s' packet c, s.popNext = (s', some packet) ∧ s.urgentTurn = true ∧ c.isUrgent = true ∧
      Drains s s' c [packet] ∧ s'.urgentRemaining = s.urgentRemaining - 1) ∨
    (∃ s' packet c, s.popNext = (s', some packet) ∧ s.urgentTurn = false ∧ c.isUrgent = false ∧
      Drains s s' c [packet] ∧ s'.urgentRemaining = maxUrgentBurst) ∨
    (∃ s', s.popNext = (s', none) ∧ (∀ c, s.queues c = []) ∧
      s' = { s with dataCursor := s'.dataCursor, urgentRemaining := maxUrgentBurst }) := by
  by_cases hturn : s.urgentTurn = true
  · left
    have havail : s.urgentAvailable = true := by
      simp only [urgentTurn, Bool.and_eq_true] at hturn
      exact hturn.1
    rcases hpop : s.popUrgent with ⟨s', _ | packet⟩
    · have hnone := (popUrgent_none hpop).2
      rw [havail] at hnone
      cases hnone
    · obtain ⟨⟨c, hc, hd⟩, hu⟩ := popUrgent_some hpop
      refine ⟨_, packet, c, ?_, hturn, hc, hd.withUrgent (s'.urgentRemaining - 1), ?_⟩
      · simp only [popNext, hturn, if_true, hpop]
      · simp only [hu]
  · right
    rw [Bool.not_eq_true] at hturn
    rcases hpop : s.popData with ⟨s', _ | packet⟩
    · right
      obtain ⟨hs, hdata⟩ := popData_none hpop
      have havail : s.urgentAvailable = false := by
        simpa only [urgentTurn, hdata, Bool.not_false, Bool.or_true, Bool.and_true] using hturn
      have hempty : ∀ c, s.queues c = [] := by
        intro c
        by_contra hne
        cases hc : c.isUrgent with
        | true =>
          rw [urgentAvailable_iff.mpr ⟨c, hc, hne⟩] at havail
          cases havail
        | false =>
          rw [hasData_iff.mpr ⟨c, hc, hne⟩] at hdata
          cases hdata
      refine ⟨{ s' with urgentRemaining := maxUrgentBurst }, ?_, hempty, ?_⟩
      · have hq : s'.queues = s.queues := by rw [hs]
        have hcontrol : ({ s' with urgentRemaining := maxUrgentBurst } :
            OutboundScheduler).queues .control = [] := by simp only [hq, hempty]
        have haudio : ({ s' with urgentRemaining := maxUrgentBurst } :
            OutboundScheduler).queues .audio = [] := by simp only [hq, hempty]
        simp only [popNext, hturn, Bool.false_eq_true, if_false, popAfterUrgent, hpop, popUrgent,
          popClass_nil hcontrol, popClass_nil haudio]
      · rw [hs]
    · left
      obtain ⟨⟨c, hc, hd⟩, -⟩ := popDataLoop_some hpop
      refine ⟨_, packet, c, ?_, hturn, hc, hd.withUrgent maxUrgentBurst, rfl⟩
      simp only [popNext, hturn, Bool.false_eq_true, if_false, popAfterUrgent, hpop]

/-- Coalescing appends a run of whole buffers of the packet's own class, and
none of them once the result would pass the coalescing bound. -/
theorem coalesceLoop_drains {fuel : ℕ} {merged : OutboundPacket}
    (h : coalesceLoop fuel s packet = (s', merged)) :
    ∃ bufs, Drains s s' packet.cls bufs ∧ s'.urgentRemaining = s.urgentRemaining ∧
      merged.cls = packet.cls ∧ merged.bytes = packet.bytes ++ stream bufs ∧
      (maxCoalescedBytes < merged.len → bufs = []) := by
  induction fuel generalizing s packet with
  | zero =>
    cases h
    exact ⟨[], Drains.refl _ _, rfl, rfl, by simp, fun _ => rfl⟩
  | succ fuel ih =>
    have hstop : (s, packet) = (s', merged) → ∃ bufs, Drains s s' packet.cls bufs ∧
        s'.urgentRemaining = s.urgentRemaining ∧ merged.cls = packet.cls ∧
        merged.bytes = packet.bytes ++ stream bufs ∧
        (maxCoalescedBytes < merged.len → bufs = []) := by
      intro he
      cases he
      exact ⟨[], Drains.refl _ _, rfl, rfl, by simp, fun _ => rfl⟩
    simp only [coalesceLoop] at h
    split at h
    · next hlt =>
      split at h
      · exact hstop h
      · next next hhead =>
        split at h
        · exact hstop h
        · next hfits =>
          split at h
          · next t found hpop =>
            obtain ⟨hd, -, hu⟩ := popClass_drains hpop
            have hfound : found = next := by
              have hq := hd.queue
              rw [hq] at hhead
              exact Option.some.inj hhead
            obtain ⟨bufs, hbufs, hu', hcls, hbytes, hlong⟩ := ih h
            refine ⟨found :: bufs, hd.trans hbufs, hu'.trans hu, hcls, ?_, ?_⟩
            · rw [hbytes, stream_cons, List.append_assoc]
            · intro hover
              have hnone := hlong hover
              subst hnone
              exfalso
              rw [OutboundPacket.len, hbytes, stream_nil, List.append_nil, List.length_append]
                at hover
              rw [hfound] at hover
              exact hfits hover
          · next t hpop =>
            obtain ⟨-, hempty⟩ := popClass_none hpop
            rw [hempty] at hhead
            cases hhead
    · exact hstop h

/-- Coalescing leaves the round-robin cursor where it is. -/
theorem coalesceLoop_dataCursor (fuel : ℕ) (s : OutboundScheduler) (packet : OutboundPacket) :
    (coalesceLoop fuel s packet).1.dataCursor = s.dataCursor := by
  induction fuel generalizing s packet with
  | zero => rfl
  | succ fuel ih =>
    simp only [coalesceLoop]
    split
    · split
      · rfl
      · split
        · rfl
        · split
          · next t found hpop =>
            rw [ih]
            exact (popClass_drains hpop).2.1
          · next t hpop =>
            rw [(popClass_none hpop).1]
    · rfl

/-- Any fuel that covers the class queue gives the same coalesced packet, so
the loop of the source ends by its own tests and not for lack of fuel. -/
theorem coalesceLoop_fuel {fuel : ℕ} (h : (s.queues packet.cls).length ≤ fuel) :
    coalesceLoop fuel s packet = s.coalesceSameClass packet := by
  rw [coalesceSameClass]
  generalize hn : (s.queues packet.cls).length = n
  rw [hn] at h
  induction n generalizing fuel s packet with
  | zero =>
    have hempty := List.length_eq_zero_iff.mp hn
    cases fuel with
    | zero => rfl
    | succ fuel => simp [coalesceLoop, hempty]
  | succ n ih =>
    obtain ⟨fuel, rfl⟩ := Nat.exists_eq_succ_of_ne_zero (by omega : fuel ≠ 0)
    simp only [coalesceLoop]
    split
    · split
      · rfl
      · split
        · rfl
        · split
          · next t found hpop =>
            have hq := (popClass_drains hpop).1.queue
            have hlen : (t.queues packet.cls).length = n := by
              rw [hq] at hn
              simpa using hn
            exact ih (by omega) hlen
          · rfl
    · rfl

/-- Coalescing the selected packet drains the buffers it appends. -/
theorem coalesceSameClass_drains (s : OutboundScheduler) (packet : OutboundPacket) :
    ∃ bufs, Drains s (s.coalesceSameClass packet).1 packet.cls bufs ∧
      (s.coalesceSameClass packet).1.urgentRemaining = s.urgentRemaining ∧
      (s.coalesceSameClass packet).2.cls = packet.cls ∧
      (s.coalesceSameClass packet).2.bytes = packet.bytes ++ stream bufs ∧
      (maxCoalescedBytes < (s.coalesceSameClass packet).2.len → bufs = []) :=
  coalesceLoop_drains rfl

/-- A coalesced pop gives up a nonempty run of buffers from one class: the
selected buffer alone whenever the result passes the coalescing bound. -/
theorem popNextCoalesced_some {merged : OutboundPacket}
    (hclass : ∀ c, ∀ packet ∈ s.queues c, packet.cls = c)
    (h : s.popNextCoalesced = (s', some merged)) :
    ∃ t packet bufs, s.popNext = (t, some packet) ∧ merged.cls = packet.cls ∧
      Drains s s' merged.cls (packet :: bufs) ∧ merged.bytes = stream (packet :: bufs) ∧
      (maxCoalescedBytes < merged.len → bufs = []) ∧ s'.urgentRemaining = t.urgentRemaining := by
  simp only [popNextCoalesced] at h
  split at h
  · cases h
  · next t packet hpop =>
    have hfirst : Drains s t packet.cls [packet] := by
      rcases popNext_cases s with ⟨t', p, c, hp, -, -, hd, -⟩ | ⟨t', p, c, hp, -, -, hd, -⟩ |
        ⟨t', hp, -⟩
      · rw [hp] at hpop
        cases hpop
        have hc := hclass c packet (by rw [hd.queue]; exact List.mem_append_left _ (by simp))
        rw [hc]
        exact hd
      · rw [hp] at hpop
        cases hpop
        have hc := hclass c packet (by rw [hd.queue]; exact List.mem_append_left _ (by simp))
        rw [hc]
        exact hd
      · rw [hp] at hpop
        cases hpop
    cases h
    obtain ⟨bufs, hd, hu, hcls, hbytes, hlong⟩ := coalesceSameClass_drains t packet
    refine ⟨t, packet, bufs, hpop, hcls, ?_, hbytes, hlong, hu⟩
    rw [hcls]
    exact hfirst.trans hd

end Macrdp.OutboundLedger
