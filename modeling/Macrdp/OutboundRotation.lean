import Macrdp.OutboundFairness
import Macrdp.RoundRobin

/-!
# Weighted service of the data classes

The data classes take turns on a ring of eight slots. Whatever else is pushed
and popped in between, a class that is not empty at any data selection is never
passed over, and so gets its share of every eight of them.
-/

namespace Macrdp.OutboundRotation

open OutboundScheduling OutboundScheduling.OutboundScheduler OutboundLedger OutboundAccounting
  OutboundFairness StepSystem RoundRobin

/-- The data classes selected along a sequence of calls, in order. -/
def dataSelections (l : Ledger) (ops : List SchedulerOp) : List OutboundClass :=
  (selections l ops).filter fun c => !c.isUrgent

/-- The class is not empty at any data selection of the sequence. -/
def Backlogged (c : OutboundClass) (l : Ledger) (ops : List SchedulerOp) : Prop :=
  Meets (total Ledger.apply) (fun l op => ∀ d, selected l.scheduler op = some d →
    d.isUrgent = false → l.scheduler.queues c ≠ []) l ops

/-- The class that owns a slot of the ring, counted along the numbers. -/
def slotOwner (position : ℕ) : OutboundClass :=
  OutboundClass.dataSlot ⟨position % 8, Nat.mod_lt position (by decide)⟩

/-- The ring has eight slots. -/
theorem slotOwner_periodic : Function.Periodic slotOwner OutboundClass.dataSlots.length := by
  intro position
  have hslot : (position + OutboundClass.dataSlots.length) % 8 = position % 8 := by
    simp [OutboundClass.dataSlots]
  simp only [slotOwner, hslot]

/-- The slots a class owns are those the table gives it. -/
theorem weight_slotOwner (c : OutboundClass) :
    weight slotOwner OutboundClass.dataSlots.length c = OutboundClass.dataSlots.count c := by
  cases c <;> decide

/-- Popping one class leaves the cursor where it is. -/
theorem popClass_dataCursor (s : OutboundScheduler) (c : OutboundClass) :
    (s.popClass c).1.dataCursor = s.dataCursor := by
  rcases hpop : s.popClass c with ⟨t, _ | packet⟩
  · rw [(popClass_none hpop).1]
  · exact (popClass_drains hpop).2.1

/-- Popping urgent traffic leaves the cursor where it is. -/
theorem popUrgent_dataCursor (s : OutboundScheduler) :
    s.popUrgent.1.dataCursor = s.dataCursor := by
  have hcontrol := popClass_dataCursor s .control
  simp only [popUrgent]
  split
  · next t packet hpop =>
    rw [hpop] at hcontrol
    exact hcontrol
  · next t hpop =>
    rw [hpop] at hcontrol
    rw [popClass_dataCursor]
    exact hcontrol

/-- What a selection does to the cursor: an urgent packet, or none, leaves it
where it is; a data packet comes from the first slot whose class is not empty,
and the cursor moves behind that slot. -/
theorem popNext_turn {s : OutboundScheduler} (hb : Balanced s) :
    ((∀ packet, s.popNext.2 = some packet → packet.cls.isUrgent = true) ∧
      s.popNext.1.dataCursor = s.dataCursor) ∨
    (∃ passed packet, (∀ i < passed,
        s.queues (OutboundClass.dataSlot (s.dataCursor + Fin.ofNat 8 i)) = []) ∧
      s.popNext.2 = some packet ∧
      packet.cls = OutboundClass.dataSlot (s.dataCursor + Fin.ofNat 8 passed) ∧
      s.popNext.1.dataCursor = s.dataCursor + Fin.ofNat 8 (passed + 1)) := by
  have hurgent := popUrgent_dataCursor s
  cases hturn : s.urgentTurn with
  | true =>
    left
    have havail : s.urgentAvailable = true := by
      simp only [urgentTurn, Bool.and_eq_true] at hturn
      exact hturn.1
    rcases hpop : s.popUrgent with ⟨t, _ | packet⟩
    · rw [(popUrgent_none hpop).2] at havail
      cases havail
    · obtain ⟨⟨c, hc, hd⟩, -⟩ := popUrgent_some hpop
      rw [hpop] at hurgent
      simp only [popNext, hturn, if_true, hpop]
      refine ⟨?_, hurgent⟩
      rintro found ⟨⟩
      rw [hb.cls_of_drains hd]
      exact hc
  | false =>
    rcases hpop : s.popData with ⟨t, _ | packet⟩
    · left
      have hempty : s.popNext.2 = none := by
        rcases popNext_cases s with ⟨t', p, c, hp, ht, -⟩ | ⟨t', p, c, hp, -, hc, hd, -⟩ |
          ⟨t', hp, -⟩
        · rw [hturn] at ht
          cases ht
        · have hdata := hasData_iff.mpr ⟨c, hc, by rw [hd.queue]; simp⟩
          rw [(popData_none hpop).2] at hdata
          cases hdata
        · rw [hp]
      have hcursor : t.dataCursor = s.dataCursor := by
        rw [popDataLoop_none_cursor hpop]
        exact Fin.add_zero _
      refine ⟨fun packet hp => ?_, ?_⟩
      · rw [hempty] at hp
        cases hp
      · simp only [popNext, hturn, Bool.false_eq_true, if_false, popAfterUrgent, hpop]
        rw [popUrgent_dataCursor]
        exact hcursor
    · right
      obtain ⟨passed, hpassed, hd, hcursor, -⟩ := popDataLoop_slot hpop
      refine ⟨passed, packet, hpassed, ?_, hb.cls_of_drains hd, ?_⟩
      · simp only [popNext, hturn, Bool.false_eq_true, if_false, popAfterUrgent, hpop]
      · simp only [popNext, hturn, Bool.false_eq_true, if_false, popAfterUrgent, hpop]
        exact hcursor

/-- A push leaves the cursor where it is. -/
theorem push_dataCursor (l : Ledger) {op : SchedulerOp} (h : op.isPop = false) :
    (l.apply op).scheduler.dataCursor = l.scheduler.dataCursor := by
  refine push_keeps (·.dataCursor) (fun packet => ?_) (fun _ => rfl) h
  rcases tryPush_cases l.scheduler packet with ⟨-, he⟩ | ⟨-, he⟩ <;> rw [he]

/-- Both kinds of pop leave the cursor that `popNext` leaves. -/
theorem pop_dataCursor (l : Ledger) {op : SchedulerOp} (h : op.isPop = true) :
    (l.apply op).scheduler.dataCursor = l.scheduler.popNext.1.dataCursor := by
  cases op with
  | tryPush packet | tryPushAudio upperBoundBytes built => cases h
  | popNext => rfl
  | popNextCoalesced =>
    simp only [Ledger.apply, popNextCoalesced]
    rcases l.scheduler.popNext with ⟨t, _ | packet⟩
    · rfl
    · exact coalesceLoop_dataCursor _ t packet

/-- What a call does to the ring: it selects no data class and leaves the cursor,
or it serves the first slot from the cursor on whose class is not empty. -/
theorem apply_turn {l : Ledger} (hb : Balanced l.scheduler) (op : SchedulerOp) {start : ℕ}
    (hstart : l.scheduler.dataCursor = Fin.ofNat 8 start) :
    ((∀ c, selected l.scheduler op = some c → c.isUrgent = true) ∧
      (l.apply op).scheduler.dataCursor = Fin.ofNat 8 start) ∨
    (∃ passed, (∀ i < passed, l.scheduler.queues (slotOwner (start + i)) = []) ∧
      selected l.scheduler op = some (slotOwner (start + passed)) ∧
      (l.apply op).scheduler.dataCursor = Fin.ofNat 8 (start + passed + 1)) := by
  cases hop : op.isPop with
  | false =>
    left
    refine ⟨fun c hc => ?_, (push_dataCursor l hop).trans hstart⟩
    rw [(push_urgentRemaining l hop).1] at hc
    cases hc
  | true =>
    have hturn := popNext_turn hb
    rw [pop_dataCursor l hop]
    simp only [selected, hop, if_true]
    simp only [hstart, ofNat_add_ofNat] at hturn
    rcases hturn with ⟨hurgent, hcursor⟩ | ⟨passed, packet, hpassed, hpop, hcls, hcursor⟩
    · left
      refine ⟨fun c hc => ?_, hcursor⟩
      obtain ⟨packet, hpacket, rfl⟩ := Option.map_eq_some_iff.mp hc
      exact hurgent packet hpacket
    · right
      refine ⟨passed, hpassed, ?_, hcursor⟩
      rw [hpop, Option.map_some, hcls]
      rfl

/-- The data selections of any sequence of calls are turns on the ring in which a
backlogged class is never passed over. -/
theorem turns_dataSelections {maxBytes : ℕ} {c : OutboundClass} (during : List SchedulerOp)
    {l : Ledger} {start : ℕ} (hl : Exact maxBytes l)
    (hstart : l.scheduler.dataCursor = Fin.ofNat 8 start) (hback : Backlogged c l during) :
    ∃ finish, Turns slotOwner c start (dataSelections l during) finish := by
  induction during generalizing l start with
  | nil => exact ⟨start, .nil start⟩
  | cons op rest ih =>
    obtain ⟨hwaits, hrest⟩ := hback
    have hl' := exact_apply l op hl
    rcases apply_turn hl.balanced op hstart with ⟨hnone, hcursor⟩ |
      ⟨passed, hpassed, hserved, hcursor⟩
    · obtain ⟨finish, hturns⟩ := ih hl' hcursor (hrest _ rfl)
      refine ⟨finish, ?_⟩
      have hskip : (selected l.scheduler op).toList.filter (fun c => !c.isUrgent) = [] := by
        cases hsel : selected l.scheduler op with
        | none => rfl
        | some d => simp [hnone d hsel]
      rw [dataSelections, selections, List.filter_append, hskip, List.nil_append]
      exact hturns
    · obtain ⟨finish, hturns⟩ := ih hl' hcursor (hrest _ rfl)
      have hdata : (slotOwner (start + passed)).isUrgent = false := dataSlot_isUrgent _
      have hne := hwaits _ hserved hdata
      refine ⟨finish, ?_⟩
      have hhead : (selected l.scheduler op).toList.filter (fun c => !c.isUrgent) =
          [slotOwner (start + passed)] := by
        rw [hserved]
        simp [hdata]
      rw [dataSelections, selections, List.filter_append, hhead]
      refine .cons passed (fun i hi howner => hne ?_) hturns
      rw [← howner]
      exact hpassed i hi

/-- No data class starves: over any eight data selections in a row, with any
calls in between, a class that is not empty at any of them is selected as often
as it owns slots. -/
theorem dataSlots_count_le_served (maxBytes : ℕ) (before during : List SchedulerOp)
    (c : OutboundClass) (hback : Backlogged c (Ledger.run maxBytes before) during)
    (height : OutboundClass.dataSlots.length ≤
      (dataSelections (Ledger.run maxBytes before) during).length) :
    OutboundClass.dataSlots.count c ≤
      (dataSelections (Ledger.run maxBytes before) during).count c := by
  have hexact := exact_run maxBytes before
  generalize Ledger.run maxBytes before = l at hback height hexact ⊢
  have hstart : l.scheduler.dataCursor = Fin.ofNat 8 l.scheduler.dataCursor.val := by
    apply Fin.ext
    simp only [Fin.ofNat]
    omega
  obtain ⟨finish, hturns⟩ := turns_dataSelections during hexact hstart hback
  rw [← weight_slotOwner]
  exact hturns.weight_le slotOwner_periodic height

/-- Bulk shares eight data selections with a longer line of graphics, a control
packet going first. -/
theorem dataSlots_count_le_served_bulk :
    let bulk : SchedulerOp := .tryPush ⟨.bulk, [0]⟩
    let egfx : SchedulerOp := .tryPush ⟨.egfx, [0]⟩
    let before := List.replicate 3 bulk ++ List.replicate 8 egfx
    let during := .tryPush ⟨.control, [0]⟩ :: List.replicate 9 .popNext
    OutboundClass.dataSlots.count .bulk ≤
      (dataSelections (Ledger.run 64 before) during).count .bulk := by
  intro bulk egfx before during
  have hback : meetsBool (total Ledger.apply) (fun l _ => !(l.scheduler.queues .bulk).isEmpty)
      (Ledger.run 64 before) during = true := by decide +kernel
  refine dataSlots_count_le_served 64 before during .bulk ?_ (by decide +kernel)
  refine (meetsBool_iff.mp hback).mono fun l op hne d _ _ => ?_
  simpa using hne

/-- The slots of each data class. -/
example : OutboundClass.dataSlots.count .clipboard = 1 ∧ OutboundClass.dataSlots.count .egfx = 3 ∧
    OutboundClass.dataSlots.count .display = 2 ∧ OutboundClass.dataSlots.count .bulk = 2 := by
  decide

end Macrdp.OutboundRotation
