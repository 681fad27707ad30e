import Macrdp.OutboundAccounting

/-!
# Bounded urgent priority in the scheduler

Urgent selections draw on a burst budget that a data selection restores. The
guard of the urgent branch also lets urgent traffic through on an exhausted
budget when no data waits, and the decrement behind that guard then leaves the
range of the budget; the bound holds on exactly the runs in which this does
not happen.
-/

namespace Macrdp.OutboundFairness

open OutboundScheduling OutboundScheduling.OutboundScheduler OutboundLedger OutboundAccounting
  StepSystem

/-- The class a call selects: that of the packet `popNext` finds. -/
def selected (s : OutboundScheduler) (op : SchedulerOp) : Option OutboundClass :=
  if op.isPop then s.popNext.2.map OutboundPacket.cls else none

/-- The classes selected along a sequence of calls, in order. -/
def selections : Ledger → List SchedulerOp → List OutboundClass
  | _, [] => []
  | l, op :: rest => (selected l.scheduler op).toList ++ selections (l.apply op) rest

/-- Some data class is not empty before every call of the sequence. -/
def DataWaits (l : Ledger) (ops : List SchedulerOp) : Prop :=
  Meets (total Ledger.apply) (fun l _ => l.scheduler.hasData = true) l ops

/-- The pop finds urgent traffic alone, with nothing left in the budget. -/
def exhaustedWithoutData (s : OutboundScheduler) (op : SchedulerOp) : Bool :=
  op.isPop && s.urgentAvailable && s.urgentRemaining == 0 && !s.hasData

/-- No pop of the sequence takes an urgent packet on an exhausted budget. -/
def NeverExhausted (l : Ledger) (ops : List SchedulerOp) : Prop :=
  Meets (total Ledger.apply) (fun l op => exhaustedWithoutData l.scheduler op = false) l ops

/-- Bounded urgent priority on a new scheduler: the budget stays in range, its
decrement never underflows, and while data waits no more than a burst of urgent
packets is selected in a row. -/
structure UrgentBounded (maxBytes : ℕ) (ops : List SchedulerOp) : Prop where
  /-- The budget never exceeds a burst. -/
  inRange : ∀ before, before <+: ops →
    (Ledger.run maxBytes before).scheduler.urgentRemaining ≤ maxUrgentBurst
  /-- An urgent selection has a budget to decrement. -/
  noUnderflow : ∀ before op, before ++ [op] <+: ops →
    ∀ c, selected (Ledger.run maxBytes before).scheduler op = some c → c.isUrgent = true →
      0 < (Ledger.run maxBytes before).scheduler.urgentRemaining
  /-- Waiting data is served after at most a burst of urgent selections. -/
  burst : ∀ before during, before ++ during <+: ops →
    DataWaits (Ledger.run maxBytes before) during →
    (∀ c ∈ selections (Ledger.run maxBytes before) during, c.isUrgent = true) →
      (selections (Ledger.run maxBytes before) during).length ≤ maxUrgentBurst.toNat

variable {op : SchedulerOp}

/-- What neither a packet that is tried nor a drop changes, no push changes. -/
theorem push_keeps {α : Type} (f : OutboundScheduler → α) {l : Ledger}
    (hpush : ∀ packet, f (l.scheduler.tryPush packet).1 = f l.scheduler)
    (hdrop : ∀ n, f (l.scheduler.recordAudioDrop n) = f l.scheduler) (h : op.isPop = false) :
    f (l.apply op).scheduler = f l.scheduler := by
  cases op with
  | tryPush packet =>
    have hkeep := hpush packet
    simp only [Ledger.apply]
    split <;> next he => rw [he] at hkeep; exact hkeep
  | tryPushAudio upperBoundBytes built =>
    have hkeep := hpush ⟨.audio, built⟩
    simp only [Ledger.apply]
    rcases tryPushAudio_cases l.scheduler upperBoundBytes (fun _ => built) with
      he | ⟨s', hs, he⟩ | ⟨s', e, hs, he⟩
    · rw [he]
      exact hdrop upperBoundBytes
    · rw [hs] at hkeep
      rw [he]
      exact hkeep
    · rw [hs] at hkeep
      rw [he]
      exact hkeep
  | popNext | popNextCoalesced => cases h

/-- A push selects nothing and leaves the burst budget alone. -/
theorem push_urgentRemaining (l : Ledger) (h : op.isPop = false) :
    selected l.scheduler op = none ∧
      (l.apply op).scheduler.urgentRemaining = l.scheduler.urgentRemaining := by
  refine ⟨by simp [selected, h], push_keeps (·.urgentRemaining) (fun packet => ?_) (fun _ => rfl) h⟩
  rcases tryPush_cases l.scheduler packet with ⟨-, he⟩ | ⟨-, he⟩ <;> rw [he]

/-- Both kinds of pop leave the burst budget that `popNext` leaves. -/
theorem pop_urgentRemaining (l : Ledger) (h : op.isPop = true) :
    (l.apply op).scheduler.urgentRemaining = l.scheduler.popNext.1.urgentRemaining := by
  cases op with
  | tryPush packet | tryPushAudio upperBoundBytes built => cases h
  | popNext => rfl
  | popNextCoalesced =>
    simp only [Ledger.apply, popNextCoalesced]
    rcases l.scheduler.popNext with ⟨t, _ | packet⟩
    · rfl
    · obtain ⟨bufs, -, hu, -⟩ := coalesceSameClass_drains t packet
      exact hu

/-- What a pop does to the burst budget: in the guarded branch it selects an
urgent class and decrements; elsewhere it restores the budget and selects a data
class, or nothing when no data waits. -/
theorem pop_cases {l : Ledger} (hb : Balanced l.scheduler) (h : op.isPop = true) :
    (l.scheduler.urgentTurn = true ∧
      (∃ c, selected l.scheduler op = some c ∧ c.isUrgent = true) ∧
      (l.apply op).scheduler.urgentRemaining = l.scheduler.urgentRemaining - 1) ∨
    (l.scheduler.urgentTurn = false ∧
      ((∃ c, selected l.scheduler op = some c ∧ c.isUrgent = false) ∨
        (selected l.scheduler op = none ∧ l.scheduler.hasData = false)) ∧
      (l.apply op).scheduler.urgentRemaining = maxUrgentBurst) := by
  rw [pop_urgentRemaining l h]
  simp only [selected, h, if_true]
  have hhead : ∀ {s' c packet}, Drains l.scheduler s' c [packet] → packet.cls = c :=
    fun hd => hb.cls_of_drains hd
  rcases popNext_cases l.scheduler with ⟨s', packet, c, hpop, hturn, hc, hd, hu⟩ |
    ⟨s', packet, c, hpop, hturn, hc, hd, hu⟩ | ⟨s', hpop, hempty, hs⟩
  · left
    rw [hpop]
    exact ⟨hturn, ⟨packet.cls, rfl, hhead hd ▸ hc⟩, hu⟩
  · right
    rw [hpop]
    exact ⟨hturn, .inl ⟨packet.cls, rfl, hhead hd ▸ hc⟩, hu⟩
  · right
    rw [hpop]
    refine ⟨?_, .inr ⟨rfl, ?_⟩, by rw [hs]⟩
    · simp [urgentTurn, urgentAvailable, hempty]
    · simp [hasData, hempty]

/-- Outside the exhausted case an urgent turn has a budget to decrement. -/
theorem urgentTurn_pos {s : OutboundScheduler} (h : op.isPop = true)
    (hturn : s.urgentTurn = true) (hne : exhaustedWithoutData s op = false) :
    0 < s.urgentRemaining := by
  simp only [urgentTurn, Bool.and_eq_true, Bool.or_eq_true, decide_eq_true_eq,
    Bool.not_eq_true'] at hturn
  obtain ⟨havail, hpos | hdata⟩ := hturn
  · exact hpos
  · have hne0 : s.urgentRemaining ≠ 0 := by
      intro hzero
      simp [exhaustedWithoutData, h, havail, hzero, hdata] at hne
    exact UInt64.pos_iff_ne_zero.mpr hne0

/-- A pop that meets data is not the exhausted case. -/
theorem not_exhausted_of_hasData {s : OutboundScheduler} (op : SchedulerOp)
    (h : s.hasData = true) : exhaustedWithoutData s op = false := by
  simp [exhaustedWithoutData, h]

/-- One less than a positive counter, as a number. -/
theorem sub_one_toNat {a : UInt64} (h : 0 < a) : (a - 1).toNat + 1 = a.toNat := by
  have hpos : 0 < a.toNat := UInt64.lt_iff_toNat_lt.mp h
  rw [UInt64.toNat_sub_of_le a 1 (UInt64.le_iff_toNat_le.mpr hpos), UInt64.toNat_one]
  omega

/-- Outside the exhausted case every call keeps the budget in range. -/
theorem apply_inRange {l : Ledger} (hb : Balanced l.scheduler)
    (hrange : l.scheduler.urgentRemaining ≤ maxUrgentBurst)
    (hne : exhaustedWithoutData l.scheduler op = false) :
    (l.apply op).scheduler.urgentRemaining ≤ maxUrgentBurst := by
  cases hop : op.isPop with
  | false =>
    rw [(push_urgentRemaining l hop).2]
    exact hrange
  | true =>
    rcases pop_cases hb hop with ⟨hturn, -, hu⟩ | ⟨-, -, hu⟩
    · have hdec := sub_one_toNat (urgentTurn_pos hop hturn hne)
      rw [hu, UInt64.le_iff_toNat_le]
      rw [UInt64.le_iff_toNat_le] at hrange
      omega
    · rw [hu]
      exact UInt64.le_refl _

/-- While data waits, every urgent selection in a row is paid for by the budget. -/
theorem selections_length_le {maxBytes : ℕ} (during : List SchedulerOp) {l : Ledger}
    (hl : Exact maxBytes l) (hdata : DataWaits l during)
    (hurgent : ∀ c ∈ selections l during, c.isUrgent = true) :
    (selections l during).length + (during.foldl Ledger.apply l).scheduler.urgentRemaining.toNat =
      l.scheduler.urgentRemaining.toNat := by
  induction during generalizing l with
  | nil => simp [selections]
  | cons op rest ih =>
    obtain ⟨hwaits, hrest⟩ := hdata
    simp only [selections, List.mem_append] at hurgent
    have htail := ih (exact_apply l op hl) (hrest _ rfl) fun c hc => hurgent c (.inr hc)
    simp only [selections, List.length_append, List.foldl_cons]
    cases hop : op.isPop with
    | false =>
      obtain ⟨hnone, hu⟩ := push_urgentRemaining l hop
      rw [hnone, Option.toList_none, List.length_nil, ← hu]
      omega
    | true =>
      rcases pop_cases hl.balanced hop with ⟨hturn, ⟨c, hc, -⟩, hu⟩ |
        ⟨-, ⟨c, hc, hdataClass⟩ | ⟨-, hnodata⟩, -⟩
      · have hdec := sub_one_toNat (urgentTurn_pos hop hturn (not_exhausted_of_hasData op hwaits))
        rw [hc, Option.toList_some, List.length_singleton]
        rw [hu] at htail
        omega
      · have hc' := hurgent c (.inl (by rw [hc]; simp))
        rw [hdataClass] at hc'
        cases hc'
      · rw [hwaits] at hnodata
        cases hnodata

/-- A run without the exhausted case keeps the budget in range throughout. -/
theorem inRange_of_neverExhausted {maxBytes : ℕ} {ops : List SchedulerOp}
    (h : NeverExhausted (Ledger.new maxBytes) ops) :
    (Ledger.run maxBytes ops).scheduler.urgentRemaining ≤ maxUrgentBurst := by
  have hinv : Exact maxBytes (Ledger.run maxBytes ops) ∧
      (Ledger.run maxBytes ops).scheduler.urgentRemaining ≤ maxUrgentBurst := by
    refine run_invariant (fun l => Exact maxBytes l ∧
      l.scheduler.urgentRemaining ≤ maxUrgentBurst) ?_ ⟨exact_new maxBytes, UInt64.le_refl _⟩ h
      (run_total Ledger.apply _ ops)
    rintro l op l' ⟨hl, hrange⟩ hne ⟨⟩
    exact ⟨exact_apply l op hl, apply_inRange hl.balanced hrange hne⟩
  exact hinv.2

/-- A sequence without the exhausted case has none in any of its beginnings. -/
theorem neverExhausted_of_isPrefix {maxBytes : ℕ} {before ops : List SchedulerOp}
    (hpre : before <+: ops) (h : NeverExhausted (Ledger.new maxBytes) ops) :
    NeverExhausted (Ledger.new maxBytes) before := by
  obtain ⟨rest, rfl⟩ := hpre
  exact ((meets_append before rest _).mp h).1

/-- Urgent priority is bounded on exactly the sequences that never pop an urgent
packet on an exhausted budget with no data waiting. -/
theorem urgentBounded_iff_neverExhausted (maxBytes : ℕ) (ops : List SchedulerOp) :
    UrgentBounded maxBytes ops ↔ NeverExhausted (Ledger.new maxBytes) ops := by
  constructor
  · intro h
    refine meets_total_iff.mpr fun before op hpre => ?_
    rw [← Bool.not_eq_true]
    intro hex
    simp only [exhaustedWithoutData, Bool.and_eq_true, Bool.not_eq_true', beq_iff_eq] at hex
    obtain ⟨⟨⟨hop, havail⟩, hzero⟩, hnodata⟩ := hex
    have hb : Balanced (Ledger.run maxBytes before).scheduler :=
      (exact_run maxBytes before).balanced
    rcases pop_cases hb hop with ⟨-, ⟨c, hc, hurgent⟩, -⟩ | ⟨hturn, -, -⟩
    · have hpos := h.noUnderflow before op hpre c hc hurgent
      rw [Ledger.run, hzero] at hpos
      cases hpos
    · have hturn' : (Ledger.run maxBytes before).scheduler.urgentTurn = true := by
        simp only [urgentTurn, Ledger.run, havail, hnodata, Bool.not_false, Bool.or_true,
          Bool.and_true]
      rw [hturn'] at hturn
      cases hturn
  · intro h
    refine ⟨fun before hpre => inRange_of_neverExhausted (neverExhausted_of_isPrefix hpre h),
      ?_, ?_⟩
    · intro before op hpre c hc hurgent
      have hne := meets_total_iff.mp h before op hpre
      have hb := (exact_run maxBytes before).balanced
      have hop : op.isPop = true := by
        cases hop : op.isPop with
        | true => rfl
        | false =>
          rw [(push_urgentRemaining _ hop).1] at hc
          cases hc
      rcases pop_cases hb hop with ⟨hturn, -, -⟩ | ⟨-, ⟨d, hd, hdata⟩ | ⟨hnone, -⟩, -⟩
      · exact urgentTurn_pos hop hturn hne
      · rw [hc] at hd
        cases hd
        rw [hurgent] at hdata
        cases hdata
      · rw [hc] at hnone
        cases hnone
    · intro before during hpre hdata hurgent
      have hrange := inRange_of_neverExhausted
        (neverExhausted_of_isPrefix ((List.prefix_append before during).trans hpre) h)
      have hlength := selections_length_le during (exact_run maxBytes before) hdata hurgent
      rw [UInt64.le_iff_toNat_le] at hrange
      omega

/-- Nine audio packets and no data: the ninth pop finds an exhausted budget. -/
theorem not_urgentBounded_nine_audio :
    ¬ UrgentBounded 64
      (List.replicate 9 (.tryPush ⟨.audio, [0]⟩) ++ List.replicate 9 .popNext) := by
  intro h
  have hrange := h.inRange _ (List.prefix_refl _)
  revert hrange
  decide +kernel

end Macrdp.OutboundFairness
