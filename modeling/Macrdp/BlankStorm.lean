import Macrdp.BlankWatch

/-!
# Recovery does not storm

Every recovery action that a run of the pipeline dispatches is justified by what
its connection reported and acknowledged before, the actions of one connection
are few and apart, and the drops between two established connections are no more
than the cap.
-/

namespace Macrdp.PipelineSystem.BlankStorm

open PlatformTime GfxContext GfxFactory RationalFloat BlankRecovery GfxPipeline StepSystem

/-- The actions a run dispatches, and when. -/
def dispatches (g : Factory) (p : Pipeline) (acts : List Action) : List (Instant × Recovery) :=
  outputs (Pipeline.step g) (dispatch g) p acts

/-- The drops among dispatched actions. -/
def drops (actions : List (Instant × Recovery)) : ℕ :=
  actions.countP fun d => decide (d.2.action = .drop)

/-- The timing a client reports. -/
def reportOf : Action → Option UInt16
  | .client (.qoeMetrics timeDiffDr _) => some timeDiffDr
  | _ => none

/-- The timings reported, in order. -/
def reports (acts : List Action) : List UInt16 := acts.filterMap reportOf

/-- How many of the last timings in a row are not zero. -/
def nonzeroRun (timings : List UInt16) : ℕ :=
  timings.foldl (fun run timing => if 0 < timing then run + 1 else 0) 0

/-- A frame is acknowledged, and acknowledgements are not suspended. -/
def isAck : Action → Bool
  | .client (.frameAck _ queueDepth _) => decide (queueDepth ≠ 0xffffffff)
  | _ => false

/-- The connection goes on. -/
def goesOn : Action → Bool
  | .build _ => false
  | _ => true

/-- The connection is established. -/
def isEstablished (g : Factory) (p : Pipeline) : Bool :=
  p.watch.any fun w => established w.qoe g.blankParams.establishedRenderReports

/-- A gate that is open does not shrink the windows. -/
theorem one_le_of_gate {linkRttMs maxRttMs : UInt32} {mult : ℚ}
    (h : blankRttGate linkRttMs maxRttMs = some mult) : 1 ≤ mult := by
  unfold blankRttGate at h
  split at h
  · cases h
    exact le_refl 1
  · split at h
    · cases h
    · cases h
      exact (clamp_mem (by norm_num) _).1

/-- A gate that is open is not that of a slow link. -/
theorem fast_of_gate {linkRttMs maxRttMs : UInt32} {mult : ℚ}
    (h : blankRttGate linkRttMs maxRttMs = some mult) : ¬(0 < maxRttMs ∧ maxRttMs ≤ linkRttMs) := by
  rintro ⟨hpositive, hslow⟩
  have hmax : maxRttMs ≠ 0 := by
    rintro rfl
    exact absurd hpositive (by decide)
  have hlink : linkRttMs ≠ 0 := by
    rintro rfl
    have hzero := UInt32.le_iff_toNat_le.mp hslow
    have hnonzero := UInt32.lt_iff_toNat_lt.mp hpositive
    omega
  rw [blankRttGate, if_neg (not_or.mpr ⟨hmax, hlink⟩), if_pos hslow] at h
  cases h

/-- A stretched span is no shorter. -/
theorem le_mulF64 (d : Duration) {mult : ℚ} (h : 1 ≤ mult) : d.nanos ≤ (mulF64 d mult).nanos := by
  have hbound := d.bound
  have hstretched : (d.nanos : ℚ) ≤ d.nanos * mult + 1 / 2 := by
    have hnonneg : (0 : ℚ) ≤ d.nanos := Nat.cast_nonneg _
    have hproduct := mul_le_mul_of_nonneg_left h hnonneg
    linarith
  have hfloor : (d.nanos : ℤ) ≤ ⌊(d.nanos : ℚ) * mult + 1 / 2⌋ := by
    rw [Int.le_floor]
    exact_mod_cast hstretched
  have hsecs : nanosPerSec = 1000000000 := rfl
  simp only [mulF64]
  omega

/-- A stretched count of reports stays positive. -/
theorem scaleReports_pos {reports : UInt64} {mult : ℚ} (hreports : 0 < reports)
    (h : 1 ≤ mult) : 0 < (scaleReports reports mult).toNat := by
  have hpositive : (0 : ℚ) < ofUInt64 reports :=
    Nat.cast_pos.mpr (UInt64.lt_iff_toNat_lt.mp hreports)
  have hproduct : (0 : ℚ) < ofUInt64 reports * mult := mul_pos hpositive (by linarith)
  have hceil : 0 < ⌈ofUInt64 reports * mult⌉ := Int.ceil_pos.mpr hproduct
  rw [scaleReports, toUInt64_toNat, Int.floor_intCast]
  omega

/-- What an attempt that is due has to go on. -/
structure Grounds (params : BlankRecoveryParams) (now : Instant) (w : Watch) : Prop where
  notClean : w.qoe.presentedClean = false
  dark : w.qoe.nonzeroStreak.toNat < params.minRenderReports.toNat
  egfxAcksSeen : w.egfxAcksSeen = true
  armed : params.armDelay ≤ now.saturatingDurationSince w.epoch
  apart : params.retryInterval ≤ now.saturatingDurationSince w.lastAttempt
  left : w.attempts.toNat < params.maxAttempts.toNat
  fast : ¬(0 < params.maxRttMs ∧ params.maxRttMs ≤ w.linkRttMs)
  /-- Zero reports in a row, or an attempt that was followed by zero reports or by none. -/
  evidence : 0 < w.qoe.zeroStreak.toNat ∨ (0 < w.attempts.toNat ∧
    (w.qoe.reportsSinceReset = 0 ∨ 0 < w.qoe.zerosSinceReset.toNat))

/-- None of the clauses of evidence can do without zero reports or an attempt. -/
theorem evidence_of_blankEvidence {params : BlankRecoveryParams}
    (hadmitted : GfxFactory.Admitted params) {mult : ℚ} (hmult : 1 ≤ mult) {q : QoeEvidence} {o : Observation}
    (h : blankEvidence q o (blankParamsScaled params mult) = true) :
    0 < q.zeroStreak.toNat ∨ (0 < o.attempts.toNat ∧
      (q.reportsSinceReset = 0 ∨ 0 < q.zerosSinceReset.toNat)) := by
  have hminQoe := scaleReports_pos hadmitted.minQoeReports hmult
  have hestablished := scaleReports_pos hadmitted.establishedMinQoe hmult
  have hwall := UInt64.lt_iff_toNat_lt.mp hadmitted.establishedWallReports
  have hmin := UInt64.lt_iff_toNat_lt.mp hadmitted.blankMinReports
  have hzero : (0 : UInt64).toNat = 0 := rfl
  simp only [blankEvidence, blankParamsScaled, Bool.or_eq_true, Bool.and_eq_true,
    decide_eq_true_eq] at h
  rcases h with ((hcount | hblackout) | hunconfirmed) | hquiet
  · left
    cases hcase : established q params.establishedRenderReports with
    | true =>
      simp only [hcase, if_true] at hcount
      have hle := UInt64.le_iff_toNat_le.mp (of_decide_eq_true hcount)
      omega
    | false =>
      simp only [hcase, Bool.false_eq_true, if_false] at hcount
      have hle := UInt64.le_iff_toNat_le.mp (of_decide_eq_true hcount)
      omega
  · left
    have hle := UInt64.le_iff_toNat_le.mp (of_decide_eq_true hblackout.2)
    omega
  · right
    obtain ⟨⟨⟨⟨⟨hattempts, -⟩, -⟩, -⟩, -⟩, hreports⟩ := hunconfirmed
    have hone := UInt32.le_iff_toNat_le.mp hattempts
    have honeNat : (1 : UInt32).toNat = 1 := rfl
    refine ⟨by omega, hreports.imp (fun hnone => hnone) fun hzeros => ?_⟩
    have hle := UInt64.le_iff_toNat_le.mp (of_decide_eq_true hzeros)
    omega
  · left
    have hle := UInt64.le_iff_toNat_le.mp (of_decide_eq_true hquiet.1.2)
    omega

/-- An attempt that is due has grounds. -/
theorem grounds_of_due {params : BlankRecoveryParams} (hadmitted : GfxFactory.Admitted params)
    {now : Instant} {w : Watch} {o : Observation} {mult : ℚ} (h : Due params now w o mult) :
    Grounds params now w := by
  have hmult := one_le_of_gate h.gate
  have hfired := h.fired
  unfold shouldBlankRecover at hfired
  split at hfired
  · cases hfired
  · next hclean =>
    simp only [Bool.and_eq_true, Bool.not_eq_true', decide_eq_true_eq, decide_eq_false_iff_not]
      at hfired
    obtain ⟨⟨⟨⟨⟨⟨hevidence, hdark⟩, hacked⟩, -⟩, harmed⟩, hapart⟩, hleft⟩ := hfired
    have hstretched := le_mulF64 params.armDelay hmult
    refine ⟨Bool.eq_false_of_not_eq_true hclean, ?_, ?_, ?_, ?_, ?_, fast_of_gate h.gate, ?_⟩
    · rw [UInt64.le_iff_toNat_le] at hdark
      exact Nat.lt_of_not_le hdark
    · rw [← h.egfxAcksSeen]
      exact hacked
    · rw [← h.sinceConnect]
      exact le_trans (Duration.le_iff.mpr hstretched) harmed
    · rw [← h.sinceLastAttempt]
      exact hapart
    · rw [← h.attempts]
      exact UInt32.lt_iff_toNat_lt.mp hleft
    · rw [← h.attempts]
      exact evidence_of_blankEvidence hadmitted hmult hevidence

theorem saturatingAdd64_one (a : UInt64) :
    (saturatingAdd64 a 1).toNat = min (a.toNat + 1) (2 ^ 64 - 1) := by
  have hlt := a.toNat_lt
  have hone : (1 : UInt64).toNat = 1 := rfl
  have hmax : (0xffffffffffffffff : UInt64).toNat = 2 ^ 64 - 1 := rfl
  unfold saturatingAdd64
  split
  · next hwraps =>
    rw [UInt64.lt_iff_toNat_lt, UInt64.toNat_add] at hwraps
    omega
  · next hfits =>
    rw [UInt64.lt_iff_toNat_lt, UInt64.toNat_add] at hfits
    rw [UInt64.toNat_add]
    omega

theorem nonzeroRun_append (timings : List UInt16) (timing : UInt16) :
    nonzeroRun (timings ++ [timing]) = if 0 < timing then nonzeroRun timings + 1 else 0 := by
  simp only [nonzeroRun, List.foldl_append, List.foldl_cons, List.foldl_nil]

/-- The actions of a connection so far are few, and apart. -/
structure Paced (params : BlankRecoveryParams) (d : List (Instant × Recovery)) (w : Watch) :
    Prop where
  attempts : w.attempts.toNat = d.length ∨ w.attempts = params.maxAttempts
  few : d.length ≤ params.maxAttempts.toNat
  last : ∀ e ∈ d, e.1 ≤ w.lastAttempt
  apart : d.Pairwise fun e e' => params.retryInterval ≤ e'.1.saturatingDurationSince e.1
  armed : ∀ e ∈ d, params.armDelay ≤ e.1.saturatingDurationSince w.epoch

/-- What the counters of the evidence say of the reports of a connection so far. -/
structure Evident (params : BlankRecoveryParams) (d : List (Instant × Recovery))
    (timings : List UInt16) (w : Watch) : Prop where
  zero : 0 < w.qoe.zeroStreak.toNat → nonzeroRun timings = 0 ∧ timings ≠ []
  streak : 0 < w.qoe.zerosSinceReset.toNat ∨ d = [] →
    w.qoe.nonzeroStreak.toNat = min (nonzeroRun timings) (2 ^ 64 - 1)
  quiet : w.qoe.reportsSinceReset = 0 → d ≠ [] →
    nonzeroRun timings < params.minRenderReports.toNat
  reported : 0 < w.qoe.zerosSinceReset.toNat ∨ d ≠ [] → timings ≠ []

section Connection

variable {params : BlankRecoveryParams} {d : List (Instant × Recovery)} {timings : List UInt16}
  {w : Watch}

/-- An attempt with grounds comes long enough after the last one. -/
theorem Paced.attempt (h : Paced params d w) (hadmitted : GfxFactory.Admitted params)
    {now : Instant} (hgrounds : Grounds params now w) (r : Recovery) :
    Paced params (d ++ [(now, r)]) (Watch.attempt now w) := by
  have hleft := hgrounds.left
  have hcount : w.attempts.toNat = d.length := h.attempts.resolve_right fun hmax => by
    rw [hmax] at hleft
    omega
  have happart := Duration.le_iff.mp hgrounds.apart
  have hretry := hadmitted.retryInterval
  simp only [Instant.saturatingDurationSince] at happart
  refine ⟨.inl ?_, ?_, ?_, ?_, ?_⟩
  · have hlt := params.maxAttempts.toNat_lt
    have hone : (1 : UInt32).toNat = 1 := rfl
    simp only [Watch.attempt, UInt32.toNat_add, List.length_append, List.length_singleton]
    omega
  · rw [List.length_append, List.length_singleton]
    omega
  · intro e he
    rcases List.mem_append.mp he with hpast | hnew
    · have hle := Instant.le_iff.mp (h.last e hpast)
      rw [Instant.le_iff]
      simp only [Watch.attempt]
      omega
    · rw [List.mem_singleton.mp hnew]
      exact le_refl now
  · refine List.pairwise_append.mpr ⟨h.apart, List.pairwise_singleton _ _, ?_⟩
    intro e he e' he'
    have hle := Instant.le_iff.mp (h.last e he)
    rw [List.mem_singleton.mp he', Duration.le_iff]
    simp only [Instant.saturatingDurationSince]
    omega
  · intro e he
    rcases List.mem_append.mp he with hpast | hnew
    · exact h.armed e hpast
    · rw [List.mem_singleton.mp hnew]
      exact hgrounds.armed

/-- The attempts of a connection that may still make one are its actions. -/
theorem Paced.attempts_eq (h : Paced params d w)
    (hleft : w.attempts.toNat < params.maxAttempts.toNat) : w.attempts.toNat = d.length := by
  refine h.attempts.resolve_right fun hmax => ?_
  rw [hmax] at hleft
  omega

/-- The reports before an attempt with grounds do not end with enough that are not zero. -/
theorem Evident.dark (h : Evident params d timings w) (hpaced : Paced params d w)
    (hadmitted : GfxFactory.Admitted params) {now : Instant} (hgrounds : Grounds params now w) :
    nonzeroRun timings < params.minRenderReports.toNat ∧ timings ≠ [] := by
  have hpositive := UInt64.lt_iff_toNat_lt.mp hadmitted.minRenderReports
  have hnone : (0 : UInt64).toNat = 0 := rfl
  have hcount := hpaced.attempts_eq hgrounds.left
  rcases hgrounds.evidence with hzero | ⟨hattempted, hsilent | hzeros⟩
  · obtain ⟨hrun, hreported⟩ := h.zero hzero
    exact ⟨by omega, hreported⟩
  · have hacted : d ≠ [] := List.length_pos_iff.mp (by omega)
    exact ⟨h.quiet hsilent hacted, h.reported (.inr hacted)⟩
  · have hstreak := h.streak (.inl hzeros)
    have hdark := hgrounds.dark
    have hlt := params.minRenderReports.toNat_lt
    exact ⟨by omega, h.reported (.inl hzeros)⟩

/-- An attempt starts the counters anew. -/
theorem Evident.attempt (h : Evident params d timings w) (hpaced : Paced params d w)
    (hadmitted : GfxFactory.Admitted params) {now : Instant} (hgrounds : Grounds params now w)
    (r : Recovery) : Evident params (d ++ [(now, r)]) timings (Watch.attempt now w) := by
  obtain ⟨hdark, hreported⟩ := h.dark hpaced hadmitted hgrounds
  have hacted : d ++ [(now, r)] ≠ [] := List.append_ne_nil_of_right_ne_nil _ (by simp)
  refine ⟨fun hzero => ?_, ?_, fun _ _ => hdark, fun _ => hreported⟩
  · exact absurd hzero (Nat.lt_irrefl 0)
  · rintro (hzeros | hnone)
    · exact absurd hzeros (Nat.lt_irrefl 0)
    · exact absurd hnone hacted

/-- A report is counted. -/
theorem Evident.report (h : Evident params d timings w) (timing : UInt16) :
    Evident params d (timings ++ [timing]) (Watch.report timing w) := by
  have hreported : timings ++ [timing] ≠ [] := List.append_ne_nil_of_right_ne_nil _ (by simp)
  have hsince := saturatingAdd64_one w.qoe.reportsSinceReset
  by_cases htiming : 0 < timing
  · have hrun : nonzeroRun (timings ++ [timing]) = nonzeroRun timings + 1 := by
      rw [nonzeroRun_append, if_pos htiming]
    have hadded := saturatingAdd64_one w.qoe.nonzeroStreak
    refine ⟨?_, ?_, ?_, fun _ => hreported⟩
    · simp [Watch.report, QoeEvidence.record, htiming]
    · intro hcounted
      have hstreak := h.streak (by simpa [Watch.report, QoeEvidence.record, htiming] using hcounted)
      simp only [Watch.report, QoeEvidence.record, htiming, if_true, hadded, hrun]
      omega
    · intro hnone
      simp only [Watch.report, QoeEvidence.record, htiming, if_true] at hnone
      rw [hnone] at hsince
      have hzero : (0 : UInt64).toNat = 0 := rfl
      omega
  · have hrun : nonzeroRun (timings ++ [timing]) = 0 := by
      rw [nonzeroRun_append, if_neg htiming]
    refine ⟨fun _ => ⟨hrun, hreported⟩, fun _ => ?_, ?_, fun _ => hreported⟩
    · simp [Watch.report, QoeEvidence.record, htiming, hrun]
    · intro hnone
      simp only [Watch.report, QoeEvidence.record, htiming, if_false] at hnone
      rw [hnone] at hsince
      have hzero : (0 : UInt64).toNat = 0 := rfl
      omega

end Connection

/-- What is known of a connection goes with what happened on it. -/
structure Traced (g : Factory) (start : Instant) (rtt : UInt32) (s : Pipeline)
    (past : List Action) (w : Watch) : Prop where
  epoch : w.epoch = start
  link : w.linkRttMs = rtt
  minRenderReports : w.minRenderReports = g.blankParams.minRenderReports
  acked : w.egfxAcksSeen = true → past.any isAck = true
  paced : Paced g.blankParams (dispatches g s past) w
  evident : Evident g.blankParams (dispatches g s past) (reports past) w
  /-- Enough reports that are not zero before the first action end the recovery. -/
  clean : ∀ early, early <+: past → dispatches g s early = [] →
    g.blankParams.minRenderReports.toNat ≤ nonzeroRun (reports early) →
    w.qoe.presentedClean = true ∨ w.attempts = g.blankParams.maxAttempts

section Run

variable {g : Factory} {start : Instant} {rtt : UInt32} {s u u' : Pipeline} {past : List Action}
  {w : Watch} {a : Action}

theorem dispatches_concat (hrun : run (Pipeline.step g) s past = some u) (a : Action) :
    dispatches g s (past ++ [a]) = dispatches g s past ++ (dispatch g u a).toList := by
  have hlast : outputs (Pipeline.step g) (dispatch g) u [a] = (dispatch g u a).toList := by
    simp only [outputs]
    cases Pipeline.step g u a with
    | none | some next => exact List.append_nil _
  rw [dispatches, outputs_append hrun, hlast]
  rfl

theorem reports_concat (past : List Action) (a : Action) :
    reports (past ++ [a]) = reports past ++ (reportOf a).toList := by
  rw [reports, List.filterMap_append]
  rfl

theorem any_isAck_concat (past : List Action) (a : Action) :
    (past ++ [a]).any isAck = (past.any isAck || isAck a) := by
  rw [List.any_append, List.any_cons, List.any_nil, Bool.or_false]

/-- A step that reports nothing and dispatches nothing leaves what is known. -/
theorem Traced.kept (h : Traced g start rtt s past w)
    (hrun : run (Pipeline.step g) s past = some u) (hdispatch : dispatch g u a = none)
    (hreport : reportOf a = none) : Traced g start rtt s (past ++ [a]) w := by
  have hdispatches : dispatches g s (past ++ [a]) = dispatches g s past := by
    rw [dispatches_concat hrun, hdispatch]
    exact List.append_nil _
  have hreports : reports (past ++ [a]) = reports past := by
    rw [reports_concat, hreport]
    exact List.append_nil _
  refine ⟨h.epoch, h.link, h.minRenderReports, ?_, ?_, ?_, ?_⟩
  · intro hseen
    rw [any_isAck_concat, h.acked hseen]
    rfl
  · rw [hdispatches]
    exact h.paced
  · rw [hdispatches, hreports]
    exact h.evident
  · intro early hpre hnone hbright
    rcases List.prefix_concat_iff.mp hpre with rfl | hpast
    · rw [hdispatches] at hnone
      rw [hreports] at hbright
      exact h.clean past (List.prefix_refl past) hnone hbright
    · exact h.clean early hpast hnone hbright

/-- A report is taken in. -/
theorem Traced.report (h : Traced g start rtt s past w)
    (hrun : run (Pipeline.step g) s past = some u) (timing : UInt16) (now : Instant) :
    Traced g start rtt s (past ++ [.client (.qoeMetrics timing now)])
      (Watch.report timing w) := by
  have hdispatches : dispatches g s (past ++ [.client (.qoeMetrics timing now)]) =
      dispatches g s past := by
    rw [dispatches_concat hrun]
    exact List.append_nil _
  have hreports : reports (past ++ [.client (.qoeMetrics timing now)]) =
      reports past ++ [timing] := reports_concat past _
  have hevident := h.evident.report timing
  refine ⟨h.epoch, h.link, h.minRenderReports, ?_, ?_, ?_, ?_⟩
  · intro hseen
    rw [any_isAck_concat, h.acked hseen]
    rfl
  · rw [hdispatches]
    exact ⟨h.paced.attempts, h.paced.few, h.paced.last, h.paced.apart, h.paced.armed⟩
  · rw [hdispatches, hreports]
    exact hevident
  · intro early hpre hnone hbright
    rcases List.prefix_concat_iff.mp hpre with rfl | hpast
    · rw [hdispatches] at hnone
      rw [hreports] at hbright
      have hstreak := hevident.streak (.inr hnone)
      have hlt := g.blankParams.minRenderReports.toNat_lt
      rcases h.paced.attempts with hcount | hmax
      · left
        have hattempts : w.attempts = 0 := by
          rw [hnone] at hcount
          exact UInt32.toNat_inj.mp hcount
        have hlatched : w.minRenderReports ≤ (w.qoe.record timing).nonzeroStreak := by
          have hrecorded : (Watch.report timing w).qoe.nonzeroStreak =
              (w.qoe.record timing).nonzeroStreak := rfl
          rw [h.minRenderReports, UInt64.le_iff_toNat_le, ← hrecorded]
          omega
        simp only [Watch.report, hattempts, hlatched, decide_true, Bool.and_true]
        cases (w.qoe.record timing).presentedClean <;> rfl
      · exact .inr hmax
    · refine (h.clean early hpast hnone hbright).imp (fun hlatched => ?_) fun hmax => hmax
      have hkept : (w.qoe.record timing).presentedClean = w.qoe.presentedClean := by
        simp only [QoeEvidence.record]
        split <;> rfl
      simp only [Watch.report, hkept, hlatched, Bool.true_or]

/-- An acknowledgement is taken in. -/
theorem Traced.ack (h : Traced g start rtt s past w)
    (hrun : run (Pipeline.step g) s past = some u) (frameId queueDepth : UInt32) (now : Instant) :
    Traced g start rtt s (past ++ [.client (.frameAck frameId queueDepth now)])
      (Watch.ack queueDepth w) := by
  have hkept := h.kept (a := .client (.frameAck frameId queueDepth now)) hrun rfl rfl
  refine ⟨hkept.epoch, hkept.link, hkept.minRenderReports, ?_, ?_, ?_, hkept.clean⟩
  · intro hseen
    rw [any_isAck_concat, Bool.or_eq_true]
    rcases Bool.or_eq_true_iff.mp hseen with hbefore | hack
    · exact .inl (h.acked hbefore)
    · exact .inr hack
  · exact ⟨hkept.paced.attempts, hkept.paced.few, hkept.paced.last, hkept.paced.apart,
      hkept.paced.armed⟩
  · exact ⟨hkept.evident.zero, hkept.evident.streak, hkept.evident.quiet, hkept.evident.reported⟩

/-- A capture is judged. -/
theorem Traced.detect (h : Traced g start rtt s past w)
    (hadmitted : GfxFactory.Admitted g.blankParams)
    (hrun : run (Pipeline.step g) s past = some u) {i : CaptureInput} {w' : Watch}
    {drops drops' : UInt32} {recovery : Option Recovery}
    (hdispatch : dispatch g u (.admitCapture i) = recovery.map fun r => (i.nowBlank, r))
    (hdetected : Detected g.blankParams i.nowBlank drops w drops' w' recovery) :
    Traced g start rtt s (past ++ [.admitCapture i]) w' := by
  cases hdetected with
  | quiet => exact h.kept hrun hdispatch rfl
  | capped =>
    have hkept := h.kept (a := .admitCapture i) hrun hdispatch rfl
    refine ⟨hkept.epoch, hkept.link, hkept.minRenderReports, hkept.acked, ?_, ?_, ?_⟩
    · exact ⟨.inr rfl, hkept.paced.few, hkept.paced.last, hkept.paced.apart, hkept.paced.armed⟩
    · exact ⟨hkept.evident.zero, hkept.evident.streak, hkept.evident.quiet,
        hkept.evident.reported⟩
    · exact fun _ _ _ _ => .inr rfl
  | acted r o mult due chosen uncapped =>
    have hgrounds := grounds_of_due hadmitted due
    have hdispatches : dispatches g s (past ++ [.admitCapture i]) =
        dispatches g s past ++ [(i.nowBlank, r)] := by
      rw [dispatches_concat hrun, hdispatch]
      rfl
    have hreports : reports (past ++ [.admitCapture i]) = reports past := by
      rw [reports_concat]
      exact List.append_nil _
    refine ⟨h.epoch, h.link, h.minRenderReports, ?_, ?_, ?_, ?_⟩
    · intro hseen
      rw [any_isAck_concat, h.acked hseen]
      rfl
    · rw [hdispatches]
      exact h.paced.attempt hadmitted hgrounds r
    · rw [hdispatches, hreports]
      exact h.evident.attempt h.paced hadmitted hgrounds r
    · intro early hpre hnone hbright
      rcases List.prefix_concat_iff.mp hpre with rfl | hpast
      · rw [hdispatches] at hnone
        exact absurd hnone (List.append_ne_nil_of_right_ne_nil _ (by simp))
      · have hleft := hgrounds.left
        rcases h.clean early hpast hnone hbright with hlatched | hmax
        · rw [hgrounds.notClean] at hlatched
          cases hlatched
        · rw [hmax] at hleft
          omega

/-- One step of a connection that goes on. -/
theorem traced_step (hadmitted : GfxFactory.Admitted g.blankParams)
    (hrun : run (Pipeline.step g) s past = some u) (hwatch : u.watch = some w)
    (h : Traced g start rtt s past w) (hgoes : goesOn a = true)
    (hstep : u.step g a = some u') :
    ∃ w', u'.watch = some w' ∧ Traced g start rtt s (past ++ [a]) w' := by
  cases watched_step hstep with
  | build now => cases hgoes
  | report timing now _ watch =>
    refine ⟨_, ?_, h.report hrun timing now⟩
    rw [watch, hwatch]
    rfl
  | ack frameId queueDepth now _ watch =>
    refine ⟨_, ?_, h.ack hrun frameId queueDepth now⟩
    rw [watch, hwatch]
    rfl
  | detect i w₀ w' recovery before after dispatched detected =>
    rw [hwatch, Option.some.injEq] at before
    rw [← before] at detected
    exact ⟨w', after, h.detect hadmitted hrun dispatched detected⟩
  | kept _ silent dispatched _ watch =>
    refine ⟨w, by rw [watch, hwatch], h.kept hrun dispatched ?_⟩
    cases a with
    | client e => cases e <;> first | rfl | cases silent
    | _ => rfl

/-- A connection starts with nothing known. -/
theorem traced_fresh (hadmitted : GfxFactory.Admitted g.blankParams)
    (hrender : g.minRenderReports = g.blankParams.minRenderReports) :
    Traced g start rtt s [] (Watch.fresh g rtt start) where
  epoch := rfl
  link := rfl
  minRenderReports := hrender
  acked := by simp [Watch.fresh]
  paced := by
    refine ⟨.inl rfl, Nat.zero_le _, ?_, .nil, ?_⟩
    · simp [dispatches, outputs]
    · simp [dispatches, outputs]
  evident := by
    refine ⟨?_, fun _ => rfl, fun _ hacted => absurd rfl hacted, ?_⟩
    · exact fun hzero => absurd hzero (Nat.lt_irrefl 0)
    · rintro (hzeros | hacted)
      · exact absurd hzeros (Nat.lt_irrefl 0)
      · exact absurd rfl hacted
  clean := by
    intro early hpre _ hbright
    have hpositive := UInt64.lt_iff_toNat_lt.mp hadmitted.minRenderReports
    have hnone : nonzeroRun (reports early) = 0 := by
      rw [List.prefix_nil.mp hpre]
      rfl
    omega

/-- What is known of a connection all along it. -/
theorem traced_run (hadmitted : GfxFactory.Admitted g.blankParams)
    (hrender : g.minRenderReports = g.blankParams.minRenderReports)
    (hfresh : s.watch = some (Watch.fresh g rtt start)) (hgoes : ∀ b ∈ past, goesOn b = true)
    (hrun : run (Pipeline.step g) s past = some u) :
    ∃ w, u.watch = some w ∧ Traced g start rtt s past w := by
  have hinit : Traced g start rtt s [] (Watch.fresh g rtt start) :=
    traced_fresh hadmitted hrender
  refine (run_history (fun past u => run (Pipeline.step g) s past = some u ∧
    ((∀ b ∈ past, goesOn b = true) → ∃ w, u.watch = some w ∧ Traced g start rtt s past w))
    ?_ ⟨rfl, fun _ => ⟨_, hfresh, hinit⟩⟩ hrun).2 hgoes
  rintro past u a u' ⟨hpast, htraced⟩ hstep
  refine ⟨?_, fun hgoes => ?_⟩
  · rw [run_append, hpast]
    exact run_cons_some.mpr ⟨u', hstep, rfl⟩
  · obtain ⟨w, hwatch, hw⟩ := htraced fun b hb => hgoes b (List.mem_append_left _ hb)
    exact traced_step hadmitted hpast hwatch hw (hgoes a (by simp)) hstep

end Run

/-- What happened on a connection justifies an action now. -/
structure Justified (g : Factory) (start : Instant) (rtt : UInt32) (s : Pipeline)
    (past : List Action) (now : Instant) : Prop where
  left : (dispatches g s past).length < g.blankParams.maxAttempts.toNat
  apart : ∀ d ∈ dispatches g s past,
    g.blankParams.retryInterval ≤ now.saturatingDurationSince d.1
  armed : g.blankParams.armDelay ≤ now.saturatingDurationSince start
  /-- There was no clean presentation before the first action. -/
  unclean : ∀ early, early <+: past → dispatches g s early = [] →
    nonzeroRun (reports early) < g.blankParams.minRenderReports.toNat
  dark : nonzeroRun (reports past) < g.blankParams.minRenderReports.toNat
  acked : past.any isAck = true
  reported : reports past ≠ []
  fast : ¬(0 < g.blankParams.maxRttMs ∧ g.blankParams.maxRttMs ≤ rtt)

/-- An action that is dispatched is justified. -/
theorem justified_of_dispatch {g : Factory} (hadmitted : GfxFactory.Admitted g.blankParams)
    {start : Instant} {rtt : UInt32} {s u u' : Pipeline} {past : List Action} {w : Watch}
    (hwatch : u.watch = some w) (h : Traced g start rtt s past w) {a : Action}
    (hstep : u.step g a = some u') {now : Instant} {r : Recovery}
    (hdispatch : dispatch g u a = some (now, r)) : Justified g start rtt s past now := by
  cases watched_step hstep with
  | build | report | ack => cases hdispatch
  | kept _ _ dispatched =>
    rw [dispatched] at hdispatch
    cases hdispatch
  | detect i w₀ w' recovery before after dispatched detected =>
    rw [hwatch, Option.some.injEq] at before
    rw [← before] at detected
    rw [dispatched] at hdispatch
    generalize u'.cells.consecutiveBlankDrops = drops' at detected
    cases detected with
    | quiet | capped => cases hdispatch
    | acted r o mult due =>
      cases hdispatch
      have hgrounds := grounds_of_due hadmitted due
      obtain ⟨hdark, hreported⟩ := h.evident.dark h.paced hadmitted hgrounds
      refine ⟨?_, ?_, ?_, ?_, hdark, h.acked hgrounds.egfxAcksSeen, hreported, ?_⟩
      · rw [← h.paced.attempts_eq hgrounds.left]
        exact hgrounds.left
      · have hpaced := (h.paced.attempt hadmitted hgrounds r).apart
        intro d hd
        exact (List.pairwise_append.mp hpaced).2.2 d hd _ (List.mem_singleton_self _)
      · rw [← h.epoch]
        exact hgrounds.armed
      · intro early hpre hnone
        by_contra hbright
        have hleft := hgrounds.left
        rcases h.clean early hpre hnone (Nat.le_of_not_lt hbright) with hlatched | hmax
        · rw [hgrounds.notClean] at hlatched
          cases hlatched
        · rw [hmax] at hleft
          omega
      · rw [← h.link]
        exact hgrounds.fast

section Storm

variable {g : Factory} {p p' : Pipeline} {a : Action}

theorem saturatingAdd32_one {k cap : UInt32} (h : k.toNat < cap.toNat) :
    (saturatingAdd32 k 1).toNat = k.toNat + 1 := by
  have hlt := cap.toNat_lt
  have hone : (1 : UInt32).toNat = 1 := rfl
  have hsum : (k + 1).toNat = k.toNat + 1 := by
    rw [UInt32.toNat_add]
    omega
  unfold saturatingAdd32
  split
  · next hwraps =>
    rw [UInt32.lt_iff_toNat_lt] at hwraps
    omega
  · exact hsum

/-- Drops are counted, up to the cap, and cleared by an established connection only. -/
theorem counted_step (hadmitted : GfxFactory.Admitted g.blankParams)
    (hcap : p.cells.consecutiveBlankDrops.toNat ≤ g.blankParams.maxConsecutiveDrops.toNat)
    (hstep : p.step g a = some p') :
    p'.cells.consecutiveBlankDrops.toNat ≤ g.blankParams.maxConsecutiveDrops.toNat ∧
      drops (dispatch g p a).toList ≤ p'.cells.consecutiveBlankDrops.toNat ∧
      (isEstablished g p = false → p'.cells.consecutiveBlankDrops.toNat =
        p.cells.consecutiveBlankDrops.toNat + drops (dispatch g p a).toList) := by
  have hsame : p'.cells.consecutiveBlankDrops = p.cells.consecutiveBlankDrops →
      dispatch g p a = none → p'.cells.consecutiveBlankDrops.toNat ≤
          g.blankParams.maxConsecutiveDrops.toNat ∧
        drops (dispatch g p a).toList ≤ p'.cells.consecutiveBlankDrops.toNat ∧
        (isEstablished g p = false → p'.cells.consecutiveBlankDrops.toNat =
          p.cells.consecutiveBlankDrops.toNat + drops (dispatch g p a).toList) := by
    intro hdrops hdispatch
    rw [hdrops, hdispatch]
    exact ⟨hcap, Nat.zero_le _, fun _ => rfl⟩
  cases watched_step hstep with
  | build _ hdrops | report _ _ hdrops | ack _ _ _ hdrops => exact hsame hdrops rfl
  | kept _ _ dispatched hdrops => exact hsame hdrops dispatched
  | detect i w w' recovery before after dispatched detected =>
    have hcounted : countedDrops g.blankParams p.cells.consecutiveBlankDrops w = 0 ∨
        countedDrops g.blankParams p.cells.consecutiveBlankDrops w =
          p.cells.consecutiveBlankDrops := by
      unfold countedDrops
      split
      · exact .inl rfl
      · exact .inr rfl
    have hkept : isEstablished g p = false →
        countedDrops g.blankParams p.cells.consecutiveBlankDrops w =
          p.cells.consecutiveBlankDrops := by
      intro hunestablished
      rw [isEstablished, before, Option.any_some] at hunestablished
      rw [countedDrops, stormGuardShouldReset, hunestablished, Bool.and_false]
      rfl
    have hzero : (0 : UInt32).toNat = 0 := rfl
    have hcountedCap : (countedDrops g.blankParams p.cells.consecutiveBlankDrops w).toNat ≤
        g.blankParams.maxConsecutiveDrops.toNat := by
      rcases hcounted with hcleared | hstays
      · rw [hcleared]
        omega
      · rw [hstays]
        exact hcap
    rw [dispatched]
    generalize p'.cells.consecutiveBlankDrops = drops' at detected ⊢
    cases detected with
    | quiet _ either =>
      refine ⟨?_, Nat.zero_le _, fun hunestablished => ?_⟩
      · rcases either with heq | heq
        · rw [heq]
          exact hcap
        · rw [heq]
          exact hcountedCap
      · rcases either with heq | heq
        · rw [heq]
          rfl
        · rw [heq, hkept hunestablished]
          rfl
    | capped =>
      refine ⟨hcountedCap, Nat.zero_le _, fun hunestablished => ?_⟩
      rw [hkept hunestablished]
      rfl
    | acted r o mult due chosen uncapped =>
      have hlone : drops (some (i.nowBlank, r)).toList = if r.action = .drop then 1 else 0 := by
        by_cases hdrop : r.action = .drop <;> simp [drops, hdrop]
      rw [Option.map_some, hlone]
      by_cases hdrop : r.action = .drop
      · have hroom : (countedDrops g.blankParams p.cells.consecutiveBlankDrops w).toNat <
            g.blankParams.maxConsecutiveDrops.toNat := by
          have hallowed := uncapped hdrop
          rw [blankDropCapped, decide_eq_true hadmitted.maxConsecutiveDrops, Bool.true_and,
            decide_eq_false_iff_not, UInt32.le_iff_toNat_le] at hallowed
          exact Nat.lt_of_not_le hallowed
        have hnext : (saturatingAdd32 (countedDrops g.blankParams
            p.cells.consecutiveBlankDrops w) 1).toNat =
            (countedDrops g.blankParams p.cells.consecutiveBlankDrops w).toNat + 1 :=
          saturatingAdd32_one hroom
        rw [if_pos hdrop, if_pos hdrop, hnext]
        refine ⟨hroom, Nat.le_add_left 1 _, fun hunestablished => ?_⟩
        rw [hkept hunestablished]
      · rw [if_neg hdrop, if_neg hdrop]
        refine ⟨hcountedCap, Nat.zero_le _, fun hunestablished => ?_⟩
        rw [hkept hunestablished]
        rfl

/-- The drops of a run on which no connection is established are all counted. -/
theorem counted_run (hadmitted : GfxFactory.Admitted g.blankParams) {acts : List Action}
    (hcap : p.cells.consecutiveBlankDrops.toNat ≤ g.blankParams.maxConsecutiveDrops.toNat)
    (hdark : Meets (Pipeline.step g) (fun p _ => isEstablished g p = false) p acts)
    (hrun : run (Pipeline.step g) p acts = some p') :
    p.cells.consecutiveBlankDrops.toNat + drops (dispatches g p acts) ≤
      g.blankParams.maxConsecutiveDrops.toNat := by
  induction acts generalizing p with
  | nil => exact hcap
  | cons a rest ih =>
    obtain ⟨q, hq, hrest⟩ := run_cons_some.mp hrun
    obtain ⟨hcap', -, hcounts⟩ := counted_step hadmitted hcap hq
    have htotal := ih hcap' (hdark.2 q hq) hrest
    rw [hcounts hdark.1] at htotal
    have hsplit : dispatches g p (a :: rest) = (dispatch g p a).toList ++ dispatches g q rest := by
      simp only [dispatches, outputs, hq, Option.map_some, Option.getD_some]
    rw [hsplit, drops, List.countP_append]
    simp only [drops] at htotal
    omega

end Storm

/-- Between two moments at which a connection is established no more drops are dispatched than
the cap; and on one connection the actions are no more than the attempts, apart by the retry
interval, and each is justified by what happened on the connection before. -/
theorem recovery_never_storms (args : GfxArgs) (env : GfxEnv) (o : Outside) (before : List Action)
    (p : Pipeline)
    (hbefore : run (Pipeline.step (Factory.new args env)) (.new o) before = some p) :
    (∀ a rest q q', p.step (Factory.new args env) a = some q →
        Meets (Pipeline.step (Factory.new args env))
          (fun p _ => isEstablished (Factory.new args env) p = false) q rest →
        run (Pipeline.step (Factory.new args env)) q rest = some q' →
        drops (dispatches (Factory.new args env) p (a :: rest)) ≤
          (Factory.new args env).blankParams.maxConsecutiveDrops.toNat) ∧
      ∀ now s past u, p.step (Factory.new args env) (.build now) = some s →
        (∀ b ∈ past, goesOn b = true) →
        run (Pipeline.step (Factory.new args env)) s past = some u →
        (dispatches (Factory.new args env) s past).length ≤
            (Factory.new args env).blankParams.maxAttempts.toNat ∧
          (dispatches (Factory.new args env) s past).Pairwise (fun d e =>
            (Factory.new args env).blankParams.retryInterval ≤
              e.1.saturatingDurationSince d.1) ∧
          ∀ a u' now' r, u.step (Factory.new args env) a = some u' →
            dispatch (Factory.new args env) u a = some (now', r) →
            Justified (Factory.new args env) now p.cells.linkRttMs s past now' := by
  have hadmitted : GfxFactory.Admitted (Factory.new args env).blankParams :=
    admitted_blankParams env.blank
  have hrender : (Factory.new args env).minRenderReports =
      (Factory.new args env).blankParams.minRenderReports := rfl
  generalize Factory.new args env = g at *
  have hcap := run_invariant_of_step (fun p : Pipeline =>
      p.cells.consecutiveBlankDrops.toNat ≤ g.blankParams.maxConsecutiveDrops.toNat)
    (fun _ _ _ hcap hstep => (counted_step hadmitted hcap hstep).1) (Nat.zero_le _) hbefore
  constructor
  · intro a rest q q' hstep hdark hrun
    obtain ⟨hcap', hlone, -⟩ := counted_step hadmitted hcap hstep
    have htotal := counted_run hadmitted hcap' hdark hrun
    have hsplit : dispatches g p (a :: rest) = (dispatch g p a).toList ++ dispatches g q rest := by
      simp only [dispatches, outputs, hstep, Option.map_some, Option.getD_some]
    rw [hsplit, drops, List.countP_append]
    simp only [drops] at hlone htotal
    omega
  · intro now s past u hbuild hgoes hrun
    have hfresh : s.watch = some (Watch.fresh g p.cells.linkRttMs now) := by
      cases watched_step hbuild with
      | build _ _ watch => exact watch
      | kept _ silent => cases silent
    obtain ⟨w, hwatch, htraced⟩ := traced_run hadmitted hrender hfresh hgoes hrun
    refine ⟨htraced.paced.few, htraced.paced.apart, ?_⟩
    intro a u' now' r hstep hdispatch
    exact justified_of_dispatch hadmitted hwatch htraced hstep hdispatch

/-- A factory with the detector switched on. -/
def watchfulFactory : Factory :=
  .new
    { fps := 60
      bitrateBps := 20000000
      keyframeSecs := 2
      maxInFlight := 3
      adaptiveBitrate := false
      telemetry := true } { GfxEnv.unset with blankRecovery := true }

/-- A client acknowledges a frame, and then reports that it presents nothing. -/
def presentingNothing : List Action :=
  [.client (.capabilities [.v8_1 true]), .client .ready, captureAt 2 false 1, encodeAt 2 true,
    .countSubmission, .client (.frameAck 1 0 (.fromSecs 3)),
    .client (.qoeMetrics 0 (.fromSecs 3))]

/-- A session that presents nothing is dropped once. -/
theorem recovery_never_storms_presentingNothing :
    drops (dispatches watchfulFactory (.new (quietOutside 0))
        (.build (.fromSecs 1) :: presentingNothing ++ [captureAt 6 false 1])) = 1 ∧
      drops (dispatches watchfulFactory (.new (quietOutside 0))
        (.build (.fromSecs 1) :: presentingNothing ++ [captureAt 6 false 1])) ≤
          watchfulFactory.blankParams.maxConsecutiveDrops.toNat ∧
      ∃ s, Pipeline.step watchfulFactory (.new (quietOutside 0)) (.build (.fromSecs 1)) = some s ∧
        Justified watchfulFactory (.fromSecs 1) 0 s presentingNothing (.fromSecs 6) := by
  have hdrops : drops (dispatches watchfulFactory (.new (quietOutside 0))
      (.build (.fromSecs 1) :: presentingNothing ++ [captureAt 6 false 1])) = 1 := by
    decide +kernel
  have hruns : (Pipeline.step watchfulFactory (.new (quietOutside 0)) (.build (.fromSecs 1))).any
      (fun s => meetsBool (Pipeline.step watchfulFactory)
          (fun p _ => !isEstablished watchfulFactory p) s
          (presentingNothing ++ [captureAt 6 false 1]) &&
        (run (Pipeline.step watchfulFactory) s presentingNothing).any fun u =>
          (Pipeline.step watchfulFactory u (captureAt 6 false 1)).isSome &&
            (dispatch watchfulFactory u (captureAt 6 false 1)).any fun d =>
              decide (d.1.nanos = (Instant.fromSecs 6).nanos)) = true := by
    decide +kernel
  have hgoes : ∀ b ∈ presentingNothing, goesOn b = true := by decide
  simp only [Option.any_eq_true, Bool.and_eq_true, meetsBool_iff, Bool.not_eq_true',
    decide_eq_true_eq, Option.isSome_iff_exists] at hruns
  obtain ⟨s, hbuild, hdark, u, hrun, ⟨u', hstep⟩, ⟨now, r⟩, hdispatch, hnow⟩ := hruns
  obtain ⟨hbound, hconnection⟩ := recovery_never_storms _ _ (quietOutside 0) [] _ rfl
  have hwhole : run (Pipeline.step watchfulFactory) s
      (presentingNothing ++ [captureAt 6 false 1]) = some u' := by
    rw [run_append, hrun]
    exact run_cons_some.mpr ⟨u', hstep, rfl⟩
  have hjustified := (hconnection _ s presentingNothing u hbuild hgoes hrun).2.2 _ u' now r hstep
    hdispatch
  have hsix : now = .fromSecs 6 := Instant.ext hnow
  rw [hsix] at hjustified
  exact ⟨hdrops, hbound _ _ s u' hbuild hdark hwhole, s, hbuild, hjustified⟩

end Macrdp.PipelineSystem.BlankStorm
