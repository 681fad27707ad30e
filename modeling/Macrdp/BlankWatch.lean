import Macrdp.PipelineWiring

/-!
# What the blank detector watches

The detector's evidence about a connection, and the count of drops across
connections, change at a few steps of the pipeline only: a server is built, a
report or an acknowledgement arrives, a capture is judged.
-/

namespace Macrdp

open PlatformTime GfxContext GfxFactory GfxLive RateControl BlankRecovery GfxPipeline

/-- What the detector knows of a connection. -/
structure GfxContext.Watch where
  epoch : Instant
  egfxAcksSeen : Bool
  qoe : QoeEvidence
  attempts : UInt32
  lastAttempt : Instant
  linkRttMs : UInt32
  minRenderReports : UInt64

/-- The detector's part of a context. -/
def GfxContext.ConnectionContext.watch (ctx : ConnectionContext) : Watch :=
  ⟨ctx.epoch, ctx.egfxAcksSeen, ctx.qoe, ctx.blankRecoveryAttempts, ctx.lastBlankRecoveryAt,
    ctx.linkRttMs, ctx.minRenderReports⟩

namespace PipelineSystem

/-- What is known of the connection, if there is one. -/
def Pipeline.watch (p : Pipeline) : Option Watch :=
  p.cells.ctx.map fun ctx => ctx.toConnectionContext.watch

/-- The recovery action an admission comes to. -/
def recoveryOf : Admission → Option Recovery
  | .recover r => some r
  | _ => none

/-- The recovery action a step of the pipeline dispatches, and when. -/
def dispatch (g : Factory) (p : Pipeline) : Action → Option (Instant × Recovery)
  | .admitCapture i =>
    (recoveryOf (GfxPipeline.admitCapture g p.cells p.pipes i).result).map fun r => (i.nowBlank, r)
  | _ => none

/-- What is known of a connection at first. -/
def Watch.fresh (g : Factory) (linkRttMs : UInt32) (now : Instant) : Watch :=
  ⟨now, false, .default, 0, now, linkRttMs, g.minRenderReports⟩

/-- A report is taken into the evidence. -/
def Watch.report (timeDiffDr : UInt16) (w : Watch) : Watch :=
  let qoe := w.qoe.record timeDiffDr
  { w with qoe := { qoe with
      presentedClean := qoe.presentedClean || (!qoe.presentedClean && decide (w.attempts = 0) &&
        decide (w.minRenderReports ≤ qoe.nonzeroStreak)) } }

/-- An acknowledgement with a queue depth is taken into the evidence. -/
def Watch.ack (queueDepth : UInt32) (w : Watch) : Watch :=
  { w with egfxAcksSeen := w.egfxAcksSeen || decide (queueDepth ≠ 0xffffffff) }

/-- An attempt is made. -/
def Watch.attempt (now : Instant) (w : Watch) : Watch :=
  { w with attempts := w.attempts + 1, lastAttempt := now, qoe := resetStreaks w.qoe }

/-- The drops that count, once an established connection has cleared them. -/
def countedDrops (params : BlankRecoveryParams) (drops : UInt32) (w : Watch) : UInt32 :=
  if stormGuardShouldReset w.qoe params.establishedRenderReports drops then 0 else drops

/-- An attempt is due on what is known of a connection. -/
structure Due (params : BlankRecoveryParams) (now : Instant) (w : Watch) (o : Observation)
    (mult : ℚ) : Prop where
  gate : blankRttGate w.linkRttMs params.maxRttMs = some mult
  fired : shouldBlankRecover w.qoe o (blankParamsScaled params mult) = true
  egfxAcksSeen : o.egfxAcksSeen = w.egfxAcksSeen
  sinceConnect : o.sinceConnect = now.saturatingDurationSince w.epoch
  sinceLastAttempt : o.sinceLastAttempt = now.saturatingDurationSince w.lastAttempt
  attempts : o.attempts = w.attempts

/-- What the detector makes of the count of drops and of what is known of a connection. -/
inductive Detected (params : BlankRecoveryParams) (now : Instant) (drops : UInt32) (w : Watch) :
    UInt32 → Watch → Option Recovery → Prop
  | quiet (counted : UInt32) (either : counted = drops ∨ counted = countedDrops params drops w) :
      Detected params now drops w counted w none
  /-- A drop over the cap is withheld, and with it all further attempts. -/
  | capped : Detected params now drops w (countedDrops params drops w)
      { w with attempts := params.maxAttempts } none
  | acted (r : Recovery) (o : Observation) (mult : ℚ) (due : Due params now w o mult)
      (chosen : r.action = chooseAction params (w.attempts + 1))
      (uncapped : r.action = .drop →
        blankDropCapped (countedDrops params drops w) params.maxConsecutiveDrops = false) :
      Detected params now drops w
        (if r.action = .drop then saturatingAdd32 (countedDrops params drops w) 1
          else countedDrops params drops w) (Watch.attempt now w) (some r)

theorem detected_attempt {params : BlankRecoveryParams} {now : Instant} {drops : UInt32}
    {w : Watch} {ctx : ConnectionContext} (hwatch : ctx.watch = w) {o : Observation} {mult : ℚ}
    (hdue : Due params now w o mult) :
    Detected params now drops w (attempt params now (countedDrops params drops w) ctx).drops
      (attempt params now (countedDrops params drops w) ctx).ctx.watch
      (attempt params now (countedDrops params drops w) ctx).recovery := by
  subst hwatch
  simp only [attempt]
  split
  · exact .capped
  · next hallowed =>
    have hacted : Detected params now drops ctx.watch _ _ _ := .acted
      ⟨chooseAction params (ctx.blankRecoveryAttempts + 1), ctx.serverHandle, ctx.dims.1,
        ctx.dims.2, ctx.blankRecoveryAttempts + 1⟩ o mult hdue rfl
      fun hdrop => Bool.eq_false_of_not_eq_true fun hcapped => hallowed ⟨hdrop, hcapped⟩
    exact hacted

/-- The detector works on what is known of a connection. -/
theorem detected_detect (enabled : Bool) (params : BlankRecoveryParams) (now : Instant)
    (drops : UInt32) (ctx : ConnectionContext) :
    Detected params now drops ctx.watch (detect enabled params now drops ctx).drops
      (detect enabled params now drops ctx).ctx.watch
      (detect enabled params now drops ctx).recovery := by
  have hcounted : (if stormGuardShouldReset ctx.qoe params.establishedRenderReports drops then 0
      else drops) = countedDrops params drops ctx.watch := rfl
  unfold detect
  split
  · simp only [hcounted]
    split
    · next hfires =>
      obtain ⟨mult, hgate, hfired⟩ := (Option.any_eq_true _ _).mp hfires
      exact detected_attempt rfl ⟨hgate, hfired, rfl, rfl, rfl, rfl⟩
    · exact .quiet _ (.inr rfl)
  · exact .quiet _ (.inl rfl)

section Capture

variable (g : Factory) (cells : Cells)

theorem watch_takeRequests (i : CaptureInput) (ctx : LiveContext) :
    (takeRequests g cells i ctx).watch = ctx.watch := by
  simp only [takeRequests]
  split <;> split <;> split <;> rfl

theorem watch_setupLocked (desktopSize : UInt16 × UInt16) (i : SetupInput) (pipes : List Pipe)
    (ctx : LiveContext) : (setupLocked g desktopSize i pipes ctx).ctx.watch = ctx.watch := by
  have hmake : ∀ surfaced : LiveContext,
      (setupEncoder g i pipes surfaced).ctx.watch = surfaced.watch := by
    intro surfaced
    unfold setupEncoder
    split
    · split <;> rfl
    · rfl
  have hsurface : (setupSurface desktopSize i ctx).1.watch = ctx.watch := by
    unfold setupSurface
    split
    · split <;> rfl
    · rfl
  simp only [setupLocked]
  split
  · rw [hmake, hsurface]
  · exact hsurface

theorem watch_gates (i : CaptureInput) (ctx : LiveContext) :
    (gates g cells i ctx).1.watch = ctx.watch ∧ recoveryOf (gates g cells i ctx).2 = none := by
  simp only [gates]
  generalize hpassed : (if g.adaptiveEnabled = true then
    { ctx with lastAdaptiveFpsPass := i.nowFpsPass } else ctx) = passed
  have hwatch : passed.watch = ctx.watch := by
    rw [← hpassed]
    split <;> rfl
  split
  · exact ⟨rfl, rfl⟩
  · split
    · exact ⟨hwatch, rfl⟩
    · split
      · split <;> exact ⟨hwatch, rfl⟩
      · exact ⟨hwatch, rfl⟩

/-- What a judged capture leaves of the count of drops and of what is known. -/
theorem detected_judge (pipes : List Pipe) (i : CaptureInput) (ctx : LiveContext) :
    ∃ ctx', (judge g cells pipes i ctx).cells.ctx = some ctx' ∧
      Detected g.blankParams i.nowBlank cells.consecutiveBlankDrops ctx.watch
        (judge g cells pipes i ctx).cells.consecutiveBlankDrops ctx'.watch
        (recoveryOf (judge g cells pipes i ctx).result) := by
  have hfound := detected_detect g.blankRecoveryEnabled g.blankParams i.nowBlank
    cells.consecutiveBlankDrops ctx.toConnectionContext
  simp only [judge]
  generalize detect g.blankRecoveryEnabled g.blankParams i.nowBlank
    cells.consecutiveBlankDrops ctx.toConnectionContext = found at hfound
  cases hrecovery : found.recovery with
  | some r =>
    rw [hrecovery] at hfound
    exact ⟨_, rfl, hfound⟩
  | none =>
    rw [hrecovery] at hfound
    have hgates := watch_gates g { cells with consecutiveBlankDrops := found.drops } i
      { ctx with toConnectionContext := found.ctx }
    refine ⟨_, rfl, ?_⟩
    dsimp only
    rw [hgates.1, hgates.2]
    exact hfound

/-- What a capture leaves of the count of drops and of what is known. -/
theorem detected_admitCapture (pipes : List Pipe) (i : CaptureInput) :
    ((GfxPipeline.admitCapture g cells pipes i).cells.consecutiveBlankDrops =
          cells.consecutiveBlankDrops ∧
        (GfxPipeline.admitCapture g cells pipes i).cells.ctx.map (fun ctx => ctx.watch) =
          cells.ctx.map (fun ctx => ctx.watch) ∧
        recoveryOf (GfxPipeline.admitCapture g cells pipes i).result = none) ∨
      ∃ ctx ctx', cells.ctx = some ctx ∧
        (GfxPipeline.admitCapture g cells pipes i).cells.ctx = some ctx' ∧
        Detected g.blankParams i.nowBlank cells.consecutiveBlankDrops ctx.watch
          (GfxPipeline.admitCapture g cells pipes i).cells.consecutiveBlankDrops ctx'.watch
          (recoveryOf (GfxPipeline.admitCapture g cells pipes i).result) := by
  unfold GfxPipeline.admitCapture
  split
  · next hnone => exact .inl ⟨rfl, by rw [hnone], rfl⟩
  · next ctx hctx =>
    split
    · exact .inl ⟨rfl, rfl, rfl⟩
    · split
      · exact .inl ⟨rfl, rfl, rfl⟩
      · have htaken := watch_takeRequests g cells i ctx
        simp only [admitReady]
        generalize takeRequests g cells i ctx = requested at htaken
        have hsetup : (if (requested.surfaceId.isNone || requested.encoder.isNone) = true then
            setupLocked g cells.desktopSize i.setup pipes requested
            else ⟨requested, pipes, true⟩).ctx.watch = ctx.watch := by
          split
          · rw [watch_setupLocked, htaken]
          · exact htaken
        generalize (if (requested.surfaceId.isNone || requested.encoder.isNone) = true then
          setupLocked g cells.desktopSize i.setup pipes requested
          else ⟨requested, pipes, true⟩) = s at hsetup ⊢
        split
        · right
          obtain ⟨ctx', hafter, hdetected⟩ := detected_judge g { cells with
            demigrateRequest := cells.demigrateRequest ||
              (requested.demigrated && !ctx.demigrated) } s.pipes i s.ctx
          rw [hsetup] at hdetected
          exact ⟨ctx, ctx', hctx, hafter, hdetected⟩
        · refine .inl ⟨rfl, ?_, rfl⟩
          rw [hctx]
          exact congrArg some hsetup

theorem watch_adaptiveBitrateStep {now : Instant} {ctx : LiveContext}
    {stepped : LiveContext × AdaptiveActions}
    (h : adaptiveBitrateStep g cells now ctx = some stepped) :
    stepped.1.watch = ctx.watch := by
  have hedge : ∀ (onUdp : Bool) (ctx : LiveContext),
      (transportEdge g onUdp now ctx).1.watch = ctx.watch := by
    intro onUdp ctx
    simp only [transportEdge]
    split <;> rfl
  have hbackoff : ∀ (decision : IdrBackoff) (ctx : LiveContext),
      (setBackoff decision ctx).watch = ctx.watch := by
    intro decision ctx
    cases decision <;> rfl
  have hcontrol : ∀ (actions : AdaptiveActions) (ctx : LiveContext),
      (controlInterval g cells.congestionRetransmits now actions ctx).1.watch = ctx.watch := by
    intro actions ctx
    have hloops : (runLoops g cells.congestionRetransmits now ctx).watch = ctx.watch := rfl
    have hdecided := hbackoff (backoff g (runLoops g cells.congestionRetransmits now ctx))
      (runLoops g cells.congestionRetransmits now ctx)
    rw [hloops] at hdecided
    exact hdecided
  unfold adaptiveBitrateStep at h
  split at h
  · cases h
    rfl
  · obtain ⟨warmup, -, rfl⟩ := Option.map_eq_some_iff.mp h
    dsimp only
    split
    · exact hedge _ _
    · rw [hcontrol]
      exact hedge _ _

end Capture

/-- A step that tells the detector nothing. -/
def isSilent : Action → Bool
  | .build _ | .client (.qoeMetrics _ _) | .client (.frameAck _ _ _) => false
  | _ => true

/-- What a step of the pipeline does to the count of drops and to what is known. -/
inductive Watched (g : Factory) (p p' : Pipeline) : Action → Prop
  | build (now : Instant)
      (drops : p'.cells.consecutiveBlankDrops = p.cells.consecutiveBlankDrops)
      (watch : p'.watch = some (Watch.fresh g p.cells.linkRttMs now)) :
      Watched g p p' (.build now)
  | report (timeDiffDr : UInt16) (now : Instant)
      (drops : p'.cells.consecutiveBlankDrops = p.cells.consecutiveBlankDrops)
      (watch : p'.watch = p.watch.map (Watch.report timeDiffDr)) :
      Watched g p p' (.client (.qoeMetrics timeDiffDr now))
  | ack (frameId queueDepth : UInt32) (now : Instant)
      (drops : p'.cells.consecutiveBlankDrops = p.cells.consecutiveBlankDrops)
      (watch : p'.watch = p.watch.map (Watch.ack queueDepth)) :
      Watched g p p' (.client (.frameAck frameId queueDepth now))
  /-- A capture is judged. -/
  | detect (i : CaptureInput) (w w' : Watch) (recovery : Option Recovery)
      (before : p.watch = some w) (after : p'.watch = some w')
      (dispatched : dispatch g p (.admitCapture i) = recovery.map fun r => (i.nowBlank, r))
      (detected : Detected g.blankParams i.nowBlank p.cells.consecutiveBlankDrops w
        p'.cells.consecutiveBlankDrops w' recovery) : Watched g p p' (.admitCapture i)
  | kept (a : Action) (silent : isSilent a = true) (dispatched : dispatch g p a = none)
      (drops : p'.cells.consecutiveBlankDrops = p.cells.consecutiveBlankDrops)
      (watch : p'.watch = p.watch) : Watched g p p' a

variable {g : Factory} {p p' : Pipeline}

theorem watch_update {cells : Cells} {f : LiveContext → LiveContext}
    (h : ∀ ctx, (f ctx).watch = ctx.watch) :
    (cells.update f).ctx.map (fun ctx => ctx.watch) = cells.ctx.map (fun ctx => ctx.watch) := by
  simp only [Cells.update, Option.map_map]
  congr 1
  exact funext h

theorem watch_recordShipped (now : Instant) (frameIds : List (Option UInt32)) (ctx : LiveContext) :
    (recordShipped now frameIds ctx).watch = ctx.watch := by
  unfold recordShipped
  induction frameIds.filterMap id generalizing ctx with
  | nil => rfl
  | cons frameId rest ih => exact ih _

theorem watch_ackLive (frameId queueDepth : UInt32) (now : Instant) (ctx : LiveContext) :
    (ackLive frameId queueDepth now ctx).watch = Watch.ack queueDepth ctx.watch := by
  rw [toConnectionContext_ackLive, ackContext]
  by_cases hsuspended : queueDepth = 0xffffffff
  · simp [hsuspended, ConnectionContext.watch, Watch.ack]
  · simp [hsuspended, ConnectionContext.watch, Watch.ack]

/-- A callback of a server. -/
theorem watched_client (e : GfxEvent) (pipes : List Pipe) :
    Watched g p { p with cells := GfxLive.callback p.cells e, pipes := pipes } (.client e) := by
  cases e with
  | capabilities caps | close => exact .kept _ rfl rfl rfl (watch_update fun _ => rfl)
  | ready =>
    refine .kept _ rfl rfl rfl (watch_update fun ctx => ?_)
    simp only [onBase]
    split <;> rfl
  | frameAck frameId queueDepth now =>
    refine .ack frameId queueDepth now ?_ ?_
    · simp only [GfxLive.callback, Cells.update]
      split <;> rfl
    · have hctx : (GfxLive.callback p.cells (.frameAck frameId queueDepth now)).ctx =
          p.cells.ctx.map (ackLive frameId queueDepth now) := by
        simp only [GfxLive.callback, Cells.update]
        split <;> rfl
      simp only [Pipeline.watch, hctx, Option.map_map]
      congr 1
      exact funext fun ctx => watch_ackLive frameId queueDepth now ctx
  | qoeMetrics timeDiffDr now =>
    refine .report timeDiffDr now rfl ?_
    simp only [Pipeline.watch, GfxLive.callback, Cells.update, Option.map_map]
    rfl

/-- A ship thread tells the detector nothing. -/
theorem watch_ships {cells : Cells} {pipe : Pipe} {a : Action} {next : Pipe × Cells}
    (h : Ships cells pipe a next) :
    next.2.consecutiveBlankDrops = cells.consecutiveBlankDrops ∧
      next.2.ctx.map (fun ctx => ctx.watch) = cells.ctx.map (fun ctx => ctx.watch) ∧
      isSilent a = true ∧ dispatch g p a = none := by
  cases h with
  | exit | discard | closed | post => exact ⟨rfl, rfl, rfl, rfl⟩
  | pull | count =>
    refine ⟨rfl, watch_update fun ctx => ?_, rfl, rfl⟩
    split <;> rfl
  | read => exact ⟨rfl, watch_update fun _ => rfl, rfl, rfl⟩
  | frame id frameIds now =>
    refine ⟨rfl, watch_update fun ctx => ?_, rfl, rfl⟩
    split
    · exact watch_recordShipped now frameIds ctx
    · rfl

/-- Every step of the pipeline does one of these. -/
theorem watched_step {a : Action} (hstep : p.step g a = some p') : Watched g p p' a := by
  cases steps_of_step hstep with
  | build now _ => exact .build now rfl rfl
  | client e _ _ => exact watched_client e p.pipes
  | close _ => exact watched_client .close _
  | admitCapture i _ =>
    rcases detected_admitCapture g p.cells p.pipes i with
      ⟨hdrops, hwatch, hrecovery⟩ | ⟨ctx, ctx', hctx, hctx', hdetected⟩
    · refine .kept _ rfl ?_ hdrops hwatch
      rw [dispatch, hrecovery]
      rfl
    · refine .detect i ctx.watch ctx'.watch _ ?_ ?_ rfl hdetected
      · rw [Pipeline.watch, hctx]
        rfl
      · rw [Pipeline.watch, hctx']
        rfl
  | recover remapped r _ =>
    obtain ⟨hctx, -⟩ := runRecovery_frame p r remapped
    refine .kept _ rfl rfl ?_ (by rw [Pipeline.watch, hctx]; rfl)
    unfold Pipeline.runRecovery
    split <;> rfl
  | publishLate | stayDemigrated | output | outside o => exact .kept _ rfl rfl rfl rfl
  | publish surfaceId ctx before _ =>
    refine .kept _ rfl rfl rfl ?_
    rw [Pipeline.watch, Pipeline.watch, before]
    rfl
  | encode i forceKeyframe next _ encoded =>
    have hsteered : ∀ {ctx : LiveContext} {stepped : LiveContext × AdaptiveActions},
        p.cells.ctx = some ctx → adaptiveBitrateStep g p.cells i.now ctx = some stepped →
        some stepped.1.watch = p.watch := by
      intro ctx stepped hctx hcontrolled
      rw [Pipeline.watch, hctx, watch_adaptiveBitrateStep g p.cells hcontrolled]
      rfl
    cases encoded with
    | noContext => exact .kept _ rfl rfl rfl rfl
    | noEncoder ctx stepped before controlled | encoded ctx stepped id pipe before controlled =>
      exact .kept _ rfl rfl rfl (hsteered before controlled)
  | countSubmission _ | forceKeyframe _ | demigrate _ _ | resetForLiveResize _ =>
    exact .kept _ rfl rfl rfl (watch_update fun _ => rfl)
  | ship id a pipe next _ ships _ =>
    obtain ⟨hdrops, hwatch, hsilent, hdispatch⟩ := watch_ships (g := g) (p := p) ships
    exact .kept _ hsilent hdispatch hdrops hwatch

end PipelineSystem

end Macrdp
