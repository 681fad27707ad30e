import Macrdp.PipelineSystem

/-!
# What each section of the pipeline leaves alone

The steps of the pipeline touch different parts of a context. Two views of it are
followed through every section: what the captures and the callbacks decide, and
the counters of the frames on their way.
-/

namespace Macrdp

open PlatformTime GfxContext GfxFactory GfxLive RateControl BlankRecovery GfxPipeline

/-- What captures and callbacks decide about a connection. -/
structure GfxContext.Core where
  serverHandle : ℕ
  encoder : Option ℕ
  surfaceId : Option UInt16
  dims : UInt16 × UInt16
  isReady : Bool
  needKeyframe : Bool
  adaptiveTargetBps : UInt32
  idrBackedOff : Bool
  deriving DecidableEq

/-- The counters of the frames on their way. -/
structure GfxContext.Tally where
  submitted : UInt64
  shipped : UInt64
  encodedPending : UInt32
  deriving DecidableEq

/-- The decisions in a context. -/
def GfxContext.ConnectionContext.core (ctx : ConnectionContext) : Core :=
  ⟨ctx.serverHandle, ctx.encoder, ctx.surfaceId, ctx.dims, ctx.isReady, ctx.needKeyframe,
    ctx.adaptiveTargetBps, ctx.idrBackedOff⟩

/-- The counters in a context. -/
def GfxContext.ConnectionContext.tally (ctx : ConnectionContext) : Tally :=
  ⟨ctx.submitted, ctx.shipped, ctx.encodedPending⟩

namespace PipelineSystem

section Capture

variable (g : Factory) (cells : Cells)

/-- A capture armed a keyframe for itself or for its recovery checks. -/
def takesKeyframe (i : CaptureInput) (ctx : LiveContext) : Bool :=
  i.requestKeyframe || ackStalled g cells i.nowRecovery ctx || wedged g cells i.nowWatchdog ctx

variable {ctx ctx' : LiveContext}

/-- A keyframe armed under a condition. -/
theorem core_ite_armed {b : Bool} {armed : LiveContext}
    (h : armed.core = { ctx.core with needKeyframe := true }) :
    (if b = true then armed else ctx).core =
      { ctx.core with needKeyframe := ctx.needKeyframe || b } := by
  cases b with
  | true => simp [h]
  | false => simp [ConnectionContext.core]

/-- Taking requests decides on the keyframe only. -/
theorem core_takeRequests (i : CaptureInput) (ctx : LiveContext) :
    (takeRequests g cells i ctx).core =
      { ctx.core with needKeyframe := ctx.needKeyframe || takesKeyframe g cells i ctx } := by
  simp only [takeRequests, takesKeyframe]
  generalize hflagged : (if i.requestKeyframe = true then armKeyframe ctx else ctx) = flagged
  have hcore : flagged.core = { ctx.core with
      needKeyframe := ctx.needKeyframe || i.requestKeyframe } := by
    rw [← hflagged]
    exact core_ite_armed rfl
  have hstalled : ackStalled g cells i.nowRecovery flagged =
      ackStalled g cells i.nowRecovery ctx := by
    rw [← hflagged]
    split <;> rfl
  have hwedged : wedged g cells i.nowWatchdog flagged = wedged g cells i.nowWatchdog ctx := by
    rw [← hflagged]
    split <;> rfl
  rw [hstalled]
  generalize hrecovered : (if ackStalled g cells i.nowRecovery ctx = true then
    { armKeyframe flagged with lastRecoveryAt := i.nowRecovery } else flagged) = recovered
  have hcore' : recovered.core = { flagged.core with
      needKeyframe := flagged.needKeyframe || ackStalled g cells i.nowRecovery ctx } := by
    rw [← hrecovered]
    exact core_ite_armed rfl
  have hwedged' : wedged g cells i.nowWatchdog recovered =
      wedged g cells i.nowWatchdog flagged := by
    rw [← hrecovered]
    split <;> rfl
  have hneed : flagged.needKeyframe = (ctx.needKeyframe || i.requestKeyframe) :=
    congrArg Core.needKeyframe hcore
  have hneed' : recovered.needKeyframe =
      (flagged.needKeyframe || ackStalled g cells i.nowRecovery ctx) :=
    congrArg Core.needKeyframe hcore'
  rw [hwedged', hwedged]
  have hlast : (if wedged g cells i.nowWatchdog ctx = true then demigrate recovered
      else recovered).core = { recovered.core with
        needKeyframe := recovered.needKeyframe || wedged g cells i.nowWatchdog ctx } :=
    core_ite_armed rfl
  rw [hlast, hcore', hneed', hcore, hneed]
  simp only [Bool.or_assoc]

theorem tally_takeRequests (i : CaptureInput) (ctx : LiveContext) :
    (takeRequests g cells i ctx).tally = ctx.tally := by
  simp only [takeRequests]
  split <;> split <;> split <;> rfl

/-- A recovery action that arms a keyframe. -/
def reactivates (recovery : Option Recovery) : Bool :=
  recovery.any fun r => decide (r.action = .reactivate)

theorem core_attempt (p : BlankRecoveryParams) (now : Instant) (drops : UInt32)
    (ctx : ConnectionContext) :
    (attempt p now drops ctx).ctx.core =
      { ctx.core with
        needKeyframe := ctx.needKeyframe || reactivates (attempt p now drops ctx).recovery } := by
  simp only [attempt]
  split
  · simp [reactivates, ConnectionContext.core]
  · rfl

/-- The detector decides on the keyframe only, when it reactivates. -/
theorem core_detect (enabled : Bool) (p : BlankRecoveryParams) (now : Instant) (drops : UInt32)
    (ctx : ConnectionContext) :
    (detect enabled p now drops ctx).ctx.core =
      { ctx.core with
        needKeyframe :=
          ctx.needKeyframe || reactivates (detect enabled p now drops ctx).recovery } := by
  simp only [detect]
  split
  · split
    · exact core_attempt p now _ _
    · simp [reactivates, ConnectionContext.core]
  · simp [reactivates, ConnectionContext.core]

theorem tally_attempt (p : BlankRecoveryParams) (now : Instant) (drops : UInt32)
    (ctx : ConnectionContext) : (attempt p now drops ctx).ctx.tally = ctx.tally := by
  simp only [attempt]
  split <;> rfl

theorem tally_detect (enabled : Bool) (p : BlankRecoveryParams) (now : Instant) (drops : UInt32)
    (ctx : ConnectionContext) : (detect enabled p now drops ctx).ctx.tally = ctx.tally := by
  simp only [detect]
  split
  · split
    · exact tally_attempt p now _ _
    · rfl
  · rfl

/-- What the detector and the gates make of a capture and its context. -/
inductive Judged (ctx ctx' : LiveContext) : Admission → Prop
  | recover (r : Recovery)
      (core : ctx'.core = { ctx.core with
        needKeyframe := ctx.needKeyframe || decide (r.action = .reactivate) }) :
      Judged ctx ctx' (.recover r)
  /-- A capture that passes takes the armed keyframe with it. -/
  | submit (core : ctx'.core = { ctx.core with needKeyframe := false })
      (room : pipelineFull g ctx = false) : Judged ctx ctx' (.submit ctx.needKeyframe)
  | droppedFps (core : ctx'.core = ctx.core) : Judged ctx ctx' .droppedFps
  | droppedUdpLag (core : ctx'.core = ctx.core) : Judged ctx ctx' .droppedUdpLag
  | droppedPipeline (core : ctx'.core = ctx.core) (full : pipelineFull g ctx = true) :
      Judged ctx ctx' .droppedPipeline

/-- Whether the pipeline is full is read off the counters. -/
theorem pipelineFull_congr (h : ctx.tally = ctx'.tally) :
    pipelineFull g ctx = pipelineFull g ctx' := by
  have hread : ∀ ctx : LiveContext, pipelineFull g ctx =
      decide (g.maxInFlight.toUInt64 ≤ saturatingSub64 ctx.tally.submitted ctx.tally.shipped) :=
    fun ctx => rfl
  rw [hread, hread, h]

/-- A verdict depends on the decisions and the counters in the context. -/
theorem Judged.congr {seen : LiveContext} {result : Admission}
    (h : Judged g seen ctx' result) (hcore : seen.core = ctx.core) (htally : seen.tally = ctx.tally) :
    Judged g ctx ctx' result := by
  have hneed : seen.needKeyframe = ctx.needKeyframe := congrArg Core.needKeyframe hcore
  cases h with
  | recover r core => exact .recover r (by rw [core, hcore, hneed])
  | submit core room =>
    rw [hneed]
    exact .submit (by rw [core, hcore]) (by rw [← pipelineFull_congr g htally, room])
  | droppedFps core => exact .droppedFps (core.trans hcore)
  | droppedUdpLag core => exact .droppedUdpLag (core.trans hcore)
  | droppedPipeline core full =>
    exact .droppedPipeline (core.trans hcore) (by rw [← pipelineFull_congr g htally, full])

/-- Whatever the verdict, only the keyframe is decided on. -/
theorem Judged.keeps {result : Admission} (h : Judged g ctx ctx' result) :
    ∃ armed, ctx'.core = { ctx.core with needKeyframe := armed } := by
  cases h with
  | recover r core | submit core room => exact ⟨_, core⟩
  | droppedFps core | droppedUdpLag core | droppedPipeline core full
    => exact ⟨ctx.needKeyframe, core⟩

/-- What the gates leave. -/
theorem judged_gates (i : CaptureInput) (ctx : LiveContext) :
    (gates g cells i ctx).1.tally = ctx.tally ∧
      Judged g ctx (gates g cells i ctx).1 (gates g cells i ctx).2 := by
  simp only [gates]
  split
  · exact ⟨rfl, .droppedFps rfl⟩
  · generalize hctx : (if g.adaptiveEnabled = true then
      { ctx with lastAdaptiveFpsPass := i.nowFpsPass } else ctx) = passed
    have hcore : passed.core = ctx.core := by
      rw [← hctx]
      split <;> rfl
    have htally : passed.tally = ctx.tally := by
      rw [← hctx]
      split <;> rfl
    split
    · next hfull =>
      have hjudged : Judged g passed passed .droppedPipeline := .droppedPipeline rfl hfull
      exact ⟨htally, hjudged.congr g hcore htally⟩
    · next hroom =>
      have hroom' := Bool.eq_false_of_not_eq_true hroom
      split
      · split
        · have hjudged : Judged g passed passed .droppedUdpLag := .droppedUdpLag rfl
          exact ⟨htally, hjudged.congr g hcore htally⟩
        · refine ⟨htally, Judged.congr g (.submit ?_ hroom') hcore htally⟩
          rfl
      · refine ⟨htally, Judged.congr g (.submit ?_ hroom') hcore htally⟩
        rfl

/-- What the detector and the gates leave. -/
theorem judged_judge (pipes : List Pipe) (i : CaptureInput) (ctx : LiveContext) :
    ∃ ctx', (judge g cells pipes i ctx).cells.ctx = some ctx' ∧
      (judge g cells pipes i ctx).pipes = pipes ∧ ctx'.tally = ctx.tally ∧
      Judged g ctx ctx' (judge g cells pipes i ctx).result := by
  simp only [judge]
  generalize hfound : detect g.blankRecoveryEnabled g.blankParams i.nowBlank
    cells.consecutiveBlankDrops ctx.toConnectionContext = found
  have hcore : found.ctx.core =
      { ctx.core with needKeyframe := ctx.needKeyframe || reactivates found.recovery } := by
    rw [← hfound]
    exact core_detect _ _ _ _ _
  have htally : found.ctx.tally = ctx.tally := by
    rw [← hfound]
    exact tally_detect _ _ _ _ _
  cases hrecovery : found.recovery with
  | some r =>
    rw [hrecovery] at hcore
    exact ⟨_, rfl, rfl, htally, .recover r hcore⟩
  | none =>
    simp only [hrecovery, reactivates, Option.any_none, Bool.or_false] at hcore
    obtain ⟨hpassed, hjudged⟩ := judged_gates g { cells with consecutiveBlankDrops := found.drops }
      i { ctx with toConnectionContext := found.ctx }
    exact ⟨_, rfl, rfl, hpassed.trans htally, hjudged.congr g hcore htally⟩

/-- The surface setup sets the surface and its size, if there was no surface. -/
theorem core_setupSurface (desktopSize : UInt16 × UInt16) (i : SetupInput) (ctx : LiveContext) :
    (ctx.surfaceId.isSome = true ∧ setupSurface desktopSize i ctx = (ctx, true)) ∨
      (ctx.surfaceId = none ∧
        (setupSurface desktopSize i ctx).1.tally = ctx.tally ∧
        (((setupSurface desktopSize i ctx).2 = false ∧
            (setupSurface desktopSize i ctx).1.core = { ctx.core with dims := desktopSize }) ∨
          ∃ sid, (setupSurface desktopSize i ctx).2 = true ∧
            (setupSurface desktopSize i ctx).1.core =
              { ctx.core with dims := desktopSize, surfaceId := some sid })) := by
  rcases hsurface : ctx.surfaceId.isSome with - | -
  · right
    have hnone : ctx.surfaceId.isNone = true := by simpa using hsurface
    unfold setupSurface
    rw [if_pos hnone]
    refine ⟨Option.isNone_iff_eq_none.mp hnone, ?_⟩
    split
    · exact ⟨rfl, .inr ⟨_, rfl, rfl⟩⟩
    · exact ⟨rfl, .inl ⟨rfl, rfl⟩⟩
  · left
    have hsome : ctx.surfaceId.isNone = false := by simpa using hsurface
    unfold setupSurface
    rw [hsome]
    exact ⟨rfl, rfl⟩

/-- A context that differs in its surface and size differs by its own. -/
theorem core_of_surfaced {surfaced : LiveContext} {sid : Option UInt16}
    {dims : UInt16 × UInt16} (h : surfaced.core = { ctx.core with surfaceId := sid, dims := dims }) :
    surfaced.core = { ctx.core with surfaceId := surfaced.surfaceId, dims := surfaced.dims } := by
  have hsid : surfaced.surfaceId = sid := congrArg Core.surfaceId h
  have hdims : surfaced.dims = dims := congrArg Core.dims h
  rw [hsid, hdims]
  exact h

/-- What a setup makes of the pipes and of a context that has its surface or not. -/
inductive Prepared (threadSpawned : Bool) (pipes : List Pipe) (surfaced : LiveContext) :
    Setup → Prop
  | kept (s : Setup) (same : s.ctx = surfaced ∧ s.pipes = pipes)
      (complete : s.ok = true →
        surfaced.surfaceId.isSome = true ∧ surfaced.encoder.isSome = true) :
      Prepared threadSpawned pipes surfaced s
  /-- An encoder was made, and the counters start afresh. -/
  | made (s : Setup) (encoder : surfaced.encoder = none)
      (surface : surfaced.surfaceId.isSome = true) (ok : s.ok = threadSpawned)
      (added : s.pipes = pipes ++ [newPipe g threadSpawned surfaced])
      (tally : s.ctx.tally = ⟨0, 0, 0⟩)
      (core : s.ctx.core = { surfaced.core with encoder := some pipes.length }) :
      Prepared threadSpawned pipes surfaced s

theorem prepared_setupEncoder (i : SetupInput) (pipes : List Pipe) {surfaced : LiveContext}
    (hsurface : surfaced.surfaceId.isSome = true) :
    Prepared g i.threadSpawned pipes surfaced (setupEncoder g i pipes surfaced) := by
  unfold setupEncoder
  split
  · next hnone =>
    split
    · exact .made _ (Option.isNone_iff_eq_none.mp hnone) hsurface rfl rfl rfl rfl
    · exact .kept _ ⟨rfl, rfl⟩ fun h => Bool.noConfusion h
  · next hsome =>
    refine .kept _ ⟨rfl, rfl⟩ fun _ => ⟨hsurface, ?_⟩
    simpa [Option.isSome_iff_ne_none] using hsome

/-- What a setup leaves: a surface and its size, unless there was one, and then what it
makes of the encoder. -/
theorem prepared_setupLocked (desktopSize : UInt16 × UInt16) (i : SetupInput) (pipes : List Pipe)
    (ctx : LiveContext) :
    ∃ surfaced : LiveContext, surfaced.tally = ctx.tally ∧
      surfaced.core = { ctx.core with surfaceId := surfaced.surfaceId, dims := surfaced.dims } ∧
      (ctx.surfaceId.isSome = true → surfaced = ctx) ∧
      Prepared g i.threadSpawned pipes surfaced (setupLocked g desktopSize i pipes ctx) := by
  simp only [setupLocked]
  rcases core_setupSurface desktopSize i ctx with ⟨hsome, heq⟩ | ⟨hnone, htally, hcases⟩
  · rw [heq]
    exact ⟨ctx, rfl, rfl, fun _ => rfl, prepared_setupEncoder g i pipes hsome⟩
  · have hsurface : ctx.surfaceId.isSome = true → (setupSurface desktopSize i ctx).1 = ctx := by
      intro h
      rw [hnone] at h
      cases h
    rcases hcases with ⟨hfailed, hcore⟩ | ⟨sid, hok, hcore⟩
    · refine ⟨_, htally, core_of_surfaced hcore, hsurface, ?_⟩
      rw [hfailed]
      exact .kept _ ⟨rfl, rfl⟩ fun h => Bool.noConfusion h
    · have hsid : (setupSurface desktopSize i ctx).1.surfaceId = some sid :=
        congrArg Core.surfaceId hcore
      refine ⟨_, htally, core_of_surfaced hcore, hsurface, ?_⟩
      rw [hok]
      exact prepared_setupEncoder g i pipes (by rw [hsid]; rfl)

/-- A ready context once its requests are taken and its surface is set up, and what its
setup left. -/
structure Entered (pipes : List Pipe) (i : CaptureInput) (ctx surfaced : LiveContext)
    (s : Setup) : Prop where
  before : cells.ctx = some ctx
  ready : ctx.isReady = true
  waits : eventQueueFull g cells = false
  tally : surfaced.tally = ctx.tally
  core : surfaced.core = { ctx.core with
    surfaceId := surfaced.surfaceId
    dims := surfaced.dims
    needKeyframe := ctx.needKeyframe || takesKeyframe g cells i ctx }
  surface : ctx.surfaceId.isSome = true →
    surfaced.surfaceId = ctx.surfaceId ∧ surfaced.dims = ctx.dims
  prepared : Prepared g i.setup.threadSpawned pipes surfaced s

/-- What the first section makes of a capture. -/
inductive Captured (pipes : List Pipe) (i : CaptureInput) : Admitted → Prop
  | notActive (inactive : ∀ ctx, cells.ctx = some ctx → ctx.isReady = false) :
      Captured pipes i ⟨cells, pipes, .notActive⟩
  | droppedEventQueue (ctx : LiveContext) (before : cells.ctx = some ctx)
      (ready : ctx.isReady = true) (full : eventQueueFull g cells = true) :
      Captured pipes i ⟨cells, pipes, .droppedEventQueue⟩
  | setupFailed (ctx surfaced : LiveContext) (s : Setup)
      (entered : Entered g cells pipes i ctx surfaced s) (failed : s.ok = false) (cells' : Cells)
      (after : cells'.ctx = some s.ctx) : Captured pipes i ⟨cells', s.pipes, .setupFailed⟩
  | judged (ctx surfaced ctx' : LiveContext) (s : Setup)
      (entered : Entered g cells pipes i ctx surfaced s) (ok : s.ok = true) (cells' : Cells)
      (result : Admission) (after : cells'.ctx = some ctx') (tally : ctx'.tally = s.ctx.tally)
      (judged : Judged g s.ctx ctx' result) : Captured pipes i ⟨cells', s.pipes, result⟩

/-- A capture leaves the context and the pipes, or what its setup left of them. -/
theorem Captured.outcome {pipes : List Pipe} {i : CaptureInput} {a : Admitted}
    (h : Captured g cells pipes i a) :
    (a.cells.ctx = cells.ctx ∧ a.pipes = pipes) ∨
      ∃ ctx surfaced s ctx' armed, Entered g cells pipes i ctx surfaced s ∧
        a.cells.ctx = some ctx' ∧ a.pipes = s.pipes ∧
        ctx'.core = { s.ctx.core with needKeyframe := armed } := by
  cases h with
  | notActive | droppedEventQueue => exact .inl ⟨rfl, rfl⟩
  | setupFailed ctx surfaced s entered failed cells' after =>
    exact .inr ⟨ctx, surfaced, s, s.ctx, s.ctx.needKeyframe, entered, after, rfl, rfl⟩
  | judged ctx surfaced ctx' s entered ok cells' result after tally judged =>
    obtain ⟨armed, hcore⟩ := judged.keeps
    exact .inr ⟨ctx, surfaced, s, ctx', armed, entered, after, rfl, hcore⟩

/-- A setup that has nothing to do may as well be run. -/
theorem setupLocked_of_complete (desktopSize : UInt16 × UInt16) (i : SetupInput) (pipes : List Pipe)
    (h : (ctx.surfaceId.isNone || ctx.encoder.isNone) = false) :
    setupLocked g desktopSize i pipes ctx = ⟨ctx, pipes, true⟩ := by
  obtain ⟨hsurface, hencoder⟩ := Bool.or_eq_false_iff.mp h
  simp [setupLocked, setupSurface, setupEncoder, hsurface, hencoder]

theorem captured_admitReady (pipes : List Pipe) (i : CaptureInput)
    (hctx : cells.ctx = some ctx) (hready : ctx.isReady = true)
    (hwaits : eventQueueFull g cells = false) :
    Captured g cells pipes i (admitReady g cells pipes i ctx) := by
  have hrequested := core_takeRequests g cells i ctx
  have htaken := tally_takeRequests g cells i ctx
  simp only [admitReady]
  generalize takeRequests g cells i ctx = requested at hrequested htaken
  have hsetup : (if (requested.surfaceId.isNone || requested.encoder.isNone) = true then
      setupLocked g cells.desktopSize i.setup pipes requested else ⟨requested, pipes, true⟩) =
      setupLocked g cells.desktopSize i.setup pipes requested := by
    split
    · rfl
    · next h => exact (setupLocked_of_complete g _ _ _ (Bool.eq_false_of_not_eq_true h)).symm
  rw [hsetup]
  obtain ⟨surfaced, htally, hcore, hsurface, hprepared⟩ :=
    prepared_setupLocked g cells.desktopSize i.setup pipes requested
  have hentered : Entered g cells pipes i ctx surfaced
      (setupLocked g cells.desktopSize i.setup pipes requested) := by
    have hsid : requested.surfaceId = ctx.surfaceId := congrArg Core.surfaceId hrequested
    have hdims : requested.dims = ctx.dims := congrArg Core.dims hrequested
    refine ⟨hctx, hready, hwaits, htally.trans htaken, ?_, ?_, hprepared⟩
    · rw [hcore, hrequested]
    · intro hsome
      rw [hsurface (by rw [hsid]; exact hsome)]
      exact ⟨hsid, hdims⟩
  split
  · next hok =>
    obtain ⟨ctx', hafter, hpipes, hsettled, hjudged⟩ := judged_judge g
      { cells with
        demigrateRequest := cells.demigrateRequest || (requested.demigrated && !ctx.demigrated) }
      (setupLocked g cells.desktopSize i.setup pipes requested).pipes i
      (setupLocked g cells.desktopSize i.setup pipes requested).ctx
    generalize judge g _ _ i _ = a at hafter hpipes hjudged ⊢
    obtain ⟨cells', pipes', result⟩ := a
    simp only at hafter hpipes hjudged
    rw [hpipes]
    exact .judged ctx surfaced ctx' _ hentered hok cells' result hafter hsettled hjudged
  · next hfailed =>
    exact .setupFailed ctx surfaced _ hentered (Bool.eq_false_of_not_eq_true hfailed) _ rfl

/-- What the first section makes of every capture. -/
theorem captured_admitCapture (pipes : List Pipe) (i : CaptureInput) :
    Captured g cells pipes i (GfxPipeline.admitCapture g cells pipes i) := by
  unfold GfxPipeline.admitCapture
  split
  · next hnone =>
    refine .notActive fun ctx hctx => ?_
    rw [hnone] at hctx
    cases hctx
  · next ctx hctx =>
    split
    · next hidle =>
      refine .notActive fun ctx' hctx' => ?_
      rw [hctx] at hctx'
      cases hctx'
      simpa using hidle
    · next hready =>
      have hready' : ctx.isReady = true := by simpa using hready
      split
      · next hfull => exact .droppedEventQueue ctx hctx hready' hfull
      · next hwaits =>
        exact captured_admitReady g cells pipes i hctx hready' (Bool.eq_false_of_not_eq_true hwaits)

/-- The controller ends an interval at this capture by restoring the keyframe interval. -/
def restores (now : Instant) (ctx : LiveContext) : Bool :=
  g.adaptiveEnabled && (warmupUntil ctx now).any fun warmup =>
    let edge := transportEdge g cells.egfxOnUdp now { ctx with adaptiveWarmupUntil := warmup }
    !decide (now.saturatingDurationSince edge.1.adaptiveLastControl < g.adaptiveInterval) &&
      decide (backoff g (runLoops g cells.congestionRetransmits now
        { edge.1 with adaptiveLastControl := now }) = .restore)

/-- The controller leaves all but its own part of a context, and arms a keyframe or not. -/
structure Steered (armed : Bool) (ctx ctx' : LiveContext) : Prop where
  core : ctx'.core = { ctx.core with
    needKeyframe := ctx.needKeyframe || armed
    adaptiveTargetBps := ctx'.adaptiveTargetBps
    idrBackedOff := ctx'.idrBackedOff }
  tally : ctx'.tally = ctx.tally

theorem Steered.trans {armed armed' : Bool} {ctx'' : LiveContext}
    (h : Steered armed ctx ctx') (h' : Steered armed' ctx' ctx'') :
    Steered (armed || armed') ctx ctx'' where
  core := by
    have hneed : ctx'.needKeyframe = (ctx.needKeyframe || armed) :=
      congrArg Core.needKeyframe h.core
    rw [h'.core, hneed, h.core, Bool.or_assoc]
  tally := h'.tally.trans h.tally

theorem steered_of_eq (hcore : ctx'.core = { ctx.core with
      adaptiveTargetBps := ctx'.adaptiveTargetBps, idrBackedOff := ctx'.idrBackedOff })
    (htally : ctx'.tally = ctx.tally) : Steered false ctx ctx' :=
  ⟨by rw [Bool.or_false]; exact hcore, htally⟩

theorem steered_transportEdge (onUdp : Bool) (now : Instant) (ctx : LiveContext) :
    Steered false ctx (transportEdge g onUdp now ctx).1 := by
  simp only [transportEdge]
  split <;> exact steered_of_eq rfl rfl

theorem steered_runLoops (retransmits : UInt64) (now : Instant) (ctx : LiveContext) :
    Steered false ctx (runLoops g retransmits now ctx) := steered_of_eq rfl rfl

theorem steered_setBackoff (decision : IdrBackoff) (ctx : LiveContext) :
    Steered (decide (decision = .restore)) ctx (setBackoff decision ctx) := by
  cases decision with
  | stretch | hold => exact steered_of_eq rfl rfl
  | restore => exact ⟨by simp [setBackoff, ConnectionContext.core], rfl⟩

/-- The controller arms a keyframe exactly when it restores the keyframe interval. -/
theorem steered_adaptiveBitrateStep {now : Instant} {stepped : LiveContext × AdaptiveActions}
    (h : adaptiveBitrateStep g cells now ctx = some stepped) :
    Steered (restores g cells now ctx) ctx stepped.1 := by
  unfold adaptiveBitrateStep at h
  unfold restores
  split at h
  · next hoff =>
    cases h
    have hdisabled : g.adaptiveEnabled = false := by simpa using hoff
    rw [hdisabled]
    exact steered_of_eq rfl rfl
  · next hon =>
    have henabled : g.adaptiveEnabled = true := by simpa using hon
    obtain ⟨warmup, hwarmup, rfl⟩ := Option.map_eq_some_iff.mp h
    rw [henabled, hwarmup]
    simp only [Option.any_some, Bool.true_and]
    have hwarm : Steered false ctx { ctx with adaptiveWarmupUntil := warmup } :=
      steered_of_eq rfl rfl
    have hedge : Steered false ctx (transportEdge g cells.egfxOnUdp now
        { ctx with adaptiveWarmupUntil := warmup }).1 :=
      hwarm.trans (steered_transportEdge g cells.egfxOnUdp now _)
    generalize transportEdge g cells.egfxOnUdp now
      { ctx with adaptiveWarmupUntil := warmup } = edge at hedge ⊢
    split
    · next hearly =>
      simp only [hearly, decide_true, Bool.not_true, Bool.false_and]
      exact hedge
    · next hdue =>
      simp only [hdue, decide_false, Bool.not_false, Bool.true_and]
      have hbegun : Steered false edge.1 { edge.1 with adaptiveLastControl := now } :=
        steered_of_eq rfl rfl
      have hloops : Steered false ctx (runLoops g cells.congestionRetransmits now
          { edge.1 with adaptiveLastControl := now }) :=
        hedge.trans (hbegun.trans (steered_runLoops g _ now _))
      exact hloops.trans (steered_setBackoff _ _)

/-- The picture is whole and the platform's encoder takes it. -/
def accepts (i : EncodeInput) (e : Encoder) : Bool :=
  decide (i.stride * e.height.toNat < 2 ^ 64) && decide (i.stride * e.height.toNat ≤ i.bgraLen) &&
    i.platformAccepts

/-- What the second section makes of a capture and the pipes. -/
inductive Encoded (pipes : List Pipe) (i : EncodeInput) (forceKeyframe : Bool) :
    Submitted → Prop
  | noContext (before : cells.ctx = none) : Encoded pipes i forceKeyframe ⟨cells, pipes, false⟩
  | noEncoder (ctx : LiveContext) (stepped : LiveContext × AdaptiveActions)
      (before : cells.ctx = some ctx)
      (controlled : adaptiveBitrateStep g cells i.now ctx = some stepped)
      (missing : currentPipe pipes ctx = none) :
      Encoded pipes i forceKeyframe ⟨{ cells with ctx := some stepped.1 }, pipes, false⟩
  | encoded (ctx : LiveContext) (stepped : LiveContext × AdaptiveActions) (id : ℕ) (pipe : Pipe)
      (before : cells.ctx = some ctx)
      (controlled : adaptiveBitrateStep g cells i.now ctx = some stepped)
      (encoder : ctx.encoder = some id) (present : pipes[id]? = some pipe) :
      Encoded pipes i forceKeyframe
        ⟨{ cells with ctx := some stepped.1 },
          pipes.set id (encodeInto stepped.2 i forceKeyframe pipe).1,
          (encodeInto stepped.2 i forceKeyframe pipe).2⟩

variable {i : EncodeInput}

theorem encoded_encodeCapture {pipes : List Pipe} {forceKeyframe : Bool}
    {next : Submitted} (h : encodeCapture g cells pipes i forceKeyframe = some next) :
    Encoded g cells pipes i forceKeyframe next := by
  unfold encodeCapture at h
  split at h
  · next hnone =>
    cases h
    exact .noContext hnone
  · next ctx hctx =>
    obtain ⟨stepped, hstepped, rfl⟩ := Option.map_eq_some_iff.mp h
    have hencoder : stepped.1.encoder = ctx.encoder :=
      congrArg Core.encoder (steered_adaptiveBitrateStep g cells hstepped).core
    have hcurrent : currentPipe pipes stepped.1 = currentPipe pipes ctx := by
      simp only [currentPipe, hencoder]
    rw [hcurrent]
    cases hpipe : currentPipe pipes ctx with
    | none => exact .noEncoder ctx stepped hctx hstepped hpipe
    | some current =>
      obtain ⟨id, hid, hfound⟩ := Option.bind_eq_some_iff.mp hpipe
      obtain ⟨pipe, hpresent, rfl⟩ := Option.map_eq_some_iff.mp hfound
      exact .encoded ctx stepped id pipe hctx hstepped hid hpresent

theorem height_applyActions (actions : AdaptiveActions) (i : EncodeInput) (e : Encoder) :
    (applyActions actions i e).height = e.height := by
  unfold applyActions
  split <;> split <;> try rfl
  all_goals split <;> try rfl
  all_goals split <;> rfl

theorem nextPts_applyActions (actions : AdaptiveActions) (i : EncodeInput) (e : Encoder) :
    (applyActions actions i e).nextPts = e.nextPts := by
  unfold applyActions
  split <;> split <;> try rfl
  all_goals split <;> try rfl
  all_goals split <;> rfl

/-- Whether a picture is accepted does not depend on what the controller set. -/
theorem accepts_applyActions (actions : AdaptiveActions) (i : EncodeInput) (e : Encoder) :
    accepts i (applyActions actions i e) = accepts i e := by
  unfold accepts
  rw [height_applyActions]

theorem encodeBgra_of_accepts {e : Encoder} (forceKeyframe : Bool) (h : accepts i e = true) :
    e.encodeBgra i.bgraLen i.stride forceKeyframe i.platformAccepts =
      ({ e with nextPts := e.nextPts + 1 }, some ⟨e.nextPts, forceKeyframe⟩) := by
  simp only [accepts, Bool.and_eq_true, decide_eq_true_eq] at h
  obtain ⟨⟨hfits, hwhole⟩, hplatform⟩ := h
  unfold Encoder.encodeBgra
  rw [if_neg (Nat.not_le.mpr hfits), if_neg (Nat.not_lt.mpr hwhole), hplatform]
  rfl

theorem encodeBgra_of_not_accepts {e : Encoder} (forceKeyframe : Bool) (h : accepts i e = false) :
    ∃ nextPts, e.encodeBgra i.bgraLen i.stride forceKeyframe i.platformAccepts =
      ({ e with nextPts := nextPts }, none) := by
  simp only [accepts, Bool.and_eq_false_iff, decide_eq_false_iff_not] at h
  unfold Encoder.encodeBgra
  split
  · exact ⟨e.nextPts, rfl⟩
  · next hfits =>
    split
    · exact ⟨e.nextPts, rfl⟩
    · next hwhole =>
      have hplatform : i.platformAccepts = false := by
        rcases h with (h | h) | h
        · omega
        · omega
        · exact h
      rw [hplatform]
      exact ⟨e.nextPts + 1, rfl⟩

/-- An accepted picture is in flight. -/
theorem encodeInto_of_accepts (actions : AdaptiveActions) (forceKeyframe : Bool)
    {pipe : Pipe} (h : accepts i pipe.encoder = true) :
    encodeInto actions i forceKeyframe pipe =
      ({ pipe with
          encoder := { applyActions actions i pipe.encoder with
            nextPts := pipe.encoder.nextPts + 1 }
          inFlight := pipe.inFlight ++ [⟨pipe.encoder.nextPts, forceKeyframe⟩] }, true) := by
  have haccepts : accepts i (applyActions actions i pipe.encoder) = true := by
    rw [accepts_applyActions, h]
  unfold encodeInto
  rw [encodeBgra_of_accepts forceKeyframe haccepts, nextPts_applyActions]

/-- A refused picture leaves the frames in flight. -/
theorem encodeInto_of_not_accepts (actions : AdaptiveActions)
    (forceKeyframe : Bool) {pipe : Pipe} (h : accepts i pipe.encoder = false) :
    ∃ nextPts, encodeInto actions i forceKeyframe pipe =
      ({ pipe with
        encoder := { applyActions actions i pipe.encoder with nextPts := nextPts } }, false) := by
  have hrefused : accepts i (applyActions actions i pipe.encoder) = false := by
    rw [accepts_applyActions, h]
  obtain ⟨nextPts, hencoded⟩ := encodeBgra_of_not_accepts forceKeyframe hrefused
  refine ⟨nextPts, ?_⟩
  unfold encodeInto
  rw [hencoded]

/-- What an encoder was made for does not change when it gets a picture. -/
theorem encodeInto_frame (actions : AdaptiveActions) (i : EncodeInput) (forceKeyframe : Bool)
    (pipe : Pipe) :
    (encodeInto actions i forceKeyframe pipe).1.home = pipe.home ∧
      (encodeInto actions i forceKeyframe pipe).1.dropped = pipe.dropped ∧
      (encodeInto actions i forceKeyframe pipe).1.channel = pipe.channel ∧
      (encodeInto actions i forceKeyframe pipe).1.thread = pipe.thread := by
  cases haccepts : accepts i pipe.encoder with
  | true =>
    rw [encodeInto_of_accepts actions forceKeyframe haccepts]
    exact ⟨rfl, rfl, rfl, rfl⟩
  | false =>
    obtain ⟨nextPts, hrefused⟩ := encodeInto_of_not_accepts actions forceKeyframe haccepts
    rw [hrefused]
    exact ⟨rfl, rfl, rfl, rfl⟩

end Capture

end PipelineSystem

end Macrdp
