import Macrdp.PipelineWiring

/-!
# The controller and the encoder

The rate controller keeps what it wants of the encoder, and asks for changes; the
encoder keeps what it was created with and what was set since. An encoder is
created with the wanted bitrate, but always with the normal keyframe interval.
-/

namespace Macrdp.PipelineSystem

open PlatformTime GfxContext GfxFactory GfxLive RateControl GfxPipeline StepSystem RationalFloat

namespace Coupling

/-- The keyframe interval the controller wants. -/
def wantedFrames (g : Factory) (idrBackedOff : Bool) : UInt32 :=
  if idrBackedOff then g.stretchedKeyframeFrames else g.normalKeyframeFrames

/-- An encoder has the bitrate and the keyframe interval that the controller wants. -/
structure Agrees (g : Factory) (target : UInt32) (idrBackedOff : Bool) (e : Encoder) : Prop where
  bitrate : e.averageBitRate.toInt = target.toNat
  keyframes : e.maxKeyFrameInterval.toInt = (wantedFrames g idrBackedOff).toNat

/-- An encoder was given the words of what the controller wants, as signed words. -/
structure Follows (g : Factory) (target : UInt32) (idrBackedOff : Bool) (e : Encoder) : Prop where
  bitrate : e.averageBitRate = target.toInt32
  keyframes : e.maxKeyFrameInterval = (wantedFrames g idrBackedOff).toInt32

/-- What the controller wants keeps its value in a signed word. -/
structure Fits (g : Factory) (target : UInt32) (idrBackedOff : Bool) : Prop where
  bitrate : target.toNat < 2 ^ 31
  keyframes : (wantedFrames g idrBackedOff).toNat < 2 ^ 31

/-- The context's encoder, if there is one, agrees with the controller. -/
def Coupled (g : Factory) (p : Pipeline) : Prop :=
  ∀ ctx id, p.cells.ctx = some ctx → ctx.encoder = some id → ∃ pipe, p.pipes[id]? = some pipe ∧
    Agrees g ctx.adaptiveTargetBps ctx.idrBackedOff pipe.encoder

/-- The context's encoder, if there is one, was given what the controller wants. -/
def Followed (g : Factory) (p : Pipeline) : Prop :=
  ∀ ctx id, p.cells.ctx = some ctx → ctx.encoder = some id → ∃ pipe, p.pipes[id]? = some pipe ∧
    Follows g ctx.adaptiveTargetBps ctx.idrBackedOff pipe.encoder

/-- While there is an encoder, what the controller wants keeps its value in a signed word. -/
def Fitting (g : Factory) (p : Pipeline) : Prop :=
  ∀ ctx, p.cells.ctx = some ctx → ctx.encoder.isSome = true →
    Fits g ctx.adaptiveTargetBps ctx.idrBackedOff

/-- The platform accepts every property update. -/
def accepting : Action → Bool
  | .encode i => i.setBitrateOk && i.setKeyframeOk
  | _ => true

/-- A capture makes an encoder. -/
def makesEncoder (g : Factory) (cells : Cells) (i : CaptureInput) (ctx : LiveContext) : Bool :=
  ctx.isReady && !eventQueueFull g cells && ctx.encoder.isNone && i.setup.encoderCreated &&
    (ctx.surfaceId.isSome ||
      i.setup.serverReady && i.setup.createdSurface.isSome && i.setup.surfaceMapped)

/-- An encoder is made only while the keyframe interval the controller wants is the normal one. -/
def makesWanted (g : Factory) (p : Pipeline) : Action → Bool
  | .admitCapture i => p.cells.ctx.all fun ctx => !makesEncoder g p.cells i ctx ||
      decide (wantedFrames g ctx.idrBackedOff = g.normalKeyframeFrames)
  | _ => true

/-- What the numbers of a factory are like. -/
structure Tuned (g : Factory) : Prop where
  floor : g.adaptiveFloorBps ≤ ceiling g
  normal : g.normalKeyframeFrames = keyframeFrames g.fps g.keyframeSecs
  positive : ∀ idrBackedOff, 0 < (wantedFrames g idrBackedOff).toNat

theorem keyframeFrames_pos (fps : UInt32) (keyframeSecs : ℚ) :
    0 < (keyframeFrames fps keyframeSecs).toNat := by
  rw [keyframeFrames, toUInt32_toNat, Int.floor_intCast]
  have hone := Int.le_max_right (roundAway (ofUInt32 fps * keyframeSecs)) 1
  omega

/-- Without a frame rate a keyframe interval is one frame. -/
theorem keyframeFrames_zero (keyframeSecs : ℚ) : keyframeFrames 0 keyframeSecs = 1 := by
  have hzero : ofUInt32 0 * keyframeSecs = 0 := by simp [ofUInt32]
  have hround : (max (roundAway 0) 1 : ℤ) = 1 := by decide +kernel
  rw [keyframeFrames, hzero, hround, ← UInt32.toNat_inj, toUInt32_toNat, Int.floor_intCast]
  rfl

/-- Every factory that is made is tuned. -/
theorem tuned_new (args : GfxArgs) (env : GfxEnv) : Tuned (Factory.new args env) where
  floor := by
    have hfloor : (Factory.new args env).adaptiveFloorBps =
      min (envU32 env.adaptiveFloorBps (max (args.bitrateBps / 8) 500000))
        (ceiling (Factory.new args env)) := rfl
    rw [hfloor, UInt32.le_iff_toNat_le, toNat_min32]
    exact Nat.min_le_right _ _
  normal := rfl
  positive := by
    have hnormal : (Factory.new args env).normalKeyframeFrames =
      keyframeFrames args.fps args.keyframeSecs := rfl
    have hstretched : (Factory.new args env).stretchedKeyframeFrames =
      max (saturatingMul32 args.fps 600) (keyframeFrames args.fps args.keyframeSecs + 1) := rfl
    have hpos := keyframeFrames_pos args.fps args.keyframeSecs
    intro idrBackedOff
    unfold wantedFrames
    split
    · rw [hstretched, toNat_max32]
      by_cases hfps : args.fps = 0
      · have hone : keyframeFrames args.fps args.keyframeSecs + 1 = 2 := by
          rw [hfps, keyframeFrames_zero]
          rfl
        have htwo : (2 : UInt32).toNat = 2 := rfl
        rw [hone]
        omega
      · have hpositive : args.fps.toNat ≠ 0 := fun h => hfps (UInt32.toNat_inj.mp h)
        have hsix : (600 : UInt32).toNat = 600 := rfl
        have hword : (saturatingMul32 args.fps 600).toNat =
            min (args.fps.toNat * 600) (2 ^ 32 - 1) := by
          rw [saturatingMul32, hsix, UInt32.toNat_ofNat_of_lt']
          exact lt_of_le_of_lt (Nat.min_le_right _ _) (by decide)
        omega
    · rw [hnormal]
      exact hpos

variable {w : UInt32}

/-- A word that fits a signed word keeps its value there. -/
theorem toInt_toInt32 (h : w.toNat < 2 ^ 31) : w.toInt32.toInt = w.toNat := by
  have hbits : w.toInt32.toInt = w.toBitVec.toInt := rfl
  rw [hbits, BitVec.toInt_eq_toNat_of_lt]
  · rfl
  · have hnat : w.toBitVec.toNat = w.toNat := rfl
    omega

/-- A signed word is a number exactly if it is that of a word that fits. -/
theorem toInt_eq_toNat_iff {e : Int32} : e.toInt = w.toNat ↔ e = w.toInt32 ∧ w.toNat < 2 ^ 31 := by
  constructor
  · intro h
    have hlt := e.toInt_lt
    have hfits : w.toNat < 2 ^ 31 := by omega
    refine ⟨Int32.toInt_inj.mp ?_, hfits⟩
    rw [h, toInt_toInt32 hfits]
  · rintro ⟨rfl, hfits⟩
    exact toInt_toInt32 hfits

theorem agrees_iff {g : Factory} {target : UInt32} {idrBackedOff : Bool} {e : Encoder} :
    Agrees g target idrBackedOff e ↔ Follows g target idrBackedOff e ∧ Fits g target idrBackedOff := by
  constructor
  · intro h
    obtain ⟨hbitrate, hfits⟩ := toInt_eq_toNat_iff.mp h.bitrate
    obtain ⟨hkeyframes, hfits'⟩ := toInt_eq_toNat_iff.mp h.keyframes
    exact ⟨⟨hbitrate, hkeyframes⟩, ⟨hfits, hfits'⟩⟩
  · rintro ⟨hfollows, hfits⟩
    exact ⟨toInt_eq_toNat_iff.mpr ⟨hfollows.bitrate, hfits.bitrate⟩,
      toInt_eq_toNat_iff.mpr ⟨hfollows.keyframes, hfits.keyframes⟩⟩

variable {g : Factory} {p p' : Pipeline}

/-- The context's encoder agrees if it was given what the controller wants and that fits. -/
theorem coupled_iff : Coupled g p ↔ Followed g p ∧ Fitting g p := by
  constructor
  · intro h
    constructor
    · intro ctx id hctx hencoder
      obtain ⟨pipe, hpipe, hagrees⟩ := h ctx id hctx hencoder
      exact ⟨pipe, hpipe, (agrees_iff.mp hagrees).1⟩
    · intro ctx hctx hsome
      obtain ⟨id, hencoder⟩ := Option.isSome_iff_exists.mp hsome
      obtain ⟨pipe, -, hagrees⟩ := h ctx id hctx hencoder
      exact (agrees_iff.mp hagrees).2
  · rintro ⟨hfollowed, hfitting⟩ ctx id hctx hencoder
    obtain ⟨pipe, hpipe, hfollows⟩ := hfollowed ctx id hctx hencoder
    exact ⟨pipe, hpipe, agrees_iff.mpr ⟨hfollows, hfitting ctx hctx (by rw [hencoder]; rfl)⟩⟩

/-- A positive word is what it is at least one of. -/
theorem max_one (h : 0 < w.toNat) : max w 1 = w := by
  have hone : (1 : UInt32).toNat = 1 := rfl
  rw [← UInt32.toNat_inj, toNat_max32]
  omega

/-- A new encoder is given the bitrate of the context and the normal keyframe interval. -/
theorem encoder_new (hg : Tuned g) (threadSpawned : Bool) (ctx : LiveContext) :
    (newPipe g threadSpawned ctx).encoder.averageBitRate = ctx.adaptiveTargetBps.toInt32 ∧
      (newPipe g threadSpawned ctx).encoder.maxKeyFrameInterval =
        g.normalKeyframeFrames.toInt32 := by
  refine ⟨rfl, ?_⟩
  have hset : (newPipe g threadSpawned ctx).encoder.maxKeyFrameInterval =
      (max g.normalKeyframeFrames 1).toInt32 := by
    rw [hg.normal]
    rfl
  have hpositive : 0 < g.normalKeyframeFrames.toNat := hg.positive false
  rw [hset, max_one hpositive]

/-- What the controller asks of the encoder makes up for what it changes its mind about. -/
structure Asks (g : Factory) (ctx ctx' : LiveContext) (actions : AdaptiveActions) : Prop where
  target : ctx'.adaptiveTargetBps ≤ ceiling g
  bitrate : actions.bitrateBps.getD ctx.adaptiveTargetBps = ctx'.adaptiveTargetBps
  positive : ∀ bps, actions.bitrateBps = some bps → 0 < bps.toNat
  keyframes : actions.keyframeFrames.getD (wantedFrames g ctx.idrBackedOff) =
    wantedFrames g ctx'.idrBackedOff

theorem ceiling_pos (g : Factory) : 0 < (ceiling g).toNat := by
  have hone : (1 : UInt32).toNat = 1 := rfl
  rw [ceiling, toNat_max32]
  omega

variable {ctx : LiveContext}

theorem asks_transportEdge (htarget : ctx.adaptiveTargetBps ≤ ceiling g)
    (onUdp : Bool) (now : Instant) :
    Asks g ctx (transportEdge g onUdp now ctx).1 (transportEdge g onUdp now ctx).2 := by
  simp only [transportEdge]
  split
  · refine ⟨?_, ?_, ?_, ?_⟩
    · simp only [leaveUdp]
      split
      · exact UInt32.le_refl _
      · exact htarget
    · simp only [leaveUdp, edgeActions]
      split <;> rfl
    · intro bps hbps
      simp only [edgeActions] at hbps
      split at hbps
      · cases hbps
        exact ceiling_pos g
      · cases hbps
    · simp only [leaveUdp, edgeActions]
      cases ctx.idrBackedOff <;> rfl
  · exact ⟨htarget, rfl, (fun _ hnone => by cases hnone), rfl⟩

/-- The bitrate loop leaves a bitrate within the ceiling, and a positive one if it moves. -/
theorem bitratePid_mem (hfloor : g.adaptiveFloorBps ≤ ceiling g) (usable : Bool) (act : Actuators)
    (htarget : ctx.adaptiveTargetBps ≤ ceiling g) :
    (bitratePid g usable act ctx).1 ≤ ceiling g ∧
      ((bitratePid g usable act ctx).1 ≠ ctx.adaptiveTargetBps →
        0 < (bitratePid g usable act ctx).1.toNat) := by
  have hone : (1 : UInt32).toNat = 1 := rfl
  have hpos := ceiling_pos g
  unfold bitratePid
  split
  · have hfloor' := UInt32.le_iff_toNat_le.mp hfloor
    have hlow : (max (max g.adaptiveFloorBps 1) 1).toNat ≤ (ceiling g).toNat := by
      rw [toNat_max32, toNat_max32]
      omega
    have hhigh : (max (ceiling g) (max (max g.adaptiveFloorBps 1) 1)).toNat =
        (ceiling g).toNat := by
      rw [toNat_max32]
      omega
    have hle : max (max g.adaptiveFloorBps 1) 1 ≤
        max (ceiling g) (max (max g.adaptiveFloorBps 1) 1) :=
      UInt32.le_iff_toNat_le.mpr (by rw [hhigh]; exact hlow)
    have hword := fun q => toUInt32_clamp_roundAway hle q
    have hlowPos : 0 < (max (max g.adaptiveFloorBps 1) 1).toNat := by
      rw [toNat_max32]
      omega
    simp only [pidBitrateStep]
    generalize ofUInt32 ctx.adaptiveTargetBps + _ * 1000000 = moved
    have hnext := hword moved
    constructor
    · rw [UInt32.le_iff_toNat_le]
      omega
    · intro _
      omega
  · split
    · exact ⟨htarget, fun h => absurd rfl h⟩
    · exact ⟨htarget, fun h => absurd rfl h⟩

variable {ctx' : LiveContext} {actions : AdaptiveActions}

/-- What an interval asks on top of what was asked before it. -/
theorem asks_controlInterval (hfloor : g.adaptiveFloorBps ≤ ceiling g) (retransmits : UInt64)
    (now : Instant) (h : Asks g ctx ctx' actions) :
    Asks g ctx (controlInterval g retransmits now actions ctx').1
      (controlInterval g retransmits now actions ctx').2 := by
  have hloops : (runLoops g retransmits now ctx').adaptiveTargetBps ≤ ceiling g ∧
      ((runLoops g retransmits now ctx').adaptiveTargetBps ≠ ctx'.adaptiveTargetBps →
        0 < (runLoops g retransmits now ctx').adaptiveTargetBps.toNat) :=
    bitratePid_mem hfloor _ _ (h.target :
      (observe g retransmits (signal g retransmits now ctx') ctx').adaptiveTargetBps ≤ ceiling g)
  have hbackedOff : (runLoops g retransmits now ctx').idrBackedOff = ctx'.idrBackedOff := rfl
  simp only [controlInterval]
  generalize runLoops g retransmits now ctx' = moved at hloops hbackedOff ⊢
  have htarget : (setBackoff (backoff g moved) moved).adaptiveTargetBps =
      moved.adaptiveTargetBps := by
    unfold setBackoff
    split <;> rfl
  refine ⟨?_, ?_, ?_, ?_⟩
  · rw [htarget]
    exact hloops.1
  · rw [htarget]
    by_cases hmoved : moved.adaptiveTargetBps ≠ ctx'.adaptiveTargetBps
    · rw [if_pos hmoved]
      rfl
    · rw [if_neg hmoved, h.bitrate]
      exact (not_not.mp hmoved).symm
  · intro bps hbps
    by_cases hmoved : moved.adaptiveTargetBps ≠ ctx'.adaptiveTargetBps
    · rw [if_pos hmoved, Option.some.injEq] at hbps
      rw [← hbps]
      exact hloops.2 hmoved
    · rw [if_neg hmoved] at hbps
      exact h.positive bps hbps
  · cases hdecision : backoff g moved with
    | stretch | restore => rfl
    | hold =>
      have hheld : (setBackoff .hold moved).idrBackedOff = ctx'.idrBackedOff := hbackedOff
      rw [hheld]
      exact h.keyframes

/-- What the controller asks at a capture. -/
theorem asks_adaptiveBitrateStep (hfloor : g.adaptiveFloorBps ≤ ceiling g) {cells : Cells}
    {now : Instant} {stepped : LiveContext × AdaptiveActions}
    (htarget : ctx.adaptiveTargetBps ≤ ceiling g)
    (h : adaptiveBitrateStep g cells now ctx = some stepped) : Asks g ctx stepped.1 stepped.2 := by
  unfold adaptiveBitrateStep at h
  split at h
  · cases h
    exact ⟨htarget, rfl, (fun _ hnone => by cases hnone), rfl⟩
  · obtain ⟨warmup, -, rfl⟩ := Option.map_eq_some_iff.mp h
    have hwarm : ({ ctx with adaptiveWarmupUntil := warmup } : LiveContext).adaptiveTargetBps ≤
      ceiling g := htarget
    have hedge := asks_transportEdge hwarm cells.egfxOnUdp now
    dsimp only
    generalize transportEdge g cells.egfxOnUdp now
      { ctx with adaptiveWarmupUntil := warmup } = edge at hedge ⊢
    have hbegun : Asks g ctx { edge.1 with adaptiveLastControl := now } edge.2 :=
      { __ := hedge }
    split
    · exact { __ := hedge }
    · exact asks_controlInterval hfloor cells.congestionRetransmits now hbegun

/-- A setup makes an encoder if there is none, the platform has one and there is a surface. -/
theorem length_setupLocked (desktopSize : UInt16 × UInt16) (i : SetupInput) (pipes : List Pipe)
    (ctx : LiveContext) :
    (setupLocked g desktopSize i pipes ctx).pipes.length = pipes.length +
      if ctx.encoder.isNone && i.encoderCreated && (ctx.surfaceId.isSome ||
        i.serverReady && i.createdSurface.isSome && i.surfaceMapped) then 1 else 0 := by
  have hmake : ∀ surfaced : LiveContext, surfaced.encoder = ctx.encoder →
      (setupEncoder g i pipes surfaced).pipes.length = pipes.length +
        if ctx.encoder.isNone && i.encoderCreated then 1 else 0 := by
    intro surfaced hencoder
    unfold setupEncoder
    rw [hencoder]
    cases ctx.encoder.isNone <;> cases i.encoderCreated <;> simp
  simp only [setupLocked]
  rcases core_setupSurface desktopSize i ctx with ⟨hsome, heq⟩ | ⟨hnone, -, hcases⟩
  · rw [heq, if_pos rfl, hmake ctx rfl, hsome]
    simp
  · have hok : (setupSurface desktopSize i ctx).2 =
        (i.serverReady && i.createdSurface.isSome && i.surfaceMapped) := by
      unfold setupSurface
      rw [hnone]
      cases i.serverReady <;> cases i.createdSurface <;> cases i.surfaceMapped <;> rfl
    have hencoder : (setupSurface desktopSize i ctx).1.encoder = ctx.encoder := by
      rcases hcases with ⟨-, hcore⟩ | ⟨sid, -, hcore⟩
      · exact congrArg Core.encoder hcore
      · exact congrArg Core.encoder hcore
    rw [← hok, hnone]
    cases hsurfaced : (setupSurface desktopSize i ctx).2 with
    | true =>
      rw [if_pos rfl, hmake _ hencoder]
      simp
    | false => simp

/-- A capture makes an encoder exactly when it is to. -/
theorem length_admitCapture (g : Factory) (cells : Cells) (pipes : List Pipe) (i : CaptureInput) :
    (GfxPipeline.admitCapture g cells pipes i).pipes.length =
      pipes.length + if cells.ctx.any (makesEncoder g cells i) then 1 else 0 := by
  unfold GfxPipeline.admitCapture
  cases hctx : cells.ctx with
  | none => rfl
  | some ctx =>
    simp only [Option.any_some]
    cases hready : ctx.isReady with
    | false => simp [makesEncoder, hready]
    | true =>
      cases hfull : eventQueueFull g cells with
      | true => simp [makesEncoder, hready, hfull]
      | false =>
        have hrequested := core_takeRequests g cells i ctx
        have hsurface : (takeRequests g cells i ctx).surfaceId = ctx.surfaceId :=
          congrArg Core.surfaceId hrequested
        have hencoder : (takeRequests g cells i ctx).encoder = ctx.encoder :=
          congrArg Core.encoder hrequested
        have hmakes : makesEncoder g cells i ctx = (ctx.encoder.isNone &&
            i.setup.encoderCreated && (ctx.surfaceId.isSome || i.setup.serverReady &&
              i.setup.createdSurface.isSome && i.setup.surfaceMapped)) := by
          simp [makesEncoder, hready, hfull]
        have hlength := length_setupLocked (g := g) cells.desktopSize i.setup pipes
          (takeRequests g cells i ctx)
        rw [hsurface, hencoder, ← hmakes] at hlength
        simp only [Bool.not_true, Bool.false_eq_true, if_false, admitReady]
        have hsetup : (if ((takeRequests g cells i ctx).surfaceId.isNone ||
            (takeRequests g cells i ctx).encoder.isNone) = true then
            setupLocked g cells.desktopSize i.setup pipes (takeRequests g cells i ctx)
            else ⟨takeRequests g cells i ctx, pipes, true⟩) =
            setupLocked g cells.desktopSize i.setup pipes (takeRequests g cells i ctx) := by
          split
          · rfl
          · next h =>
            exact (setupLocked_of_complete g _ _ _ (Bool.eq_false_of_not_eq_true h)).symm
        rw [hsetup]
        split
        · obtain ⟨-, -, hpipes, -⟩ := judged_judge g { cells with
            demigrateRequest := cells.demigrateRequest ||
              ((takeRequests g cells i ctx).demigrated && !ctx.demigrated) }
            (setupLocked g cells.desktopSize i.setup pipes (takeRequests g cells i ctx)).pipes i
            (setupLocked g cells.desktopSize i.setup pipes (takeRequests g cells i ctx)).ctx
          rw [hpipes, hlength]
        · exact hlength

/-- What a capture leaves of the context, and whether it made an encoder. -/
inductive Built (g : Factory) (cells : Cells) (pipes : List Pipe) (i : CaptureInput) :
    Admitted → Prop
  | untouched (a : Admitted) (ctx : a.cells.ctx = cells.ctx) (kept : a.pipes = pipes) :
      Built g cells pipes i a
  | kept (a : Admitted) (ctx ctx' : LiveContext) (before : cells.ctx = some ctx)
      (after : a.cells.ctx = some ctx') (same : a.pipes = pipes)
      (encoder : ctx'.encoder = ctx.encoder)
      (target : ctx'.adaptiveTargetBps = ctx.adaptiveTargetBps)
      (backedOff : ctx'.idrBackedOff = ctx.idrBackedOff) : Built g cells pipes i a
  /-- The encoder is made for the bitrate of the context. -/
  | made (a : Admitted) (ctx ctx' surfaced : LiveContext) (before : cells.ctx = some ctx)
      (makes : makesEncoder g cells i ctx = true) (after : a.cells.ctx = some ctx')
      (added : a.pipes = pipes ++ [newPipe g i.setup.threadSpawned surfaced])
      (encoder : ctx'.encoder = some pipes.length)
      (target : ctx'.adaptiveTargetBps = ctx.adaptiveTargetBps)
      (surfacedTarget : surfaced.adaptiveTargetBps = ctx.adaptiveTargetBps)
      (backedOff : ctx'.idrBackedOff = ctx.idrBackedOff) : Built g cells pipes i a

theorem built_admitCapture (g : Factory) (cells : Cells) (pipes : List Pipe) (i : CaptureInput) :
    Built g cells pipes i (GfxPipeline.admitCapture g cells pipes i) := by
  have hlength := length_admitCapture g cells pipes i
  rcases (captured_admitCapture g cells pipes i).outcome with
    ⟨hctx, hpipes⟩ | ⟨ctx, surfaced, s, ctx', armed, entered, after, hpipes, core⟩
  · exact .untouched _ hctx hpipes
  · have hentered : surfaced.adaptiveTargetBps = ctx.adaptiveTargetBps ∧
        surfaced.idrBackedOff = ctx.idrBackedOff ∧ surfaced.encoder = ctx.encoder :=
      ⟨congrArg Core.adaptiveTargetBps entered.core, congrArg Core.idrBackedOff entered.core,
        congrArg Core.encoder entered.core⟩
    have hsettled : ctx'.adaptiveTargetBps = s.ctx.adaptiveTargetBps ∧
        ctx'.idrBackedOff = s.ctx.idrBackedOff ∧ ctx'.encoder = s.ctx.encoder :=
      ⟨congrArg Core.adaptiveTargetBps core, congrArg Core.idrBackedOff core,
        congrArg Core.encoder core⟩
    cases entered.prepared with
    | kept same complete =>
      rw [same.1] at hsettled
      exact .kept _ ctx ctx' entered.before after (hpipes.trans same.2)
        (hsettled.2.2.trans hentered.2.2) (hsettled.1.trans hentered.1)
        (hsettled.2.1.trans hentered.2.1)
    | made encoder surface ok added tally core' =>
      have hmade : s.ctx.adaptiveTargetBps = surfaced.adaptiveTargetBps ∧
          s.ctx.idrBackedOff = surfaced.idrBackedOff ∧
          s.ctx.encoder = some pipes.length :=
        ⟨congrArg Core.adaptiveTargetBps core', congrArg Core.idrBackedOff core',
          congrArg Core.encoder core'⟩
      rw [hpipes, added, entered.before, Option.any_some, List.length_append,
        List.length_singleton] at hlength
      have hmakes : makesEncoder g cells i ctx = true := by
        by_contra hnot
        rw [if_neg hnot] at hlength
        omega
      exact .made _ ctx ctx' surfaced entered.before hmakes after (hpipes.trans added)
        (hsettled.2.2.trans hmade.2.2) (hsettled.1.trans (hmade.1.trans hentered.1))
        hentered.1 (hsettled.2.1.trans (hmade.2.1.trans hentered.2.1))

/-- The controller's bitrate stays within the ceiling. -/
structure Bounded (g : Factory) (p : Pipeline) : Prop where
  wired : Wired p
  target : ∀ ctx, p.cells.ctx = some ctx → ctx.adaptiveTargetBps ≤ ceiling g

/-- The bitrate a connection starts with is within the ceiling. -/
theorem target_freshLive (g : Factory) (cells : Cells) (counters : GfxCounters) (now : Instant) :
    (freshLive g cells counters now).adaptiveTargetBps ≤ ceiling g := by
  have hset : (freshLive g cells counters now).adaptiveTargetBps =
      if g.adaptiveEnabled then
        seededInitialBitrate g.bitrateBps g.adaptiveFloorBps cells.linkRttMs g.adaptiveSeedRttMs
      else g.bitrateBps := rfl
  have hone : (1 : UInt32).toNat = 1 := rfl
  have hthree : (3 : UInt32).toNat = 3 := rfl
  rw [hset, UInt32.le_iff_toNat_le, ceiling, toNat_max32]
  split
  · unfold seededInitialBitrate
    split
    · omega
    · simp only [toNat_max32, toNat_min32, UInt32.toNat_div, hone, hthree]
      omega
  · omega

variable {a : Action}

theorem bounded_step (hfloor : g.adaptiveFloorBps ≤ ceiling g) (h : Bounded g p)
    (hstep : p.step g a = some p') : Bounded g p' where
  wired := wired_step h.wired hstep
  target := by
    intro ctx' hctx'
    cases steps_of_step hstep with
    | build now _ =>
      cases hctx'
      exact target_freshLive g p.cells p.counters now
    | client e _ _ =>
      obtain ⟨ctx, hctx, -, hcalled⟩ := called_callback e hctx'
      have hsame : ctx'.adaptiveTargetBps = ctx.adaptiveTargetBps := by
        cases hcalled with
        | quiet e _ core | ready accepted core | close core
          => exact congrArg Core.adaptiveTargetBps core
      rw [hsame]
      exact h.target ctx hctx
    | close _ | countSubmission _ | forceKeyframe _ | demigrate _ _ | resetForLiveResize _ =>
      obtain ⟨ctx, hctx, rfl⟩ := Cells.update_some hctx'
      exact h.target ctx hctx
    | admitCapture i _ =>
      cases built_admitCapture g p.cells p.pipes i with
      | untouched same _ => exact h.target ctx' (same.symm.trans hctx')
      | kept ctx settled before after _ _ target _
        | made ctx settled surfaced before _ after _ _ target _ _ =>
        rw [Option.some.inj (hctx'.symm.trans after), target]
        exact h.target ctx before
    | recover remapped r _ =>
      rw [(runRecovery_frame p r remapped).1] at hctx'
      exact h.target ctx' hctx'
    | publishLate => exact h.target ctx' hctx'
    | publish surfaceId ctx before _ =>
      cases hctx'
      exact h.target ctx before
    | encode i forceKeyframe next _ encoded =>
      cases encoded with
      | noContext => exact h.target ctx' hctx'
      | noEncoder ctx stepped before controlled | encoded ctx stepped id pipe before controlled =>
        cases hctx'
        exact (asks_adaptiveBitrateStep hfloor (h.target ctx before) controlled).target
    | stayDemigrated | output | outside => exact h.target ctx' hctx'
    | ship id a pipe next _ ships _ =>
      obtain ⟨ctx, hctx, hcore⟩ := ships.core hctx'
      have hsame : ctx'.adaptiveTargetBps = ctx.adaptiveTargetBps :=
        congrArg Core.adaptiveTargetBps hcore
      rw [hsame]
      exact h.target ctx hctx

/-- An encoder that was set what the controller asks follows the controller. -/
theorem follows_applyActions (hg : Tuned g)
    {i : EncodeInput} (hbitrate : i.setBitrateOk = true) (hkeyframe : i.setKeyframeOk = true)
    (hasks : Asks g ctx ctx' actions) {e : Encoder}
    (h : Follows g ctx.adaptiveTargetBps ctx.idrBackedOff e) :
    Follows g ctx'.adaptiveTargetBps ctx'.idrBackedOff (applyActions actions i e) := by
  have hset : (applyActions actions i e).averageBitRate =
        (actions.bitrateBps.map fun bps => (max bps 1).toInt32).getD e.averageBitRate ∧
      (applyActions actions i e).maxKeyFrameInterval =
        (actions.keyframeFrames.map fun frames => (max frames 1).toInt32).getD
          e.maxKeyFrameInterval := by
    unfold applyActions
    rw [hbitrate, hkeyframe]
    cases actions.bitrateBps <;> cases actions.keyframeFrames <;> exact ⟨rfl, rfl⟩
  constructor
  · rw [hset.1]
    have hasked := hasks.bitrate
    cases hbps : actions.bitrateBps with
    | none =>
      rw [hbps, Option.getD_none] at hasked
      rw [← hasked]
      exact h.bitrate
    | some bps =>
      rw [hbps, Option.getD_some] at hasked
      have hpos := hasks.positive bps hbps
      rw [Option.map_some, Option.getD_some, max_one hpos, hasked]
  · rw [hset.2]
    have hasked := hasks.keyframes
    cases hframes : actions.keyframeFrames with
    | none =>
      rw [hframes, Option.getD_none] at hasked
      rw [← hasked]
      exact h.keyframes
    | some frames =>
      rw [hframes, Option.getD_some] at hasked
      rw [Option.map_some, Option.getD_some, hasked, max_one (hg.positive ctx'.idrBackedOff)]

/-- An encoder that stays follows the controller if it did. -/
theorem Followed.keep (h : Followed g p) (hwired : Wired p')
    (hctx : ∀ ctx', p'.cells.ctx = some ctx' → ctx'.encoder = none ∨
      ∃ ctx, p.cells.ctx = some ctx ∧ ctx'.encoder = ctx.encoder ∧
        ∀ (id : ℕ) (pipe' : Pipe), ctx.encoder = some id → p'.pipes[id]? = some pipe' →
          ∃ pipe, p.pipes[id]? = some pipe ∧
            (Follows g ctx.adaptiveTargetBps ctx.idrBackedOff pipe.encoder →
              Follows g ctx'.adaptiveTargetBps ctx'.idrBackedOff pipe'.encoder)) :
    Followed g p' := by
  intro ctx' id hctx' hencoder'
  obtain ⟨pipe', hpipe', -⟩ := hwired ctx' id hctx' hencoder'
  rcases hctx ctx' hctx' with hnone | ⟨ctx, hbefore, hencoder, hpipes⟩
  · rw [hnone] at hencoder'
    cases hencoder'
  · rw [hencoder] at hencoder'
    obtain ⟨pipe, hpipe, hfollows⟩ := hpipes id pipe' hencoder' hpipe'
    obtain ⟨found, hfound, hbefore'⟩ := h ctx id hbefore hencoder'
    rw [hpipe, Option.some.injEq] at hfound
    rw [← hfound] at hbefore'
    exact ⟨pipe', hpipe', hfollows hbefore'⟩

variable {i : CaptureInput}

theorem followed_admitCapture (hg : Tuned g) (hb : Bounded g p) (h : Followed g p)
    (hwanted : makesWanted g p (.admitCapture i) = true)
    (hstep : p.step g (.admitCapture i) = some p')
    (hbuilt : Built g p.cells p.pipes i ⟨p'.cells, p'.pipes, .notActive⟩) : Followed g p' := by
  have hwired := wired_step hb.wired hstep
  cases hbuilt with
  | untouched same kept =>
    refine h.keep hwired fun ctx' hctx' => .inr ⟨ctx', same.symm.trans hctx', rfl, ?_⟩
    intro id pipe' _ hpipe'
    exact ⟨pipe', by rw [← kept]; exact hpipe', fun hfollows => hfollows⟩
  | kept ctx settled before after kept encoder target backedOff =>
    refine h.keep hwired fun ctx' hctx' => .inr ⟨ctx, before, ?_⟩
    have hsame : ctx' = settled := Option.some.inj (hctx'.symm.trans after)
    rw [hsame, target, backedOff]
    refine ⟨encoder, fun id pipe' _ hpipe' => ?_⟩
    exact ⟨pipe', by rw [← kept]; exact hpipe', fun hfollows => hfollows⟩
  | made ctx settled surfaced before makes after added encoder target surfacedTarget backedOff =>
    intro ctx' id hctx' hencoder
    have hsame : ctx' = settled := Option.some.inj (hctx'.symm.trans after)
    rw [hsame, encoder, Option.some.injEq] at hencoder
    refine ⟨newPipe g i.setup.threadSpawned surfaced, ?_, ?_⟩
    · have hadded : p'.pipes = p.pipes ++ [newPipe g i.setup.threadSpawned surfaced] := added
      rw [hadded, ← hencoder, List.getElem?_concat_length]
    · have hnormal : wantedFrames g ctx.idrBackedOff = g.normalKeyframeFrames := by
        simpa [makesWanted, before, makes] using hwanted
      obtain ⟨hbitrate, hkeyframes⟩ := encoder_new hg i.setup.threadSpawned surfaced
      rw [hsame, target, backedOff]
      refine ⟨?_, ?_⟩
      · rw [hbitrate, surfacedTarget]
      · rw [hkeyframes, hnormal]

/-- The capture of a step, as what it built. -/
theorem built_step (hstep : p.step g (.admitCapture i) = some p') :
    Built g p.cells p.pipes i ⟨p'.cells, p'.pipes, .notActive⟩ := by
  have hbuilt := built_admitCapture g p.cells p.pipes i
  cases steps_of_step hstep with
  | admitCapture i _ =>
    cases hbuilt with
    | untouched same kept => exact .untouched _ same kept
    | kept ctx ctx' before after kept encoder target backedOff =>
      exact .kept _ ctx ctx' before after kept encoder target backedOff
    | made ctx ctx' surfaced before makes after added encoder target surfacedTarget backedOff =>
      exact .made _ ctx ctx' surfaced before makes after added encoder target surfacedTarget
        backedOff
  | ship id a pipe next present ships own => cases ships

theorem length_step (hstep : p.step g (.admitCapture i) = some p') :
    p'.pipes.length =
      p.pipes.length + if p.cells.ctx.any (makesEncoder g p.cells i) then 1 else 0 := by
  cases steps_of_step hstep with
  | admitCapture i _ => exact length_admitCapture g p.cells p.pipes i
  | ship id a pipe next present ships own => cases ships

/-- The pipes of a change that leaves every encoder. -/
theorem encoder_set {pipes : List Pipe} {id : ℕ} {pipe next : Pipe}
    (present : pipes[id]? = some pipe) (hencoder : next.encoder = pipe.encoder) (other : ℕ)
    {pipe' : Pipe} (h : (pipes.set id next)[other]? = some pipe') :
    ∃ found, pipes[other]? = some found ∧ pipe'.encoder = found.encoder := by
  by_cases hid : id = other
  · rw [← hid] at h ⊢
    rw [List.getElem?_set_self (List.getElem?_eq_some_iff.mp present).1, Option.some.injEq] at h
    rw [← h]
    exact ⟨pipe, present, hencoder⟩
  · rw [List.getElem?_set_ne hid] at h
    exact ⟨pipe', h, rfl⟩

/-- The encoder that gets a picture is set what the controller asks. -/
theorem follows_encodeInto (hg : Tuned g)
    {i : EncodeInput} (haccepting : accepting (.encode i) = true)
    (hasks : Asks g ctx ctx' actions) (forceKeyframe : Bool) {pipe : Pipe}
    (h : Follows g ctx.adaptiveTargetBps ctx.idrBackedOff pipe.encoder) :
    Follows g ctx'.adaptiveTargetBps ctx'.idrBackedOff
      (encodeInto actions i forceKeyframe pipe).1.encoder := by
  obtain ⟨hbitrate, hkeyframe⟩ := Bool.and_eq_true_iff.mp haccepting
  have hset := follows_applyActions hg hbitrate hkeyframe hasks h
  cases haccepts : accepts i pipe.encoder with
  | true =>
    rw [encodeInto_of_accepts actions forceKeyframe haccepts]
    exact ⟨hset.bitrate, hset.keyframes⟩
  | false =>
    obtain ⟨nextPts, hrefused⟩ := encodeInto_of_not_accepts actions forceKeyframe haccepts
    rw [hrefused]
    exact ⟨hset.bitrate, hset.keyframes⟩

/-- A step that makes no encoder while another interval is wanted leaves the encoder following. -/
theorem followed_step (hg : Tuned g) (hb : Bounded g p) (h : Followed g p)
    (haccepting : accepting a = true) (hwanted : makesWanted g p a = true)
    (hstep : p.step g a = some p') : Followed g p' := by
  have hwired := wired_step hb.wired hstep
  have hkept : ∀ {ctx ctx' : LiveContext}, p.cells.ctx = some ctx → ctx'.encoder = ctx.encoder →
      ctx'.adaptiveTargetBps = ctx.adaptiveTargetBps → ctx'.idrBackedOff = ctx.idrBackedOff →
      (∀ (id : ℕ) (pipe' : Pipe), p'.pipes[id]? = some pipe' →
        ∃ pipe, p.pipes[id]? = some pipe ∧ pipe'.encoder = pipe.encoder) →
      ctx'.encoder = none ∨ ∃ ctx, p.cells.ctx = some ctx ∧ ctx'.encoder = ctx.encoder ∧
        ∀ (id : ℕ) (pipe' : Pipe), ctx.encoder = some id → p'.pipes[id]? = some pipe' →
          ∃ pipe, p.pipes[id]? = some pipe ∧
            (Follows g ctx.adaptiveTargetBps ctx.idrBackedOff pipe.encoder →
              Follows g ctx'.adaptiveTargetBps ctx'.idrBackedOff pipe'.encoder) := by
    intro ctx ctx' hctx hencoder htarget hbackedOff hpipes
    refine .inr ⟨ctx, hctx, hencoder, fun id pipe' _ hpipe' => ?_⟩
    obtain ⟨pipe, hpipe, hsame⟩ := hpipes id pipe' hpipe'
    rw [htarget, hbackedOff, hsame]
    exact ⟨pipe, hpipe, fun hfollows => hfollows⟩
  have hsame : ∀ (id : ℕ) (pipe' : Pipe), p.pipes[id]? = some pipe' →
      ∃ pipe, p.pipes[id]? = some pipe ∧ pipe'.encoder = pipe.encoder :=
    fun _ pipe hpipe => ⟨pipe, hpipe, rfl⟩
  cases steps_of_step hstep with
  | build now _ =>
    refine h.keep hwired fun ctx' hctx' => ?_
    cases hctx'
    exact .inl rfl
  | client e notClose _ =>
    refine h.keep hwired fun ctx' hctx' => ?_
    obtain ⟨ctx, hctx, -, hcalled⟩ := called_callback e hctx'
    cases hcalled with
    | quiet e _ core | ready accepted core =>
      exact hkept hctx (congrArg Core.encoder core) (congrArg Core.adaptiveTargetBps core)
        (congrArg Core.idrBackedOff core) hsame
    | close => exact absurd rfl notClose
  | close _ | resetForLiveResize _ =>
    refine h.keep hwired fun ctx' hctx' => ?_
    obtain ⟨ctx, -, rfl⟩ := Cells.update_some hctx'
    exact .inl rfl
  | admitCapture i _ => exact followed_admitCapture hg hb h hwanted hstep (built_step hstep)
  | recover remapped r _ =>
    obtain ⟨hctx, hpipes⟩ := runRecovery_frame p r remapped
    refine h.keep hwired fun ctx' hctx' => ?_
    rw [hctx] at hctx'
    exact hkept hctx' rfl rfl rfl (by rw [hpipes]; exact hsame)
  | publishLate | outside o => exact h.keep hwired fun ctx' hctx' => hkept hctx' rfl rfl rfl hsame
  | publish surfaceId ctx before _ =>
    refine h.keep hwired fun ctx' hctx' => ?_
    cases hctx'
    refine hkept before rfl rfl rfl fun id pipe' hpipe' => ?_
    cases hencoder : ctx.encoder with
    | none =>
      simp only [hencoder] at hpipe'
      exact ⟨pipe', hpipe', rfl⟩
    | some current =>
      simp only [hencoder, List.getElem?_modify] at hpipe'
      obtain ⟨pipe, hpipe, rfl⟩ := Option.map_eq_some_iff.mp hpipe'
      refine ⟨pipe, hpipe, ?_⟩
      split <;> rfl
  | encode i forceKeyframe next _ encoded =>
    refine h.keep hwired fun ctx' hctx' => ?_
    cases encoded with
    | noContext before => exact hkept hctx' rfl rfl rfl hsame
    | noEncoder ctx stepped before controlled missing =>
      cases hctx'
      have hencoder : stepped.1.encoder = ctx.encoder :=
        congrArg Core.encoder (steered_adaptiveBitrateStep g p.cells controlled).core
      rw [hencoder]
      refine .inl ?_
      cases hid : ctx.encoder with
      | none => rfl
      | some id =>
        obtain ⟨pipe, hpipe, -⟩ := hb.wired ctx id before hid
        simp [currentPipe, hid, hpipe] at missing
    | encoded ctx stepped id pipe before controlled encoder present =>
      cases hctx'
      have hencoder : stepped.1.encoder = ctx.encoder :=
        congrArg Core.encoder (steered_adaptiveBitrateStep g p.cells controlled).core
      have hasks := asks_adaptiveBitrateStep hg.floor (hb.target ctx before) controlled
      refine .inr ⟨ctx, before, hencoder, fun other pipe' hother hpipe' => ?_⟩
      rw [encoder, Option.some.injEq] at hother
      rw [← hother] at hpipe' ⊢
      simp only [List.getElem?_set_self (List.getElem?_eq_some_iff.mp present).1,
        Option.some.injEq] at hpipe'
      rw [← hpipe']
      exact ⟨pipe, present, follows_encodeInto hg haccepting hasks forceKeyframe⟩
  | countSubmission _ | forceKeyframe _ | demigrate _ _ =>
    refine h.keep hwired fun ctx' hctx' => ?_
    obtain ⟨ctx, hctx, rfl⟩ := Cells.update_some hctx'
    exact hkept hctx rfl rfl rfl hsame
  | stayDemigrated => exact h
  | output id place delivered pipe next present outputs =>
    obtain ⟨frame, -, hnext⟩ := output_cases outputs
    have hencoder : next.encoder = pipe.encoder := by rw [hnext]
    exact h.keep hwired fun ctx' hctx' =>
      hkept hctx' rfl rfl rfl fun other _ hpipe' => encoder_set present hencoder other hpipe'
  | ship id a pipe next present ships _ =>
    refine h.keep hwired fun ctx' hctx' => ?_
    obtain ⟨ctx, hctx, hcore⟩ := ships.core hctx'
    exact hkept hctx (congrArg Core.encoder hcore) (congrArg Core.adaptiveTargetBps hcore)
      (congrArg Core.idrBackedOff hcore)
      fun other _ hpipe' => encoder_set present ships.pipe.1 other hpipe'

/-- Words of one signed word are one. -/
theorem toInt32_inj {v : UInt32} (h : v.toInt32 = w.toInt32) : v = w := by
  have hbits : v.toInt32.toBitVec = w.toInt32.toBitVec := by rw [h]
  exact UInt32.toBitVec_inj.mp hbits

/-- An encoder made while another interval is wanted does not follow the controller. -/
theorem makesWanted_of_followed (hg : Tuned g) (hstep : p.step g a = some p')
    (h : Followed g p') : makesWanted g p a = true := by
  cases a with
  | admitCapture i =>
    simp only [makesWanted, Option.all_eq_true]
    intro ctx hctx
    rw [Bool.or_eq_true, Bool.not_eq_true', decide_eq_true_eq]
    cases hmakes : makesEncoder g p.cells i ctx with
    | false => exact .inl rfl
    | true =>
      right
      have hlength := length_step hstep
      rw [hctx, Option.any_some, if_pos hmakes] at hlength
      cases built_step hstep with
      | untouched _ kept | kept _ _ _ _ kept =>
        have hkept : p'.pipes = p.pipes := kept
        rw [hkept] at hlength
        omega
      | made ctx' settled surfaced before _ after added encoder target surfacedTarget backedOff =>
        have hsame : ctx = ctx' := Option.some.inj (hctx.symm.trans before)
        obtain ⟨pipe, hpipe, hfollows⟩ := h settled _ after encoder
        have hadded : p'.pipes = p.pipes ++ [newPipe g i.setup.threadSpawned surfaced] := added
        rw [hadded, List.getElem?_concat_length, Option.some.injEq] at hpipe
        have hinterval := hfollows.keyframes
        rw [← hpipe, backedOff, ← hsame, (encoder_new hg _ surfaced).2] at hinterval
        exact (toInt32_inj hinterval).symm
  | _ => rfl

theorem bounded_new (g : Factory) (o : Outside) : Bounded g (.new o) where
  wired := wired_of_none fun _ hctx => by cases hctx
  target := fun _ hctx => by cases hctx

/-- If the ceiling and both keyframe intervals fit, all the controller ever wants fits. -/
theorem Bounded.fitting (h : Bounded g p) (hceiling : (ceiling g).toNat < 2 ^ 31)
    (hframes : ∀ idrBackedOff, (wantedFrames g idrBackedOff).toNat < 2 ^ 31) : Fitting g p := by
  intro ctx hctx _
  have hle := UInt32.le_iff_toNat_le.mp (h.target ctx hctx)
  exact ⟨by omega, hframes ctx.idrBackedOff⟩

/-- The encoder follows the controller all along a run of a platform that accepts every update,
exactly if no encoder is made while another keyframe interval is wanted than the normal one. -/
theorem followed_iff {o : Outside} {acts : List Action} {t : Pipeline} (hg : Tuned g)
    (haccepting : ∀ a ∈ acts, accepting a = true)
    (hrun : run (Pipeline.step g) (.new o) acts = some t) :
    (∀ before u, before <+: acts → run (Pipeline.step g) (.new o) before = some u →
        Followed g u) ↔
      Meets (Pipeline.step g) (fun p a => makesWanted g p a = true) (.new o) acts := by
  refine prefixes_iff_meets_of_allowed (fun a => accepting a = true)
    ?_ ?_ ?_ (bounded_new g o) ?_ hrun haccepting
  · exact fun p a p' hb hstep => bounded_step hg.floor hb hstep
  · exact fun p a p' hallowed hb h hwanted hstep => followed_step hg hb h hallowed hwanted hstep
  · exact fun p a p' _ hstep h => makesWanted_of_followed hg hstep h
  · exact fun ctx id hctx _ => by cases hctx

/-- The encoder has the bitrate and the keyframe interval that the controller wants all along a
run of a platform that accepts every update, exactly if no encoder is made while another
interval is wanted than the normal one, and all that is wanted of an encoder fits. -/
theorem encoder_coupled_iff (args : GfxArgs) (env : GfxEnv) (o : Outside) (acts : List Action)
    (t : Pipeline) (haccepting : ∀ a ∈ acts, accepting a = true)
    (hrun : run (Pipeline.step (Factory.new args env)) (.new o) acts = some t) :
    (∀ before u, before <+: acts →
        run (Pipeline.step (Factory.new args env)) (.new o) before = some u →
        Coupled (Factory.new args env) u) ↔
      Meets (Pipeline.step (Factory.new args env))
          (fun p a => makesWanted (Factory.new args env) p a = true) (.new o) acts ∧
        ∀ before u, before <+: acts →
          run (Pipeline.step (Factory.new args env)) (.new o) before = some u →
          Fitting (Factory.new args env) u := by
  have hg := tuned_new args env
  rw [← followed_iff hg haccepting hrun]
  constructor
  · intro h
    exact ⟨fun before u hpre hu => (coupled_iff.mp (h before u hpre hu)).1,
      fun before u hpre hu => (coupled_iff.mp (h before u hpre hu)).2⟩
  · rintro ⟨hfollowed, hfitting⟩ before u hpre hu
    exact coupled_iff.mpr ⟨hfollowed before u hpre hu, hfitting before u hpre hu⟩

/-- Others count ten retransmissions. -/
def congested : Action := .outside { quietOutside 0 with congestionRetransmits := 10 }

/-- The keyframe interval is stretched, and a new channel has no use for it. -/
def stretchedOnce : List Action :=
  connecting 1 ++ [captureAt 2 false 1, encodeAt 2 true, .countSubmission, congested,
    captureAt 3 false 1, encodeAt 3 true, .countSubmission, .client .close] ++
    connecting 4 ++ [captureAt 5 false 2, encodeAt 5 true]

theorem encoder_coupled_stretchedOnce :
    (run (Pipeline.step (plainFactory true)) (.new (quietOutside 0)) stretchedOnce).isSome =
        true ∧
      ∀ before u, before <+: stretchedOnce →
        run (Pipeline.step (plainFactory true)) (.new (quietOutside 0)) before = some u →
        Coupled (plainFactory true) u := by
  have hruns : (run (Pipeline.step (plainFactory true)) (.new (quietOutside 0))
      stretchedOnce).isSome = true := by
    decide +kernel
  have haccepting : ∀ a ∈ stretchedOnce, accepting a = true := by decide +kernel
  have hwanted : meetsBool (Pipeline.step (plainFactory true)) (makesWanted (plainFactory true))
      (.new (quietOutside 0)) stretchedOnce = true := by
    decide +kernel
  have hceiling : (ceiling (plainFactory true)).toNat < 2 ^ 31 := by decide +kernel
  have hframes : ∀ idrBackedOff,
      (wantedFrames (plainFactory true) idrBackedOff).toNat < 2 ^ 31 := by
    decide +kernel
  obtain ⟨t, ht⟩ := Option.isSome_iff_exists.mp hruns
  refine ⟨hruns, (encoder_coupled_iff _ .unset _ _ t haccepting ht).mpr
    ⟨meetsBool_iff.mp hwanted, fun before u _ hu => ?_⟩⟩
  have hbounded := run_invariant_of_step (Bounded (plainFactory true))
    (fun _ _ _ hb hstep => bounded_step (tuned_new _ .unset).floor hb hstep) (bounded_new _ _) hu
  exact hbounded.fitting hceiling hframes

/-- The keyframe interval is stretched when the screen is resized. -/
def resizedStretched : List Action :=
  connecting 1 ++ [captureAt 2 false 1, encodeAt 2 true, .countSubmission, congested,
    captureAt 3 false 1, encodeAt 3 true, .countSubmission, .resetForLiveResize,
    captureAt 4 false 2]

theorem not_coupled_resizedStretched :
    ¬∀ (args : GfxArgs) (env : GfxEnv) (o : Outside) (acts : List Action) (t : Pipeline),
      (∀ a ∈ acts, accepting a = true) →
      run (Pipeline.step (Factory.new args env)) (.new o) acts = some t →
      ∀ before u, before <+: acts →
        run (Pipeline.step (Factory.new args env)) (.new o) before = some u →
        Coupled (Factory.new args env) u := by
  intro h
  have haccepting : ∀ a ∈ resizedStretched, accepting a = true := by decide +kernel
  have hmade : (run (Pipeline.step (plainFactory true)) (.new (quietOutside 0))
      resizedStretched).any (fun u => u.cells.ctx.any fun ctx => ctx.encoder.any fun id =>
        (u.pipes[id]?).any fun pipe => decide (pipe.encoder.maxKeyFrameInterval.toInt = 120) &&
          decide ((wantedFrames (plainFactory true) ctx.idrBackedOff).toNat = 36000)) = true := by
    decide +kernel
  simp only [Option.any_eq_true, Bool.and_eq_true, decide_eq_true_eq] at hmade
  obtain ⟨t, ht, ctx, hctx, id, hencoder, pipe, hpipe, hset, hwanted⟩ := hmade
  obtain ⟨found, hfound, hagrees⟩ :=
    h _ .unset _ _ t haccepting ht _ t (List.prefix_refl _) ht ctx id hctx hencoder
  rw [hpipe, Option.some.injEq] at hfound
  have hinterval := hagrees.keyframes
  rw [← hfound, hset] at hinterval
  have hwanted' : (wantedFrames (plainFactory true) ctx.idrBackedOff).toNat = 120 := by
    exact_mod_cast hinterval.symm
  omega

/-- In every run the bitrate that the controller wants is within the ceiling. -/
theorem target_le_ceiling (args : GfxArgs) (env : GfxEnv) (o : Outside) {acts : List Action}
    {t : Pipeline} (hrun : run (Pipeline.step (Factory.new args env)) (.new o) acts = some t)
    {ctx : LiveContext} (hctx : t.cells.ctx = some ctx) :
    ctx.adaptiveTargetBps ≤ ceiling (Factory.new args env) :=
  (run_invariant_of_step (Bounded _) (fun _ _ _ hb hstep =>
    bounded_step (tuned_new args env).floor hb hstep) (bounded_new _ o) hrun).target ctx hctx

/-- A congested run has a context whose bitrate is within the ceiling. -/
theorem target_le_ceiling_stretchedOnce : ∃ t ctx,
    run (Pipeline.step (plainFactory true)) (.new (quietOutside 0)) stretchedOnce = some t ∧
      t.cells.ctx = some ctx ∧ ctx.adaptiveTargetBps ≤ ceiling (plainFactory true) := by
  have hsome : ((run (Pipeline.step (plainFactory true)) (.new (quietOutside 0))
      stretchedOnce).bind fun t => t.cells.ctx).isSome = true := by decide +kernel
  obtain ⟨ctx, hbind⟩ := Option.isSome_iff_exists.mp hsome
  obtain ⟨t, ht, hctx⟩ := Option.bind_eq_some_iff.mp hbind
  exact ⟨t, ctx, ht, hctx, target_le_ceiling _ .unset _ ht hctx⟩

end Coupling

end Macrdp.PipelineSystem
