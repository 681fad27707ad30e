import Macrdp.RateControl
import Macrdp.StepSystem
import Mathlib.Tactic.Positivity

/-!
# The direction of the feedback

The controller takes the smoothed queue delay above its target for overload. The
frame-rate loop subtracts its output and so sheds frames under overload; the
bitrate loop adds its output, and so raises the bitrate under overload and
lowers it when there is headroom.
-/

namespace Macrdp.RateControl.Feedback

open PlatformTime GfxContext GfxFactory GfxLive RationalFloat StepSystem

/-- What the two loops keep from one interval to the next. -/
structure Loops where
  target : UInt32
  stage : AdaptiveFpsStage
  fps : ℚ
  /-- The integral of the bitrate loop. -/
  integral : ℚ
  fpsIntegral : ℚ

/-- The part of a context the two loops keep. -/
def loops (ctx : LiveContext) : Loops :=
  ⟨ctx.adaptiveTargetBps, ctx.adaptiveFpsStage, ctx.adaptivePidFps, ctx.adaptivePidIntegral,
    ctx.adaptivePidFpsIntegral⟩

/-- A call of the controller: what everyone else left in the context and the cells, and the
time. -/
structure Call where
  others : LiveContext
  cells : Cells
  now : Instant

/-- What a call finds: the controller's own part of the context, and the rest. -/
def Call.finds (c : Call) (ctx : LiveContext) : LiveContext :=
  { c.others with
    adaptiveTargetBps := ctx.adaptiveTargetBps
    adaptiveCeilingBps := ctx.adaptiveCeilingBps
    adaptiveLastControl := ctx.adaptiveLastControl
    adaptiveLastRetransmits := ctx.adaptiveLastRetransmits
    idrBackedOff := ctx.idrBackedOff
    adaptiveOnUdp := ctx.adaptiveOnUdp
    adaptiveWarmupUntil := ctx.adaptiveWarmupUntil
    adaptiveCongested := ctx.adaptiveCongested
    adaptiveFpsStage := ctx.adaptiveFpsStage
    adaptiveFpsClearSince := ctx.adaptiveFpsClearSince
    adaptivePidIntegral := ctx.adaptivePidIntegral
    adaptivePidPreviousError := ctx.adaptivePidPreviousError
    adaptiveDelayEwma := ctx.adaptiveDelayEwma
    adaptivePidFps := ctx.adaptivePidFps
    adaptivePidFpsIntegral := ctx.adaptivePidFpsIntegral
    adaptivePidFpsPreviousError := ctx.adaptivePidFpsPreviousError }

/-- What a call finds, once it knows when the warmup ends. -/
def Call.warmed (c : Call) (warmup : Option Instant) (ctx : LiveContext) : LiveContext :=
  { c.finds ctx with adaptiveWarmupUntil := warmup }

/-- One call of the controller. -/
def step (g : Factory) (ctx : LiveContext) (c : Call) : Option LiveContext :=
  (adaptiveBitrateStep g c.cells c.now (c.finds ctx)).map Prod.fst

/-- The context a call controls an interval in, if the interval is over. -/
def entering (g : Factory) (ctx : LiveContext) (c : Call) : Option LiveContext :=
  if !g.adaptiveEnabled then none
  else (warmupUntil (c.finds ctx) c.now).bind fun warmup =>
    let edge := transportEdge g c.cells.egfxOnUdp c.now (c.warmed warmup ctx)
    if c.now.saturatingDurationSince edge.1.adaptiveLastControl < g.adaptiveInterval then none
    else some { edge.1 with adaptiveLastControl := c.now }

/-- The signal of an interval. -/
def Call.signal (g : Factory) (c : Call) (entered : LiveContext) : Signal :=
  RateControl.signal g c.cells.congestionRetransmits c.now entered

/-- The context once the interval's signal is folded into it. -/
def Call.observed (g : Factory) (c : Call) (entered : LiveContext) : LiveContext :=
  observe g c.cells.congestionRetransmits (c.signal g entered) entered

/-- The context when the interval is over. -/
def Call.controlled (g : Factory) (c : Call) (entered : LiveContext) : LiveContext :=
  (controlInterval g c.cells.congestionRetransmits c.now .default entered).1

/-- The side of the target the smoothed delay is on. -/
inductive Side where
  | overload
  | headroom
  deriving DecidableEq

/-- The smoothed delay is off its target, by more than the deadband, to a side. -/
def Side.isPast (g : Factory) (observed : LiveContext) : Side → Prop
  | .overload => max g.adaptivePidFpsDeadbandMs 0 < queueError g observed
  | .headroom => max g.adaptivePidFpsDeadbandMs 0 < -queueError g observed

instance (g : Factory) (observed : LiveContext) : (side : Side) → Decidable (side.isPast g observed)
  | .overload => inferInstanceAs (Decidable (_ < _))
  | .headroom => inferInstanceAs (Decidable (_ < _))

/-- The number of a stage. -/
def stageFps : AdaptiveFpsStage → UInt32
  | .configured fps => fps

/-- What negative feedback makes of an interval on a side: neither actuator moves the wrong
way, and the bitrate moves the right way when it is its turn and it has room. -/
def Side.Corrects (g : Factory) (entered controlled : LiveContext) : Side → Prop
  | .overload => controlled.adaptiveTargetBps ≤ entered.adaptiveTargetBps ∧
      stageFps controlled.adaptiveFpsStage ≤ stageFps entered.adaptiveFpsStage ∧
      (entered.adaptivePidFps ≤ ofUInt32 g.adaptivePidMinFps →
        g.adaptiveFloorBps < entered.adaptiveTargetBps →
        controlled.adaptiveTargetBps < entered.adaptiveTargetBps)
  | .headroom => entered.adaptiveTargetBps ≤ controlled.adaptiveTargetBps ∧
      stageFps entered.adaptiveFpsStage ≤ stageFps controlled.adaptiveFpsStage ∧
      (entered.adaptiveTargetBps < ceiling g →
        entered.adaptiveTargetBps < controlled.adaptiveTargetBps)

instance (g : Factory) (entered controlled : LiveContext) :
    (side : Side) → Decidable (side.Corrects g entered controlled)
  | .overload => inferInstanceAs (Decidable (_ ∧ _ ∧ _))
  | .headroom => inferInstanceAs (Decidable (_ ∧ _ ∧ _))

/-- What the bitrate loop adds to the target, before rounding. -/
def bitrateMove (g : Factory) (observed : LiveContext) : ℚ :=
  let error := clamp (queueError g observed) (-500) 500
  (g.adaptivePidKp * error + g.adaptivePidKi *
    pidIntegralStep observed.adaptivePidIntegral error (asSecs g.adaptiveInterval) 2000) * 1000000

/-- What the frame-rate loop takes off the frame rate, before rounding. -/
def fpsMove (g : Factory) (observed : LiveContext) : ℚ :=
  (g.adaptivePidFpsKp * queueError g observed + g.adaptivePidFpsKi *
    pidIntegralStep observed.adaptivePidFpsIntegral (queueError g observed)
      (asSecs g.adaptiveInterval) 2000) * asSecs g.adaptiveInterval

/-- How high a frame rate gets when there is headroom. -/
def fpsReach (g : Factory) (observed : LiveContext) : ℤ :=
  if observed.adaptivePidFps < 60 then
    max (g.adaptivePidMinFps.toNat : ℤ) (roundAway (observed.adaptivePidFps - fpsMove g observed))
  else roundAway observed.adaptivePidFps

/-- The bitrate loop has nothing to move, and the frame-rate loop is in step with its stage. -/
def Side.isSafe (g : Factory) (observed : LiveContext) : Side → Bool
  | .overload => decide (ofUInt32 g.adaptivePidMinFps < observed.adaptivePidFps) ||
      decide (observed.adaptiveTargetBps ≤ g.adaptiveFloorBps) &&
        (decide (ceiling g ≤ observed.adaptiveTargetBps) ||
          decide (bitrateMove g observed < 1 / 2))
  | .headroom => decide (ceiling g ≤ observed.adaptiveTargetBps) &&
      decide ((stageFps observed.adaptiveFpsStage).toNat ≤ fpsReach g observed)

/-- The interval of a call, if it ends one, has a usable signal and is on a side. -/
def stretch (g : Factory) (side : Side) (ctx : LiveContext) (c : Call) : Bool :=
  (entering g ctx c).all fun entered =>
    (c.signal g entered).usable && decide (side.isPast g (c.observed g entered))

/-- The interval of a call, if it ends one, is corrected. -/
def corrects (g : Factory) (side : Side) (ctx : LiveContext) (c : Call) : Bool :=
  (entering g ctx c).all fun entered => decide (side.Corrects g entered (c.controlled g entered))

/-- The interval of a call, if it ends one, is safe. -/
def safe (g : Factory) (side : Side) (ctx : LiveContext) (c : Call) : Bool :=
  (entering g ctx c).all fun entered => side.isSafe g (c.observed g entered)

/-- The numbers of a factory whose bitrate is positive. -/
structure Sound (g : Factory) : Prop where
  floor_pos : 0 < g.adaptiveFloorBps.toNat
  floor_le : g.adaptiveFloorBps.toNat ≤ g.bitrateBps.toNat
  ceiling_eq : (ceiling g).toNat = g.bitrateBps.toNat
  minFps_pos : 0 < g.adaptivePidMinFps.toNat

/-- Both loops have a proportional gain and no derivative gain. -/
structure Gains (g : Factory) : Prop where
  kp : 0 < g.adaptivePidKp
  ki : 0 ≤ g.adaptivePidKi
  kd : g.adaptivePidKd = 0
  fpsKp : 0 < g.adaptivePidFpsKp
  fpsKi : 0 ≤ g.adaptivePidFpsKi
  fpsKd : g.adaptivePidFpsKd = 0

/-- What the loops keep is in range. -/
structure Ranged (g : Factory) (l : Loops) : Prop where
  floor_le : g.adaptiveFloorBps.toNat ≤ l.target.toNat
  le_bitrate : l.target.toNat ≤ g.bitrateBps.toNat
  integral : |l.integral| ≤ 2000
  fpsIntegral : |l.fpsIntegral| ≤ 2000
  fps_nonneg : 0 ≤ l.fps
  fps_le : l.fps ≤ ofUInt32 (stageFps l.stage)
  stage_le : (stageFps l.stage).toNat ≤ max g.fps.toNat g.adaptivePidMinFps.toNat

/-- The integrals lean to a side. -/
def Side.Leans (l : Loops) : Side → Prop
  | .overload => 0 ≤ l.integral ∧ 0 ≤ l.fpsIntegral
  | .headroom => l.integral ≤ 0 ∧ l.fpsIntegral ≤ 0

theorem sound_new (args : GfxArgs) (env : GfxEnv) (hbitrate : 0 < args.bitrateBps.toNat) :
    Sound (Factory.new args env) := by
  have hone : (1 : UInt32).toNat = 1 := rfl
  have hthirty : (30 : UInt32).toNat = 30 := rfl
  have hdefault : (500000 : UInt32).toNat = 500000 := rfl
  have hset : (Factory.new args env).adaptiveFloorBps =
    min (envU32 env.adaptiveFloorBps (max (args.bitrateBps / 8) 500000)) (max args.bitrateBps 1) :=
    rfl
  have hfallback : 0 < max (args.bitrateBps / 8) 500000 := by
    rw [UInt32.lt_iff_toNat_lt, toNat_max32]
    have hzero : (0 : UInt32).toNat = 0 := rfl
    omega
  have hpositive := UInt32.lt_iff_toNat_lt.mp (envU32_pos env.adaptiveFloorBps hfallback)
  have hzero : (0 : UInt32).toNat = 0 := rfl
  have hbitrate' : (Factory.new args env).bitrateBps = args.bitrateBps := rfl
  refine ⟨?_, ?_, ?_, ?_⟩
  · rw [hset, toNat_min32, toNat_max32]
    omega
  · rw [hset, hbitrate', toNat_min32, toNat_max32]
    omega
  · rw [ceiling, hbitrate', toNat_max32]
    omega
  · have hmin : (Factory.new args env).adaptivePidMinFps =
      max 30 (min (envU32 env.minFps 30) (max args.fps 30)) := rfl
    rw [hmin, toNat_max32]
    omega

theorem asSecs_nonneg (d : Duration) : 0 ≤ asSecs d := by
  unfold asSecs
  positivity

theorem abs_pidIntegralStep_le (integral error dt : ℚ) :
    |pidIntegralStep integral error dt 2000| ≤ 2000 := by
  have hmem := clamp_mem (by norm_num : (-2000 : ℚ) ≤ 2000) (integral + error * dt)
  exact abs_le.mpr hmem

variable {error : ℚ}

/-- An integral that leans with the error goes on leaning. -/
theorem pidIntegralStep_nonneg {integral dt : ℚ} (hintegral : 0 ≤ integral)
    (herror : 0 ≤ error) (hdt : 0 ≤ dt) : 0 ≤ pidIntegralStep integral error dt 2000 := by
  have hsum : 0 ≤ integral + error * dt := by positivity
  rw [pidIntegralStep, clamp_eq (by norm_num)]
  exact le_max_of_le_right (le_min hsum (by norm_num))

theorem pidIntegralStep_nonpos {integral dt : ℚ} (hintegral : integral ≤ 0)
    (herror : error ≤ 0) (hdt : 0 ≤ dt) : pidIntegralStep integral error dt 2000 ≤ 0 := by
  have hproduct : error * dt ≤ 0 := mul_nonpos_of_nonpos_of_nonneg herror hdt
  rw [pidIntegralStep, clamp_eq (by norm_num)]
  exact max_le (by norm_num) (min_le_of_left_le (by linarith))

/-- Clamping keeps the sign of an error. -/
theorem clamp_pos (h : 0 < error) : 0 < clamp error (-500) 500 := by
  rw [clamp_eq (by norm_num)]
  exact lt_max_of_lt_right (lt_min h (by norm_num))

theorem clamp_neg (h : error < 0) : clamp error (-500) 500 < 0 := by
  rw [clamp_eq (by norm_num)]
  exact max_lt (by norm_num) (min_lt_of_left_lt h)

variable {g : Factory}
variable {observed entered ctx ctx' : LiveContext}

/-- Under overload the bitrate loop adds, and the frame-rate loop takes off. -/
theorem moves_overload (hgains : Gains g)
    (herror : 0 < queueError g observed) (hleans : Side.Leans (loops observed) .overload) :
    0 < bitrateMove g observed ∧ 0 ≤ fpsMove g observed := by
  have hdt := asSecs_nonneg g.adaptiveInterval
  have hclamped := clamp_pos herror
  have hintegral := pidIntegralStep_nonneg hleans.1 hclamped.le hdt
  have hfpsIntegral := pidIntegralStep_nonneg hleans.2 herror.le hdt
  have hproportional := mul_pos hgains.kp hclamped
  have haccumulated := mul_nonneg hgains.ki hintegral
  have hfpsProportional := mul_pos hgains.fpsKp herror
  have hfpsAccumulated := mul_nonneg hgains.fpsKi hfpsIntegral
  constructor
  · exact mul_pos (add_pos_of_pos_of_nonneg hproportional haccumulated) (by norm_num)
  · exact mul_nonneg (add_nonneg hfpsProportional.le hfpsAccumulated) hdt

/-- With headroom the bitrate loop takes off, and the frame-rate loop adds. -/
theorem moves_headroom (hgains : Gains g)
    (herror : queueError g observed < 0) (hleans : Side.Leans (loops observed) .headroom) :
    bitrateMove g observed < 0 ∧ fpsMove g observed ≤ 0 := by
  have hdt := asSecs_nonneg g.adaptiveInterval
  have hclamped := clamp_neg herror
  have hintegral := pidIntegralStep_nonpos hleans.1 hclamped.le hdt
  have hfpsIntegral := pidIntegralStep_nonpos hleans.2 herror.le hdt
  have hproportional := mul_neg_of_pos_of_neg hgains.kp hclamped
  have haccumulated := mul_nonpos_of_nonneg_of_nonpos hgains.ki hintegral
  have hfpsProportional := mul_neg_of_pos_of_neg hgains.fpsKp herror
  have hfpsAccumulated := mul_nonpos_of_nonneg_of_nonpos hgains.fpsKi hfpsIntegral
  constructor
  · exact mul_neg_of_neg_of_pos (add_neg_of_neg_of_nonpos hproportional haccumulated)
      (by norm_num)
  · exact mul_nonpos_of_nonpos_of_nonneg (add_nonpos hfpsProportional.le hfpsAccumulated) hdt

/-- Where the bitrate loop takes the target. -/
theorem target_bitratePid (hsound : Sound g) (hgains : Gains g) (act : Actuators)
    (hruns : act.runBitrate = true) (observed : LiveContext) :
    ((bitratePid g true act observed).1.toNat : ℤ) =
      max (g.adaptiveFloorBps.toNat : ℤ)
        (min (roundAway (observed.adaptiveTargetBps.toNat + bitrateMove g observed))
          g.bitrateBps.toNat) := by
  have hone : (1 : UInt32).toNat = 1 := rfl
  have hpositive := hsound.floor_pos
  have hceiling := hsound.ceiling_eq
  have hfloor := hsound.floor_le
  have hlow : (max (max g.adaptiveFloorBps 1) 1).toNat = g.adaptiveFloorBps.toNat := by
    rw [toNat_max32, toNat_max32]
    omega
  have hhigh : (max (ceiling g) (max (max g.adaptiveFloorBps 1) 1)).toNat =
      g.bitrateBps.toNat := by
    rw [toNat_max32]
    omega
  have hle : max (max g.adaptiveFloorBps 1) 1 ≤
      max (ceiling g) (max (max g.adaptiveFloorBps 1) 1) := by
    rw [UInt32.le_iff_toNat_le]
    omega
  have hmove : ∀ error : ℚ, pidDelta error observed.adaptivePidPreviousError
      (pidIntegralStep observed.adaptivePidIntegral error (asSecs g.adaptiveInterval) 2000)
      (asSecs g.adaptiveInterval) g.adaptivePidKp g.adaptivePidKi g.adaptivePidKd =
      g.adaptivePidKp * error + g.adaptivePidKi * pidIntegralStep observed.adaptivePidIntegral
        error (asSecs g.adaptiveInterval) 2000 := by
    intro error
    rw [pidDelta, hgains.kd]
    ring
  have hword := toUInt32_clamp_roundAway hle
    (observed.adaptiveTargetBps.toNat + bitrateMove g observed)
  rw [hlow, hhigh] at hword
  rw [← hword]
  simp only [bitratePid, hruns, Bool.and_self, if_true, pidBitrateStep, hmove, bitrateMove,
    ofUInt32]

/-- Where the frame-rate loop takes the frame rate. -/
theorem pidFps_runs (hsound : Sound g) (hgains : Gains g) (act : Actuators)
    (hruns : act.runFps = true) (observed : LiveContext) :
    ((pidFps g act observed).toNat : ℤ) =
      max (g.adaptivePidMinFps.toNat : ℤ)
        (min (roundAway (observed.adaptivePidFps - fpsMove g observed))
          (max g.fps.toNat g.adaptivePidMinFps.toNat : ℕ)) := by
  have hone : (1 : UInt32).toNat = 1 := rfl
  have hpositive := hsound.minFps_pos
  have hlow : (max g.adaptivePidMinFps 1).toNat = g.adaptivePidMinFps.toNat := by
    rw [toNat_max32]
    omega
  have hhigh : (max (max g.fps g.adaptivePidMinFps) (max g.adaptivePidMinFps 1)).toNat =
      max g.fps.toNat g.adaptivePidMinFps.toNat := by
    rw [toNat_max32, toNat_max32]
    omega
  have hle : max g.adaptivePidMinFps 1 ≤
      max (max g.fps g.adaptivePidMinFps) (max g.adaptivePidMinFps 1) := by
    rw [UInt32.le_iff_toNat_le]
    omega
  have hmove : pidDelta (queueError g observed) observed.adaptivePidFpsPreviousError
      (fpsIntegral g act observed) (asSecs g.adaptiveInterval) g.adaptivePidFpsKp
      g.adaptivePidFpsKi g.adaptivePidFpsKd * asSecs g.adaptiveInterval = fpsMove g observed := by
    rw [pidDelta, fpsIntegral, if_pos hruns, hgains.fpsKd, fpsMove]
    ring
  have hword := toUInt32_clamp_roundAway hle (observed.adaptivePidFps - fpsMove g observed)
  rw [hlow, hhigh] at hword
  rw [← hword]
  simp only [pidFps, hruns, if_true, hmove, clampPidFps]

variable {l : Loops}

/-- A frame rate within its stage rounds within it. -/
theorem roundAway_fps (hranged : Ranged g l) :
    0 ≤ roundAway l.fps ∧ roundAway l.fps ≤ (stageFps l.stage).toNat := by
  have hzero := roundAway_mono hranged.fps_nonneg
  have hstage := roundAway_mono hranged.fps_le
  rw [ofUInt32, roundAway_natCast] at hstage
  have hround : roundAway 0 = 0 := by exact_mod_cast roundAway_natCast 0
  rw [hround] at hzero
  exact ⟨hzero, hstage⟩

/-- A frame-rate loop that is not run rounds the frame rate. -/
theorem pidFps_idle (act : Actuators) (hidle : act.runFps = false)
    (hranged : Ranged g (loops observed)) :
    ((pidFps g act observed).toNat : ℤ) = roundAway observed.adaptivePidFps := by
  have hfps : 0 ≤ roundAway observed.adaptivePidFps ∧
      roundAway observed.adaptivePidFps ≤ (stageFps observed.adaptiveFpsStage).toNat :=
    roundAway_fps hranged
  have hword := (stageFps observed.adaptiveFpsStage).toNat_lt
  have hset : pidFps g act observed = toUInt32 (roundAway observed.adaptivePidFps : ℤ) := by
    simp only [pidFps, hidle, Bool.false_eq_true, if_false]
  rw [hset, toUInt32_toNat, Int.floor_intCast]
  omega

/-- The loop that runs under overload. -/
theorem actuators_overload (hpast : Side.isPast g observed .overload) :
    0 < queueError g observed ∧ actuators g observed =
      if ofUInt32 g.adaptivePidMinFps < observed.adaptivePidFps then ⟨false, true⟩
      else ⟨true, false⟩ := by
  have hdeadband : max g.adaptivePidFpsDeadbandMs 0 < queueError g observed := hpast
  have hzero := le_max_right g.adaptivePidFpsDeadbandMs 0
  have hpositive : 0 < queueError g observed := by linarith
  refine ⟨hpositive, ?_⟩
  rw [actuators, ratePidActuators, abs_of_pos hpositive, if_neg (not_le.mpr hdeadband),
    if_pos hpositive]

/-- The loop that runs with headroom. -/
theorem actuators_headroom (hpast : Side.isPast g observed .headroom) :
    queueError g observed < 0 ∧ actuators g observed =
      if observed.adaptiveTargetBps < ceiling g then ⟨true, false⟩
      else if observed.adaptivePidFps < 60 then ⟨false, true⟩ else ⟨false, false⟩ := by
  have hdeadband : max g.adaptivePidFpsDeadbandMs 0 < -queueError g observed := hpast
  have hzero := le_max_right g.adaptivePidFpsDeadbandMs 0
  have hnegative : queueError g observed < 0 := by linarith
  refine ⟨hnegative, ?_⟩
  rw [actuators, ratePidActuators, abs_of_neg hnegative, if_neg (not_le.mpr hdeadband),
    if_neg (not_lt.mpr hnegative.le)]

/-- What an interval leaves of the loops. -/
structure Controlled (g : Factory) (usable : Bool) (observed : LiveContext) (l : Loops) :
    Prop where
  target : l.target = (bitratePid g usable (actuators g observed) observed).1
  stage : l.stage = .configured (pidFps g (actuators g observed) observed)
  fps : l.fps = ofUInt32 (pidFps g (actuators g observed) observed)
  integral : l.integral = (bitratePid g usable (actuators g observed) observed).2.1
  fpsIntegral : l.fpsIntegral = observed.adaptivePidFpsIntegral ∨
    l.fpsIntegral = RateControl.fpsIntegral g (actuators g observed) observed

theorem controlled_call (c : Call) (entered : LiveContext) :
    Controlled g (c.signal g entered).usable (c.observed g entered)
      (loops (c.controlled g entered)) := by
  have hset : ∀ (decision : IdrBackoff) (ctx : LiveContext),
      loops (setBackoff decision ctx) = loops ctx := by
    intro decision ctx
    cases decision <;> rfl
  have hloops : loops (c.controlled g entered) =
      loops (runLoops g c.cells.congestionRetransmits c.now entered) := hset _ _
  rw [hloops]
  refine ⟨rfl, rfl, rfl, rfl, ?_⟩
  have hfps : (loops (runLoops g c.cells.congestionRetransmits c.now entered)).fpsIntegral =
      (setFps g (actuators g (c.observed g entered)) (c.observed g entered)).adaptivePidFpsIntegral :=
    rfl
  rw [hfps]
  simp only [setFps]
  split
  · exact .inl rfl
  · exact .inr rfl

/-- What the bitrate loop leaves of its integral. -/
theorem integral_bitratePid (usable : Bool) (act : Actuators) (observed : LiveContext) :
    (bitratePid g usable act observed).2.1 = 0 ∨
      (bitratePid g usable act observed).2.1 = observed.adaptivePidIntegral ∨
      (bitratePid g usable act observed).2.1 = pidIntegralStep observed.adaptivePidIntegral
        (clamp (queueError g observed) (-500) 500) (asSecs g.adaptiveInterval) 2000 := by
  unfold bitratePid
  split
  · simp only [pidBitrateStep]
    split
    · exact .inr (.inl rfl)
    · exact .inr (.inr rfl)
  · split
    · exact .inl rfl
    · exact .inr (.inl rfl)

variable {usable : Bool}

/-- A bitrate loop that is not run leaves the target. -/
theorem target_idle {act : Actuators} (hidle : (usable && act.runBitrate) = false)
    (observed : LiveContext) :
    (bitratePid g usable act observed).1 = observed.adaptiveTargetBps := by
  unfold bitratePid
  rw [hidle]
  simp only [Bool.false_eq_true, if_false]
  split <;> rfl

/-- An interval leaves the loops in range. -/
theorem Controlled.ranged (hsound : Sound g) (hgains : Gains g) (h : Controlled g usable observed l)
    (hranged : Ranged g (loops observed)) : Ranged g l := by
  have hfloor := hranged.floor_le
  have hbitrate := hranged.le_bitrate
  have hfloorLe := hsound.floor_le
  have htarget : g.adaptiveFloorBps.toNat ≤ l.target.toNat ∧
      l.target.toNat ≤ g.bitrateBps.toNat := by
    rw [h.target]
    cases hruns : usable && (actuators g observed).runBitrate with
    | false =>
      rw [target_idle hruns]
      exact ⟨hfloor, hbitrate⟩
    | true =>
      obtain ⟨husable, hact⟩ := Bool.and_eq_true_iff.mp hruns
      have hmoved := target_bitratePid hsound hgains _ hact observed
      rw [husable]
      omega
  have hstage : (stageFps l.stage).toNat ≤ max g.fps.toNat g.adaptivePidMinFps.toNat := by
    have hbefore := hranged.stage_le
    have hsame : stageFps l.stage = pidFps g (actuators g observed) observed := by
      rw [h.stage]
      rfl
    rw [hsame]
    cases hruns : (actuators g observed).runFps with
    | false =>
      have hidle := pidFps_idle _ hruns hranged
      have hround : roundAway observed.adaptivePidFps ≤
        (stageFps (loops observed).stage).toNat := (roundAway_fps hranged).2
      omega
    | true =>
      have hmoved := pidFps_runs hsound hgains _ hruns observed
      omega
  refine ⟨htarget.1, htarget.2, ?_, ?_, ?_, ?_, hstage⟩
  · rw [h.integral]
    rcases integral_bitratePid usable (actuators g observed) observed with hi | hi | hi
    · rw [hi, abs_zero]
      norm_num
    · rw [hi]
      exact hranged.integral
    · rw [hi]
      exact abs_pidIntegralStep_le _ _ _
  · rcases h.fpsIntegral with hi | hi
    · rw [hi]
      exact hranged.fpsIntegral
    · rw [hi, RateControl.fpsIntegral]
      split
      · exact abs_pidIntegralStep_le _ _ _
      · exact hranged.fpsIntegral
  · rw [h.fps]
    exact Nat.cast_nonneg _
  · rw [h.fps, h.stage]
    exact le_refl _

variable {side : Side}

/-- On one side of the target the integrals go on leaning to that side. -/
theorem Controlled.leans (h : Controlled g usable observed l) (hpast : side.isPast g observed)
    (hleans : side.Leans (loops observed)) : side.Leans l := by
  have hdt := asSecs_nonneg g.adaptiveInterval
  have hintegral := integral_bitratePid (g := g) usable (actuators g observed) observed
  have hfpsIntegral := h.fpsIntegral
  rw [← h.integral] at hintegral
  cases side with
  | overload =>
    have herror := (actuators_overload hpast).1
    constructor
    · rcases hintegral with hi | hi | hi
      · exact hi.ge
      · rw [hi]
        exact hleans.1
      · rw [hi]
        exact pidIntegralStep_nonneg hleans.1 (clamp_pos herror).le hdt
    · rcases hfpsIntegral with hi | hi
      · rw [hi]
        exact hleans.2
      · rw [hi, RateControl.fpsIntegral]
        split
        · exact pidIntegralStep_nonneg hleans.2 herror.le hdt
        · exact hleans.2
  | headroom =>
    have herror := (actuators_headroom hpast).1
    constructor
    · rcases hintegral with hi | hi | hi
      · exact hi.le
      · rw [hi]
        exact hleans.1
      · rw [hi]
        exact pidIntegralStep_nonpos hleans.1 (clamp_neg herror).le hdt
    · rcases hfpsIntegral with hi | hi
      · rw [hi]
        exact hleans.2
      · rw [hi, RateControl.fpsIntegral]
        split
        · exact pidIntegralStep_nonpos hleans.2 herror.le hdt
        · exact hleans.2

/-- A bitrate loop that adds under overload leaves the target where it is, exactly if it is at
its ceiling or the addition rounds to nothing; otherwise it raises it. -/
theorem target_overload (hsound : Sound g) (hgains : Gains g) (act : Actuators)
    (hruns : act.runBitrate = true) (hranged : Ranged g (loops observed))
    (hmove : 0 < bitrateMove g observed) :
    observed.adaptiveTargetBps.toNat ≤ (bitratePid g true act observed).1.toNat ∧
      ((bitratePid g true act observed).1.toNat ≤ observed.adaptiveTargetBps.toNat ↔
        g.bitrateBps.toNat ≤ observed.adaptiveTargetBps.toNat ∨ bitrateMove g observed < 1 / 2) := by
  have htarget := target_bitratePid hsound hgains act hruns observed
  have hfloor : g.adaptiveFloorBps.toNat ≤ observed.adaptiveTargetBps.toNat := hranged.floor_le
  have hbitrate : observed.adaptiveTargetBps.toNat ≤ g.bitrateBps.toNat := hranged.le_bitrate
  by_cases hsmall : bitrateMove g observed < 1 / 2
  · have hround := roundAway_natCast_add_of_lt (n := observed.adaptiveTargetBps.toNat) hmove.le
      hsmall
    rw [hround] at htarget
    have hsame : (bitratePid g true act observed).1.toNat =
        observed.adaptiveTargetBps.toNat := by
      omega
    rw [hsame]
    exact ⟨le_refl _, fun _ => .inr hsmall, fun _ => le_refl _⟩
  · have hround := lt_roundAway_natCast_add (n := observed.adaptiveTargetBps.toNat)
      (not_lt.mp hsmall)
    simp only [hsmall, or_false]
    omega

/-- A bitrate loop that takes off with headroom does not raise the target. -/
theorem target_headroom (hsound : Sound g) (hgains : Gains g) (act : Actuators)
    (hruns : act.runBitrate = true) (hranged : Ranged g (loops observed))
    (hmove : bitrateMove g observed < 0) :
    (bitratePid g true act observed).1.toNat ≤ observed.adaptiveTargetBps.toNat := by
  have htarget := target_bitratePid hsound hgains act hruns observed
  have hfloor : g.adaptiveFloorBps.toNat ≤ observed.adaptiveTargetBps.toNat := hranged.floor_le
  have hround := roundAway_mono
    (by linarith : (observed.adaptiveTargetBps.toNat : ℚ) + bitrateMove g observed ≤
      observed.adaptiveTargetBps.toNat)
  rw [roundAway_natCast] at hround
  omega

/-- The target and the stage an interval leaves. -/
theorem controlled_words (c : Call) (husable : (c.signal g entered).usable = true) (act : Actuators)
    (hact : actuators g (c.observed g entered) = act) :
    (c.controlled g entered).adaptiveTargetBps = (bitratePid g true act (c.observed g entered)).1 ∧
      stageFps (c.controlled g entered).adaptiveFpsStage =
        pidFps g act (c.observed g entered) := by
  have hcontrolled := controlled_call c (g := g) entered
  have htarget := hcontrolled.target
  have hstage := congrArg stageFps hcontrolled.stage
  rw [husable, hact] at htarget
  rw [hact] at hstage
  exact ⟨htarget, hstage⟩

variable {c : Call}

/-- An interval under overload is corrected exactly if it is safe. -/
theorem corrects_overload_iff (hsound : Sound g) (hgains : Gains g)
    (hranged : Ranged g (loops (c.observed g entered)))
    (husable : (c.signal g entered).usable = true)
    (hpast : Side.isPast g (c.observed g entered) .overload)
    (hleans : Side.Leans (loops (c.observed g entered)) .overload) :
    Side.Corrects g (c.observed g entered) (c.controlled g entered) .overload ↔
      Side.isSafe g (c.observed g entered) .overload = true := by
  obtain ⟨herror, hact⟩ := actuators_overload hpast
  obtain ⟨hbitrateMove, hfpsMove⟩ := moves_overload hgains herror hleans
  have hwords := controlled_words (g := g) c husable
  have hceiling := hsound.ceiling_eq
  have hfps : roundAway (c.observed g entered).adaptivePidFps ≤
    (stageFps (c.observed g entered).adaptiveFpsStage).toNat := (roundAway_fps hranged).2
  have hstage : (c.observed g entered).adaptivePidFps ≤
    ofUInt32 (stageFps (c.observed g entered).adaptiveFpsStage) := hranged.fps_le
  generalize c.observed g entered = observed at *
  generalize c.controlled g entered = controlled at *
  simp only [Side.Corrects, Side.isSafe, Bool.or_eq_true, Bool.and_eq_true, decide_eq_true_eq]
  by_cases habove : ofUInt32 g.adaptivePidMinFps < observed.adaptivePidFps
  · rw [if_pos habove] at hact
    obtain ⟨htarget, hstaged⟩ := hwords _ hact
    rw [target_idle rfl] at htarget
    have hmoved := pidFps_runs hsound hgains ⟨false, true⟩ rfl observed
    have hround := roundAway_mono
      (by linarith : observed.adaptivePidFps - fpsMove g observed ≤ observed.adaptivePidFps)
    have hfloor : g.adaptivePidMinFps.toNat < (stageFps observed.adaptiveFpsStage).toNat :=
      Nat.cast_lt.mp (lt_of_lt_of_le habove hstage)
    simp only [habove, true_or, iff_true, not_le.mpr habove, false_imp_iff, and_true]
    rw [htarget, hstaged, UInt32.le_iff_toNat_le, UInt32.le_iff_toNat_le]
    omega
  · rw [if_neg habove] at hact
    obtain ⟨htarget, hstaged⟩ := hwords _ hact
    obtain ⟨hraised, hstays⟩ := target_overload hsound hgains ⟨true, false⟩ rfl hranged
      hbitrateMove
    have hidle := pidFps_idle ⟨true, false⟩ rfl hranged
    simp only [habove, false_or, not_lt.mp habove, true_imp_iff]
    rw [htarget, hstaged]
    simp only [UInt32.le_iff_toNat_le, UInt32.lt_iff_toNat_lt]
    rw [hceiling, ← hstays]
    omega

/-- An interval with headroom is corrected exactly if it is safe. -/
theorem corrects_headroom_iff (hsound : Sound g) (hgains : Gains g)
    (hranged : Ranged g (loops (c.observed g entered)))
    (husable : (c.signal g entered).usable = true)
    (hpast : Side.isPast g (c.observed g entered) .headroom)
    (hleans : Side.Leans (loops (c.observed g entered)) .headroom) :
    Side.Corrects g (c.observed g entered) (c.controlled g entered) .headroom ↔
      Side.isSafe g (c.observed g entered) .headroom = true := by
  obtain ⟨herror, hact⟩ := actuators_headroom hpast
  obtain ⟨hbitrateMove, hfpsMove⟩ := moves_headroom hgains herror hleans
  have hwords := controlled_words (g := g) c husable
  have hceiling := hsound.ceiling_eq
  have hstage : (stageFps (c.observed g entered).adaptiveFpsStage).toNat ≤
    max g.fps.toNat g.adaptivePidMinFps.toNat := hranged.stage_le
  generalize c.observed g entered = observed at *
  generalize c.controlled g entered = controlled at *
  simp only [Side.Corrects, Side.isSafe, Bool.and_eq_true, decide_eq_true_eq]
  by_cases hbelow : observed.adaptiveTargetBps < ceiling g
  · rw [if_pos hbelow] at hact
    obtain ⟨htarget, -⟩ := hwords _ hact
    have hlowered := target_headroom hsound hgains ⟨true, false⟩ rfl hranged hbitrateMove
    have hbelow' := UInt32.lt_iff_toNat_lt.mp hbelow
    simp only [hbelow, true_imp_iff, htarget, UInt32.le_iff_toNat_le, UInt32.lt_iff_toNat_lt]
    omega
  · rw [if_neg hbelow] at hact
    have habove : ceiling g ≤ observed.adaptiveTargetBps := by
      rw [UInt32.lt_iff_toNat_lt] at hbelow
      rw [UInt32.le_iff_toNat_le]
      omega
    simp only [hbelow, false_imp_iff, and_true, habove, true_and, fpsReach]
    by_cases hslow : observed.adaptivePidFps < 60
    · rw [if_pos hslow] at hact ⊢
      obtain ⟨htarget, hstaged⟩ := hwords _ hact
      rw [target_idle rfl] at htarget
      have hmoved := pidFps_runs hsound hgains ⟨false, true⟩ rfl observed
      simp only [htarget, hstaged, UInt32.le_iff_toNat_le, le_refl, true_and]
      omega
    · rw [if_neg hslow] at hact ⊢
      obtain ⟨htarget, hstaged⟩ := hwords _ hact
      rw [target_idle rfl] at htarget
      have hidle := pidFps_idle ⟨false, false⟩ rfl hranged
      simp only [htarget, hstaged, UInt32.le_iff_toNat_le, le_refl, true_and]
      omega

/-- What the edge of the transport makes of the loops. -/
inductive Rerouted (g : Factory) (l : Loops) : Loops → Prop
  | stays : Rerouted g l l
  /-- The full bitrate is restored, and the loops start afresh. -/
  | leaves : Rerouted g l { l with
      target := if l.target < ceiling g then ceiling g else l.target
      integral := 0
      fpsIntegral := 0 }

theorem rerouted_transportEdge (onUdp : Bool) (now : Instant) (ctx : LiveContext) :
    Rerouted g (loops ctx) (loops (transportEdge g onUdp now ctx).1) := by
  simp only [transportEdge]
  split
  · exact .leaves
  · exact .stays

/-- The edge of the transport, at a call. -/
theorem rerouted_warmed (c : Call) (warmup : Option Instant) (ctx : LiveContext) :
    Rerouted g (loops ctx)
      (loops (transportEdge g c.cells.egfxOnUdp c.now (c.warmed warmup ctx)).1) := by
  have hsame : loops (c.warmed warmup ctx) = loops ctx := rfl
  have hedge := rerouted_transportEdge (g := g) c.cells.egfxOnUdp c.now (c.warmed warmup ctx)
  rw [hsame] at hedge
  exact hedge

theorem Rerouted.ranged {l' : Loops} (hsound : Sound g) (h : Rerouted g l l')
    (hranged : Ranged g l) : Ranged g l' := by
  cases h with
  | stays => exact hranged
  | leaves =>
    have hfloor := hranged.floor_le
    have hbitrate := hranged.le_bitrate
    have hceiling := hsound.ceiling_eq
    have hfloorLe := hsound.floor_le
    refine ⟨?_, ?_, ?_, ?_, hranged.fps_nonneg, hranged.fps_le, hranged.stage_le⟩
    · dsimp only
      split
      · omega
      · exact hfloor
    · dsimp only
      split
      · omega
      · exact hbitrate
    · norm_num
    · norm_num

theorem Rerouted.leans {l' : Loops} (h : Rerouted g l l')
    (hleans : side.Leans l) : side.Leans l' := by
  cases h with
  | stays => exact hleans
  | leaves => cases side <;> exact ⟨le_refl 0, le_refl 0⟩

theorem Rerouted.fps {l' : Loops} (h : Rerouted g l l') : l'.fps = l.fps := by
  cases h <;> rfl

/-- A call notices the edge of the transport, and controls an interval if it is over. -/
theorem step_cases (h : step g ctx c = some ctx') :
    (entering g ctx c = none ∧ Rerouted g (loops ctx) (loops ctx')) ∨
      ∃ entered, entering g ctx c = some entered ∧ Rerouted g (loops ctx) (loops entered) ∧
        loops ctx' = loops (c.controlled g entered) := by
  obtain ⟨stepped, hstepped, rfl⟩ := Option.map_eq_some_iff.mp h
  unfold adaptiveBitrateStep at hstepped
  unfold entering
  split at hstepped
  · next hoff =>
    cases hstepped
    rw [if_pos hoff]
    exact .inl ⟨rfl, .stays⟩
  · next hon =>
    obtain ⟨warmup, hwarmup, rfl⟩ := Option.map_eq_some_iff.mp hstepped
    rw [if_neg hon, hwarmup, Option.bind_some]
    have hwarmed : ({ c.finds ctx with adaptiveWarmupUntil := warmup } : LiveContext) =
      c.warmed warmup ctx := rfl
    have hedge := rerouted_warmed (g := g) c warmup ctx
    rw [hwarmed]
    dsimp only
    generalize transportEdge g c.cells.egfxOnUdp c.now (c.warmed warmup ctx) = edge at hedge ⊢
    split
    · exact .inl ⟨rfl, hedge⟩
    · exact .inr ⟨_, rfl, hedge, rfl⟩

/-- Every call leaves the loops in range. -/
theorem ranged_step (hsound : Sound g) (hgains : Gains g)
    (hranged : Ranged g (loops ctx)) (h : step g ctx c = some ctx') : Ranged g (loops ctx') := by
  rcases step_cases h with ⟨-, hrerouted⟩ | ⟨entered, -, hrerouted, hcontrolled⟩
  · exact hrerouted.ranged hsound hranged
  · rw [hcontrolled]
    have hentered := hrerouted.ranged hsound hranged
    exact (controlled_call c entered).ranged hsound hgains hentered

/-- On a stretch the integrals lean to its side. -/
theorem leans_step (hleans : side.Leans (loops ctx)) (hstretch : stretch g side ctx c = true)
    (h : step g ctx c = some ctx') : side.Leans (loops ctx') := by
  unfold stretch at hstretch
  rcases step_cases h with ⟨-, hrerouted⟩ | ⟨entered, hentered, hrerouted, hcontrolled⟩
  · exact hrerouted.leans hleans
  · rw [hcontrolled]
    rw [hentered, Option.all_some, Bool.and_eq_true, decide_eq_true_eq] at hstretch
    exact (controlled_call c entered).leans hstretch.2 (hrerouted.leans hleans)

/-- The context an interval is controlled in has the loops of the context before it, but for the
edge of the transport. -/
theorem rerouted_entering
    (h : entering g ctx c = some entered) : Rerouted g (loops ctx) (loops entered) := by
  unfold entering at h
  split at h
  · cases h
  · obtain ⟨warmup, -, hdue⟩ := Option.bind_eq_some_iff.mp h
    have hedge := rerouted_warmed (g := g) c warmup ctx
    dsimp only at hdue
    generalize transportEdge g c.cells.egfxOnUdp c.now (c.warmed warmup ctx) = edge at hedge hdue
    split at hdue
    · cases hdue
    · cases hdue
      exact hedge

/-- On a stretch the intervals of a call are corrected exactly if they are safe. -/
theorem corrects_iff_safe (hsound : Sound g) (hgains : Gains g)
    (hranged : Ranged g (loops ctx)) (hleans : side.Leans (loops ctx))
    (hstretch : stretch g side ctx c = true) :
    corrects g side ctx c = true ↔ safe g side ctx c = true := by
  unfold corrects safe
  unfold stretch at hstretch
  cases hentered : entering g ctx c with
  | none => exact Iff.rfl
  | some entered =>
    rw [hentered, Option.all_some, Bool.and_eq_true, decide_eq_true_eq] at hstretch
    rw [Option.all_some, Option.all_some, decide_eq_true_eq]
    have hrerouted := rerouted_entering hentered
    have hranged' : Ranged g (loops (c.observed g entered)) := hrerouted.ranged hsound hranged
    have hleans' : side.Leans (loops (c.observed g entered)) := hrerouted.leans hleans
    obtain ⟨husable, hpast⟩ := hstretch
    cases side with
    | overload => exact corrects_overload_iff hsound hgains hranged' husable hpast hleans'
    | headroom => exact corrects_headroom_iff hsound hgains hranged' husable hpast hleans'

/-- What a frame-rate loop leaves is at its floor or above, if it was or if the loop ran. -/
theorem Controlled.minFps_le (hsound : Sound g) (hgains : Gains g)
    (h : Controlled g usable observed l) (hranged : Ranged g (loops observed))
    (hfps : (actuators g observed).runFps = true ∨
      ofUInt32 g.adaptivePidMinFps ≤ observed.adaptivePidFps) :
    ofUInt32 g.adaptivePidMinFps ≤ l.fps := by
  rw [h.fps]
  refine Nat.cast_le.mpr ?_
  cases hruns : (actuators g observed).runFps with
  | true =>
    have hmoved := pidFps_runs hsound hgains _ hruns observed
    omega
  | false =>
    have hidle := pidFps_idle _ hruns hranged
    have habove := hfps.resolve_left (by rw [hruns]; exact Bool.false_ne_true)
    have hround := roundAway_mono habove
    rw [ofUInt32, roundAway_natCast] at hround
    omega

/-- A frame rate at its floor or above stays there. -/
theorem minFps_step (hsound : Sound g) (hgains : Gains g)
    (hranged : Ranged g (loops ctx)) (hfps : ofUInt32 g.adaptivePidMinFps ≤ (loops ctx).fps)
    (h : step g ctx c = some ctx') : ofUInt32 g.adaptivePidMinFps ≤ (loops ctx').fps := by
  rcases step_cases h with ⟨-, hrerouted⟩ | ⟨entered, -, hrerouted, hcontrolled⟩
  · rw [hrerouted.fps]
    exact hfps
  · rw [← hrerouted.fps] at hfps
    rw [hcontrolled]
    exact (controlled_call c entered).minFps_le hsound hgains (hrerouted.ranged hsound hranged)
      (.inr hfps)

/-- The bitrate a connection starts with is at its floor or above, and within the ceiling. -/
theorem target_freshLive (hsound : Sound g) (cells : Cells) (counters : GfxCounters)
    (now : Instant) :
    g.adaptiveFloorBps.toNat ≤ (freshLive g cells counters now).adaptiveTargetBps.toNat ∧
      (freshLive g cells counters now).adaptiveTargetBps.toNat ≤ g.bitrateBps.toNat := by
  have hset : (freshLive g cells counters now).adaptiveTargetBps =
      if g.adaptiveEnabled then
        seededInitialBitrate g.bitrateBps g.adaptiveFloorBps cells.linkRttMs g.adaptiveSeedRttMs
      else g.bitrateBps := rfl
  have hfloor := hsound.floor_le
  have hpositive := hsound.floor_pos
  have hone : (1 : UInt32).toNat = 1 := rfl
  have hthree : (3 : UInt32).toNat = 3 := rfl
  rw [hset]
  split
  · unfold seededInitialBitrate
    split
    · omega
    · simp only [toNat_max32, toNat_min32, UInt32.toNat_div, hone, hthree]
      omega
  · omega

/-- The frame rate a connection starts with is a part of that configured. -/
theorem fps_freshLive (hsound : Sound g) (cells : Cells) (counters : GfxCounters)
    (now : Instant) :
    ∃ part : ℚ, 0 ≤ part ∧ part ≤ 1 ∧
      (freshLive g cells counters now).adaptivePidFps = part * ofUInt32 g.fps := by
  have hone : (1 : UInt32).toNat = 1 := rfl
  have hfloor := hsound.floor_le
  have hpositive := hsound.floor_pos
  have hbound : ∀ target : UInt32,
      (clamp32 target g.adaptiveFloorBps (max g.bitrateBps 1)).toNat ≤
        (max g.bitrateBps 1).toNat := by
    intro target
    rw [clamp32, toNat_max32, toNat_min32, toNat_max32]
    omega
  have hceiling : (0 : ℚ) < ofUInt32 (max g.bitrateBps 1) := by
    refine Nat.cast_pos.mpr ?_
    rw [toNat_max32]
    omega
  refine ⟨_, ?_, ?_, rfl⟩
  · exact div_nonneg (Nat.cast_nonneg _) hceiling.le
  · rw [div_le_one hceiling]
    exact Nat.cast_le.mpr (hbound _)

theorem ranged_freshLive (hsound : Sound g) (cells : Cells) (counters : GfxCounters)
    (now : Instant) : Ranged g (loops (freshLive g cells counters now)) := by
  obtain ⟨hfloor, hbitrate⟩ := target_freshLive hsound cells counters now
  obtain ⟨part, hnonneg, hle, hfps⟩ := fps_freshLive hsound cells counters now
  have hstage : (0 : ℚ) ≤ ofUInt32 g.fps := Nat.cast_nonneg _
  refine ⟨hfloor, hbitrate, ?_, ?_, ?_, ?_, Nat.le_max_left _ _⟩
  · have hzero : (loops (freshLive g cells counters now)).integral = 0 := rfl
    rw [hzero, abs_zero]
    norm_num
  · have hzero : (loops (freshLive g cells counters now)).fpsIntegral = 0 := rfl
    rw [hzero, abs_zero]
    norm_num
  · rw [loops, hfps]
    exact mul_nonneg hnonneg hstage
  · rw [loops, hfps]
    exact mul_le_of_le_one_left hstage hle

/-- The frame rate is between its floor and the higher of its floor and that configured. -/
def FpsRanged (g : Factory) (ctx : LiveContext) : Prop :=
  ofUInt32 g.adaptivePidMinFps ≤ ctx.adaptivePidFps ∧
    ctx.adaptivePidFps ≤ (max g.fps.toNat g.adaptivePidMinFps.toNat : ℕ)

/-- Once the frame-rate loop has run, the frame rate stays between its limits. -/
theorem fpsRanged_of_runFps (hsound : Sound g) (hgains : Gains g)
    {rest : List Call} (hranged : Ranged g (loops ctx)) (hentered : entering g ctx c = some entered)
    (hruns : (actuators g (c.observed g entered)).runFps = true)
    (hrun : run (step g) ctx (c :: rest) = some ctx') : FpsRanged g ctx' := by
  obtain ⟨middle, hmiddle, hrest⟩ := run_cons_some.mp hrun
  have hactive : ofUInt32 g.adaptivePidMinFps ≤ (loops middle).fps := by
    rcases step_cases hmiddle with ⟨hnone, -⟩ | ⟨entered', hentered', hrerouted, hcontrolled⟩
    · rw [hentered] at hnone
      cases hnone
    · rw [hentered, Option.some.injEq] at hentered'
      rw [← hentered'] at hrerouted hcontrolled
      rw [hcontrolled]
      exact (controlled_call c entered).minFps_le hsound hgains
        (hrerouted.ranged hsound hranged) (.inl hruns)
  have hinvariant := run_invariant_of_step
    (fun ctx => Ranged g (loops ctx) ∧ ofUInt32 g.adaptivePidMinFps ≤ (loops ctx).fps)
    (fun _ _ _ hboth hstep => ⟨ranged_step hsound hgains hboth.1 hstep,
      minFps_step hsound hgains hboth.1 hboth.2 hstep⟩)
    ⟨ranged_step hsound hgains hranged hmiddle, hactive⟩ hrest
  refine ⟨hinvariant.2, ?_⟩
  have hstage : (ofUInt32 (stageFps ctx'.adaptiveFpsStage) : ℚ) ≤
    (max g.fps.toNat g.adaptivePidMinFps.toNat : ℕ) := Nat.cast_le.mpr hinvariant.1.stage_le
  have hfps : ctx'.adaptivePidFps ≤ ofUInt32 (stageFps ctx'.adaptiveFpsStage) :=
    hinvariant.1.fps_le
  linarith

/-- From a fresh context the bitrate, the integrals and, once the frame-rate loop has run, the
frame rate stay in range; and on a stretch of intervals on one side of the target, which starts
with zero integrals, each interval is corrected exactly if each is safe. -/
theorem feedback_corrects_iff (args : GfxArgs) (env : GfxEnv)
    (hbitrate : 0 < args.bitrateBps.toNat) (hgains : Gains (Factory.new args env)) (cells : Cells)
    (counters : GfxCounters) (now : Instant) (before calls : List Call) (ctx : LiveContext)
    (hbefore : run (step (Factory.new args env))
      (freshLive (Factory.new args env) cells counters now) before = some ctx) :
    Ranged (Factory.new args env) (loops ctx) ∧
      (∀ c rest entered ctx', entering (Factory.new args env) ctx c = some entered →
        (actuators (Factory.new args env) (c.observed (Factory.new args env) entered)).runFps =
          true →
        run (step (Factory.new args env)) ctx (c :: rest) = some ctx' →
        FpsRanged (Factory.new args env) ctx') ∧
      ∀ side : Side, ctx.adaptivePidIntegral = 0 → ctx.adaptivePidFpsIntegral = 0 →
        Meets (step (Factory.new args env))
          (fun ctx c => stretch (Factory.new args env) side ctx c = true) ctx calls →
        (Meets (step (Factory.new args env))
            (fun ctx c => corrects (Factory.new args env) side ctx c = true) ctx calls ↔
          Meets (step (Factory.new args env))
            (fun ctx c => safe (Factory.new args env) side ctx c = true) ctx calls) := by
  have hsound := sound_new args env hbitrate
  generalize Factory.new args env = g at *
  have hranged := run_invariant_of_step (fun ctx => Ranged g (loops ctx))
    (fun _ _ _ hranged hstep => ranged_step hsound hgains hranged hstep)
    (ranged_freshLive hsound cells counters now) hbefore
  refine ⟨hranged, ?_, ?_⟩
  · intro c rest entered ctx' hentered hruns hrun
    exact fpsRanged_of_runFps hsound hgains hranged hentered hruns hrun
  · intro side hintegral hfpsIntegral hstretch
    have hleans : side.Leans (loops ctx) := by
      cases side with
      | overload => exact ⟨hintegral.ge, hfpsIntegral.ge⟩
      | headroom => exact ⟨hintegral.le, hfpsIntegral.le⟩
    refine Meets.iff_of_invariant (fun ctx => Ranged g (loops ctx) ∧ side.Leans (loops ctx))
      ?_ ?_ ⟨hranged, hleans⟩ hstretch
    · intro ctx c ctx' hboth hstretch hstep
      exact ⟨ranged_step hsound hgains hboth.1 hstep, leans_step hboth.2 hstretch hstep⟩
    · intro ctx c hboth hstretch
      exact corrects_iff_safe hsound hgains hboth.1 hboth.2 hstretch

/-- A frame rate, 20 Mbit/s, and the adaptive controller. -/
def argsAt (fps : UInt32) : GfxArgs where
  fps := fps
  bitrateBps := 20000000
  keyframeSecs := 2
  maxInFlight := 3
  adaptiveBitrate := true
  telemetry := true

/-- The cells of a link with a round trip. -/
def cellsAt (linkRttMs : UInt32) : Cells where
  ctx := none
  desktopSize := (16, 2)
  egfxOnLossy := false
  egfxOnUdp := false
  demigrateRequest := false
  congestionRetransmits := 0
  linkRttMs := linkRttMs
  eventQueue := 0
  consecutiveBlankDrops := 0
  reactivateRequest := 0
  senderSet := true

/-- The context of a connection that starts at the first second. -/
def startedAt (fps linkRttMs : UInt32) : LiveContext :=
  freshLive (.new (argsAt fps) .unset) (cellsAt linkRttMs) ⟨0, 0⟩ (.fromSecs 1)

/-- A call at a second, when frames are acknowledged with a queue delay. -/
def callAt (secs : UInt32) (queueDelayMs : ℚ) : Call where
  others := { startedAt 60 0 with
    egfxAcksSeen := true
    queueDelayMs := queueDelayMs
    lastAckAdvanceAt := .fromSecs secs
    lastShipAt := .fromSecs secs }
  cells := cellsAt 0
  now := .fromSecs secs

theorem gains_plain (fps : UInt32) : Gains (.new (argsAt fps) .unset) where
  kp := by
    have hset : (Factory.new (argsAt fps) .unset).adaptivePidKp = 1 / 1000 := rfl
    rw [hset]
    norm_num
  ki := by
    have hset : (Factory.new (argsAt fps) .unset).adaptivePidKi = 5 / 100000 := rfl
    rw [hset]
    norm_num
  kd := rfl
  fpsKp := by
    have hset : (Factory.new (argsAt fps) .unset).adaptivePidFpsKp = 1 / 2 := rfl
    rw [hset]
    norm_num
  fpsKi := by
    have hset : (Factory.new (argsAt fps) .unset).adaptivePidFpsKi = 2 / 100 := rfl
    rw [hset]
    norm_num
  fpsKd := rfl

/-- Frames are shed while the queue grows. -/
theorem feedback_corrects_shedding :
    ∃ ctx, run (step (.new (argsAt 60) .unset)) (startedAt 60 0) [callAt 2 0] = some ctx ∧
      Ranged (.new (argsAt 60) .unset) (loops ctx) ∧
      Meets (step (.new (argsAt 60) .unset))
        (fun ctx c => stretch (.new (argsAt 60) .unset) .overload ctx c = true) ctx
        [callAt 5 200, callAt 6 300] ∧
      Meets (step (.new (argsAt 60) .unset))
        (fun ctx c => corrects (.new (argsAt 60) .unset) .overload ctx c = true) ctx
        [callAt 5 200, callAt 6 300] := by
  have hsheds : (run (step (.new (argsAt 60) .unset)) (startedAt 60 0) [callAt 2 0]).any
      (fun ctx => decide (ctx.adaptivePidIntegral = 0) && decide (ctx.adaptivePidFpsIntegral = 0) &&
        meetsBool (step (.new (argsAt 60) .unset)) (stretch (.new (argsAt 60) .unset) .overload) ctx
          [callAt 5 200, callAt 6 300] &&
        meetsBool (step (.new (argsAt 60) .unset)) (safe (.new (argsAt 60) .unset) .overload) ctx
          [callAt 5 200, callAt 6 300]) = true := by
    decide +kernel
  simp only [Option.any_eq_true, Bool.and_eq_true, decide_eq_true_eq, meetsBool_iff] at hsheds
  obtain ⟨ctx, hbefore, ⟨⟨hintegral, hfpsIntegral⟩, hstretch⟩, hsafe⟩ := hsheds
  obtain ⟨hranged, -, hiff⟩ := feedback_corrects_iff (argsAt 60) .unset (by decide)
    (gains_plain 60) (cellsAt 0) ⟨0, 0⟩ (.fromSecs 1) [callAt 2 0]
    [callAt 5 200, callAt 6 300] ctx hbefore
  exact ⟨ctx, hbefore, hranged, hstretch,
    (hiff .overload hintegral hfpsIntegral hstretch).mpr hsafe⟩

/-- At the floor of the frame rate, a queue that grows raises the bitrate. -/
theorem not_corrects_atFloor :
    ¬∀ (args : GfxArgs) (env : GfxEnv), 0 < args.bitrateBps.toNat →
      Gains (Factory.new args env) → ∀ (cells : Cells) (counters : GfxCounters) (now : Instant)
        (before calls : List Call) (ctx : LiveContext),
        run (step (Factory.new args env)) (freshLive (Factory.new args env) cells counters now)
          before = some ctx →
        ∀ side : Side, ctx.adaptivePidIntegral = 0 → ctx.adaptivePidFpsIntegral = 0 →
          Meets (step (Factory.new args env))
            (fun ctx c => stretch (Factory.new args env) side ctx c = true) ctx calls →
          Meets (step (Factory.new args env))
            (fun ctx c => corrects (Factory.new args env) side ctx c = true) ctx calls := by
  intro h
  have hraises : (run (step (.new (argsAt 30) .unset)) (startedAt 30 60) [callAt 2 0]).any
      (fun ctx => decide (ctx.adaptivePidIntegral = 0) && decide (ctx.adaptivePidFpsIntegral = 0) &&
        meetsBool (step (.new (argsAt 30) .unset)) (stretch (.new (argsAt 30) .unset) .overload) ctx
          [callAt 5 200] &&
        !meetsBool (step (.new (argsAt 30) .unset)) (corrects (.new (argsAt 30) .unset) .overload)
          ctx [callAt 5 200]) = true := by
    decide +kernel
  simp only [Option.any_eq_true, Bool.and_eq_true, decide_eq_true_eq, meetsBool_iff] at hraises
  obtain ⟨ctx, hbefore, ⟨⟨hintegral, hfpsIntegral⟩, hstretch⟩, hwrong⟩ := hraises
  have hcorrects := h (argsAt 30) .unset (by decide) (gains_plain 30) (cellsAt 60) ⟨0, 0⟩
    (.fromSecs 1) [callAt 2 0] [callAt 5 200] ctx hbefore .overload hintegral hfpsIntegral hstretch
  rw [meetsBool_iff.mpr hcorrects] at hwrong
  cases hwrong

end Macrdp.RateControl.Feedback
