import Macrdp.GfxLive

/-!
# The congestion-responsive rate controller

Once an interval the controller folds the queue delay into an average, decides
whether the link is congested, lets one of two PID loops move the bitrate or the
frame rate, and stretches or restores the periodic keyframe. A move of the
channel from UDP to TCP restores the full bitrate at once.
-/

namespace Macrdp.RateControl

open PlatformTime GfxContext GfxFactory GfxLive RationalFloat

/-- How long after the first acknowledgement the queue delay is not believed. -/
def adaptiveWarmup : Duration := .fromSecs 2

/-- Subtraction of counters that stops at zero. -/
def saturatingSub64 (a b : UInt64) : UInt64 := if b ≤ a then a - b else 0

/-- The queue delay, at least the time since the last acknowledgement while
frames are shipped and outstanding. -/
def effectiveQueueDelay (queueDelayMs sinceAckMs : ℚ) (outstanding activelyShipping : Bool) : ℚ :=
  if outstanding && activelyShipping then max queueDelayMs sinceAckMs else queueDelayMs

/-- Retransmissions above the background of the link. -/
def retransmitIsLossy (retransmitDelta tolerance : UInt64) : Bool :=
  decide (tolerance < retransmitDelta)

/-- Congestion with hysteresis on the smoothed delay. -/
def congestedHysteresis (ewmaLag high low : ℚ)
    (retransmitLossy acksUsable currentlyCongested : Bool) : Bool :=
  if retransmitLossy then true
  else if !acksUsable then false
  else if currentlyCongested then decide (low < ewmaLag)
  else decide (high < ewmaLag)

/-- What to do about the periodic keyframe. -/
inductive IdrBackoff where
  | stretch
  | restore
  | hold
  deriving DecidableEq

/-- Stretch when congestion begins; restore once the link is clear and the
bitrate is back at its ceiling. -/
def idrBackoffDecision (loss : Bool) (newTarget ceiling : UInt32) (backedOff : Bool) : IdrBackoff :=
  if loss && !backedOff then .stretch
  else if !loss && decide (ceiling ≤ newTarget) && backedOff then .restore
  else .hold

/-- Frames a second of a stage. -/
def fps : AdaptiveFpsStage → UInt32
  | .configured fps => max fps 1

/-- Time between two frames of a stage, to the nearest nanosecond. -/
def interval (stage : AdaptiveFpsStage) : Duration where
  nanos := (2 * nanosPerSec + (fps stage).toNat) / (2 * (fps stage).toNat)
  bound := by
    have hle := Nat.div_le_self (2 * nanosPerSec + (fps stage).toNat) (2 * (fps stage).toNat)
    have hlt := (fps stage).toNat_lt
    have hsecs : nanosPerSec = 1000000000 := rfl
    omega

/-- A capture that comes before the stage's time is dropped. -/
def fpsStageShouldDrop (stage : AdaptiveFpsStage) (sinceLastAdmitted : Duration) : Bool :=
  decide (sinceLastAdmitted < interval stage)

/-- Accumulate the error within a limit. -/
def pidIntegralStep (integral errorMs dtSeconds limit : ℚ) : ℚ :=
  clamp (integral + errorMs * dtSeconds) (-limit) limit

/-- The output of a PID loop. -/
def pidDelta (errorMs previousErrorMs integral dtSeconds kp ki kd : ℚ) : ℚ :=
  let derivative := if 0 < dtSeconds then (errorMs - previousErrorMs) / dtSeconds else 0
  kp * errorMs + ki * integral + kd * derivative

/-- Which loop runs: the bitrate's and the frame rate's. -/
structure Actuators where
  runBitrate : Bool
  runFps : Bool
  deriving DecidableEq

/-- One loop an interval: frame rate first under congestion, bitrate first on
recovery. -/
def ratePidActuators (queueErrorMs fps : ℚ) (fpsFloor bitrateBps bitrateCeilingBps : UInt32)
    (deadbandMs : ℚ) : Actuators :=
  if |queueErrorMs| ≤ max deadbandMs 0 then ⟨false, false⟩
  else if 0 < queueErrorMs then
    if ofUInt32 fpsFloor < fps then ⟨false, true⟩ else ⟨true, false⟩
  else if bitrateBps < bitrateCeilingBps then ⟨true, false⟩
  else if fps < 60 then ⟨false, true⟩
  else ⟨false, false⟩

/-- The nearest whole frame rate in range. -/
def clampPidFps (value : ℚ) (minFps maxFps : UInt32) : UInt32 :=
  toUInt32 (clamp (roundAway value) (ofUInt32 (max minFps 1))
    (ofUInt32 (max maxFps (max minFps 1))))

/-- One step of the bitrate loop: the new bitrate, integral and error. -/
def pidBitrateStep (current maxBps minBps : UInt32)
    (errorMs dtSeconds kp ki kd integral previousError : ℚ) : UInt32 × ℚ × ℚ :=
  let error := clamp errorMs (-500) 500
  let candidateIntegral := pidIntegralStep integral error dtSeconds 2000
  let controlMbps := pidDelta error previousError candidateIntegral dtSeconds kp ki kd
  let low := max minBps 1
  let high := max maxBps low
  let next := toUInt32 (clamp (roundAway (ofUInt32 current + controlMbps * 1000000))
    (ofUInt32 low) (ofUInt32 high))
  let outwardSaturation := (next = high ∧ error < 0) ∨ (next = low ∧ 0 < error)
  (next, if outwardSaturation then integral else candidateIntegral, error)

/-- What the controller wants changed in the encoder. -/
structure AdaptiveActions where
  bitrateBps : Option UInt32
  keyframeFrames : Option UInt32

/-- Nothing to change. -/
def AdaptiveActions.default : AdaptiveActions := ⟨none, none⟩

/-- The operator's ceiling. -/
def ceiling (g : Factory) : UInt32 := max g.bitrateBps 1

/-- When the warmup ends; `none` is the panic of a time out of range. -/
def warmupUntil (ctx : LiveContext) (now : Instant) : Option (Option Instant) :=
  if ctx.egfxAcksSeen && ctx.adaptiveWarmupUntil.isNone then (now.add adaptiveWarmup).map some
  else some ctx.adaptiveWarmupUntil

/-- What a move from UDP to TCP changes in the encoder. -/
def edgeActions (g : Factory) (ctx : LiveContext) : AdaptiveActions where
  bitrateBps := if ctx.adaptiveTargetBps < ceiling g then some (ceiling g) else none
  keyframeFrames := if ctx.idrBackedOff then some g.normalKeyframeFrames else none

/-- The context after a move from UDP to TCP. -/
def leaveUdp (g : Factory) (now : Instant) (ctx : LiveContext) : LiveContext :=
  let actions := edgeActions g ctx
  { ctx with
    adaptiveTargetBps :=
      if ctx.adaptiveTargetBps < ceiling g then ceiling g else ctx.adaptiveTargetBps
    idrBackedOff := false
    adaptiveLastControl :=
      if actions.bitrateBps.isSome || actions.keyframeFrames.isSome then now
      else ctx.adaptiveLastControl
    adaptiveDelayEwma := 0
    adaptivePidIntegral := 0
    adaptivePidPreviousError := 0
    adaptivePidFpsIntegral := 0
    adaptivePidFpsPreviousError := 0
    adaptiveCongested := false }

/-- The channel was on UDP at the last step and is not any more. -/
def leavesUdp (ctx : LiveContext) (onUdp : Bool) : Bool := ctx.adaptiveOnUdp && !onUdp

/-- Notice the transport the channel is on. -/
def transportEdge (g : Factory) (onUdp : Bool) (now : Instant) (ctx : LiveContext) :
    LiveContext × AdaptiveActions :=
  let edge := leavesUdp ctx onUdp
  ({ (if edge then leaveUdp g now ctx else ctx) with adaptiveOnUdp := onUdp },
    if edge then edgeActions g ctx else .default)

/-- What an interval observes. -/
structure Signal where
  sampleMs : ℚ
  retransmitLossy : Bool
  /-- The sample says something of the link. -/
  usable : Bool

/-- The observation of an interval. -/
def signal (g : Factory) (retransmits : UInt64) (now : Instant) (ctx : LiveContext) : Signal :=
  let retransmitDelta := saturatingSub64 retransmits ctx.adaptiveLastRetransmits
  let retransmitLossy := retransmitIsLossy retransmitDelta g.adaptiveRetxTolerance
  let ackLag := saturatingSub64 ctx.lastShippedFrameId ctx.lastAckedFrameId
  let inWarmup := ctx.adaptiveWarmupUntil.any fun t => decide (now < t)
  let acksUsable := ctx.egfxAcksSeen && !ctx.acksSuspended && !inWarmup
  let outstanding := decide (0 < ackLag)
  let activelyShipping :=
    decide (now.saturatingDurationSince ctx.lastShipAt < Duration.fromSecs 1)
  let distress := outstanding && activelyShipping && !inWarmup &&
    decide (Duration.fromSecs 3 < now.saturatingDurationSince ctx.epoch)
  { sampleMs := effectiveQueueDelay ctx.queueDelayMs
      (asMillis (now.saturatingDurationSince ctx.lastAckAdvanceAt)) outstanding activelyShipping
    retransmitLossy := retransmitLossy
    usable := (acksUsable && activelyShipping) || distress || retransmitLossy }

/-- Fold the observation into the average and decide on congestion. -/
def observe (g : Factory) (retransmits : UInt64) (sig : Signal) (ctx : LiveContext) :
    LiveContext :=
  let ewma :=
    if sig.usable then
      g.adaptiveEwmaAlpha * sig.sampleMs + (1 - g.adaptiveEwmaAlpha) * ctx.adaptiveDelayEwma
    else ctx.adaptiveDelayEwma
  { ctx with
    adaptiveLastRetransmits := retransmits
    adaptiveDelayEwma := ewma
    adaptiveCongested := congestedHysteresis ewma g.adaptiveQueueHighMs
      (g.adaptiveQueueHighMs * (1 / 2)) sig.retransmitLossy sig.usable ctx.adaptiveCongested }

/-- The smoothed delay above its target; positive under overload. -/
def queueError (g : Factory) (ctx : LiveContext) : ℚ :=
  ctx.adaptiveDelayEwma - g.adaptiveQueueTargetMs

/-- The loop that runs in this interval. -/
def actuators (g : Factory) (ctx : LiveContext) : Actuators :=
  ratePidActuators (queueError g ctx) ctx.adaptivePidFps g.adaptivePidMinFps ctx.adaptiveTargetBps
    (ceiling g) g.adaptivePidFpsDeadbandMs

/-- The bitrate, integral and error the bitrate loop leaves. -/
def bitratePid (g : Factory) (usable : Bool) (act : Actuators) (ctx : LiveContext) :
    UInt32 × ℚ × ℚ :=
  if usable && act.runBitrate then
    pidBitrateStep ctx.adaptiveTargetBps (ceiling g) (max g.adaptiveFloorBps 1) (queueError g ctx)
      (asSecs g.adaptiveInterval) g.adaptivePidKp g.adaptivePidKi g.adaptivePidKd
      ctx.adaptivePidIntegral ctx.adaptivePidPreviousError
  else if !act.runBitrate then (ctx.adaptiveTargetBps, 0, 0)
  else (ctx.adaptiveTargetBps, ctx.adaptivePidIntegral, ctx.adaptivePidPreviousError)

/-- Store what the bitrate loop left. -/
def setBitrate (next : UInt32 × ℚ × ℚ) (ctx : LiveContext) : LiveContext :=
  { ctx with
    adaptiveTargetBps := next.1
    adaptiveCeilingBps := next.1
    adaptivePidIntegral := next.2.1
    adaptivePidPreviousError := next.2.2 }

/-- The accumulated error of the frame-rate loop, before its saturation is known. -/
def fpsIntegral (g : Factory) (act : Actuators) (ctx : LiveContext) : ℚ :=
  if act.runFps then
    pidIntegralStep ctx.adaptivePidFpsIntegral (queueError g ctx) (asSecs g.adaptiveInterval) 2000
  else ctx.adaptivePidFpsIntegral

/-- The frame rate the frame-rate loop leaves. -/
def pidFps (g : Factory) (act : Actuators) (ctx : LiveContext) : UInt32 :=
  if act.runFps then
    let rate := pidDelta (queueError g ctx) ctx.adaptivePidFpsPreviousError (fpsIntegral g act ctx)
      (asSecs g.adaptiveInterval) g.adaptivePidFpsKp g.adaptivePidFpsKi g.adaptivePidFpsKd
    clampPidFps (ctx.adaptivePidFps - rate * asSecs g.adaptiveInterval) g.adaptivePidMinFps
      (max g.fps g.adaptivePidMinFps)
  else toUInt32 (roundAway ctx.adaptivePidFps : ℤ)

/-- Store what the frame-rate loop leaves; a loop saturated outward does not
accumulate. -/
def setFps (g : Factory) (act : Actuators) (ctx : LiveContext) : LiveContext :=
  let next := pidFps g act ctx
  let saturatedOutward := (next = g.fps ∧ queueError g ctx < 0) ∨
    (next = g.adaptivePidMinFps ∧ 0 < queueError g ctx)
  { ctx with
    adaptivePidFpsIntegral :=
      if saturatedOutward then ctx.adaptivePidFpsIntegral else fpsIntegral g act ctx
    adaptivePidFpsPreviousError :=
      if act.runFps then queueError g ctx else ctx.adaptivePidFpsPreviousError
    adaptivePidFps := ofUInt32 next
    adaptiveFpsStage := .configured next
    adaptiveFpsClearSince :=
      if AdaptiveFpsStage.configured next ≠ ctx.adaptiveFpsStage then none
      else ctx.adaptiveFpsClearSince }

/-- The decision on the periodic keyframe, from the congestion and the new target. -/
def backoff (g : Factory) (ctx : LiveContext) : IdrBackoff :=
  idrBackoffDecision ctx.adaptiveCongested ctx.adaptiveTargetBps
    (max (max (ceiling g) g.adaptiveFloorBps) 1) ctx.idrBackedOff

/-- Carry out the decision on the periodic keyframe. -/
def setBackoff (decision : IdrBackoff) (ctx : LiveContext) : LiveContext :=
  match decision with
  | .stretch => { ctx with idrBackedOff := true }
  | .restore => { ctx with idrBackedOff := false, needKeyframe := true }
  | .hold => ctx

/-- The keyframe interval a decision asks of the encoder. -/
def backoffFrames (g : Factory) (decision : IdrBackoff) : Option UInt32 :=
  match decision with
  | .stretch => some g.stretchedKeyframeFrames
  | .restore => some g.normalKeyframeFrames
  | .hold => none

/-- The context when the two loops have run. -/
def runLoops (g : Factory) (retransmits : UInt64) (now : Instant) (ctx : LiveContext) :
    LiveContext :=
  let sig := signal g retransmits now ctx
  let observed := observe g retransmits sig ctx
  let act := actuators g observed
  setBitrate (bitratePid g sig.usable act observed) (setFps g act observed)

/-- One control interval. -/
def controlInterval (g : Factory) (retransmits : UInt64) (now : Instant)
    (actions : AdaptiveActions) (ctx : LiveContext) : LiveContext × AdaptiveActions :=
  let moved := runLoops g retransmits now ctx
  let decision := backoff g moved
  (setBackoff decision moved,
    { bitrateBps :=
        if moved.adaptiveTargetBps ≠ ctx.adaptiveTargetBps then some moved.adaptiveTargetBps
        else actions.bitrateBps
      keyframeFrames := (backoffFrames g decision).or actions.keyframeFrames })

/-- The step of the controller at a capture. -/
def adaptiveBitrateStep (g : Factory) (cells : Cells) (now : Instant) (ctx : LiveContext) :
    Option (LiveContext × AdaptiveActions) :=
  if !g.adaptiveEnabled then some (ctx, .default)
  else (warmupUntil ctx now).map fun warmup =>
    let edge := transportEdge g cells.egfxOnUdp now { ctx with adaptiveWarmupUntil := warmup }
    if now.saturatingDurationSince edge.1.adaptiveLastControl < g.adaptiveInterval then edge
    else controlInterval g cells.congestionRetransmits now edge.2
      { edge.1 with adaptiveLastControl := now }

end Macrdp.RateControl
