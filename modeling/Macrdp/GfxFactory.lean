import Macrdp.GfxContext
import Macrdp.RationalFloat

/-!
# What the graphics factory is configured with

Every tunable of the pipeline has a default and may be overridden from the
environment; an override out of its range is ignored. A variable of the
environment is given here as the number it parses to, if it does.
-/

namespace Macrdp.GfxFactory

open PlatformTime GfxContext RationalFloat

/-- A span of whole milliseconds. -/
def millis (ms : UInt64) : Duration where
  nanos := ms.toNat * 1000000
  bound := by
    have hlt := ms.toNat_lt
    have hsecs : nanosPerSec = 1000000000 := rfl
    omega

/-- An override that must be positive. -/
def envU32 (parsed : Option UInt32) (fallback : UInt32) : UInt32 :=
  (parsed.filter fun n => decide (0 < n)).getD fallback

/-- A span that must be positive, in milliseconds. -/
def envMillis (parsed : Option UInt64) (fallback : UInt64) : Duration :=
  millis ((parsed.filter fun n => decide (0 < n)).getD fallback)

/-- An override that must not be negative. -/
def envNonneg (parsed : Option ℚ) (fallback : ℚ) : ℚ :=
  (parsed.filter fun v => decide (0 ≤ v)).getD fallback

/-- An override that must be positive. -/
def envPositive (parsed : Option ℚ) (fallback : ℚ) : ℚ :=
  (parsed.filter fun v => decide (0 < v)).getD fallback

/-- When silent acknowledgements on the lossy tunnel are taken for a lost frame. -/
structure RecoveryParams where
  activeWindow : Duration
  ackStall : Duration
  /-- Least spacing of forced keyframes. -/
  minRecoveryInterval : Duration

/-- Thresholds of the blank-presentation detector. -/
structure BlankRecoveryParams where
  /-- Zero reports in a row that make a session blank. -/
  minQoeReports : UInt64
  /-- Nonzero reports in a row that disarm the detector. -/
  minRenderReports : UInt64
  /-- Nonzero reports in a row that make a session established. -/
  establishedRenderReports : UInt64
  /-- Zero reports in a row that make an established session blank. -/
  establishedMinQoe : UInt64
  establishedMaxWait : Duration
  establishedWallReports : UInt64
  /-- Nothing is evaluated before this much of the connection has passed. -/
  armDelay : Duration
  /-- Least spacing of attempts. -/
  retryInterval : Duration
  /-- Wait for a sign of healing before escalating; empty disables it. -/
  healConfirmDeadline : Duration
  /-- Attempts of one connection. -/
  maxAttempts : UInt32
  /-- The first attempt is a reactivation. -/
  reactivate : Bool
  blankMaxWait : Duration
  blankMinReports : UInt64
  /-- Drops without an established session in between; `0` is no cap. -/
  maxConsecutiveDrops : UInt32
  /-- Round trip from which nothing is dropped; `0` disables the gate. -/
  maxRttMs : UInt32

/-- Overrides of the detector's thresholds. -/
structure BlankEnv where
  minQoe : Option UInt32
  minRenderReports : Option UInt32
  establishedReports : Option UInt32
  establishedMinQoe : Option UInt32
  establishedMaxWaitMs : Option UInt64
  establishedWallReports : Option UInt32
  armMs : Option UInt64
  retryMs : Option UInt64
  /-- Zero is accepted and disables the deadline. -/
  healConfirmMs : Option UInt32
  maxAttempts : Option UInt32
  reactivate : Bool
  maxWaitMs : Option UInt64
  minWallReports : Option UInt32
  maxConsecutiveDrops : Option UInt32
  /-- Zero is accepted and disables the gate. -/
  maxRttMs : Option UInt32

/-- Nothing is overridden. -/
def BlankEnv.unset : BlankEnv where
  minQoe := none
  minRenderReports := none
  establishedReports := none
  establishedMinQoe := none
  establishedMaxWaitMs := none
  establishedWallReports := none
  armMs := none
  retryMs := none
  healConfirmMs := none
  maxAttempts := none
  reactivate := false
  maxWaitMs := none
  minWallReports := none
  maxConsecutiveDrops := none
  maxRttMs := none

/-- The thresholds the factory is created with. -/
def blankParams (env : BlankEnv) : BlankRecoveryParams where
  minQoeReports := (envU32 env.minQoe 24).toUInt64
  minRenderReports := (envU32 env.minRenderReports 3).toUInt64
  establishedRenderReports := (envU32 env.establishedReports 40).toUInt64
  establishedMinQoe := (envU32 env.establishedMinQoe 160).toUInt64
  establishedMaxWait := envMillis env.establishedMaxWaitMs 30000
  establishedWallReports := (envU32 env.establishedWallReports 16).toUInt64
  armDelay := envMillis env.armMs 3000
  retryInterval := envMillis env.retryMs 4000
  healConfirmDeadline := millis (env.healConfirmMs.getD 8000).toUInt64
  maxAttempts :=
    if env.reactivate then max (envU32 env.maxAttempts 1) 2 else envU32 env.maxAttempts 1
  reactivate := env.reactivate
  blankMaxWait := envMillis env.maxWaitMs 4000
  blankMinReports := (envU32 env.minWallReports 1).toUInt64
  maxConsecutiveDrops := envU32 env.maxConsecutiveDrops 3
  maxRttMs := env.maxRttMs.getD 80

/-- Overrides of the other tunables. -/
structure GfxEnv where
  eventQueueHigh : Option UInt32
  ackRecovery : Bool
  ackActiveMs : Option UInt64
  ackStallMs : Option UInt64
  ackRecoveryMs : Option UInt64
  maxFrameLag : Option UInt64
  watchdog : Bool
  watchdogMs : Option UInt64
  watchdogActiveMs : Option UInt64
  adaptiveBitrate : Bool
  adaptiveFloorBps : Option UInt32
  adaptiveIntervalMs : Option UInt64
  queueTargetMs : Option ℚ
  queueHighMs : Option ℚ
  pidKp : Option ℚ
  pidKi : Option ℚ
  pidKd : Option ℚ
  minFps : Option UInt32
  fpsPidKp : Option ℚ
  fpsPidKi : Option ℚ
  fpsPidKd : Option ℚ
  fpsPidDeadbandMs : Option ℚ
  ewmaAlpha : Option ℚ
  retxTolerance : Option UInt64
  blankRecovery : Bool
  blank : BlankEnv
  /-- Zero is accepted and disables the seed. -/
  seedRttMs : Option UInt32

/-- Nothing is overridden or switched on. -/
def GfxEnv.unset : GfxEnv where
  eventQueueHigh := none
  ackRecovery := false
  ackActiveMs := none
  ackStallMs := none
  ackRecoveryMs := none
  maxFrameLag := none
  watchdog := false
  watchdogMs := none
  watchdogActiveMs := none
  adaptiveBitrate := false
  adaptiveFloorBps := none
  adaptiveIntervalMs := none
  queueTargetMs := none
  queueHighMs := none
  pidKp := none
  pidKi := none
  pidKd := none
  minFps := none
  fpsPidKp := none
  fpsPidKi := none
  fpsPidKd := none
  fpsPidDeadbandMs := none
  ewmaAlpha := none
  retxTolerance := none
  blankRecovery := false
  blank := .unset
  seedRttMs := none

/-- What the factory is created for. -/
structure GfxArgs where
  fps : UInt32
  bitrateBps : UInt32
  /-- Seconds between periodic keyframes. -/
  keyframeSecs : ℚ
  maxInFlight : UInt32
  adaptiveBitrate : Bool
  /-- The gauge of the server's event queue exists. -/
  telemetry : Bool

/-- The configured factory. -/
structure Factory extends Gfx where
  keyframeSecs : ℚ
  /-- Frames in the encoder and ship pipeline from which captures are dropped. -/
  maxInFlight : UInt32
  recoveryEnabled : Bool
  recoveryParams : RecoveryParams
  maxFrameLag : UInt64
  watchdogEnabled : Bool
  watchdogWedgeTimeout : Duration
  watchdogActiveWindow : Duration
  adaptiveInterval : Duration
  adaptiveQueueHighMs : ℚ
  adaptiveQueueTargetMs : ℚ
  adaptivePidKp : ℚ
  adaptivePidKi : ℚ
  adaptivePidKd : ℚ
  adaptivePidMinFps : UInt32
  adaptivePidFpsKp : ℚ
  adaptivePidFpsKi : ℚ
  adaptivePidFpsKd : ℚ
  adaptivePidFpsDeadbandMs : ℚ
  /-- Weight of a new queue-delay sample. -/
  adaptiveEwmaAlpha : ℚ
  adaptiveRetxTolerance : UInt64
  normalKeyframeFrames : UInt32
  stretchedKeyframeFrames : UInt32
  blankRecoveryEnabled : Bool
  blankParams : BlankRecoveryParams
  /-- The gauge of the server's event queue exists. -/
  telemetry : Bool
  eventQueueHigh : UInt32

/-- Frames between periodic keyframes, one at least. -/
def keyframeFrames (fps : UInt32) (keyframeSecs : ℚ) : UInt32 :=
  toUInt32 (max (roundAway (ofUInt32 fps * keyframeSecs)) 1 : ℤ)

/-- A product of words that saturates. -/
def saturatingMul32 (a b : UInt32) : UInt32 := UInt32.ofNat (min (a.toNat * b.toNat) (2 ^ 32 - 1))

/-- Create the factory. -/
def Factory.new (args : GfxArgs) (env : GfxEnv) : Factory :=
  let normalKeyframeFrames := keyframeFrames args.fps args.keyframeSecs
  { fps := args.fps
    bitrateBps := args.bitrateBps
    adaptiveEnabled := args.adaptiveBitrate || env.adaptiveBitrate
    adaptiveFloorBps :=
      min (envU32 env.adaptiveFloorBps (max (args.bitrateBps / 8) 500000)) (max args.bitrateBps 1)
    adaptiveSeedRttMs := env.seedRttMs.getD 50
    minRenderReports := (GfxFactory.blankParams env.blank).minRenderReports
    keyframeSecs := args.keyframeSecs
    maxInFlight := args.maxInFlight
    recoveryEnabled := env.ackRecovery
    recoveryParams :=
      { activeWindow := millis (env.ackActiveMs.getD 500)
        ackStall := millis (env.ackStallMs.getD 200)
        minRecoveryInterval := millis (env.ackRecoveryMs.getD 1000) }
    maxFrameLag := (env.maxFrameLag.filter fun n => decide (0 < n)).getD 16
    watchdogEnabled := env.watchdog
    watchdogWedgeTimeout := envMillis env.watchdogMs 3000
    watchdogActiveWindow := envMillis env.watchdogActiveMs 1000
    adaptiveInterval := envMillis env.adaptiveIntervalMs 200
    adaptiveQueueHighMs := envPositive env.queueHighMs 100
    adaptiveQueueTargetMs := envPositive env.queueTargetMs 50
    adaptivePidKp := envNonneg env.pidKp (1 / 1000)
    adaptivePidKi := envNonneg env.pidKi (5 / 100000)
    adaptivePidKd := envNonneg env.pidKd 0
    adaptivePidMinFps := max 30 (min (envU32 env.minFps 30) (max args.fps 30))
    adaptivePidFpsKp := envNonneg env.fpsPidKp (1 / 2)
    adaptivePidFpsKi := envNonneg env.fpsPidKi (2 / 100)
    adaptivePidFpsKd := envNonneg env.fpsPidKd 0
    adaptivePidFpsDeadbandMs := envNonneg env.fpsPidDeadbandMs 5
    adaptiveEwmaAlpha := (env.ewmaAlpha.filter fun a => decide (0 < a ∧ a ≤ 1)).getD (3 / 10)
    adaptiveRetxTolerance := env.retxTolerance.getD 2
    normalKeyframeFrames := normalKeyframeFrames
    stretchedKeyframeFrames :=
      max (saturatingMul32 args.fps 600) (normalKeyframeFrames + 1)
    blankRecoveryEnabled := env.blankRecovery
    blankParams := GfxFactory.blankParams env.blank
    telemetry := args.telemetry
    eventQueueHigh := envU32 env.eventQueueHigh 512 }

/-- A positive override or a positive default is positive. -/
theorem envU32_pos (parsed : Option UInt32) {fallback : UInt32} (h : 0 < fallback) :
    0 < envU32 parsed fallback := by
  unfold envU32
  cases parsed with
  | none => exact h
  | some n =>
    by_cases hn : 0 < n
    · simp [Option.filter, hn]
    · simp [Option.filter, hn, h]

theorem toUInt64_pos {n : UInt32} (h : 0 < n) : 0 < n.toUInt64 := by
  have hn : 0 < n.toNat := UInt32.lt_iff_toNat_lt.mp h
  exact UInt64.lt_iff_toNat_lt.mpr (by simpa using hn)

theorem envMillis_pos (parsed : Option UInt64) {fallback : UInt64} (h : 0 < fallback) :
    0 < (envMillis parsed fallback).nanos := by
  have hpos : ∀ ms : UInt64, 0 < ms → 0 < (millis ms).nanos := by
    intro ms hms
    have hms' : 0 < ms.toNat := UInt64.lt_iff_toNat_lt.mp hms
    simp only [millis]
    omega
  unfold envMillis
  cases parsed with
  | none => exact hpos _ h
  | some n =>
    by_cases hn : 0 < n
    · simpa [Option.filter, hn] using hpos n hn
    · simpa [Option.filter, hn] using hpos _ h

/-- The thresholds of every factory that a run can rely on. -/
structure Admitted (p : BlankRecoveryParams) : Prop where
  minQoeReports : 0 < p.minQoeReports
  minRenderReports : 0 < p.minRenderReports
  establishedRenderReports : 0 < p.establishedRenderReports
  establishedMinQoe : 0 < p.establishedMinQoe
  establishedWallReports : 0 < p.establishedWallReports
  blankMinReports : 0 < p.blankMinReports
  retryInterval : 0 < p.retryInterval.nanos
  maxConsecutiveDrops : 0 < p.maxConsecutiveDrops

/-- Every environment gives admitted thresholds. -/
theorem admitted_blankParams (env : BlankEnv) : Admitted (blankParams env) where
  minQoeReports := toUInt64_pos (envU32_pos _ (by decide))
  minRenderReports := toUInt64_pos (envU32_pos _ (by decide))
  establishedRenderReports := toUInt64_pos (envU32_pos _ (by decide))
  establishedMinQoe := toUInt64_pos (envU32_pos _ (by decide))
  establishedWallReports := toUInt64_pos (envU32_pos _ (by decide))
  blankMinReports := toUInt64_pos (envU32_pos _ (by decide))
  retryInterval := envMillis_pos _ (by decide)
  maxConsecutiveDrops := envU32_pos _ (by decide)

end Macrdp.GfxFactory
