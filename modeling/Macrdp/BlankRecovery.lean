import Macrdp.GfxFactory

/-!
# Blank-presentation recovery

The client's reports of its presentation timing and its acknowledgements are
the evidence that a session shows nothing. On enough evidence a capture
dispatches a recovery action, the last of which drops the connection; drops are
counted across connections.
-/

namespace Macrdp.BlankRecovery

open PlatformTime GfxContext GfxFactory RationalFloat

/-- What a recovery attempt does. -/
inductive BlankAction where
  /-- Map a fresh surface over the output. -/
  | remap
  /-- Drop the connection. -/
  | drop
  /-- Run the core deactivation and reactivation. -/
  | reactivate
  deriving DecidableEq

/-- The action of an attempt, counted from one; the last one drops. -/
def blankAction (attempt maxAttempts : UInt32) : BlankAction :=
  if attempt < maxAttempts then .remap else .drop

/-- Drops are withheld after as many in a row as the cap. -/
def blankDropCapped (consecutiveDrops cap : UInt32) : Bool :=
  decide (0 < cap) && decide (cap ≤ consecutiveDrops)

/-- The connection had a sustained run of nonzero reports. -/
def established (q : QoeEvidence) (establishedRenderReports : UInt64) : Bool :=
  decide (establishedRenderReports ≤ q.maxNonzeroStreak)

/-- An established connection clears the count of drops. -/
def stormGuardShouldReset (q : QoeEvidence) (establishedRenderReports : UInt64)
    (currentDrops : UInt32) : Bool :=
  decide (currentDrops ≠ 0) && established q establishedRenderReports

/-- Start a fresh window of evidence after an attempt. -/
def resetStreaks (q : QoeEvidence) : QoeEvidence :=
  { q with
    zeroStreak := 0
    nonzeroStreak := 0
    reportsSinceReset := 0
    zerosSinceReset := 0
    nonzeroMaxSinceReset := 0 }

/-- What the detector looks at beside the reports. -/
structure Observation where
  egfxAcksSeen : Bool
  acksSuspended : Bool
  sinceConnect : Duration
  sinceLastNonzero : Duration
  sinceLastAttempt : Duration
  attempts : UInt32
  /-- Frames were acknowledged since the last attempt. -/
  ackedSinceAttempt : Bool

/-- The evidence clauses of the detector: enough zero reports, an established
session that went dark, an attempt without a sign of healing, or a quiet start. -/
def blankEvidence (q : QoeEvidence) (o : Observation) (p : BlankRecoveryParams) : Bool :=
  let established := established q p.establishedRenderReports
  let countThreshold := if established then p.establishedMinQoe else p.minQoeReports
  let establishedBlackout := established && decide (p.establishedMaxWait ≤ o.sinceLastNonzero) &&
    decide (p.establishedWallReports ≤ q.zeroStreak)
  let postAttemptUnconfirmed := decide (1 ≤ o.attempts) &&
    !decide (p.healConfirmDeadline.nanos = 0) &&
    decide (p.healConfirmDeadline ≤ o.sinceLastAttempt) && o.ackedSinceAttempt &&
    decide (q.nonzeroMaxSinceReset < p.minRenderReports) &&
    (decide (q.reportsSinceReset = 0) || decide (p.blankMinReports ≤ q.zerosSinceReset))
  decide (countThreshold ≤ q.zeroStreak) || establishedBlackout || postAttemptUnconfirmed ||
    (decide (p.blankMaxWait ≤ o.sinceConnect) && decide (p.blankMinReports ≤ q.zeroStreak) &&
      !established)

/-- Whether to run a recovery attempt. -/
def shouldBlankRecover (q : QoeEvidence) (o : Observation) (p : BlankRecoveryParams) : Bool :=
  if q.presentedClean then false
  else blankEvidence q o p && !decide (p.minRenderReports ≤ q.nonzeroStreak) &&
    o.egfxAcksSeen && !o.acksSuspended && decide (p.armDelay ≤ o.sinceConnect) &&
    decide (p.retryInterval ≤ o.sinceLastAttempt) && decide (o.attempts < p.maxAttempts)

/-- How far the evidence windows stretch on this link; `none` disarms the detector. -/
def blankRttGate (linkRttMs maxRttMs : UInt32) : Option ℚ :=
  if maxRttMs = 0 ∨ linkRttMs = 0 then some 1
  else if maxRttMs ≤ linkRttMs then none
  else some (clamp (ofUInt32 linkRttMs / 25) 1 4)

/-- A span scaled, to the nearest nanosecond and within range. -/
def mulF64 (d : Duration) (factor : ℚ) : Duration where
  nanos := min ⌊(d.nanos : ℚ) * factor + 1 / 2⌋.toNat (2 ^ 64 * nanosPerSec - 1)
  bound := by
    have hle := Nat.min_le_right ⌊(d.nanos : ℚ) * factor + 1 / 2⌋.toNat
      (2 ^ 64 * nanosPerSec - 1)
    have hsecs : nanosPerSec = 1000000000 := rfl
    omega

/-- A count of reports scaled, rounded up. -/
def scaleReports (reports : UInt64) (mult : ℚ) : UInt64 :=
  toUInt64 (⌈ofUInt64 reports * mult⌉ : ℤ)

/-- The thresholds on a link whose windows are stretched. -/
def blankParamsScaled (p : BlankRecoveryParams) (mult : ℚ) : BlankRecoveryParams :=
  { p with
    minQoeReports := scaleReports p.minQoeReports mult
    establishedMinQoe := scaleReports p.establishedMinQoe mult
    armDelay := mulF64 p.armDelay mult
    blankMaxWait := mulF64 p.blankMaxWait mult
    establishedMaxWait := mulF64 p.establishedMaxWait mult
    healConfirmDeadline := mulF64 p.healConfirmDeadline mult }

/-- An action to be run once the context is released. -/
structure Recovery where
  action : BlankAction
  serverHandle : ℕ
  width : UInt16
  height : UInt16
  attempt : UInt32
  deriving DecidableEq

/-- The action of an attempt under the configured policy. -/
def chooseAction (p : BlankRecoveryParams) (attemptNo : UInt32) : BlankAction :=
  if p.reactivate then if attemptNo = 1 then .reactivate else .drop
  else blankAction attemptNo p.maxAttempts

/-- What the detector looks at in a context. -/
def observation (ctx : ConnectionContext) (now : Instant) : Observation where
  egfxAcksSeen := ctx.egfxAcksSeen
  acksSuspended := ctx.acksSuspended
  sinceConnect := now.saturatingDurationSince ctx.epoch
  sinceLastNonzero := now.saturatingDurationSince ctx.lastNonzeroQoeAt
  sinceLastAttempt := now.saturatingDurationSince ctx.lastBlankRecoveryAt
  attempts := ctx.blankRecoveryAttempts
  ackedSinceAttempt := decide (ctx.lastBlankRecoveryAt < ctx.lastAckAdvanceAt)

/-- The detector fires on this link. -/
def fires (p : BlankRecoveryParams) (ctx : ConnectionContext) (now : Instant) : Bool :=
  (blankRttGate ctx.linkRttMs p.maxRttMs).any fun mult =>
    shouldBlankRecover ctx.qoe (observation ctx now) (blankParamsScaled p mult)

/-- The state of the detector: the drops counted across connections, the context
and the action to run. -/
structure Detection where
  drops : UInt32
  ctx : ConnectionContext
  recovery : Option Recovery

/-- The next attempt, unless it is a drop over the cap: then no attempt is made
on this connection any more. -/
def attempt (p : BlankRecoveryParams) (now : Instant) (drops : UInt32) (ctx : ConnectionContext) :
    Detection :=
  let attemptNo := ctx.blankRecoveryAttempts + 1
  let action := chooseAction p attemptNo
  if action = .drop ∧ blankDropCapped drops p.maxConsecutiveDrops then
    { drops := drops
      ctx := { ctx with blankRecoveryAttempts := p.maxAttempts }
      recovery := none }
  else
    { drops := if action = .drop then saturatingAdd32 drops 1 else drops
      ctx := { ctx with
        blankRecoveryAttempts := attemptNo
        lastBlankRecoveryAt := now
        qoe := resetStreaks ctx.qoe
        needKeyframe := ctx.needKeyframe || decide (action = .reactivate) }
      recovery := some
        { action := action
          serverHandle := ctx.serverHandle
          width := ctx.dims.1
          height := ctx.dims.2
          attempt := attemptNo } }

/-- The link's gate is worth a line in the log once. -/
def gateLogged (p : BlankRecoveryParams) (ctx : ConnectionContext) : Bool :=
  ctx.blankGateLogged || match blankRttGate ctx.linkRttMs p.maxRttMs with
    | none => true
    | some mult => decide (1 < mult)

/-- The detector at a capture: an established connection clears the count of
drops, then the evidence is judged. -/
def detect (enabled : Bool) (p : BlankRecoveryParams) (now : Instant) (drops : UInt32)
    (ctx : ConnectionContext) : Detection :=
  if enabled && ctx.surfaceId.isSome then
    let drops :=
      if stormGuardShouldReset ctx.qoe p.establishedRenderReports drops then 0 else drops
    let ctx := { ctx with blankGateLogged := gateLogged p ctx }
    if fires p ctx now then attempt p now drops ctx else ⟨drops, ctx, none⟩
  else ⟨drops, ctx, none⟩

end Macrdp.BlankRecovery
