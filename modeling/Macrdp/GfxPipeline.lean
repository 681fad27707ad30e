import Macrdp.BlankRecovery
import Macrdp.RateControl

/-!
# Captures in the graphics pipeline

A capture passes through two sections under the lock of the context. The first
takes requests for a keyframe, sets up the surface and the encoder, looks for a
blank presentation and drops the capture at one of its gates. The second lets
the rate controller move, hands the picture to the encoder and counts it.
-/

namespace Macrdp.GfxPipeline

open PlatformTime GfxFactory GfxLive RateControl BlankRecovery

/-- Least spacing of the frames let through while the client lags on UDP. -/
def udpThrottleFloor : Duration := millis 100

/-- A frame handed to the encoder. -/
structure Frame where
  pts : Int64
  /-- It was to be a keyframe. -/
  forceKeyframe : Bool
  deriving DecidableEq

/-- A compression session and the properties set on it. -/
structure Encoder where
  width : UInt16
  height : UInt16
  fps : UInt32
  nextPts : Int64
  averageBitRate : Int32
  maxKeyFrameInterval : Int32
  deriving DecidableEq

namespace Encoder

/-- A new session. -/
def new (width height : UInt16) (fps bitrateBps : UInt32) (keyframeSecs : ℚ) : Encoder where
  width := width
  height := height
  fps := fps
  nextPts := 0
  averageBitRate := bitrateBps.toInt32
  maxKeyFrameInterval := (max (keyframeFrames fps keyframeSecs) 1).toInt32

/-- Set the average bitrate of the running session. -/
def setBitrate (e : Encoder) (bitrateBps : UInt32) : Encoder :=
  { e with averageBitRate := (max bitrateBps 1).toInt32 }

/-- Set the periodic keyframe interval of the running session. -/
def setKeyframeInterval (e : Encoder) (keyframeFrames : UInt32) : Encoder :=
  { e with maxKeyFrameInterval := (max keyframeFrames 1).toInt32 }

/-- Submit a picture of `len` bytes; the platform's encoder may refuse it. -/
def encodeBgra (e : Encoder) (len stride : ℕ) (forceKeyframe platformAccepts : Bool) :
    Encoder × Option Frame :=
  if 2 ^ 64 ≤ stride * e.height.toNat then (e, none)
  else if len < stride * e.height.toNat then (e, none)
  else ({ e with nextPts := e.nextPts + 1 },
    if platformAccepts then some ⟨e.nextPts, forceKeyframe⟩ else none)

end Encoder

/-- What an encoder was set up for. -/
structure Generation where
  serverHandle : ℕ
  dims : UInt16 × UInt16
  /-- The surface, and those a recovery mapped in its place. -/
  surfaces : List UInt16

/-- What a ship thread sends frames to. -/
structure Target where
  serverHandle : ℕ
  dims : UInt16 × UInt16
  surfaceId : UInt16
  deriving DecidableEq

/-- Where a ship thread is in its loop. -/
inductive ShipThread where
  /-- It could not be started. -/
  | absent
  | waiting
  /-- It took a batch from the channel. -/
  | pulled (frames : List Frame)
  /-- It read the context. -/
  | read (frames : List Frame) (target : Target)
  /-- The batch was framed by the server; the messages are not yet queued. -/
  | framed (count : ℕ)
  /-- Shipping returned; the batch is not yet counted. -/
  | finished (count : ℕ)
  /-- The channel was closed and empty. -/
  | exited

/-- An encoder, its output channel and its ship thread. -/
structure Pipe where
  encoder : Encoder
  /-- What the encoder was set up for. -/
  home : Generation
  /-- The encoder was dropped and its channel closed. -/
  dropped : Bool
  /-- Accepted frames whose callback has not come. -/
  inFlight : List Frame
  channel : List Frame
  thread : ShipThread

/-- An encoder is dropped: no callback comes any more and its channel is closed. -/
def Pipe.drop (pipe : Pipe) : Pipe := { pipe with dropped := true, inFlight := [] }

/-- The channel has a receiver. -/
def ShipThread.receives : ShipThread → Bool
  | .absent | .exited => false
  | _ => true

/-- What an output callback does to a pipe. -/
def Pipe.output (pipe : Pipe) (place : ℕ) (delivered : Bool) : Option Pipe :=
  pipe.inFlight[place]?.map fun frame =>
    { pipe with
      inFlight := pipe.inFlight.eraseIdx place
      channel := if delivered && pipe.thread.receives then pipe.channel ++ [frame]
        else pipe.channel }

/-- What the surface and encoder setup gets from the platform and the server. -/
structure SetupInput where
  serverReady : Bool
  /-- The identifier the server gives the new surface. -/
  createdSurface : Option UInt16
  surfaceMapped : Bool
  encoderCreated : Bool
  threadSpawned : Bool

/-- What a setup leaves. -/
structure Setup where
  ctx : LiveContext
  pipes : List Pipe
  ok : Bool

/-- Create the surface and map it. -/
def setupSurface (desktopSize : UInt16 × UInt16) (i : SetupInput) (ctx : LiveContext) :
    LiveContext × Bool :=
  if ctx.surfaceId.isNone then
    let ctx := { ctx with dims := desktopSize }
    match i.serverReady, i.createdSurface, i.surfaceMapped with
    | true, some sid, true => ({ ctx with surfaceId := some sid }, true)
    | _, _, _ => (ctx, false)
  else (ctx, true)

/-- The pipe of an encoder made for a context. -/
def newPipe (g : Factory) (threadSpawned : Bool) (ctx : LiveContext) : Pipe where
  encoder := .new ctx.dims.1 ctx.dims.2 g.fps ctx.adaptiveTargetBps g.keyframeSecs
  home := ⟨ctx.serverHandle, ctx.dims, ctx.surfaceId.toList⟩
  dropped := false
  inFlight := []
  channel := []
  thread := if threadSpawned then .waiting else .absent

/-- Make an encoder for the context and start its ship thread. -/
def setupEncoder (g : Factory) (i : SetupInput) (pipes : List Pipe) (ctx : LiveContext) : Setup :=
  if ctx.encoder.isNone then
    if i.encoderCreated then
      { ctx := { ctx with
          encoder := some pipes.length, submitted := 0, shipped := 0, encodedPending := 0 }
        pipes := pipes ++ [newPipe g i.threadSpawned ctx]
        ok := i.threadSpawned }
    else ⟨ctx, pipes, false⟩
  else ⟨ctx, pipes, true⟩

/-- One-time setup of the surface and the encoder. -/
def setupLocked (g : Factory) (desktopSize : UInt16 × UInt16) (i : SetupInput) (pipes : List Pipe)
    (ctx : LiveContext) : Setup :=
  let surface := setupSurface desktopSize i ctx
  if surface.2 then setupEncoder g i pipes surface.1 else ⟨surface.1, pipes, false⟩

/-- Arm a keyframe. -/
def armKeyframe (ctx : LiveContext) : LiveContext := { ctx with needKeyframe := true }

/-- Silent acknowledgements on the lossy tunnel are taken for a lost frame. -/
def shouldForceRecoveryIdr (sinceShip sinceAck sinceRecovery : Duration)
    (acksSuspended egfxOnLossy : Bool) (p : RecoveryParams) : Bool :=
  egfxOnLossy && !acksSuspended && decide (sinceShip ≤ p.activeWindow) &&
    decide (p.ackStall ≤ sinceAck) && decide (p.minRecoveryInterval ≤ sinceRecovery)

/-- Silent acknowledgements on the reliable tunnel are taken for a wedge. -/
def shouldDemigrateToTcp (sinceShip sinceAck : Duration)
    (acksSuspended egfxOnUdp egfxOnLossy alreadyDemigrated : Bool)
    (activeWindow wedgeTimeout : Duration) : Bool :=
  egfxOnUdp && !egfxOnLossy && !alreadyDemigrated && !acksSuspended &&
    decide (sinceShip ≤ activeWindow) && decide (wedgeTimeout ≤ sinceAck)

/-- What the first section of a capture is given. -/
structure CaptureInput where
  requestKeyframe : Bool
  nowRecovery : Instant
  nowWatchdog : Instant
  setup : SetupInput
  nowBlank : Instant
  nowFps : Instant
  nowFpsPass : Instant
  nowThrottle : Instant

/-- Acknowledgements have stalled on the lossy tunnel. -/
def ackStalled (g : Factory) (cells : Cells) (now : Instant) (ctx : LiveContext) : Bool :=
  g.recoveryEnabled && shouldForceRecoveryIdr (now.saturatingDurationSince ctx.lastShipAt)
    (now.saturatingDurationSince ctx.lastAckAt) (now.saturatingDurationSince ctx.lastRecoveryAt)
    ctx.acksSuspended cells.egfxOnLossy g.recoveryParams

/-- The reliable tunnel is wedged. -/
def wedged (g : Factory) (cells : Cells) (now : Instant) (ctx : LiveContext) : Bool :=
  g.watchdogEnabled && shouldDemigrateToTcp (now.saturatingDurationSince ctx.lastShipAt)
    (now.saturatingDurationSince ctx.lastAckAt) ctx.acksSuspended cells.egfxOnUdp
    cells.egfxOnLossy ctx.demigrated g.watchdogActiveWindow g.watchdogWedgeTimeout

/-- Go back to TCP with a keyframe and an empty backlog. -/
def demigrate (ctx : LiveContext) : LiveContext :=
  { ctx with
    needKeyframe := true, lastAckedFrameId := ctx.lastShippedFrameId, demigrated := true }

/-- The requests for a keyframe a capture takes before it is set up. -/
def takeRequests (g : Factory) (cells : Cells) (i : CaptureInput) (ctx : LiveContext) :
    LiveContext :=
  let ctx := if i.requestKeyframe then armKeyframe ctx else ctx
  let ctx :=
    if ackStalled g cells i.nowRecovery ctx then
      { armKeyframe ctx with lastRecoveryAt := i.nowRecovery }
    else ctx
  if wedged g cells i.nowWatchdog ctx then demigrate ctx else ctx

/-- What becomes of a capture in its first section. -/
inductive Admission where
  /-- No graphics connection takes captures. -/
  | notActive
  | droppedEventQueue
  | setupFailed
  /-- A recovery action takes the capture's place. -/
  | recover (r : Recovery)
  | droppedFps
  | droppedPipeline
  | droppedUdpLag
  /-- The capture goes to the encoder. -/
  | submit (forceKeyframe : Bool)

/-- The server's event queue is too long. -/
def eventQueueFull (g : Factory) (cells : Cells) : Bool :=
  g.telemetry && decide (g.eventQueueHigh ≤ cells.eventQueue)

/-- Frames in the encoder and ship pipeline. -/
def outstanding (ctx : LiveContext) : UInt64 := saturatingSub64 ctx.submitted ctx.shipped

/-- The pipeline holds as many frames as it may. -/
def pipelineFull (g : Factory) (ctx : LiveContext) : Bool :=
  decide (g.maxInFlight.toUInt64 ≤ outstanding ctx)

/-- The client lags too far behind on UDP. -/
def udpLagHigh (g : Factory) (cells : Cells) (ctx : LiveContext) : Bool :=
  cells.egfxOnUdp && ctx.egfxAcksSeen && !ctx.acksSuspended &&
    decide (g.maxFrameLag < saturatingSub64 ctx.lastShippedFrameId ctx.lastAckedFrameId)

/-- The frame-rate gate drops the capture. -/
def fpsGateDrops (g : Factory) (i : CaptureInput) (ctx : LiveContext) : Bool :=
  g.adaptiveEnabled && fpsStageShouldDrop ctx.adaptiveFpsStage
    (i.nowFps.saturatingDurationSince ctx.lastAdaptiveFpsPass)

/-- The gates of the first section; a capture that passes takes the armed
keyframe with it. -/
def gates (g : Factory) (cells : Cells) (i : CaptureInput) (ctx : LiveContext) :
    LiveContext × Admission :=
  if fpsGateDrops g i ctx then (ctx, .droppedFps)
  else
    let ctx := if g.adaptiveEnabled then { ctx with lastAdaptiveFpsPass := i.nowFpsPass } else ctx
    if pipelineFull g ctx then (ctx, .droppedPipeline)
    else if udpLagHigh g cells ctx then
      if i.nowThrottle.saturatingDurationSince ctx.lastThrottleShip < udpThrottleFloor then
        (ctx, .droppedUdpLag)
      else
        ({ ctx with lastThrottleShip := i.nowThrottle, needKeyframe := false },
          .submit ctx.needKeyframe)
    else ({ ctx with needKeyframe := false }, .submit ctx.needKeyframe)

/-- What the first section leaves. -/
structure Admitted where
  cells : Cells
  pipes : List Pipe
  result : Admission

/-- The first section once the context is set up: the detector and the gates. -/
def judge (g : Factory) (cells : Cells) (pipes : List Pipe) (i : CaptureInput)
    (ctx : LiveContext) : Admitted :=
  let found := detect g.blankRecoveryEnabled g.blankParams i.nowBlank cells.consecutiveBlankDrops
    ctx.toConnectionContext
  let ctx := { ctx with toConnectionContext := found.ctx }
  let cells := { cells with consecutiveBlankDrops := found.drops }
  match found.recovery with
  | some r => ⟨{ cells with ctx := some ctx }, pipes, .recover r⟩
  | none =>
    let passed := gates g cells i ctx
    ⟨{ cells with ctx := some passed.1 }, pipes, passed.2⟩

/-- The first section of a capture on a ready context. -/
def admitReady (g : Factory) (cells : Cells) (pipes : List Pipe) (i : CaptureInput)
    (ctx : LiveContext) : Admitted :=
  let requested := takeRequests g cells i ctx
  let cells := { cells with
    demigrateRequest := cells.demigrateRequest || (requested.demigrated && !ctx.demigrated) }
  let setup :=
    if requested.surfaceId.isNone || requested.encoder.isNone then
      setupLocked g cells.desktopSize i.setup pipes requested
    else ⟨requested, pipes, true⟩
  if setup.ok then judge g cells setup.pipes i setup.ctx
  else ⟨{ cells with ctx := some setup.ctx }, setup.pipes, .setupFailed⟩

/-- The first section of a capture. -/
def admitCapture (g : Factory) (cells : Cells) (pipes : List Pipe) (i : CaptureInput) : Admitted :=
  match cells.ctx with
  | none => ⟨cells, pipes, .notActive⟩
  | some ctx =>
    if !ctx.isReady then ⟨cells, pipes, .notActive⟩
    else if eventQueueFull g cells then ⟨cells, pipes, .droppedEventQueue⟩
    else admitReady g cells pipes i ctx

/-- What the second section of a capture is given. -/
structure EncodeInput where
  now : Instant
  bgraLen : ℕ
  stride : ℕ
  setBitrateOk : Bool
  setKeyframeOk : Bool
  platformAccepts : Bool

/-- Apply what the controller wants; a property the platform refuses stays. -/
def applyActions (actions : AdaptiveActions) (i : EncodeInput) (e : Encoder) : Encoder :=
  let e := match actions.bitrateBps with
    | some bps => if i.setBitrateOk then e.setBitrate bps else e
    | none => e
  match actions.keyframeFrames with
  | some frames => if i.setKeyframeOk then e.setKeyframeInterval frames else e
  | none => e

/-- Hand the picture to the encoder of a pipe; an accepted one is in flight. -/
def encodeInto (actions : AdaptiveActions) (i : EncodeInput) (forceKeyframe : Bool)
    (pipe : Pipe) : Pipe × Bool :=
  let encoded := (applyActions actions i pipe.encoder).encodeBgra i.bgraLen i.stride forceKeyframe
    i.platformAccepts
  match encoded.2 with
  | some frame =>
    ({ pipe with encoder := encoded.1, inFlight := pipe.inFlight ++ [frame] }, true)
  | none => ({ pipe with encoder := encoded.1 }, false)

/-- Count an accepted picture. -/
def countSubmission (ctx : LiveContext) : LiveContext :=
  { ctx with submitted := ctx.submitted + 1, encodedPending := ctx.encodedPending + 1 }

/-- The pipe of the context's encoder. -/
def currentPipe (pipes : List Pipe) (ctx : LiveContext) : Option (ℕ × Pipe) :=
  ctx.encoder.bind fun id => pipes[id]?.map fun pipe => (id, pipe)

/-- What the second section leaves, before an accepted picture is counted. -/
structure Submitted where
  cells : Cells
  pipes : List Pipe
  /-- The encoder accepted the picture. -/
  accepted : Bool

/-- The second section of a capture; `none` is the panic of a time out of range. -/
def encodeCapture (g : Factory) (cells : Cells) (pipes : List Pipe) (i : EncodeInput)
    (forceKeyframe : Bool) : Option Submitted :=
  match cells.ctx with
  | none => some ⟨cells, pipes, false⟩
  | some ctx =>
    (adaptiveBitrateStep g cells i.now ctx).map fun stepped =>
      match currentPipe pipes stepped.1 with
      | none => ⟨{ cells with ctx := some stepped.1 }, pipes, false⟩
      | some (id, pipe) =>
        let encoded := encodeInto stepped.2 i forceKeyframe pipe
        ⟨{ cells with ctx := some stepped.1 }, pipes.set id encoded.1, encoded.2⟩

end Macrdp.GfxPipeline
