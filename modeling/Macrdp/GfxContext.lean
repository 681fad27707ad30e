import Macrdp.PlatformTime

/-!
# The graphics connection context

The graphics factory keeps one context cell for the process. Building a server
for a connection puts a fresh context in it; the callbacks of every server built,
and the captures, read and write whatever context is in the cell.
-/

namespace Macrdp.GfxContext

open PlatformTime

/-- Saturating addition of 64-bit counters. -/
def saturatingAdd64 (a b : UInt64) : UInt64 := if a + b < a then 0xffffffffffffffff else a + b

/-- Saturating addition of 32-bit counters. -/
def saturatingAdd32 (a b : UInt32) : UInt32 := if a + b < a then 0xffffffff else a + b

/-- A rate limit on diagnostic lines. -/
structure DiagnosticWindow where
  /-- Reports so far. -/
  reports : UInt64
  /-- Time of the last line. -/
  lastLog : Option Instant

namespace DiagnosticWindow

def default : DiagnosticWindow := ⟨0, none⟩

/-- Count a report; a line is due every five seconds. -/
def record (w : DiagnosticWindow) (now : Instant) : DiagnosticWindow :=
  let due := match w.lastLog with
    | none => true
    | some last => decide (Duration.fromSecs 5 ≤ now.saturatingDurationSince last)
  { reports := saturatingAdd64 w.reports 1, lastLog := if due then some now else w.lastLog }

end DiagnosticWindow

/-- Evidence from the client's presentation timing. -/
structure QoeEvidence where
  zeroStreak : UInt64
  nonzeroStreak : UInt64
  maxNonzeroStreak : UInt64
  /-- Reports since the last reset. -/
  reportsSinceReset : UInt64
  /-- Zero reports since the last reset. -/
  zerosSinceReset : UInt64
  /-- Longest nonzero streak since the last reset. -/
  nonzeroMaxSinceReset : UInt64
  /-- Set by sustained nonzero timing before any recovery attempt. -/
  presentedClean : Bool
  deriving DecidableEq

namespace QoeEvidence

def default : QoeEvidence := ⟨0, 0, 0, 0, 0, 0, false⟩

/-- Fold in one report. -/
def record (q : QoeEvidence) (timeDiffDr : UInt16) : QoeEvidence :=
  let q := { q with reportsSinceReset := saturatingAdd64 q.reportsSinceReset 1 }
  if 0 < timeDiffDr then
    let streak := saturatingAdd64 q.nonzeroStreak 1
    { q with
      zeroStreak := 0
      nonzeroStreak := streak
      maxNonzeroStreak := max q.maxNonzeroStreak streak
      nonzeroMaxSinceReset := max q.nonzeroMaxSinceReset streak }
  else
    { q with
      nonzeroStreak := 0
      zeroStreak := saturatingAdd64 q.zeroStreak 1
      zerosSinceReset := saturatingAdd64 q.zerosSinceReset 1 }

end QoeEvidence

/-- The controlled frame cadence. -/
inductive AdaptiveFpsStage where
  | configured (fps : UInt32)
  deriving DecidableEq

/-- The state of one graphics connection, but for the measurements in floating
point and the ring of ship times they are taken from. -/
structure ConnectionContext where
  /-- Identity of the connection's pipeline server. -/
  serverHandle : ℕ
  /-- Identity of the encoder, once set up. -/
  encoder : Option ℕ
  surfaceId : Option UInt16
  /-- The channel is negotiated; without it no capture is encoded. -/
  isReady : Bool
  epoch : Instant
  diagnosticSession : UInt64
  ackDiagnostics : DiagnosticWindow
  qoeDiagnostics : DiagnosticWindow
  /-- The next shipped frame must be a keyframe. -/
  needKeyframe : Bool
  /-- The client advertised that it decodes H.264. -/
  clientSupportsAvc : Bool
  /-- The bridge discards all output of the channel. -/
  egfxDeclined : Bool
  submitted : UInt64
  shipped : UInt64
  encodedPending : UInt32
  dims : UInt16 × UInt16
  lastAckAt : Instant
  /-- When the acknowledged frame last advanced. -/
  lastAckAdvanceAt : Instant
  acksSuspended : Bool
  lastShipAt : Instant
  lastRecoveryAt : Instant
  lastShippedFrameId : UInt64
  lastAckedFrameId : UInt64
  lastAckQueueDepth : UInt32
  egfxAcksSeen : Bool
  lastThrottleShip : Instant
  /-- The channel was moved back to TCP. -/
  demigrated : Bool
  adaptiveTargetBps : UInt32
  adaptiveCeilingBps : UInt32
  adaptiveLastControl : Instant
  adaptiveLastRetransmits : UInt64
  idrBackedOff : Bool
  adaptiveOnUdp : Bool
  adaptiveWarmupUntil : Option Instant
  adaptiveCongested : Bool
  adaptiveFpsStage : AdaptiveFpsStage
  adaptiveFpsClearSince : Option Instant
  lastAdaptiveFpsPass : Instant
  qoe : QoeEvidence
  lastNonzeroQoeAt : Instant
  blankRecoveryAttempts : UInt32
  lastBlankRecoveryAt : Instant
  linkRttMs : UInt32
  blankGateLogged : Bool
  minRenderReports : UInt64

/-- What the factory is configured with. -/
structure Gfx where
  fps : UInt32
  bitrateBps : UInt32
  adaptiveEnabled : Bool
  adaptiveFloorBps : UInt32
  /-- Round trip from which the starting bitrate is lowered; `0` never. -/
  adaptiveSeedRttMs : UInt32
  minRenderReports : UInt64

/-- The cells the factory shares with its servers and with the RDP server. -/
structure GfxCells where
  ctx : Option ConnectionContext
  congestionRetransmits : UInt64
  linkRttMs : UInt32
  egfxOnUdp : Bool

/-- What is handed out once in the life of the process. -/
structure GfxCounters where
  /-- Identity of the next pipeline server. -/
  nextHandle : ℕ
  nextDiagnosticSession : UInt64

/-- Starting bitrate: a third of the ceiling on a slow link. -/
def seededInitialBitrate (ceiling floor linkRttMs seedRttMs : UInt32) : UInt32 :=
  if seedRttMs = 0 ∨ linkRttMs = 0 ∨ linkRttMs < seedRttMs then ceiling
  else max (min floor ceiling) (min (ceiling / 3) (max ceiling 1))

/-- The context of a connection whose server was just built. -/
def freshContext (gfx : Gfx) (cells : GfxCells) (counters : GfxCounters) (now : Instant) :
    ConnectionContext :=
  let initialTargetBps :=
    if gfx.adaptiveEnabled then
      seededInitialBitrate gfx.bitrateBps gfx.adaptiveFloorBps cells.linkRttMs
        gfx.adaptiveSeedRttMs
    else gfx.bitrateBps
  { serverHandle := counters.nextHandle
    encoder := none
    surfaceId := none
    isReady := false
    epoch := now
    diagnosticSession := counters.nextDiagnosticSession
    ackDiagnostics := .default
    qoeDiagnostics := .default
    needKeyframe := true
    clientSupportsAvc := false
    egfxDeclined := false
    submitted := 0
    shipped := 0
    encodedPending := 0
    dims := (0, 0)
    lastAckAt := now
    lastAckAdvanceAt := now
    acksSuspended := false
    lastShipAt := now
    lastRecoveryAt := now
    lastShippedFrameId := 0
    lastAckedFrameId := 0
    lastAckQueueDepth := 0
    egfxAcksSeen := false
    lastThrottleShip := now
    demigrated := false
    adaptiveTargetBps := initialTargetBps
    adaptiveCeilingBps := max (max initialTargetBps gfx.adaptiveFloorBps) 1
    adaptiveLastControl := now
    adaptiveLastRetransmits := cells.congestionRetransmits
    idrBackedOff := false
    adaptiveOnUdp := cells.egfxOnUdp
    adaptiveWarmupUntil := none
    adaptiveCongested := false
    adaptiveFpsStage := .configured gfx.fps
    adaptiveFpsClearSince := none
    lastAdaptiveFpsPass := now
    qoe := .default
    lastNonzeroQoeAt := now
    blankRecoveryAttempts := 0
    lastBlankRecoveryAt := now
    linkRttMs := cells.linkRttMs
    blankGateLogged := false
    minRenderReports := gfx.minRenderReports }

/-- Build a pipeline server: a fresh context takes the place of the one in the
cell, whosever it is. -/
def buildServerWithHandle (gfx : Gfx) (cells : GfxCells) (counters : GfxCounters)
    (now : Instant) : GfxCells × GfxCounters :=
  ({ cells with ctx := some (freshContext gfx cells counters now) },
    { nextHandle := counters.nextHandle + 1
      nextDiagnosticSession := counters.nextDiagnosticSession + 1 })

namespace GfxCells

/-- The server whose context is in the cell. -/
def server (cells : GfxCells) : Option ℕ := cells.ctx.map ConnectionContext.serverHandle

/-- What a capture asks first: without a ready context it is refused, and the
screen is sent as legacy bitmap updates. -/
def takesCaptures (cells : GfxCells) : Bool := cells.ctx.any ConnectionContext.isReady

/-- Change the context, if there is one. -/
def update (cells : GfxCells) (f : ConnectionContext → ConnectionContext) : GfxCells :=
  { cells with ctx := cells.ctx.map f }

end GfxCells

/-- The server in the cell is the one just built. -/
theorem server_buildServerWithHandle (gfx : Gfx) (cells : GfxCells) (counters : GfxCounters)
    (now : Instant) :
    (buildServerWithHandle gfx cells counters now).1.server = some counters.nextHandle := rfl

/-- A capability set, by what it says of H.264. -/
inductive CapabilitySet where
  | v8
  | v8_1 (avc420Enabled : Bool)
  | v10 (avcDisabled : Bool)
  | v10_1
  | v10_2 (avcDisabled : Bool)
  | v10_3 (avcDisabled : Bool)
  | v10_4 (avcDisabled : Bool)
  | v10_5 (avcDisabled : Bool)
  | v10_6 (avcDisabled : Bool)
  | v10_6Err (avcDisabled : Bool)
  | v10_7 (avcDisabled : Bool)
  deriving DecidableEq

/-- A positive sign that the client decodes H.264. -/
def capsIndicateAvc (caps : List CapabilitySet) : Bool :=
  caps.any fun
    | .v8_1 avc420Enabled => avc420Enabled
    | .v10 avcDisabled | .v10_2 avcDisabled => !avcDisabled
    | .v10_3 avcDisabled => !avcDisabled
    | .v10_4 avcDisabled | .v10_5 avcDisabled | .v10_6 avcDisabled | .v10_6Err avcDisabled =>
      !avcDisabled
    | .v10_7 avcDisabled => !avcDisabled
    | .v8 | .v10_1 => false

/-- The client advertised its capabilities. -/
def capabilitiesAdvertise (cells : GfxCells) (caps : List CapabilitySet) : GfxCells :=
  cells.update fun ctx => { ctx with clientSupportsAvc := capsIndicateAvc caps }

/-- The channel was negotiated; a client that does not decode H.264 is declined. -/
def onReady (cells : GfxCells) : GfxCells :=
  cells.update fun ctx =>
    if ctx.clientSupportsAvc then { ctx with isReady := true, needKeyframe := true }
    else { ctx with isReady := false, egfxDeclined := true }

/-- What an acknowledgement does to the context. -/
def ackContext (frameId queueDepth : UInt32) (now : Instant) (ctx : ConnectionContext) :
    ConnectionContext :=
  let ctx := { ctx with
    ackDiagnostics := ctx.ackDiagnostics.record now
    lastAckQueueDepth := queueDepth
    lastAckAt := now
    acksSuspended := decide (queueDepth = 0xffffffff) }
  if ctx.acksSuspended then ctx
  else { ctx with
    lastAckedFrameId := frameId.toUInt64
    egfxAcksSeen := true
    lastAckAdvanceAt := now }

/-- The client acknowledged a frame; a queue that grows counts as congestion. -/
def onFrameAck (cells : GfxCells) (frameId queueDepth : UInt32) (now : Instant) : GfxCells :=
  let grows := cells.ctx.any fun ctx =>
    !ctx.acksSuspended && decide (saturatingAdd32 ctx.lastAckQueueDepth 2 < queueDepth)
  let cells :=
    if grows then { cells with congestionRetransmits := cells.congestionRetransmits + 1 }
    else cells
  cells.update (ackContext frameId queueDepth now)

/-- What a timing report does to the context. -/
def qoeContext (timeDiffDr : UInt16) (now : Instant) (ctx : ConnectionContext) :
    ConnectionContext :=
  let qoe := ctx.qoe.record timeDiffDr
  let clean := !qoe.presentedClean && decide (ctx.blankRecoveryAttempts = 0)
    && decide (ctx.minRenderReports ≤ qoe.nonzeroStreak)
  { ctx with
    qoe := { qoe with presentedClean := qoe.presentedClean || clean }
    qoeDiagnostics := ctx.qoeDiagnostics.record now
    lastNonzeroQoeAt := if 0 < timeDiffDr then now else ctx.lastNonzeroQoeAt }

/-- The client reported its presentation timing. -/
def onQoeMetrics (cells : GfxCells) (timeDiffDr : UInt16) (now : Instant) : GfxCells :=
  cells.update (qoeContext timeDiffDr now)

/-- The channel closed. -/
def onClose (cells : GfxCells) : GfxCells :=
  cells.update fun ctx =>
    { ctx with isReady := false, encoder := none, surfaceId := none, needKeyframe := true }

/-- What the client of a server brings about. -/
inductive GfxEvent where
  | capabilities (caps : List CapabilitySet)
  | ready
  | frameAck (frameId queueDepth : UInt32) (now : Instant)
  | qoeMetrics (timeDiffDr : UInt16) (now : Instant)
  | close

/-- The callback of an event. -/
def callback (cells : GfxCells) : GfxEvent → GfxCells
  | .capabilities caps => capabilitiesAdvertise cells caps
  | .ready => onReady cells
  | .frameAck frameId queueDepth now => onFrameAck cells frameId queueDepth now
  | .qoeMetrics timeDiffDr now => onQoeMetrics cells timeDiffDr now
  | .close => onClose cells

/-- A change that keeps the handle keeps the server. -/
theorem GfxCells.server_update (cells : GfxCells) {f : ConnectionContext → ConnectionContext}
    (hf : ∀ ctx, (f ctx).serverHandle = ctx.serverHandle) :
    (cells.update f).server = cells.server := by
  simp only [GfxCells.server, GfxCells.update, Option.map_map]
  exact congrArg (cells.ctx.map ·) (funext hf)

/-- No callback changes whose context is in the cell. -/
theorem server_callback (cells : GfxCells) (e : GfxEvent) :
    (callback cells e).server = cells.server := by
  cases e with
  | capabilities caps | qoeMetrics timeDiffDr now | close => exact cells.server_update fun _ => rfl
  | ready =>
    refine cells.server_update fun ctx => ?_
    split <;> rfl
  | frameAck frameId queueDepth now =>
    simp only [callback, onFrameAck]
    rw [GfxCells.server_update]
    · split <;> rfl
    · intro ctx
      simp only [ackContext]
      split <;> rfl

/-- The context in the cell is that of a server whose client has not advertised
that it decodes H.264. -/
def Paused (cells : GfxCells) : Prop :=
  ∀ ctx, cells.ctx = some ctx → ctx.clientSupportsAvc = false ∧ ctx.isReady = false

theorem paused_buildServerWithHandle (gfx : Gfx) (cells : GfxCells) (counters : GfxCounters)
    (now : Instant) : Paused (buildServerWithHandle gfx cells counters now).1 := by
  rintro ctx ⟨⟩
  exact ⟨rfl, rfl⟩

/-- A paused cell takes no captures. -/
theorem Paused.takesCaptures {cells : GfxCells} (h : Paused cells) :
    cells.takesCaptures = false := by
  unfold GfxCells.takesCaptures
  cases hctx : cells.ctx with
  | none => rfl
  | some ctx => exact (h ctx hctx).2

/-- A change that pauses each paused context keeps the cell paused. -/
theorem Paused.update {cells : GfxCells} (h : Paused cells)
    {f : ConnectionContext → ConnectionContext}
    (hf : ∀ ctx, ctx.clientSupportsAvc = false → ctx.isReady = false →
      (f ctx).clientSupportsAvc = false ∧ (f ctx).isReady = false) :
    Paused (cells.update f) := by
  intro ctx' hctx'
  obtain ⟨ctx, hctx, rfl⟩ := Option.map_eq_some_iff.mp hctx'
  exact hf ctx (h ctx hctx).1 (h ctx hctx).2

/-- Only an advertisement of H.264 ends a pause. -/
theorem Paused.callback {cells : GfxCells} (h : Paused cells) {e : GfxEvent}
    (he : ∀ caps, e = .capabilities caps → capsIndicateAvc caps = false) :
    Paused (callback cells e) := by
  cases e with
  | capabilities caps => exact h.update fun ctx _ hready => ⟨he caps rfl, hready⟩
  | ready =>
    refine h.update fun ctx havc _ => ?_
    simp [havc]
  | frameAck frameId queueDepth now =>
    have hgrown : ∀ c, c.ctx = cells.ctx → Paused c := fun c hc ctx hctx => h ctx (hc ▸ hctx)
    refine Paused.update (hgrown _ ?_) fun ctx havc hready => ?_
    · split <;> rfl
    · simp only [ackContext]
      split
      · exact ⟨havc, hready⟩
      · exact ⟨havc, hready⟩
  | qoeMetrics timeDiffDr now => exact h.update fun ctx havc hready => ⟨havc, hready⟩
  | close => exact h.update fun ctx havc _ => ⟨havc, rfl⟩

/-- Once a server is built, no capture is taken through any callbacks until a
client advertises H.264. -/
theorem frozen_until_advertised (gfx : Gfx) (cells : GfxCells) (counters : GfxCounters)
    (now : Instant) {events : List GfxEvent}
    (h : ∀ e ∈ events, ∀ caps, e = .capabilities caps → capsIndicateAvc caps = false) :
    (events.foldl callback (buildServerWithHandle gfx cells counters now).1).takesCaptures =
      false := by
  have hpaused := paused_buildServerWithHandle gfx cells counters now
  refine Paused.takesCaptures ?_
  generalize (buildServerWithHandle gfx cells counters now).1 = start at hpaused ⊢
  induction events generalizing start with
  | nil => exact hpaused
  | cons e rest ih =>
    exact ih (fun e' he' => h e' (List.mem_cons_of_mem _ he')) _
      (hpaused.callback (h e List.mem_cons_self))

/-- Not even a client that gets ready is sent anything before it has advertised. -/
theorem frozen_until_advertised_ready :
    ([GfxEvent.ready, .close].foldl callback (buildServerWithHandle ⟨30, 8000000, true, 1, 0, 0⟩
      ⟨none, 0, 0, false⟩ ⟨0, 0⟩ ⟨0, by decide, by decide⟩).1).takesCaptures = false :=
  frozen_until_advertised _ _ _ _ (by simp)

end Macrdp.GfxContext
