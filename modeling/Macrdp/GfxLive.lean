import Macrdp.GfxFactory

/-!
# The live connection context

The whole context of a connection: next to the counters and flags it holds the
ring of ship times, the round-trip measurements taken from it and the state of
the rate controller. The cells here are all those the factory shares.
-/

namespace Macrdp.GfxLive

open PlatformTime GfxContext GfxFactory RationalFloat

/-- Slots of the ring of ship times. -/
abbrev rttRing : ℕ := 128

/-- Width of a bucket of the windowed minimum round trip. -/
def rttMinWindow : Duration := .fromSecs 30

/-- A span in milliseconds. -/
def asMillis (d : Duration) : ℚ := d.nanos / 1000000

/-- A span in seconds. -/
def asSecs (d : Duration) : ℚ := d.nanos / 1000000000

/-- The state of one graphics connection. -/
structure LiveContext extends ConnectionContext where
  /-- Frame and time of the last ship in each slot. -/
  shipTimes : Fin rttRing → UInt64 × Instant
  /-- Least round trip of the current bucket; `none` is infinite. -/
  rttMinCurMs : Option ℚ
  /-- Least round trip of the bucket before. -/
  rttMinPrevMs : Option ℚ
  rttBucketStarted : Instant
  /-- Standing queue delay of the last acknowledged frame. -/
  queueDelayMs : ℚ
  adaptivePidIntegral : ℚ
  adaptivePidPreviousError : ℚ
  /-- Smoothed queue delay. -/
  adaptiveDelayEwma : ℚ
  adaptivePidFps : ℚ
  adaptivePidFpsIntegral : ℚ
  adaptivePidFpsPreviousError : ℚ

/-- The cells the factory shares with its servers, the capture loop and the RDP
server. -/
structure Cells where
  ctx : Option LiveContext
  desktopSize : UInt16 × UInt16
  egfxOnLossy : Bool
  egfxOnUdp : Bool
  /-- Set to have the RDP server route graphics back to TCP. -/
  demigrateRequest : Bool
  congestionRetransmits : UInt64
  linkRttMs : UInt32
  /-- Gauge of the server's event queue. -/
  eventQueue : UInt32
  /-- Drops since a session was last established. -/
  consecutiveBlankDrops : UInt32
  /-- A packed size the capture loop is asked to reactivate to. -/
  reactivateRequest : UInt32
  /-- The sender of server events is set. -/
  senderSet : Bool

namespace Cells

/-- Change the context, if there is one. -/
def update (cells : Cells) (f : LiveContext → LiveContext) : Cells :=
  { cells with ctx := cells.ctx.map f }

/-- The cells without the measurements. -/
def toGfxCells (cells : Cells) : GfxCells where
  ctx := cells.ctx.map LiveContext.toConnectionContext
  congestionRetransmits := cells.congestionRetransmits
  linkRttMs := cells.linkRttMs
  egfxOnUdp := cells.egfxOnUdp

end Cells

/-- A word kept between two limits. -/
def clamp32 (w low high : UInt32) : UInt32 := max low (min w high)

/-- The whole context of a connection whose server was just built. -/
def freshLive (g : Factory) (cells : Cells) (counters : GfxCounters) (now : Instant) :
    LiveContext :=
  let ctx := freshContext g.toGfx cells.toGfxCells counters now
  { ctx with
    shipTimes := fun _ => (0xffffffffffffffff, now)
    rttMinCurMs := none
    rttMinPrevMs := none
    rttBucketStarted := now
    queueDelayMs := 0
    adaptivePidIntegral := 0
    adaptivePidPreviousError := 0
    adaptiveDelayEwma := 0
    adaptivePidFps :=
      ofUInt32 (clamp32 ctx.adaptiveTargetBps g.adaptiveFloorBps (max g.bitrateBps 1)) /
        ofUInt32 (max g.bitrateBps 1) * ofUInt32 g.fps
    adaptivePidFpsIntegral := 0
    adaptivePidFpsPreviousError := 0 }

/-- Build a pipeline server with a fresh context. -/
def buildServerWithHandle (g : Factory) (cells : Cells) (counters : GfxCounters) (now : Instant) :
    Cells × GfxCounters :=
  ({ cells with ctx := some (freshLive g cells counters now) },
    { nextHandle := counters.nextHandle + 1
      nextDiagnosticSession := counters.nextDiagnosticSession + 1 })

/-- Least of a bucket and a sample. -/
def minWith (bucket : Option ℚ) (sample : ℚ) : ℚ := bucket.elim sample fun b => min b sample

/-- Fold a round trip into its bucket: the new least of the bucket, and how far
the sample exceeds the least of both buckets. -/
def queueDelayFold (sampleMs : ℚ) (bucketMinMs prevBucketMinMs : Option ℚ) : ℚ × ℚ :=
  let cur := minWith bucketMinMs sampleMs
  (cur, max (sampleMs - minWith prevBucketMinMs cur) 0)

/-- The slot of a frame. -/
def slot (frameId : UInt64) : Fin rttRing := ⟨frameId.toNat % rttRing, Nat.mod_lt _ (by decide)⟩

/-- The round trip of an acknowledged frame; if its slot was taken by a newer
frame, a lower bound on it. -/
def rttSample (ctx : LiveContext) (frameId : UInt32) (now : Instant) : Option ℚ :=
  let shipped := ctx.shipTimes (slot frameId.toUInt64)
  if shipped.1 = frameId.toUInt64 then some (asMillis (now.saturatingDurationSince shipped.2))
  else if shipped.1 ≠ 0xffffffffffffffff ∧ frameId.toUInt64 < shipped.1 then
    some (asMillis (now.saturatingDurationSince shipped.2))
  else none

/-- Take a round trip into the windowed minimum and the queue delay. -/
def measure (sampleMs : ℚ) (now : Instant) (ctx : LiveContext) : LiveContext :=
  let ctx :=
    if rttMinWindow ≤ now.saturatingDurationSince ctx.rttBucketStarted then
      { ctx with rttMinPrevMs := ctx.rttMinCurMs, rttMinCurMs := none, rttBucketStarted := now }
    else ctx
  let fold := queueDelayFold sampleMs ctx.rttMinCurMs ctx.rttMinPrevMs
  { ctx with rttMinCurMs := some fold.1, queueDelayMs := fold.2 }

/-- What an acknowledgement does to the live context. -/
def ackLive (frameId queueDepth : UInt32) (now : Instant) (ctx : LiveContext) : LiveContext :=
  let ctx := { ctx with
    toConnectionContext := ackContext frameId queueDepth now ctx.toConnectionContext }
  if ctx.acksSuspended then ctx
  else match rttSample ctx frameId now with
    | some sampleMs => measure sampleMs now ctx
    | none => ctx

/-- Change the context without its measurements. -/
def onBase (f : ConnectionContext → ConnectionContext) (ctx : LiveContext) : LiveContext :=
  { ctx with toConnectionContext := f ctx.toConnectionContext }

/-- The callback of an event on the live context. -/
def callback (cells : Cells) : GfxEvent → Cells
  | .capabilities caps =>
    cells.update (onBase fun ctx => { ctx with clientSupportsAvc := capsIndicateAvc caps })
  | .ready =>
    cells.update (onBase fun ctx =>
      if ctx.clientSupportsAvc then { ctx with isReady := true, needKeyframe := true }
      else { ctx with isReady := false, egfxDeclined := true })
  | .frameAck frameId queueDepth now =>
    let grows := cells.ctx.any fun ctx =>
      !ctx.acksSuspended && decide (saturatingAdd32 ctx.lastAckQueueDepth 2 < queueDepth)
    let cells :=
      if grows then { cells with congestionRetransmits := cells.congestionRetransmits + 1 }
      else cells
    cells.update (ackLive frameId queueDepth now)
  | .qoeMetrics timeDiffDr now => cells.update (onBase (qoeContext timeDiffDr now))
  | .close =>
    cells.update (onBase fun ctx =>
      { ctx with isReady := false, encoder := none, surfaceId := none, needKeyframe := true })

/-- Measuring changes nothing but the measurements. -/
@[simp] theorem toConnectionContext_measure (sampleMs : ℚ) (now : Instant) (ctx : LiveContext) :
    (measure sampleMs now ctx).toConnectionContext = ctx.toConnectionContext := by
  simp only [measure]
  split <;> rfl

/-- An acknowledgement does to the context what it does without its measurements. -/
@[simp] theorem toConnectionContext_ackLive (frameId queueDepth : UInt32) (now : Instant)
    (ctx : LiveContext) :
    (ackLive frameId queueDepth now ctx).toConnectionContext =
      ackContext frameId queueDepth now ctx.toConnectionContext := by
  simp only [ackLive]
  split
  · rfl
  · split
    · exact toConnectionContext_measure _ _ _
    · rfl

end Macrdp.GfxLive
