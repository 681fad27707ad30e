import Macrdp.GfxPipeline
import Macrdp.StepSystem

/-!
# The graphics pipeline as a system of threads

The capture thread, the callbacks of the encoders, the ship threads and the
callbacks of the servers interleave; a section under one lock, and a batch taken
from a channel, is one step. A picture is counted in a step of its own, with the
context still locked, since the counters are shared without the lock. An encoder
lives on after its connection lets go of it as the frames its ship thread still
has to ship.
-/

namespace Macrdp.PipelineSystem

open PlatformTime GfxContext GfxFactory GfxLive BlankRecovery GfxPipeline

/-- Where the capture thread is. -/
inductive CaptureThread where
  | idle
  /-- A recovery action is to be run. -/
  | recovering (r : Recovery)
  /-- A fresh surface was mapped and is to be published. -/
  | remapped (serverHandle : ℕ) (surfaceId : UInt16)
  /-- A capture is to be encoded. -/
  | encoding (forceKeyframe : Bool)
  /-- A picture was accepted and is to be counted; the context is still locked. -/
  | counting

/-- The whole pipeline. -/
structure Pipeline where
  cells : Cells
  counters : GfxCounters
  /-- Every encoder ever made, with its channel and ship thread. -/
  pipes : List Pipe
  capture : CaptureThread

/-- What others write into the shared cells. -/
structure Outside where
  desktopSize : UInt16 × UInt16
  egfxOnLossy : Bool
  egfxOnUdp : Bool
  demigrateRequest : Bool
  congestionRetransmits : UInt64
  linkRttMs : UInt32
  eventQueue : UInt32
  reactivateRequest : UInt32

/-- A step of the pipeline. -/
inductive Action where
  /-- A server is built for a new connection. -/
  | build (now : Instant)
  /-- A callback of a server. -/
  | client (e : GfxEvent)
  /-- First section of a capture. -/
  | admitCapture (i : CaptureInput)
  /-- The armed recovery action; a remap that succeeds has its surface. -/
  | recover (remapped : Option UInt16)
  /-- The fresh surface of a remap is published. -/
  | publishRemap
  /-- Second section of a capture. -/
  | encode (i : EncodeInput)
  /-- The end of the second section, at which an accepted picture is counted. -/
  | countSubmission
  | forceKeyframe
  | demigrateOnResume
  | resetForLiveResize
  /-- The encoder calls back for one of its frames, with the frame or an error. -/
  | output (id place : ℕ) (delivered : Bool)
  /-- A ship thread takes a batch from its channel. -/
  | pull (id : ℕ)
  /-- A ship thread reads the context. -/
  | readContext (id : ℕ) (now : Instant)
  /-- A ship thread has the server frame its batch, frame by frame. -/
  | frameBatch (id : ℕ) (channelOpen : Bool) (frameIds : List (Option UInt32)) (now : Instant)
  /-- A ship thread queues its messages for the event loop. -/
  | postEvent (id : ℕ)
  /-- A ship thread counts its batch. -/
  | countBatch (id : ℕ)
  /-- Others write into the shared cells. -/
  | outside (o : Outside)

/-- Drop the encoder of the context. -/
def dropEncoder (pipes : List Pipe) (ctx : Option LiveContext) : List Pipe :=
  match ctx.bind fun ctx => ctx.encoder with
  | none => pipes
  | some id => pipes.modify id Pipe.drop

/-- Change the counters a ship thread shares with the context it was started for,
as long as that context is there. -/
def atHome (cells : Cells) (pipe : Pipe) (f : LiveContext → LiveContext) : Cells :=
  cells.update fun ctx => if ctx.serverHandle = pipe.home.serverHandle then f ctx else ctx

/-- The frames of a batch that the server accepted, by the identifiers it gave. -/
def recordShipped (now : Instant) (frameIds : List (Option UInt32)) (ctx : LiveContext) :
    LiveContext :=
  (frameIds.filterMap id).foldl (fun ctx frameId => { ctx with
    lastShippedFrameId := frameId.toUInt64
    shipTimes := Function.update ctx.shipTimes (slot frameId.toUInt64) (frameId.toUInt64, now) })
    ctx

/-- A step of a ship thread: its pipe after the step, and the shared cells. -/
def shipStep (cells : Cells) (pipe : Pipe) : Action → Option (Pipe × Cells)
  | .pull _ =>
    match pipe.thread, pipe.channel with
    | .waiting, [] => if pipe.dropped then some ({ pipe with thread := .exited }, cells) else none
    | .waiting, frame :: rest =>
      some ({ pipe with thread := .pulled (frame :: rest), channel := [] },
        atHome cells pipe fun ctx => { ctx with
          encodedPending := ctx.encodedPending - UInt32.ofNat (frame :: rest).length })
    | _, _ => none
  | .readContext _ now =>
    match pipe.thread with
    | .pulled frames =>
      match cells.ctx with
      | none => some ({ pipe with thread := .finished frames.length }, cells)
      | some ctx =>
        match ctx.surfaceId with
        | none => some ({ pipe with thread := .finished frames.length }, cells)
        | some surfaceId =>
          some ({ pipe with thread := .read frames ⟨ctx.serverHandle, ctx.dims, surfaceId⟩ },
            cells.update fun ctx => { ctx with lastShipAt := now })
    | _ => none
  | .frameBatch _ channelOpen frameIds now =>
    match pipe.thread with
    | .read frames target =>
      if channelOpen then
        if frameIds.length = frames.length then
          some ({ pipe with thread := .framed frames.length },
            cells.update fun ctx =>
              if ctx.serverHandle = target.serverHandle then recordShipped now frameIds ctx
              else ctx)
        else none
      else some ({ pipe with thread := .finished frames.length }, cells)
    | _ => none
  | .postEvent _ =>
    match pipe.thread with
    | .framed count => some ({ pipe with thread := .finished count }, cells)
    | _ => none
  | .countBatch _ =>
    match pipe.thread with
    | .finished count =>
      some ({ pipe with thread := .waiting },
        atHome cells pipe fun ctx => { ctx with shipped := ctx.shipped + UInt64.ofNat count })
    | _ => none
  | _ => none

namespace Pipeline

/-- The pipeline of a new process. -/
def new (o : Outside) : Pipeline where
  cells :=
    { ctx := none
      desktopSize := o.desktopSize
      egfxOnLossy := o.egfxOnLossy
      egfxOnUdp := o.egfxOnUdp
      demigrateRequest := o.demigrateRequest
      congestionRetransmits := o.congestionRetransmits
      linkRttMs := o.linkRttMs
      eventQueue := o.eventQueue
      consecutiveBlankDrops := 0
      reactivateRequest := o.reactivateRequest
      senderSet := true }
  counters := ⟨0, 1⟩
  pipes := []
  capture := .idle

/-- The capture thread after the first section of a capture. -/
def afterAdmission : Admission → CaptureThread
  | .submit forceKeyframe => .encoding forceKeyframe
  | .recover r => .recovering r
  | _ => .idle

/-- A ship thread takes a step. -/
def ship (p : Pipeline) (id : ℕ) (a : Action) : Option Pipeline :=
  p.pipes[id]?.bind fun pipe => (shipStep p.cells pipe a).map fun next =>
    { p with pipes := p.pipes.set id next.1, cells := next.2 }

/-- The action a size is packed into for the capture loop. -/
def packSize (width height : UInt16) : UInt32 := (width.toUInt32 <<< 16) ||| height.toUInt32

/-- Run a recovery action outside the lock of the context. -/
def runRecovery (p : Pipeline) (r : Recovery) (remapped : Option UInt16) : Pipeline :=
  match r.action, remapped with
  | .remap, some surfaceId => { p with capture := .remapped r.serverHandle surfaceId }
  | .remap, none => { p with capture := .idle }
  | .drop, _ => { p with capture := .idle }
  | .reactivate, _ =>
    { p with
      capture := .idle
      cells := { p.cells with reactivateRequest := packSize r.width r.height } }

/-- Publish the surface of a remap, unless a new connection took the context. -/
def publish (p : Pipeline) (serverHandle : ℕ) (surfaceId : UInt16) : Pipeline :=
  match p.cells.ctx with
  | none => { p with capture := .idle }
  | some ctx =>
    if ctx.serverHandle = serverHandle then
      { p with
        capture := .idle
        cells := { p.cells with
          ctx := some { ctx with surfaceId := some surfaceId, needKeyframe := true } }
        pipes := match ctx.encoder with
          | none => p.pipes
          | some id => p.pipes.modify id fun pipe => { pipe with
              home := { pipe.home with surfaces := surfaceId :: pipe.home.surfaces } } }
    else { p with capture := .idle }

/-- The client comes out of a minimize while its graphics are on the reliable
tunnel. -/
def resumes (p : Pipeline) : Bool :=
  p.cells.egfxOnUdp && !p.cells.egfxOnLossy && p.cells.ctx.any fun ctx => !ctx.demigrated

/-- The capture thread holds the lock of the context between two steps. -/
def locked (p : Pipeline) : Bool :=
  match p.capture with
  | .counting => true
  | _ => false

/-- One step; a step that its thread does not take, or that has to wait for the lock of
the context, is refused. -/
def step (g : Factory) (p : Pipeline) : Action → Option Pipeline
  | .build now =>
    if p.locked then none
    else
      let built := buildServerWithHandle g p.cells p.counters now
      some { p with
        cells := built.1, counters := built.2, pipes := dropEncoder p.pipes p.cells.ctx }
  | .client e =>
    if p.locked then none
    else some { p with
      cells := callback p.cells e
      pipes := match e with
        | .close => dropEncoder p.pipes p.cells.ctx
        | _ => p.pipes }
  | .admitCapture i =>
    match p.capture with
    | .idle =>
      let admitted := GfxPipeline.admitCapture g p.cells p.pipes i
      some { p with
        cells := admitted.cells
        pipes := admitted.pipes
        capture := afterAdmission admitted.result }
    | _ => none
  | .recover remapped =>
    match p.capture with
    | .recovering r => some (p.runRecovery r remapped)
    | _ => none
  | .publishRemap =>
    match p.capture with
    | .remapped serverHandle surfaceId => some (p.publish serverHandle surfaceId)
    | _ => none
  | .encode i =>
    match p.capture with
    | .encoding forceKeyframe =>
      (encodeCapture g p.cells p.pipes i forceKeyframe).map fun next =>
        { p with
          cells := next.cells
          pipes := next.pipes
          capture := if next.accepted then .counting else .idle }
    | _ => none
  | .countSubmission =>
    match p.capture with
    | .counting =>
      some { p with capture := .idle, cells := p.cells.update GfxPipeline.countSubmission }
    | _ => none
  | .forceKeyframe =>
    match p.capture with
    | .idle => some { p with cells := p.cells.update armKeyframe }
    | _ => none
  | .demigrateOnResume =>
    match p.capture with
    | .idle =>
      some (if p.resumes then
        { p with cells := { p.cells.update demigrate with demigrateRequest := true } }
      else p)
    | _ => none
  | .resetForLiveResize =>
    match p.capture with
    | .idle =>
      some { p with
        cells := p.cells.update fun ctx =>
          { ctx with encoder := none, surfaceId := none, needKeyframe := true }
        pipes := dropEncoder p.pipes p.cells.ctx }
    | _ => none
  | .output id place delivered =>
    p.pipes[id]?.bind fun pipe => (pipe.output place delivered).map fun next =>
      { p with pipes := p.pipes.set id next }
  | .pull id => p.ship id (.pull id)
  | .readContext id now => if p.locked then none else p.ship id (.readContext id now)
  | .frameBatch id channelOpen frameIds now => p.ship id (.frameBatch id channelOpen frameIds now)
  | .postEvent id => p.ship id (.postEvent id)
  | .countBatch id => p.ship id (.countBatch id)
  | .outside o =>
    some { p with cells := { p.cells with
      desktopSize := o.desktopSize
      egfxOnLossy := o.egfxOnLossy
      egfxOnUdp := o.egfxOnUdp
      demigrateRequest := o.demigrateRequest
      congestionRetransmits := o.congestionRetransmits
      linkRttMs := o.linkRttMs
      eventQueue := o.eventQueue
      reactivateRequest := o.reactivateRequest } }

end Pipeline

end Macrdp.PipelineSystem
