import Macrdp.PipelineFrames

/-!
# The wiring of the pipeline

What the callbacks and the ship threads do to the context and the pipes, and
what ties an encoder to its context: its pipe was set up for the server, the
surface and the size that the context has.
-/

namespace Macrdp.PipelineSystem

open PlatformTime GfxContext GfxFactory GfxLive BlankRecovery GfxPipeline

variable {cells : Cells}
variable {ctx' : LiveContext}

theorem Cells.update_some {f : LiveContext → LiveContext}
    (h : (cells.update f).ctx = some ctx') : ∃ ctx, cells.ctx = some ctx ∧ ctx' = f ctx := by
  obtain ⟨ctx, hctx, rfl⟩ := Option.map_eq_some_iff.mp h
  exact ⟨ctx, hctx, rfl⟩

/-- What the callback of an event makes of the context. -/
inductive Called (ctx ctx' : LiveContext) : GfxEvent → Prop
  | quiet (e : GfxEvent) (notClose : e ≠ .close) (core : ctx'.core = ctx.core) : Called ctx ctx' e
  | ready (accepted : Bool) (core : ctx'.core = { ctx.core with
      isReady := accepted, needKeyframe := ctx.needKeyframe || accepted }) : Called ctx ctx' .ready
  | close (core : ctx'.core = { ctx.core with
      isReady := false, encoder := none, surfaceId := none, needKeyframe := true }) :
      Called ctx ctx' .close

theorem core_ackLive (frameId queueDepth : UInt32) (now : Instant) (ctx : LiveContext) :
    (ackLive frameId queueDepth now ctx).core = ctx.core := by
  rw [toConnectionContext_ackLive, ackContext]
  split <;> rfl

theorem tally_ackLive (frameId queueDepth : UInt32) (now : Instant) (ctx : LiveContext) :
    (ackLive frameId queueDepth now ctx).tally = ctx.tally := by
  rw [toConnectionContext_ackLive, ackContext]
  split <;> rfl

/-- What every callback makes of the context. -/
theorem called_callback (e : GfxEvent) (h : (callback cells e).ctx = some ctx') :
    ∃ ctx, cells.ctx = some ctx ∧ ctx'.tally = ctx.tally ∧ Called ctx ctx' e := by
  cases e with obtain ⟨ctx, hctx, rfl⟩ := Cells.update_some h
  | capabilities caps | qoeMetrics timeDiffDr now =>
    exact ⟨ctx, hctx, rfl, .quiet _ (by simp) rfl⟩
  | ready =>
    refine ⟨ctx, hctx, ?_⟩
    simp only [onBase]
    split
    · exact ⟨rfl, .ready true (by simp [ConnectionContext.core])⟩
    · exact ⟨rfl, .ready false (by simp [ConnectionContext.core])⟩
  | frameAck frameId queueDepth now =>
    have hbefore : cells.ctx = some ctx := by
      rw [← hctx]
      split <;> rfl
    exact ⟨ctx, hbefore, tally_ackLive _ _ _ _, .quiet _ (by simp) (core_ackLive _ _ _ _)⟩
  | close =>
    exact ⟨ctx, hctx, rfl, .close rfl⟩

theorem core_recordShipped (now : Instant) (frameIds : List (Option UInt32)) (ctx : LiveContext) :
    (recordShipped now frameIds ctx).core = ctx.core ∧
      (recordShipped now frameIds ctx).tally = ctx.tally := by
  unfold recordShipped
  induction frameIds.filterMap id generalizing ctx with
  | nil => exact ⟨rfl, rfl⟩
  | cons frameId rest ih =>
    obtain ⟨hcore, htally⟩ := ih { ctx with
      lastShippedFrameId := frameId.toUInt64
      shipTimes := Function.update ctx.shipTimes (slot frameId.toUInt64) (frameId.toUInt64, now) }
    exact ⟨hcore, htally⟩

/-- What a step of a ship thread makes of its pipe and the cells. -/
inductive Ships (cells : Cells) (pipe : Pipe) : Action → Pipe × Cells → Prop
  | exit (id : ℕ) (thread : pipe.thread = .waiting) (drained : pipe.channel = [])
      (dropped : pipe.dropped = true) :
      Ships cells pipe (.pull id) ({ pipe with thread := .exited }, cells)
  | pull (id : ℕ) (thread : pipe.thread = .waiting) (waiting : pipe.channel ≠ []) :
      Ships cells pipe (.pull id)
        ({ pipe with thread := .pulled pipe.channel, channel := [] },
          atHome cells pipe fun ctx => { ctx with
            encodedPending := ctx.encodedPending - UInt32.ofNat pipe.channel.length })
  /-- Without a context or a surface the batch is discarded. -/
  | discard (id : ℕ) (now : Instant) (frames : List Frame) (thread : pipe.thread = .pulled frames)
      (nowhere : ∀ ctx, cells.ctx = some ctx → ctx.surfaceId = none) :
      Ships cells pipe (.readContext id now)
        ({ pipe with thread := .finished frames.length }, cells)
  | read (id : ℕ) (now : Instant) (frames : List Frame) (ctx : LiveContext) (surfaceId : UInt16)
      (thread : pipe.thread = .pulled frames) (before : cells.ctx = some ctx)
      (surface : ctx.surfaceId = some surfaceId) :
      Ships cells pipe (.readContext id now)
        ({ pipe with thread := .read frames ⟨ctx.serverHandle, ctx.dims, surfaceId⟩ },
          cells.update fun ctx => { ctx with lastShipAt := now })
  | closed (id : ℕ) (frameIds : List (Option UInt32)) (now : Instant) (frames : List Frame)
      (target : Target) (thread : pipe.thread = .read frames target) :
      Ships cells pipe (.frameBatch id false frameIds now)
        ({ pipe with thread := .finished frames.length }, cells)
  | frame (id : ℕ) (frameIds : List (Option UInt32)) (now : Instant) (frames : List Frame)
      (target : Target) (thread : pipe.thread = .read frames target)
      (each : frameIds.length = frames.length) :
      Ships cells pipe (.frameBatch id true frameIds now)
        ({ pipe with thread := .framed frames.length },
          cells.update fun ctx =>
            if ctx.serverHandle = target.serverHandle then recordShipped now frameIds ctx else ctx)
  | post (id count : ℕ) (thread : pipe.thread = .framed count) :
      Ships cells pipe (.postEvent id) ({ pipe with thread := .finished count }, cells)
  | count (id count : ℕ) (thread : pipe.thread = .finished count) :
      Ships cells pipe (.countBatch id)
        ({ pipe with thread := .waiting },
          atHome cells pipe fun ctx => { ctx with shipped := ctx.shipped + UInt64.ofNat count })

variable {a : Action}

/-- A ship thread does nothing else. -/
theorem ships_of_shipStep {pipe : Pipe} {next : Pipe × Cells}
    (h : shipStep cells pipe a = some next) : Ships cells pipe a next := by
  cases a with
  | pull id =>
    simp only [shipStep] at h
    split at h
    · next hthread hchannel =>
      split at h
      · next hdropped =>
        cases h
        exact .exit id hthread hchannel hdropped
      · cases h
    · next frame rest hthread hchannel =>
      cases h
      have hwaiting : pipe.channel ≠ [] := by
        rw [hchannel]
        simp
      rw [← hchannel]
      exact .pull id hthread hwaiting
    · cases h
  | readContext id now =>
    simp only [shipStep] at h
    split at h
    · next frames hthread =>
      split at h
      · next hnone =>
        cases h
        refine .discard id now frames hthread fun ctx hctx => ?_
        rw [hnone] at hctx
        cases hctx
      · next ctx hctx =>
        split at h
        · next hsurface =>
          cases h
          refine .discard id now frames hthread fun ctx' hctx' => ?_
          rw [hctx] at hctx'
          cases hctx'
          exact hsurface
        · next surfaceId hsurface =>
          cases h
          exact .read id now frames ctx surfaceId hthread hctx hsurface
    · cases h
  | frameBatch id channelOpen frameIds now =>
    simp only [shipStep] at h
    split at h
    · next frames target hthread =>
      split at h
      · next hopen =>
        split at h
        · next heach =>
          cases h
          rw [hopen]
          exact .frame id frameIds now frames target hthread heach
        · cases h
      · next hclosed =>
        cases h
        rw [Bool.eq_false_of_not_eq_true hclosed]
        exact .closed id frameIds now frames target hthread
    · cases h
  | postEvent id =>
    simp only [shipStep] at h
    split at h
    · next count hthread =>
      cases h
      exact .post id count hthread
    · cases h
  | countBatch id =>
    simp only [shipStep] at h
    split at h
    · next count hthread =>
      cases h
      exact .count id count hthread
    · cases h
  | _ => cases h

/-- A ship thread decides nothing. -/
theorem Ships.core {pipe : Pipe} {next : Pipe × Cells} (h : Ships cells pipe a next)
    (hctx' : next.2.ctx = some ctx') : ∃ ctx, cells.ctx = some ctx ∧ ctx'.core = ctx.core := by
  cases h with
  | exit | discard | closed | post => exact ⟨ctx', hctx', rfl⟩
  | pull | count =>
    obtain ⟨ctx, hctx, rfl⟩ := Cells.update_some hctx'
    refine ⟨ctx, hctx, ?_⟩
    split <;> rfl
  | read =>
    obtain ⟨ctx, hctx, rfl⟩ := Cells.update_some hctx'
    exact ⟨ctx, hctx, rfl⟩
  | frame id frameIds now =>
    obtain ⟨ctx, hctx, rfl⟩ := Cells.update_some hctx'
    refine ⟨ctx, hctx, ?_⟩
    split
    · exact (core_recordShipped now frameIds ctx).1
    · rfl

/-- What does not change in a pipe while its ship thread works. -/
theorem Ships.pipe {pipe : Pipe} {next : Pipe × Cells} (h : Ships cells pipe a next) :
    next.1.encoder = pipe.encoder ∧ next.1.home = pipe.home ∧ next.1.dropped = pipe.dropped ∧
      next.1.inFlight = pipe.inFlight := by
  cases h <;> exact ⟨rfl, rfl, rfl, rfl⟩

/-- The pipe of the context's encoder was made for the context, and is not dropped. -/
structure WiredTo (ctx : LiveContext) (pipe : Pipe) : Prop where
  alive : pipe.dropped = false
  serverHandle : pipe.home.serverHandle = ctx.serverHandle
  dims : pipe.home.dims = ctx.dims
  surface : ∃ surfaceId ∈ pipe.home.surfaces, ctx.surfaceId = some surfaceId

/-- An encoder in the context has a pipe, made for the context. -/
def Wired (p : Pipeline) : Prop :=
  ∀ ctx id, p.cells.ctx = some ctx → ctx.encoder = some id →
    ∃ pipe, p.pipes[id]? = some pipe ∧ WiredTo ctx pipe

/-- What a context is wired by. -/
structure SamePlace (ctx ctx' : LiveContext) : Prop where
  serverHandle : ctx'.serverHandle = ctx.serverHandle
  encoder : ctx'.encoder = ctx.encoder
  surfaceId : ctx'.surfaceId = ctx.surfaceId
  dims : ctx'.dims = ctx.dims

theorem samePlace_of_core {ctx : LiveContext} {isReady needKeyframe idrBackedOff : Bool}
    {target : UInt32} (h : ctx'.core = { ctx.core with
      isReady := isReady
      needKeyframe := needKeyframe
      adaptiveTargetBps := target
      idrBackedOff := idrBackedOff }) : SamePlace ctx ctx' :=
  ⟨congrArg Core.serverHandle h, congrArg Core.encoder h, congrArg Core.surfaceId h,
    congrArg Core.dims h⟩

/-- Each pipe is still there, for what it was made for. -/
def PipesKept (pipes pipes' : List Pipe) : Prop :=
  ∀ (id : ℕ) (pipe : Pipe), pipes[id]? = some pipe → ∃ pipe', pipes'[id]? = some pipe' ∧
    pipe'.home = pipe.home ∧ pipe'.dropped = pipe.dropped

theorem PipesKept.refl (pipes : List Pipe) : PipesKept pipes pipes :=
  fun _ pipe h => ⟨pipe, h, rfl, rfl⟩

theorem pipesKept_set {pipes : List Pipe} {id : ℕ} {pipe pipe' : Pipe}
    (hpipe : pipes[id]? = some pipe) (hhome : pipe'.home = pipe.home)
    (hdropped : pipe'.dropped = pipe.dropped) : PipesKept pipes (pipes.set id pipe') := by
  intro j other hother
  by_cases hj : id = j
  · rw [hj] at hpipe ⊢
    rw [hpipe] at hother
    cases hother
    have hlt := (List.getElem?_eq_some_iff.mp hpipe).1
    exact ⟨pipe', by rw [List.getElem?_set_self hlt], hhome, hdropped⟩
  · exact ⟨other, by rw [List.getElem?_set_ne hj, hother], rfl, rfl⟩

/-- Pipes stay wired to a context in the same place. -/
theorem WiredTo.congr {ctx : LiveContext} {pipe pipe' : Pipe} (h : WiredTo ctx pipe)
    (hplace : SamePlace ctx ctx') (hhome : pipe'.home = pipe.home)
    (hdropped : pipe'.dropped = pipe.dropped) : WiredTo ctx' pipe' where
  alive := hdropped.trans h.alive
  serverHandle := by rw [hhome, h.serverHandle, hplace.serverHandle]
  dims := by rw [hhome, h.dims, hplace.dims]
  surface := by
    rw [hhome, hplace.surfaceId]
    exact h.surface

theorem Wired.congr {p p' : Pipeline} (h : Wired p) (hpipes : PipesKept p.pipes p'.pipes)
    (hctx : ∀ ctx', p'.cells.ctx = some ctx' →
      ∃ ctx, p.cells.ctx = some ctx ∧ SamePlace ctx ctx') : Wired p' := by
  intro ctx' id hctx' hencoder
  obtain ⟨ctx, hbefore, hplace⟩ := hctx ctx' hctx'
  rw [hplace.encoder] at hencoder
  obtain ⟨pipe, hpipe, hwired⟩ := h ctx id hbefore hencoder
  obtain ⟨pipe', hpipe', hhome, hdropped⟩ := hpipes id pipe hpipe
  exact ⟨pipe', hpipe', hwired.congr hplace hhome hdropped⟩

/-- Without an encoder nothing is to be wired. -/
theorem wired_of_none {p : Pipeline}
    (h : ∀ ctx, p.cells.ctx = some ctx → ctx.encoder = none) : Wired p := by
  intro ctx id hctx hencoder
  rw [h ctx hctx] at hencoder
  cases hencoder

variable {g : Factory} {p p' : Pipeline}

/-- A setup wires what it makes. -/
theorem wired_prepared {pipes : List Pipe} {threadSpawned : Bool} {surfaced : LiveContext}
    {s : Setup} {cells' : Cells} {counters : GfxCounters} {capture : CaptureThread}
    (hsurfaced : ∀ id, surfaced.encoder = some id →
      ∃ pipe, pipes[id]? = some pipe ∧ WiredTo surfaced pipe)
    (h : Prepared g threadSpawned pipes surfaced s) (hplace : SamePlace s.ctx ctx')
    (hafter : cells'.ctx = some ctx') : Wired ⟨cells', counters, s.pipes, capture⟩ := by
  intro ctx id hctx hencoder
  rw [hafter] at hctx
  cases hctx
  rw [hplace.encoder] at hencoder
  cases h with
  | kept same complete =>
    rw [same.1] at hencoder hplace
    obtain ⟨pipe, hpipe, hwired⟩ := hsurfaced id hencoder
    exact ⟨pipe, by rw [same.2, hpipe], hwired.congr hplace rfl rfl⟩
  | made encoder surface ok added tally core =>
    have hid : s.ctx.encoder = some pipes.length := congrArg Core.encoder core
    rw [hid, Option.some.injEq] at hencoder
    refine ⟨newPipe g threadSpawned surfaced, ?_, rfl, ?_, ?_, ?_⟩
    · rw [added, ← hencoder, List.getElem?_concat_length]
    · rw [hplace.serverHandle]
      exact (congrArg Core.serverHandle core).symm
    · rw [hplace.dims]
      exact (congrArg Core.dims core).symm
    · obtain ⟨surfaceId, hsurface⟩ := Option.isSome_iff_exists.mp surface
      refine ⟨surfaceId, by simp [newPipe, hsurface], ?_⟩
      rw [hplace.surfaceId, ← hsurface]
      exact congrArg Core.surfaceId core

theorem wired_admitCapture (h : Wired p) (i : CaptureInput) {a : Admitted}
    (ha : Captured g p.cells p.pipes i a) (counters : GfxCounters) (capture : CaptureThread) :
    Wired ⟨a.cells, counters, a.pipes, capture⟩ := by
  have hentered : ∀ {ctx surfaced : LiveContext} {s : Setup},
      Entered g p.cells p.pipes i ctx surfaced s → ∀ id, surfaced.encoder = some id →
        ∃ pipe, p.pipes[id]? = some pipe ∧ WiredTo surfaced pipe := by
    intro ctx surfaced s hentered id hencoder
    have hsame : surfaced.encoder = ctx.encoder := congrArg Core.encoder hentered.core
    rw [hsame] at hencoder
    obtain ⟨pipe, hpipe, hwired⟩ := h ctx id hentered.before hencoder
    obtain ⟨surfaceId, -, hsurface⟩ := hwired.surface
    obtain ⟨hsid, hdims⟩ := hentered.surface (by rw [hsurface]; rfl)
    exact ⟨pipe, hpipe, hwired.congr
      ⟨congrArg Core.serverHandle hentered.core, hsame, hsid, hdims⟩ rfl rfl⟩
  rcases ha.outcome with ⟨hctx, hpipes⟩ | ⟨ctx, surfaced, s, ctx', armed, entered, after, hpipes, core⟩
  · refine h.congr (by rw [hpipes]; exact PipesKept.refl _) fun ctx hafter => ?_
    rw [hctx] at hafter
    exact ⟨ctx, hafter, rfl, rfl, rfl, rfl⟩
  · rw [hpipes]
    exact wired_prepared (hentered entered) entered.prepared (samePlace_of_core core) after

/-- What a step makes of the whole pipeline. -/
inductive Steps (g : Factory) (p : Pipeline) : Action → Pipeline → Prop
  | build (now : Instant) (unlocked : p.locked = false) : Steps g p (.build now)
      { p with
        cells := { p.cells with ctx := some (freshLive g p.cells p.counters now) }
        counters := (buildServerWithHandle g p.cells p.counters now).2
        pipes := dropEncoder p.pipes p.cells.ctx }
  | client (e : GfxEvent) (notClose : e ≠ .close) (unlocked : p.locked = false) :
      Steps g p (.client e) { p with cells := callback p.cells e }
  | close (unlocked : p.locked = false) : Steps g p (.client .close)
      { p with cells := callback p.cells .close, pipes := dropEncoder p.pipes p.cells.ctx }
  | admitCapture (i : CaptureInput) (idle : p.capture = .idle) : Steps g p (.admitCapture i)
      { p with
        cells := (GfxPipeline.admitCapture g p.cells p.pipes i).cells
        pipes := (GfxPipeline.admitCapture g p.cells p.pipes i).pipes
        capture := Pipeline.afterAdmission
          (GfxPipeline.admitCapture g p.cells p.pipes i).result }
  | recover (remapped : Option UInt16) (r : Recovery) (recovering : p.capture = .recovering r) :
      Steps g p (.recover remapped) (p.runRecovery r remapped)
  | publishLate (serverHandle : ℕ) (surfaceId : UInt16)
      (remapped : p.capture = .remapped serverHandle surfaceId)
      (replaced : ∀ ctx, p.cells.ctx = some ctx → ctx.serverHandle ≠ serverHandle) :
      Steps g p .publishRemap { p with capture := .idle }
  | publish (surfaceId : UInt16) (ctx : LiveContext) (before : p.cells.ctx = some ctx)
      (remapped : p.capture = .remapped ctx.serverHandle surfaceId) :
      Steps g p .publishRemap
        { p with
          capture := .idle
          cells := { p.cells with
            ctx := some { ctx with surfaceId := some surfaceId, needKeyframe := true } }
          pipes := match ctx.encoder with
            | none => p.pipes
            | some id => p.pipes.modify id fun pipe => { pipe with
                home := { pipe.home with surfaces := surfaceId :: pipe.home.surfaces } } }
  | encode (i : EncodeInput) (forceKeyframe : Bool) (next : Submitted)
      (encoding : p.capture = .encoding forceKeyframe)
      (encoded : Encoded g p.cells p.pipes i forceKeyframe next) : Steps g p (.encode i)
      { p with
        cells := next.cells
        pipes := next.pipes
        capture := if next.accepted then .counting else .idle }
  | countSubmission (counting : p.capture = .counting) : Steps g p .countSubmission
      { p with capture := .idle, cells := p.cells.update GfxPipeline.countSubmission }
  | forceKeyframe (idle : p.capture = .idle) :
      Steps g p .forceKeyframe { p with cells := p.cells.update armKeyframe }
  | stayDemigrated (idle : p.capture = .idle) (stays : p.resumes = false) :
      Steps g p .demigrateOnResume p
  | demigrate (idle : p.capture = .idle) (resumes : p.resumes = true) :
      Steps g p .demigrateOnResume
        { p with cells := { p.cells.update GfxPipeline.demigrate with demigrateRequest := true } }
  | resetForLiveResize (idle : p.capture = .idle) : Steps g p .resetForLiveResize
      { p with
        cells := p.cells.update fun ctx =>
          { ctx with encoder := none, surfaceId := none, needKeyframe := true }
        pipes := dropEncoder p.pipes p.cells.ctx }
  | output (id place : ℕ) (delivered : Bool) (pipe next : Pipe)
      (present : p.pipes[id]? = some pipe) (outputs : pipe.output place delivered = some next) :
      Steps g p (.output id place delivered) { p with pipes := p.pipes.set id next }
  | ship (id : ℕ) (a : Action) (pipe : Pipe) (next : Pipe × Cells)
      (present : p.pipes[id]? = some pipe) (ships : Ships p.cells pipe a next)
      (own : a = .pull id ∨ (∃ now, a = .readContext id now ∧ p.locked = false) ∨
        (∃ channelOpen frameIds now, a = .frameBatch id channelOpen frameIds now) ∨
        a = .postEvent id ∨ a = .countBatch id) :
      Steps g p a { p with pipes := p.pipes.set id next.1, cells := next.2 }
  | outside (o : Outside) : Steps g p (.outside o)
      { p with cells := { p.cells with
        desktopSize := o.desktopSize
        egfxOnLossy := o.egfxOnLossy
        egfxOnUdp := o.egfxOnUdp
        demigrateRequest := o.demigrateRequest
        congestionRetransmits := o.congestionRetransmits
        linkRttMs := o.linkRttMs
        eventQueue := o.eventQueue
        reactivateRequest := o.reactivateRequest } }

theorem ship_cases {id : ℕ} (h : p.ship id a = some p') :
    ∃ pipe next, p.pipes[id]? = some pipe ∧ Ships p.cells pipe a next ∧
      p' = { p with pipes := p.pipes.set id next.1, cells := next.2 } := by
  obtain ⟨pipe, hpipe, hmap⟩ := Option.bind_eq_some_iff.mp h
  obtain ⟨next, hnext, rfl⟩ := Option.map_eq_some_iff.mp hmap
  exact ⟨pipe, next, hpipe, ships_of_shipStep hnext, rfl⟩

/-- The pipeline does nothing else. -/
theorem steps_of_step (h : p.step g a = some p') : Steps g p a p' := by
  cases a with
  | build now =>
    simp only [Pipeline.step] at h
    split at h
    · cases h
    · next hunlocked =>
      cases h
      exact .build now (Bool.eq_false_of_not_eq_true hunlocked)
  | client e =>
    simp only [Pipeline.step] at h
    split at h
    · cases h
    · next hunlocked =>
      have hfree := Bool.eq_false_of_not_eq_true hunlocked
      cases h
      cases e with
      | close => exact .close hfree
      | _ => exact .client _ (by simp) hfree
  | admitCapture i =>
    simp only [Pipeline.step] at h
    split at h
    · next hidle =>
      cases h
      exact .admitCapture i hidle
    · cases h
  | recover remapped =>
    simp only [Pipeline.step] at h
    split at h
    · next r hr =>
      cases h
      exact .recover remapped r hr
    · cases h
  | publishRemap =>
    simp only [Pipeline.step] at h
    split at h
    · next serverHandle surfaceId hremapped =>
      cases h
      unfold Pipeline.publish
      split
      · next hnone =>
        refine .publishLate serverHandle surfaceId hremapped fun ctx hctx => ?_
        rw [hnone] at hctx
        cases hctx
      · next ctx hctx =>
        split
        · next hhandle =>
          rw [← hhandle] at hremapped
          exact .publish surfaceId ctx hctx hremapped
        · next hother =>
          refine .publishLate serverHandle surfaceId hremapped fun ctx' hctx' => ?_
          rw [hctx] at hctx'
          cases hctx'
          exact hother
    · cases h
  | encode i =>
    simp only [Pipeline.step] at h
    split at h
    · next forceKeyframe hencoding =>
      obtain ⟨next, hnext, rfl⟩ := Option.map_eq_some_iff.mp h
      exact .encode i forceKeyframe next hencoding (encoded_encodeCapture g p.cells hnext)
    · cases h
  | countSubmission =>
    simp only [Pipeline.step] at h
    split at h
    · next hcounting =>
      cases h
      exact .countSubmission hcounting
    · cases h
  | forceKeyframe =>
    simp only [Pipeline.step] at h
    split at h
    · next hidle =>
      cases h
      exact .forceKeyframe hidle
    · cases h
  | demigrateOnResume =>
    simp only [Pipeline.step] at h
    split at h
    · next hidle =>
      cases h
      split
      · next hresumes => exact .demigrate hidle hresumes
      · next hstays => exact .stayDemigrated hidle (Bool.eq_false_of_not_eq_true hstays)
    · cases h
  | resetForLiveResize =>
    simp only [Pipeline.step] at h
    split at h
    · next hidle =>
      cases h
      exact .resetForLiveResize hidle
    · cases h
  | output id place delivered =>
    obtain ⟨pipe, hpipe, hmap⟩ := Option.bind_eq_some_iff.mp h
    obtain ⟨next, hnext, rfl⟩ := Option.map_eq_some_iff.mp hmap
    exact .output id place delivered pipe next hpipe hnext
  | pull id =>
    obtain ⟨pipe, next, hpipe, hships, rfl⟩ := ship_cases h
    exact .ship id _ pipe next hpipe hships (.inl rfl)
  | readContext id now =>
    simp only [Pipeline.step] at h
    split at h
    · cases h
    · next hunlocked =>
      obtain ⟨pipe, next, hpipe, hships, rfl⟩ := ship_cases h
      exact .ship id _ pipe next hpipe hships
        (.inr (.inl ⟨now, rfl, Bool.eq_false_of_not_eq_true hunlocked⟩))
  | frameBatch id channelOpen frameIds now =>
    obtain ⟨pipe, next, hpipe, hships, rfl⟩ := ship_cases h
    exact .ship id _ pipe next hpipe hships (.inr (.inr (.inl ⟨channelOpen, frameIds, now, rfl⟩)))
  | postEvent id =>
    obtain ⟨pipe, next, hpipe, hships, rfl⟩ := ship_cases h
    exact .ship id _ pipe next hpipe hships (.inr (.inr (.inr (.inl rfl))))
  | countBatch id =>
    obtain ⟨pipe, next, hpipe, hships, rfl⟩ := ship_cases h
    exact .ship id _ pipe next hpipe hships (.inr (.inr (.inr (.inr rfl))))
  | outside o =>
    cases h
    exact .outside o

theorem output_cases {pipe next : Pipe} {place : ℕ} {delivered : Bool}
    (h : pipe.output place delivered = some next) :
    ∃ frame, pipe.inFlight[place]? = some frame ∧ next =
      { pipe with
        inFlight := pipe.inFlight.eraseIdx place
        channel := if delivered && pipe.thread.receives then pipe.channel ++ [frame]
          else pipe.channel } := by
  obtain ⟨frame, hframe, rfl⟩ := Option.map_eq_some_iff.mp h
  exact ⟨frame, hframe, rfl⟩

/-- A recovery action leaves the context and the pipes. -/
theorem runRecovery_frame (p : Pipeline) (r : Recovery) (remapped : Option UInt16) :
    (p.runRecovery r remapped).cells.ctx = p.cells.ctx ∧
      (p.runRecovery r remapped).pipes = p.pipes := by
  unfold Pipeline.runRecovery
  split <;> exact ⟨rfl, rfl⟩

/-- The wiring survives every step. -/
theorem wired_step (h : Wired p) (hstep : p.step g a = some p') : Wired p' := by
  have hsame : ∀ {ctx : LiveContext}, p.cells.ctx = some ctx →
      ∃ ctx', p.cells.ctx = some ctx' ∧ SamePlace ctx' ctx :=
    fun hctx => ⟨_, hctx, rfl, rfl, rfl, rfl⟩
  cases steps_of_step hstep with
  | build now _ =>
    refine wired_of_none fun ctx hctx => ?_
    cases hctx
    rfl
  | client e notClose _ =>
    refine h.congr (PipesKept.refl _) fun ctx' hctx' => ?_
    obtain ⟨ctx, hctx, -, hcalled⟩ := called_callback e hctx'
    refine ⟨ctx, hctx, ?_⟩
    cases hcalled with
    | quiet e _ core | ready accepted core => exact samePlace_of_core core
    | close => exact absurd rfl notClose
  | close _ | resetForLiveResize _ =>
    refine wired_of_none fun ctx' hctx' => ?_
    obtain ⟨ctx, -, rfl⟩ := Cells.update_some hctx'
    rfl
  | admitCapture i _ =>
    exact wired_admitCapture h i (captured_admitCapture g p.cells p.pipes i) _ _
  | recover remapped r _ =>
    obtain ⟨hctx, hpipes⟩ := runRecovery_frame p r remapped
    refine h.congr (by rw [hpipes]; exact PipesKept.refl _) fun ctx' hctx' => ?_
    rw [hctx] at hctx'
    exact hsame hctx'
  | publishLate | outside o => exact h.congr (PipesKept.refl _) fun ctx hctx => hsame hctx
  | publish surfaceId ctx before _ =>
    intro ctx' id hctx' hencoder
    cases hctx'
    have hset : ctx.encoder = some id := hencoder
    obtain ⟨pipe, hpipe, hwired⟩ := h ctx id before hset
    have hmoved : (p.pipes.modify id fun pipe => { pipe with
        home := { pipe.home with surfaces := surfaceId :: pipe.home.surfaces } })[id]? =
        some { pipe with
          home := { pipe.home with surfaces := surfaceId :: pipe.home.surfaces } } := by
      rw [List.getElem?_modify_eq, hpipe]
      rfl
    refine ⟨{ pipe with
      home := { pipe.home with surfaces := surfaceId :: pipe.home.surfaces } }, ?_,
      hwired.alive, hwired.serverHandle, hwired.dims, surfaceId, List.mem_cons_self, rfl⟩
    rw [hset]
    exact hmoved
  | encode i forceKeyframe next _ encoded =>
    have hsteered : ∀ {ctx stepped : LiveContext} {armed : Bool}, Steered armed ctx stepped →
        SamePlace ctx stepped := fun hsteered => samePlace_of_core hsteered.core
    cases encoded with
    | noContext before => exact h.congr (PipesKept.refl _) fun ctx hctx => hsame hctx
    | noEncoder ctx stepped before controlled missing =>
      refine h.congr (PipesKept.refl _) fun ctx' hctx' => ?_
      cases hctx'
      exact ⟨ctx, before, hsteered (steered_adaptiveBitrateStep g p.cells controlled)⟩
    | encoded ctx stepped id pipe before controlled encoder present =>
      have hplace := hsteered (steered_adaptiveBitrateStep g p.cells controlled)
      obtain ⟨hhome, hdropped, -, -⟩ := encodeInto_frame stepped.2 i forceKeyframe pipe
      refine h.congr (pipesKept_set present hhome hdropped) fun ctx' hctx' => ?_
      cases hctx'
      exact ⟨ctx, before, hplace⟩
  | countSubmission _ | forceKeyframe _ | demigrate _ _ =>
    refine h.congr (PipesKept.refl _) fun ctx' hctx' => ?_
    obtain ⟨ctx, hctx, rfl⟩ := Cells.update_some hctx'
    exact ⟨ctx, hctx, rfl, rfl, rfl, rfl⟩
  | stayDemigrated => exact h
  | output id place delivered pipe next present outputs =>
    obtain ⟨frame, -, rfl⟩ := output_cases outputs
    exact h.congr (pipesKept_set present rfl rfl) fun ctx hctx => hsame hctx
  | ship id a pipe next present ships _ =>
    obtain ⟨-, hhome, hdropped, -⟩ := ships.pipe
    refine h.congr (pipesKept_set present hhome hdropped) fun ctx' hctx' => ?_
    obtain ⟨ctx, hctx, hcore⟩ := ships.core hctx'
    exact ⟨ctx, hctx, samePlace_of_core hcore⟩

/-- A factory with nothing overridden. -/
def plainFactory (adaptiveBitrate : Bool) : Factory :=
  .new
    { fps := 60
      bitrateBps := 20000000
      keyframeSecs := 2
      maxInFlight := 3
      adaptiveBitrate := adaptiveBitrate
      telemetry := true } .unset

/-- Others leave an event queue of a length and a screen of 16 by 2 pixels. -/
def quietOutside (eventQueue : UInt32) : Outside where
  desktopSize := (16, 2)
  egfxOnLossy := false
  egfxOnUdp := false
  demigrateRequest := false
  congestionRetransmits := 0
  linkRttMs := 0
  eventQueue := eventQueue
  reactivateRequest := 0

/-- A capture at a second, which sets up a surface if it has to. -/
def captureAt (secs : UInt32) (requestKeyframe : Bool) (surfaceId : UInt16) : Action :=
  .admitCapture
    { requestKeyframe := requestKeyframe
      nowRecovery := .fromSecs secs
      nowWatchdog := .fromSecs secs
      setup := ⟨true, some surfaceId, true, true, true⟩
      nowBlank := .fromSecs secs
      nowFps := .fromSecs secs
      nowFpsPass := .fromSecs secs
      nowThrottle := .fromSecs secs }

/-- A whole picture at a second, which the platform's encoder takes or not. -/
def encodeAt (secs : UInt32) (platformAccepts : Bool) : Action :=
  .encode
    { now := .fromSecs secs
      bgraLen := 128
      stride := 64
      setBitrateOk := true
      setKeyframeOk := true
      platformAccepts := platformAccepts }

/-- A client connects and negotiates the channel. -/
def connecting (secs : UInt32) : List Action :=
  [.build (.fromSecs secs), .client (.capabilities [.v8_1 true]), .client .ready]

end Macrdp.PipelineSystem
