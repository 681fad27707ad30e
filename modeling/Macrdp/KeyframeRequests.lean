import Macrdp.PipelineWiring

/-!
# Requests for a keyframe

A request for a keyframe is an armed flag, or is carried by the capture that took
the flag. It is lost when the capture that carries it is refused by the encoder,
when the event queue's gate turns back the capture that makes it, and it is late
when the controller makes it after the capture took the flag.
-/

namespace Macrdp.PipelineSystem

open GfxContext GfxFactory GfxLive RateControl BlankRecovery GfxPipeline StepSystem

/-- The first section of a capture dispatched a recovery action that arms a keyframe. -/
def Admission.reactivates : Admission → Bool
  | .recover r => decide (r.action = .reactivate)
  | _ => false

/-- A forced keyframe is requested by a step, the controller's requests apart. -/
def requestsKeyframe (g : Factory) (p : Pipeline) : Action → Bool
  | .admitCapture i =>
    (p.cells.ctx.any fun ctx => ctx.isReady &&
      (i.requestKeyframe || (!eventQueueFull g p.cells && takesKeyframe g p.cells i ctx))) ||
    Admission.reactivates (GfxPipeline.admitCapture g p.cells p.pipes i).result
  | .publishRemap =>
    match p.capture with
    | .remapped serverHandle _ => p.cells.ctx.any fun ctx => decide (ctx.serverHandle = serverHandle)
    | _ => false
  | .forceKeyframe | .resetForLiveResize => p.cells.ctx.isSome
  | .demigrateOnResume => p.resumes
  | _ => false

/-- The controller requests a keyframe in a step. -/
def restoring (g : Factory) (p : Pipeline) : Action → Bool
  | .encode i => p.cells.ctx.any fun ctx => restores g p.cells i.now ctx
  | _ => false

/-- The frame that the encoder accepts in a step. -/
def acceptedFrame (g : Factory) (p : Pipeline) : Action → Option Frame
  | .encode i =>
    match p.capture, p.cells.ctx with
    | .encoding forceKeyframe, some ctx =>
      (adaptiveBitrateStep g p.cells i.now ctx).bind fun stepped =>
        (currentPipe p.pipes stepped.1).bind fun current =>
          ((applyActions stepped.2 i current.2.encoder).encodeBgra i.bgraLen i.stride forceKeyframe
            i.platformAccepts).2
    | _, _ => none
  | _ => none

/-- The pipeline, and whether a keyframe was requested on the connection of which
no frame was accepted since. -/
structure Watch where
  pipeline : Pipeline
  pending : Bool

namespace Watch

/-- Nothing is requested of a new process. -/
def new (o : Outside) : Watch := ⟨.new o, false⟩

/-- Whether a keyframe is pending after a step; a new connection starts without. -/
def pendingAfter (g : Factory) (w : Watch) (a : Action) : Bool :=
  match a with
  | .build _ => false
  | a => (w.pending || requestsKeyframe g w.pipeline a || restoring g w.pipeline a) &&
      (acceptedFrame g w.pipeline a).isNone

/-- One step. -/
def step (g : Factory) (w : Watch) (a : Action) : Option Watch :=
  (w.pipeline.step g a).map fun p => ⟨p, w.pendingAfter g a⟩

/-- If a keyframe is pending, or the controller requests one on the way, the frame that
is accepted is forced to be one. -/
def onTime (g : Factory) (w : Watch) (a : Action) : Bool :=
  (acceptedFrame g w.pipeline a).all fun frame =>
    frame.forceKeyframe || !(w.pending || restoring g w.pipeline a)

/-- No request is lost or late: the event queue's gate does not turn back a request
unless the flag is armed, the encoder does not refuse a capture that took the flag
unless it is armed again, and the controller does not make its request at a capture
that goes on without the flag. -/
def keeps (g : Factory) (p : Pipeline) : Action → Bool
  | .admitCapture i => p.cells.ctx.all fun ctx =>
      !(ctx.isReady && eventQueueFull g p.cells && i.requestKeyframe) || ctx.needKeyframe
  | .encode i =>
    match p.capture, p.cells.ctx with
    | .encoding forceKeyframe, some ctx => (currentPipe p.pipes ctx).all fun current =>
        if accepts i current.2.encoder then forceKeyframe || !restores g p.cells i.now ctx
        else !forceKeyframe || ctx.needKeyframe || restores g p.cells i.now ctx
    | _, _ => true
  | _ => true

/-- A pending keyframe is armed or carried by the capture on its way to the encoder. -/
structure Carried (w : Watch) : Prop where
  wired : Wired w.pipeline
  armed : ∀ ctx, w.pipeline.cells.ctx = some ctx → w.pending = true →
    ctx.needKeyframe = true ∨ w.pipeline.capture = .encoding true
  carried : ∀ ctx forceKeyframe, w.pipeline.cells.ctx = some ctx →
    w.pipeline.capture = .encoding forceKeyframe → w.pending = true →
    ctx.encoder.isSome = true → forceKeyframe = true
  dropped : ∀ ctx forceKeyframe, w.pipeline.cells.ctx = some ctx →
    w.pipeline.capture = .encoding forceKeyframe → ctx.encoder = none → ctx.needKeyframe = true

variable {g : Factory} {p : Pipeline} {w w' : Watch}
variable {ctx : LiveContext}

/-- The frame of a capture that the encoder gets is forced as the capture says. -/
theorem acceptedFrame_encode {i : EncodeInput} {forceKeyframe : Bool}
    (hcapture : p.capture = .encoding forceKeyframe) (hctx : p.cells.ctx = some ctx) :
    acceptedFrame g p (.encode i) = (adaptiveBitrateStep g p.cells i.now ctx).bind fun _ =>
      (currentPipe p.pipes ctx).bind fun current =>
        if accepts i current.2.encoder then some ⟨current.2.encoder.nextPts, forceKeyframe⟩
        else none := by
  simp only [acceptedFrame, hcapture, hctx]
  cases hstepped : adaptiveBitrateStep g p.cells i.now ctx with
  | none => rfl
  | some stepped =>
    have hencoder : stepped.1.encoder = ctx.encoder :=
      congrArg Core.encoder (steered_adaptiveBitrateStep g p.cells hstepped).core
    have hcurrent : currentPipe p.pipes stepped.1 = currentPipe p.pipes ctx := by
      simp only [currentPipe, hencoder]
    simp only [Option.bind_some, hcurrent]
    congr 1
    funext current
    have hset := accepts_applyActions stepped.2 i current.2.encoder
    split
    · next haccepts =>
      rw [encodeBgra_of_accepts forceKeyframe (hset.trans haccepts), nextPts_applyActions]
    · next hrefuses =>
      have hfalse := Bool.eq_false_of_not_eq_true hrefuses
      obtain ⟨nextPts, hnone⟩ := encodeBgra_of_not_accepts forceKeyframe (hset.trans hfalse)
      rw [hnone]

variable {a : Action}

/-- A frame is accepted at a capture that found its encoder. -/
theorem acceptedFrame_some {frame : Frame} (h : acceptedFrame g p a = some frame) :
    ∃ i ctx current, a = .encode i ∧ p.capture = .encoding frame.forceKeyframe ∧
      p.cells.ctx = some ctx ∧ currentPipe p.pipes ctx = some current ∧
      accepts i current.2.encoder = true := by
  cases a with
  | encode i =>
    cases hcapture : p.capture with
    | encoding forceKeyframe =>
      cases hctx : p.cells.ctx with
      | none => simp [acceptedFrame, hcapture, hctx] at h
      | some ctx =>
        rw [acceptedFrame_encode hcapture hctx] at h
        obtain ⟨stepped, -, hfound⟩ := Option.bind_eq_some_iff.mp h
        obtain ⟨current, hcurrent, hframe⟩ := Option.bind_eq_some_iff.mp hfound
        split at hframe
        · next haccepts =>
          cases hframe
          exact ⟨i, ctx, current, rfl, rfl, rfl, hcurrent, haccepts⟩
        · cases hframe
    | _ => simp [acceptedFrame, hcapture] at h
  | _ => cases h

theorem encoder_of_currentPipe {pipes : List Pipe} {current : ℕ × Pipe}
    (h : currentPipe pipes ctx = some current) : ctx.encoder.isSome = true := by
  obtain ⟨id, hid, -⟩ := Option.bind_eq_some_iff.mp h
  rw [hid]
  rfl

/-- Wherever a request is carried and the conditions are met, the accepted frame is on time. -/
theorem Carried.onTime (h : Carried w) (hkeeps : keeps g w.pipeline a = true) :
    onTime g w a = true := by
  unfold Watch.onTime
  cases hframe : acceptedFrame g w.pipeline a with
  | none => rfl
  | some frame =>
    obtain ⟨i, ctx, current, rfl, hcapture, hctx, hcurrent, haccepts⟩ := acceptedFrame_some hframe
    simp only [keeps, hcapture, hctx, hcurrent, Option.all_some, haccepts, if_true] at hkeeps
    simp only [Option.all_some, restoring, hctx, Option.any_some]
    cases hforce : frame.forceKeyframe with
    | true => rfl
    | false =>
      rw [hforce, Bool.false_or] at hkeeps
      rw [hforce] at hcapture
      have hpending : w.pending = false := by
        by_contra hpending
        have hcarried := h.carried ctx false hctx hcapture (by simpa using hpending)
          (encoder_of_currentPipe hcurrent)
        cases hcarried
      simp only [Bool.not_eq_true'] at hkeeps
      rw [hpending, hkeeps]
      rfl

/-- What is left of an invariant when no request is made or answered. -/
theorem Carried.quiet (h : Carried w) (hwired : Wired w'.pipeline)
    (hpending : w'.pending = true → w.pending = true)
    (hcapture : w'.pipeline.capture = w.pipeline.capture)
    (hctx : ∀ ctx', w'.pipeline.cells.ctx = some ctx' → ∃ ctx, w.pipeline.cells.ctx = some ctx ∧
      ctx'.encoder = ctx.encoder ∧ (ctx.needKeyframe = true → ctx'.needKeyframe = true)) :
    Carried w' where
  wired := hwired
  armed := by
    intro ctx' hctx' hpending'
    obtain ⟨ctx, hbefore, -, hneed⟩ := hctx ctx' hctx'
    rw [hcapture]
    exact (h.armed ctx hbefore (hpending hpending')).imp_left hneed
  carried := by
    intro ctx' forceKeyframe hctx' hencoding hpending' hencoder'
    obtain ⟨ctx, hbefore, hencoder, -⟩ := hctx ctx' hctx'
    rw [hcapture] at hencoding
    rw [hencoder] at hencoder'
    exact h.carried ctx forceKeyframe hbefore hencoding (hpending hpending') hencoder'
  dropped := by
    intro ctx' forceKeyframe hctx' hencoding hnone
    obtain ⟨ctx, hbefore, hencoder, hneed⟩ := hctx ctx' hctx'
    rw [hcapture] at hencoding
    rw [hencoder] at hnone
    exact hneed (h.dropped ctx forceKeyframe hbefore hencoding hnone)

/-- With an armed flag, or nothing pending, no capture need carry anything. -/
theorem carried_of_armed (hwired : Wired w'.pipeline)
    (hctx : ∀ ctx', w'.pipeline.cells.ctx = some ctx' → w'.pending = true →
      ctx'.needKeyframe = true)
    (hcapture : ∀ forceKeyframe, w'.pipeline.capture ≠ .encoding forceKeyframe) : Carried w' where
  wired := hwired
  armed := fun ctx' hctx' hpending => .inl (hctx ctx' hctx' hpending)
  carried := fun _ forceKeyframe _ hencoding => absurd hencoding (hcapture forceKeyframe)
  dropped := fun _ forceKeyframe _ hencoding => absurd hencoding (hcapture forceKeyframe)

/-- A context that lost its encoder has its flag armed. -/
theorem carried_of_dropped (hwired : Wired w'.pipeline)
    (hctx : ∀ ctx', w'.pipeline.cells.ctx = some ctx' →
      ctx'.encoder = none ∧ ctx'.needKeyframe = true) : Carried w' where
  wired := hwired
  armed := fun ctx' hctx' _ => .inl (hctx ctx' hctx').2
  carried := by
    intro ctx' forceKeyframe hctx' _ _ hencoder
    rw [(hctx ctx' hctx').1] at hencoder
    cases hencoder
  dropped := fun ctx' _ hctx' _ _ => (hctx ctx' hctx').2

/-- Between captures a pending keyframe is armed. -/
theorem Carried.need (h : Carried w) (hcapture : w.pipeline.capture ≠ .encoding true)
    (hctx : w.pipeline.cells.ctx = some ctx) (hpending : w.pending = true) :
    ctx.needKeyframe = true :=
  (h.armed ctx hctx hpending).resolve_right hcapture

/-- A step that accepts no frame leaves pending what was, and what it requests. -/
theorem pending_of_pendingAfter (h : w.pendingAfter g a = true) :
    w.pending = true ∨ requestsKeyframe g w.pipeline a = true ∨
      restoring g w.pipeline a = true := by
  cases a with
  | build now => cases h
  | _ =>
    simp only [pendingAfter, Bool.and_eq_true, Bool.or_eq_true] at h
    obtain ⟨(hpending | hrequests) | hrestoring, -⟩ := h
    · exact .inl hpending
    · exact .inr (.inl hrequests)
    · exact .inr (.inr hrestoring)

variable {i : CaptureInput}

/-- The flag a capture brings about is set once its requests are taken. -/
theorem need_entered {surfaced : LiveContext} {s : Setup}
    (h : Entered g p.cells p.pipes i ctx surfaced s) :
    s.ctx.needKeyframe = (ctx.needKeyframe || takesKeyframe g p.cells i ctx) := by
  have hsurfaced : surfaced.needKeyframe = (ctx.needKeyframe || takesKeyframe g p.cells i ctx) :=
    congrArg Core.needKeyframe h.core
  rw [← hsurfaced]
  cases h.prepared with
  | kept same complete => rw [same.1]
  | made encoder surface ok added tally core => exact congrArg Core.needKeyframe core

/-- A capture that went through its setup finds its encoder. -/
theorem encoder_entered {surfaced : LiveContext} {s : Setup}
    (h : Entered g p.cells p.pipes i ctx surfaced s) (hok : s.ok = true) :
    s.ctx.encoder.isSome = true := by
  cases h.prepared with
  | kept same complete =>
    rw [same.1]
    exact (complete hok).2
  | made encoder surface ok added tally core =>
    have hid : s.ctx.encoder = some p.pipes.length := congrArg Core.encoder core
    rw [hid]
    rfl

/-- A capture that asks for a keyframe takes the request unless the event queue turns it
back. -/
theorem takes_of_requests (hctx : p.cells.ctx = some ctx) (hresult : Admission.reactivates
      (GfxPipeline.admitCapture g p.cells p.pipes i).result = false)
    (h : requestsKeyframe g p (.admitCapture i) = true) : takesKeyframe g p.cells i ctx = true := by
  simp only [requestsKeyframe, hctx, Option.any_some, hresult, Bool.or_false,
    Bool.and_eq_true, Bool.or_eq_true] at h
  rcases h.2 with hflag | htakes
  · simp [takesKeyframe, hflag]
  · exact htakes.2

theorem carried_admitCapture (h : Carried w)
    (hidle : w.pipeline.capture = .idle) (hkeeps : keeps g w.pipeline (.admitCapture i) = true)
    (hwired : Wired w'.pipeline) (hpipeline : w'.pipeline = { w.pipeline with
      cells := (GfxPipeline.admitCapture g w.pipeline.cells w.pipeline.pipes i).cells
      pipes := (GfxPipeline.admitCapture g w.pipeline.cells w.pipeline.pipes i).pipes
      capture := Pipeline.afterAdmission
        (GfxPipeline.admitCapture g w.pipeline.cells w.pipeline.pipes i).result })
    (hpending : w'.pending = true →
      w.pending = true ∨ requestsKeyframe g w.pipeline (.admitCapture i) = true) : Carried w' := by
  have hcaptured := captured_admitCapture g w.pipeline.cells w.pipeline.pipes i
  have hneed : ∀ {ctx : LiveContext}, w.pipeline.cells.ctx = some ctx → w.pending = true →
      ctx.needKeyframe = true := fun hctx => h.need (by rw [hidle]; simp) hctx
  generalize hadmitted : GfxPipeline.admitCapture g w.pipeline.cells w.pipeline.pipes i = a
    at hcaptured hpipeline
  cases hcaptured with
  | notActive inactive =>
    refine carried_of_armed hwired ?_ (by simp [hpipeline, Pipeline.afterAdmission])
    intro ctx hafter hp
    rw [hpipeline] at hafter
    have hctx : w.pipeline.cells.ctx = some ctx := hafter
    rcases hpending hp with hp | hrequests
    · exact hneed hctx hp
    · have hinactive := inactive ctx hctx
      simp [requestsKeyframe, hctx, hinactive, hadmitted, Admission.reactivates] at hrequests
  | droppedEventQueue ctx before ready full =>
    refine carried_of_armed hwired ?_ (by simp [hpipeline, Pipeline.afterAdmission])
    intro ctx' hctx hp
    rw [hpipeline] at hctx
    have hsame : ctx' = ctx := Option.some.inj (hctx.symm.trans before)
    rw [hsame]
    rcases hpending hp with hp | hrequests
    · exact hneed before hp
    · simp only [requestsKeyframe, before, Option.any_some, ready, full, hadmitted,
        Admission.reactivates, Bool.not_true, Bool.false_and, Bool.or_false, Bool.true_and]
        at hrequests
      simpa [keeps, before, ready, full, hrequests] using hkeeps
  | setupFailed ctx surfaced s entered failed cells' after =>
    refine carried_of_armed hwired ?_ (by simp [hpipeline, Pipeline.afterAdmission])
    intro ctx' hctx hp
    rw [hpipeline] at hctx
    have hsame : ctx' = s.ctx := Option.some.inj (hctx.symm.trans after)
    rw [hsame, need_entered entered, Bool.or_eq_true]
    rcases hpending hp with hp | hrequests
    · exact .inl (hneed entered.before hp)
    · refine .inr (takes_of_requests entered.before ?_ hrequests)
      rw [hadmitted]
      rfl
  | judged ctx surfaced ctx' s entered ok cells' result after tally judged =>
    have hneeds : w'.pending = true → Admission.reactivates result = false →
        s.ctx.needKeyframe = true := by
      intro hp hresult
      rw [need_entered entered, Bool.or_eq_true]
      rcases hpending hp with hp | hrequests
      · exact .inl (hneed entered.before hp)
      · refine .inr (takes_of_requests entered.before ?_ hrequests)
        rw [hadmitted]
        exact hresult
    have hafter : ∀ {ctx'' : LiveContext}, w'.pipeline.cells.ctx = some ctx'' → ctx'' = ctx' := by
      intro ctx'' hctx
      rw [hpipeline] at hctx
      exact Option.some.inj (hctx.symm.trans after)
    cases judged with
    | recover r core =>
      refine carried_of_armed hwired ?_ (by simp [hpipeline, Pipeline.afterAdmission])
      intro ctx'' hctx hp
      rw [hafter hctx]
      have hset : ctx'.needKeyframe = (s.ctx.needKeyframe || decide (r.action = .reactivate)) :=
        congrArg Core.needKeyframe core
      rw [hset, Bool.or_eq_true]
      cases hresult : decide (r.action = BlankAction.reactivate) with
      | true => exact .inr rfl
      | false => exact .inl (hneeds hp hresult)
    | submit core room =>
      have hencoder : ctx'.encoder = s.ctx.encoder := congrArg Core.encoder core
      have hsome := encoder_entered entered ok
      refine ⟨hwired, ?_, ?_, ?_⟩
      · intro ctx'' hctx hp
        right
        rw [hpipeline, Pipeline.afterAdmission, hneeds hp rfl]
      · intro ctx'' forceKeyframe hctx hencoding hp _
        rw [hpipeline, Pipeline.afterAdmission, CaptureThread.encoding.injEq] at hencoding
        rw [← hencoding]
        exact hneeds hp rfl
      · intro ctx'' forceKeyframe hctx _ hnone
        rw [hafter hctx, hencoder] at hnone
        rw [hnone] at hsome
        cases hsome
    | droppedFps core | droppedUdpLag core | droppedPipeline core full =>
      refine carried_of_armed hwired ?_ (by simp [hpipeline, Pipeline.afterAdmission])
      intro ctx'' hctx hp
      rw [hafter hctx]
      exact (congrArg Core.needKeyframe core).trans (hneeds hp rfl)

theorem carried_encode (h : Carried w) {i : EncodeInput} {forceKeyframe : Bool}
    {next : Submitted} (hcapture : w.pipeline.capture = .encoding forceKeyframe)
    (hencoded : Encoded g w.pipeline.cells w.pipeline.pipes i forceKeyframe next)
    (hkeeps : keeps g w.pipeline (.encode i) = true) (hwired : Wired w'.pipeline)
    (hpipeline : w'.pipeline =
      { w.pipeline with
        cells := next.cells
        pipes := next.pipes
        capture := if next.accepted then .counting else .idle })
    (hpending : w'.pending = w.pendingAfter g (.encode i)) : Carried w' := by
  have hidle : ∀ f, w'.pipeline.capture ≠ .encoding f := by
    intro f
    rw [hpipeline]
    cases next.accepted <;> simp
  have hcauses : ∀ {ctx : LiveContext}, w.pipeline.cells.ctx = some ctx → w'.pending = true →
      w.pending = true ∨ restores g w.pipeline.cells i.now ctx = true := by
    intro ctx hctx hp
    rw [hpending] at hp
    rcases pending_of_pendingAfter hp with hp | hrequests | hrestoring
    · exact .inl hp
    · cases hrequests
    · rw [restoring, hctx] at hrestoring
      exact .inr hrestoring
  have hsteered : ∀ {ctx : LiveContext} {stepped : LiveContext × AdaptiveActions},
      adaptiveBitrateStep g w.pipeline.cells i.now ctx = some stepped →
      stepped.1.needKeyframe =
        (ctx.needKeyframe || restores g w.pipeline.cells i.now ctx) := fun hcontrolled =>
    congrArg Core.needKeyframe (steered_adaptiveBitrateStep g w.pipeline.cells hcontrolled).core
  refine carried_of_armed hwired ?_ hidle
  intro ctx' hafter hp
  rw [hpipeline] at hafter
  cases hencoded with
  | noContext before =>
    have hnone := before.symm.trans hafter
    cases hnone
  | noEncoder ctx stepped before controlled missing =>
    cases hafter
    rw [hsteered controlled, Bool.or_eq_true]
    have hencoder : ctx.encoder = none := by
      cases hencoder : ctx.encoder with
      | none => rfl
      | some id =>
        obtain ⟨pipe, hpipe, -⟩ := h.wired ctx id before hencoder
        simp [currentPipe, hencoder, hpipe] at missing
    exact .inl (h.dropped ctx forceKeyframe before hcapture hencoder)
  | encoded ctx stepped id pipe before controlled encoder present =>
    have hcurrent : currentPipe w.pipeline.pipes ctx = some (id, pipe) := by
      simp [currentPipe, encoder, present]
    simp only [keeps, hcapture, before, hcurrent, Option.all_some] at hkeeps
    cases haccepts : accepts i pipe.encoder with
    | true =>
      -- the accepted frame answers whatever was pending
      have hframe : acceptedFrame g w.pipeline (.encode i) =
          some ⟨pipe.encoder.nextPts, forceKeyframe⟩ := by
        rw [acceptedFrame_encode hcapture before, controlled]
        simp [hcurrent, haccepts]
      rw [hpending] at hp
      simp [pendingAfter, hframe] at hp
    | false =>
      cases hafter
      rw [hsteered controlled, Bool.or_eq_true]
      rcases hcauses before hp with hp | hrestores
      · rcases h.armed ctx before hp with hneed | hcarrying
        · exact .inl hneed
        · rw [hcapture, CaptureThread.encoding.injEq] at hcarrying
          simpa [haccepts, hcarrying] using hkeeps
      · exact .inr hrestores

/-- A step that meets the condition leaves every pending keyframe armed or carried. -/
theorem Carried.step (h : Carried w) (hkeeps : keeps g w.pipeline a = true)
    (hstep : w.step g a = some w') : Carried w' := by
  obtain ⟨p', hp', rfl⟩ := Option.map_eq_some_iff.mp hstep
  have hwired := wired_step h.wired hp'
  have hcauses := fun hp => pending_of_pendingAfter (w := w) (g := g) (a := a) hp
  cases steps_of_step hp' with
  | build now _ =>
    refine carried_of_dropped hwired fun ctx' hctx' => ?_
    cases hctx'
    exact ⟨rfl, rfl⟩
  | client e notClose _ =>
    refine h.quiet hwired (fun hp => (hcauses hp).resolve_right (by simp [requestsKeyframe,
      restoring])) rfl fun ctx' hctx' => ?_
    obtain ⟨ctx, hctx, -, hcalled⟩ := called_callback e hctx'
    refine ⟨ctx, hctx, ?_⟩
    cases hcalled with
    | quiet e _ core =>
      exact ⟨congrArg Core.encoder core, fun hneed =>
        (congrArg Core.needKeyframe core).trans hneed⟩
    | ready accepted core =>
      have hneed : ctx'.needKeyframe = (ctx.needKeyframe || accepted) :=
        congrArg Core.needKeyframe core
      exact ⟨congrArg Core.encoder core, fun h => by rw [hneed, h]; rfl⟩
    | close => exact absurd rfl notClose
  | close _ | resetForLiveResize idle =>
    refine carried_of_dropped hwired fun ctx' hctx' => ?_
    obtain ⟨ctx, -, rfl⟩ := Cells.update_some hctx'
    exact ⟨rfl, rfl⟩
  | admitCapture i idle =>
    exact carried_admitCapture h idle hkeeps hwired rfl fun hp =>
      (hcauses hp).imp_right fun h => h.resolve_right (by simp [restoring])
  | recover remapped r recovering =>
    obtain ⟨hctx, -⟩ := runRecovery_frame w.pipeline r remapped
    refine carried_of_armed hwired ?_ ?_
    · intro ctx' hctx' hp
      rw [hctx] at hctx'
      exact h.need (by rw [recovering]; simp) hctx'
        ((hcauses hp).resolve_right (by simp [requestsKeyframe, restoring]))
    · intro f
      simp only [Pipeline.runRecovery]
      split <;> simp
  | publishLate serverHandle surfaceId remapped replaced =>
    refine carried_of_armed hwired ?_ (by simp)
    intro ctx' hctx' hp
    have hother := replaced ctx' hctx'
    refine h.need (by rw [remapped]; simp) hctx' ((hcauses hp).resolve_right ?_)
    have hbefore : w.pipeline.cells.ctx = some ctx' := hctx'
    simp [requestsKeyframe, restoring, remapped, hbefore, hother]
  | publish surfaceId ctx before remapped =>
    refine carried_of_armed hwired ?_ (by simp)
    intro ctx' hctx' _
    cases hctx'
    rfl
  | encode i forceKeyframe next encoding encoded =>
    exact carried_encode h encoding encoded hkeeps hwired rfl rfl
  | countSubmission counting =>
    refine carried_of_armed hwired ?_ (by simp)
    intro ctx' hctx' hp
    obtain ⟨ctx, hctx, rfl⟩ := Cells.update_some hctx'
    have hneed : ctx.needKeyframe = true := h.need (by rw [counting]; simp) hctx
      ((hcauses hp).resolve_right (by simp [requestsKeyframe, restoring]))
    exact hneed
  | forceKeyframe idle | demigrate idle resumes =>
    refine carried_of_armed hwired ?_ (by simp [idle])
    intro ctx' hctx' _
    obtain ⟨ctx, -, rfl⟩ := Cells.update_some hctx'
    rfl
  | stayDemigrated idle stays =>
    refine h.quiet hwired (fun hp => (hcauses hp).resolve_right ?_) rfl
      fun ctx hctx => ⟨ctx, hctx, rfl, fun hneed => hneed⟩
    simp [requestsKeyframe, restoring, stays]
  | output id place delivered pipe next present outputs | outside o =>
    exact h.quiet hwired
      (fun hp => (hcauses hp).resolve_right (by simp [requestsKeyframe, restoring])) rfl
      fun ctx hctx => ⟨ctx, hctx, rfl, fun hneed => hneed⟩
  | ship id a pipe next present ships own =>
    refine h.quiet hwired (fun hp => (hcauses hp).resolve_right ?_) rfl fun ctx' hctx' => ?_
    · rcases own with rfl | ⟨now, rfl, -⟩ | ⟨channelOpen, frameIds, now, rfl⟩ | rfl | rfl <;>
        simp [requestsKeyframe, restoring]
    · obtain ⟨ctx, hctx, hcore⟩ := ships.core hctx'
      exact ⟨ctx, hctx, congrArg Core.encoder hcore, fun hneed =>
        (congrArg Core.needKeyframe hcore).trans hneed⟩

theorem carried_new (o : Outside) : Carried (.new o) :=
  carried_of_armed (wired_of_none fun _ hctx => by cases hctx) (fun _ hctx => by cases hctx)
    (by simp [Watch.new, Pipeline.new])

/-- In every run in which no request is turned back by the event queue's gate, lost with a
refused capture or made by the controller behind a capture's back, the first frame accepted
after a request is forced to be a keyframe. -/
theorem keyframeRequests_onTime (g : Factory) (o : Outside) (acts : List Action)
    (hkeeps : Meets (Watch.step g) (fun w a => keeps g w.pipeline a = true) (.new o) acts) :
    Meets (Watch.step g) (fun w a => onTime g w a = true) (.new o) acts :=
  hkeeps.of_invariant Carried (fun _ _ _ h hkeeps hstep => h.step hkeeps hstep)
    (fun _ _ h hkeeps => h.onTime hkeeps) (carried_new o)

/-- Two frames, the second forced after a long event queue, and a third after a surface
that was set up anew. -/
def requestsAnswered : List Action :=
  connecting 1 ++ [captureAt 2 false 1, encodeAt 2 true, .countSubmission,
    .outside (quietOutside 512), captureAt 3 false 1, .outside (quietOutside 0),
    captureAt 4 true 1, encodeAt 4 true, .countSubmission, .resetForLiveResize,
    captureAt 5 false 2, encodeAt 5 true, .countSubmission]

theorem keyframeRequests_onTime_answered :
    (run (Watch.step (plainFactory false)) (.new (quietOutside 0)) requestsAnswered).isSome =
        true ∧
      Meets (Watch.step (plainFactory false)) (fun w a => onTime (plainFactory false) w a = true)
        (.new (quietOutside 0)) requestsAnswered := by
  have hruns : (run (Watch.step (plainFactory false)) (.new (quietOutside 0))
      requestsAnswered).isSome = true := by
    decide +kernel
  have hkeeps : meetsBool (Watch.step (plainFactory false))
      (fun w a => keeps (plainFactory false) w.pipeline a) (.new (quietOutside 0))
      requestsAnswered = true := by
    decide +kernel
  exact ⟨hruns, keyframeRequests_onTime _ _ _ (meetsBool_iff.mp hkeeps)⟩

/-- The event queue's gate turns back the capture that asks for a keyframe, and the next
capture is accepted without. -/
theorem not_onTime_eventQueue :
    ¬∀ (g : Factory) (o : Outside) (acts : List Action),
      Meets (Watch.step g) (fun w a => onTime g w a = true) (.new o) acts := by
  intro h
  have hlate : meetsBool (Watch.step (plainFactory false)) (onTime (plainFactory false))
      (.new (quietOutside 0))
      (connecting 1 ++ [captureAt 2 false 1, encodeAt 2 true, .countSubmission,
        .outside (quietOutside 512), captureAt 3 true 1, .outside (quietOutside 0),
        captureAt 4 false 1, encodeAt 4 true]) =
      false := by
    decide +kernel
  rw [meetsBool_iff.mpr (h _ _ _)] at hlate
  cases hlate

end Watch

end Macrdp.PipelineSystem
