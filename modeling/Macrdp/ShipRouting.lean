import Macrdp.PipelineWiring

/-!
# Where encoded frames are shipped

A ship thread reads the server, the size and the surface for its batch from the
context that is there at that moment. Frames of an encoder that was dropped are
discarded only while that context has no surface.
-/

namespace Macrdp.PipelineSystem

open GfxContext GfxFactory GfxLive RateControl GfxPipeline StepSystem

namespace Routing

/-- What a batch is sent to is what its encoder was set up for. -/
def Target.isOf (target : Target) (home : Generation) : Bool :=
  decide (target.serverHandle = home.serverHandle) && decide (target.dims = home.dims) &&
    home.surfaces.contains target.surfaceId

/-- No surface is there to send frames to. -/
def nowhere (cells : Cells) : Bool := cells.ctx.all fun ctx => ctx.surfaceId.isNone

/-- The ship thread took a batch and has not read the context. -/
def ShipThread.isPulled : ShipThread → Bool
  | .pulled _ => true
  | _ => false

/-- Frames are sent where they belong: a batch that is framed has the target of its encoder,
and a batch whose encoder is gone when the context is read is discarded. -/
def routed (p : Pipeline) : Action → Bool
  | .readContext id _ => (p.pipes[id]?).all fun pipe =>
      !(ShipThread.isPulled pipe.thread && pipe.dropped) || nowhere p.cells
  | .frameBatch id channelOpen _ _ => (p.pipes[id]?).all fun pipe =>
      match pipe.thread with
      | .read _ target => !channelOpen || Target.isOf target pipe.home
      | _ => true
  | _ => true

/-- A ship thread that reads the context for a batch finds no surface, or its own encoder. -/
def readsOwn (p : Pipeline) : Action → Bool
  | .readContext id _ => (p.pipes[id]?).all fun pipe => !ShipThread.isPulled pipe.thread ||
      p.cells.ctx.all fun ctx => ctx.surfaceId.isNone || decide (ctx.encoder = some id)
  | _ => true

/-- Every encoder that is not dropped is that of the context. -/
def Alive (p : Pipeline) : Prop :=
  ∀ (id : ℕ) (pipe : Pipe), p.pipes[id]? = some pipe → pipe.dropped = false →
    ∃ ctx, p.cells.ctx = some ctx ∧ ctx.encoder = some id

/-- Every batch on its way to its server has the target of its encoder. -/
def Targeted (p : Pipeline) : Prop :=
  ∀ (id : ℕ) (pipe : Pipe) (frames : List Frame) (target : Target), p.pipes[id]? = some pipe →
    pipe.thread = .read frames target → Target.isOf target pipe.home = true

variable {g : Factory} {p p' : Pipeline}
variable {id : ℕ} {pipe : Pipe}

/-- The pipes that are left when the context lets go of its encoder. -/
theorem dropEncoder_getElem? {pipes : List Pipe} {ctx : Option LiveContext}
    (h : (dropEncoder pipes ctx)[id]? = some pipe) :
    ∃ before, pipes[id]? = some before ∧ pipe.home = before.home ∧ pipe.thread = before.thread ∧
      (pipe.dropped = false → before.dropped = false ∧
        (ctx.bind fun ctx => ctx.encoder) ≠ some id) := by
  unfold dropEncoder at h
  split at h
  · next hnone => exact ⟨pipe, h, rfl, rfl, fun halive => ⟨halive, by rw [hnone]; simp⟩⟩
  · next current hcurrent =>
    rw [List.getElem?_modify] at h
    obtain ⟨before, hbefore, rfl⟩ := Option.map_eq_some_iff.mp h
    refine ⟨before, hbefore, ?_⟩
    by_cases hid : current = id
    · rw [if_pos hid]
      exact ⟨rfl, rfl, fun halive => Bool.noConfusion halive⟩
    · rw [if_neg hid]
      refine ⟨rfl, rfl, fun halive => ⟨halive, ?_⟩⟩
      rw [hcurrent]
      simpa using hid

/-- Dropping the encoder of the context leaves none alive. -/
theorem alive_dropEncoder (h : Alive p) {cells' : Cells} {counters : GfxCounters}
    {capture : CaptureThread} : Alive ⟨cells', counters, dropEncoder p.pipes p.cells.ctx, capture⟩ := by
  intro id pipe hpipe halive
  obtain ⟨before, hbefore, -, -, hdropped⟩ := dropEncoder_getElem? hpipe
  obtain ⟨hbeforeAlive, hother⟩ := hdropped halive
  obtain ⟨ctx, hctx, hencoder⟩ := h id before hbefore hbeforeAlive
  rw [hctx] at hother
  exact absurd hencoder hother

/-- Encoders stay alive with a context that keeps its encoder. -/
theorem Alive.keep (h : Alive p)
    (hpipes : ∀ (id : ℕ) (pipe' : Pipe), p'.pipes[id]? = some pipe' →
      ∃ pipe, p.pipes[id]? = some pipe ∧ pipe'.dropped = pipe.dropped)
    (hsome : p'.cells.ctx.isSome = p.cells.ctx.isSome)
    (hctx : ∀ ctx', p'.cells.ctx = some ctx' →
      ∃ ctx, p.cells.ctx = some ctx ∧ ctx'.encoder = ctx.encoder) : Alive p' := by
  intro id pipe' hpipe' halive
  obtain ⟨pipe, hpipe, hdropped⟩ := hpipes id pipe' hpipe'
  obtain ⟨ctx, hbefore, hencoder⟩ := h id pipe hpipe (hdropped.symm.trans halive)
  rw [hbefore, Option.isSome_some] at hsome
  obtain ⟨ctx', hafter⟩ := Option.isSome_iff_exists.mp hsome
  obtain ⟨ctx'', hbefore', hsame⟩ := hctx ctx' hafter
  rw [hbefore, Option.some.injEq] at hbefore'
  rw [← hbefore'] at hsame
  exact ⟨ctx', hafter, hsame.trans hencoder⟩

/-- A pipe that is put in the place of another. -/
theorem getElem?_set_pipe {pipes : List Pipe} {other : ℕ} {next found : Pipe}
    (present : pipes[id]? = some pipe) (h : (pipes.set id next)[other]? = some found) :
    (other = id ∧ found = next) ∨ (other ≠ id ∧ pipes[other]? = some found) := by
  by_cases hid : id = other
  · rw [← hid] at h
    rw [List.getElem?_set_self (List.getElem?_eq_some_iff.mp present).1] at h
    exact .inl ⟨hid.symm, (Option.some.inj h).symm⟩
  · rw [List.getElem?_set_ne hid] at h
    exact .inr ⟨Ne.symm hid, h⟩

/-- A change of one pipe keeps what the others are. -/
theorem dropped_set {pipes : List Pipe} {next : Pipe}
    (present : pipes[id]? = some pipe) (hdropped : next.dropped = pipe.dropped) :
    ∀ (other : ℕ) (pipe' : Pipe), (pipes.set id next)[other]? = some pipe' →
      ∃ found, pipes[other]? = some found ∧ pipe'.dropped = found.dropped := by
  intro other pipe' hpipe'
  rcases getElem?_set_pipe present hpipe' with ⟨rfl, rfl⟩ | ⟨-, hfound⟩
  · exact ⟨pipe, present, hdropped⟩
  · exact ⟨pipe', hfound, rfl⟩

theorem isSome_callback (cells : Cells) (e : GfxEvent) :
    (GfxLive.callback cells e).ctx.isSome = cells.ctx.isSome := by
  cases e with
  | frameAck frameId queueDepth now =>
    simp only [GfxLive.callback, Cells.update, Option.isSome_map]
    split <;> rfl
  | _ => simp [GfxLive.callback, Cells.update]

variable {a : Action}

theorem isSome_ships {cells : Cells} {next : Pipe × Cells}
    (h : Ships cells pipe a next) : next.2.ctx.isSome = cells.ctx.isSome := by
  cases h <;> simp [Cells.update, atHome]

theorem alive_admitCapture (h : Alive p) (i : CaptureInput) {a : Admitted}
    (ha : Captured g p.cells p.pipes i a) (counters : GfxCounters) (capture : CaptureThread) :
    Alive ⟨a.cells, counters, a.pipes, capture⟩ := by
  -- what a setup leaves alive, whatever the gates decide afterwards
  have hprepared : ∀ {ctx surfaced ctx' : LiveContext} {s : Setup},
      Entered g p.cells p.pipes i ctx surfaced s → ctx'.encoder = s.ctx.encoder →
      ∀ (id : ℕ) (pipe : Pipe), s.pipes[id]? = some pipe → pipe.dropped = false →
        ctx'.encoder = some id := by
    intro ctx surfaced ctx' s hentered hencoder id pipe hpipe halive
    have hsame : surfaced.encoder = ctx.encoder := congrArg Core.encoder hentered.core
    have hold : ∀ {pipe : Pipe}, p.pipes[id]? = some pipe → pipe.dropped = false →
        ctx.encoder = some id := by
      intro pipe hpipe halive
      obtain ⟨ctx'', hctx, hid⟩ := h id pipe hpipe halive
      rw [hentered.before, Option.some.injEq] at hctx
      rw [hctx]
      exact hid
    cases hentered.prepared with
    | kept same complete =>
      rw [same.2] at hpipe
      rw [hencoder, same.1, hsame]
      exact hold hpipe halive
    | made encoder surface ok added tally core =>
      have hid : s.ctx.encoder = some p.pipes.length := congrArg Core.encoder core
      rw [hencoder, hid]
      rw [added, List.getElem?_append] at hpipe
      split at hpipe
      · have hnone := hold hpipe halive
        rw [← hsame, encoder] at hnone
        cases hnone
      · next hge =>
        have hlt := (List.getElem?_eq_some_iff.mp hpipe).1
        simp only [List.length_cons, List.length_nil] at hlt
        rw [Option.some.injEq]
        omega
  intro id pipe hpipe halive
  rcases ha.outcome with ⟨hctx, hpipes⟩ | ⟨ctx, surfaced, s, ctx', armed, entered, after, hpipes, core⟩
  · rw [hctx]
    rw [hpipes] at hpipe
    exact h id pipe hpipe halive
  · rw [hpipes] at hpipe
    exact ⟨ctx', after, hprepared entered (congrArg Core.encoder core) id pipe hpipe halive⟩

/-- No step leaves an encoder alive that is not the context's. -/
theorem alive_step (h : Alive p) (hstep : p.step g a = some p') : Alive p' := by
  have hpipes : ∀ (id : ℕ) (pipe' : Pipe), p.pipes[id]? = some pipe' →
      ∃ pipe, p.pipes[id]? = some pipe ∧ pipe'.dropped = pipe.dropped :=
    fun _ pipe hpipe => ⟨pipe, hpipe, rfl⟩
  cases steps_of_step hstep with
  | build now _ => exact alive_dropEncoder h
  | client e notClose _ =>
    refine h.keep hpipes (isSome_callback p.cells e) fun ctx' hctx' => ?_
    obtain ⟨ctx, hctx, -, hcalled⟩ := called_callback e hctx'
    refine ⟨ctx, hctx, ?_⟩
    cases hcalled with
    | quiet e _ core | ready accepted core => exact congrArg Core.encoder core
    | close => exact absurd rfl notClose
  | close _ => exact alive_dropEncoder h
  | admitCapture i _ =>
    exact alive_admitCapture h i (captured_admitCapture g p.cells p.pipes i) _ _
  | recover remapped r _ =>
    obtain ⟨hctx, hsame⟩ := runRecovery_frame p r remapped
    refine h.keep (by rw [hsame]; exact hpipes) (by rw [hctx]) fun ctx hafter => ?_
    rw [hctx] at hafter
    exact ⟨ctx, hafter, rfl⟩
  | publishLate | outside o => exact h.keep hpipes rfl fun ctx hctx => ⟨ctx, hctx, rfl⟩
  | publish surfaceId ctx before _ =>
    refine h.keep ?_ (by rw [before]; rfl) fun ctx' hctx' => ?_
    · intro id pipe' hpipe'
      split at hpipe'
      · exact ⟨pipe', hpipe', rfl⟩
      · rw [List.getElem?_modify] at hpipe'
        obtain ⟨pipe, hpipe, rfl⟩ := Option.map_eq_some_iff.mp hpipe'
        refine ⟨pipe, hpipe, ?_⟩
        split <;> rfl
    · cases hctx'
      exact ⟨ctx, before, rfl⟩
  | encode i forceKeyframe next _ encoded =>
    have hsteered : ∀ {ctx : LiveContext} {stepped : LiveContext × AdaptiveActions},
        adaptiveBitrateStep g p.cells i.now ctx = some stepped →
        stepped.1.encoder = ctx.encoder := fun hcontrolled =>
      congrArg Core.encoder (steered_adaptiveBitrateStep g p.cells hcontrolled).core
    cases encoded with
    | noContext before => exact h.keep hpipes rfl fun ctx hctx => ⟨ctx, hctx, rfl⟩
    | noEncoder ctx stepped before controlled missing =>
      refine h.keep hpipes (by rw [before]; rfl) fun ctx' hctx' => ?_
      cases hctx'
      exact ⟨ctx, before, hsteered controlled⟩
    | encoded ctx stepped id pipe before controlled encoder present =>
      obtain ⟨-, hdropped, -, -⟩ := encodeInto_frame stepped.2 i forceKeyframe pipe
      refine h.keep (dropped_set present hdropped) (by rw [before]; rfl) fun ctx' hctx' => ?_
      cases hctx'
      exact ⟨ctx, before, hsteered controlled⟩
  | countSubmission _ | forceKeyframe _ | demigrate _ _ =>
    refine h.keep hpipes (by simp [Cells.update]) fun ctx' hctx' => ?_
    obtain ⟨ctx, hctx, rfl⟩ := Cells.update_some hctx'
    exact ⟨ctx, hctx, rfl⟩
  | stayDemigrated => exact h
  | resetForLiveResize _ => exact alive_dropEncoder h
  | output id place delivered pipe next present outputs =>
    obtain ⟨frame, -, rfl⟩ := output_cases outputs
    exact h.keep (dropped_set present rfl) rfl fun ctx hctx => ⟨ctx, hctx, rfl⟩
  | ship id a pipe next present ships _ =>
    obtain ⟨-, -, hdropped, -⟩ := ships.pipe
    refine h.keep (dropped_set present hdropped) (isSome_ships ships) fun ctx' hctx' => ?_
    obtain ⟨ctx, hctx, hcore⟩ := ships.core hctx'
    exact ⟨ctx, hctx, congrArg Core.encoder hcore⟩

/-- Targets stay right while the threads are where they were, or have no target. -/
theorem Targeted.keep (h : Targeted p)
    (hpipes : ∀ (id : ℕ) (pipe' : Pipe), p'.pipes[id]? = some pipe' →
      (∀ frames target, pipe'.thread ≠ .read frames target) ∨
        ∃ pipe, p.pipes[id]? = some pipe ∧ pipe'.thread = pipe.thread ∧
          ∀ target, Target.isOf target pipe.home = true → Target.isOf target pipe'.home = true) :
    Targeted p' := by
  intro id pipe' frames target hpipe' hthread
  rcases hpipes id pipe' hpipe' with hnone | ⟨pipe, hpipe, hsame, hhome⟩
  · exact absurd hthread (hnone frames target)
  · exact hhome target (h id pipe frames target hpipe (hsame.symm.trans hthread))

theorem targeted_dropEncoder (h : Targeted p) {cells' : Cells} {counters : GfxCounters}
    {capture : CaptureThread} :
    Targeted ⟨cells', counters, dropEncoder p.pipes p.cells.ctx, capture⟩ := by
  refine h.keep fun id pipe' hpipe' => ?_
  obtain ⟨before, hbefore, hhome, hthread, -⟩ := dropEncoder_getElem? hpipe'
  exact .inr ⟨before, hbefore, hthread, fun target htarget => by rw [hhome]; exact htarget⟩

/-- One pipe changes; its thread stays where it was, or has no target. -/
theorem targeted_set (h : Targeted p) {next : Pipe} {cells' : Cells}
    {capture' : CaptureThread} (present : p.pipes[id]? = some pipe) (hhome : next.home = pipe.home)
    (hthread : (∀ frames target, next.thread ≠ .read frames target) ∨
      next.thread = pipe.thread) :
    Targeted { p with pipes := p.pipes.set id next, cells := cells', capture := capture' } := by
  refine h.keep fun other pipe' hpipe' => ?_
  rcases getElem?_set_pipe present hpipe' with ⟨rfl, rfl⟩ | ⟨-, hfound⟩
  · rcases hthread with hnone | hsame
    · exact .inl hnone
    · exact .inr ⟨pipe, present, hsame, fun target htarget => by rw [hhome]; exact htarget⟩
  · exact .inr ⟨pipe', hfound, rfl, fun _ htarget => htarget⟩

theorem isOf_of_wiredTo {ctx : LiveContext} {surfaceId : UInt16}
    (h : WiredTo ctx pipe) (hsurface : ctx.surfaceId = some surfaceId) :
    Target.isOf ⟨ctx.serverHandle, ctx.dims, surfaceId⟩ pipe.home = true := by
  obtain ⟨found, hmem, hfound⟩ := h.surface
  rw [hsurface, Option.some.injEq] at hfound
  rw [← hfound] at hmem
  simp [Target.isOf, h.serverHandle, h.dims, hmem]

theorem targeted_ship (h : Targeted p) (hwired : Wired p)
    {next : Pipe × Cells} (present : p.pipes[id]? = some pipe) (ships : Ships p.cells pipe a next)
    (howns : ∀ now, a = .readContext id now → readsOwn p a = true)
    (hid : ∀ other now, a = .readContext other now → other = id) :
    Targeted { p with pipes := p.pipes.set id next.1, cells := next.2 } := by
  obtain ⟨-, hhome, -, -⟩ := ships.pipe
  cases ships with
  | exit | pull | discard | closed | frame | post | count =>
    exact targeted_set h present rfl (.inl (by simp))
  | read id' now frames ctx surfaceId thread before surface =>
    have hsame := hid id' now rfl
    rw [hsame] at howns
    have howned := howns now rfl
    simp only [readsOwn, present, Option.all_some, thread, ShipThread.isPulled, before, surface,
      Option.isNone_some, Bool.not_true, Bool.false_or, decide_eq_true_eq] at howned
    obtain ⟨found, hfound, hwiredTo⟩ := hwired ctx id before howned
    rw [present, Option.some.injEq] at hfound
    rw [← hfound] at hwiredTo
    intro other pipe' frames' target hpipe' hthread
    rcases getElem?_set_pipe present hpipe' with ⟨rfl, rfl⟩ | ⟨-, hother⟩
    · cases hthread
      have hof := isOf_of_wiredTo hwiredTo surface
      exact hof
    · exact h other pipe' frames' target hother hthread

/-- A step in which no ship thread reads a context of others keeps the targets right. -/
theorem targeted_step (h : Targeted p) (hwired : Wired p)
    (howns : readsOwn p a = true) (hstep : p.step g a = some p') : Targeted p' := by
  have hpipes : ∀ {p' : Pipeline}, p'.pipes = p.pipes → Targeted p' := by
    intro p' hsame
    refine h.keep fun id pipe' hpipe' => ?_
    rw [hsame] at hpipe'
    exact .inr ⟨pipe', hpipe', rfl, fun _ htarget => htarget⟩
  cases steps_of_step hstep with
  | build now _ | close _ | resetForLiveResize _ => exact targeted_dropEncoder h
  | client e notClose _ => exact hpipes rfl
  | admitCapture i _ =>
    have hcaptured := captured_admitCapture g p.cells p.pipes i
    rcases hcaptured.outcome with ⟨-, hsame⟩ | ⟨ctx, surfaced, s, ctx', armed, entered, -, hsame, -⟩
    · exact hpipes hsame
    · cases entered.prepared with
      | kept same complete => exact hpipes (hsame.trans same.2)
      | made encoder surface ok added tally core =>
        refine h.keep fun id pipe' hpipe' => ?_
        have hadded := hsame.trans added
        simp only [hadded, List.getElem?_append] at hpipe'
        split at hpipe'
        · exact .inr ⟨pipe', hpipe', rfl, fun _ htarget => htarget⟩
        · obtain ⟨hlt, hnew⟩ := List.getElem?_eq_some_iff.mp hpipe'
          rw [List.getElem_singleton] at hnew
          left
          rw [← hnew, newPipe]
          split <;> simp
  | recover remapped r _ => exact hpipes (runRecovery_frame p r remapped).2
  | publishLate => exact hpipes rfl
  | publish surfaceId ctx before _ =>
    refine h.keep fun id pipe' hpipe' => ?_
    split at hpipe'
    · exact .inr ⟨pipe', hpipe', rfl, fun _ htarget => htarget⟩
    · rw [List.getElem?_modify] at hpipe'
      obtain ⟨pipe, hpipe, rfl⟩ := Option.map_eq_some_iff.mp hpipe'
      refine .inr ⟨pipe, hpipe, ?_, fun target htarget => ?_⟩
      · split <;> rfl
      · split
        · simp only [Target.isOf, Bool.and_eq_true, List.contains_cons, Bool.or_eq_true]
            at htarget ⊢
          exact ⟨htarget.1, .inr htarget.2⟩
        · exact htarget
  | encode i forceKeyframe next _ encoded =>
    cases encoded with
    | noContext | noEncoder => exact hpipes rfl
    | encoded ctx stepped id pipe before controlled encoder present =>
      obtain ⟨hhome, -, -, hthread⟩ := encodeInto_frame stepped.2 i forceKeyframe pipe
      exact targeted_set h present hhome (.inr hthread)
  | countSubmission _ | forceKeyframe _ | stayDemigrated | demigrate _ _ => exact hpipes rfl
  | output id place delivered pipe next present outputs =>
    obtain ⟨frame, -, rfl⟩ := output_cases outputs
    exact targeted_set h present rfl (.inr rfl)
  | ship id a pipe next present ships own =>
    refine targeted_ship h hwired present ships (fun _ _ => howns) fun other now hread => ?_
    rcases own with rfl | ⟨now', rfl, -⟩ | ⟨channelOpen, frameIds, now', rfl⟩ | rfl | rfl <;>
      simp at hread
    exact hread.1.symm
  | outside o => exact hpipes rfl

/-- What every reachable state of the pipeline keeps. -/
structure Placed (p : Pipeline) : Prop where
  wired : Wired p
  alive : Alive p

theorem placed_step (h : Placed p) (hstep : p.step g a = some p') : Placed p' :=
  ⟨wired_step h.wired hstep, alive_step h.alive hstep⟩

theorem placed_new (o : Outside) : Placed (.new o) where
  wired := wired_of_none fun _ hctx => by cases hctx
  alive := nofun

/-- Frames are sent where they belong in a step that reads no context of others. -/
theorem routed_of_readsOwn (h : Placed p) (htargeted : Targeted p)
    (howns : readsOwn p a = true) : routed p a = true := by
  cases a with
  | readContext id now =>
    cases hpipe : p.pipes[id]? with
    | none => simp [routed, hpipe]
    | some pipe =>
      simp only [routed, readsOwn, hpipe, Option.all_some] at howns ⊢
      cases hpulled : ShipThread.isPulled pipe.thread with
      | false => rfl
      | true =>
        cases hdropped : pipe.dropped with
        | false => rfl
        | true =>
          rw [hpulled, Bool.not_true, Bool.false_or] at howns
          simp only [Bool.and_self, Bool.not_true, Bool.false_or, nowhere]
          cases hctx : p.cells.ctx with
          | none => rfl
          | some ctx =>
            rw [hctx, Option.all_some, Bool.or_eq_true] at howns
            rcases howns with hnone | hown
            · exact hnone
            · obtain ⟨found, hfound, hwiredTo⟩ := h.wired ctx id hctx (of_decide_eq_true hown)
              rw [hpipe, Option.some.injEq] at hfound
              rw [← hfound] at hwiredTo
              rw [hwiredTo.alive] at hdropped
              cases hdropped
  | frameBatch id channelOpen frameIds now =>
    cases hpipe : p.pipes[id]? with
    | none => simp [routed, hpipe]
    | some pipe =>
      simp only [routed, hpipe, Option.all_some]
      split
      · next frames target hthread =>
        rw [htargeted id pipe frames target hpipe hthread, Bool.or_true]
      · rfl
  | _ => rfl

/-- Where frames are sent where they belong, no context of others is read. -/
theorem readsOwn_of_routed (h : Placed p) (hrouted : routed p a = true) : readsOwn p a = true := by
  cases a with
  | readContext id now =>
    cases hpipe : p.pipes[id]? with
    | none => simp [readsOwn, hpipe]
    | some pipe =>
      simp only [routed, readsOwn, hpipe, Option.all_some] at hrouted ⊢
      cases hpulled : ShipThread.isPulled pipe.thread with
      | false => rfl
      | true =>
        rw [Bool.not_true, Bool.false_or]
        cases hctx : p.cells.ctx with
        | none => rfl
        | some ctx =>
          rw [Option.all_some, Bool.or_eq_true]
          cases hdropped : pipe.dropped with
          | true =>
            left
            simpa [hpulled, hdropped, nowhere, hctx] using hrouted
          | false =>
            right
            obtain ⟨ctx', hctx', hencoder⟩ := h.alive id pipe hpipe hdropped
            rw [hctx, Option.some.injEq] at hctx'
            rw [hctx', hencoder]
            exact decide_eq_true rfl
  | _ => rfl

/-- In every run, frames are sent to the server, the surface and the size that their encoder
was set up for and those of dropped encoders are discarded, exactly if no ship thread reads
the context with frames of a dropped encoder once a surface is set up again. -/
theorem shipping_routed_iff (g : Factory) (o : Outside) (acts : List Action) :
    Meets (Pipeline.step g) (fun p a => routed p a = true) (.new o) acts ↔
      Meets (Pipeline.step g) (fun p a => readsOwn p a = true) (.new o) acts := by
  constructor
  · intro hrouted
    exact hrouted.of_invariant Placed (fun _ _ _ h _ hstep => placed_step h hstep)
      (fun _ _ h hrouted => readsOwn_of_routed h hrouted) (placed_new o)
  · intro howns
    refine howns.of_invariant (fun p => Placed p ∧ Targeted p) ?_ ?_ ⟨placed_new o, ?_⟩
    · intro p a p' h howns hstep
      exact ⟨placed_step h.1 hstep, targeted_step h.2 h.1.wired howns hstep⟩
    · intro p a h howns
      exact routed_of_readsOwn h.1 h.2 howns
    · intro id pipe frames target hpipe
      cases hpipe

/-- A frame is taken from its channel before a resize of the screen, and is sent to the surface
that the next capture sets up. -/
def frameMisrouted : List Action :=
  connecting 1 ++ [captureAt 2 false 1, encodeAt 2 true, .countSubmission, .output 0 0 true,
    .pull 0, .resetForLiveResize, captureAt 3 false 2, .readContext 0 (.fromSecs 3),
    .frameBatch 0 true [some 7] (.fromSecs 3)]

theorem not_routed_afterResize :
    ¬∀ (g : Factory) (o : Outside) (acts : List Action),
      Meets (Pipeline.step g) (fun p a => routed p a = true) (.new o) acts := by
  intro h
  have hmisrouted : meetsBool (Pipeline.step (plainFactory false)) routed (.new (quietOutside 0))
      frameMisrouted = false := by
    decide +kernel
  rw [meetsBool_iff.mpr (h (plainFactory false) _ _)] at hmisrouted
  cases hmisrouted

end Routing

end Macrdp.PipelineSystem
