import Macrdp.PipelineWiring

/-!
# What the capture throttle counts

A capture is dropped while too many frames are counted as submitted and not
shipped. The counters are shared with the ship thread of every encoder that the
connection had, and are reset when an encoder is made; a frame that the encoder
does not deliver is never counted as shipped.
-/

namespace Macrdp.PipelineSystem

open GfxContext GfxFactory GfxLive RateControl GfxPipeline StepSystem

/-- Frames a ship thread took from its channel and has not counted. -/
def ShipThread.held : ShipThread → ℕ
  | .absent | .waiting | .exited => 0
  | .pulled frames | .read frames _ => frames.length
  | .framed count | .finished count => count

/-- Accepted frames that the ship thread has not taken. -/
def Pipe.unpulled (pipe : Pipe) : ℕ := pipe.inFlight.length + pipe.channel.length

/-- Accepted frames that are neither shipped nor discarded. -/
def Pipe.unshipped (pipe : Pipe) : ℕ := Pipe.unpulled pipe + ShipThread.held pipe.thread

namespace Throttle

/-- The pipe of the context's encoder. -/
def current (p : Pipeline) : Option Pipe :=
  p.cells.ctx.bind fun ctx => (currentPipe p.pipes ctx).map Prod.snd

/-- Every callback of the encoder returned, and its channel is empty. -/
def drained (p : Pipeline) : Bool :=
  (current p).all fun pipe => pipe.inFlight.isEmpty && pipe.channel.isEmpty

/-- Frames the ship thread is at. -/
def shipping (p : Pipeline) : ℕ := (current p).elim 0 fun pipe => ShipThread.held pipe.thread

/-- The counters are exact while no capture is about to be counted. -/
def Exact (p : Pipeline) : Prop :=
  ∀ ctx id pipe, p.cells.ctx = some ctx → ctx.encoder = some id → p.pipes[id]? = some pipe →
    p.locked = false →
    ctx.submitted.toNat = ctx.shipped.toNat + Pipe.unshipped pipe ∧
      ctx.encodedPending.toNat = Pipe.unpulled pipe

/-- The throttle does not drop a capture once the encoder is drained. -/
def letsThrough (g : Factory) (p : Pipeline) : Action → Bool
  | .admitCapture i =>
    match p.capture, (GfxPipeline.admitCapture g p.cells p.pipes i).result with
    | .idle, .droppedPipeline => !drained p
    | _, _ => true
  | _ => true

/-- The ship thread of an encoder that the connection has replaced, not of its current one. -/
def straggler (p : Pipeline) (id : ℕ) : Bool :=
  match p.cells.ctx, p.pipes[id]? with
  | some ctx, some pipe => decide (pipe.home.serverHandle = ctx.serverHandle) &&
      ctx.encoder.any fun current => decide (current ≠ id)
  | _, _ => false

/-- No step miscounts: the current encoder delivers each frame to its ship thread, no ship
thread of a replaced encoder takes or counts frames, the count of frames does not wrap, and
the ship thread does not hold as many frames as the throttle lets through. -/
def counts (g : Factory) (p : Pipeline) : Action → Bool
  | .output id _ delivered =>
    match p.cells.ctx, p.pipes[id]? with
    | some ctx, some pipe => !decide (ctx.encoder = some id) || delivered && pipe.thread.receives
    | _, _ => true
  | .pull id =>
    !straggler p id || (p.pipes[id]?).all fun pipe => pipe.channel.isEmpty
  | .countBatch id => !straggler p id
  | .encode _ => p.cells.ctx.all fun ctx => decide (ctx.submitted ≠ 0xffffffffffffffff)
  | .admitCapture _ => !drained p || decide (shipping p < g.maxInFlight.toNat)
  | _ => true

/-- One for a picture that was accepted and is not yet counted. -/
def uncounted : CaptureThread → ℕ
  | .counting => 1
  | _ => 0

/-- One for a capture that was let through and is not yet encoded. -/
def reserved : CaptureThread → ℕ
  | .encoding _ => 1
  | _ => 0

/-- The counters of a context say what is in its pipe, within the throttle's limit. -/
structure Agrees (g : Factory) (capture : CaptureThread) (tally : Tally) (pipe : Pipe) : Prop where
  shipped : tally.submitted.toNat + uncounted capture =
    tally.shipped.toNat + Pipe.unshipped pipe
  pending : tally.encodedPending + UInt32.ofNat (uncounted capture) =
    UInt32.ofNat (Pipe.unpulled pipe)
  room : Pipe.unshipped pipe + reserved capture ≤ g.maxInFlight.toNat
  fits : tally.submitted.toNat + uncounted capture < 2 ^ 64

/-- The counters of the context say what is in the pipe of its encoder. -/
structure Counted (g : Factory) (p : Pipeline) : Prop where
  wired : Wired p
  agrees : ∀ ctx id pipe, p.cells.ctx = some ctx → ctx.encoder = some id →
    p.pipes[id]? = some pipe → Agrees g p.capture ctx.tally pipe

variable {g : Factory} {p p' : Pipeline}

theorem Counted.exact (h : Counted g p) : Exact p := by
  intro ctx id pipe hctx hencoder hpipe hunlocked
  obtain ⟨hshipped, hpending, hroom, -⟩ := h.agrees ctx id pipe hctx hencoder hpipe
  have hnone : uncounted p.capture = 0 := by
    cases hcapture : p.capture with
    | counting => simp [Pipeline.locked, hcapture] at hunlocked
    | _ => rfl
  rw [hnone] at hshipped hpending
  refine ⟨hshipped, ?_⟩
  have hlt := g.maxInFlight.toNat_lt
  have hle : Pipe.unpulled pipe < 2 ^ 32 := by
    have hsum : Pipe.unshipped pipe = Pipe.unpulled pipe + ShipThread.held pipe.thread := rfl
    omega
  have hpending' := congrArg UInt32.toNat hpending
  simp only [UInt32.toNat_add, UInt32.toNat_ofNat', Nat.zero_mod, Nat.add_zero] at hpending'
  have hword := ctx.encodedPending.toNat_lt
  have htally : ctx.tally.encodedPending = ctx.encodedPending := rfl
  rw [htally] at hpending'
  omega

variable {capture : CaptureThread} {tally : Tally} {pipe : Pipe}

/-- Counters and a pipe agree if the frames in the pipe stay where they are. -/
theorem Agrees.congr {capture' : CaptureThread} {pipe' : Pipe}
    (h : Agrees g capture tally pipe) (huncounted : uncounted capture' = uncounted capture)
    (hreserved : reserved capture' ≤ reserved capture)
    (hunpulled : Pipe.unpulled pipe' = Pipe.unpulled pipe)
    (hheld : ShipThread.held pipe'.thread = ShipThread.held pipe.thread) :
    Agrees g capture' tally pipe' := by
  have hunshipped : Pipe.unshipped pipe' = Pipe.unshipped pipe := by
    simp only [Pipe.unshipped, hunpulled, hheld]
  obtain ⟨hshipped, hpending, hroom, hfits⟩ := h
  refine ⟨?_, ?_, ?_, ?_⟩
  · rw [huncounted, hunshipped, hshipped]
  · rw [huncounted, hunpulled, hpending]
  · omega
  · rw [huncounted]
    exact hfits

/-- A delivered frame goes from the encoder to the channel. -/
theorem Agrees.output {next : Pipe} {place : ℕ}
    (h : Agrees g capture tally pipe) (hreceives : pipe.thread.receives = true)
    (hout : pipe.output place true = some next) : Agrees g capture tally next := by
  obtain ⟨frame, hframe, rfl⟩ := output_cases hout
  obtain ⟨hplace, -⟩ := List.getElem?_eq_some_iff.mp hframe
  refine h.congr rfl le_rfl ?_ rfl
  simp only [Pipe.unpulled, hreceives, Bool.and_true, if_true, List.length_append,
    List.length_cons, List.length_nil, List.length_eraseIdx_of_lt hplace]
  omega

/-- A batch goes from the channel to the ship thread. -/
theorem Agrees.pull (h : Agrees g capture tally pipe) (hthread : pipe.thread = .waiting) :
    Agrees g capture
      { tally with
        encodedPending := tally.encodedPending - UInt32.ofNat pipe.channel.length }
      { pipe with thread := .pulled pipe.channel, channel := [] } := by
  obtain ⟨hshipped, hpending, hroom, hfits⟩ := h
  have hsame : Pipe.unshipped { pipe with thread := .pulled pipe.channel, channel := [] } =
      Pipe.unshipped pipe := by
    simp only [Pipe.unshipped, Pipe.unpulled, hthread, ShipThread.held, List.length_nil]
    omega
  refine ⟨?_, ?_, ?_, hfits⟩
  · rw [hsame]
    exact hshipped
  · have hsplit : UInt32.ofNat (Pipe.unpulled pipe) =
        UInt32.ofNat pipe.inFlight.length + UInt32.ofNat pipe.channel.length := by
      rw [Pipe.unpulled, UInt32.ofNat_add]
    have hleft : Pipe.unpulled { pipe with thread := .pulled pipe.channel, channel := [] } =
        pipe.inFlight.length := by
      simp [Pipe.unpulled]
    rw [hleft]
    rw [hsplit] at hpending
    grind
  · rw [hsame]
    exact hroom

/-- A batch is counted as shipped. -/
theorem Agrees.count {count : ℕ}
    (h : Agrees g capture tally pipe) (hthread : pipe.thread = .finished count) :
    Agrees g capture { tally with shipped := tally.shipped + UInt64.ofNat count }
      { pipe with thread := .waiting } := by
  obtain ⟨hshipped, hpending, hroom, hfits⟩ := h
  have hheld : Pipe.unshipped pipe = Pipe.unpulled pipe + count := by
    simp only [Pipe.unshipped, hthread, ShipThread.held]
  have hleft : Pipe.unshipped { pipe with thread := .waiting } = Pipe.unpulled pipe := by
    simp only [Pipe.unshipped, Pipe.unpulled, ShipThread.held]
    omega
  refine ⟨?_, hpending, ?_, hfits⟩
  · have hword : (tally.shipped + UInt64.ofNat count).toNat = tally.shipped.toNat + count := by
      rw [UInt64.toNat_add, UInt64.toNat_ofNat']
      omega
    rw [hleft, hword]
    simp only at hshipped ⊢
    omega
  · rw [hleft]
    omega

/-- An accepted picture is in flight before it is counted. -/
theorem Agrees.accepted {forceKeyframe : Bool} {frame : Frame}
    {encoder : Encoder} (h : Agrees g (.encoding forceKeyframe) tally pipe)
    (hwraps : tally.submitted ≠ 0xffffffffffffffff) :
    Agrees g .counting tally
      { pipe with encoder := encoder, inFlight := pipe.inFlight ++ [frame] } := by
  obtain ⟨hshipped, hpending, hroom, hfits⟩ := h
  have hunpulled : Pipe.unpulled
      { pipe with encoder := encoder, inFlight := pipe.inFlight ++ [frame] } =
      Pipe.unpulled pipe + 1 := by
    simp only [Pipe.unpulled, List.length_append, List.length_cons, List.length_nil]
    omega
  have hunshipped : Pipe.unshipped
      { pipe with encoder := encoder, inFlight := pipe.inFlight ++ [frame] } =
      Pipe.unshipped pipe + 1 := by
    simp only [Pipe.unshipped, hunpulled]
    omega
  simp only [uncounted, reserved] at hshipped hpending hroom
  refine ⟨?_, ?_, ?_, ?_⟩
  · rw [hunshipped, uncounted]
    omega
  · rw [hunpulled, uncounted, UInt32.ofNat_add]
    have hzero : UInt32.ofNat 0 = 0 := rfl
    rw [hzero] at hpending
    grind
  · have hnone : reserved .counting = 0 := rfl
    rw [hunshipped, hnone]
    omega
  · have hne : tally.submitted.toNat ≠ 2 ^ 64 - 1 := fun heq =>
      hwraps (UInt64.toNat_inj.mp heq)
    have hlt := tally.submitted.toNat_lt
    rw [uncounted]
    omega

/-- The picture is counted. -/
theorem Agrees.counted (h : Agrees g .counting tally pipe) :
    Agrees g .idle
      { tally with
        submitted := tally.submitted + 1, encodedPending := tally.encodedPending + 1 } pipe := by
  obtain ⟨hshipped, hpending, hroom, hfits⟩ := h
  simp only [uncounted] at hshipped hpending hfits
  have hword : (tally.submitted + 1).toNat = tally.submitted.toNat + 1 := by
    rw [UInt64.toNat_add]
    have hone : (1 : UInt64).toNat = 1 := rfl
    omega
  refine ⟨?_, ?_, ?_, ?_⟩
  · simp only [uncounted, hword]
    omega
  · simp only [uncounted]
    have hone : UInt32.ofNat 1 = 1 := rfl
    have hzero : UInt32.ofNat 0 = 0 := rfl
    rw [hone] at hpending
    rw [hzero, hpending]
    grind
  · simp only [reserved] at hroom ⊢
    exact hroom
  · simp only [uncounted, hword]
    omega

/-- The counters stay right if the context keeps them and its encoder, and the frames in
every pipe stay where they are. -/
theorem Counted.keep (h : Counted g p) (hwired : Wired p')
    (huncounted : uncounted p'.capture = uncounted p.capture)
    (hreserved : reserved p'.capture ≤ reserved p.capture)
    (hctx : ∀ ctx', p'.cells.ctx = some ctx' → ctx'.encoder = none ∨
      ∃ ctx, p.cells.ctx = some ctx ∧ ctx'.encoder = ctx.encoder ∧ ctx'.tally = ctx.tally ∧
        ∀ id pipe', ctx.encoder = some id → p'.pipes[id]? = some pipe' →
          ∃ pipe, p.pipes[id]? = some pipe ∧ Pipe.unpulled pipe' = Pipe.unpulled pipe ∧
            ShipThread.held pipe'.thread = ShipThread.held pipe.thread) :
    Counted g p' where
  wired := hwired
  agrees := by
    intro ctx' id pipe' hctx' hencoder' hpipe'
    rcases hctx ctx' hctx' with hnone | ⟨ctx, hbefore, hencoder, htally, hpipes⟩
    · rw [hnone] at hencoder'
      cases hencoder'
    · rw [hencoder] at hencoder'
      obtain ⟨pipe, hpipe, hunpulled, hheld⟩ := hpipes id pipe' hencoder' hpipe'
      rw [htally]
      exact (h.agrees ctx id pipe hbefore hencoder' hpipe).congr huncounted hreserved hunpulled
        hheld

/-- A change of one pipe, of the counters and of the capture thread is right if it is right for
the context's own pipe, and if a change of another pipe leaves the counters. -/
theorem Counted.set (h : Counted g p) {id : ℕ} {next : Pipe} {cells' : Cells}
    {capture' : CaptureThread} (present : p.pipes[id]? = some pipe)
    (hwired : Wired { p with pipes := p.pipes.set id next, cells := cells', capture := capture' })
    (hctx : ∀ ctx', cells'.ctx = some ctx' → ∃ ctx, p.cells.ctx = some ctx ∧
      ctx'.encoder = ctx.encoder ∧
      (ctx.encoder = some id → Agrees g p.capture ctx.tally pipe →
        Agrees g capture' ctx'.tally next) ∧
      (∀ other, ctx.encoder = some other → other ≠ id →
        ctx'.tally = ctx.tally ∧ uncounted capture' = uncounted p.capture ∧
          reserved capture' ≤ reserved p.capture)) :
    Counted g { p with pipes := p.pipes.set id next, cells := cells', capture := capture' } where
  wired := hwired
  agrees := by
    intro ctx' id' pipe' hctx' hencoder' hpipe'
    obtain ⟨ctx, hbefore, hencoder, hown, hother⟩ := hctx ctx' hctx'
    rw [hencoder] at hencoder'
    by_cases hid : id = id'
    · rw [← hid] at hencoder' hpipe'
      have hlt := (List.getElem?_eq_some_iff.mp present).1
      rw [List.getElem?_set_self hlt] at hpipe'
      cases hpipe'
      exact hown hencoder' (h.agrees ctx id pipe hbefore hencoder' present)
    · rw [List.getElem?_set_ne hid] at hpipe'
      obtain ⟨htally, huncounted, hreserved⟩ := hother id' hencoder' (Ne.symm hid)
      rw [htally]
      exact (h.agrees ctx id' pipe' hbefore hencoder' hpipe').congr huncounted hreserved rfl rfl

theorem counted_ship (h : Counted g p) {id : ℕ} {a : Action} {next : Pipe × Cells}
    (present : p.pipes[id]? = some pipe) (ships : Ships p.cells pipe a next)
    (hpull : a = .pull id → straggler p id = false ∨ pipe.channel = [])
    (hcount : a = .countBatch id → straggler p id = false)
    (hid : ∀ other, a = .pull other ∨ a = .countBatch other → other = id)
    (hwired : Wired { p with pipes := p.pipes.set id next.1, cells := next.2 }) :
    Counted g { p with pipes := p.pipes.set id next.1, cells := next.2 } := by
  have hown : ∀ {ctx : LiveContext}, p.cells.ctx = some ctx → ctx.encoder = some id →
      ctx.serverHandle = pipe.home.serverHandle := by
    intro ctx hctx hencoder
    obtain ⟨found, hfound, hwiredTo⟩ := h.wired ctx id hctx hencoder
    rw [present] at hfound
    cases hfound
    exact hwiredTo.serverHandle.symm
  have hstraggler : ∀ {ctx : LiveContext} {other : ℕ}, p.cells.ctx = some ctx →
      ctx.encoder = some other → other ≠ id → straggler p id = false →
      ctx.serverHandle ≠ pipe.home.serverHandle := by
    intro ctx other hctx hencoder hne hfalse heq
    simp [straggler, hctx, present, heq, hencoder, hne] at hfalse
  refine h.set present hwired fun ctx' hctx' => ?_
  cases ships with
  | exit id' thread drained dropped =>
    refine ⟨ctx', hctx', rfl, fun hencoder _ => ?_, fun _ _ _ => ⟨rfl, rfl, le_rfl⟩⟩
    obtain ⟨found, hfound, hwiredTo⟩ := h.wired ctx' id hctx' hencoder
    rw [present] at hfound
    cases hfound
    rw [hwiredTo.alive] at dropped
    cases dropped
  | pull id' thread waiting =>
    have hsame := hid id' (.inl rfl)
    rw [hsame] at hpull
    obtain ⟨ctx, hctx, rfl⟩ := Cells.update_some hctx'
    refine ⟨ctx, hctx, by split <;> rfl, fun hencoder hagrees => ?_, fun other hencoder hne => ?_⟩
    · rw [if_pos (hown hctx hencoder)]
      exact hagrees.pull thread
    · rw [if_neg (hstraggler hctx hencoder hne ((hpull rfl).resolve_right waiting))]
      exact ⟨rfl, rfl, le_rfl⟩
  | discard id' now frames thread nowhere | closed id' frameIds now frames target thread
    | post id' count thread =>
    refine ⟨ctx', hctx', rfl, fun _ hagrees => ?_, fun _ _ _ => ⟨rfl, rfl, le_rfl⟩⟩
    exact hagrees.congr rfl le_rfl rfl (by rw [thread]; rfl)
  | read id' now frames ctx surfaceId thread before surface =>
    obtain ⟨ctx, hctx, rfl⟩ := Cells.update_some hctx'
    refine ⟨ctx, hctx, rfl, fun _ hagrees => ?_, fun _ _ _ => ⟨rfl, rfl, le_rfl⟩⟩
    exact hagrees.congr rfl le_rfl rfl (by rw [thread]; rfl)
  | frame id' frameIds now frames target thread each =>
    obtain ⟨ctx, hctx, rfl⟩ := Cells.update_some hctx'
    have htally : (if ctx.serverHandle = target.serverHandle then recordShipped now frameIds ctx
        else ctx).tally = ctx.tally := by
      split
      · exact (core_recordShipped now frameIds ctx).2
      · rfl
    have hencoder : (if ctx.serverHandle = target.serverHandle then recordShipped now frameIds ctx
        else ctx).encoder = ctx.encoder := by
      split
      · exact congrArg Core.encoder (core_recordShipped now frameIds ctx).1
      · rfl
    refine ⟨ctx, hctx, hencoder, fun _ hagrees => ?_, fun _ _ _ => ⟨htally, rfl, le_rfl⟩⟩
    rw [htally]
    exact hagrees.congr rfl le_rfl rfl (by rw [thread]; rfl)
  | count id' count thread =>
    have hsame := hid id' (.inr rfl)
    rw [hsame] at hcount
    obtain ⟨ctx, hctx, rfl⟩ := Cells.update_some hctx'
    refine ⟨ctx, hctx, by split <;> rfl, fun hencoder hagrees => ?_, fun other hencoder hne => ?_⟩
    · rw [if_pos (hown hctx hencoder)]
      exact hagrees.count thread
    · rw [if_neg (hstraggler hctx hencoder hne (hcount rfl))]
      exact ⟨rfl, rfl, le_rfl⟩

/-- What the throttle compares with its limit. -/
theorem Agrees.outstanding {ctx : LiveContext} (h : Agrees g .idle ctx.tally pipe) :
    (GfxPipeline.outstanding ctx).toNat = Pipe.unshipped pipe := by
  have hshipped : ctx.submitted.toNat + 0 = ctx.shipped.toNat + Pipe.unshipped pipe := h.shipped
  have hle : ctx.shipped ≤ ctx.submitted := UInt64.le_iff_toNat_le.mpr (by omega)
  rw [GfxPipeline.outstanding, saturatingSub64, if_pos hle, UInt64.toNat_sub_of_le _ _ hle]
  omega

/-- The throttle is full exactly when its limit of frames is in the pipe. -/
theorem Agrees.pipelineFull {ctx : LiveContext} (h : Agrees g .idle ctx.tally pipe) :
    GfxPipeline.pipelineFull g ctx = decide (g.maxInFlight.toNat ≤ Pipe.unshipped pipe) := by
  rw [GfxPipeline.pipelineFull, decide_eq_decide, UInt64.le_iff_toNat_le, h.outstanding]
  simp

/-- A setup leaves counters that agree with the pipe of the encoder it leaves. -/
theorem agrees_entered (h : Counted g p) (hidle : p.capture = .idle) {i : CaptureInput}
    {ctx surfaced : LiveContext} {s : Setup} (hentered : Entered g p.cells p.pipes i ctx surfaced s)
    {id : ℕ} (hencoder : s.ctx.encoder = some id) (hpipe : s.pipes[id]? = some pipe) :
    Agrees g .idle s.ctx.tally pipe := by
  cases hentered.prepared with
  | kept same complete =>
    have hsame : surfaced.encoder = ctx.encoder := congrArg Core.encoder hentered.core
    rw [same.1, hsame] at hencoder
    rw [same.2] at hpipe
    rw [same.1, hentered.tally, ← hidle]
    exact h.agrees ctx id pipe hentered.before hencoder hpipe
  | made encoder surface ok added tally core =>
    have hid : s.ctx.encoder = some p.pipes.length := congrArg Core.encoder core
    rw [hid, Option.some.injEq] at hencoder
    rw [added, ← hencoder, List.getElem?_concat_length] at hpipe
    cases hpipe
    have hempty : Pipe.unshipped (newPipe g i.setup.threadSpawned surfaced) = 0 := by
      simp only [Pipe.unshipped, Pipe.unpulled, newPipe, List.length_nil]
      split <;> rfl
    rw [tally]
    refine ⟨?_, rfl, ?_, by simp [uncounted]⟩
    · rw [hempty]
      rfl
    · rw [hempty]
      simp [reserved]

theorem counted_admitCapture (h : Counted g p) (hidle : p.capture = .idle) {i : CaptureInput}
    {a : Admitted} (ha : Captured g p.cells p.pipes i a)
    (hwired : Wired { p with
      cells := a.cells, pipes := a.pipes, capture := Pipeline.afterAdmission a.result }) :
    Counted g { p with
      cells := a.cells, pipes := a.pipes, capture := Pipeline.afterAdmission a.result } := by
  refine ⟨hwired, fun ctx'' id pipe hctx hencoder hpipe => ?_⟩
  cases ha with
  | notActive inactive | droppedEventQueue ctx before ready full =>
    have hagrees := h.agrees ctx'' id pipe hctx hencoder hpipe
    rw [hidle] at hagrees
    exact hagrees
  | setupFailed ctx surfaced s entered failed cells' after =>
    have hsame : ctx'' = s.ctx := Option.some.inj (hctx.symm.trans after)
    rw [hsame] at hencoder ⊢
    exact agrees_entered h hidle entered hencoder hpipe
  | judged ctx surfaced ctx' s entered ok cells' result after tally judged =>
    have hsame : ctx'' = ctx' := Option.some.inj (hctx.symm.trans after)
    rw [hsame] at hencoder ⊢
    have hfound : ctx'.encoder = s.ctx.encoder → Agrees g .idle s.ctx.tally pipe := by
      intro heq
      rw [heq] at hencoder
      exact agrees_entered h hidle entered hencoder hpipe
    rw [tally]
    cases judged with
    | recover r core => exact (hfound (congrArg Core.encoder core)).congr rfl le_rfl rfl rfl
    | submit core room =>
      have hagrees := hfound (congrArg Core.encoder core)
      rw [hagrees.pipelineFull] at room
      have hroom := of_decide_eq_false room
      refine ⟨hagrees.shipped, hagrees.pending, ?_, hagrees.fits⟩
      simp only [Pipeline.afterAdmission, reserved]
      omega
    | droppedFps core | droppedUdpLag core | droppedPipeline core full
      => exact hfound (congrArg Core.encoder core)

/-- A step that does not miscount leaves the counters right. -/
theorem Counted.step (h : Counted g p) {a : Action} (hcounts : counts g p a = true)
    (hstep : p.step g a = some p') : Counted g p' := by
  have hwired := wired_step h.wired hstep
  have hkept : ∀ {ctx : LiveContext}, p.cells.ctx = some ctx → ctx.encoder = none ∨
      ∃ ctx', p.cells.ctx = some ctx' ∧ ctx.encoder = ctx'.encoder ∧ ctx.tally = ctx'.tally ∧
        ∀ (id : ℕ) (pipe' : Pipe), ctx'.encoder = some id → p.pipes[id]? = some pipe' →
          ∃ pipe, p.pipes[id]? = some pipe ∧ Pipe.unpulled pipe' = Pipe.unpulled pipe ∧
            ShipThread.held pipe'.thread = ShipThread.held pipe.thread :=
    fun hctx => .inr ⟨_, hctx, rfl, rfl, fun _ pipe _ hpipe => ⟨pipe, hpipe, rfl, rfl⟩⟩
  cases steps_of_step hstep with
  | build now _ =>
    refine h.keep hwired rfl le_rfl fun ctx' hctx' => ?_
    cases hctx'
    exact .inl rfl
  | client e notClose _ =>
    refine h.keep hwired rfl le_rfl fun ctx' hctx' => ?_
    obtain ⟨ctx, hctx, htally, hcalled⟩ := called_callback e hctx'
    have hencoder : ctx'.encoder = ctx.encoder := by
      cases hcalled with
      | quiet e _ core | ready accepted core => exact congrArg Core.encoder core
      | close => exact absurd rfl notClose
    exact .inr ⟨ctx, hctx, hencoder, htally, fun _ pipe _ hpipe => ⟨pipe, hpipe, rfl, rfl⟩⟩
  | close _ | resetForLiveResize idle =>
    refine h.keep hwired rfl le_rfl fun ctx' hctx' => ?_
    obtain ⟨ctx, -, rfl⟩ := Cells.update_some hctx'
    exact .inl rfl
  | admitCapture i idle =>
    exact counted_admitCapture h idle (captured_admitCapture g p.cells p.pipes i) hwired
  | recover remapped r recovering =>
    obtain ⟨hctx, hpipes⟩ := runRecovery_frame p r remapped
    have hcapture : uncounted (p.runRecovery r remapped).capture = 0 ∧
        reserved (p.runRecovery r remapped).capture = 0 := by
      unfold Pipeline.runRecovery
      split <;> exact ⟨rfl, rfl⟩
    refine h.keep hwired ?_ ?_ fun ctx' hctx' => ?_
    · rw [hcapture.1, recovering]
      rfl
    · rw [hcapture.2]
      exact Nat.zero_le _
    · rw [hctx] at hctx'
      rw [hpipes]
      exact hkept hctx'
  | publishLate serverHandle surfaceId remapped replaced =>
    refine h.keep hwired ?_ (Nat.zero_le _) fun ctx' hctx' => hkept hctx'
    rw [remapped]
    rfl
  | publish surfaceId ctx before remapped =>
    refine h.keep hwired ?_ (Nat.zero_le _) fun ctx' hctx' => ?_
    · rw [remapped]
      rfl
    · cases hctx'
      refine .inr ⟨ctx, before, rfl, rfl, fun id pipe' hencoder hpipe' => ?_⟩
      rw [hencoder] at hpipe'
      rw [List.getElem?_modify_eq] at hpipe'
      obtain ⟨pipe, hpipe, rfl⟩ := Option.map_eq_some_iff.mp hpipe'
      exact ⟨pipe, hpipe, rfl, rfl⟩
  | encode i forceKeyframe next encoding encoded =>
    have hsteered : ∀ {ctx : LiveContext} {stepped : LiveContext × AdaptiveActions},
        adaptiveBitrateStep g p.cells i.now ctx = some stepped →
        stepped.1.encoder = ctx.encoder ∧ stepped.1.tally = ctx.tally := fun hcontrolled =>
      ⟨congrArg Core.encoder (steered_adaptiveBitrateStep g p.cells hcontrolled).core,
        (steered_adaptiveBitrateStep g p.cells hcontrolled).tally⟩
    cases encoded with
    | noContext before =>
      refine h.keep hwired ?_ (Nat.zero_le _) fun ctx' hctx' => hkept hctx'
      rw [encoding]
      rfl
    | noEncoder ctx stepped before controlled missing =>
      refine h.keep hwired ?_ (Nat.zero_le _) fun ctx' hctx' => ?_
      · rw [encoding]
        rfl
      · cases hctx'
        obtain ⟨hencoder, htally⟩ := hsteered controlled
        exact .inr ⟨ctx, before, hencoder, htally,
          fun _ pipe _ hpipe => ⟨pipe, hpipe, rfl, rfl⟩⟩
    | encoded ctx stepped id pipe before controlled encoder present =>
      obtain ⟨hencoder, htally⟩ := hsteered controlled
      refine h.set present hwired fun ctx' hctx' => ?_
      cases hctx'
      refine ⟨ctx, before, hencoder, fun _ hagrees => ?_, fun other hother hne => ?_⟩
      · rw [htally]
        rw [encoding] at hagrees
        cases haccepts : accepts i pipe.encoder with
        | true =>
          rw [encodeInto_of_accepts stepped.2 forceKeyframe haccepts]
          refine hagrees.accepted ?_
          have hwraps : ctx.submitted ≠ 0xffffffffffffffff := by
            simpa [counts, before] using hcounts
          exact hwraps
        | false =>
          obtain ⟨nextPts, hrefused⟩ :=
            encodeInto_of_not_accepts stepped.2 forceKeyframe haccepts
          rw [hrefused]
          exact hagrees.congr rfl (Nat.zero_le _) rfl rfl
      · rw [encoder, Option.some.injEq] at hother
        exact absurd hother.symm hne
  | countSubmission counting =>
    refine ⟨hwired, fun ctx' id pipe hctx' hencoder hpipe => ?_⟩
    obtain ⟨ctx, hctx, rfl⟩ := Cells.update_some hctx'
    have hagrees := h.agrees ctx id pipe hctx hencoder hpipe
    rw [counting] at hagrees
    exact hagrees.counted
  | forceKeyframe idle | demigrate idle resumes =>
    refine h.keep hwired rfl le_rfl fun ctx' hctx' => ?_
    obtain ⟨ctx, hctx, rfl⟩ := Cells.update_some hctx'
    exact .inr ⟨ctx, hctx, rfl, rfl, fun _ pipe _ hpipe => ⟨pipe, hpipe, rfl, rfl⟩⟩
  | stayDemigrated => exact h
  | output id place delivered pipe next present outputs =>
    refine h.set present hwired fun ctx hctx => ⟨ctx, hctx, rfl, fun hencoder hagrees => ?_,
      fun _ _ _ => ⟨rfl, rfl, le_rfl⟩⟩
    have hdelivered : delivered = true ∧ pipe.thread.receives = true := by
      simpa [counts, hctx, present, hencoder] using hcounts
    rw [hdelivered.1] at outputs
    exact hagrees.output hdelivered.2 outputs
  | ship id a pipe next present ships own =>
    refine counted_ship h present ships ?_ ?_ ?_ hwired
    · rintro rfl
      simpa [counts, present] using hcounts
    · rintro rfl
      simpa [counts] using hcounts
    · rintro other hother
      rcases own with rfl | ⟨now, rfl, -⟩ | ⟨channelOpen, frameIds, now, rfl⟩ | rfl | rfl <;>
        simp at hother
      · exact hother.symm
      · exact hother.symm
  | outside o => exact h.keep hwired rfl le_rfl fun ctx hctx => hkept hctx

/-- With right counters the throttle drops a capture only when the encoder is not drained. -/
theorem Counted.letsThrough (h : Counted g p) {a : Action} (hcounts : counts g p a = true) :
    letsThrough g p a = true := by
  cases a with
  | admitCapture i =>
    simp only [Throttle.letsThrough]
    split
    · next hidle hdropped =>
      by_contra hdrained
      have hdrained' : drained p = true := by simpa using hdrained
      have hroom : shipping p < g.maxInFlight.toNat := by
        simpa [counts, hdrained'] using hcounts
      have hcaptured := captured_admitCapture g p.cells p.pipes i
      generalize GfxPipeline.admitCapture g p.cells p.pipes i = admitted at hdropped hcaptured
      cases hcaptured with
      | notActive | droppedEventQueue | setupFailed => cases hdropped
      | judged ctx surfaced ctx' s entered ok cells' result after tally judged =>
        cases judged with
        | recover | submit | droppedFps | droppedUdpLag => cases hdropped
        | droppedPipeline core full =>
          cases entered.prepared with
          | kept same complete =>
            have hsame : surfaced.encoder = ctx.encoder := congrArg Core.encoder entered.core
            obtain ⟨id, hid⟩ := Option.isSome_iff_exists.mp (complete ok).2
            have hencoder : ctx.encoder = some id := hsame.symm.trans hid
            obtain ⟨pipe, hpipe, -⟩ := h.wired ctx id entered.before hencoder
            have hagrees : Agrees g .idle s.ctx.tally pipe := by
              refine agrees_entered h hidle entered ?_ (by rw [same.2, hpipe])
              rw [same.1]
              exact hid
            have hcurrent : current p = some pipe := by
              simp [current, entered.before, currentPipe, hencoder, hpipe]
            rw [hagrees.pipelineFull] at full
            have hlimit := of_decide_eq_true full
            simp only [drained, hcurrent, Option.all_some, Bool.and_eq_true,
              List.isEmpty_iff] at hdrained'
            simp only [shipping, hcurrent, Option.elim_some] at hroom
            simp only [Pipe.unshipped, Pipe.unpulled, hdrained'.1, hdrained'.2,
              List.length_nil] at hlimit
            omega
          | made encoder surface ok' added tally' core' =>
            have hfull : decide (g.maxInFlight.toUInt64 ≤
                saturatingSub64 s.ctx.tally.submitted s.ctx.tally.shipped) = true := full
            rw [tally'] at hfull
            have hnone : g.maxInFlight.toUInt64 ≤ 0 := of_decide_eq_true hfull
            have hzero : g.maxInFlight.toNat ≤ 0 := by
              simpa using UInt64.le_iff_toNat_le.mp hnone
            omega
    · rfl
  | _ => rfl

theorem counted_new (o : Outside) : Counted g (.new o) where
  wired := wired_of_none fun _ hctx => by cases hctx
  agrees := fun _ _ _ hctx => by cases hctx

/-- In every run in which the current encoder delivers every frame to its ship thread, no ship
thread of a replaced encoder takes or counts frames and the count does not wrap, the counters
are exact, and a capture is not dropped for the frames in a drained encoder, unless the ship
thread holds as many as the throttle lets through. -/
theorem captureThrottle_exact (g : Factory) (o : Outside) (acts : List Action)
    (hcounts : Meets (Pipeline.step g) (fun p a => counts g p a = true) (.new o) acts) :
    (∀ p, run (Pipeline.step g) (.new o) acts = some p → Exact p) ∧
      Meets (Pipeline.step g) (fun p a => letsThrough g p a = true) (.new o) acts := by
  constructor
  · intro p hrun
    have hcounted := run_invariant (Counted g) (fun _ _ _ h hcounts hstep => h.step hcounts hstep)
      (counted_new o) hcounts hrun
    exact hcounted.exact
  · exact hcounts.of_invariant (Counted g) (fun _ _ _ h hcounts hstep => h.step hcounts hstep)
      (fun _ _ h hcounts => h.letsThrough hcounts) (counted_new o)

/-- A frame is shipped, and two more are shipped as one batch after a resize of the screen. -/
def framesShipped : List Action :=
  connecting 1 ++ [captureAt 2 false 1, encodeAt 2 true, .countSubmission, .output 0 0 true,
    .pull 0, .readContext 0 (.fromSecs 2), .frameBatch 0 true [some 7] (.fromSecs 2),
    .postEvent 0, .countBatch 0, .resetForLiveResize, captureAt 3 false 2, encodeAt 3 true,
    .countSubmission, captureAt 4 false 2, encodeAt 4 true, .output 1 0 true, .countSubmission,
    .pull 0, .output 1 0 true, .pull 1, captureAt 5 false 2]

theorem captureThrottle_exact_shipped :
    (run (Pipeline.step (plainFactory false)) (.new (quietOutside 0)) framesShipped).isSome =
        true ∧
      (∀ p, run (Pipeline.step (plainFactory false)) (.new (quietOutside 0)) framesShipped =
        some p → Exact p) ∧
      Meets (Pipeline.step (plainFactory false))
        (fun p a => letsThrough (plainFactory false) p a = true) (.new (quietOutside 0))
        framesShipped := by
  have hruns : (run (Pipeline.step (plainFactory false)) (.new (quietOutside 0))
      framesShipped).isSome = true := by
    decide +kernel
  have hcounts : meetsBool (Pipeline.step (plainFactory false)) (counts (plainFactory false))
      (.new (quietOutside 0)) framesShipped = true := by
    decide +kernel
  exact ⟨hruns, captureThrottle_exact _ _ _ (meetsBool_iff.mp hcounts)⟩

/-- Three frames that the encoder gives up leave the throttle full for good. -/
theorem not_exact_undelivered :
    ¬∀ (g : Factory) (o : Outside) (acts : List Action),
      (∀ p, run (Pipeline.step g) (.new o) acts = some p → Exact p) ∧
        Meets (Pipeline.step g) (fun p a => letsThrough g p a = true) (.new o) acts := by
  intro h
  have hfrozen : meetsBool (Pipeline.step (plainFactory false)) (letsThrough (plainFactory false))
      (.new (quietOutside 0))
      (connecting 1 ++ [captureAt 2 false 1, encodeAt 2 true, .countSubmission,
        captureAt 3 false 1, encodeAt 3 true, .countSubmission, captureAt 4 false 1,
        encodeAt 4 true, .countSubmission, .output 0 0 false, .output 0 0 false,
        .output 0 0 false, captureAt 5 false 1]) = false := by
    decide +kernel
  rw [meetsBool_iff.mpr (h _ _ _).2] at hfrozen
  cases hfrozen

end Throttle

end Macrdp.PipelineSystem
