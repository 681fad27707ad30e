import Macrdp.StepSystem
import Macrdp.LegacyTiles

/-!
# The legacy display path

Each captured sample is offered to the graphics pipeline first. A sample that the pipeline does not
take is drawn by bitmap updates: its dirty rectangles, or the whole frame while the client has not
been seeded or has to be resynchronised. The updates wait in a queue; a sample that needs more of
them than the queue may hold is dropped and the next one is to be sent whole.
-/

namespace Macrdp.LegacyDisplay

open StepSystem Raster LegacyTiles

variable {π : Type*} {width height : ℕ}

/-! ## The session -/

/-- What the graphics pipeline does with a frame. -/
inductive Submit where
  /-- It has been negotiated and ships the frame. -/
  | accepted
  | refused
  | failed
  deriving DecidableEq, Repr

/-- A captured sample. -/
structure Sample (width height : ℕ) extends Frame width height where
  /-- What changed since the sample before, if the capture says so. -/
  dirtyRects : Option (List DirtyRect)

/-- What the display source returns. -/
inductive DisplayUpdate (π : Type*) where
  | bitmap (update : BitmapUpdate)
  | pointer (shape : π)

/-- What happened so far, as the property tells it. -/
structure History where
  /-- Picture of the last sample. -/
  previous : Option (Picture Pixel)
  /-- Picture that the client was last sent. -/
  sent : Picture Pixel
  /-- The graphics pipeline has taken a sample since. -/
  skipped : Bool
  /-- The last sample of the legacy path overflowed the queue. -/
  overflowed : Bool

/-- The display source and the client. -/
structure Display (π : Type*) where
  pending : List (DisplayUpdate π)
  resyncFullFrame : Bool
  seeded : Bool
  /-- Framebuffer of the client. -/
  client : Picture Pixel
  history : History

/-- What does not change during a session. -/
structure Config where
  pendingLimit : ℕ
  /-- The capture scales, so that dirty rectangles are of no use. -/
  forceFullFrame : Bool
  deriving DecidableEq, Repr

/-- What the loop of the display source does. -/
inductive Action (π : Type*) (width height : ℕ) where
  /-- The cursor poll finds new pointer shapes and returns the first. -/
  | poll (shapes : List π)
  /-- The first waiting update is returned. -/
  | next
  /-- The last frame is given to the graphics pipeline once more. -/
  | resubmit (egfx : Submit)
  /-- A sample is pulled and offered to the graphics pipeline, if there is one. -/
  | sample (sample : Sample width height) (egfx : Option Submit)

/-- A session that starts with some picture at the client. -/
def init (blank : Picture Pixel) : Display π where
  pending := []
  resyncFullFrame := false
  seeded := false
  client := blank
  history := { previous := none, sent := blank, skipped := false, overflowed := false }

namespace History

/-- The graphics pipeline takes a sample. -/
def skip (h : History) (picture : Picture Pixel) : History :=
  { h with previous := some picture, skipped := true }

/-- The legacy path takes a sample. -/
def draw (h : History) (picture : Picture Pixel) (overflow : Bool) : History where
  previous := some picture
  sent := if overflow then h.sent else picture
  skipped := if overflow then h.skipped else false
  overflowed := overflow

end History

/-- The client paints an update. -/
def receive (pic : Picture Pixel) : DisplayUpdate π → Picture Pixel
  | .bitmap u => paint pic u.patch
  | .pointer _ => pic

/-- The updates for some rectangles; `none` if a row of one is out of bounds. -/
def enqueue (f : Frame width height) (rects : List Rect) : Option (List BitmapUpdate) :=
  ((rects.flatMap splitStrips).mapM (rectUpdate f.src f.strideBytes)).map (List.filterMap id)

namespace Display

/-- The rectangles of a sample that are drawn. -/
def rects (c : Config) (s : Display π) (sample : Sample width height) : List Rect :=
  let dirty :=
    if !s.seeded || c.forceFullFrame || s.resyncFullFrame then none else sample.dirtyRects
  match dirty with
  | some (r :: list) => (r :: list).filterMap (clampRect width height)
  | _ => [⟨0, 0, width, height⟩]

/-- The legacy path draws a sample. -/
def draw (c : Config) (s : Display π) (sample : Sample width height) : Option (Display π) :=
  (enqueue sample.toFrame (s.rects c sample)).map fun updates =>
    let resyncSample := s.resyncFullFrame
    let queued := s.pending ++ updates.map .bitmap
    let overflow := decide (c.pendingLimit < queued.length)
    let pending := if overflow then [] else queued
    let resync := if overflow then true else s.resyncFullFrame
    { s with
      pending := pending
      resyncFullFrame :=
        if resyncSample && decide (pending.length ≤ c.pendingLimit) then false else resync
      seeded := true
      history := s.history.draw sample.picture overflow }

/-- The graphics pipeline takes a sample. -/
def skip (s : Display π) (sample : Sample width height) : Display π :=
  { s with seeded := true, history := s.history.skip sample.picture }

/-- One step; `none` if it cannot happen. A sample is pulled once no update waits. -/
def step (c : Config) (s : Display π) : Action π width height → Option (Display π)
  | .poll [] => some s
  | .poll (_ :: shapes) => some { s with pending := shapes.map .pointer ++ s.pending }
  | .next =>
    match s.pending with
    | [] => none
    | u :: rest => some { s with pending := rest, client := receive s.client u }
  | .resubmit _ => if s.pending.isEmpty then some s else none
  | .sample sample egfx =>
    if s.pending.isEmpty then
      if egfx = some .accepted then some (s.skip sample) else s.draw c sample
    else none

end Display

/-! ## What the session is for -/

/-- An update is small enough for the client, or a single row. -/
def BitmapTile (u : BitmapUpdate) : Prop :=
  u.area.width * u.area.height ≤ maxBitmapUpdatePixels ∨ u.area.height = 1

/-- The step only drains the queue. -/
def Action.Draining : Action π width height → Prop
  | .poll _ => True
  | .next => True
  | _ => False

/-- Whenever the queue has been drained the client shows the picture. -/
def Converges (c : Config) (width height : ℕ) (s : Display π) (picture : Picture Pixel) : Prop :=
  ∀ (drain : List (Action π width height)) (t : Display π), (∀ a ∈ drain, a.Draining) →
    run (Display.step c) s drain = some t → t.pending = [] → Agree width height t.client picture

/-- The dirty rectangles cover every pixel that differs from the sample before. -/
def Fair (s : Display π) : Action π width height → Prop
  | .sample sample _ => ∀ previous ∈ s.history.previous, ∀ list ∈ sample.dirtyRects,
      ∀ i < width, ∀ j < height, previous i j ≠ sample.picture i j → ∃ r ∈ list, r.Contains i j
  | _ => True

instance (s : Display π) (a : Action π width height) : Decidable (Fair s a) := by
  cases a with
  | sample sample egfx =>
    exact inferInstanceAs (Decidable (∀ previous ∈ s.history.previous, ∀ list ∈ sample.dirtyRects,
      ∀ i < width, ∀ j < height, previous i j ≠ sample.picture i j → ∃ r ∈ list, r.Contains i j))
  | _ => exact inferInstanceAs (Decidable True)

/-- A returned update is a tile, and a sample of the legacy path is shown once the queue has been
drained, unless it overflows the queue and the one before it did not. -/
def Proper (c : Config) (s : Display π) : Action π width height → Prop
  | .next => ∀ u ∈ (s.pending.head? : Option (DisplayUpdate π)), ∀ b, u = .bitmap b → BitmapTile b
  | .sample sample egfx => s.pending = [] → egfx ≠ some .accepted →
      ∃ t, s.step c (.sample sample egfx) = some t ∧
        (Converges c width height t sample.picture ∨
          t.history.overflowed = true ∧ s.history.overflowed = false)
  | _ => True

/-- The sample needs more updates than the queue may hold. -/
def Overflows (c : Config) (s : Display π) (sample : Sample width height) : Prop :=
  c.pendingLimit < ((s.rects c sample).flatMap splitStrips).length

instance (c : Config) (s : Display π) (sample : Sample width height) :
    Decidable (Overflows c s sample) :=
  inferInstanceAs (Decidable (_ < _))

/-- A sample that overflows right after one that did is what the client has already; and the
rectangles of a sample that follows one of the graphics pipeline cover what the client was not
sent. -/
def Orderly (c : Config) (s : Display π) : Action π width height → Prop
  | .sample sample egfx => s.pending = [] → egfx ≠ some .accepted →
      if Overflows c s sample then
        s.history.overflowed = true → Agree width height s.history.sent sample.picture
      else s.history.skipped = true →
        CoversDiff width height (s.rects c sample) s.history.sent sample.picture
  | _ => True

instance (c : Config) (s : Display π) (a : Action π width height) : Decidable (Orderly c s a) := by
  cases a with
  | sample sample egfx =>
    exact inferInstanceAs (Decidable (s.pending = [] → egfx ≠ some .accepted →
      if Overflows c s sample then
        s.history.overflowed = true → Agree width height s.history.sent sample.picture
      else s.history.skipped = true →
        CoversDiff width height (s.rects c sample) s.history.sent sample.picture))
  | _ => exact inferInstanceAs (Decidable True)

end Macrdp.LegacyDisplay
