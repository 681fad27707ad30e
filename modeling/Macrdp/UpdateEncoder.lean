import Macrdp.StepSystem
import Macrdp.BitmapDelivery

/-!
# The update encoder

A bitmap is sent as the rectangles in which it differs from what the server has sent before, each cut
into tiles that fit the client's buffer. Once all tiles have been handed over, the server's own
framebuffer takes the bitmap: as a whole if it covers the desktop, or else tile by tile.
-/

namespace Macrdp.UpdateEncoder

open Raster ServerFramebuffer BitmapEncoding

variable {C : Type}

/-- What does not change while bitmaps are sent. -/
structure Settings where
  desktopWidth : ℕ
  desktopHeight : ℕ
  updater : BitmapUpdater
  /-- Size of the buffer in which the client puts fragments together. -/
  maxRequestSize : ℕ
  deriving DecidableEq, Repr

/-- The encoder and what it takes the client to show. -/
structure Encoder extends Settings where
  framebuffer : Option Framebuffer
  deriving DecidableEq, Repr

/-! ## Tiles -/

/-- Columns of the width that a tile of some height may have. -/
def splitColumns (maxRequestSize h y xEnd x : ℕ) : List Rect :=
  if x < xEnd then
    ⟨x, y, min (xEnd - x) (max (maxRequestSize / (h * 4)) 1), h⟩ ::
      splitColumns maxRequestSize h y xEnd (x + max (maxRequestSize / (h * 4)) 1)
  else []
termination_by xEnd - x

/-- Rows of the height that a tile of the rectangle's width may have. -/
def splitRows (maxRequestSize : ℕ) (rect : Rect) (y : ℕ) : List Rect :=
  if y < rect.y + rect.height then
    let h := min (rect.y + rect.height - y) (max (maxRequestSize / (rect.width * 4)) 1)
    splitColumns maxRequestSize h y (rect.x + rect.width) rect.x ++
      splitRows maxRequestSize rect (y + max (maxRequestSize / (rect.width * 4)) 1)
  else []
termination_by rect.y + rect.height - y

/-- Cut a rectangle into tiles. -/
def splitDiff (maxRequestSize : ℕ) (rect : Rect) : List Rect := splitRows maxRequestSize rect rect.y

/-- A rectangle that fits the client's buffer, or else its tiles. -/
def tiles (maxRequestSize : ℕ) (rect : Rect) : List Rect :=
  if rect.width * rect.height * 4 ≤ maxRequestSize then [rect] else splitDiff maxRequestSize rect

namespace Encoder

/-- The rectangles in which a bitmap differs from the framebuffer, or all of it. -/
def diffRects (k : Codec C) (e : Encoder) (b : BitmapUpdate) : List Rect :=
  match e.framebuffer with
  | some fb => k.findDifferentRectsSub fb.data fb.stride fb.width fb.height b.data b.stride b.width
      b.height b.x b.y
  | none => [⟨0, 0, b.width, b.height⟩]

/-- The tiles to send. -/
def bitmapDiffs (k : Codec C) (e : Encoder) (b : BitmapUpdate) : List Rect :=
  (e.diffRects k b).flatMap (tiles e.maxRequestSize)

/-- The framebuffer takes a bitmap that has been sent. -/
def bitmapUpdateFramebuffer (e : Encoder) (b : BitmapUpdate) (diffs : List Rect) :
    Except Fault Encoder :=
  if b.x = 0 ∧ b.y = 0 ∧ b.width = e.desktopWidth ∧ b.height = e.desktopHeight then
    let framebuffer : Framebuffer :=
      { width := b.width
        height := b.height
        format := b.format
        data := b.data
        stride := b.stride }
    .ok { e with framebuffer := some framebuffer }
  else
    match e.framebuffer with
    | some fb => do
      let fb ← fb.updateDiffs b diffs
      return { e with framebuffer := some fb }
    | none => .ok e

/-- Encode a tile; `none` if it is no part of the bitmap. -/
def encodeRect (k : Codec C) (e : Encoder) (b : BitmapUpdate) (rect : Rect) :
    Except Fault (Option UpdateFragmenter) := do
  let x ← castU16 "invalid `x`: out of range integral conversion" rect.x
  let y ← castU16 "invalid `y`: out of range integral conversion" rect.y
  let width ← castU16 "invalid `width`: out of range integral conversion" rect.width
  if width = 0 then .error (.failed "rectangle width cannot be zero")
  else
    let height ← castU16 "invalid `height`: out of range integral conversion" rect.height
    if height = 0 then .error (.failed "rectangle height cannot be zero")
    else
      match ← b.sub x y width height with
      | none => return none
      | some part =>
        let fragmenter ← handle k e.updater part
        return some fragmenter

/-- Encode the tiles from some position on; after the last the framebuffer takes the bitmap. -/
def drain (k : Codec C) (e : Encoder) (b : BitmapUpdate) (diffs : List Rect) :
    List Rect → Except Fault (List UpdateFragmenter × Encoder)
  | [] => do
    let e ← e.bitmapUpdateFramebuffer b diffs
    return ([], e)
  | rect :: rest => do
    match ← e.encodeRect k b rect with
    | none => return ([], e)
    | some fragmenter =>
      let (others, e) ← drain k e b diffs rest
      return (fragmenter :: others, e)

/-- Encode a bitmap, unless it exceeds the desktop. -/
def update (k : Codec C) (e : Encoder) (b : BitmapUpdate) :
    Except Fault (List UpdateFragmenter × Encoder) := do
  let right ← addU16 b.x b.width
  if e.desktopWidth < right then return ([], e)
  let bottom ← addU16 b.y b.height
  if e.desktopHeight < bottom then return ([], e)
  let diffs := e.bitmapDiffs k b
  drain k e b diffs diffs

end Encoder

/-! ## The session -/

/-- The encoder and the client. -/
structure Session (C : Type) where
  encoder : Encoder
  client : Client C
  /-- What the bitmaps that were accepted have shown of the desktop, the latest on top. -/
  drawn : Picture (Option Pixel)

/-- The bitmap lies on the desktop. -/
def Accepted (s : Settings) (b : BitmapUpdate) : Prop := b.area.Fits s.desktopWidth s.desktopHeight

instance (s : Settings) (b : BitmapUpdate) : Decidable (Accepted s b) :=
  inferInstanceAs (Decidable (b.area.Fits _ _))

/-- A bitmap over what was drawn before. -/
def overlay (b : BitmapUpdate) (drawn : Picture (Option Pixel)) : Picture (Option Pixel) := fun i j =>
  if b.area.Contains i j then some (b.picture i j) else drawn i j

namespace Session

/-- A session that starts with some picture at the client. -/
def init (settings : Settings) (blank : Picture C) : Session C where
  encoder := { settings with framebuffer := none }
  client := { picture := blank, assembling := [] }
  drawn := fun _ _ => none

variable [Inhabited C]

/-- The client gets the fragments of some updates. -/
def deliver (k : Codec C) (c : Client C) (fragmenters : List UpdateFragmenter) : Client C :=
  fragmenters.foldl (fun c f => f.fragments.foldl (Client.receive k) c) c

/-- A bitmap is sent; `none` if the encoder panics or fails. -/
def step (k : Codec C) (s : Session C) (b : BitmapUpdate) : Option (Session C) :=
  match s.encoder.update k b with
  | .ok (fragmenters, encoder) => some
    { encoder := encoder
      client := deliver k s.client fragmenters
      drawn := if Accepted s.encoder.toSettings b then overlay b s.drawn else s.drawn }
  | .error _ => none

/-- The client shows the latest bitmap at every pixel that one has covered. -/
def Mirrors (k : Codec C) (s : Session C) : Prop :=
  ∀ i < s.encoder.desktopWidth, ∀ j < s.encoder.desktopHeight, ∀ pixel ∈ s.drawn i j,
    s.client.picture i j = k.view pixel

/-- The step does not fail; a bitmap that exceeds the desktop changes nothing, and after any other
the client mirrors the bitmaps. -/
def Proper (k : Codec C) (s : Session C) (b : BitmapUpdate) : Prop :=
  ∃ t, s.step k b = some t ∧
    if Accepted s.encoder.toSettings b then t.Mirrors k
    else t.encoder = s.encoder ∧ t.client = s.client

/-- Bitmap updates are only used for rectangles whose rows are as long as the stride. -/
def Orderly (k : Codec C) (s : Session C) (b : BitmapUpdate) : Prop :=
  Accepted s.encoder.toSettings b → s.encoder.updater = .bitmap →
    ∀ r ∈ s.encoder.diffRects k b, r.width * 4 = b.stride

end Session

/-- A bitmap as the display source makes it: of the session's format, with all its rows and with
columns in multiples of four. -/
structure Wellformed (format : PixelFormat) (b : BitmapUpdate) : Prop where
  format_eq : b.format = format
  width_pos : 0 < b.width
  height_pos : 0 < b.height
  x_aligned : b.x % 4 = 0
  width_aligned : b.width % 4 = 0
  stride_aligned : b.stride % 4 = 0
  wide : 4 * b.width ≤ b.stride
  length_eq : b.data.length = b.stride * b.height
  right_le : b.x + b.width ≤ 65535
  bottom_le : b.y + b.height ≤ 65535

end Macrdp.UpdateEncoder
