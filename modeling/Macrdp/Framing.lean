import Mathlib.Data.List.Basic
import Mathlib.Algebra.Order.Ring.Nat

/-!
# Framing of a stream

A stream arrives in pieces and is cut into frames, each of which tells its length at its
front. A buffer keeps what is not a complete frame yet. What becomes of the frames does not
depend on how the stream was divided.
-/

namespace Macrdp.Framing

variable {α σ : Type*}

/-- How a frame tells its length. -/
structure Framer (α : Type*) where
  /-- The length of the frame that a buffer starts with, once its front is there. -/
  frameLen : List α → Option ℕ
  pos : ∀ {buf : List α} {n : ℕ}, frameLen buf = some n → 0 < n
  stable : ∀ {buf : List α} {n : ℕ} (more : List α), frameLen buf = some n →
    frameLen (buf ++ more) = some n

namespace Framer

variable (f : Framer α)

/-- Cut the first frame off a buffer, if it is complete. -/
def cut (buf : List α) : Option (List α × List α) :=
  match f.frameLen buf with
  | none => none
  | some n => if buf.length < n then none else some (buf.take n, buf.drop n)

/-- Process the complete frames of a buffer; gives what is left of it. -/
def run (step : σ → List α → σ) : ℕ → σ → List α → σ × List α
  | 0, s, buf => (s, buf)
  | fuel + 1, s, buf =>
    match f.cut buf with
    | none => (s, buf)
    | some (frame, rest) => run step fuel (step s frame) rest

/-- Process the complete frames of a buffer, of which each takes something. -/
def consume (step : σ → List α → σ) (s : σ) (buf : List α) : σ × List α :=
  f.run step buf.length s buf

variable {f}

/-- A frame that was cut off is complete. -/
theorem cut_eq_some {buf frame rest : List α} (h : f.cut buf = some (frame, rest)) :
    f.frameLen buf = some frame.length ∧ buf = frame ++ rest := by
  rw [cut] at h
  split at h
  · cases h
  · next n hlen =>
    obtain ⟨hle, heq⟩ := Option.ite_none_left_eq_some.mp h
    cases heq
    have hframe : (buf.take n).length = n := List.length_take_of_le (by omega)
    exact ⟨by rw [hframe, hlen], (List.take_append_drop n buf).symm⟩

/-- What is left behind a frame is shorter. -/
theorem length_lt_of_cut {buf frame rest : List α} (h : f.cut buf = some (frame, rest)) :
    rest.length < buf.length := by
  obtain ⟨hlen, rfl⟩ := cut_eq_some h
  have hpos := f.pos hlen
  rw [List.length_append]
  omega

/-- A complete frame is cut off whatever follows. -/
theorem cut_append {buf frame rest : List α} (h : f.cut buf = some (frame, rest))
    (more : List α) : f.cut (buf ++ more) = some (frame, rest ++ more) := by
  obtain ⟨hlen, rfl⟩ := cut_eq_some h
  rw [cut, f.stable more hlen]
  dsimp only
  have hle : ¬ (frame ++ rest ++ more).length < frame.length := by
    rw [List.length_append, List.length_append]
    omega
  rw [if_neg hle, List.append_assoc, List.take_left, List.drop_left]

/-- A buffer that is a complete frame is cut in front of what follows. -/
theorem cut_frame {frame : List α} (h : f.frameLen frame = some frame.length) (more : List α) :
    f.cut (frame ++ more) = some (frame, more) := by
  have hcut : f.cut frame = some (frame, []) := by
    rw [cut, h]
    simp only [Nat.lt_irrefl, if_false, List.take_length, List.drop_length]
  exact cut_append hcut more

section Consume

variable (f)
variable (step : σ → List α → σ)

/-- There is nothing to process in an empty buffer. -/
theorem run_nil (fuel : ℕ) (s : σ) : f.run step fuel s [] = (s, []) := by
  cases fuel with
  | zero => rfl
  | succ fuel =>
    rw [run]
    split
    · rfl
    · next frame rest hcut => exact absurd (length_lt_of_cut hcut) (Nat.not_lt_zero _)

/-- Fuel that covers the buffer is enough. -/
theorem run_eq_run {fuel more : ℕ} {buf : List α} (hfuel : buf.length ≤ fuel)
    (hmore : buf.length ≤ more) (s : σ) : f.run step fuel s buf = f.run step more s buf := by
  induction fuel generalizing more buf s with
  | zero =>
    have hnil : buf = [] := List.length_eq_zero_iff.mp (by omega)
    rw [hnil, f.run_nil, f.run_nil]
  | succ fuel ih =>
    cases more with
    | zero =>
      have hnil : buf = [] := List.length_eq_zero_iff.mp (by omega)
      rw [hnil, f.run_nil, f.run_nil]
    | succ more =>
      rw [run, run]
      split
      · rfl
      · next frame rest hcut =>
        have hlt := length_lt_of_cut hcut
        exact ih (by omega) (by omega) _

/-- Processing stops at an incomplete frame. -/
theorem consume_of_cut_none {buf : List α} (h : f.cut buf = none) (s : σ) :
    f.consume step s buf = (s, buf) := by
  rw [consume]
  cases buf.length with
  | zero => rfl
  | succ fuel => rw [run, h]

/-- A complete frame is processed first. -/
theorem consume_of_cut_some {buf frame rest : List α} (h : f.cut buf = some (frame, rest))
    (s : σ) : f.consume step s buf = f.consume step (step s frame) rest := by
  have hlt := length_lt_of_cut h
  rw [consume, f.run_eq_run step (Nat.le_refl _) (Nat.le_succ _), run, h]
  exact f.run_eq_run step (by omega) (Nat.le_refl _) _

/-- What arrives later is processed as if it had been there at once. -/
theorem consume_append (s : σ) (buf more : List α) :
    f.consume step s (buf ++ more) =
      f.consume step (f.consume step s buf).1 ((f.consume step s buf).2 ++ more) := by
  induction hlen : buf.length using Nat.strong_induction_on generalizing buf s with
  | _ n ih =>
    cases hcut : f.cut buf with
    | none => rw [f.consume_of_cut_none step hcut]
    | some cutOff =>
      obtain ⟨frame, rest⟩ := cutOff
      have hlt := length_lt_of_cut hcut
      rw [f.consume_of_cut_some step hcut, f.consume_of_cut_some step (cut_append hcut more)]
      exact ih rest.length (by omega) _ rest rfl

/-- A stream of complete frames is processed frame by frame, and nothing is left. -/
theorem consume_flatten {frames : List (List α)}
    (h : ∀ frame ∈ frames, f.frameLen frame = some frame.length) (s : σ) :
    f.consume step s frames.flatten = (frames.foldl step s, []) := by
  induction frames generalizing s with
  | nil => rfl
  | cons frame frames ih =>
    rw [List.flatten_cons,
      f.consume_of_cut_some step (cut_frame (h frame List.mem_cons_self) frames.flatten),
      ih fun other hmem => h other (List.mem_cons_of_mem _ hmem), List.foldl_cons]

/-- A view of the state that every frame respects, processing respects. -/
theorem consume_map {τ : Type*} (step' : τ → List α → τ) (g : σ → τ)
    (h : ∀ s frame, g (step s frame) = step' (g s) frame) (s : σ) (buf : List α) :
    f.consume step' (g s) buf = (g (f.consume step s buf).1, (f.consume step s buf).2) := by
  induction hlen : buf.length using Nat.strong_induction_on generalizing buf s with
  | _ n ih =>
    cases hcut : f.cut buf with
    | none => rw [f.consume_of_cut_none step hcut, f.consume_of_cut_none step' hcut]
    | some cutOff =>
      obtain ⟨frame, rest⟩ := cutOff
      have hlt := length_lt_of_cut hcut
      rw [f.consume_of_cut_some step hcut, f.consume_of_cut_some step' hcut, ← h]
      exact ih rest.length (by omega) _ rest rfl

/-- What every frame preserves, processing preserves. -/
theorem consume_induction {P : σ → Prop} (h : ∀ s frame, P s → P (step s frame)) {s : σ}
    (hs : P s) (buf : List α) : P (f.consume step s buf).1 := by
  induction hlen : buf.length using Nat.strong_induction_on generalizing buf s with
  | _ n ih =>
    cases hcut : f.cut buf with
    | none => rwa [f.consume_of_cut_none step hcut]
    | some cutOff =>
      obtain ⟨frame, rest⟩ := cutOff
      have hlt := length_lt_of_cut hcut
      rw [f.consume_of_cut_some step hcut]
      exact ih rest.length (by omega) (h s frame hs) rest rfl

/-- The complete frames of a buffer. -/
def frames (buf : List α) : List (List α) :=
  (f.consume (fun acc frame => acc ++ [frame]) [] buf).1

/-- To process a buffer is to process its frames in turn. -/
theorem consume_frames (s : σ) (buf : List α) :
    (f.consume step s buf).1 = (f.frames buf).foldl step s := by
  have hmap := f.consume_map (fun acc frame => acc ++ [frame]) step
    (fun acc : List (List α) => acc.foldl step s) (fun acc frame => by
      rw [List.foldl_append, List.foldl_cons, List.foldl_nil]) [] buf
  exact congrArg Prod.fst hmap

/-- The frames of a longer buffer are those of its front, and more. -/
theorem frames_append (buf more : List α) : f.frames buf <+: f.frames (buf ++ more) := by
  unfold frames
  rw [f.consume_append]
  generalize (f.consume _ [] buf).1 = acc
  rw [f.consume_frames]
  generalize f.frames _ = behind
  induction behind generalizing acc with
  | nil => exact List.prefix_rfl
  | cons frame rest ih => exact (List.prefix_append acc [frame]).trans (ih _)

end Consume

end Framer
end Macrdp.Framing
