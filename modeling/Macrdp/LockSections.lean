import Macrdp.StepSystem

/-!
# Programs that share a state under a lock

A program takes the lock for one section at a time, and asks its environment in between. Any
number of programs run, and their sections are taken in any order. What a section does to the
shared state is a list of writes.
-/

namespace Macrdp.LockSections

open StepSystem

/-- A program over a state `S` that is written with `W`, which asks `Q` and hears `A`. -/
inductive Program (S W Q A R : Type) where
  | done (r : R)
  /-- The writes of a section, and how the program goes on. -/
  | lock (writes : S → List W) (next : S → Program S W Q A R)
  | ask (q : Q) (next : A → Program S W Q A R)

namespace Program

variable {S W Q A R T : Type}

/-- One program after another. -/
def bind (p : Program S W Q A R) (f : R → Program S W Q A T) : Program S W Q A T :=
  match p with
  | .done r => f r
  | .lock writes next => .lock writes fun s => (next s).bind f
  | .ask q next => .ask q fun a => (next a).bind f

instance : Monad (Program S W Q A) where
  pure := .done
  bind := bind

/-- A section that only reads. -/
def look (f : S → R) : Program S W Q A R := .lock (fun _ => []) fun s => .done (f s)

/-- What is heard. -/
def hear (q : Q) : Program S W Q A A := .ask q .done

/-- A program that runs alone, in an environment that answers from a state of its own. -/
def alone {E : Type} (apply : S → W → S) (answer : Q → E → A × E) :
    Program S W Q A R → S → E → R × S × E
  | .done r, s, e => (r, s, e)
  | .lock writes next, s, e => alone apply answer (next s) ((writes s).foldl apply s) e
  | .ask q next, s, e => alone apply answer (next (answer q e).1) s (answer q e).2

/-- A program runs alone up to the end of its first part, and from there. -/
theorem alone_bind {E : Type} (apply : S → W → S) (answer : Q → E → A × E)
    (p : Program S W Q A R) (f : R → Program S W Q A T) (s : S) (e : E) :
    (p.bind f).alone apply answer s e =
      (f (p.alone apply answer s e).1).alone apply answer (p.alone apply answer s e).2.1
        (p.alone apply answer s e).2.2 := by
  induction p generalizing s e with
  | done r => rfl
  | lock writes next ih => exact ih s _ _
  | ask q next ih => exact ih (answer q e).1 _ _

end Program

section

variable {S W Q A R C : Type}

/-- The shared state, and the programs that were started. -/
structure Pool (S W Q A R : Type) where
  state : S
  programs : List (Program S W Q A R)

/-- A program is started, or one goes on; what it hears if it asks. -/
inductive Act (C A : Type) where
  | start (call : C)
  | turn (i : ℕ) (heard : A)

/-- The writes of a step. -/
def writes (s : Pool S W Q A R) : Act C A → List W
  | .start _ => []
  | .turn i _ =>
    match s.programs[i]? with
    | some (.lock writes _) => writes s.state
    | _ => []

/-- How a program goes on. -/
def next (s : S) (heard : A) : Program S W Q A R → Program S W Q A R
  | .done r => .done r
  | .lock _ next => next s
  | .ask _ next => next heard

/-- One step: sections are taken one at a time. -/
def step (program : C → Program S W Q A R) (apply : S → W → S) (s : Pool S W Q A R)
    (a : Act C A) : Pool S W Q A R where
  state := (writes s a).foldl apply s.state
  programs :=
    match a with
    | .start call => s.programs ++ [program call]
    | .turn i heard => s.programs.modify i (next s.state heard)

/-- What every write keeps, every run keeps. -/
theorem foldl_state (program : C → Program S W Q A R) (apply : S → W → S) (Inv : S → Prop)
    (happly : ∀ s w, Inv s → Inv (apply s w)) {s : Pool S W Q A R} (hs : Inv s.state)
    (acts : List (Act C A)) : Inv (acts.foldl (step program apply) s).state :=
  foldl_invariant (fun s : Pool S W Q A R => Inv s.state)
    (fun _ _ h => foldl_invariant Inv happly h _) hs acts

/-- What every write keeps that meets a condition, every run keeps whose writes all meet it. -/
theorem foldl_state_of_meets (program : C → Program S W Q A R) (apply : S → W → S)
    {cond : S → W → Prop} (Inv : S → Prop) (happly : ∀ s w, Inv s → cond s w → Inv (apply s w))
    {s : Pool S W Q A R} {acts : List (Act C A)} (hs : Inv s.state)
    (hmeets : Meets (total (step program apply))
      (fun s a => Meets (total apply) cond s.state (writes s a)) s acts) :
    Inv (acts.foldl (step program apply) s).state := by
  refine run_invariant (fun s : Pool S W Q A R => Inv s.state) (fun s a s' h hc hs' => ?_) hs
    hmeets (run_total _ _ _)
  cases hs'
  refine run_invariant Inv (fun s w s' h hw hs' => ?_) h hc (run_total _ _ _)
  cases hs'
  exact happly s w h hw

end

end Macrdp.LockSections
