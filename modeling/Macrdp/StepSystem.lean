import Mathlib.Data.List.Basic

/-!
# Runs of partial step functions

A machine is a partial step function from a state and an action to the next
state; a refused action (a disabled transition, or a panic of the modelled
program) ends the run. Invariants are proved once for one step and lifted to
whole runs here, for unrestricted runs and for runs whose every step meets a
condition on the state it is taken in.
-/

namespace Macrdp.StepSystem

variable {σ α : Type*}

/-- Carry a state through a list of actions, stopping at the first refusal. -/
def run (step : σ → α → Option σ) : σ → List α → Option σ
  | s, [] => some s
  | s, a :: rest => (step s a).bind fun s' => run step s' rest

/-- Every action of the run is taken in a state that meets the condition. -/
def Meets (step : σ → α → Option σ) (cond : σ → α → Prop) : σ → List α → Prop
  | _, [] => True
  | s, a :: rest => cond s a ∧ ∀ s', step s a = some s' → Meets step cond s' rest

@[simp] theorem run_nil (step : σ → α → Option σ) (s : σ) : run step s [] = some s := rfl

variable {step : σ → α → Option σ} {s t : σ}

/-- A run that takes an action took one step and then the remaining run. -/
theorem run_cons_some {a : α} {rest : List α} :
    run step s (a :: rest) = some t ↔ ∃ s', step s a = some s' ∧ run step s' rest = some t := by
  simp only [run, Option.bind_eq_some_iff]

/-- A run is a fold. -/
theorem run_eq_foldlM (step : σ → α → Option σ) (s : σ) (acts : List α) :
    run step s acts = acts.foldlM step s := by
  induction acts generalizing s with
  | nil => rfl
  | cons a rest ih =>
    simp only [run, ih, List.foldlM_cons]
    rfl

/-- Runs compose along concatenation of their action lists. -/
theorem run_append (first second : List α) (s : σ) :
    run step s (first ++ second) = (run step s first).bind fun t => run step t second := by
  induction first generalizing s with
  | nil => rfl
  | cons a rest ih =>
    simp only [List.cons_append, run]
    cases step s a with
    | none => rfl
    | some s' => exact ih s'

variable {cond : σ → α → Prop}

/-- A conditioned run splits at any point into two conditioned runs. -/
theorem meets_append (first second : List α) (s : σ) :
    Meets step cond s (first ++ second) ↔
      Meets step cond s first ∧ ∀ t, run step s first = some t → Meets step cond t second := by
  induction first generalizing s with
  | nil => simp [Meets]
  | cons a rest ih =>
    simp only [List.cons_append, Meets, run_cons_some, and_assoc]
    refine and_congr_right fun _ => ?_
    constructor
    · intro h
      refine ⟨fun s' hs' => ((ih s').mp (h s' hs')).1, ?_⟩
      rintro t ⟨s', hs', ht⟩
      exact ((ih s').mp (h s' hs')).2 t ht
    · rintro ⟨hrest, hsecond⟩ s' hs'
      exact (ih s').mpr ⟨hrest s' hs', fun t ht => hsecond t ⟨s', hs', ht⟩⟩

variable {acts : List α}

/-- An invariant preserved by every conditioned step holds at the end of
every conditioned run. -/
theorem run_invariant (Inv : σ → Prop)
    (hstep : ∀ s a s', Inv s → cond s a → step s a = some s' → Inv s')
    (hinit : Inv s) (hmeets : Meets step cond s acts)
    (hrun : run step s acts = some t) : Inv t := by
  induction acts generalizing s with
  | nil =>
    cases hrun
    exact hinit
  | cons a rest ih =>
    obtain ⟨s', hs', hrest⟩ := run_cons_some.mp hrun
    exact ih (hstep s a s' hinit hmeets.1 hs') (hmeets.2 s' hs') hrest

/-- Every run meets the trivial condition. -/
theorem meets_true (step : σ → α → Option σ) (s : σ) (acts : List α) :
    Meets step (fun _ _ => True) s acts := by
  induction acts generalizing s with
  | nil => trivial
  | cons a rest ih => exact ⟨trivial, fun s' _ => ih s'⟩

/-- A condition on the actions alone is met by a run whose actions all meet it. -/
theorem meets_of_forall {cond : α → Prop}
    (h : ∀ a ∈ acts, cond a) (s : σ) : Meets step (fun _ a => cond a) s acts := by
  induction acts generalizing s with
  | nil => trivial
  | cons a rest ih =>
    exact ⟨h a List.mem_cons_self, fun s' _ => ih (fun b hb => h b (List.mem_cons_of_mem a hb)) s'⟩

/-- An invariant preserved by every step holds at the end of every run. -/
theorem run_invariant_of_step (Inv : σ → Prop)
    (hstep : ∀ s a s', Inv s → step s a = some s' → Inv s')
    (hinit : Inv s) (hrun : run step s acts = some t) : Inv t :=
  run_invariant Inv (fun s a s' hi _ h => hstep s a s' hi h) hinit (meets_true step s acts) hrun

/-- A weaker condition is met by the same runs. -/
theorem Meets.mono {cond' : σ → α → Prop}
    (hcond : ∀ s a, cond s a → cond' s a) (h : Meets step cond s acts) :
    Meets step cond' s acts := by
  induction acts generalizing s with
  | nil => trivial
  | cons a rest ih => exact ⟨hcond s a h.1, fun s' hs' => ih (h.2 s' hs')⟩

/-- A run that meets two conditions meets both at every step. -/
theorem Meets.and {cond' : σ → α → Prop}
    (h : Meets step cond s acts) (h' : Meets step cond' s acts) :
    Meets step (fun s a => cond s a ∧ cond' s a) s acts := by
  induction acts generalizing s with
  | nil => trivial
  | cons a rest ih => exact ⟨⟨h.1, h'.1⟩, fun s' hs' => ih (h.2 s' hs') (h'.2 s' hs')⟩

/-- Every step of a conditioned run is good if an invariant that the conditioned steps
keep makes it so. -/
theorem Meets.of_invariant {good : σ → α → Prop} (Inv : σ → Prop)
    (hstep : ∀ s a s', Inv s → cond s a → step s a = some s' → Inv s')
    (hgood : ∀ s a, Inv s → cond s a → good s a) (hinit : Inv s)
    (hmeets : Meets step cond s acts) : Meets step good s acts := by
  induction acts generalizing s with
  | nil => trivial
  | cons a rest ih =>
    refine ⟨hgood s a hinit hmeets.1, fun s' hs' => ?_⟩
    exact ih (hstep s a s' hinit hmeets.1 hs') (hmeets.2 s' hs')

variable {first second : σ → α → Prop}

/-- Two properties that are the same under an invariant of the conditioned steps, which the steps
that meet them keep, are met by the same conditioned runs. -/
theorem Meets.congr (Inv : σ → Prop) (hiff : ∀ s a, Inv s → cond s a → (first s a ↔ second s a))
    (hstep : ∀ s a s', Inv s → cond s a → second s a → step s a = some s' → Inv s')
    (hinit : Inv s) (hmeets : Meets step cond s acts) :
    Meets step first s acts ↔ Meets step second s acts := by
  induction acts generalizing s with
  | nil => exact Iff.rfl
  | cons a rest ih =>
    have hsame := hiff s a hinit hmeets.1
    constructor
    · rintro ⟨hfirst, hrest⟩
      have hsecond := hsame.mp hfirst
      exact ⟨hsecond, fun s' hs' =>
        (ih (hstep s a s' hinit hmeets.1 hsecond hs') (hmeets.2 s' hs')).mp (hrest s' hs')⟩
    · rintro ⟨hsecond, hrest⟩
      exact ⟨hsame.mpr hsecond, fun s' hs' =>
        (ih (hstep s a s' hinit hmeets.1 hsecond hs') (hmeets.2 s' hs')).mpr (hrest s' hs')⟩

/-- Two properties of the steps that are the same under an invariant of the conditioned steps
are met by the same conditioned runs. -/
theorem Meets.iff_of_invariant
    (Inv : σ → Prop) (hstep : ∀ s a s', Inv s → cond s a → step s a = some s' → Inv s')
    (hiff : ∀ s a, Inv s → cond s a → (first s a ↔ second s a))
    (hinit : Inv s) (hmeets : Meets step cond s acts) :
    Meets step first s acts ↔ Meets step second s acts :=
  Meets.congr Inv hiff (fun s a s' hi hc _ h => hstep s a s' hi hc h) hinit hmeets

/-- Two properties of the steps that are the same under an invariant, which the steps that meet
them keep, are met by the same runs. -/
theorem meets_congr (Inv : σ → Prop) (hiff : ∀ s a, Inv s → (first s a ↔ second s a))
    (hstep : ∀ s a s', Inv s → second s a → step s a = some s' → Inv s')
    (hinit : Inv s) : Meets step first s acts ↔ Meets step second s acts :=
  Meets.congr Inv (fun s a hi _ => hiff s a hi) (fun s a s' hi _ h => hstep s a s' hi h) hinit
    (meets_true step s acts)

variable {Inv Good : σ → Prop}

/-- A property that a step keeps exactly if it meets a condition holds all along a run of
allowed actions exactly when every step meets the condition. -/
theorem prefixes_iff_meets_of_iff (allowed : α → Prop)
    (hinv : ∀ s a s', Inv s → step s a = some s' → Inv s')
    (hiff : ∀ s a s', allowed a → Inv s → Good s → step s a = some s' → (Good s' ↔ cond s a))
    (hs : Inv s) (hg : Good s) (hrun : run step s acts = some t)
    (hallowed : ∀ a ∈ acts, allowed a) :
    (∀ before u, before <+: acts → run step s before = some u → Good u) ↔
      Meets step cond s acts := by
  induction acts generalizing s with
  | nil =>
    refine ⟨fun _ => trivial, ?_⟩
    rintro - before u hpre hu
    cases List.prefix_nil.mp hpre
    cases hu
    exact hg
  | cons a rest ih =>
    obtain ⟨s', hs', hrest⟩ := run_cons_some.mp hrun
    have hinv' := hinv s a s' hs hs'
    have hallowed' : ∀ b ∈ rest, allowed b := fun b hb => hallowed b (List.mem_cons_of_mem a hb)
    have hkeeps : Good s' ↔ cond s a := hiff s a s' (hallowed a List.mem_cons_self) hs hg hs'
    constructor
    · intro h
      have hg' : Good s' := h [a] s' (by simp) (run_cons_some.mpr ⟨s', hs', rfl⟩)
      refine ⟨hkeeps.mp hg', fun x hx => ?_⟩
      rw [hs', Option.some.injEq] at hx
      rw [← hx]
      refine (ih hinv' hg' hrest hallowed').mp fun before u hpre hu => ?_
      exact h (a :: before) u (List.cons_prefix_cons.mpr ⟨rfl, hpre⟩)
        (run_cons_some.mpr ⟨s', hs', hu⟩)
    · rintro ⟨ha, hmeets⟩ before u hpre hu
      have hg' : Good s' := hkeeps.mpr ha
      cases before with
      | nil =>
        cases hu
        exact hg
      | cons b before =>
        obtain ⟨rfl, htail⟩ := List.cons_prefix_cons.mp hpre
        obtain ⟨x, hx, hu⟩ := run_cons_some.mp hu
        rw [hs', Option.some.injEq] at hx
        rw [← hx] at hu
        exact (ih hinv' hg' hrest hallowed').mpr (hmeets s' hs') before u htail hu

/-- A property whose loss shows right after the step that violates a condition holds all
along a run of allowed actions exactly when every step meets the condition. -/
theorem prefixes_iff_meets_of_allowed (allowed : α → Prop)
    (hinv : ∀ s a s', Inv s → step s a = some s' → Inv s')
    (hgood : ∀ s a s', allowed a → Inv s → Good s → cond s a → step s a = some s' → Good s')
    (hcond : ∀ s a s', Inv s → step s a = some s' → Good s' → cond s a)
    (hs : Inv s) (hg : Good s) (hrun : run step s acts = some t)
    (hallowed : ∀ a ∈ acts, allowed a) :
    (∀ before u, before <+: acts → run step s before = some u → Good u) ↔
      Meets step cond s acts :=
  prefixes_iff_meets_of_iff allowed hinv
    (fun s a s' ha hi hg h =>
      ⟨fun hg' => hcond s a s' hi h hg', fun hc => hgood s a s' ha hi hg hc h⟩)
    hs hg hrun hallowed

/-- A property whose loss shows right after the step that violates a condition
holds all along a run exactly when every step meets the condition. -/
theorem prefixes_iff_meets (hinv : ∀ s a s', Inv s → step s a = some s' → Inv s')
    (hgood : ∀ s a s', Inv s → Good s → cond s a → step s a = some s' → Good s')
    (hcond : ∀ s a s', Inv s → step s a = some s' → Good s' → cond s a)
    (hs : Inv s) (hg : Good s) (hrun : run step s acts = some t) :
    (∀ before u, before <+: acts → run step s before = some u → Good u) ↔
      Meets step cond s acts :=
  prefixes_iff_meets_of_allowed (fun _ => True) hinv (fun s a s' _ => hgood s a s') hcond hs hg
    hrun fun _ _ => trivial

/-- An invariant of a state and the actions that led to it holds at the end of every run. -/
theorem run_history (Inv : List α → σ → Prop)
    (hstep : ∀ past s a s', Inv past s → step s a = some s' → Inv (past ++ [a]) s')
    (hinit : Inv [] s) (hrun : run step s acts = some t) : Inv acts t := by
  have hpast : ∀ (acts past : List α) (s : σ), Inv past s → run step s acts = some t →
      Inv (past ++ acts) t := by
    intro acts
    induction acts with
    | nil =>
      intro past s hinv hrun
      cases hrun
      rw [List.append_nil]
      exact hinv
    | cons a rest ih =>
      intro past s hinv hrun
      obtain ⟨s', hs', hrest⟩ := run_cons_some.mp hrun
      have hend := ih (past ++ [a]) s' (hstep past s a s' hinv hs') hrest
      rw [List.append_assoc] at hend
      exact hend
  exact hpast acts [] s hinit hrun

/-- What the steps of a run put out, in order. -/
def outputs {β : Type*} (step : σ → α → Option σ) (out : σ → α → Option β) : σ → List α → List β
  | _, [] => []
  | s, a :: rest => (out s a).toList ++ ((step s a).map fun s' => outputs step out s' rest).getD []

/-- A run puts out what its first part does, and then what the rest does. -/
theorem outputs_append {β : Type*} {out : σ → α → Option β}
    {first : List α} (hrun : run step s first = some t) (second : List α) :
    outputs step out s (first ++ second) = outputs step out s first ++ outputs step out t second := by
  induction first generalizing s with
  | nil =>
    cases hrun
    rfl
  | cons a rest ih =>
    obtain ⟨s', hs', hrest⟩ := run_cons_some.mp hrun
    simp only [List.cons_append, outputs, hs', Option.map_some, Option.getD_some, ih hrest,
      List.append_assoc]

/-- Steps that an invariant enables and that keep it make up a whole run. -/
theorem run_progress (Inv : σ → Prop) (acts : List α)
    (hstep : ∀ s, ∀ a ∈ acts, Inv s → ∃ s', step s a = some s' ∧ Inv s') (hinit : Inv s) :
    ∃ t, run step s acts = some t ∧ Inv t ∧ Meets step (fun s _ => Inv s) s acts := by
  induction acts generalizing s with
  | nil => exact ⟨s, rfl, hinit, trivial⟩
  | cons a rest ih =>
    obtain ⟨s', hs', hinv⟩ := hstep s a List.mem_cons_self hinit
    obtain ⟨t, hrun, ht, hmeets⟩ := ih (fun s b hb => hstep s b (List.mem_cons_of_mem _ hb)) hinv
    refine ⟨t, run_cons_some.mpr ⟨s', hs', hrun⟩, ht, hinit, ?_⟩
    intro u hu
    rw [hs', Option.some.injEq] at hu
    rw [← hu]
    exact hmeets

/-- A run is refused exactly if some step of it is, where an invariant that the steps keep says
when a step is refused. -/
theorem run_isSome_iff_meets (Inv : σ → Prop)
    (hiff : ∀ s, ∀ a ∈ acts, Inv s → ((step s a).isSome = true ↔ cond s a))
    (hstep : ∀ s, ∀ a ∈ acts, ∀ s', Inv s → step s a = some s' → Inv s')
    (hinit : Inv s) : (run step s acts).isSome = true ↔ Meets step cond s acts := by
  induction acts generalizing s with
  | nil => exact ⟨fun _ => trivial, fun _ => rfl⟩
  | cons a rest ih =>
    have hfirst := hiff s a List.mem_cons_self hinit
    have hrest : ∀ s', step s a = some s' →
        ((run step s' rest).isSome = true ↔ Meets step cond s' rest) := fun s' hs' =>
      ih (fun t b hb => hiff t b (List.mem_cons_of_mem a hb))
        (fun t b hb => hstep t b (List.mem_cons_of_mem a hb))
        (hstep s a List.mem_cons_self s' hinit hs')
    rw [run, Meets, ← hfirst]
    cases hs : step s a with
    | none => simp
    | some s' => simpa [hs] using hrest s' hs

/-- A total step function as a partial one that never refuses. -/
def total (step : σ → α → σ) (s : σ) (a : α) : Option σ := some (step s a)

/-- A run of a total machine is the fold of its actions. -/
theorem run_total (step : σ → α → σ) (s : σ) (acts : List α) :
    run (total step) s acts = some (acts.foldl step s) := by
  induction acts generalizing s with
  | nil => rfl
  | cons a rest ih => exact ih (step s a)

/-- An invariant preserved by every step of a total machine holds after every
list of actions. -/
theorem foldl_invariant {step : σ → α → σ} (Inv : σ → Prop)
    (hstep : ∀ s a, Inv s → Inv (step s a)) (hinit : Inv s) (acts : List α) :
    Inv (acts.foldl step s) := by
  refine run_invariant_of_step Inv ?_ hinit (run_total step s acts)
  intro s a s' hi hs
  cases hs
  exact hstep s a hi

/-- A run of a total machine meets a condition exactly when every state it
takes a step from does. -/
theorem meets_total_iff {step : σ → α → σ} :
    Meets (total step) cond s acts ↔
      ∀ before a, before ++ [a] <+: acts → cond (before.foldl step s) a := by
  induction acts generalizing s with
  | nil => simp [Meets]
  | cons b rest ih =>
    constructor
    · rintro ⟨hb, hrest⟩ before a hpre
      cases before with
      | nil =>
        obtain ⟨rfl, -⟩ := List.cons_prefix_cons.mp hpre
        exact hb
      | cons d before =>
        obtain ⟨rfl, htail⟩ := List.cons_prefix_cons.mp hpre
        exact ih.mp (hrest _ rfl) before a htail
    · intro h
      refine ⟨h [] b (by simp), ?_⟩
      rintro s' ⟨⟩
      exact ih.mpr fun before a hpre =>
        h (b :: before) a (List.cons_prefix_cons.mpr ⟨rfl, hpre⟩)

/-- The decidable form of `Meets`, for evaluating a condition on one run. -/
def meetsBool (step : σ → α → Option σ) (cond : σ → α → Bool) : σ → List α → Bool
  | _, [] => true
  | s, a :: rest => cond s a && match step s a with
    | some s' => meetsBool step cond s' rest
    | none => true

/-- The decidable form agrees with the proposition it evaluates. -/
theorem meetsBool_iff {cond : σ → α → Bool} :
    meetsBool step cond s acts = true ↔ Meets step (fun s a => cond s a = true) s acts := by
  induction acts generalizing s with
  | nil => simp [meetsBool, Meets]
  | cons a rest ih =>
    simp only [meetsBool, Meets, Bool.and_eq_true]
    refine and_congr_right fun _ => ?_
    cases hs : step s a with
    | none => simp
    | some s' => simpa using ih

end Macrdp.StepSystem
