import Macrdp.StepSystem

/-!
# Non-interference of interleaved steps

Some actions of a machine are those of an observer, the others are a
bystander's. The bystander leaves the observer undisturbed when, at every point
of a run, the observer sees what it sees in the run of its own actions alone.
Under the usual unwinding conditions this is the case exactly when no step of the
bystander, in the state it is taken in, changes what is seen.
-/

namespace Macrdp.NonInterference

open StepSystem

variable {σ α ο : Type*}

/-- At every point of the run from the first state, what is seen is what the
observer's own actions show from the second. -/
def Agrees (step : σ → α → Option σ) (observer : α → Bool) (view : σ → ο) (s u : σ)
    (acts : List α) : Prop :=
  ∀ before, before <+: acts → ∀ t, run step s before = some t →
    ∃ v, run step u (before.filter observer) = some v ∧ view t = view v

/-- At every point of a run, what is seen is what the observer's own actions
show. -/
def Undisturbed (step : σ → α → Option σ) (observer : α → Bool) (view : σ → ο) (s : σ)
    (acts : List α) : Prop :=
  Agrees step observer view s s acts

/-- What makes a step condition decide non-interference. -/
structure Unwinding (step : σ → α → Option σ) (observer : α → Bool) (view : σ → ο)
    (Inv : σ → Prop) (cond : σ → α → Prop) : Prop where
  inv : ∀ {s a s'}, Inv s → step s a = some s' → Inv s'
  /-- The observer's step depends on what is seen only. -/
  consistent : ∀ {s u a s'}, observer a = true → Inv s → Inv u → view s = view u →
    step s a = some s' → ∃ u', step u a = some u' ∧ view s' = view u'
  /-- The condition says nothing of the observer's own steps. -/
  own : ∀ {s a}, observer a = true → cond s a
  /-- A bystander's step is seen exactly when it breaks the condition. -/
  seen : ∀ {s a s'}, observer a = false → Inv s → step s a = some s' →
    (view s' = view s ↔ cond s a)

variable {step : σ → α → Option σ} {observer : α → Bool} {view : σ → ο}
variable {s u s' : σ}

/-- Nothing has happened yet. -/
theorem agrees_nil : Agrees step observer view s u [] ↔ view s = view u := by
  constructor
  · intro h
    obtain ⟨v, hv, heq⟩ := h [] (List.prefix_refl []) s rfl
    cases hv
    exact heq
  · rintro heq before hpre t ht
    obtain rfl := List.prefix_nil.mp hpre
    cases ht
    exact ⟨u, rfl, heq⟩

variable {acts rest : List α}

/-- Agreement begins with what is seen at the start. -/
theorem Agrees.start (h : Agrees step observer view s u acts) : view s = view u :=
  agrees_nil.mp fun before hpre => h before (hpre.trans List.nil_prefix)

variable {a : α}

/-- Agreement along a run is agreement along what follows its first step. -/
theorem agrees_cons (hs : step s a = some s') (heq : view s = view u) :
    Agrees step observer view s u (a :: rest) ↔
      ∀ before, before <+: rest → ∀ t, run step s' before = some t →
        ∃ v, run step u ((a :: before).filter observer) = some v ∧ view t = view v := by
  constructor
  · intro h before hpre t ht
    exact h (a :: before) (List.cons_prefix_cons.mpr ⟨rfl, hpre⟩) t
      (run_cons_some.mpr ⟨s', hs, ht⟩)
  · intro h before hpre t ht
    cases before with
    | nil =>
      cases ht
      exact ⟨u, rfl, heq⟩
    | cons b before =>
      obtain ⟨rfl, htail⟩ := List.cons_prefix_cons.mp hpre
      obtain ⟨s'', hs'', hrest⟩ := run_cons_some.mp ht
      rw [hs, Option.some.injEq] at hs''
      rw [← hs''] at hrest
      exact h before htail t hrest

/-- The observer's step is taken on both sides. -/
theorem agrees_cons_observer {u' : σ} (ha : observer a = true)
    (hs : step s a = some s') (hu : step u a = some u') (heq : view s = view u) :
    Agrees step observer view s u (a :: rest) ↔ Agrees step observer view s' u' rest := by
  have hboth : ∀ before : List α,
      run step u ((a :: before).filter observer) = run step u' (before.filter observer) := by
    intro before
    rw [List.filter_cons_of_pos ha, run, hu, Option.bind_some]
  rw [agrees_cons hs heq]
  simp only [hboth, Agrees]

/-- A bystander's step is taken on one side only. -/
theorem agrees_cons_bystander (ha : observer a = false)
    (hs : step s a = some s') (heq : view s = view u) :
    Agrees step observer view s u (a :: rest) ↔ Agrees step observer view s' u rest := by
  have hskip : ∀ before : List α, (a :: before).filter observer = before.filter observer :=
    fun before => List.filter_cons_of_neg (by simp [ha])
  rw [agrees_cons hs heq]
  simp only [hskip, Agrees]

/-- Two states that show the same stay in agreement exactly along the runs whose
every step meets the condition. -/
theorem Unwinding.agrees_iff {Inv : σ → Prop} {cond : σ → α → Prop}
    (h : Unwinding step observer view Inv cond) {t : σ} (hs : Inv s)
    (hu : Inv u) (heq : view s = view u) (hrun : run step s acts = some t) :
    Agrees step observer view s u acts ↔ Meets step cond s acts := by
  induction acts generalizing s u with
  | nil => simp only [agrees_nil, heq, Meets]
  | cons a rest ih =>
    obtain ⟨s', hstep, hrest⟩ := run_cons_some.mp hrun
    have hs' : Inv s' := h.inv hs hstep
    have hmeets : Meets step cond s (a :: rest) ↔ cond s a ∧ Meets step cond s' rest := by
      simp only [Meets, hstep, Option.some.injEq, forall_eq']
    rw [hmeets]
    cases hobs : observer a with
    | true =>
      obtain ⟨u', hstep', heq'⟩ := h.consistent hobs hs hu heq hstep
      rw [agrees_cons_observer hobs hstep hstep' heq, ih hs' (h.inv hu hstep') heq' hrest]
      exact (and_iff_right (h.own hobs)).symm
    | false =>
      rw [agrees_cons_bystander hobs hstep heq]
      constructor
      · intro hagrees
        have heq' : view s' = view u := hagrees.start
        exact ⟨(h.seen hobs hs hstep).mp (heq'.trans heq.symm),
          (ih hs' hu heq' hrest).mp hagrees⟩
      · rintro ⟨hcond, hrest'⟩
        have heq' : view s' = view u := ((h.seen hobs hs hstep).mpr hcond).trans heq
        exact (ih hs' hu heq' hrest).mpr hrest'

/-- The observer of a run is undisturbed exactly when every step of the run meets
the condition. -/
theorem Unwinding.undisturbed_iff {Inv : σ → Prop} {cond : σ → α → Prop}
    (h : Unwinding step observer view Inv cond) {t : σ} (hs : Inv s)
    (hrun : run step s acts = some t) :
    Undisturbed step observer view s acts ↔ Meets step cond s acts :=
  h.agrees_iff hs hs rfl hrun

end Macrdp.NonInterference
