import Mathlib.Logic.Function.Basic
import Macrdp.StepSystem

/-!
# Closures for the runloop thread

Closures that are submitted are put into a queue, and a thread with a runloop takes the whole queue
and runs it each time its source fires. The thread is spawned by the first submission, which it
meets when it has published its queue. What is expected is that every closure runs once, on one
thread, and in the order in which a thread submits them.
-/

namespace Macrdp.RunloopThread

open StepSystem

/-! ## The threads -/

/-- A closure: the thread that submits it, and how many it had submitted before. -/
structure Job where
  thread : ℕ
  number : ℕ
  deriving DecidableEq

/-- Where a thread with a runloop is. -/
inductive Phase where
  | starting
  /-- The queue is published, and the thread waits for the one that spawned it. -/
  | sending
  | pumping
  /-- The source has fired. -/
  | fired
  /-- The published queue was found, here that of a runloop. -/
  | draining (published : ℕ)
  | running (jobs : List Job)
  deriving DecidableEq

/-- A thread with a runloop, its queue and whether its source is signalled. -/
structure Runloop where
  queue : List Job
  signalled : Bool
  phase : Phase
  deriving DecidableEq

/-- A thread that was just spawned. -/
def Runloop.new : Runloop := ⟨[], false, .starting⟩

/-- The closures that were taken from a queue and not run yet. -/
def Runloop.taken (r : Runloop) : List Job :=
  match r.phase with
  | .running jobs => jobs
  | _ => []

/-- Whether a runloop runs what its source has fired for. -/
def Runloop.performing (r : Runloop) : Bool :=
  match r.phase with
  | .starting | .sending | .pumping => false
  | _ => true

/-- Where a submission is. -/
inductive Progress where
  | idle
  /-- Nothing was published. -/
  | unset
  /-- A thread was spawned. -/
  | waiting (k : ℕ)
  | found (k : ℕ)
  /-- The closure is in the queue. -/
  | pushed (k : ℕ)
  deriving DecidableEq

/-- The runloop that a submission has to do with. -/
def Progress.runloop : Progress → Option ℕ
  | .idle | .unset => none
  | .waiting k | .found k | .pushed k => some k

/-- Whether a submission has its closure still. -/
def Progress.holds : Progress → Bool
  | .idle | .pushed _ => false
  | .unset | .waiting _ | .found _ => true

/-- A thread that submits closures: how many it has submitted, and put into a queue. -/
structure Caller where
  submitted : ℕ
  pushes : ℕ
  progress : Progress
  deriving DecidableEq

/-- A closure that was run, and the runloop. -/
structure Ran where
  job : Job
  runloop : ℕ
  deriving DecidableEq

/-- All threads, and which runloop is the published one. -/
structure System where
  state : Option ℕ
  runloops : List Runloop
  callers : ℕ → Caller
  ran : List Ran

/-- Nothing is submitted yet. -/
def System.initial : System := ⟨none, [], fun _ => ⟨0, 0, .idle⟩, []⟩

/-- A step of a thread that submits, or of one with a runloop. -/
inductive Action where
  /-- A submission looks for the published queue. -/
  | look (i : ℕ)
  | spawn (i : ℕ)
  | set (k : ℕ)
  /-- A spawned thread and the one that waits for it meet. -/
  | send (k i : ℕ)
  | push (i : ℕ)
  | signal (i : ℕ)
  | fire (k : ℕ)
  | get (k : ℕ)
  | take (k : ℕ)
  | runJob (k : ℕ)
  | finish (k : ℕ)

namespace System

/-- Change what a runloop has. -/
def modify (s : System) (k : ℕ) (f : Runloop → Runloop) : System :=
  { s with runloops := s.runloops.modify k f }

/-- Change where a runloop is. -/
def moveTo (s : System) (k : ℕ) (phase : Phase) : System :=
  s.modify k fun r => { r with phase := phase }

/-- Change what a submitting thread has. -/
def put (s : System) (i : ℕ) (c : Caller) : System :=
  { s with callers := Function.update s.callers i c }

/-- The phase of a runloop. -/
def phase (s : System) (k : ℕ) : Option Phase := s.runloops[k]?.map Runloop.phase

/-- One step; `none` if it cannot happen. -/
def step (s : System) : Action → Option System
  | .look i =>
    let c := s.callers i
    if c.progress = .idle then
      some (s.put i { c with
        submitted := c.submitted + 1
        progress := s.state.elim .unset .found })
    else none
  | .spawn i =>
    let c := s.callers i
    if c.progress = .unset then
      some ({ s with runloops := s.runloops ++ [Runloop.new] }.put i
        { c with progress := .waiting s.runloops.length })
    else none
  | .set k =>
    if s.phase k = some .starting then
      some ({ s with state := s.state.or (some k) }.moveTo k .sending)
    else none
  | .send k i =>
    let c := s.callers i
    if s.phase k = some .sending ∧ c.progress = .waiting k then
      some ((s.moveTo k .pumping).put i { c with progress := .found k })
    else none
  | .push i =>
    let c := s.callers i
    match c.progress with
    | .found k =>
      some ((s.modify k fun r => { r with queue := r.queue ++ [Job.mk i c.pushes] }).put i
        { c with pushes := c.pushes + 1, progress := .pushed k })
    | _ => none
  | .signal i =>
    let c := s.callers i
    match c.progress with
    | .pushed k =>
      some ((s.modify k fun r => { r with signalled := true }).put i { c with progress := .idle })
    | _ => none
  | .fire k => s.runloops[k]?.bind fun r =>
    if r.phase = .pumping ∧ r.signalled = true then
      some (s.modify k fun r => { r with signalled := false, phase := .fired })
    else none
  | .get k =>
    if s.phase k = some .fired then some (s.moveTo k (s.state.elim .pumping .draining)) else none
  | .take k => (s.phase k).bind fun
    | .draining published => s.runloops[published]?.map fun r =>
      (s.modify published fun r => { r with queue := [] }).moveTo k (.running r.queue)
    | _ => none
  | .runJob k => (s.phase k).bind fun
    | .running (job :: rest) =>
      some { s.moveTo k (.running rest) with ran := s.ran ++ [⟨job, k⟩] }
    | _ => none
  | .finish k => if s.phase k = some (.running []) then some (s.moveTo k .pumping) else none

end System

/-! ## What is expected -/

/-- No submission is under way, no source is signalled and no runloop performs. -/
def System.Quiet (s : System) : Prop :=
  (∀ i, (s.callers i).progress = .idle) ∧
    ∀ r ∈ s.runloops, r.signalled = false ∧ r.performing = false

/-- A closure was submitted. -/
def System.Submitted (s : System) (j : Job) : Prop :=
  j.number < (s.callers j.thread).submitted

/-- Two closures are not of one thread, or in its order. -/
def InOrder (j j' : Job) : Prop := j.thread = j'.thread → j.number < j'.number

/-- No closure has run twice, all have run when nothing is under way, they ran on one thread, and
those of one thread in its order. -/
structure Kept (s : System) : Prop where
  once : (s.ran.map Ran.job).Nodup
  complete : s.Quiet → ∀ j, s.Submitted j → j ∈ s.ran.map Ran.job
  oneThread : ∀ r ∈ s.ran, ∀ r' ∈ s.ran, r.runloop = r'.runloop
  ordered : (s.ran.map Ran.job).Pairwise InOrder

/-- Whether a step spawns a thread. -/
def Action.spawns : Action → Bool
  | .spawn _ => true
  | _ => false

/-- A thread is spawned only if none was. -/
def Sole (s : System) (a : Action) : Prop := a.spawns = true → s.runloops = []

instance (s : System) (a : Action) : Decidable (Sole s a) :=
  inferInstanceAs (Decidable (a.spawns = true → s.runloops = []))

/-! ## The line of closures -/

variable {s s' t : System} {a : Action} {acts : List Action}

/-- The closures that were put into the queue of a runloop and not run yet. -/
def Runloop.pending (r : Runloop) : List Job := r.taken ++ r.queue

/-- The closures that were put into queues: run, taken and queued. -/
def System.line (s : System) : List Job :=
  s.ran.map Ran.job ++ s.runloops.flatMap Runloop.pending

/-- A submission knows of the one runloop, and its thread's closures are counted. -/
structure Caller.Sound (spawned : Bool) (c : Caller) : Prop where
  counted : c.submitted = c.pushes + if c.progress.holds then 1 else 0
  known : ∀ k, c.progress.runloop = some k → k = 0 ∧ spawned = true

/-- A runloop that is past its start has published its queue, and only that is drained. -/
structure Runloop.Sound (state : Option ℕ) (r : Runloop) : Prop where
  published : r.phase ≠ .starting → state ≠ none
  drained : ∀ k, r.phase = .draining k → k = 0

/-- The queue of a runloop will be looked at: its source is signalled or has fired, or a submission
is about to signal it. -/
def Runloop.Awaited (callers : ℕ → Caller) (r : Runloop) : Prop :=
  r.queue ≠ [] → r.signalled = true ∨ r.phase = .fired ∨ (∃ k, r.phase = .draining k) ∨
    ∃ i k, (callers i).progress = .pushed k

/-- There is one runloop at most, and the line has every closure that was put into its queue, in the
order of its thread. -/
structure Inv (s : System) : Prop where
  single : s.runloops.length ≤ 1
  state : ∀ k, s.state = some k → k = 0 ∧ s.runloops ≠ []
  callers : ∀ i, (s.callers i).Sound (!s.runloops.isEmpty)
  runloops : ∀ r ∈ s.runloops, r.Sound s.state
  awaited : ∀ r ∈ s.runloops, r.Awaited s.callers
  whole : ∀ j, j ∈ s.line ↔ j.number < (s.callers j.thread).pushes
  ordered : s.line.Pairwise InOrder
  oneThread : ∀ r ∈ s.ran, r.runloop = 0

variable {k i : ℕ} {r : Runloop}

/-- The runloop that a step is about is the only one. -/
theorem Inv.only (h : Inv s) (hk : s.runloops[k]? = some r) : k = 0 ∧ s.runloops = [r] := by
  obtain ⟨hlt, hget⟩ := List.getElem?_eq_some_iff.mp hk
  have hsingle := h.single
  have hzero : k = 0 := by omega
  have hlength : s.runloops.length = 1 := by omega
  obtain ⟨only, honly⟩ := List.length_eq_one_iff.mp hlength
  subst hzero
  simp only [honly, List.getElem_cons_zero] at hget
  rw [honly, hget]
  exact ⟨rfl, rfl⟩

/-- There is a runloop that a submission knows of. -/
theorem Inv.known (h : Inv s) (hk : (s.callers i).progress.runloop = some k) :
    k = 0 ∧ ∃ r, s.runloops = [r] := by
  obtain ⟨hzero, hspawned⟩ := (h.callers i).known k hk
  cases hrunloops : s.runloops with
  | nil =>
    rw [hrunloops] at hspawned
    exact Bool.noConfusion hspawned
  | cons r rest =>
    have hsingle := h.single
    rw [hrunloops, List.length_cons] at hsingle
    have hrest : rest = [] := List.length_eq_zero_iff.mp (by omega)
    exact ⟨hzero, r, by rw [hrest]⟩

/-- The line with one runloop. -/
theorem line_single (hr : s.runloops = [r]) : s.line = s.ran.map Ran.job ++ r.pending := by
  rw [System.line, hr, List.flatMap_singleton]

/-- A step of the runloop that keeps its line of closures. -/
theorem Inv.replace (h : Inv s) {r' : Runloop} {state : Option ℕ} {ran : List Ran}
    (hr : s.runloops = [r]) (hstate : state = s.state ∨ state = some 0)
    (hran : ∀ x ∈ ran, x.runloop = 0)
    (hline : ran.map Ran.job ++ r'.pending = s.ran.map Ran.job ++ r.pending)
    (hsound : r'.Sound state) (hawaited : r.Awaited s.callers → r'.Awaited s.callers) :
    Inv { s with runloops := [r'], state := state, ran := ran } := by
  have hmem : r ∈ s.runloops := hr ▸ List.mem_singleton.mpr rfl
  have hsame : System.line { s with runloops := [r'], state := state, ran := ran } = s.line := by
    rw [line_single hr, line_single rfl]
    exact hline
  constructor
  · exact Nat.le_refl 1
  · intro k hk
    refine ⟨?_, List.cons_ne_nil r' []⟩
    cases hstate with
    | inl hsame => exact (h.state k (hsame ▸ hk)).1
    | inr hzero => exact (Option.some.inj (hzero.symm.trans hk)).symm
  · have hcallers := h.callers
    rw [hr] at hcallers
    exact hcallers
  · intro x hx
    rw [List.mem_singleton.mp hx]
    exact hsound
  · intro x hx
    rw [List.mem_singleton.mp hx]
    exact hawaited (h.awaited r hmem)
  · rw [hsame]
    exact h.whole
  · rw [hsame]
    exact h.ordered
  · exact hran

/-- What held of all callers holds after a change of one, if it holds of that one. -/
theorem forall_put {c : Caller} {P : Caller → Prop} (hold : ∀ j, P (s.callers j))
    (hc : P c) (j : ℕ) : P ((s.put i c).callers j) := by
  by_cases hj : j = i
  · subst hj
    simp only [System.put, Function.update_self]
    exact hc
  · simp only [System.put, Function.update_of_ne hj]
    exact hold j

/-- A step of a submission that leaves the queue alone. -/
theorem Inv.put (h : Inv s) {c : Caller} (hpushes : c.pushes = (s.callers i).pushes)
    (hsound : c.Sound (!s.runloops.isEmpty))
    (hearlier : (∀ k, (s.callers i).progress ≠ .pushed k) ∨ ∀ r ∈ s.runloops, r.signalled = true) :
    Inv (s.put i c) := by
  constructor
  · exact h.single
  · exact h.state
  · exact forall_put h.callers hsound
  · exact h.runloops
  · intro r hr hqueue
    cases hearlier with
    | inr hsignalled => exact .inl (hsignalled r hr)
    | inl hearlier =>
      refine (h.awaited r hr hqueue).imp_right (Or.imp_right (Or.imp_right ?_))
      rintro ⟨j, k, hj⟩
      have hne : j ≠ i := by
        intro hji
        exact hearlier k (hji ▸ hj)
      refine ⟨j, k, ?_⟩
      simp only [System.put, Function.update_of_ne hne]
      exact hj
  · intro j
    refine (h.whole j).trans ?_
    by_cases hj : j.thread = i
    · subst hj
      simp only [System.put, Function.update_self, hpushes]
    · simp only [System.put, Function.update_of_ne hj]
  · exact h.ordered
  · exact h.oneThread

/-- A change of the one runloop. -/
theorem Inv.modify_eq (h : Inv s) (hk : s.runloops[k]? = some r)
    (f : Runloop → Runloop) : s.modify k f = { s with runloops := [f r] } := by
  obtain ⟨hzero, hr⟩ := h.only hk
  subst hzero
  rw [System.modify, hr]
  rfl

/-- A runloop whose phase is known. -/
theorem phase_some {phase : Phase} (h : s.phase k = some phase) :
    ∃ r, s.runloops[k]? = some r ∧ r.phase = phase := Option.map_eq_some_iff.mp h

/-- The runloop has its queue and what it has taken, if it moves. -/
theorem Inv.moveTo (h : Inv s) {phase : Phase} {state : Option ℕ}
    (hk : s.runloops[k]? = some r) (hstate : state = s.state ∨ state = some 0)
    (htaken : r.taken = []) (hphase : Runloop.taken { r with phase := phase } = [])
    (hsound : Runloop.Sound state { r with phase := phase })
    (hawaited : r.Awaited s.callers → Runloop.Awaited s.callers { r with phase := phase }) :
    Inv ({ s with state := state }.moveTo k phase) := by
  obtain ⟨hzero, hr⟩ := h.only hk
  have hnew : ({ s with state := state } : System).moveTo k phase =
      { s with runloops := [{ r with phase := phase }], state := state, ran := s.ran } := by
    subst hzero
    rw [System.moveTo, System.modify, hr]
    rfl
  rw [hnew]
  refine h.replace hr hstate h.oneThread ?_ hsound hawaited
  rw [Runloop.pending, Runloop.pending, htaken, hphase]

theorem Inv.look (h : Inv s) (hs : s.step (.look i) = some s') : Inv s' := by
  obtain ⟨hidle, hs⟩ := Option.ite_none_right_eq_some.mp hs
  rw [Option.some.injEq] at hs
  rw [← hs]
  have hcounted := (h.callers i).counted
  rw [hidle] at hcounted
  refine h.put rfl ?_ (.inl fun k hk => Progress.noConfusion (hidle.symm.trans hk))
  cases hstate : s.state with
  | none =>
    refine ⟨?_, fun k hk => absurd hk.symm (Option.some_ne_none k)⟩
    exact congrArg (· + 1) hcounted
  | some k =>
    obtain ⟨hzero, hne⟩ := h.state k hstate
    refine ⟨congrArg (· + 1) hcounted, ?_⟩
    intro k' hk
    rw [← Option.some.inj hk]
    refine ⟨hzero, ?_⟩
    rw [Bool.not_eq_true', List.isEmpty_eq_false_iff]
    exact hne

theorem Inv.spawn (h : Inv s) (hnone : s.runloops = [])
    (hs : s.step (.spawn i) = some s') : Inv s' := by
  obtain ⟨hunset, hs⟩ := Option.ite_none_right_eq_some.mp hs
  rw [Option.some.injEq] at hs
  rw [← hs]
  have hcounted := (h.callers i).counted
  rw [hunset] at hcounted
  have hline : System.line { s with runloops := [Runloop.new] } = s.line := by
    rw [System.line, System.line, hnone]
    rfl
  have hspawned : Inv { s with runloops := [Runloop.new] } := by
    constructor
    · exact Nat.le_refl 1
    · exact fun k hk => absurd hnone (h.state k hk).2
    · intro j
      refine ⟨(h.callers j).counted, fun k hk => ?_⟩
      exact ⟨((h.callers j).known k hk).1, rfl⟩
    · intro r hr
      rw [List.mem_singleton.mp hr]
      exact ⟨fun hne => absurd rfl hne, fun k hk => Phase.noConfusion hk⟩
    · intro r hr
      rw [List.mem_singleton.mp hr]
      exact fun hne => absurd rfl hne
    · rw [hline]
      exact h.whole
    · rw [hline]
      exact h.ordered
    · exact h.oneThread
  rw [hnone]
  refine hspawned.put rfl ⟨hcounted, ?_⟩
    (.inl fun k hk => Progress.noConfusion (hunset.symm.trans hk))
  intro k hk
  exact ⟨(Option.some.inj hk).symm, rfl⟩

theorem Inv.set (h : Inv s) (hs : s.step (.set k) = some s') : Inv s' := by
  obtain ⟨hstarting, hs⟩ := Option.ite_none_right_eq_some.mp hs
  rw [Option.some.injEq] at hs
  obtain ⟨r, hk, hphase⟩ := phase_some hstarting
  obtain ⟨hzero, -⟩ := h.only hk
  rw [← hs]
  have hstate : s.state.or (some k) = s.state ∨ s.state.or (some k) = some 0 := by
    cases hstate : s.state with
    | none => exact .inr (congrArg some hzero)
    | some k' => exact .inl rfl
  refine h.moveTo hk hstate ?_ rfl ⟨fun _ => ?_, fun k' hk' => Phase.noConfusion hk'⟩ ?_
  · rw [Runloop.taken, hphase]
  · cases s.state with
    | none => exact Option.some_ne_none k
    | some k' => exact Option.some_ne_none k'
  · intro hawaited hqueue
    refine (hawaited hqueue).imp_right fun hlater => ?_
    rw [hphase] at hlater
    refine .inr (.inr ?_)
    simpa using hlater

theorem Inv.send (h : Inv s) (hs : s.step (.send k i) = some s') : Inv s' := by
  obtain ⟨⟨hsending, hwaiting⟩, hs⟩ := Option.ite_none_right_eq_some.mp hs
  rw [Option.some.injEq] at hs
  obtain ⟨r, hk, hphase⟩ := phase_some hsending
  obtain ⟨hzero, hr⟩ := h.only hk
  have hmem : r ∈ s.runloops := List.mem_of_getElem? hk
  rw [← hs]
  have hmoved : Inv (s.moveTo k .pumping) := by
    refine h.moveTo hk (.inl rfl) ?_ rfl ⟨fun _ => ?_, fun k' hk' => Phase.noConfusion hk'⟩ ?_
    · rw [Runloop.taken, hphase]
    · exact (h.runloops r hmem).published (by rw [hphase]; exact Phase.noConfusion)
    · intro hawaited hqueue
      refine (hawaited hqueue).imp_right fun hlater => ?_
      rw [hphase] at hlater
      refine .inr (.inr ?_)
      simpa using hlater
  refine hmoved.put rfl ?_ (.inl fun k' hk' => Progress.noConfusion (hwaiting.symm.trans hk'))
  have hcounted := (h.callers i).counted
  rw [hwaiting] at hcounted
  refine ⟨hcounted, fun k' hk' => ⟨(Option.some.inj hk').symm.trans hzero, ?_⟩⟩
  rw [System.moveTo, h.modify_eq hk]
  rfl

theorem Inv.signal (h : Inv s) (hs : s.step (.signal i) = some s') : Inv s' := by
  rw [System.step] at hs
  split at hs
  next k hpushed =>
    obtain ⟨hzero, r, hr⟩ := h.known (i := i) (k := k) (by rw [hpushed]; rfl)
    have hk : s.runloops[k]? = some r := by
      rw [hzero, hr]
      rfl
    rw [Option.some.injEq] at hs
    rw [← hs, h.modify_eq hk]
    have hmem : r ∈ s.runloops := List.mem_of_getElem? hk
    have hsound := h.runloops r hmem
    have hsignalled : Inv { s with runloops := [{ r with signalled := true }] } :=
      h.replace hr (.inl rfl) h.oneThread rfl ⟨hsound.published, hsound.drained⟩
        fun _ _ => .inl rfl
    have hcounted := (h.callers i).counted
    rw [hpushed] at hcounted
    refine hsignalled.put rfl
      ⟨hcounted, fun k hk => absurd hk.symm (Option.some_ne_none k)⟩ (.inr ?_)
    intro x hx
    rw [List.mem_singleton.mp hx]
  next => cases hs

theorem Inv.push (h : Inv s) (hs : s.step (.push i) = some s') : Inv s' := by
  rw [System.step] at hs
  split at hs
  next k hfound =>
    obtain ⟨hzero, r, hr⟩ := h.known (i := i) (k := k) (by rw [hfound]; rfl)
    have hk : s.runloops[k]? = some r := by
      rw [hzero, hr]
      rfl
    rw [Option.some.injEq] at hs
    rw [← hs, h.modify_eq hk]
    generalize hc : s.callers i = c at hfound
    have hsound := h.runloops r (List.mem_of_getElem? hk)
    have hcounted := (h.callers i).counted
    rw [hc, hfound] at hcounted
    have hline : System.line (System.put
        { s with runloops := [{ r with queue := r.queue ++ [Job.mk i c.pushes] }] } i
        { c with pushes := c.pushes + 1, progress := .pushed k }) =
        s.line ++ [Job.mk i c.pushes] := by
      rw [line_single hr, line_single rfl]
      simp only [Runloop.pending, System.put, List.append_assoc]
      rfl
    have hpushes : ∀ j ∈ s.line, j.thread = i → j.number < c.pushes := by
      intro j hj hthread
      have hlt := (h.whole j).mp hj
      rw [hthread, hc] at hlt
      exact hlt
    constructor
    · exact Nat.le_refl 1
    · exact fun k hk => ⟨(h.state k hk).1, List.cons_ne_nil _ _⟩
    · refine forall_put (fun j => ⟨(h.callers j).counted, fun k hk => ?_⟩) ⟨hcounted, ?_⟩
      · exact ⟨((h.callers j).known k hk).1, rfl⟩
      · exact fun k' hk' => ⟨(Option.some.inj hk').symm.trans hzero, rfl⟩
    · intro x hx
      rw [List.mem_singleton.mp hx]
      exact ⟨hsound.published, hsound.drained⟩
    · intro x _ _
      refine .inr (.inr (.inr ⟨i, k, ?_⟩))
      simp only [System.put, Function.update_self]
    · intro j
      rw [hline, List.mem_append, List.mem_singleton, h.whole j]
      by_cases hj : j.thread = i
      · have hsame : j = Job.mk i c.pushes ↔ j.number = c.pushes := by
          rw [← hj]
          exact ⟨fun heq => congrArg Job.number heq, fun heq => by rw [← heq]⟩
        rw [hsame, hj, hc]
        simp only [System.put, Function.update_self]
        omega
      · have hne : j ≠ Job.mk i c.pushes := fun heq => hj (congrArg Job.thread heq)
        simp only [System.put, Function.update_of_ne hj, hne, or_false]
    · rw [hline]
      refine List.pairwise_append.mpr ⟨h.ordered, List.pairwise_singleton _ _, ?_⟩
      intro j hj j' hj'
      rw [List.mem_singleton.mp hj']
      exact hpushes j hj
    · exact h.oneThread
  next => cases hs

theorem Inv.fire (h : Inv s) (hs : s.step (.fire k) = some s') : Inv s' := by
  obtain ⟨r, hk, hs⟩ := Option.bind_eq_some_iff.mp hs
  obtain ⟨⟨hphase, -⟩, hs⟩ := Option.ite_none_right_eq_some.mp hs
  rw [Option.some.injEq] at hs
  rw [← hs, h.modify_eq hk]
  have hsound := h.runloops r (List.mem_of_getElem? hk)
  refine h.replace (h.only hk).2 (.inl rfl) h.oneThread ?_
    ⟨fun _ => ?_, fun k hk => Phase.noConfusion hk⟩ fun _ _ => .inr (.inl rfl)
  · simp only [Runloop.pending, Runloop.taken, hphase]
  · exact hsound.published (by rw [hphase]; exact Phase.noConfusion)

theorem Inv.get (h : Inv s) (hs : s.step (.get k) = some s') : Inv s' := by
  obtain ⟨hfired, hs⟩ := Option.ite_none_right_eq_some.mp hs
  rw [Option.some.injEq] at hs
  obtain ⟨r, hk, hphase⟩ := phase_some hfired
  have hpublished := (h.runloops r (List.mem_of_getElem? hk)).published
    (by rw [hphase]; exact Phase.noConfusion)
  rw [← hs]
  cases hstate : s.state with
  | none => exact absurd hstate hpublished
  | some g =>
    have hdraining : Inv (s.moveTo k (.draining g)) := by
      refine h.moveTo hk (.inl rfl) (by rw [Runloop.taken, hphase]) rfl ⟨fun _ => hpublished, ?_⟩ ?_
      · exact fun k' hk' => Phase.draining.inj hk' ▸ (h.state g hstate).1
      · exact fun _ _ => .inr (.inr (.inl ⟨g, rfl⟩))
    exact hdraining

theorem Inv.take (h : Inv s) (hs : s.step (.take k) = some s') : Inv s' := by
  obtain ⟨phase, hdraining, hs⟩ := Option.bind_eq_some_iff.mp hs
  obtain ⟨r, hk, hphase⟩ := phase_some hdraining
  obtain ⟨hzero, hr⟩ := h.only hk
  have hsound := h.runloops r (List.mem_of_getElem? hk)
  split at hs
  next g =>
    have hg : g = 0 := hsound.drained g hphase
    subst hg hzero
    rw [hk, Option.map_some, Option.some.injEq] at hs
    rw [← hs, h.modify_eq hk]
    have hnew : Inv { s with runloops := [{ r with queue := [], phase := .running r.queue }] } := by
      refine h.replace hr (.inl rfl) h.oneThread ?_
        ⟨fun _ => hsound.published (by rw [hphase]; exact Phase.noConfusion),
          fun k hk => Phase.noConfusion hk⟩ fun _ hne => absurd rfl hne
      simp only [Runloop.pending, Runloop.taken, hphase, List.append_nil, List.nil_append]
    exact hnew
  next => cases hs

theorem Inv.runJob (h : Inv s) (hs : s.step (.runJob k) = some s') : Inv s' := by
  obtain ⟨phase, hrunning, hs⟩ := Option.bind_eq_some_iff.mp hs
  obtain ⟨r, hk, hphase⟩ := phase_some hrunning
  obtain ⟨hzero, hr⟩ := h.only hk
  have hsound := h.runloops r (List.mem_of_getElem? hk)
  split at hs
  next job rest =>
    rw [Option.some.injEq] at hs
    rw [← hs, System.moveTo, h.modify_eq hk]
    refine h.replace hr (.inl rfl) ?_ ?_
      ⟨fun _ => hsound.published (by rw [hphase]; exact Phase.noConfusion),
        fun k hk => Phase.noConfusion hk⟩ ?_
    · intro x hx
      cases List.mem_append.mp hx with
      | inl hold => exact h.oneThread x hold
      | inr hnew =>
        rw [List.mem_singleton.mp hnew]
        exact hzero
    · simp only [Runloop.pending, Runloop.taken, hphase, List.map_append, List.map_cons,
        List.map_nil, List.append_assoc, List.cons_append, List.nil_append]
    · intro hawaited hqueue
      refine (hawaited hqueue).imp_right fun hlater => .inr (.inr ?_)
      rw [hphase] at hlater
      simpa using hlater
  next => cases hs

theorem Inv.finish (h : Inv s) (hs : s.step (.finish k) = some s') : Inv s' := by
  obtain ⟨hrunning, hs⟩ := Option.ite_none_right_eq_some.mp hs
  rw [Option.some.injEq] at hs
  obtain ⟨r, hk, hphase⟩ := phase_some hrunning
  have hsound := h.runloops r (List.mem_of_getElem? hk)
  rw [← hs]
  refine h.moveTo hk (.inl rfl) (by rw [Runloop.taken, hphase]) rfl
    ⟨fun _ => hsound.published (by rw [hphase]; exact Phase.noConfusion),
      fun k hk => Phase.noConfusion hk⟩ ?_
  intro hawaited hqueue
  refine (hawaited hqueue).imp_right fun hlater => .inr (.inr ?_)
  rw [hphase] at hlater
  simpa using hlater

/-- Every step keeps the line if a thread is spawned only when none was. -/
theorem Inv.step (h : Inv s) (hsole : Sole s a) (hs : s.step a = some s') : Inv s' := by
  cases a with
  | look i => exact h.look hs
  | spawn i => exact h.spawn (hsole rfl) hs
  | set k => exact h.set hs
  | send k i => exact h.send hs
  | push i => exact h.push hs
  | signal i => exact h.signal hs
  | fire k => exact h.fire hs
  | get k => exact h.get hs
  | take k => exact h.take hs
  | runJob k => exact h.runJob hs
  | finish k => exact h.finish hs

theorem inv_initial : Inv .initial := by
  constructor
  · exact Nat.zero_le 1
  · exact fun k hk => absurd hk.symm (Option.some_ne_none k)
  · exact fun i => ⟨rfl, fun k hk => absurd hk.symm (Option.some_ne_none k)⟩
  · exact fun r hr => absurd hr List.not_mem_nil
  · exact fun r hr => absurd hr List.not_mem_nil
  · exact fun j => ⟨fun hj => absurd hj List.not_mem_nil, fun hj => absurd hj (Nat.not_lt_zero _)⟩
  · exact List.Pairwise.nil
  · exact fun r hr => absurd hr List.not_mem_nil

/-! ## What the line comes to -/

/-- When nothing is under way, no closure is left in the runloop. -/
theorem Inv.quiet_pending (h : Inv s) (hquiet : s.Quiet) (hr : r ∈ s.runloops) :
    r.pending = [] := by
  obtain ⟨hsignalled, hperforming⟩ := hquiet.2 r hr
  have htaken : r.taken = [] := by
    rw [Runloop.taken]
    split
    next jobs hphase =>
      rw [Runloop.performing, hphase] at hperforming
      exact Bool.noConfusion hperforming
    next => rfl
  have hqueue : r.queue = [] := by
    by_contra hne
    cases h.awaited r hr hne with
    | inl hyes => exact Bool.noConfusion (hyes.symm.trans hsignalled)
    | inr hlater =>
      rw [Runloop.performing] at hperforming
      rcases hlater with hfired | ⟨k, hdraining⟩ | ⟨i, k, hpushed⟩
      · rw [hfired] at hperforming
        exact Bool.noConfusion hperforming
      · rw [hdraining] at hperforming
        exact Bool.noConfusion hperforming
      · exact Progress.noConfusion ((hquiet.1 i).symm.trans hpushed)
  rw [Runloop.pending, htaken, hqueue]
  rfl

/-- When nothing is under way, every closure has run. -/
theorem Inv.complete (h : Inv s) (hquiet : s.Quiet) {j : Job} (hj : s.Submitted j) :
    j ∈ s.ran.map Ran.job := by
  have hpushed : j.number < (s.callers j.thread).pushes := by
    have hcounted := (h.callers j.thread).counted
    rw [hquiet.1 j.thread] at hcounted
    exact Nat.lt_of_lt_of_eq hj hcounted
  have hline := (h.whole j).mpr hpushed
  rw [System.line, List.mem_append] at hline
  cases hline with
  | inl hran => exact hran
  | inr hpending =>
    obtain ⟨r, hr, hj⟩ := List.mem_flatMap.mp hpending
    rw [h.quiet_pending hquiet hr] at hj
    exact absurd hj List.not_mem_nil

/-- Closures that are in the order of their threads are different. -/
theorem nodup_of_inOrder {jobs : List Job} (h : jobs.Pairwise InOrder) : jobs.Nodup := by
  refine h.imp ?_
  intro j j' hordered heq
  have hlt := hordered (congrArg Job.thread heq)
  rw [heq] at hlt
  exact Nat.lt_irrefl _ hlt

theorem Inv.kept (h : Inv s) : Kept s := by
  have hordered := (List.pairwise_append.mp h.ordered).1
  constructor
  · exact nodup_of_inOrder hordered
  · exact fun hquiet j hj => h.complete hquiet hj
  · exact fun r hr r' hr' => (h.oneThread r hr).trans (h.oneThread r' hr').symm
  · exact hordered

/-! ## Whole runs -/

/-- For any number of threads that submit and every order of the steps: when a thread is spawned
only if none was, no closure has run twice in any state, all have run when nothing is under way,
all ran on one thread, and those of one thread in its order. -/
theorem kept_of_sole {before : List Action} (hmeets : Meets System.step Sole .initial acts)
    (hbefore : before <+: acts) (hrun : run System.step .initial before = some t) : Kept t := by
  obtain ⟨rest, hrest⟩ := hbefore
  rw [← hrest] at hmeets
  have hfirst := ((meets_append before rest _).mp hmeets).1
  exact (run_invariant Inv (fun s a s' h hsole hs => h.step hsole hs) inv_initial hfirst hrun).kept

/-- What a submission does that finds the queue published. -/
def submission (i : ℕ) : List Action := [.look i, .push i, .signal i]

/-- What a runloop does when its source fires and one closure is queued. -/
def performance (k : ℕ) : List Action := [.fire k, .get k, .take k, .runJob k, .finish k]

/-- A first submission and two of another thread. -/
def inTurn : List Action :=
  [.look 0, .spawn 0, .set 0, .send 0 0, .push 0, .signal 0] ++ submission 1 ++
    [.fire 0, .get 0, .take 0, .runJob 0] ++ submission 1 ++ [.runJob 0, .finish 0] ++
    performance 0

theorem kept_of_sole_inTurn :
    ∃ t, run System.step .initial inTurn = some t ∧
      t.ran.map Ran.job = [⟨0, 0⟩, ⟨1, 0⟩, ⟨1, 1⟩] ∧ Kept t := by
  have hmeets : meetsBool System.step (fun s a => decide (Sole s a)) .initial inTurn = true := by
    decide
  have hsole := meetsBool_iff.mp hmeets
  simp only [decide_eq_true_eq] at hsole
  exact ⟨_, rfl, by decide, kept_of_sole hsole (List.prefix_refl inTurn) rfl⟩

/-- Two first submissions at once. -/
def atOnce : List Action :=
  [.look 0, .look 1, .spawn 0, .spawn 1, .set 0, .set 1, .send 0 0, .send 1 1, .push 0, .push 1,
    .signal 0, .signal 1] ++ performance 0 ++ [.fire 1, .get 1, .take 1, .finish 1]

theorem not_always_run :
    ¬ ∀ (acts : List Action) (t : System), run System.step .initial acts = some t → Kept t := by
  intro h
  have hidle : ∀ t, run System.step .initial atOnce = some t → t.Quiet := by
    intro t ht
    cases ht
    refine ⟨fun i => ?_, by decide⟩
    rcases i with _ | _ | i
    · rfl
    · rfl
    · rfl
  have hran := (h atOnce _ rfl).complete (hidle _ rfl) ⟨1, 0⟩ Nat.one_pos
  exact absurd hran (by decide)

end Macrdp.RunloopThread
