import Mathlib.Algebra.Order.Ring.Nat
import Macrdp.StepSystem

/-!
# Generations of the audio capture

The backends of one factory share a counter. A backend that is started claims the next number for
its capture loop, one that is stopped moves the counter on if its number is still the current one,
and the loops end when the number is no longer theirs. What is expected is that at most one loop
has the current number, that of the last start.
-/

namespace Macrdp.AudioCapture

open StepSystem

/-! ## The capture loops -/

/-- Where a capture loop is: it is set up, about to build its stream, building it, about to wait for
a sample, waiting for one, or over. -/
inductive LoopPhase where
  | starting
  | reconnect
  | building
  | inner
  | capturing
  | ended
  deriving DecidableEq

/-- A capture loop and the number it was given. -/
structure CaptureLoop where
  myGen : UInt64
  phase : LoopPhase
  deriving DecidableEq

/-- What a loop comes to: its setup is done or fails, it looks at the counter, its stream starts or
does not, the stream ends or is to be built anew, a sample is dealt with, or an error ends it. -/
inductive LoopEvent where
  | prepared (ok : Bool)
  | check
  | started (ok : Bool)
  | rebuild
  | sample
  | fail
  deriving DecidableEq

/-- One step of a loop. -/
def CaptureLoop.step (generation : UInt64) (l : CaptureLoop) : LoopEvent → Option CaptureLoop
  | .prepared ok =>
    if l.phase = .starting then some { l with phase := if ok then .reconnect else .ended } else none
  | .check =>
    if l.phase = .reconnect then
      some { l with phase := if generation = l.myGen then .building else .ended }
    else if l.phase = .inner then
      some { l with phase := if generation = l.myGen then .capturing else .ended }
    else none
  | .started ok =>
    if l.phase = .building then some { l with phase := if ok then .inner else .reconnect } else none
  | .rebuild => if l.phase = .capturing then some { l with phase := .reconnect } else none
  | .sample => if l.phase = .capturing then some { l with phase := .inner } else none
  | .fail => if l.phase = .capturing then some { l with phase := .ended } else none

/-! ## The factory -/

/-- The counter, the numbers that the backends claimed last, `0` before their first start, and the
loops in the order of their starts. -/
structure Factory where
  generation : UInt64
  backends : List UInt64
  loops : List CaptureLoop
  deriving DecidableEq

def Factory.new : Factory := ⟨0, [], []⟩

/-- A backend is built, started or stopped, or a loop goes on. -/
inductive Action where
  | build
  | start (b : ℕ)
  | stop (b : ℕ)
  | loop (i : ℕ) (e : LoopEvent)
  deriving DecidableEq

/-- Claim the next number for a new loop. -/
def Factory.start (f : Factory) (b : ℕ) : Factory where
  generation := f.generation + 1
  backends := f.backends.set b (f.generation + 1)
  loops := f.loops ++ [⟨f.generation + 1, .starting⟩]

/-- Move the counter on if the number is the current one. -/
def Factory.stop (f : Factory) (myGen : UInt64) : Factory :=
  if f.generation = myGen then { f with generation := myGen + 1 } else f

/-- One step, with one access to the counter at most. -/
def Factory.step (f : Factory) : Action → Option Factory
  | .build => some { f with backends := f.backends ++ [0] }
  | .start b => if b < f.backends.length then some (f.start b) else none
  | .stop b => f.backends[b]?.map f.stop
  | .loop i e =>
    f.loops[i]?.bind fun l =>
      (l.step f.generation e).map fun l' => { f with loops := f.loops.set i l' }

/-! ## What is expected -/

/-- Whether the factory's owner calls a backend. -/
def Action.isCall : Action → Bool
  | .start _ => true
  | .stop _ => true
  | _ => false

/-- How many calls there were. -/
def calls (acts : List Action) : ℕ := acts.countP Action.isCall

/-- How often backends were started, and the backend of the last start with the place of its loop,
unless the backend was stopped since. -/
structure Account where
  starts : ℕ
  current : Option (ℕ × ℕ)
  deriving DecidableEq

/-- The account after an action. -/
def Account.after (a : Account) : Action → Account
  | .start b => ⟨a.starts + 1, some (b, a.starts)⟩
  | .stop b => { a with current := a.current.filter fun last => last.1 ≠ b }
  | _ => a

/-- The account of what was done. -/
def account (acts : List Action) : Account := acts.foldl Account.after ⟨0, none⟩

/-- The loop of the last start has the current number, unless its backend was stopped since, and no
other loop has it. -/
structure Single (acts : List Action) (f : Factory) : Prop where
  current : ∀ b i, (account acts).current = some (b, i) →
    ∃ l, f.loops[i]? = some l ∧ l.myGen = f.generation
  only : ∀ i l, f.loops[i]? = some l → l.myGen = f.generation →
    ∃ b, (account acts).current = some (b, i)

/-! ## What the numbers say -/

/-- Numbers that were claimed are in the past, the current one is that of the last start, and the
counter has moved on by less than there were calls. -/
structure Inv (acts : List Action) (f : Factory) : Prop where
  counted : f.generation.toNat ≤ calls acts
  starts : f.loops.length = (account acts).starts
  positive : ∀ (i : ℕ) l, f.loops[i]? = some l → 0 < l.myGen.toNat
  past : ∀ (i : ℕ) l, f.loops[i]? = some l → l.myGen.toNat ≤ f.generation.toNat
  claimed : ∀ (b : ℕ) g, f.backends[b]? = some g → g.toNat ≤ f.generation.toNat
  current : ∀ b i, (account acts).current = some (b, i) →
    f.backends[b]? = some f.generation ∧ ∃ l, f.loops[i]? = some l ∧ l.myGen = f.generation
  only : ∀ (i : ℕ) l, f.loops[i]? = some l → l.myGen = f.generation →
    ∃ b, (account acts).current = some (b, i)
  owner : ∀ (b : ℕ) g, f.backends[b]? = some g → g = f.generation → 0 < g.toNat →
    ∃ i, (account acts).current = some (b, i)

variable {acts : List Action} {f f' : Factory}

theorem account_concat (acts : List Action) (a : Action) :
    account (acts ++ [a]) = (account acts).after a := by
  rw [account, account, List.foldl_append]
  rfl

theorem calls_concat (acts : List Action) (a : Action) :
    calls (acts ++ [a]) = calls acts + if a.isCall then 1 else 0 := by
  rw [calls, calls, List.countP_append, List.countP_singleton]

theorem toNat_succ {g : UInt64} (h : g.toNat + 1 < 2 ^ 64) : (g + 1).toNat = g.toNat + 1 := by
  rw [UInt64.toNat_add]
  exact Nat.mod_eq_of_lt h

theorem Inv.new : Inv [] .new where
  counted := Nat.le_refl _
  starts := rfl
  positive := nofun
  past := nofun
  claimed := nofun
  current := nofun
  only := nofun
  owner := nofun

theorem Inv.build (h : Inv acts f) :
    Inv (acts ++ [.build]) { f with backends := f.backends ++ [0] } := by
  have haccount : account (acts ++ [.build]) = account acts := account_concat acts .build
  have hlast : ∀ (b : ℕ) g, (f.backends ++ [0])[b]? = some g → f.backends[b]? = some g ∨ g = 0 := by
    intro b g hg
    rw [List.getElem?_append] at hg
    split at hg
    next => exact .inl hg
    next => exact .inr (List.mem_singleton.mp (List.mem_of_getElem? hg))
  refine ⟨?_, ?_, h.positive, h.past, fun b g hg => ?_, fun b i hb => ?_, ?_, fun b g hg => ?_⟩
  · rw [calls_concat]
    exact h.counted
  · rw [haccount]
    exact h.starts
  · cases hlast b g hg with
    | inl hold => exact h.claimed b g hold
    | inr hnew =>
      rw [hnew]
      exact Nat.zero_le _
  · rw [haccount] at hb
    obtain ⟨hbackend, hloop⟩ := h.current b i hb
    have hlt := (List.getElem?_eq_some_iff.mp hbackend).1
    refine ⟨?_, hloop⟩
    rw [List.getElem?_append_left hlt]
    exact hbackend
  · rw [haccount]
    exact h.only
  · rw [haccount]
    intro heq hpos
    cases hlast b g hg with
    | inl hold => exact h.owner b g hold heq hpos
    | inr hnew =>
      rw [hnew] at hpos
      exact absurd hpos (Nat.lt_irrefl 0)

/-- A start makes its loop the only one with the current number. -/
theorem Inv.start {b : ℕ} (h : Inv acts f) (hb : b < f.backends.length)
    (hcalls : calls (acts ++ [.start b]) < 2 ^ 64) : Inv (acts ++ [.start b]) (f.start b) := by
  have hcount : calls (acts ++ [.start b]) = calls acts + 1 := calls_concat acts (.start b)
  have haccount : account (acts ++ [.start b]) =
      ⟨(account acts).starts + 1, some (b, (account acts).starts)⟩ := account_concat acts (.start b)
  have hle := h.counted
  have hnext : (f.generation + 1).toNat = f.generation.toNat + 1 := toNat_succ (by omega)
  have hloop : ∀ (i : ℕ) l, (f.start b).loops[i]? = some l →
      f.loops[i]? = some l ∨ i = f.loops.length ∧ l = ⟨f.generation + 1, .starting⟩ := by
    intro i l hl
    have hl' : (f.loops ++ [⟨f.generation + 1, .starting⟩])[i]? = some l := hl
    rw [List.getElem?_append] at hl'
    split at hl'
    next => exact .inl hl'
    next hge =>
      have hi := (List.getElem?_eq_some_iff.mp hl').1
      have hmem := List.mem_singleton.mp (List.mem_of_getElem? hl')
      rw [List.length_singleton] at hi
      exact .inr ⟨by omega, hmem⟩
  have hbackend : ∀ (b' : ℕ) g, (f.start b).backends[b']? = some g →
      b' ≠ b ∧ f.backends[b']? = some g ∨ b' = b ∧ g = f.generation + 1 := by
    intro b' g hg
    have hg' : (f.backends.set b (f.generation + 1))[b']? = some g := hg
    by_cases heq : b' = b
    · rw [heq, List.getElem?_set_self hb, Option.some.injEq] at hg'
      exact .inr ⟨heq, hg'.symm⟩
    · rw [List.getElem?_set_ne (Ne.symm heq)] at hg'
      exact .inl ⟨heq, hg'⟩
  constructor
  · have hgeneration : (f.start b).generation.toNat = f.generation.toNat + 1 := hnext
    omega
  · rw [haccount, Factory.start, List.length_append, h.starts]
    rfl
  · intro i l hl
    cases hloop i l hl with
    | inl hold => exact h.positive i l hold
    | inr hnew =>
      rw [hnew.2]
      change 0 < (f.generation + 1).toNat
      omega
  · intro i l hl
    have hgeneration : (f.start b).generation.toNat = f.generation.toNat + 1 := hnext
    cases hloop i l hl with
    | inl hold =>
      have hpast := h.past i l hold
      omega
    | inr hnew =>
      rw [hnew.2]
      exact Nat.le_refl _
  · intro b' g hg
    have hgeneration : (f.start b).generation.toNat = f.generation.toNat + 1 := hnext
    cases hbackend b' g hg with
    | inl hold =>
      have hclaimed := h.claimed b' g hold.2
      omega
    | inr hnew =>
      rw [hnew.2]
      exact Nat.le_refl _
  · intro b' i hcurrent
    rw [haccount, Option.some.injEq, Prod.mk.injEq, ← h.starts] at hcurrent
    rw [← hcurrent.1, ← hcurrent.2]
    refine ⟨List.getElem?_set_self hb, ⟨f.generation + 1, .starting⟩, ?_, rfl⟩
    exact List.getElem?_concat_length
  · intro i l hl heq
    rw [haccount]
    cases hloop i l hl with
    | inl hold =>
      have hpast := h.past i l hold
      have hsame : l.myGen.toNat = (f.generation + 1).toNat := congrArg UInt64.toNat heq
      omega
    | inr hnew => exact ⟨b, by rw [hnew.1, h.starts]⟩
  · intro b' g hg heq _
    rw [haccount]
    cases hbackend b' g hg with
    | inl hold =>
      have hclaimed := h.claimed b' g hold.2
      have hsame : g.toNat = (f.generation + 1).toNat := congrArg UInt64.toNat heq
      omega
    | inr hnew => exact ⟨(account acts).starts, by rw [hnew.1]⟩

/-- A stop moves the counter past the numbers of all loops if the backend has the current one. -/
theorem Inv.stop {b : ℕ} {g : UInt64} (h : Inv acts f) (hg : f.backends[b]? = some g)
    (hcalls : calls (acts ++ [.stop b]) < 2 ^ 64) : Inv (acts ++ [.stop b]) (f.stop g) := by
  have hcount : calls (acts ++ [.stop b]) = calls acts + 1 := calls_concat acts (.stop b)
  have haccount : account (acts ++ [.stop b]) =
      { account acts with current := (account acts).current.filter fun last => last.1 ≠ b } :=
    account_concat acts (.stop b)
  have hle := h.counted
  unfold Factory.stop
  split
  next heq =>
    have hnext : (g + 1).toNat = f.generation.toNat + 1 := by
      rw [← heq]
      exact toNat_succ (by omega)
    have hnone : (account (acts ++ [.stop b])).current = none := by
      rw [haccount]
      cases hcurrent : (account acts).current with
      | none => rfl
      | some last =>
        obtain ⟨hbackend, l, hl, hloop⟩ := h.current last.1 last.2 hcurrent
        have hpos : 0 < g.toNat := by
          have hpositive := h.positive last.2 l hl
          rw [hloop, heq] at hpositive
          exact hpositive
        obtain ⟨i, hi⟩ := h.owner b g hg heq.symm hpos
        rw [hcurrent, Option.some.injEq] at hi
        simp [hi]
    constructor
    · change (g + 1).toNat ≤ _
      omega
    · rw [haccount]
      exact h.starts
    · exact h.positive
    · intro i l hl
      have hpast := h.past i l hl
      change l.myGen.toNat ≤ (g + 1).toNat
      omega
    · intro b' g' hg'
      have hclaimed := h.claimed b' g' hg'
      change g'.toNat ≤ (g + 1).toNat
      omega
    · intro b' i hcurrent
      rw [hnone] at hcurrent
      cases hcurrent
    · intro i l hl hsame
      have hpast := h.past i l hl
      have htoNat : l.myGen.toNat = (g + 1).toNat := congrArg UInt64.toNat hsame
      omega
    · intro b' g' hg' hsame _
      have hclaimed := h.claimed b' g' hg'
      have htoNat : g'.toNat = (g + 1).toNat := congrArg UInt64.toNat hsame
      omega
  next hne =>
    have hsame : (account (acts ++ [.stop b])).current = (account acts).current := by
      rw [haccount]
      cases hcurrent : (account acts).current with
      | none => rfl
      | some last =>
        have hother : last.1 ≠ b := by
          intro heq
          have hbackend := (h.current last.1 last.2 hcurrent).1
          rw [heq, hg, Option.some.injEq] at hbackend
          exact hne hbackend.symm
        simp [hother]
    refine ⟨by omega, ?_, h.positive, h.past, h.claimed, ?_, ?_, ?_⟩
    · rw [haccount]
      exact h.starts
    · rw [hsame]
      exact h.current
    · rw [hsame]
      exact h.only
    · rw [hsame]
      exact h.owner

/-- A loop keeps its number. -/
theorem step_myGen {generation : UInt64} {l l' : CaptureLoop} {e : LoopEvent}
    (hs : l.step generation e = some l') : l'.myGen = l.myGen := by
  cases e with
  | check =>
    rw [CaptureLoop.step] at hs
    split at hs
    next =>
      cases hs
      rfl
    next =>
      rw [Option.ite_none_right_eq_some] at hs
      cases hs.2
      rfl
  | prepared ok | started ok | rebuild | sample | fail =>
    cases (Option.ite_none_right_eq_some.mp hs).2
    rfl

theorem Inv.loop {i : ℕ} {e : LoopEvent} {l l' : CaptureLoop} (h : Inv acts f)
    (hl : f.loops[i]? = some l) (hs : l.step f.generation e = some l') :
    Inv (acts ++ [.loop i e]) { f with loops := f.loops.set i l' } := by
  have haccount : account (acts ++ [.loop i e]) = account acts := account_concat acts (.loop i e)
  have hlt := (List.getElem?_eq_some_iff.mp hl).1
  have hkept : ∀ (j : ℕ) m, (f.loops.set i l')[j]? = some m →
      ∃ m', f.loops[j]? = some m' ∧ m'.myGen = m.myGen := by
    intro j m hm
    by_cases heq : j = i
    · rw [heq, List.getElem?_set_self hlt, Option.some.injEq] at hm
      exact ⟨l, heq ▸ hl, hm ▸ (step_myGen hs).symm⟩
    · rw [List.getElem?_set_ne (Ne.symm heq)] at hm
      exact ⟨m, hm, rfl⟩
  refine ⟨?_, ?_, fun j m hm => ?_, fun j m hm => ?_, h.claimed, fun b j hb => ?_,
    fun j m hm heq => ?_, ?_⟩
  · rw [calls_concat]
    exact h.counted
  · rw [haccount, List.length_set]
    exact h.starts
  · obtain ⟨m', hm', hsame⟩ := hkept j m hm
    exact hsame ▸ h.positive j m' hm'
  · obtain ⟨m', hm', hsame⟩ := hkept j m hm
    exact hsame ▸ h.past j m' hm'
  · rw [haccount] at hb
    obtain ⟨hbackend, m, hm, hgeneration⟩ := h.current b j hb
    refine ⟨hbackend, ?_⟩
    by_cases heq : j = i
    · subst heq
      rw [hl, Option.some.injEq] at hm
      refine ⟨l', List.getElem?_set_self hlt, ?_⟩
      rw [step_myGen hs, hm]
      exact hgeneration
    · exact ⟨m, (List.getElem?_set_ne (Ne.symm heq)).trans hm, hgeneration⟩
  · obtain ⟨m', hm', hsame⟩ := hkept j m hm
    rw [haccount]
    exact h.only j m' hm' (hsame.trans heq)
  · rw [haccount]
    exact h.owner

theorem Inv.step {a : Action} (h : Inv acts f) (hcalls : calls (acts ++ [a]) < 2 ^ 64)
    (hs : f.step a = some f') : Inv (acts ++ [a]) f' := by
  cases a with
  | build =>
    cases hs
    exact h.build
  | start b =>
    obtain ⟨hb, heq⟩ := Option.ite_none_right_eq_some.mp hs
    cases heq
    exact h.start hb hcalls
  | stop b =>
    obtain ⟨g, hg, rfl⟩ := Option.map_eq_some_iff.mp hs
    exact h.stop hg hcalls
  | loop i e =>
    obtain ⟨l, hl, hloop⟩ := Option.bind_eq_some_iff.mp hs
    obtain ⟨l', hl', rfl⟩ := Option.map_eq_some_iff.mp hloop
    exact h.loop hl hl'

/-- There are not fewer calls after more actions. -/
theorem calls_append_le (first second : List Action) : calls first ≤ calls (first ++ second) := by
  rw [calls, calls, List.countP_append]
  exact Nat.le_add_right _ _

/-- The numbers of every run with fewer calls than there are numbers. -/
theorem run_inv (hcalls : calls acts < 2 ^ 64) (hrun : run Factory.step .new acts = some f) :
    Inv acts f := by
  have hhistory : calls acts < 2 ^ 64 → Inv acts f := by
    refine run_history (fun past u => calls past < 2 ^ 64 → Inv past u) ?_ (fun _ => Inv.new) hrun
    intro past u a v ih hs hlt
    exact (ih (Nat.lt_of_le_of_lt (calls_append_le past [a]) hlt)).step hlt hs
  exact hhistory hcalls

/-- The counter only moves on. -/
theorem step_generation_le {a : Action} (h : Inv acts f) (hcalls : calls (acts ++ [a]) < 2 ^ 64)
    (hs : f.step a = some f') : f.generation.toNat ≤ f'.generation.toNat := by
  have hle := h.counted
  have hcount := calls_concat acts a
  cases a with
  | build =>
    cases hs
    exact Nat.le_refl _
  | start b =>
    obtain ⟨hb, heq⟩ := Option.ite_none_right_eq_some.mp hs
    cases heq
    change calls (acts ++ [.start b]) = calls acts + 1 at hcount
    have hnext : (f.generation + 1).toNat = f.generation.toNat + 1 := toNat_succ (by omega)
    exact hnext ▸ Nat.le_succ _
  | stop b =>
    obtain ⟨g, hg, rfl⟩ := Option.map_eq_some_iff.mp hs
    change calls (acts ++ [.stop b]) = calls acts + 1 at hcount
    unfold Factory.stop
    split
    next heq =>
      have hnext : (f.generation + 1).toNat = f.generation.toNat + 1 := toNat_succ (by omega)
      exact heq ▸ hnext ▸ Nat.le_succ _
    next => exact Nat.le_refl _
  | loop i e =>
    obtain ⟨l, hl, hloop⟩ := Option.bind_eq_some_iff.mp hs
    obtain ⟨l', hl', rfl⟩ := Option.map_eq_some_iff.mp hloop
    exact Nat.le_refl _

theorem run_generation_le {first second : List Action}
    (hfirst : run Factory.step .new first = some f) (hcalls : calls (first ++ second) < 2 ^ 64)
    (hrun : run Factory.step f second = some f') :
    f.generation.toNat ≤ f'.generation.toNat := by
  induction second generalizing first f with
  | nil =>
    cases hrun
    exact Nat.le_refl _
  | cons a rest ih =>
    obtain ⟨u, hu, hrest⟩ := run_cons_some.mp hrun
    have hconcat : first ++ a :: rest = (first ++ [a]) ++ rest := by simp
    rw [hconcat] at hcalls
    have hfewer := Nat.lt_of_le_of_lt (calls_append_le (first ++ [a]) rest) hcalls
    have hinv := run_inv (Nat.lt_of_le_of_lt (calls_append_le first [a]) hfewer) hfirst
    have hnext : run Factory.step .new (first ++ [a]) = some u := by
      rw [run_append, hfirst]
      exact run_cons_some.mpr ⟨u, hu, rfl⟩
    exact Nat.le_trans (step_generation_le hinv hfewer hu) (ih hnext hcalls hrest)

/-- With fewer calls than there are numbers, the loop of the last start is the only one with the
current number, unless its backend was stopped since, and a loop goes on from a look at the counter
only if it is that loop. A stop of another backend leaves a loop its number, and a number that was
left does not become the current one again. -/
theorem live_capture_unique {first second third : List Action} {u v t : Factory}
    (hcalls : calls (first ++ second ++ third) < 2 ^ 64)
    (hfirst : run Factory.step .new first = some u) (hsecond : run Factory.step u second = some v)
    (hthird : run Factory.step v third = some t) :
    Single (first ++ second ++ third) t ∧
      (∀ i l l', t.loops[i]? = some l → l.step t.generation .check = some l' → l'.phase ≠ .ended →
        ∃ b, (account (first ++ second ++ third)).current = some (b, i)) ∧
      (∀ (b : ℕ) g, t.backends[b]? = some g →
        (∀ i, (account (first ++ second ++ third)).current ≠ some (b, i)) →
        ∀ (i : ℕ) l, t.loops[i]? = some l → l.myGen = t.generation →
          (t.stop g).generation = l.myGen) ∧
      (v.generation ≠ u.generation → t.generation ≠ u.generation) := by
  have hfewer := Nat.lt_of_le_of_lt (calls_append_le (first ++ second) third) hcalls
  have hmiddle : run Factory.step .new (first ++ second) = some v := by
    rw [run_append, hfirst]
    exact hsecond
  have hend : run Factory.step .new (first ++ second ++ third) = some t := by
    rw [run_append, hmiddle]
    exact hthird
  have hinv := run_inv hcalls hend
  refine ⟨⟨fun b i hb => (hinv.current b i hb).2, hinv.only⟩, fun i l l' hl hs hphase => ?_,
    fun b g hg hother i l hl hlive => ?_, fun hne heq => hne ?_⟩
  · refine hinv.only i l hl ?_
    by_contra hother
    have hended : l'.phase = .ended := by
      rw [CaptureLoop.step] at hs
      split at hs
      next =>
        cases hs
        exact if_neg (Ne.symm hother)
      next =>
        cases (Option.ite_none_right_eq_some.mp hs).2
        exact if_neg (Ne.symm hother)
    exact hphase hended
  · have hne : t.generation ≠ g := by
      intro heq
      have hpos := hinv.positive i l hl
      rw [hlive, heq] at hpos
      obtain ⟨j, hj⟩ := hinv.owner b g hg heq.symm hpos
      exact hother j hj
    rw [Factory.stop, if_neg hne, hlive]
  · have hup := run_generation_le hfirst hfewer hsecond
    have hdown := run_generation_le hmiddle hcalls hthird
    rw [heq] at hdown
    exact UInt64.toNat_inj.mp (Nat.le_antisymm hdown hup)

/-- Two backends, the second of which is started before the first is stopped. -/
def takeover : List Action := [.build, .build, .stop 1, .start 0, .start 1, .stop 0]

/-- The loop of the second is left. -/
theorem live_capture_unique_takeover : ∃ t, run Factory.step .new takeover = some t ∧
    Single takeover t ∧ t.generation = 3 := by
  have hunique := @live_capture_unique takeover [] [] _ _ _ (by decide) rfl rfl rfl
  exact ⟨_, rfl, hunique.1, rfl⟩

end Macrdp.AudioCapture
