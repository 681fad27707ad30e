import Mathlib.Data.Finset.Basic
import Macrdp.PendingReplies
import Macrdp.StepSystem

/-!
# Presenting redirected USB devices

Every announcement of a device, on a channel of its own, starts a task that reads the device's
descriptor, claims the slot of its hardware identity and presents the device behind a virtual
host controller until the channel is closed. Transfers run in tasks of their own, which keep the
controller. A task between two awaits is one step.
-/

namespace Macrdp.UsbPresentation

open StepSystem

/-- The hardware identity of a device, as its descriptor tells it. -/
structure Identity where
  vendorId : UInt16
  productId : UInt16
  deviceRelease : UInt16
  deriving DecidableEq

/-- How far the task of an announcement is. -/
inductive Phase where
  /-- It reads the descriptor. -/
  | fetching
  /-- The descriptor could not be read. -/
  | failed
  /-- The device is presented already. -/
  | skipped
  /-- The controller could not be created. -/
  | unavailable
  /-- The controller is there; the device's configuration is selected. -/
  | configuring
  /-- Transfers are served until the channel is closed. -/
  | serving
  | ended
  deriving DecidableEq

/-- An announcement of a device. -/
structure Announcement where
  identity : Identity
  /-- Its channel is open. -/
  opened : Bool
  phase : Phase
  /-- Transfer tasks that still hold the controller. -/
  transfers : ℕ
  deriving DecidableEq

namespace Announcement

/-- The device is presented. -/
def presents (a : Announcement) : Bool := a.phase = .configuring || a.phase = .serving

/-- The task presents the device or is still to act. -/
def acts (a : Announcement) : Bool := a.presents || a.phase = .fetching

/-- The descriptor was read. -/
def described (a : Announcement) : Bool := !(a.phase = .fetching || a.phase = .failed)

/-- The controller exists: it is destroyed when its last holder drops it. -/
def controller (a : Announcement) : Bool := a.presents || decide (0 < a.transfers)

end Announcement

/-- The announcements so far, and the identities that are presented. -/
structure State where
  announcements : List Announcement
  presentedDevices : Finset Identity

/-- A step of the system. -/
inductive Action where
  | announce (identity : Identity)
  /-- A descriptor was read, or not; the task goes on to its next await. The controller can be
  created, or not. -/
  | describe (i : ℕ) (read created : Bool)
  /-- The configuration was selected, or could not be. -/
  | configure (i : ℕ)
  /-- The kernel raises a transfer. -/
  | transfer (i : ℕ)
  /-- The task of a transfer ends. -/
  | complete (i : ℕ)
  /-- The presentation sees that its channel is closed. -/
  | teardown (i : ℕ)
  | close (i : ℕ)
  deriving DecidableEq

namespace State

/-- Nothing is announced. -/
def new : State := ⟨[], ∅⟩

/-- Replace an announcement. -/
def set (i : ℕ) (a : Announcement) (s : State) : State :=
  { s with announcements := s.announcements.set i a }

/-- The slot of an identity can be claimed. -/
def claimDevice (key : Identity) (s : State) : Option State :=
  if key ∈ s.presentedDevices then none
  else some { s with presentedDevices := insert key s.presentedDevices }

/-- The slot of an identity is free again. -/
def releaseDevice (key : Identity) (s : State) : State :=
  { s with presentedDevices := s.presentedDevices.erase key }

/-- The task of an announcement goes on once its descriptor was read or could not be. -/
def driveDevice (i : ℕ) (a : Announcement) (read created : Bool) (s : State) : State :=
  if read then
    match s.claimDevice a.identity with
    | none => s.set i { a with phase := .skipped }
    | some claimed =>
      if created then claimed.set i { a with phase := .configuring }
      else (claimed.set i { a with phase := .unavailable }).releaseDevice a.identity
  else s.set i { a with phase := .failed }

/-- A step; one that cannot be taken is refused. -/
def step (s : State) : Action → Option State
  | .announce identity =>
    some { s with announcements := s.announcements ++ [⟨identity, true, .fetching, 0⟩] }
  | .describe i read created =>
    (s.announcements[i]?).bind fun a =>
      if a.phase = .fetching then some (s.driveDevice i a read created) else none
  | .configure i =>
    (s.announcements[i]?).bind fun a =>
      if a.phase = .configuring then some (s.set i { a with phase := .serving }) else none
  | .transfer i =>
    (s.announcements[i]?).bind fun a =>
      if a.phase = .serving then some (s.set i { a with transfers := a.transfers + 1 }) else none
  | .complete i =>
    (s.announcements[i]?).bind fun a =>
      if 0 < a.transfers then some (s.set i { a with transfers := a.transfers - 1 }) else none
  | .teardown i =>
    (s.announcements[i]?).bind fun a =>
      if a.phase = .serving ∧ a.opened = false then
        some ((s.set i { a with phase := .ended }).releaseDevice a.identity)
      else none
  | .close i =>
    (s.announcements[i]?).bind fun a =>
      if a.opened = true then some (s.set i { a with opened := false }) else none

/-- No two announcements of an identity have a property. -/
def AtMostOne (p : Announcement → Bool) (s : State) : Prop :=
  ∀ (i j : ℕ) (a b : Announcement), s.announcements[i]? = some a → s.announcements[j]? = some b →
    a.identity = b.identity → p a = true → p b = true → i = j

/-- The slots are held exactly while a presentation runs. -/
def Slotted (s : State) : Prop :=
  ∀ key, key ∈ s.presentedDevices ↔
    ∃ (i : ℕ) (a : Announcement), s.announcements[i]? = some a ∧ a.identity = key ∧
      a.presents = true

/-- While no presentation of an identity runs and no task for it is to act, no channel whose
descriptor was read is open. -/
def Represented (s : State) : Prop :=
  ∀ key, (∀ (i : ℕ) (a : Announcement), s.announcements[i]? = some a → a.identity = key →
      a.acts = false) →
    ∀ (i : ℕ) (a : Announcement), s.announcements[i]? = some a → a.identity = key →
      a.described = true → a.opened = false

/-- One controller for each device, and none that is left out. -/
structure Sound (s : State) : Prop where
  single : s.AtMostOne Announcement.controller
  slotted : s.Slotted
  represented : s.Represented

/-- The announcements but for one. -/
def others (s : State) (i : ℕ) : List Announcement := s.announcements.eraseIdx i

/-- Another announcement of an identity presents it or is still to act. -/
def busy (s : State) (i : ℕ) (key : Identity) : Bool :=
  (s.others i).any fun b => b.identity = key && b.acts

/-- Another channel of an identity is open whose descriptor was read. -/
def stranded (s : State) (i : ℕ) (key : Identity) : Bool :=
  (s.others i).any fun b => b.identity = key && b.described && b.opened

/-- Another announcement's controller for an identity is kept by a transfer. -/
def lingers (s : State) (i : ℕ) (key : Identity) : Bool :=
  (s.others i).any fun b => b.identity = key && decide (0 < b.transfers)

/-- A controller is created when none for its identity is kept by a transfer of an earlier
presentation, and the last task for an identity ends when no other channel is left open. -/
def orderly (s : State) : Action → Bool
  | .describe i read created =>
    match s.announcements[i]? with
    | some a =>
      if read then
        if a.identity ∈ s.presentedDevices then true
        else if created then !s.lingers i a.identity
        else s.busy i a.identity || !s.stranded i a.identity && !a.opened
      else s.busy i a.identity || !s.stranded i a.identity
    | none => true
  | .teardown i =>
    match s.announcements[i]? with
    | some a => s.busy i a.identity || !s.stranded i a.identity
    | none => true
  | _ => true

/-- What is known at any time. -/
structure Inv (s : State) : Prop where
  slotted : s.Slotted
  once : s.AtMostOne Announcement.presents
  /-- A task that does not know its device has no transfers. -/
  idle : ∀ (i : ℕ) (a : Announcement), s.announcements[i]? = some a → a.phase = .fetching →
    a.transfers = 0

variable {s s' : State} {i : ℕ} {a b : Announcement}

/-- The announcements after one was replaced. -/
theorem getElem?_set (hi : s.announcements[i]? = some a)
    (j : ℕ) : (s.announcements.set i b)[j]? = if i = j then some b else s.announcements[j]? := by
  have hlt := (List.getElem?_eq_some_iff.mp hi).1
  rw [List.getElem?_set]
  by_cases hij : i = j
  · rw [if_pos hij, if_pos hij, if_pos (hij ▸ hlt)]
  · rw [if_neg hij, if_neg hij]

/-- Another announcement has a property. -/
theorem any_others {p : Announcement → Bool} :
    (s.others i).any p = true ↔
      ∃ (j : ℕ) (b : Announcement), j ≠ i ∧ s.announcements[j]? = some b ∧ p b = true := by
  simp only [List.any_eq_true, others, List.mem_eraseIdx_iff_getElem?]
  constructor
  · rintro ⟨b, ⟨j, hj, hb⟩, hp⟩
    exact ⟨j, b, hj, hb, hp⟩
  · rintro ⟨j, b, hj, hb, hp⟩
    exact ⟨b, ⟨j, hj, hb⟩, hp⟩

variable {key : Identity}

/-- Another announcement of an identity acts. -/
theorem busy_iff :
    s.busy i key = true ↔ ∃ (j : ℕ) (b : Announcement), j ≠ i ∧ s.announcements[j]? = some b ∧
      b.identity = key ∧ b.acts = true := by
  simp only [busy, any_others, Bool.and_eq_true, decide_eq_true_eq]

/-- Another channel of an identity is left open. -/
theorem stranded_iff :
    s.stranded i key = true ↔ ∃ (j : ℕ) (b : Announcement), j ≠ i ∧
      s.announcements[j]? = some b ∧ b.identity = key ∧ b.described = true ∧ b.opened = true := by
  simp only [stranded, any_others, Bool.and_eq_true, decide_eq_true_eq, and_assoc]

/-- Another controller for an identity is kept by a transfer. -/
theorem lingers_iff :
    s.lingers i key = true ↔ ∃ (j : ℕ) (b : Announcement), j ≠ i ∧
      s.announcements[j]? = some b ∧ b.identity = key ∧ 0 < b.transfers := by
  simp only [lingers, any_others, Bool.and_eq_true, decide_eq_true_eq]

/-- Where every device is represented, one announcement may change if its identity stays in
hand, or none of its channels is left open. -/
theorem represented_set {t : State} (h : s.Represented)
    (hi : s.announcements[i]? = some a) (hkey : b.identity = a.identity)
    (hset : t.announcements = s.announcements.set i b) :
    t.Represented ↔ b.acts = true ∨ s.busy i a.identity = true ∨
      s.stranded i a.identity = false ∧ (b.described = true → b.opened = false) := by
  have hget : ∀ j, t.announcements[j]? = if i = j then some b else s.announcements[j]? := by
    intro j
    rw [hset]
    exact getElem?_set hi j
  have hother : ∀ {j : ℕ}, j ≠ i → t.announcements[j]? = s.announcements[j]? := by
    intro j hj
    rw [hget, if_neg (Ne.symm hj)]
  have hself : t.announcements[i]? = some b := by rw [hget, if_pos rfl]
  constructor
  · intro hnew
    by_cases hacts : b.acts = true
    · exact .inl hacts
    by_cases hbusy : s.busy i a.identity = true
    · exact .inr (.inl hbusy)
    have hidle : ∀ (j : ℕ) (d : Announcement), t.announcements[j]? = some d →
        d.identity = a.identity → d.acts = false := by
      intro j d hd hdkey
      rw [Bool.eq_false_iff]
      intro hdacts
      by_cases hj : j = i
      · rw [hj, hself, Option.some.injEq] at hd
        rw [hd] at hacts
        exact hacts hdacts
      · rw [hother hj] at hd
        exact hbusy (busy_iff.mpr ⟨j, d, hj, hd, hdkey, hdacts⟩)
    refine .inr (.inr ⟨?_, fun hdescribed => hnew a.identity hidle i b hself hkey hdescribed⟩)
    rw [Bool.eq_false_iff]
    intro hstranded
    obtain ⟨j, d, hj, hd, hdkey, hdescribed, hopened⟩ := stranded_iff.mp hstranded
    rw [← hother hj] at hd
    have hclosed := hnew a.identity hidle j d hd hdkey hdescribed
    rw [hopened] at hclosed
    cases hclosed
  · intro hcond key hidle j d hd hdkey hdescribed
    by_cases hsame : key = a.identity
    · rw [hsame] at hidle hdkey
      rcases hcond with hacts | hbusy | ⟨hnone, hclosed⟩
      · rw [hidle i b hself hkey] at hacts
        cases hacts
      · obtain ⟨n, e, hn, he, hekey, heacts⟩ := busy_iff.mp hbusy
        rw [hidle n e ((hother hn).trans he) hekey] at heacts
        cases heacts
      · by_cases hj : j = i
        · rw [hj, hself, Option.some.injEq] at hd
          rw [← hd]
          exact hclosed (hd ▸ hdescribed)
        · rw [hother hj] at hd
          rw [Bool.eq_false_iff] at hnone ⊢
          exact fun hopened => hnone (stranded_iff.mpr ⟨j, d, hj, hd, hdkey, hdescribed, hopened⟩)
    · have hj : j ≠ i := by
        rintro rfl
        rw [hself, Option.some.injEq] at hd
        rw [← hdkey, ← hd, hkey] at hsame
        exact hsame rfl
      rw [hother hj] at hd
      refine h key (fun n e he hekey => ?_) j d hd hdkey hdescribed
      by_cases hn : n = i
      · rw [hn, hi, Option.some.injEq] at he
        rw [← hekey, he] at hsame
        exact absurd rfl hsame
      · exact hidle n e ((hother hn).trans he) hekey

/-- An announcement that changes neither what its task does nor whether it is open, but for a
close, keeps every device represented. -/
theorem represented_of_same (h : s.Represented)
    (hi : s.announcements[i]? = some a) (hkey : b.identity = a.identity)
    (hset : s'.announcements = s.announcements.set i b) (hacts : b.acts = a.acts)
    (hdescribed : b.described = a.described) (hopened : b.opened = true → a.opened = true) :
    s'.Represented := by
  rw [represented_set h hi hkey hset]
  by_cases hlive : a.acts = true
  · exact .inl (hacts.trans hlive)
  by_cases hbusy : s.busy i a.identity = true
  · exact .inr (.inl hbusy)
  have hidle : ∀ (j : ℕ) (d : Announcement), s.announcements[j]? = some d →
      d.identity = a.identity → d.acts = false := by
    intro j d hd hdkey
    rw [Bool.eq_false_iff]
    intro hdacts
    by_cases hj : j = i
    · rw [hj, hi, Option.some.injEq] at hd
      rw [hd] at hlive
      exact hlive hdacts
    · exact hbusy (busy_iff.mpr ⟨j, d, hj, hd, hdkey, hdacts⟩)
  refine .inr (.inr ⟨?_, ?_⟩)
  · rw [Bool.eq_false_iff]
    intro hstranded
    obtain ⟨j, d, -, hd, hdkey, hread, hopen⟩ := stranded_iff.mp hstranded
    rw [h a.identity hidle j d hd hdkey hread] at hopen
    cases hopen
  · intro hread
    rw [hdescribed] at hread
    have hclosed := h a.identity hidle i a hi rfl hread
    rw [Bool.eq_false_iff]
    intro hopen
    rw [hopened hopen] at hclosed
    cases hclosed

/-- At most one announcement has a property after one changed, if that one has it no sooner. -/
theorem atMostOne_set {p : Announcement → Bool}
    (h : s.AtMostOne p) (hi : s.announcements[i]? = some a) (hkey : b.identity = a.identity)
    (hset : s'.announcements = s.announcements.set i b) (hp : p b = true → p a = true) :
    s'.AtMostOne p := by
  have hback : ∀ (j : ℕ) (d : Announcement), s'.announcements[j]? = some d →
      ∃ e, s.announcements[j]? = some e ∧ e.identity = d.identity ∧ (p d = true → p e = true) := by
    intro j d hd
    rw [hset, getElem?_set hi] at hd
    by_cases hij : i = j
    · rw [if_pos hij] at hd
      cases hd
      exact ⟨a, hij ▸ hi, hkey.symm, hp⟩
    · rw [if_neg hij] at hd
      exact ⟨d, hd, rfl, id⟩
  intro j n d e hd he hsame hpd hpe
  obtain ⟨d', hd', hdkey, hpd'⟩ := hback j d hd
  obtain ⟨e', he', hekey, hpe'⟩ := hback n e he
  exact h j n d' e' hd' he' (by rw [hdkey, hekey, hsame]) (hpd' hpd) (hpe' hpe)

/-- An announcement that comes to have a property is the only one of its identity exactly if no
other one has it. -/
theorem atMostOne_create {p : Announcement → Bool} {t : State}
    (h : s.AtMostOne p) (hi : s.announcements[i]? = some a) (hkey : b.identity = a.identity)
    (hset : t.announcements = s.announcements.set i b) (hp : p b = true) :
    t.AtMostOne p ↔ ∀ (j : ℕ) (d : Announcement), j ≠ i → s.announcements[j]? = some d →
      d.identity = a.identity → p d = false := by
  have hself : t.announcements[i]? = some b := by rw [hset, getElem?_set hi, if_pos rfl]
  have hother : ∀ {j : ℕ}, j ≠ i → t.announcements[j]? = s.announcements[j]? := by
    intro j hj
    rw [hset, getElem?_set hi, if_neg (Ne.symm hj)]
  constructor
  · intro hnew j d hj hd hdkey
    rw [Bool.eq_false_iff]
    intro hpd
    exact hj (hnew j i d b ((hother hj).trans hd) hself (hdkey.trans hkey.symm) hpd hp)
  · intro hnone j n d e hd he hsame hpd hpe
    by_cases hj : j = i
    · by_cases hn : n = i
      · rw [hj, hn]
      · rw [hj, hself, Option.some.injEq] at hd
        have hekey : e.identity = a.identity := by rw [← hsame, ← hd, hkey]
        rw [hnone n e hn ((hother hn).symm.trans he) hekey] at hpe
        cases hpe
    · by_cases hn : n = i
      · rw [hn, hself, Option.some.injEq] at he
        have hdkey : d.identity = a.identity := by rw [hsame, ← he, hkey]
        rw [hnone j d hj ((hother hj).symm.trans hd) hdkey] at hpd
        cases hpd
      · exact h j n d e ((hother hj).symm.trans hd) ((hother hn).symm.trans he) hsame hpd hpe

/-- The slots after one announcement changed and the slot of its identity with it. -/
theorem slotted_set (h : s.Slotted)
    (hi : s.announcements[i]? = some a) (hkey : b.identity = a.identity)
    (hset : s'.announcements = s.announcements.set i b)
    (hsame : ∀ key, key ≠ a.identity → (key ∈ s'.presentedDevices ↔ key ∈ s.presentedDevices))
    (hown : a.identity ∈ s'.presentedDevices ↔ b.presents = true ∨
      ∃ (j : ℕ) (d : Announcement), j ≠ i ∧ s.announcements[j]? = some d ∧
        d.identity = a.identity ∧ d.presents = true) : s'.Slotted := by
  have hself : s'.announcements[i]? = some b := by rw [hset, getElem?_set hi, if_pos rfl]
  have hother : ∀ {j : ℕ}, j ≠ i → s'.announcements[j]? = s.announcements[j]? := by
    intro j hj
    rw [hset, getElem?_set hi, if_neg (Ne.symm hj)]
  intro key
  by_cases hkeys : key = a.identity
  · rw [hkeys, hown]
    constructor
    · rintro (hpresents | ⟨j, d, hj, hd, hdkey, hpresents⟩)
      · exact ⟨i, b, hself, hkey, hpresents⟩
      · exact ⟨j, d, (hother hj).trans hd, hdkey, hpresents⟩
    · rintro ⟨j, d, hd, hdkey, hpresents⟩
      by_cases hj : j = i
      · rw [hj, hself, Option.some.injEq] at hd
        exact .inl (hd ▸ hpresents)
      · exact .inr ⟨j, d, hj, (hother hj).symm.trans hd, hdkey, hpresents⟩
  · rw [hsame key hkeys, h key]
    constructor
    · rintro ⟨j, d, hd, hdkey, hpresents⟩
      have hj : j ≠ i := by
        rintro rfl
        rw [hi, Option.some.injEq] at hd
        exact hkeys (by rw [← hdkey, hd])
      exact ⟨j, d, (hother hj).trans hd, hdkey, hpresents⟩
    · rintro ⟨j, d, hd, hdkey, hpresents⟩
      have hj : j ≠ i := by
        rintro rfl
        rw [hself, Option.some.injEq] at hd
        exact hkeys (by rw [← hdkey, ← hd, hkey])
      exact ⟨j, d, (hother hj).symm.trans hd, hdkey, hpresents⟩

/-- The slots stay as they are if an announcement is presented as before. -/
theorem slotted_of_same (h : s.Slotted)
    (hi : s.announcements[i]? = some a) (hkey : b.identity = a.identity)
    (hset : s'.announcements = s.announcements.set i b)
    (hslots : s'.presentedDevices = s.presentedDevices) (hpresents : b.presents = a.presents) :
    s'.Slotted := by
  refine slotted_set h hi hkey hset (fun key _ => by rw [hslots]) ?_
  rw [hslots, h a.identity]
  constructor
  · rintro ⟨j, d, hd, hdkey, hpresented⟩
    by_cases hj : j = i
    · rw [hj, hi, Option.some.injEq] at hd
      exact .inl (by rw [hpresents, hd, hpresented])
    · exact .inr ⟨j, d, hj, hd, hdkey, hpresented⟩
  · rintro (hpresented | ⟨j, d, -, hd, hdkey, hpresented⟩)
    · exact ⟨i, a, hi, rfl, hpresents ▸ hpresented⟩
    · exact ⟨j, d, hd, hdkey, hpresented⟩

/-- What is known is kept by a change of one announcement that presents as before. -/
theorem Inv.of_same (h : s.Inv) (hi : s.announcements[i]? = some a) (hkey : b.identity = a.identity)
    (hset : s'.announcements = s.announcements.set i b)
    (hslots : s'.presentedDevices = s.presentedDevices) (hpresents : b.presents = a.presents)
    (hidle : b.phase = .fetching → b.transfers = 0) : s'.Inv := by
  constructor
  · exact slotted_of_same h.slotted hi hkey hset hslots hpresents
  · exact atMostOne_set h.once hi hkey hset fun hpresented => by rw [← hpresents, hpresented]
  · intro j d hd hfetching
    rw [hset, getElem?_set hi] at hd
    split at hd
    · cases hd
      exact hidle hfetching
    · exact h.idle j d hd hfetching

/-- The slot of an identity is free where no announcement of it presents. -/
theorem Inv.presents_eq_false (h : s.Inv)
    (hfree : key ∉ s.presentedDevices) {j : ℕ} {d : Announcement}
    (hd : s.announcements[j]? = some d) (hdkey : d.identity = key) : d.presents = false := by
  rw [Bool.eq_false_iff]
  exact fun hpresents => hfree ((h.slotted key).mpr ⟨j, d, hd, hdkey, hpresents⟩)

/-- The announcements after one more. -/
theorem getElem?_append_one {l : List Announcement} (j : ℕ) (d : Announcement)
    (hd : (l ++ [a])[j]? = some d) : l[j]? = some d ∨ d = a := by
  rw [List.getElem?_append] at hd
  split at hd
  · exact .inl hd
  · exact .inr (List.mem_singleton.mp (List.mem_of_getElem? hd))

/-- An announcement keeps what is known. -/
theorem inv_announce (h : s.Inv) (identity : Identity) :
    ({ s with announcements := s.announcements ++ [⟨identity, true, .fetching, 0⟩] } :
      State).Inv := by
  have hold : ∀ (j : ℕ) (d : Announcement), s.announcements[j]? = some d →
      (s.announcements ++ [⟨identity, true, .fetching, 0⟩])[j]? = some d := by
    intro j d hd
    rw [List.getElem?_append_left (List.getElem?_eq_some_iff.mp hd).1]
    exact hd
  constructor
  · intro key
    rw [h.slotted key]
    constructor
    · rintro ⟨j, d, hd, hrest⟩
      exact ⟨j, d, hold j d hd, hrest⟩
    · rintro ⟨j, d, hd, hdkey, hpresents⟩
      rcases getElem?_append_one j d hd with hd | rfl
      · exact ⟨j, d, hd, hdkey, hpresents⟩
      · cases hpresents
  · intro i j a b ha hb hsame hpa hpb
    rcases getElem?_append_one i a ha with ha | rfl
    · rcases getElem?_append_one j b hb with hb | rfl
      · exact h.once i j a b ha hb hsame hpa hpb
      · cases hpb
    · cases hpa
  · intro j d hd hfetching
    rcases getElem?_append_one j d hd with hd | rfl
    · exact h.idle j d hd hfetching
    · rfl

/-- What the task of an announcement does with its descriptor keeps what is known. -/
theorem inv_driveDevice (h : s.Inv)
    (hi : s.announcements[i]? = some a) (hfetching : a.phase = .fetching) (read created : Bool) :
    (s.driveDevice i a read created).Inv := by
  have hnot : a.presents = false := by simp [Announcement.presents, hfetching]
  unfold driveDevice claimDevice
  by_cases hread : read = true
  · rw [if_pos hread]
    by_cases hclaimed : a.identity ∈ s.presentedDevices
    · rw [if_pos hclaimed]
      exact h.of_same (b := { a with phase := .skipped }) hi rfl rfl rfl hnot.symm (by simp)
    · rw [if_neg hclaimed]
      dsimp only
      split
      · have hfree : ∀ (j : ℕ) (d : Announcement), j ≠ i → s.announcements[j]? = some d →
            d.identity = a.identity → d.presents = false :=
          fun j d _ hd hdkey => h.presents_eq_false hclaimed hd hdkey
        constructor
        · refine slotted_set (b := { a with phase := .configuring }) h.slotted hi rfl rfl ?_ ?_
          · intro key hkey
            exact ⟨fun hmem => Finset.mem_of_mem_insert_of_ne hmem hkey,
              fun hmem => Finset.mem_insert_of_mem hmem⟩
          · exact iff_of_true (Finset.mem_insert_self _ _) (.inl rfl)
        · exact (atMostOne_create (b := { a with phase := .configuring }) h.once hi rfl rfl
            rfl).mpr hfree
        · intro j d hd hdfetching
          have hd' : (s.announcements.set i { a with phase := .configuring })[j]? = some d := hd
          rw [getElem?_set hi] at hd'
          split at hd'
          · cases hd'
            cases hdfetching
          · exact h.idle j d hd' hdfetching
      · refine h.of_same (b := { a with phase := .unavailable }) hi rfl rfl ?_ hnot.symm (by simp)
        exact Finset.erase_insert hclaimed
  · rw [if_neg hread]
    exact h.of_same (b := { a with phase := .failed }) hi rfl rfl rfl hnot.symm (by simp)

/-- The end of a presentation keeps what is known. -/
theorem inv_teardown (h : s.Inv)
    (hi : s.announcements[i]? = some a) (hserving : a.phase = .serving) :
    ((s.set i { a with phase := .ended }).releaseDevice a.identity).Inv := by
  have hpresents : a.presents = true := by simp [Announcement.presents, hserving]
  constructor
  · refine slotted_set (b := { a with phase := .ended }) h.slotted hi rfl rfl ?_ ?_
    · intro key hkey
      exact ⟨fun hmem => Finset.mem_of_mem_erase hmem,
        fun hmem => Finset.mem_erase_of_ne_of_mem hkey hmem⟩
    · refine iff_of_false (Finset.notMem_erase _ _) ?_
      rintro (hended | ⟨j, d, hj, hd, hdkey, hdpresents⟩)
      · cases hended
      · exact hj (h.once j i d a hd hi hdkey hdpresents hpresents)
  · exact atMostOne_set (b := { a with phase := .ended }) h.once hi rfl rfl fun hended => by
      cases hended
  · intro j d hd hfetching
    have hd' : (s.announcements.set i { a with phase := .ended })[j]? = some d := hd
    rw [getElem?_set hi] at hd'
    split at hd'
    · cases hd'
      cases hfetching
    · exact h.idle j d hd' hfetching

/-- What acts on an announcement found one that it may act on. -/
theorem exists_acted {i : ℕ} {cond : Announcement → Prop} [DecidablePred cond]
    {act : Announcement → State}
    (h : ((s.announcements[i]?).bind fun a => if cond a then some (act a) else none) = some s') :
    ∃ a, s.announcements[i]? = some a ∧ cond a ∧ act a = s' := by
  obtain ⟨a, hi, hact⟩ := Option.bind_eq_some_iff.mp h
  rw [Option.ite_none_right_eq_some, Option.some.injEq] at hact
  exact ⟨a, hi, hact⟩

/-- Every step keeps what is known. -/
theorem inv_step {a : Action} (h : s.Inv) (hstep : s.step a = some s') : s'.Inv := by
  cases a with
  | announce identity =>
    cases hstep
    exact inv_announce h identity
  | describe i read created =>
    obtain ⟨a, hi, hact, rfl⟩ := exists_acted hstep
    exact inv_driveDevice h hi hact read created
  | configure i =>
    obtain ⟨a, hi, hact, rfl⟩ := exists_acted hstep
    refine h.of_same (b := { a with phase := .serving }) hi rfl rfl rfl ?_ (by simp)
    simp [Announcement.presents, hact]
  | transfer i =>
    obtain ⟨a, hi, hact, rfl⟩ := exists_acted hstep
    exact h.of_same (b := { a with transfers := a.transfers + 1 }) hi rfl rfl rfl rfl
      (by simp [hact])
  | complete i =>
    obtain ⟨a, hi, hact, rfl⟩ := exists_acted hstep
    refine h.of_same (b := { a with transfers := a.transfers - 1 }) hi rfl rfl rfl rfl
      fun hfetching => ?_
    have hnone := h.idle i a hi hfetching
    omega
  | teardown i =>
    obtain ⟨a, hi, hact, rfl⟩ := exists_acted hstep
    exact inv_teardown h hi hact.1
  | close i =>
    obtain ⟨a, hi, hact, rfl⟩ := exists_acted hstep
    exact h.of_same (b := { a with opened := false }) hi rfl rfl rfl rfl (h.idle i a hi)

/-- A state is sound if its controllers are single and its devices represented. -/
theorem Inv.sound_iff (h : s.Inv) : s.Sound ↔ s.AtMostOne Announcement.controller ∧ s.Represented :=
  ⟨fun hsound => ⟨hsound.single, hsound.represented⟩,
    fun hboth => ⟨hboth.1, h.slotted, hboth.2⟩⟩

/-- An announcement leaves all sound. -/
theorem sound_announce (h : s.Sound) (identity : Identity) :
    ({ s with announcements := s.announcements ++ [⟨identity, true, .fetching, 0⟩] } :
        State).AtMostOne Announcement.controller ∧
      ({ s with announcements := s.announcements ++ [⟨identity, true, .fetching, 0⟩] } :
        State).Represented := by
  constructor
  · intro i j a b ha hb hsame hca hcb
    rcases getElem?_append_one i a ha with ha | rfl
    · rcases getElem?_append_one j b hb with hb | rfl
      · exact h.single i j a b ha hb hsame hca hcb
      · cases hcb
    · cases hca
  · intro key hidle j d hd hdkey hdescribed
    rcases getElem?_append_one j d hd with hd | rfl
    · refine h.represented key (fun n e he hekey => ?_) j d hd hdkey hdescribed
      refine hidle n e ?_ hekey
      change (s.announcements ++ [_])[n]? = _
      rw [List.getElem?_append_left (List.getElem?_eq_some_iff.mp he).1]
      exact he
    · cases hdescribed

/-- What the task of an announcement does with its descriptor is sound exactly if it is
orderly. -/
theorem sound_driveDevice (hinv : s.Inv) (h : s.Sound)
    (hi : s.announcements[i]? = some a) (hfetching : a.phase = .fetching) (read created : Bool) :
    ((s.driveDevice i a read created).AtMostOne Announcement.controller ∧
        (s.driveDevice i a read created).Represented) ↔
      s.orderly (.describe i read created) = true := by
  have hidle := hinv.idle i a hi hfetching
  have hother : ∀ {j : ℕ} {d : Announcement}, s.announcements[j]? = some d → d.presents = true →
      j ≠ i := by
    rintro j d hd hpresents rfl
    rw [hi, Option.some.injEq] at hd
    rw [← hd, Announcement.presents, hfetching] at hpresents
    cases hpresents
  have horderly : s.orderly (.describe i read created) =
      if read then
        if a.identity ∈ s.presentedDevices then true
        else if created then !s.lingers i a.identity
        else s.busy i a.identity || !s.stranded i a.identity && !a.opened
      else s.busy i a.identity || !s.stranded i a.identity := by
    simp only [orderly, hi]
  rw [horderly]
  unfold driveDevice claimDevice
  cases read with
  | false =>
    have hsingle : (s.set i { a with phase := .failed }).AtMostOne Announcement.controller :=
      atMostOne_set (b := { a with phase := .failed }) h.single hi rfl rfl
        (by simp [Announcement.controller, Announcement.presents, hidle])
    have hrepresented := represented_set (t := s.set i { a with phase := .failed })
      (b := { a with phase := .failed }) h.represented hi rfl rfl
    rw [if_neg (by simp), if_neg (by simp), and_iff_right hsingle, hrepresented, Bool.or_eq_true,
      Bool.not_eq_true']
    simp [Announcement.acts, Announcement.presents, Announcement.described]
  | true =>
    rw [if_pos rfl, if_pos rfl]
    by_cases hclaimed : a.identity ∈ s.presentedDevices
    · rw [if_pos hclaimed, if_pos hclaimed]
      obtain ⟨j, d, hd, hdkey, hpresents⟩ := (hinv.slotted a.identity).mp hclaimed
      have hbusy : s.busy i a.identity = true :=
        busy_iff.mpr ⟨j, d, hother hd hpresents, hd, hdkey, by simp [Announcement.acts, hpresents]⟩
      refine iff_of_true ⟨?_, ?_⟩ rfl
      · exact atMostOne_set (b := { a with phase := .skipped }) h.single hi rfl rfl
          (by simp [Announcement.controller, Announcement.presents, hidle])
      · exact (represented_set (b := { a with phase := .skipped }) h.represented hi rfl rfl).mpr
          (.inr (.inl hbusy))
    · rw [if_neg hclaimed, if_neg hclaimed]
      dsimp only
      cases created with
      | true =>
        rw [if_pos rfl, if_pos rfl, Bool.not_eq_true']
        have hrepresented : (State.set i { a with phase := .configuring }
            { s with presentedDevices := insert a.identity s.presentedDevices }).Represented :=
          (represented_set (b := { a with phase := .configuring }) h.represented hi rfl rfl).mpr
            (.inl rfl)
        have hsingle := atMostOne_create (t := State.set i { a with phase := .configuring }
            { s with presentedDevices := insert a.identity s.presentedDevices })
          (b := { a with phase := .configuring }) h.single hi rfl rfl rfl
        rw [and_iff_left hrepresented, hsingle]
        constructor
        · intro hnone
          rw [Bool.eq_false_iff]
          intro hlingers
          obtain ⟨j, d, hj, hd, hdkey, htransfers⟩ := lingers_iff.mp hlingers
          have hgone := hnone j d hj hd hdkey
          simp [Announcement.controller, htransfers] at hgone
        · intro hnone j d hj hd hdkey
          have hnot := hinv.presents_eq_false hclaimed hd hdkey
          have hgone : ¬ 0 < d.transfers := by
            intro htransfers
            rw [lingers_iff.mpr ⟨j, d, hj, hd, hdkey, htransfers⟩] at hnone
            cases hnone
          simp [Announcement.controller, hnot, hgone]
      | false =>
        rw [if_neg (by simp), if_neg (by simp)]
        have hsingle : ((State.set i { a with phase := .unavailable }
            { s with presentedDevices := insert a.identity s.presentedDevices }).releaseDevice
              a.identity).AtMostOne Announcement.controller :=
          atMostOne_set (b := { a with phase := .unavailable }) h.single hi rfl rfl
            (by simp [Announcement.controller, Announcement.presents, hidle])
        have hrepresented := represented_set (t := (State.set i { a with phase := .unavailable }
            { s with presentedDevices := insert a.identity s.presentedDevices }).releaseDevice
              a.identity) (b := { a with phase := .unavailable }) h.represented hi rfl rfl
        rw [and_iff_right hsingle, hrepresented, Bool.or_eq_true, Bool.and_eq_true,
          Bool.not_eq_true', Bool.not_eq_true']
        simp [Announcement.acts, Announcement.presents, Announcement.described]

/-- The end of a presentation is sound exactly if it is orderly. -/
theorem sound_teardown (h : s.Sound)
    (hi : s.announcements[i]? = some a) (hclosed : a.opened = false) :
    (((s.set i { a with phase := .ended }).releaseDevice a.identity).AtMostOne
          Announcement.controller ∧
        ((s.set i { a with phase := .ended }).releaseDevice a.identity).Represented) ↔
      s.orderly (.teardown i) = true := by
  have hsingle : ((s.set i { a with phase := .ended }).releaseDevice a.identity).AtMostOne
      Announcement.controller :=
    atMostOne_set (b := { a with phase := .ended }) h.single hi rfl rfl
      (by
        intro htransfers
        have hkept : 0 < a.transfers := by
          simpa [Announcement.controller, Announcement.presents] using htransfers
        simp [Announcement.controller, hkept])
  have hrepresented := represented_set
    (t := (s.set i { a with phase := .ended }).releaseDevice a.identity)
    (b := { a with phase := .ended }) h.represented hi rfl rfl
  rw [and_iff_right hsingle, hrepresented]
  simp [orderly, hi, Announcement.acts, Announcement.presents, Announcement.described, hclosed]

/-- A step is sound exactly if it is orderly. -/
theorem sound_step {a : Action} (hinv : s.Inv) (h : s.Sound)
    (hstep : s.step a = some s') : s'.Sound ↔ s.orderly a = true := by
  rw [(inv_step hinv hstep).sound_iff]
  cases a with
  | announce identity =>
    cases hstep
    exact iff_of_true (sound_announce h identity) rfl
  | describe i read created =>
    obtain ⟨a, hi, hact, rfl⟩ := exists_acted hstep
    exact sound_driveDevice hinv h hi hact read created
  | configure i =>
    obtain ⟨a, hi, hact, rfl⟩ := exists_acted hstep
    refine iff_of_true ⟨?_, ?_⟩ rfl
    · exact atMostOne_set (b := { a with phase := .serving }) h.single hi rfl rfl fun _ => by
        simp [Announcement.controller, Announcement.presents, hact]
    · refine represented_of_same (b := { a with phase := .serving }) h.represented hi rfl rfl ?_ ?_
        id
      · simp [Announcement.acts, Announcement.presents, hact]
      · simp [Announcement.described, hact]
  | transfer i =>
    obtain ⟨a, hi, hact, rfl⟩ := exists_acted hstep
    refine iff_of_true ⟨?_, ?_⟩ rfl
    · exact atMostOne_set (b := { a with transfers := a.transfers + 1 }) h.single hi rfl rfl
        fun _ => by simp [Announcement.controller, Announcement.presents, hact]
    · exact represented_of_same (b := { a with transfers := a.transfers + 1 }) h.represented hi rfl
        rfl rfl rfl id
  | complete i =>
    obtain ⟨a, hi, hact, rfl⟩ := exists_acted hstep
    refine iff_of_true ⟨?_, ?_⟩ rfl
    · exact atMostOne_set (b := { a with transfers := a.transfers - 1 }) h.single hi rfl rfl
        fun _ => by simp [Announcement.controller, hact]
    · exact represented_of_same (b := { a with transfers := a.transfers - 1 }) h.represented hi rfl
        rfl rfl rfl id
  | teardown i =>
    obtain ⟨a, hi, hact, rfl⟩ := exists_acted hstep
    exact sound_teardown h hi hact.2
  | close i =>
    obtain ⟨a, hi, hact, rfl⟩ := exists_acted hstep
    refine iff_of_true ⟨?_, ?_⟩ rfl
    · exact atMostOne_set (b := { a with opened := false }) h.single hi rfl rfl id
    · exact represented_of_same (b := { a with opened := false }) h.represented hi rfl rfl rfl rfl
        nofun

/-- No identity has two controllers, the slots are held exactly while a presentation runs, and no
device is left out, all along a run, exactly if every step is orderly. -/
theorem presented_iff_orderly {acts : List Action} {t : State}
    (hrun : run step new acts = some t) :
    (∀ before s, before <+: acts → run step new before = some s → s.Sound) ↔
      Meets step (fun s a => s.orderly a = true) new acts := by
  have hinv : ∀ (s : State) (a : Action) (s' : State), s.Inv → s.step a = some s' → s'.Inv :=
    fun s a s' h hstep => inv_step h hstep
  have hiff : ∀ (s : State) (a : Action) (s' : State), True → s.Inv → s.Sound →
      s.step a = some s' → (s'.Sound ↔ s.orderly a = true) :=
    fun s a s' _ hi h hstep => sound_step hi h hstep
  have hslotted : new.Slotted := by
    intro key
    refine iff_of_false (Finset.notMem_empty key) ?_
    rintro ⟨i, a, ha, -⟩
    cases ha
  have hnew : new.Inv := ⟨hslotted, fun i j a b ha => (by cases ha), fun i a ha => (by cases ha)⟩
  have hsound : new.Sound :=
    ⟨fun i j a b ha => (by cases ha), hslotted, fun key _ i a ha => (by cases ha)⟩
  exact prefixes_iff_meets_of_iff (fun _ => True) hinv hiff hnew hsound hrun fun _ _ => trivial

/-- A flash drive. -/
def flashDrive : Identity := ⟨0x2174, 0x2100, 0x0100⟩

/-- A drive is announced twice, its channels are closed, and it is announced again. -/
def resetDrive : List Action :=
  [.announce flashDrive, .announce flashDrive, .describe 1 true true, .describe 0 true true,
    .configure 1, .transfer 1, .close 0, .close 1, .teardown 1, .complete 1,
    .announce flashDrive, .describe 2 true true]

/-- The drive is presented again. -/
theorem sound_resetDrive :
    ((run step new resetDrive).map fun s =>
        (s.announcements.map Announcement.controller, decide (flashDrive ∈ s.presentedDevices))) =
      some ([false, false, true], true) ∧
      ∀ before s, before <+: resetDrive → run step new before = some s → s.Sound := by
  refine ⟨by decide +kernel, ?_⟩
  cases hrun : run step new resetDrive with
  | none =>
    have hsome : (run step new resetDrive).isSome = true := by decide +kernel
    rw [hrun] at hsome
    cases hsome
  | some t => exact (presented_iff_orderly hrun).mpr (meetsBool_iff.mp (by decide +kernel))

/-- The drive is announced again before the presentation of its old channel has ended. -/
def skippedDrive : List Action :=
  [.announce flashDrive, .describe 0 true true, .configure 0, .close 0, .announce flashDrive,
    .describe 1 true true, .teardown 0]

/-- The new announcement was skipped, and nothing presents the drive. -/
theorem not_sound_skippedDrive :
    ¬ ∀ (acts : List Action) (s : State), run step new acts = some s → s.Sound := by
  intro h
  cases hrun : run step new skippedDrive with
  | none =>
    have hsome : (run step new skippedDrive).isSome = true := by decide +kernel
    rw [hrun] at hsome
    cases hsome
  | some t =>
    have hend : (run step new skippedDrive).map State.announcements =
        some [⟨flashDrive, false, .ended, 0⟩, ⟨flashDrive, true, .skipped, 0⟩] := by
      decide +kernel
    rw [hrun, Option.map_some, Option.some.injEq] at hend
    have hidle : ∀ (i : ℕ) (a : Announcement), t.announcements[i]? = some a →
        a.identity = flashDrive → a.acts = false := by
      intro i a ha _
      have hmem := List.mem_of_getElem? ha
      rw [hend, List.mem_cons, List.mem_singleton] at hmem
      rcases hmem with rfl | rfl <;> rfl
    have hclosed := (h skippedDrive t hrun).represented flashDrive hidle 1
      ⟨flashDrive, true, .skipped, 0⟩ (by rw [hend]; rfl) rfl rfl
    cases hclosed

end State

end Macrdp.UsbPresentation
