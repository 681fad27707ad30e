import Macrdp.StepSystem

/-!
# The card session of the bridge

A session looks for its context, its reader and its card handle in what it cached, and asks the
client for what is missing. Between two answers of the client cards come and go. A handle that is
cached is used again, while the answer to reset is read anew.
-/

namespace Macrdp.SmartcardSession

open StepSystem

/-! ## The client -/

/-- A card in the reader: each insertion is numbered. -/
structure Card where
  serial : ℕ
  atr : List UInt8
  deriving DecidableEq

/-- A handle, in the context that it was given the session for. -/
structure ScardCardHandle where
  context : Option ℕ
  value : ℕ
  deriving DecidableEq

/-- The state of a reader as the client reports it. -/
structure ReaderState where
  present : Bool
  atrLength : ℕ
  atr : List UInt8
  deriving DecidableEq

/-- The client's resource manager. -/
structure Client where
  slot : Option Card
  /-- Cards that were inserted so far. -/
  inserted : ℕ
  /-- Contexts that were given out. -/
  contexts : ℕ
  /-- The card of each handle that was given out. -/
  connects : List ℕ
  deriving DecidableEq

/-- What the client reports of the reader. -/
def Client.states (c : Client) : List ReaderState :=
  match c.slot with
  | some card => [⟨true, card.atr.length, card.atr⟩]
  | none => [⟨false, 0, []⟩]

/-! ## The session -/

/-- What a session caches. -/
structure Session where
  context : Option ℕ
  reader : Option String
  card : Option (ScardCardHandle × UInt32)
  /-- The last presence, and when it was observed, in milliseconds. -/
  presenceCache : Option (ℕ × Bool)
  deriving DecidableEq

/-- How long a presence is taken from the cache, in milliseconds. -/
def presenceTtl : ℕ := 300

/-- A command that needs a context and a reader. -/
inductive Goal where
  | presence
  | powerOn
  deriving DecidableEq

/-- The call whose answer a command waits for. -/
inductive Await where
  | establishContext (goal : Goal)
  | listReaders (goal : Goal)
  | connect
  | getStatusChange (goal : Goal)
  | transmit (card : ScardCardHandle) (protocol : UInt32) (apdu : List UInt8) (recvLen : ℕ)
  | disconnect (card : ScardCardHandle)
  deriving DecidableEq

/-- The next call of a command, by what is cached. -/
def Session.ensureSession (goal : Goal) (s : Session) : Await :=
  if s.context = none then .establishContext goal
  else if s.reader = none then .listReaders goal
  else
    match goal with
    | .presence => .getStatusChange .presence
    | .powerOn => if s.card = none then .connect else .getStatusChange .powerOn

/-- The answer to reset of the first state of a present card that has one. -/
def atrOf (states : List ReaderState) : Option (List UInt8) :=
  (states.find? fun s => s.present && decide (0 < s.atrLength)).map fun s =>
    s.atr.take (min s.atrLength s.atr.length)

/-- A session and the client. -/
structure State where
  session : Session
  client : Client
  awaiting : Option Await
  /-- The card whose answer to reset the last power-up returned, unless a card was removed or
  powered off since. -/
  powered : Option Card
  deriving DecidableEq

/-- Nothing is cached, and no card is there. -/
def State.new : State := ⟨⟨none, none, none, none⟩, ⟨none, 0, 0, []⟩, none, none⟩

/-- What an answer of the client carries that the session does not ask for by name. -/
structure Reply where
  now : ℕ
  readers : List String
  protocol : UInt32

/-- A card comes or goes, a command comes, or the client answers. -/
inductive Action where
  | insert (atr : List UInt8)
  | remove
  | presence (now : ℕ)
  | powerOn
  | transmit (apdu : List UInt8) (recvLen : ℕ)
  | powerOff
  | fail
  | reply (r : Reply)

/-- The client answers. A card is connected to only while it is there, and a command reaches it
only then. -/
def State.reply (r : Reply) (s : State) : Option State :=
  match s.awaiting with
  | none => none
  | some (.establishContext goal) =>
    let session := { s.session with context := some s.client.contexts }
    some { s with
      session := session
      client := { s.client with contexts := s.client.contexts + 1 }
      awaiting := some (session.ensureSession goal) }
  | some (.listReaders goal) =>
    match r.readers.head? with
    | none => some { s with awaiting := none }
    | some reader =>
      let session := { s.session with reader := some reader }
      some { s with session := session, awaiting := some (session.ensureSession goal) }
  | some .connect =>
    match s.client.slot with
    | none => none
    | some card =>
      -- the returned handle has no context, so the session fills in its own
      let handle : ScardCardHandle := { context := s.session.context
                                        value := s.client.connects.length }
      some { s with
        session := { s.session with card := some (handle, r.protocol) }
        client := { s.client with connects := s.client.connects ++ [card.serial] }
        awaiting := some (.getStatusChange .powerOn) }
  | some (.getStatusChange .presence) =>
    let present := s.client.states.any ReaderState.present
    some { s with
      session := { s.session with presenceCache := some (r.now, present) }
      awaiting := none }
  | some (.getStatusChange .powerOn) =>
    match atrOf s.client.states with
    | none => some { s with awaiting := none }
    | some _ => some { s with awaiting := none, powered := s.client.slot }
  | some (.transmit card _ _ _) =>
    if s.client.connects[card.value]? = s.client.slot.map Card.serial then
      some { s with awaiting := none }
    else none
  | some (.disconnect _) => some { s with awaiting := none }

/-- One step. Commands are taken one at a time. -/
def step (s : State) : Action → Option State
  | .insert atr =>
    match s.client.slot with
    | some _ => none
    | none =>
      some { s with client := { s.client with
        slot := some ⟨s.client.inserted, atr⟩
        inserted := s.client.inserted + 1 } }
  | .remove =>
    match s.client.slot with
    | none => none
    | some _ => some { s with client := { s.client with slot := none }, powered := none }
  | .presence now =>
    if s.awaiting ≠ none then none
    else
      match s.session.presenceCache with
      | some (observed, _) =>
        if now - observed < presenceTtl then some s
        else some { s with awaiting := some (s.session.ensureSession .presence) }
      | none => some { s with awaiting := some (s.session.ensureSession .presence) }
  | .powerOn =>
    if s.awaiting ≠ none then none
    else some { s with awaiting := some (s.session.ensureSession .powerOn) }
  | .transmit apdu recvLen =>
    if s.awaiting ≠ none then none
    else
      match s.session.card with
      | none => some s
      | some (card, protocol) =>
        some { s with awaiting := some (.transmit card protocol apdu recvLen) }
  | .powerOff =>
    if s.awaiting ≠ none then none
    else
      match s.session.card with
      | none => some { s with powered := none }
      | some (card, _) =>
        some { s with
          session := { s.session with card := none }
          awaiting := some (.disconnect card)
          powered := none }
  | .fail => if s.awaiting = none then none else some { s with awaiting := none }
  | .reply r => s.reply r

/-- The handle that commands are sent on is of the card whose answer to reset was returned, in
the context of the session. -/
def Sound (s : State) : Prop :=
  ∀ card, s.powered = some card → ∀ handle protocol, s.session.card = some (handle, protocol) →
    s.client.connects[handle.value]? = some card.serial ∧
      handle.context = s.session.context ∧ s.session.context.isSome

/-- A power-up that reads an answer to reset has the handle of the card that is there. -/
def Orderly (s : State) : Action → Prop
  | .reply _ => s.awaiting = some (.getStatusChange .powerOn) →
    ∀ card, s.client.slot = some card → card.atr ≠ [] →
      ∀ handle protocol, s.session.card = some (handle, protocol) →
        s.client.connects[handle.value]? = some card.serial
  | _ => True

/-! ## What holds in every run -/

/-- What is cached was given out. -/
structure Cached (s : State) : Prop where
  handle : ∀ handle protocol, s.session.card = some (handle, protocol) →
    handle.value < s.client.connects.length ∧ handle.context = s.session.context ∧
      s.session.context.isSome
  powered : s.powered ≠ none → s.session.card ≠ none

/-- What is awaited fits what is cached. -/
structure Inv (s : State) : Prop extends Cached s where
  establishing : ∀ goal, s.awaiting = some (.establishContext goal) → s.session.context = none
  connecting : s.awaiting = some .connect → s.session.card = none ∧ s.session.context.isSome
  reading : s.awaiting = some (.getStatusChange .powerOn) → s.session.card ≠ none

/-- An answer to reset is read exactly of a card that has one. -/
theorem atrOf_states (c : Client) :
    atrOf c.states = c.slot.bind fun card => if card.atr = [] then none else some card.atr := by
  unfold Client.states atrOf
  cases c.slot with
  | none => rfl
  | some card =>
    dsimp only [Option.bind_some]
    by_cases hatr : card.atr = []
    · rw [if_pos hatr, hatr]
      rfl
    · have hpos : 0 < card.atr.length := List.length_pos_of_ne_nil hatr
      rw [if_neg hatr, List.find?_cons_of_pos (by simpa using hpos)]
      simp only [Option.map_some, Nat.min_self, List.take_length]

section

variable {s : State}

/-- Nothing is awaited of what is missing. -/
theorem Cached.idle (h : Cached s) : Inv { s with awaiting := none } :=
  ⟨⟨h.handle, h.powered⟩, nofun, nofun, nofun⟩

/-- What a command waits for first fits what is cached. -/
theorem Cached.ensure (h : Cached s) (goal : Goal) :
    Inv { s with awaiting := some (s.session.ensureSession goal) } := by
  have hone : ∀ await, s.session.ensureSession goal = await →
      (∀ g, await = .establishContext g → s.session.context = none) ∧
      (await = .connect → s.session.card = none ∧ s.session.context.isSome) ∧
      (await = .getStatusChange .powerOn → s.session.card ≠ none) := by
    intro await hawait
    unfold Session.ensureSession at hawait
    split at hawait
    · next hcontext =>
      rw [← hawait]
      exact ⟨fun _ _ => hcontext, nofun, nofun⟩
    · next hcontext =>
      have hsome : s.session.context.isSome := Option.isSome_iff_ne_none.mpr hcontext
      split at hawait
      · rw [← hawait]
        exact ⟨nofun, nofun, nofun⟩
      · cases goal with
        | presence =>
          rw [← hawait]
          exact ⟨nofun, nofun, nofun⟩
        | powerOn =>
          dsimp only at hawait
          split at hawait
          · next hcard =>
            rw [← hawait]
            exact ⟨nofun, fun _ => ⟨hcard, hsome⟩, nofun⟩
          · next hcard =>
            rw [← hawait]
            exact ⟨nofun, nofun, fun _ => hcard⟩
  obtain ⟨hestablish, hconnect, hread⟩ := hone _ rfl
  exact ⟨⟨h.handle, h.powered⟩, fun g hg => hestablish g (Option.some.inj hg),
    fun hg => hconnect (Option.some.inj hg), fun hg => hread (Option.some.inj hg)⟩

/-- An answer of the client keeps what is cached and what is awaited in step. -/
theorem Inv.reply (h : Inv s) {s' : State} {r : Reply} (hs : s.reply r = some s') : Inv s' := by
  unfold State.reply at hs
  split at hs
  · cases hs
  · next goal hawait =>
    cases hs
    have hnone := h.establishing goal hawait
    have hcard : s.session.card = none := by
      cases hcard : s.session.card with
      | none => rfl
      | some pair =>
        obtain ⟨handle, protocol⟩ := pair
        have hsome := (h.handle handle protocol hcard).2.2
        rw [hnone] at hsome
        cases hsome
    have hcached : Cached { s with
        session := { s.session with context := some s.client.contexts }
        client := { s.client with contexts := s.client.contexts + 1 } } := by
      refine ⟨fun handle protocol hsome => ?_, h.powered⟩
      rw [hcard] at hsome
      cases hsome
    exact hcached.ensure goal
  · next goal hawait =>
    split at hs
    · cases hs
      exact h.toCached.idle
    · next reader hreader =>
      cases hs
      have hcached : Cached { s with session := { s.session with reader := some reader } } :=
        ⟨h.handle, h.powered⟩
      exact hcached.ensure goal
  · next hawait =>
    split at hs
    · cases hs
    · next card hslot =>
      cases hs
      obtain ⟨hcard, hcontext⟩ := h.connecting hawait
      refine ⟨⟨fun handle protocol hsome => ?_, nofun⟩,
        nofun, nofun, nofun⟩
      cases hsome
      refine ⟨?_, rfl, hcontext⟩
      rw [List.length_append]
      exact Nat.lt_succ_self _
  · next hawait =>
    cases hs
    have hcached : Cached { s with session := { s.session with
        presenceCache := some (r.now, s.client.states.any ReaderState.present) } } :=
      ⟨h.handle, h.powered⟩
    exact hcached.idle
  · next hawait =>
    split at hs
    · cases hs
      exact h.toCached.idle
    · cases hs
      have hcached : Cached { s with powered := s.client.slot } :=
        ⟨h.handle, fun _ => h.reading hawait⟩
      exact hcached.idle
  · split at hs
    · cases hs
      exact h.toCached.idle
    · cases hs
  · cases hs
    exact h.toCached.idle

/-- Every step keeps what is cached and what is awaited in step. -/
theorem Inv.step (h : Inv s) {s' : State} {a : Action} (hs : step s a = some s') : Inv s' := by
  cases a with dsimp only [SmartcardSession.step] at hs
  | insert atr =>
    split at hs
    · cases hs
    · cases hs
      exact ⟨⟨h.handle, h.powered⟩, h.establishing, h.connecting, h.reading⟩
  | remove =>
    split at hs
    · cases hs
    · cases hs
      exact ⟨⟨h.handle, fun hne => absurd rfl hne⟩, h.establishing, h.connecting, h.reading⟩
  | presence now =>
    split at hs
    · cases hs
    split at hs
    · split at hs
      · cases hs
        exact h
      · cases hs
        exact h.toCached.ensure .presence
    · cases hs
      exact h.toCached.ensure .presence
  | powerOn =>
    split at hs
    · cases hs
    · cases hs
      exact h.toCached.ensure .powerOn
  | transmit apdu recvLen =>
    split at hs
    · cases hs
    split at hs
    · cases hs
      exact h
    · cases hs
      exact ⟨⟨h.handle, h.powered⟩, nofun, nofun, nofun⟩
  | powerOff =>
    split at hs
    · cases hs
    split at hs
    · cases hs
      exact ⟨⟨h.handle, fun hne => absurd rfl hne⟩, h.establishing, h.connecting, h.reading⟩
    · cases hs
      refine ⟨⟨nofun, fun hne => absurd rfl hne⟩, nofun,
        nofun, nofun⟩
  | fail =>
    split at hs
    · cases hs
    · cases hs
      exact h.toCached.idle
  | reply r => exact h.reply hs

/-- A step that keeps the handle, its card and the context keeps what commands are sent on. -/
theorem Sound.congr {s' : State} (h : Sound s) (hcard : s'.session.card = s.session.card)
    (hcontext : s'.session.context = s.session.context)
    (hconnects : s'.client.connects = s.client.connects)
    (hpowered : s'.powered = s.powered ∨ s'.powered = none) : Sound s' := by
  intro card hsome handle protocol hhandle
  rw [hcard] at hhandle
  rw [hconnects, hcontext]
  cases hpowered with
  | inl hsame => exact h card (hsame.symm.trans hsome) handle protocol hhandle
  | inr hnone =>
    rw [hnone] at hsome
    cases hsome

/-- An answer of the client keeps what commands are sent on exactly if it is orderly. -/
theorem sound_reply_iff (h : Inv s) (hg : Sound s) {s' : State} {r : Reply}
    (hs : s.reply r = some s') : Sound s' ↔ Orderly s (.reply r) := by
  have hother : s.awaiting ≠ some (.getStatusChange .powerOn) → Orderly s (.reply r) :=
    fun hne hawait => absurd hawait hne
  unfold State.reply at hs
  split at hs
  · cases hs
  · next goal hawait =>
    cases hs
    have hnone := h.establishing goal hawait
    refine iff_of_true (fun card hsome handle protocol hhandle => ?_)
      (hother (by rw [hawait]; nofun))
    have hcontext := (h.handle handle protocol hhandle).2.2
    rw [hnone] at hcontext
    cases hcontext
  · next goal hawait =>
    refine iff_of_true ?_ (hother (by rw [hawait]; nofun))
    split at hs
    · cases hs
      exact hg.congr rfl rfl rfl (.inl rfl)
    · cases hs
      exact hg.congr rfl rfl rfl (.inl rfl)
  · next hawait =>
    refine iff_of_true ?_ (hother (by rw [hawait]; nofun))
    split at hs
    · cases hs
    · cases hs
      intro card hsome
      have hne : s.powered ≠ none := fun hnone => by
        rw [hnone] at hsome
        cases hsome
      exact absurd (h.connecting hawait).1 (h.powered hne)
  · next hawait =>
    refine iff_of_true ?_ (hother (by rw [hawait]; nofun))
    cases hs
    exact hg.congr rfl rfl rfl (.inl rfl)
  · next hawait =>
    have hatr := atrOf_states s.client
    split at hs
    · next hnone =>
      cases hs
      refine iff_of_true (hg.congr rfl rfl rfl (.inl rfl)) fun _ card hslot hne => ?_
      rw [hnone, hslot, Option.bind_some, if_neg hne] at hatr
      cases hatr
    · next atr hsome =>
      cases hs
      constructor
      · intro hsound _ card hslot _ handle protocol hhandle
        exact (hsound card hslot handle protocol hhandle).1
      · intro horderly card hslot handle protocol hhandle
        have hne : card.atr ≠ [] := fun hnil => by
          change s.client.slot = some card at hslot
          rw [hsome, hslot, Option.bind_some, if_pos hnil] at hatr
          cases hatr
        exact ⟨horderly hawait card hslot hne handle protocol hhandle,
          (h.handle handle protocol hhandle).2⟩
  · next hawait =>
    refine iff_of_true ?_ (hother (by rw [hawait]; nofun))
    split at hs
    · cases hs
      exact hg.congr rfl rfl rfl (.inl rfl)
    · cases hs
  · next hawait =>
    refine iff_of_true ?_ (hother (by rw [hawait]; nofun))
    cases hs
    exact hg.congr rfl rfl rfl (.inl rfl)

/-- A step keeps what commands are sent on exactly if it is orderly. -/
theorem sound_step_iff (h : Inv s) (hg : Sound s) {s' : State} {a : Action}
    (hs : step s a = some s') : Sound s' ↔ Orderly s a := by
  cases a with dsimp only [SmartcardSession.step] at hs
  | reply r => exact sound_reply_iff h hg hs
  | insert atr | powerOn | fail =>
    refine iff_of_true ?_ trivial
    split at hs
    · cases hs
    · cases hs
      exact hg.congr rfl rfl rfl (.inl rfl)
  | remove =>
    refine iff_of_true ?_ trivial
    split at hs
    · cases hs
    · cases hs
      exact hg.congr rfl rfl rfl (.inr rfl)
  | presence now =>
    refine iff_of_true ?_ trivial
    split at hs
    · cases hs
    split at hs
    · split at hs
      · cases hs
        exact hg
      · cases hs
        exact hg.congr rfl rfl rfl (.inl rfl)
    · cases hs
      exact hg.congr rfl rfl rfl (.inl rfl)
  | transmit apdu recvLen =>
    refine iff_of_true ?_ trivial
    split at hs
    · cases hs
    split at hs
    · cases hs
      exact hg
    · cases hs
      exact hg.congr rfl rfl rfl (.inl rfl)
  | powerOff =>
    refine iff_of_true ?_ trivial
    split at hs
    · cases hs
    split at hs
    · cases hs
      exact hg.congr rfl rfl rfl (.inr rfl)
    · cases hs
      intro card hsome
      cases hsome

end

/-- Nothing is cached at the start. -/
theorem Inv.new : Inv .new where
  handle _ _ h := by cases h
  powered h := absurd rfl h
  establishing _ h := by cases h
  connecting h := by cases h
  reading h := by cases h

/-- All along a run commands are sent on a handle of the card whose answer to reset was returned,
exactly if every power-up that reads an answer to reset has the handle of the card that is
there. -/
theorem answered_sound_iff {acts : List Action} {t : State} (hrun : run step .new acts = some t) :
    (∀ before u, before <+: acts → run step .new before = some u → Sound u) ↔
      Meets step Orderly .new acts := by
  have hinv : ∀ s a s', Inv s → step s a = some s' → Inv s' := fun _ _ _ h hs => h.step hs
  exact prefixes_iff_meets_of_iff (fun _ => True) hinv
    (fun _ _ _ _ h hg hs => sound_step_iff h hg hs) Inv.new (fun _ h => by cases h) hrun
    fun _ _ => trivial

/-- A reply that names one reader. -/
def oneReader : Reply := ⟨0, ["reader"], 1⟩

/-- A card is inserted and powered up. -/
def poweredUp : List Action :=
  [.insert [0x3b], .powerOn, .reply oneReader, .reply oneReader, .reply oneReader, .reply oneReader]

/-- Commands reach the only card. -/
theorem answered_sound_iff_oneCard : ∃ t, run step .new poweredUp = some t ∧ Sound t := by
  have hmeets : Meets step Orderly .new poweredUp := by
    refine ⟨trivial, fun s hs => ?_⟩
    cases hs
    refine ⟨trivial, fun s hs => ?_⟩
    cases hs
    refine ⟨nofun, fun s hs => ?_⟩
    cases hs
    refine ⟨nofun, fun s hs => ?_⟩
    cases hs
    refine ⟨nofun, fun s hs => ?_⟩
    cases hs
    refine ⟨fun _ card hslot _ handle protocol hcard => ?_, fun _ _ => trivial⟩
    cases hslot
    cases hcard
    rfl
  exact ⟨_, rfl, (answered_sound_iff rfl).mpr hmeets _ _ List.prefix_rfl rfl⟩

/-- Another card is there at the second power-up. -/
theorem not_sound_exchanged :
    ¬ ∀ acts t, run step .new acts = some t → Sound t := by
  intro h
  have hsound := h (poweredUp ++ [.remove, .insert [0x3c], .powerOn, .reply oneReader]) _ rfl
    ⟨1, [0x3c]⟩ rfl _ _ rfl
  exact absurd hsound.1 (by decide)

end Macrdp.SmartcardSession
