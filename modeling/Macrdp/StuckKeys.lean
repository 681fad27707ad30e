import Macrdp.KeyboardInput

/-!
# No key is left down

Whether the release of a key is posted depends on the modifiers at the release,
whether its press was posted on those at the press. Once no key of the client's
keyboard is held, no key of the session is down, exactly if the last release of
each key is not swallowed while the key is down.
-/

namespace Macrdp.KeyboardInput.StuckKeys

open Scancodes

/-- The state of a key of the session after an effect. -/
def followDown (vk : UInt16) (down : Bool) : Effect → Bool
  | .key _ v d _ => if v = vk then d else down
  | _ => down

/-- The key of a virtual keycode is down: its last event was a key-down. -/
def standsDown (vk : UInt16) (effects : List Effect) : Bool := effects.foldl (followDown vk) false

/-- A key-up of a virtual keycode is posted. -/
def Raised (vk : UInt16) (effects : List Effect) : Prop :=
  ∃ source flags, Effect.key source vk false flags ∈ effects

/-- Every key-down of a virtual keycode has a later key-up. -/
def Lifted (vk : UInt16) (effects : List Effect) : Prop :=
  ∀ before source flags later, effects = before ++ Effect.key source vk true flags :: later →
    Raised vk later

/-- The flags of a source after an effect. -/
def followFlags (source : EventSource) (flags : UInt64) : Effect → UInt64
  | .flagsChanged src _ f => if src = source then f else flags
  | _ => flags

/-- The last modifier flags posted from a source; at first there are none. -/
def lastFlags (source : EventSource) (effects : List Effect) : UInt64 :=
  effects.foldl (followFlags source) 0

/-- Nothing is left of the keys that were pressed. -/
structure NoStuckKeys {L : Type*} (s : Inner L) : Prop where
  lifted : ∀ vk, Lifted vk s.effects
  consumedKeys : s.consumedKeys = ∅
  remappedKeys : s.remappedKeys = ∅
  combined : lastFlags .combined s.effects = s.mods.cgFlags
  hid : lastFlags .hid s.effects = s.mods.cgFlags
  onlyCapsLock : s.mods = { ModifierState.default with capsLock := s.mods.capsLock }

/-- The keys of the client's keyboard that are held after an event. -/
def follow (held : Finset (UInt8 × Bool)) : KeyboardEvent → Finset (UInt8 × Bool)
  | .pressed code extended => insert (code, extended) held
  | .released code extended => held.erase (code, extended)
  | _ => held

/-- The keys of the client's keyboard that are held after some events. -/
def held (inputs : List (KeyboardEvent × Answers)) : Finset (UInt8 × Bool) :=
  inputs.foldl (fun held i => follow held i.1) ∅

/-- The virtual keycode that an event is about. -/
def keyOf : KeyboardEvent → Option UInt16
  | .pressed code extended | .released code extended => scancodeToCgkeycode code extended
  | _ => none

/-- A key that is released is not posted. -/
def swallows {L : Type*} (vk : UInt16) (s : Inner L) : Bool :=
  decide (vk ∈ s.consumedKeys) ||
    (!decide (vk ∈ s.remappedKeys) && (s.typesUnder vk).isSome)

/-- An event is the release of a key that is down, and it is swallowed. -/
def strands {L : Type*} (svc : LayoutService L) (s : Inner L) (i : KeyboardEvent × Answers) :
    Bool :=
  match i.1 with
  | .released code extended => (scancodeToCgkeycode code extended).any fun vk =>
    !ModifierState.isModifierVk vk && standsDown vk s.effects &&
      swallows vk (s.refreshAutoLayout svc i.2.klid)
  | _ => false

/-- The handler after some events. -/
def after {L : Type*} (svc : LayoutService L) (settings : Settings) (s : Inner L)
    (inputs : List (KeyboardEvent × Answers)) : Inner L :=
  inputs.foldl (Inner.keyboard svc settings) s

section Effects

theorem standsDown_append (vk : UInt16) (effects done : List Effect) :
    standsDown vk (effects ++ done) = done.foldl (followDown vk) (standsDown vk effects) :=
  List.foldl_append

theorem lastFlags_append (source : EventSource) (effects done : List Effect) :
    lastFlags source (effects ++ done) =
      done.foldl (followFlags source) (lastFlags source effects) :=
  List.foldl_append

variable {vk : UInt16}

theorem lifted_cons {e : Effect} {rest : List Effect} :
    Lifted vk (e :: rest) ↔
      (∀ source flags, e = .key source vk true flags → Raised vk rest) ∧ Lifted vk rest := by
  constructor
  · intro h
    constructor
    · intro source flags he
      exact h [] source flags rest (by rw [he]; rfl)
    · intro before source flags later heq
      exact h (e :: before) source flags later (by rw [heq]; rfl)
  · rintro ⟨hfirst, hrest⟩ before source flags later heq
    cases before with
    | nil =>
      obtain ⟨he, htail⟩ := List.cons.inj heq
      rw [← htail]
      exact hfirst source flags he
    | cons e' before => exact hrest before source flags later (List.cons.inj heq).2

theorem raised_cons {e : Effect} {rest : List Effect} :
    Raised vk (e :: rest) ↔ (∃ source flags, e = .key source vk false flags) ∨ Raised vk rest := by
  simp only [Raised, List.mem_cons, exists_or, eq_comm]

/-- A key that is down or not at first is lifted at the end, if it is not down then. -/
theorem foldl_followDown {effects : List Effect} {down : Bool} :
    effects.foldl (followDown vk) down = false ↔
      Lifted vk effects ∧ (down = true → Raised vk effects) := by
  induction effects generalizing down with
  | nil =>
    have hlifted : Lifted vk [] := fun before source flags later h =>
      absurd h.symm (List.append_ne_nil_of_right_ne_nil _ (by simp))
    have hnone : ¬Raised vk [] := by simp [Raised]
    simp [hlifted, hnone]
  | cons e rest ih =>
    rw [List.foldl_cons, ih, lifted_cons, raised_cons]
    -- An effect that is no event of the key changes nothing.
    have hother : (∀ source d flags, e ≠ .key source vk d flags) → followDown vk down e = down →
        (Lifted vk rest ∧ (followDown vk down e = true → Raised vk rest) ↔
          ((∀ source flags, e = .key source vk true flags → Raised vk rest) ∧ Lifted vk rest) ∧
            (down = true → (∃ source flags, e = .key source vk false flags) ∨
              Raised vk rest)) := by
      intro hne hkept
      simp [hne, hkept]
    cases e with
    | key source v d flags =>
      by_cases hv : v = vk
      · subst hv
        cases d with
        | true =>
          have hdown : followDown v down (Effect.key source v true flags) = true := if_pos rfl
          rw [hdown]
          constructor
          · rintro ⟨hrest, hraised⟩
            exact ⟨⟨fun _ _ _ => hraised rfl, hrest⟩, fun _ => .inr (hraised rfl)⟩
          · rintro ⟨⟨hraised, hrest⟩, -⟩
            exact ⟨hrest, fun _ => hraised source flags rfl⟩
        | false => simp [followDown]
      · refine hother (fun source' d' flags' h => hv ?_) (if_neg hv)
        cases h
        rfl
    | flagsChanged | text | hotkey | commitCycleSession =>
      exact hother nofun rfl

/-- A key is lifted exactly if it is not down. -/
theorem lifted_iff {effects : List Effect} : Lifted vk effects ↔ standsDown vk effects = false := by
  rw [standsDown, foldl_followDown]
  exact ⟨fun h => ⟨h, nofun⟩, fun h => h.1⟩

end Effects

section Modifiers

theorem get_set_same (m : ModifierState) (down : Bool) (side : Half) :
    (m.set down side).get side = down := by
  cases side <;> rfl

theorem get_set_other (m : ModifierState) (down : Bool) {side other : Half} (h : other ≠ side) :
    (m.set down side).get other = m.get other := by
  cases side <;> cases other <;> first | rfl | exact absurd rfl h

theorem get_toggle (m : ModifierState) (caps : Bool) (side : Half) :
    ({ m with capsLock := caps } : ModifierState).get side = m.get side := by
  cases side <;> rfl

/-- With no side held there is at most Caps Lock. -/
theorem eq_of_get {m : ModifierState} (h : ∀ side, m.get side = false) :
    m = { ModifierState.default with capsLock := m.capsLock } := by
  have hall : ∀ side, m.get side = false := h
  obtain ⟨lShift, rShift, lCtrl, rCtrl, lAlt, rAlt, lCmd, rCmd, capsLock⟩ := m
  simp only [ModifierState.default, ModifierState.mk.injEq, and_true]
  exact ⟨hall .lShift, hall .rShift, hall .lCtrl, hall .rCtrl, hall .lAlt, hall .rAlt,
    hall .lCmd, hall .rCmd⟩

theorem apply_half {m : ModifierState} {vk : UInt16} {down : Bool} {side : Half}
    (h : half vk = some side) :
    m.apply vk down = if m.get side = down then (m, false) else (m.set down side, true) := by
  have hcaps : half vkCapsLock = none := by decide
  have hvk : vk ≠ vkCapsLock := by
    rintro rfl
    rw [hcaps] at h
    cases h
  rw [ModifierState.apply, if_neg hvk, h]

theorem apply_none (m : ModifierState) {vk : UInt16} (down : Bool) (h : half vk = none) :
    (m.apply vk down = ({ m with capsLock := !m.capsLock }, true) ∨
      m.apply vk down = (m, false)) := by
  unfold ModifierState.apply
  by_cases hcaps : vk = vkCapsLock
  · rw [if_pos hcaps]
    cases down with
    | true => exact .inl rfl
    | false => exact .inr rfl
  · rw [if_neg hcaps, h]
    exact .inr rfl

/-- A modifier that is pressed or released: its own side only is held or not after it. -/
theorem get_apply (m : ModifierState) (vk : UInt16) (down : Bool) (side : Half) :
    (m.apply vk down).1.get side = if half vk = some side then down else m.get side := by
  cases hown : half vk with
  | none =>
    rw [if_neg (by simp)]
    rcases apply_none m down hown with happly | happly
    · rw [happly]
      exact get_toggle m _ side
    · rw [happly]
  | some own =>
    rw [apply_half hown]
    by_cases hside : side = own
    · subst hside
      rw [if_pos rfl]
      by_cases hsame : m.get side = down
      · rw [if_pos hsame]
        exact hsame
      · rw [if_neg hsame]
        exact get_set_same m down side
    · have hne : ¬some own = some side := fun h => hside (Option.some.inj h).symm
      rw [if_neg hne]
      by_cases hsame : m.get own = down
      · rw [if_pos hsame]
      · rw [if_neg hsame]
        exact get_set_other m down hside

/-- Nothing changed if nothing is said to have changed. -/
theorem apply_unchanged {m : ModifierState} {vk : UInt16} {down : Bool}
    (h : (m.apply vk down).2 = false) : (m.apply vk down).1 = m := by
  cases hown : half vk with
  | none =>
    rcases apply_none m down hown with happly | happly
    · rw [happly] at h
      cases h
    · rw [happly]
  | some own =>
    rw [apply_half hown] at h ⊢
    by_cases hsame : m.get own = down
    · rw [if_pos hsame]
    · rw [if_neg hsame] at h
      cases h

end Modifiers

section Steps

variable {L : Type*}

/-- What the press of a key that is no modifier can do. -/
inductive Presses (vk : UInt16) (s : Inner L) : Inner L → Prop
  | hotkey (h : Hotkey) :
      Presses vk s { s.emit [.hotkey h] with consumedKeys := insert vk s.consumedKeys }
  | remapped (ctrl : s.mods.hasCtrl = true) :
      Presses vk s { s.postCtrlAsCmd vk true with remappedKeys := insert vk s.remappedKeys }
  | typed (layout : L) : Presses vk s { s with layout := some layout }
  | text (layout : L) (flags : UInt64) (utf16 : List UInt16) :
      Presses vk s ({ s with layout := some layout }.emit [.text flags utf16])
  | posted (source : EventSource) (flags : UInt64) :
      Presses vk s (s.emit [.key source vk true flags])

/-- What the release of a key that is no modifier can do. -/
inductive Releases (vk : UInt16) (s : Inner L) : Inner L → Prop
  | consumed (taken : vk ∈ s.consumedKeys) :
      Releases vk s { s with consumedKeys := s.consumedKeys.erase vk }
  | remapped (left : vk ∉ s.consumedKeys) (taken : vk ∈ s.remappedKeys) :
      Releases vk s
        (({ s with remappedKeys := s.remappedKeys.erase vk } : Inner L).postCtrlAsCmd vk false)
  | typed (left : vk ∉ s.consumedKeys) (unmapped : vk ∉ s.remappedKeys)
      (typed : (s.typesUnder vk).isSome = true) : Releases vk s s
  | posted (left : vk ∉ s.consumedKeys) (unmapped : vk ∉ s.remappedKeys)
      (plain : s.typesUnder vk = none) (source : EventSource) (flags : UInt64) :
      Releases vk s (s.emit [.key source vk false flags])

/-- What a modifier can do. -/
inductive Modifies (vk : UInt16) (down : Bool) (s : Inner L) : Inner L → Prop
  | changed (done : List Effect) (commits : done = [] ∨ done = [.commitCycleSession]) :
      Modifies vk down s
        ((({ s with mods := (s.mods.apply vk down).1 } : Inner L).postFlagsChanged vk).emit done)
  | unchanged (same : (s.mods.apply vk down).1 = s.mods) (done : List Effect)
      (commits : done = [] ∨ done = [.commitCycleSession]) : Modifies vk down s (s.emit done)

theorem emit_nil (s : Inner L) : s.emit [] = s := by
  rw [Inner.emit, List.append_nil]

variable (svc : LayoutService L) (settings : Settings)

theorem presses_pressKey (answers : Answers) (vk : UInt16) (s : Inner L) :
    Presses vk s (s.pressKey svc settings answers vk) := by
  unfold Inner.pressKey
  split
  · exact .hotkey _
  · unfold Inner.pressPlain
    split
    · next hremaps =>
      simp only [Inner.remaps, Bool.and_eq_true] at hremaps
      exact .remapped hremaps.1.1.1.1.2
    · split
      · unfold Inner.typeKey
        dsimp only
        split
        · exact .typed _
        · split
          · exact .typed _
          · exact .text _ _ _
      · exact .posted _ _

theorem releases_releaseKey (vk : UInt16) (s : Inner L) : Releases vk s (s.releaseKey vk) := by
  unfold Inner.releaseKey
  split
  · next htaken => exact .consumed htaken
  · next hleft =>
    split
    · next htaken => exact .remapped hleft htaken
    · next hunmapped =>
      split
      · next layout htyped => exact .typed hleft hunmapped (by rw [htyped]; rfl)
      · next hplain => exact .posted hleft hunmapped hplain _ _

theorem modifies_modifierKey (vk : UInt16) (down : Bool) (s : Inner L) :
    Modifies vk down s (s.modifierKey settings vk down) := by
  simp only [Inner.modifierKey]
  cases hchanged : (s.mods.apply vk down).2 with
  | true =>
    simp only [if_true]
    split
    · exact .changed _ (.inr rfl)
    · rw [← emit_nil (Inner.postFlagsChanged _ _)]
      exact .changed _ (.inl rfl)
  | false =>
    have hsame := apply_unchanged hchanged
    have hkept : ({ s with mods := (s.mods.apply vk down).1 } : Inner L) = s := by rw [hsame]
    simp only [Bool.false_eq_true, if_false, hkept]
    split
    · exact .unchanged hsame _ (.inr rfl)
    · have hidle : Modifies vk down s (s.emit []) := .unchanged hsame [] (.inl rfl)
      rw [emit_nil] at hidle
      exact hidle

/-- What an event of the client's keyboard can do. -/
inductive Handles (s : Inner L) (i : KeyboardEvent × Answers) : Inner L → Prop
  | ignored (none : keyOf i.1 = none) : Handles s i s
  | modifier (code : UInt8) (extended down : Bool) (vk : UInt16)
      (event : i.1 = if down then .pressed code extended else .released code extended)
      (mapped : scancodeToCgkeycode code extended = some vk)
      (modifier : ModifierState.isModifierVk vk = true) (s' : Inner L)
      (modifies : Modifies vk down (s.refreshAutoLayout svc i.2.klid) s') : Handles s i s'
  | press (code : UInt8) (extended : Bool) (vk : UInt16) (event : i.1 = .pressed code extended)
      (mapped : scancodeToCgkeycode code extended = some vk)
      (plain : ModifierState.isModifierVk vk = false) (s' : Inner L)
      (presses : Presses vk (s.refreshAutoLayout svc i.2.klid) s') : Handles s i s'
  | release (code : UInt8) (extended : Bool) (vk : UInt16)
      (event : i.1 = .released code extended)
      (mapped : scancodeToCgkeycode code extended = some vk)
      (plain : ModifierState.isModifierVk vk = false) (s' : Inner L)
      (releases : Releases vk (s.refreshAutoLayout svc i.2.klid) s') : Handles s i s'
  | text (none : keyOf i.1 = none) (flags : UInt64) (utf16 : List UInt16) :
      Handles s i (s.emit [.text flags utf16])
  | synchronize (none : keyOf i.1 = none) (caps : Bool) :
      Handles s i
        (({ s with mods := { s.mods with capsLock := caps } } : Inner L).postFlagsChanged
          vkCapsLock)

theorem handles_keyboard (s : Inner L) (i : KeyboardEvent × Answers) :
    Handles svc s i (s.keyboard svc settings i) := by
  have hkey : ∀ code extended down,
      i.1 = (if down then .pressed code extended else .released code extended) →
      Handles svc s i (s.key svc settings i.2 code extended down) := by
    intro code extended down hevent
    have hkeyOf : keyOf i.1 = scancodeToCgkeycode code extended := by
      rw [hevent]
      cases down <;> rfl
    unfold Inner.key
    cases hmapped : scancodeToCgkeycode code extended with
    | none => exact .ignored (hkeyOf.trans hmapped)
    | some vk =>
      dsimp only
      cases hmodifier : ModifierState.isModifierVk vk with
      | true =>
        rw [if_pos rfl]
        exact .modifier code extended down vk hevent hmapped hmodifier _
          (modifies_modifierKey settings vk down _)
      | false =>
        rw [if_neg (by simp)]
        cases down with
        | true =>
          rw [if_pos rfl]
          exact .press code extended vk hevent hmapped hmodifier _
            (presses_pressKey svc settings i.2 vk _)
        | false =>
          rw [if_neg (by simp)]
          exact .release code extended vk hevent hmapped hmodifier _ (releases_releaseKey vk _)
  obtain ⟨event, answers⟩ := i
  cases event with
  | pressed code extended => exact hkey code extended true rfl
  | released code extended => exact hkey code extended false rfl
  | unicodePressed c => exact .text rfl _ _
  | unicodeReleased c => exact .ignored rfl
  | synchronize flags =>
    simp only [Inner.keyboard, Inner.synchronize]
    split
    · exact .ignored rfl
    · exact .synchronize rfl _

end Steps

section Status

variable {L : Type*}

/-- The key of a virtual keycode is left as it is. -/
structure Untouched (vk : UInt16) (s s' : Inner L) : Prop where
  down : standsDown vk s'.effects = standsDown vk s.effects
  consumed : vk ∈ s'.consumedKeys ↔ vk ∈ s.consumedKeys
  remapped : vk ∈ s'.remappedKeys ↔ vk ∈ s.remappedKeys

variable {vk : UInt16} {s s' : Inner L}

theorem Untouched.trans {t u : Inner L} (h : Untouched vk s t)
    (h' : Untouched vk t u) : Untouched vk s u where
  down := h'.down.trans h.down
  consumed := h'.consumed.trans h.consumed
  remapped := h'.remapped.trans h.remapped

/-- Effects that are no events of a key leave it as it is. -/
theorem untouched_emit {done : List Effect}
    (h : ∀ down, done.foldl (followDown vk) down = down) : Untouched vk s (s.emit done) where
  down := by rw [Inner.emit, standsDown_append, h]
  consumed := Iff.rfl
  remapped := Iff.rfl

theorem untouched_postFlagsChanged (v vk : UInt16) (m : ModifierState) (s : Inner L) :
    Untouched vk s (({ s with mods := m } : Inner L).postFlagsChanged v) where
  down := by
    simp [Inner.postFlagsChanged, Inner.emit, standsDown_append, followDown]
  consumed := Iff.rfl
  remapped := Iff.rfl

theorem untouched_refresh (svc : LayoutService L) (klid : UInt32) (vk : UInt16) (s : Inner L) :
    Untouched vk s (s.refreshAutoLayout svc klid) := by
  unfold Inner.refreshAutoLayout
  split <;> exact ⟨rfl, Iff.rfl, Iff.rfl⟩

/-- Another key is left as it is by a press. -/
theorem untouched_presses {v : UInt16} (hne : v ≠ vk) (h : Presses v s s') : Untouched vk s s' := by
  cases h with
  | hotkey h =>
    have hsame : Untouched vk s (s.emit [.hotkey h]) := untouched_emit fun _ => rfl
    exact ⟨hsame.down, by simp [Ne.symm hne], hsame.remapped⟩
  | remapped ctrl =>
    have hsame : Untouched vk s (s.postCtrlAsCmd v true) :=
      untouched_emit fun _ => by simp [followDown, hne]
    exact ⟨hsame.down, hsame.consumed, by simp [Ne.symm hne]⟩
  | typed layout => exact ⟨rfl, Iff.rfl, Iff.rfl⟩
  | text layout flags utf16 =>
    have hsame : Untouched vk ({ s with layout := some layout } : Inner L)
        (({ s with layout := some layout } : Inner L).emit [.text flags utf16]) :=
      untouched_emit fun _ => rfl
    exact ⟨hsame.down, hsame.consumed, hsame.remapped⟩
  | posted source flags => exact untouched_emit fun _ => by simp [followDown, hne]

/-- Another key is left as it is by a release. -/
theorem untouched_releases {v : UInt16} (hne : v ≠ vk)
    (h : Releases v s s') : Untouched vk s s' := by
  cases h with
  | consumed taken => exact ⟨rfl, by simp [Ne.symm hne], Iff.rfl⟩
  | remapped left taken =>
    refine ⟨?_, Iff.rfl, by simp [Inner.postCtrlAsCmd, Inner.postFlagsChanged, Inner.emit,
      Ne.symm hne]⟩
    simp [Inner.emit, Inner.postCtrlAsCmd, Inner.postFlagsChanged, standsDown_append, followDown,
      hne]
  | typed left unmapped typed => exact ⟨rfl, Iff.rfl, Iff.rfl⟩
  | posted left unmapped plain source flags =>
    exact untouched_emit fun _ => by simp [followDown, hne]

/-- All keys are left as they are by a modifier. -/
theorem untouched_modifies {v : UInt16} {down : Bool}
    (h : Modifies v down s s') : Untouched vk s s' := by
  have hidle : ∀ (t : Inner L) (done : List Effect), done = [] ∨ done = [.commitCycleSession] →
      Untouched vk t (t.emit done) := by
    intro t done hcommits
    rcases hcommits with rfl | rfl <;> exact untouched_emit fun _ => rfl
  cases h with
  | changed done commits =>
    exact (untouched_postFlagsChanged v vk _ s).trans (hidle _ done commits)
  | unchanged _ done commits => exact hidle s done commits

/-- An event about another key leaves a key as it is. -/
theorem untouched_handles {svc : LayoutService L}
    {i : KeyboardEvent × Answers} (hother : keyOf i.1 ≠ some vk) (h : Handles svc s i s') :
    Untouched vk s s' := by
  have hrefresh := untouched_refresh svc i.2.klid vk s
  cases h with
  | ignored => exact ⟨rfl, Iff.rfl, Iff.rfl⟩
  | modifier code extended down v event mapped modifier _ modifies =>
    exact hrefresh.trans (untouched_modifies modifies)
  | press code extended v event mapped plain _ presses =>
    refine hrefresh.trans (untouched_presses ?_ presses)
    rintro rfl
    exact hother (by rw [event]; exact mapped)
  | release code extended v event mapped plain _ releases =>
    refine hrefresh.trans (untouched_releases ?_ releases)
    rintro rfl
    exact hother (by rw [event]; exact mapped)
  | text none flags utf16 => exact untouched_emit fun _ => rfl
  | synchronize none caps => exact untouched_postFlagsChanged vkCapsLock vk _ s

/-- After the press of a key it is down if it was, or if it is one with Control taken for
Command. -/
theorem presses_own (h : Presses vk s s') :
    (standsDown vk s.effects = true → standsDown vk s'.effects = true) ∧
      (vk ∈ s'.remappedKeys → vk ∈ s.remappedKeys ∨ standsDown vk s'.effects = true) := by
  cases h with
  | hotkey h | text layout flags utf16 =>
    exact ⟨by simp [Inner.emit, standsDown_append, followDown], .inl⟩
  | remapped ctrl => simp [Inner.emit, Inner.postCtrlAsCmd, standsDown_append, followDown]
  | typed layout => exact ⟨fun hdown => hdown, .inl⟩
  | posted source flags => simp [Inner.emit, standsDown_append, followDown]

/-- After the release of a key it is down if it was and the release was swallowed. -/
theorem releases_own (h : Releases vk s s') :
    standsDown vk s'.effects = (standsDown vk s.effects && swallows vk s) ∧
      vk ∉ s'.consumedKeys ∧
      (vk ∈ s'.remappedKeys → vk ∈ s.remappedKeys ∧ swallows vk s = true) := by
  cases h with
  | consumed taken =>
    have hswallows : swallows vk s = true := by simp [swallows, taken]
    refine ⟨by simp [hswallows], by simp, fun hremapped => ⟨hremapped, hswallows⟩⟩
  | remapped left taken =>
    have hswallows : swallows vk s = false := by simp [swallows, left, taken]
    refine ⟨?_, left, by simp [Inner.postCtrlAsCmd, Inner.postFlagsChanged, Inner.emit]⟩
    simp [hswallows, Inner.emit, Inner.postCtrlAsCmd, Inner.postFlagsChanged, standsDown_append,
      followDown]
  | typed left unmapped typed =>
    have hswallows : swallows vk s = true := by simp [swallows, unmapped, typed]
    exact ⟨by simp [hswallows], left, fun hremapped => absurd hremapped unmapped⟩
  | posted left unmapped plain source flags =>
    have hswallows : swallows vk s = false := by simp [swallows, left, plain]
    refine ⟨?_, left, fun hremapped => absurd hremapped unmapped⟩
    simp [hswallows, Inner.emit, standsDown_append, followDown]

end Status

section Flags

variable {L : Type*}
variable {vk : UInt16} {s s' : Inner L}

theorem mods_presses (h : Presses vk s s') : s'.mods = s.mods := by
  cases h <;> rfl

theorem mods_releases (h : Releases vk s s') : s'.mods = s.mods := by
  cases h <;> rfl

theorem mods_modifies {down : Bool} (h : Modifies vk down s s') :
    s'.mods = (s.mods.apply vk down).1 := by
  cases h with
  | changed => rfl
  | unchanged same => exact same.symm

/-- Both sources have the flags of the modifiers. -/
def Mirrored (s : Inner L) : Prop :=
  lastFlags .combined s.effects = s.mods.cgFlags ∧ lastFlags .hid s.effects = s.mods.cgFlags

/-- Effects that are no flags leave those of the sources. -/
theorem Mirrored.emit (h : Mirrored s) {done : List Effect}
    (hdone : ∀ source flags, done.foldl (followFlags source) flags = flags) :
    Mirrored (s.emit done) := by
  refine ⟨?_, ?_⟩
  · rw [Inner.emit, lastFlags_append, hdone]
    exact h.1
  · rw [Inner.emit, lastFlags_append, hdone]
    exact h.2

theorem mirrored_postFlagsChanged (vk : UInt16) (s : Inner L) :
    Mirrored (s.postFlagsChanged vk) := by
  refine ⟨?_, ?_⟩ <;>
    simp [Inner.postFlagsChanged, Inner.emit, lastFlags_append, followFlags]

theorem mirrored_modifies {down : Bool}
    (h : Modifies vk down s s') : Mirrored s' ∨ s'.mods = s.mods ∧ (Mirrored s → Mirrored s') := by
  have hidle : ∀ (t : Inner L) (done : List Effect), done = [] ∨ done = [.commitCycleSession] →
      Mirrored t → Mirrored (t.emit done) := by
    intro t done hcommits hmirrored
    rcases hcommits with rfl | rfl <;> exact hmirrored.emit fun _ _ => rfl
  cases h with
  | changed done commits => exact .inl (hidle _ done commits (mirrored_postFlagsChanged _ _))
  | unchanged _ done commits => exact .inr ⟨rfl, hidle s done commits⟩

/-- The sources have other flags only while Control, which is taken for Command, is held. -/
theorem mirrored_handles {svc : LayoutService L} {i : KeyboardEvent × Answers}
    (h : Handles svc s i s') (hs : Mirrored s ∨ s.mods.hasCtrl = true) :
    Mirrored s' ∨ s'.mods.hasCtrl = true := by
  have hrefresh : (s.refreshAutoLayout svc i.2.klid).mods = s.mods ∧
      (s.refreshAutoLayout svc i.2.klid).effects = s.effects := by
    unfold Inner.refreshAutoLayout
    split <;> exact ⟨rfl, rfl⟩
  have hs' : Mirrored (s.refreshAutoLayout svc i.2.klid) ∨
      (s.refreshAutoLayout svc i.2.klid).mods.hasCtrl = true := by
    rw [Mirrored, hrefresh.1, hrefresh.2]
    exact hs
  cases h with
  | ignored => exact hs
  | modifier code extended down v event mapped modifier _ modifies =>
    rcases mirrored_modifies modifies with hmirrored | ⟨hmods, hkept⟩
    · exact .inl hmirrored
    · exact hs'.imp hkept fun hctrl => by rw [hmods]; exact hctrl
  | press code extended v event mapped plain _ presses =>
    rw [mods_presses presses]
    refine hs'.elim (fun hmirrored => ?_) .inr
    cases presses with
    | hotkey h | text layout flags utf16 | posted source flags
      => exact .inl (hmirrored.emit (by simp [followFlags]))
    | remapped ctrl => exact .inr ctrl
    | typed layout => exact .inl hmirrored
  | release code extended v event mapped plain _ releases =>
    rw [mods_releases releases]
    refine hs'.elim (fun hmirrored => ?_) .inr
    cases releases with
    | consumed taken => exact .inl hmirrored
    | remapped left taken => exact .inl (mirrored_postFlagsChanged _ _)
    | typed left unmapped typed => exact .inl hmirrored
    | posted left unmapped plain source flags =>
      exact .inl (hmirrored.emit (by simp [followFlags]))
  | text none flags utf16 =>
    exact hs.imp (fun hmirrored => hmirrored.emit (by simp [followFlags])) fun hctrl => hctrl
  | synchronize none caps => exact .inl (mirrored_postFlagsChanged _ _)

end Flags

/-- The keys of the session go with those of the client's keyboard. -/
structure Sound {L : Type*} (s : Inner L) (held : Finset (UInt8 × Bool)) : Prop where
  remapped : ∀ vk ∈ s.remappedKeys, standsDown vk s.effects = true
  /-- A key that was taken for a symbolic hotkey is held. -/
  consumed : ∀ vk ∈ s.consumedKeys, ModifierState.isModifierVk vk = false ∧
    ∃ k ∈ held, scancodeToCgkeycode k.1 k.2 = some vk
  /-- A side of a modifier is held on the client's keyboard. -/
  sides : ∀ side, s.mods.get side = true →
    ∃ k ∈ held, ∃ vk, scancodeToCgkeycode k.1 k.2 = some vk ∧ half vk = some side
  modifiers : ∀ vk, ModifierState.isModifierVk vk = true → standsDown vk s.effects = false
  flags : Mirrored s ∨ s.mods.hasCtrl = true

section Run

variable {L : Type*} {svc : LayoutService L} {settings : Settings}

theorem sound_new (targetDisplayId : Option UInt32) (keyboardLayout : Option String)
    (klidHandle : Bool) : Sound (Inner.new svc targetDisplayId keyboardLayout klidHandle) ∅ where
  remapped := fun vk hvk => absurd hvk (Finset.notMem_empty vk)
  consumed := fun vk hvk => absurd hvk (Finset.notMem_empty vk)
  sides := by
    intro side hside
    have hnone : ModifierState.default.get side = false := by cases side <;> rfl
    rw [Inner.new] at hside
    simp [hnone] at hside
  modifiers := fun _ _ => rfl
  flags := by
    have hnone : ModifierState.default.cgFlags = 0 := by decide
    exact .inl ⟨hnone.symm, hnone.symm⟩

variable {vk : UInt16}

theorem modifier_of_half {side : Half} (h : half vk = some side) :
    ModifierState.isModifierVk vk = true := by
  rw [ModifierState.isModifierVk, h]
  rfl

variable {s : Inner L} {i : KeyboardEvent × Answers}

/-- The sides that are held after an event were, or belong to a modifier that is pressed. -/
theorem get_handles {s' : Inner L} (h : Handles svc s i s')
    {side : Half} (hside : s'.mods.get side = true) :
    (s.mods.get side = true ∧ ∀ code extended, i.1 = .released code extended →
        ∀ vk, scancodeToCgkeycode code extended = some vk → half vk ≠ some side) ∨
      ∃ code extended vk, i.1 = .pressed code extended ∧
        scancodeToCgkeycode code extended = some vk ∧ half vk = some side := by
  have hrefresh : (s.refreshAutoLayout svc i.2.klid).mods = s.mods := by
    unfold Inner.refreshAutoLayout
    split <;> rfl
  have hplain : ∀ vk, ModifierState.isModifierVk vk = false → half vk ≠ some side := by
    intro vk hvk hhalf
    rw [modifier_of_half hhalf] at hvk
    cases hvk
  have hunmapped : ∀ code extended, keyOf i.1 = none → i.1 = .released code extended →
      ∀ vk, scancodeToCgkeycode code extended = some vk → half vk ≠ some side := by
    intro code extended hnone hevent vk hvk
    rw [hevent] at hnone
    rw [show scancodeToCgkeycode code extended = none from hnone] at hvk
    cases hvk
  cases h with
  | ignored none | text none
    => exact .inl ⟨hside, fun code extended => hunmapped code extended none⟩
  | synchronize none caps =>
    refine .inl ⟨?_, fun code extended => hunmapped code extended none⟩
    rw [← get_toggle s.mods caps side]
    exact hside
  | press code extended v event mapped plain _ presses =>
    rw [mods_presses presses, hrefresh] at hside
    refine .inl ⟨hside, fun code' extended' hevent => ?_⟩
    rw [event] at hevent
    cases hevent
  | release code extended v event mapped plain _ releases =>
    rw [mods_releases releases, hrefresh] at hside
    refine .inl ⟨hside, fun code' extended' hevent vk hvk => ?_⟩
    rw [event] at hevent
    cases hevent
    rw [mapped, Option.some.injEq] at hvk
    rw [← hvk]
    exact hplain v plain
  | modifier code extended down v event mapped modifier _ modifies =>
    rw [mods_modifies modifies, hrefresh, get_apply] at hside
    by_cases hown : half v = some side
    · rw [if_pos hown] at hside
      rw [hside, if_pos rfl] at event
      exact .inr ⟨code, extended, v, event, mapped, hown⟩
    · rw [if_neg hown] at hside
      refine .inl ⟨hside, fun code' extended' hevent vk hvk => ?_⟩
      cases down with
      | true =>
        rw [event, if_pos rfl] at hevent
        cases hevent
      | false =>
        rw [event, if_neg (by simp)] at hevent
        cases hevent
        rw [mapped, Option.some.injEq] at hvk
        rw [← hvk]
        exact hown

/-- A key that was taken for a symbolic hotkey before an event, or is pressed by it. -/
theorem consumed_handles {s' : Inner L} (h : Handles svc s i s') (hvk : vk ∈ s'.consumedKeys) :
    (vk ∈ s.consumedKeys ∧ ∀ code extended, i.1 = .released code extended →
        scancodeToCgkeycode code extended = some vk →
        ModifierState.isModifierVk vk = true) ∨
      ∃ code extended, i.1 = .pressed code extended ∧
        scancodeToCgkeycode code extended = some vk ∧ ModifierState.isModifierVk vk = false := by
  by_cases hown : keyOf i.1 = some vk
  · cases h with
    | ignored none | text none | synchronize none =>
      rw [none] at hown
      cases hown
    | press code extended v event mapped plain _ presses =>
      rw [event] at hown
      have hsame : v = vk := Option.some.inj (mapped.symm.trans hown)
      rw [hsame] at plain
      exact .inr ⟨code, extended, event, hown, plain⟩
    | release code extended v event mapped plain _ releases =>
      rw [event] at hown
      have hsame : v = vk := Option.some.inj (mapped.symm.trans hown)
      rw [hsame] at releases
      exact absurd hvk (releases_own releases).2.1
    | modifier code extended down v event mapped modifier _ modifies =>
      have hmapped : keyOf i.1 = some v := by
        rw [event]
        cases down <;> exact mapped
      have hsame : v = vk := Option.some.inj (hmapped.symm.trans hown)
      rw [hsame] at modifier
      have hkept := ((untouched_refresh svc i.2.klid vk s).trans
        (untouched_modifies modifies)).consumed
      exact .inl ⟨hkept.mp hvk, fun _ _ _ _ => modifier⟩
  · refine .inl ⟨(untouched_handles hown h).consumed.mp hvk, ?_⟩
    intro code extended hevent hmapped
    rw [hevent] at hown
    exact absurd hmapped hown

/-- A key of the client's keyboard that is held before an event stays so, if it is not the one
released. -/
theorem mem_follow {held : Finset (UInt8 × Bool)} {e : KeyboardEvent} {k : UInt8 × Bool}
    (hk : k ∈ held) (hother : e ≠ .released k.1 k.2) : k ∈ follow held e := by
  cases e with
  | pressed code extended => exact Finset.mem_insert_of_mem hk
  | released code extended =>
    refine Finset.mem_erase.mpr ⟨?_, hk⟩
    rintro rfl
    exact hother rfl
  | unicodePressed | unicodeReleased | synchronize => exact hk

/-- Every event keeps the keys of the session with those of the client's keyboard. -/
theorem sound_handles {s' : Inner L} {held : Finset (UInt8 × Bool)}
    (hs : Sound s held) (h : Handles svc s i s') :
    Sound s' (follow held i.1) where
  remapped := by
    intro vk hvk
    by_cases hown : keyOf i.1 = some vk
    · have hrefresh := untouched_refresh svc i.2.klid vk s
      cases h with
      | ignored none | text none | synchronize none =>
        rw [none] at hown
        cases hown
      | modifier code extended down v event mapped modifier _ modifies =>
        have hkept := hrefresh.trans (untouched_modifies modifies : Untouched vk _ _)
        rw [hkept.down]
        exact hs.remapped vk (hkept.remapped.mp hvk)
      | press code extended v event mapped plain _ presses =>
        rw [event] at hown
        have hsame : v = vk := Option.some.inj (mapped.symm.trans hown)
        rw [hsame] at presses
        rcases (presses_own presses).2 hvk with hbefore | hdown
        · refine (presses_own presses).1 ?_
          rw [hrefresh.down]
          exact hs.remapped vk (hrefresh.remapped.mp hbefore)
        · exact hdown
      | release code extended v event mapped plain _ releases =>
        rw [event] at hown
        have hsame : v = vk := Option.some.inj (mapped.symm.trans hown)
        rw [hsame] at releases
        obtain ⟨hdown, -, hremapped⟩ := releases_own releases
        obtain ⟨hbefore, hswallows⟩ := hremapped hvk
        rw [hdown, hswallows, Bool.and_true, hrefresh.down]
        exact hs.remapped vk (hrefresh.remapped.mp hbefore)
    · have hkept := untouched_handles hown h
      rw [hkept.down]
      exact hs.remapped vk (hkept.remapped.mp hvk)
  consumed := by
    intro vk hvk
    rcases consumed_handles h hvk with
      ⟨hbefore, hreleased⟩ | ⟨code, extended, hevent, hmapped, hplain⟩
    · obtain ⟨hplain, k, hk, hmapped⟩ := hs.consumed vk hbefore
      refine ⟨hplain, k, mem_follow hk fun hevent => ?_, hmapped⟩
      rw [hreleased k.1 k.2 hevent hmapped] at hplain
      cases hplain
    · refine ⟨hplain, (code, extended), ?_, hmapped⟩
      rw [hevent]
      exact Finset.mem_insert_self _ _
  sides := by
    intro side hside
    rcases get_handles h hside with
      ⟨hbefore, hreleased⟩ | ⟨code, extended, vk, hevent, hmapped, hhalf⟩
    · obtain ⟨k, hk, vk, hmapped, hhalf⟩ := hs.sides side hbefore
      refine ⟨k, mem_follow hk fun hevent => ?_, vk, hmapped, hhalf⟩
      exact hreleased k.1 k.2 hevent vk hmapped hhalf
    · refine ⟨(code, extended), ?_, vk, hmapped, hhalf⟩
      rw [hevent]
      exact Finset.mem_insert_self _ _
  modifiers := by
    intro vk hvk
    have hbefore := hs.modifiers vk hvk
    have hrefresh := untouched_refresh svc i.2.klid vk s
    by_cases hown : keyOf i.1 = some vk
    · cases h with
      | ignored none | text none | synchronize none =>
        rw [none] at hown
        cases hown
      | modifier code extended down v event mapped modifier _ modifies =>
        rw [(hrefresh.trans (untouched_modifies modifies)).down]
        exact hbefore
      | press code extended v event mapped plain | release code extended v event mapped plain =>
        rw [event] at hown
        have hsame : v = vk := Option.some.inj (mapped.symm.trans hown)
        rw [hsame, hvk] at plain
        cases plain
    · rw [(untouched_handles hown h).down]
      exact hbefore
  flags := mirrored_handles h hs.flags

theorem after_append (s : Inner L) (first second : List (KeyboardEvent × Answers)) :
    after svc settings s (first ++ second) =
      after svc settings (after svc settings s first) second :=
  List.foldl_append

theorem sound_after (hs : Sound s ∅) (inputs : List (KeyboardEvent × Answers)) :
    Sound (after svc settings s inputs) (held inputs) := by
  induction inputs using List.reverseRecOn with
  | nil => exact hs
  | append_singleton inputs i ih =>
    rw [after_append, held, List.foldl_append]
    exact sound_handles ih (handles_keyboard svc settings _ i)

/-- Events about other keys leave a key as it is. -/
theorem untouched_after (s : Inner L) {inputs : List (KeyboardEvent × Answers)}
    (hother : ∀ i ∈ inputs, keyOf i.1 ≠ some vk) : Untouched vk s (after svc settings s inputs) := by
  induction inputs generalizing s with
  | nil => exact ⟨rfl, Iff.rfl, Iff.rfl⟩
  | cons i rest ih =>
    have hfirst := untouched_handles (hother i List.mem_cons_self)
      (handles_keyboard svc settings s i)
    exact hfirst.trans (ih _ fun j hj => hother j (List.mem_cons_of_mem i hj))

/-- The last event about a key, if there is one. -/
theorem exists_last (vk : UInt16) (inputs : List (KeyboardEvent × Answers)) :
    (∀ i ∈ inputs, keyOf i.1 ≠ some vk) ∨
      ∃ before i later, inputs = before ++ i :: later ∧ keyOf i.1 = some vk ∧
        ∀ j ∈ later, keyOf j.1 ≠ some vk := by
  induction inputs with
  | nil => exact .inl (fun _ hi => absurd hi List.not_mem_nil)
  | cons i rest ih =>
    rcases ih with hnone | ⟨before, j, later, rfl, hj, hlater⟩
    · by_cases hi : keyOf i.1 = some vk
      · exact .inr ⟨[], i, rest, rfl, hi, hnone⟩
      · exact .inl (List.forall_mem_cons.mpr ⟨hi, hnone⟩)
    · exact .inr ⟨i :: before, j, later, rfl, hj, hlater⟩

/-- A key of the client's keyboard whose last event is its press is still held. -/
theorem mem_held {before later : List (KeyboardEvent × Answers)} {code : UInt8} {extended : Bool}
    {answers : Answers} (hmapped : scancodeToCgkeycode code extended = some vk)
    (hlater : ∀ j ∈ later, keyOf j.1 ≠ some vk) :
    (code, extended) ∈ held (before ++ (.pressed code extended, answers) :: later) := by
  have hkept : ∀ (h : Finset (UInt8 × Bool)), (code, extended) ∈ h →
      (code, extended) ∈ later.foldl (fun held i => follow held i.1) h := by
    induction later with
    | nil => exact fun _ hmem => hmem
    | cons j rest ih =>
      intro h hmem
      refine ih (fun i hi => hlater i (List.mem_cons_of_mem j hi)) _ (mem_follow hmem ?_)
      intro hevent
      have hj := hlater j List.mem_cons_self
      rw [hevent] at hj
      exact hj hmapped
  rw [held, List.foldl_append, List.foldl_cons]
  exact hkept _ (Finset.mem_insert_self _ _)

/-- After a release the key is down if it was and the release is swallowed. -/
theorem standsDown_release {h : Finset (UInt8 × Bool)} (hs : Sound s h)
    {code : UInt8} {extended : Bool} (hevent : i.1 = .released code extended)
    (hmapped : scancodeToCgkeycode code extended = some vk) :
    standsDown vk (s.keyboard svc settings i).effects = strands svc s i := by
  have hstrands : strands svc s i = (!ModifierState.isModifierVk vk && standsDown vk s.effects &&
      swallows vk (s.refreshAutoLayout svc i.2.klid)) := by
    simp only [strands, hevent, hmapped, Option.any_some]
  have hkey : keyOf i.1 = some vk := by
    rw [hevent]
    exact hmapped
  have hsound := sound_handles hs (handles_keyboard svc settings s i)
  have hrefresh := untouched_refresh svc i.2.klid vk s
  rw [hstrands]
  cases hmodifier : ModifierState.isModifierVk vk with
  | true => exact hsound.modifiers vk hmodifier
  | false =>
    have hhandles := handles_keyboard svc settings s i
    generalize s.keyboard svc settings i = s' at hhandles
    cases hhandles with
    | ignored none | text none | synchronize none =>
      rw [none] at hkey
      cases hkey
    | press code' extended' v event =>
      rw [event] at hevent
      cases hevent
    | modifier code' extended' down v event mapped modifier _ modifies =>
      have hv : keyOf i.1 = some v := by
        rw [event]
        cases down <;> exact mapped
      have hsame : v = vk := Option.some.inj (hv.symm.trans hkey)
      rw [hsame, hmodifier] at modifier
      cases modifier
    | release code' extended' v event mapped plain _ releases =>
      rw [event] at hkey
      have hsame : v = vk := Option.some.inj (mapped.symm.trans hkey)
      rw [hsame] at releases
      rw [(releases_own releases).1, hrefresh.down]
      rfl

end Run

/-- The last release of each key is not swallowed while the key is down. -/
def LetsGo {L : Type*} (svc : LayoutService L) (settings : Settings) (s : Inner L)
    (inputs : List (KeyboardEvent × Answers)) : Prop :=
  ∀ before i later, inputs = before ++ i :: later → (∀ j ∈ later, keyOf j.1 ≠ keyOf i.1) →
    strands svc (after svc settings s before) i = false

/-- The decidable form of `LetsGo`, for evaluating it on one run. -/
def letsGo {L : Type*} (svc : LayoutService L) (settings : Settings) :
    Inner L → List (KeyboardEvent × Answers) → Bool
  | _, [] => true
  | s, i :: rest => (rest.any (fun j => decide (keyOf j.1 = keyOf i.1)) || !strands svc s i) &&
    letsGo svc settings (s.keyboard svc settings i) rest

/-- The decidable form agrees with the proposition it evaluates. -/
theorem letsGo_iff {L : Type*} {svc : LayoutService L} {settings : Settings} {s : Inner L}
    {inputs : List (KeyboardEvent × Answers)} :
    letsGo svc settings s inputs = true ↔ LetsGo svc settings s inputs := by
  induction inputs generalizing s with
  | nil =>
    refine ⟨fun _ before i later hsplit => ?_, fun _ => rfl⟩
    exact absurd hsplit.symm (List.append_ne_nil_of_right_ne_nil _ (by simp))
  | cons i rest ih =>
    simp only [letsGo, Bool.and_eq_true, Bool.or_eq_true, List.any_eq_true, decide_eq_true_eq,
      Bool.not_eq_true', ih]
    constructor
    · rintro ⟨hfirst, hrest⟩ before j later hsplit hlater
      cases before with
      | nil =>
        obtain ⟨rfl, rfl⟩ := List.cons.inj hsplit
        exact hfirst.resolve_left fun ⟨k, hk, hsame⟩ => hlater k hk hsame
      | cons k before =>
        obtain ⟨rfl, hrest'⟩ := List.cons.inj hsplit
        exact hrest before j later hrest' hlater
    · intro h
      constructor
      · by_cases hagain : ∃ j ∈ rest, keyOf j.1 = keyOf i.1
        · exact .inl hagain
        · exact .inr (h [] i rest rfl fun j hj hsame => hagain ⟨j, hj, hsame⟩)
      · intro before j later hsplit hlater
        exact h (i :: before) j later (by rw [hsplit]; rfl) hlater

/-- Once no key of the client's keyboard is held, nothing is left of the keys that were pressed,
exactly if the last release of each is not swallowed while the key is down. -/
theorem noStuckKeys_iff {L : Type*} (svc : LayoutService L) (settings : Settings)
    (targetDisplayId : Option UInt32) (keyboardLayout : Option String) (klidHandle : Bool)
    (inputs : List (KeyboardEvent × Answers)) (hreleased : held inputs = ∅) :
    NoStuckKeys (after svc settings (.new svc targetDisplayId keyboardLayout klidHandle) inputs) ↔
      LetsGo svc settings (.new svc targetDisplayId keyboardLayout klidHandle) inputs := by
  have hnew : Sound (Inner.new svc targetDisplayId keyboardLayout klidHandle) ∅ :=
    sound_new targetDisplayId keyboardLayout klidHandle
  have hnothing : ∀ vk, standsDown vk
      (Inner.new svc targetDisplayId keyboardLayout klidHandle).effects = false := fun _ => rfl
  generalize Inner.new svc targetDisplayId keyboardLayout klidHandle = s at *
  have hsound : Sound (after svc settings s inputs) (held inputs) := sound_after hnew inputs
  rw [hreleased] at hsound
  constructor
  · intro h before i later hsplit hlater
    by_contra hstrands
    rw [Bool.not_eq_false] at hstrands
    -- Only the release of a mapped key can strand it.
    have hrelease : ∃ code extended vk, i.1 = .released code extended ∧
        scancodeToCgkeycode code extended = some vk := by
      obtain ⟨event, answers⟩ := i
      cases event with
      | released code extended =>
        obtain ⟨vk, hvk, -⟩ := (Option.any_eq_true _ _).mp hstrands
        exact ⟨code, extended, vk, rfl, hvk⟩
      | pressed | unicodePressed | unicodeReleased | synchronize => cases hstrands
    obtain ⟨code, extended, vk, hevent, hmapped⟩ := hrelease
    have hkey : keyOf i.1 = some vk := by
      rw [hevent]
      exact hmapped
    have hlifted := lifted_iff.mp (h.lifted vk)
    rw [hkey] at hlater
    have huntouched : Untouched vk ((after svc settings s before).keyboard svc settings i)
        (after svc settings ((after svc settings s before).keyboard svc settings i) later) :=
      untouched_after _ hlater
    have hlast := huntouched.down
    rw [standsDown_release (sound_after hnew before) hevent hmapped, hstrands] at hlast
    have hwhole : after svc settings s inputs = after svc settings
        ((after svc settings s before).keyboard svc settings i) later := by
      rw [hsplit, after_append]
      rfl
    rw [hwhole, hlast] at hlifted
    cases hlifted
  · intro h
    have hlifted : ∀ vk, standsDown vk (after svc settings s inputs).effects = false := by
      intro vk
      rcases exists_last vk inputs with hnone | ⟨before, i, later, hsplit, hkey, hlater⟩
      · rw [(untouched_after s hnone).down]
        exact hnothing vk
      · have hwhole : after svc settings s inputs = after svc settings
            ((after svc settings s before).keyboard svc settings i) later := by
          rw [hsplit, after_append]
          rfl
        rw [hwhole, (untouched_after _ hlater).down]
        have hstrands := h before i later hsplit (by rw [hkey]; exact hlater)
        obtain ⟨event, answers⟩ := i
        cases event with
        | released code extended =>
          rw [standsDown_release (sound_after hnew before) rfl hkey]
          exact hstrands
        | pressed code extended =>
          have hheld : (code, extended) ∈ held (before ++ (.pressed code extended, answers) :: later) :=
            mem_held hkey hlater
          rw [← hsplit, hreleased] at hheld
          exact absurd hheld (Finset.notMem_empty _)
        | unicodePressed | unicodeReleased | synchronize => cases hkey
    have hsides : ∀ side, (after svc settings s inputs).mods.get side = false := by
      intro side
      by_contra hheld
      rw [Bool.not_eq_false] at hheld
      obtain ⟨k, hk, -⟩ := hsound.sides side hheld
      exact absurd hk (Finset.notMem_empty k)
    have hctrl : (after svc settings s inputs).mods.hasCtrl = false := by
      have hleft : (after svc settings s inputs).mods.lCtrl = false := hsides .lCtrl
      have hright : (after svc settings s inputs).mods.rCtrl = false := hsides .rCtrl
      rw [ModifierState.hasCtrl, hleft, hright]
      rfl
    have hmirrored : Mirrored (after svc settings s inputs) := by
      refine hsound.flags.resolve_right fun hheld => ?_
      rw [hctrl] at hheld
      cases hheld
    refine ⟨fun vk => lifted_iff.mpr (hlifted vk), ?_, ?_, hmirrored.1, hmirrored.2,
      eq_of_get hsides⟩
    · refine Finset.eq_empty_of_forall_notMem fun vk hvk => ?_
      obtain ⟨-, k, hk, -⟩ := hsound.consumed vk hvk
      exact absurd hk (Finset.notMem_empty k)
    · refine Finset.eq_empty_of_forall_notMem fun vk hvk => ?_
      have hdown := hsound.remapped vk hvk
      rw [hlifted vk] at hdown
      cases hdown

/-- One layout, found under every name. -/
def oneLayout : LayoutService Unit where
  resolve := fun _ => some ()
  translate := fun _ _ _ _ _ => (some "q", ())

/-- Control is taken for Command. -/
def mappingCtrl : Settings where
  mapCtrlToCmd := true
  altTabSwitch := false
  altBacktickSwitch := false

/-- A client with a German layout. -/
def german : Answers where
  klid := 0x0407
  cycleSessionActive := false
  frontmostIsExcluded := false

/-- Control is pressed and a letter under it, and they are released in the order of their
presses. -/
def shortcut (letter : UInt8) : List (KeyboardEvent × Answers) :=
  [(.pressed 0x1D false, german), (.pressed letter false, german),
    (.released 0x1D false, german), (.released letter false, german)]

/-- The release of a letter that was posted with Control taken for Command is posted. -/
theorem noStuckKeys_copied :
    NoStuckKeys (after oneLayout mappingCtrl (.new oneLayout none none true) (shortcut 0x2E)) := by
  have hletsGo : letsGo oneLayout mappingCtrl (.new oneLayout none none true) (shortcut 0x2E) =
      true := by
    decide +kernel
  exact (noStuckKeys_iff oneLayout mappingCtrl none none true (shortcut 0x2E)
    (by decide +kernel)).mpr (letsGo_iff.mp hletsGo)

/-- The release of a letter that was posted under its keycode is swallowed by the layout. -/
theorem not_noStuckKeys_letter :
    ¬∀ (L : Type) (svc : LayoutService L) (settings : Settings)
      (targetDisplayId : Option UInt32) (keyboardLayout : Option String) (klidHandle : Bool)
      (inputs : List (KeyboardEvent × Answers)), held inputs = ∅ →
      NoStuckKeys
        (after svc settings (.new svc targetDisplayId keyboardLayout klidHandle) inputs) := by
  intro h
  have hstuck : standsDown 0x02 (after oneLayout mappingCtrl (.new oneLayout none none true)
      (shortcut 0x20)).effects = true := by
    decide +kernel
  have hlifted := (h Unit oneLayout mappingCtrl none none true (shortcut 0x20)
    (by decide +kernel)).lifted 0x02
  rw [lifted_iff, hstuck] at hlifted
  cases hlifted

end Macrdp.KeyboardInput.StuckKeys
