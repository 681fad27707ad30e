import Mathlib.Data.Finset.Insert
import Mathlib.Data.Finset.Erase
import Macrdp.Scancodes

/-!
# Keyboard input

The client's keyboard events become events of the Mac's session. A modifier posts
its changed flags to both event sources; any other key is a symbolic hotkey, or an
editing shortcut with Control taken for Command, or a character of the client's
layout, or is posted under its keycode.
-/

namespace Macrdp.KeyboardInput

open Scancodes

def vkTab : UInt16 := 0x30
def vkSpace : UInt16 := 0x31
def vk3 : UInt16 := 0x14
def vk4 : UInt16 := 0x15
def vk5 : UInt16 := 0x17
def vkGrave : UInt16 := 0x32
def vkCapsLock : UInt16 := 0x39
def vkG : UInt16 := 0x05
def vkR : UInt16 := 0x0F
def vkLeft : UInt16 := 0x7B
def vkRight : UInt16 := 0x7C
def vkLShift : UInt16 := 0x38
def vkRShift : UInt16 := 0x3C
def vkLCtrl : UInt16 := 0x3B
def vkRCtrl : UInt16 := 0x3E
def vkLAlt : UInt16 := 0x3A
def vkRAlt : UInt16 := 0x3D
def vkLCmd : UInt16 := 0x37
def vkRCmd : UInt16 := 0x36

def flagAlphaShift : UInt64 := 0x00010000
def flagShift : UInt64 := 0x00020000
def flagControl : UInt64 := 0x00040000
def flagAlternate : UInt64 := 0x00080000
def flagCommand : UInt64 := 0x00100000
def flagNumericPad : UInt64 := 0x00200000
def flagSecondaryFn : UInt64 := 0x00800000

def nxDeviceLCtrl : UInt64 := 0x0001
def nxDeviceLShift : UInt64 := 0x0002
def nxDeviceRShift : UInt64 := 0x0004
def nxDeviceLCmd : UInt64 := 0x0008
def nxDeviceRCmd : UInt64 := 0x0010
def nxDeviceLAlt : UInt64 := 0x0020
def nxDeviceRAlt : UInt64 := 0x0040
def nxDeviceRCtrl : UInt64 := 0x2000

/-- One side of a modifier. -/
inductive Half where
  | lShift | rShift | lCtrl | rCtrl | lAlt | rAlt | lCmd | rCmd
  deriving DecidableEq

/-- The side of a modifier that a virtual keycode is. -/
def half (vk : UInt16) : Option Half :=
  [(vkLShift, Half.lShift), (vkRShift, .rShift), (vkLCtrl, .lCtrl), (vkRCtrl, .rCtrl),
    (vkLAlt, .lAlt), (vkRAlt, .rAlt), (vkLCmd, .lCmd), (vkRCmd, .rCmd)].lookup vk

/-- The modifiers, each side on its own; Caps Lock is a toggle. -/
structure ModifierState where
  lShift : Bool
  rShift : Bool
  lCtrl : Bool
  rCtrl : Bool
  lAlt : Bool
  rAlt : Bool
  lCmd : Bool
  rCmd : Bool
  capsLock : Bool
  deriving DecidableEq

namespace ModifierState

def default : ModifierState := ⟨false, false, false, false, false, false, false, false, false⟩

/-- A side is held. -/
def get (m : ModifierState) : Half → Bool
  | .lShift => m.lShift
  | .rShift => m.rShift
  | .lCtrl => m.lCtrl
  | .rCtrl => m.rCtrl
  | .lAlt => m.lAlt
  | .rAlt => m.rAlt
  | .lCmd => m.lCmd
  | .rCmd => m.rCmd

def set (m : ModifierState) (down : Bool) : Half → ModifierState
  | .lShift => { m with lShift := down }
  | .rShift => { m with rShift := down }
  | .lCtrl => { m with lCtrl := down }
  | .rCtrl => { m with rCtrl := down }
  | .lAlt => { m with lAlt := down }
  | .rAlt => { m with rAlt := down }
  | .lCmd => { m with lCmd := down }
  | .rCmd => { m with rCmd := down }

def hasShift (m : ModifierState) : Bool := m.lShift || m.rShift
def hasCtrl (m : ModifierState) : Bool := m.lCtrl || m.rCtrl
def hasAlt (m : ModifierState) : Bool := m.lAlt || m.rAlt
def hasCmd (m : ModifierState) : Bool := m.lCmd || m.rCmd

/-- A flag, if it is to be set. -/
def bit (isSet : Bool) (flag : UInt64) : UInt64 := if isSet then flag else 0

/-- The flags of an event: those of the modifiers, and those of their sides. -/
def cgFlags (m : ModifierState) : UInt64 :=
  bit m.hasShift flagShift ||| bit m.hasCtrl flagControl ||| bit m.hasAlt flagAlternate |||
    bit m.hasCmd flagCommand ||| bit m.capsLock flagAlphaShift ||| bit m.lShift nxDeviceLShift |||
    bit m.rShift nxDeviceRShift ||| bit m.lCtrl nxDeviceLCtrl ||| bit m.rCtrl nxDeviceRCtrl |||
    bit m.lAlt nxDeviceLAlt ||| bit m.rAlt nxDeviceRAlt ||| bit m.lCmd nxDeviceLCmd |||
    bit m.rCmd nxDeviceRCmd

/-- A modifier, or Caps Lock. -/
def isModifierVk (vk : UInt16) : Bool := (half vk).isSome || decide (vk = vkCapsLock)

/-- A modifier is pressed or released, and whether this changed anything. -/
def apply (m : ModifierState) (vk : UInt16) (down : Bool) : ModifierState × Bool :=
  if vk = vkCapsLock then
    if down then ({ m with capsLock := !m.capsLock }, true) else (m, false)
  else
    match half vk with
    | none => (m, false)
    | some side => if m.get side = down then (m, false) else (m.set down side, true)

end ModifierState

/-- The sources events are posted from. -/
inductive EventSource where
  | combined
  /-- Mirrors the modifiers for the symbolic hotkeys of the system. -/
  | hid
  /-- Keeps the function keys apart. -/
  | privateFn
  deriving DecidableEq

/-- What a symbolic hotkey does. -/
inductive Hotkey where
  | gatherWindows (displayId : UInt32)
  | resync
  | cycleApps (backward : Bool)
  | cycleWindows (backward : Bool)
  | spotlight
  | screencapture (args : List String)
  | screenshotApp
  deriving DecidableEq

/-- What the handler does to the session. -/
inductive Effect where
  | flagsChanged (source : EventSource) (vk : UInt16) (flags : UInt64)
  | key (source : EventSource) (vk : UInt16) (down : Bool) (flags : UInt64)
  /-- A key-down with a string in place of a keycode. -/
  | text (flags : UInt64) (utf16 : List UInt16)
  | hotkey (h : Hotkey)
  /-- The app a cycle ended on comes to the front. -/
  | commitCycleSession
  deriving DecidableEq

/-- The platform's layouts: found by a name, and translating a key under Shift,
Option and Caps Lock, with the dead keys in the layout. -/
structure LayoutService (L : Type*) where
  resolve : String → Option L
  translate : L → UInt16 → Bool → Bool → Bool → Option String × L

/-- The switches of the process. -/
structure Settings where
  mapCtrlToCmd : Bool
  altTabSwitch : Bool
  altBacktickSwitch : Bool

/-- What the handler is told when it asks, during one event. -/
structure Answers where
  /-- The layout the client announced. -/
  klid : UInt32
  cycleSessionActive : Bool
  frontmostIsExcluded : Bool

/-- An event of the client's keyboard. -/
inductive KeyboardEvent where
  | pressed (code : UInt8) (extended : Bool)
  | released (code : UInt8) (extended : Bool)
  | unicodePressed (c : UInt16)
  | unicodeReleased (c : UInt16)
  /-- The states of the client's lock keys. -/
  | synchronize (flags : UInt8)
  deriving DecidableEq

/-- The lock-key flag of Caps Lock. -/
def syncCapsLock : UInt8 := 0x04

/-- The keyboard's part of the input handler. -/
structure Inner (L : Type*) where
  /-- The display that windows are gathered onto. -/
  targetDisplayId : Option UInt32
  mods : ModifierState
  /-- Keys whose key-down was taken for a symbolic hotkey. -/
  consumedKeys : Finset UInt16
  /-- Keys whose key-down was posted with Control taken for Command. -/
  remappedKeys : Finset UInt16
  layout : Option L
  /-- There is a cell with the layout the client announced. -/
  klidHandle : Bool
  lastKlid : UInt32
  autoLayout : Bool
  /-- All that was done to the session so far. -/
  effects : List Effect

/-- The blanks that are trimmed. -/
def isWhitespace (c : Char) : Bool :=
  decide (0x09 ≤ c.val ∧ c.val ≤ 0x0d) || decide (0x2000 ≤ c.val ∧ c.val ≤ 0x200a) ||
    decide (c.val ∈ [0x20, 0x85, 0xa0, 0x1680, 0x2028, 0x2029, 0x202f, 0x205f, 0x3000])

/-- A string without blanks at its ends. -/
def trim (s : String) : String :=
  String.ofList ((s.toList.dropWhile isWhitespace).reverse.dropWhile isWhitespace).reverse

/-- The name of a layout by its identifier: at least four hexadecimal digits. -/
def klidSpec (klid : UInt32) : String :=
  let digits := Nat.toDigits 16 klid.toNat
  "0x" ++ String.ofList (List.replicate (4 - digits.length) '0' ++ digits)

/-- A character in code units. -/
def charUtf16 (c : Char) : List UInt16 :=
  if c.val < 0x10000 then [c.val.toUInt16]
  else
    let high : UInt16 := ((c.val - 0x10000) >>> 10).toUInt16
    let low : UInt16 := ((c.val - 0x10000) &&& 0x3ff).toUInt16
    [0xd800 + high, 0xdc00 + low]

/-- A string in code units. -/
def encodeUtf16 (text : String) : List UInt16 := text.toList.flatMap charUtf16

namespace Inner

variable {L : Type*} (svc : LayoutService L) (settings : Settings)

/-- A new handler; a layout that is named is not detected. -/
def new (targetDisplayId : Option UInt32) (keyboardLayout : Option String) (klidHandle : Bool) :
    Inner L :=
  let selected : Option L × Bool := match keyboardLayout.map trim with
    | none => (none, klidHandle)
    | some spec =>
      if spec = "none" ∨ spec = "off" ∨ spec = "" then (none, false) else (svc.resolve spec, false)
  { targetDisplayId := targetDisplayId
    mods := .default
    consumedKeys := ∅
    remappedKeys := ∅
    layout := selected.1
    klidHandle := klidHandle
    lastKlid := 0
    autoLayout := selected.2
    effects := [] }

/-- Do something to the session. -/
def emit (s : Inner L) (done : List Effect) : Inner L := { s with effects := s.effects ++ done }

/-- Follow the layout the client announced, if it is to be detected. -/
def refreshAutoLayout (klid : UInt32) (s : Inner L) : Inner L :=
  if !s.autoLayout || !s.klidHandle || decide (klid = s.lastKlid) then s
  else
    { s with
      lastKlid := klid
      layout :=
        if klid ≠ 0 ∧ klid &&& 0xffff ≠ 0x0409 then svc.resolve (klidSpec (klid &&& 0xffff))
        else none }

/-- Post the flags of the modifiers from both sources. -/
def postFlagsChanged (vk : UInt16) (s : Inner L) : Inner L :=
  s.emit [.flagsChanged .combined vk s.mods.cgFlags, .flagsChanged .hid vk s.mods.cgFlags]

/-- The flags with Command in place of Control. -/
def swappedFlags (m : ModifierState) : UInt64 :=
  (m.cgFlags &&& ~~~flagControl &&& ~~~(nxDeviceLCtrl ||| nxDeviceRCtrl)) ||| flagCommand |||
    nxDeviceLCmd

/-- Post a shortcut with Control taken for Command; its release brings the flags back. -/
def postCtrlAsCmd (vk : UInt16) (down : Bool) (s : Inner L) : Inner L :=
  let swapped := swappedFlags s.mods
  if down then
    s.emit [.flagsChanged .combined vkLCmd swapped, .flagsChanged .hid vkLCmd swapped,
      .key .combined vk true swapped]
  else (s.emit [.key .combined vk false swapped]).postFlagsChanged vkLCmd

/-- The symbolic hotkey that a key is under the modifiers held. -/
def trySymbolicHotkey (answers : Answers) (vk : UInt16) (s : Inner L) : Option Hotkey :=
  let f := s.mods.cgFlags
  let cmd := decide (f &&& flagCommand = flagCommand)
  let shift := decide (f &&& flagShift = flagShift)
  let ctrl := decide (f &&& flagControl = flagControl)
  let opt := decide (f &&& flagAlternate = flagAlternate)
  if ctrl && opt && !cmd && decide (vk = vkG) then s.targetDisplayId.map .gatherWindows
  else if ctrl && opt && shift && !cmd && decide (vk = vkR) then some .resync
  else if settings.altTabSwitch && opt && !cmd && !ctrl && decide (vk = vkTab) then
    some (.cycleApps shift)
  else if settings.altBacktickSwitch && opt && !cmd && !ctrl && decide (vk = vkGrave) then
    some (.cycleWindows shift)
  else if (cmd || opt) && !ctrl && decide (vk = vkLeft ∨ vk = vkRight) &&
      answers.cycleSessionActive then
    some (.cycleApps (decide (vk = vkLeft)))
  else if !cmd then none
  else if ctrl || opt then none
  else if vk = vkTab then some (.cycleApps shift)
  else if !shift && decide (vk = vkSpace) then some .spotlight
  else if shift && decide (vk = vk3) then some (.screencapture ["-x"])
  else if shift && decide (vk = vk4) then some (.screencapture ["-i"])
  else if shift && decide (vk = vk5) then some .screenshotApp
  else if vk = vkGrave then some (.cycleWindows shift)
  else none

/-- A modifier; the release of the last side of the switcher's modifier ends a cycle. -/
def modifierKey (vk : UInt16) (down : Bool) (s : Inner L) : Inner L :=
  let applied := s.mods.apply vk down
  let s := { s with mods := applied.1 }
  let s := if applied.2 then s.postFlagsChanged vk else s
  let cmdReleased := decide (vk = vkLCmd ∨ vk = vkRCmd) && !down && !s.mods.hasCmd
  let optReleased := settings.altTabSwitch && decide (vk = vkLAlt ∨ vk = vkRAlt) && !down &&
    !s.mods.hasAlt
  if cmdReleased || optReleased then s.emit [.commitCycleSession] else s

/-- The flags of an event that comes from neither the function keys nor the numeric pad. -/
def plainFlags (m : ModifierState) : UInt64 :=
  m.cgFlags &&& ~~~flagSecondaryFn &&& ~~~flagNumericPad

/-- A key pressed under a layout; a dead key has no text yet. -/
def typeKey (vk : UInt16) (layout : L) (s : Inner L) : Inner L :=
  let translated := svc.translate layout vk s.mods.hasShift s.mods.hasAlt s.mods.capsLock
  let s := { s with layout := some translated.2 }
  match translated.1 with
  | none => s
  | some text =>
    if text.isEmpty then s else s.emit [.text (plainFlags s.mods) (encodeUtf16 text)]

/-- Post a key under its keycode. -/
def postKey (vk : UInt16) (down : Bool) (s : Inner L) : Inner L :=
  let source := if isFunctionKeyVk vk then EventSource.privateFn else .combined
  let flags := if isFunctionKeyVk vk then s.mods.cgFlags ||| flagSecondaryFn else s.mods.cgFlags
  let flags :=
    if isNumericPadVk vk then flags ||| flagNumericPad else flags &&& ~~~flagNumericPad
  s.emit [.key source vk down flags]

/-- Control is taken for Command in a shortcut. -/
def remaps (answers : Answers) (vk : UInt16) (s : Inner L) : Bool :=
  settings.mapCtrlToCmd && s.mods.hasCtrl && !s.mods.hasCmd && !s.mods.hasAlt &&
    isRemappableShortcut vk && !answers.frontmostIsExcluded

/-- A key is typed under the layout there is. -/
def typesUnder (vk : UInt16) (s : Inner L) : Option L :=
  if !s.mods.hasCmd && !s.mods.hasCtrl && isTranslatableKeycode vk then s.layout else none

/-- A key that is not a symbolic hotkey is pressed. -/
def pressPlain (answers : Answers) (vk : UInt16) (s : Inner L) : Inner L :=
  if remaps settings answers vk s then
    { s.postCtrlAsCmd vk true with remappedKeys := insert vk s.remappedKeys }
  else
    match s.typesUnder vk with
    | some layout => s.typeKey svc vk layout
    | none => s.postKey vk true

/-- A key that is no modifier is pressed. -/
def pressKey (answers : Answers) (vk : UInt16) (s : Inner L) : Inner L :=
  match s.trySymbolicHotkey settings answers vk with
  | some h => { s.emit [.hotkey h] with consumedKeys := insert vk s.consumedKeys }
  | none => s.pressPlain svc settings answers vk

/-- A key that is no modifier is released. -/
def releaseKey (vk : UInt16) (s : Inner L) : Inner L :=
  if vk ∈ s.consumedKeys then { s with consumedKeys := s.consumedKeys.erase vk }
  else if vk ∈ s.remappedKeys then
    ({ s with remappedKeys := s.remappedKeys.erase vk }).postCtrlAsCmd vk false
  else
    match s.typesUnder vk with
    | some _ => s
    | none => s.postKey vk false

/-- A key is pressed or released. -/
def key (answers : Answers) (scancode : UInt8) (extended down : Bool) (s : Inner L) : Inner L :=
  match scancodeToCgkeycode scancode extended with
  | none => s
  | some vk =>
    let s := s.refreshAutoLayout svc answers.klid
    if ModifierState.isModifierVk vk then s.modifierKey settings vk down
    else if down then s.pressKey svc settings answers vk
    else s.releaseKey vk

/-- Text without a keycode; it is typed by its press. -/
def unicode (c : UInt16) (down : Bool) (s : Inner L) : Inner L :=
  if down then s.emit [.text (plainFlags s.mods) [c]] else s

/-- Follow the client's Caps Lock. -/
def synchronize (flags : UInt8) (s : Inner L) : Inner L :=
  let wantCaps := decide (flags &&& syncCapsLock = syncCapsLock)
  if wantCaps = s.mods.capsLock then s
  else ({ s with mods := { s.mods with capsLock := wantCaps } }).postFlagsChanged vkCapsLock

/-- An event of the client's keyboard. -/
def keyboard (s : Inner L) (i : KeyboardEvent × Answers) : Inner L :=
  match i.1 with
  | .pressed code extended => s.key svc settings i.2 code extended true
  | .released code extended => s.key svc settings i.2 code extended false
  | .unicodePressed c => s.unicode c true
  | .unicodeReleased c => s.unicode c false
  | .synchronize flags => s.synchronize flags

end Inner

end Macrdp.KeyboardInput
