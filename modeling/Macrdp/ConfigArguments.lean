import Macrdp.ConfigFile
import Mathlib.Algebra.Order.Ring.Nat

/-!
# The arguments that a configuration file gives

The settings of the file are turned into a command line, which is read by the reader of command
lines. Two keys are not like the others: `EXTRA_FLAGS` is appended word by word, and `BITRATE`
replaces what the words say about the bit rate. What is expected is that the two go together, that
the two audio modes exclude each other, and that lossy audio is offered where it is turned on.
-/

namespace Macrdp.ConfigArguments

open ConfigFile (enableAac enableLossyAudio)
open ConfigFile.Server (cfg isOn)
open KeyboardInput (isWhitespace)

abbrev Text := List Char

/-! ## The reader of command lines -/

/-- The options without a value. -/
def flagOptions : List Text :=
  ["hidpi".toList, "skip-auth".toList, "keychain".toList, "verbose".toList, "allow-sleep".toList,
    "virtual-display".toList, "make-primary".toList, "detach-primary".toList,
    "capture-primary".toList, "shield-primary".toList, "restore-windows-on-disconnect".toList,
    "stats-endpoint".toList, "enable-h264".toList, "keyframe-on-change".toList,
    "no-keyframe-on-change".toList, "no-lazy-paste".toList, "lazy-paste".toList,
    "no-mute-on-minimize".toList, "enable-aac".toList, "enable-drive-redirection".toList,
    "enable-smartcard-redirection".toList, "enable-usb-redirection".toList,
    "enable-camera-redirection".toList, "enable-udp-multitransport".toList,
    "udp-migrate-egfx".toList, "adaptive-bitrate".toList, "enable-lossy-audio".toList,
    "no-client-resolution".toList, "stretch".toList, "unminimize-on-switch".toList,
    "alt-tab-switch".toList, "alt-backtick-switch".toList, "app-switcher-hud".toList,
    "map-ctrl-to-cmd".toList, "usb-spike".toList, "check-permissions".toList]

/-- The options with a value. -/
def valueOptions : List Text :=
  ["bind".toList, "width".toList, "height".toList, "fps".toList, "cursor-scale".toList,
    "username".toList, "password".toList, "cert-dir".toList, "cert".toList, "key".toList,
    "log-dir".toList, "audit-file".toList, "bitrate".toList, "keyframe-interval".toList,
    "keyframe-change-pct".toList, "keyframe-click-pct".toList, "keyframe-click-window-ms".toList,
    "h264-frames-in-flight".toList, "flush-frames".toList, "aac-bitrate".toList,
    "max-client-size".toList, "no-remap-apps".toList, "keyboard-layout".toList, "config".toList]

/-- The options that may be repeated. -/
def repeatable : List Text := ["no-remap-apps".toList]

def bitrateName : Text := "bitrate".toList

def aacName : Text := "enable-aac".toList

def lossyName : Text := "enable-lossy-audio".toList

def udpName : Text := "enable-udp-multitransport".toList

/-- An option by its long name. -/
def long (name : Text) : Text := '-' :: '-' :: name

/-- What ends the options. -/
def terminator : Text := "--".toList

/-- What a word of the command line is, where an option may stand. -/
inductive Reading where
  /-- An option without a value. -/
  | flag (name : Text)
  /-- An option whose value is the next word. -/
  | option (name : Text)
  /-- An option with its value after an equals sign. -/
  | joined (name value : Text)
  /-- The end of the options. -/
  | done
  /-- Nothing that is known. -/
  | unknown
  deriving DecidableEq

/-- What follows two hyphens. -/
def readingLong (body : Text) : Reading :=
  match TextLines.splitOnce '=' body with
  | some (name, value) => if name ∈ valueOptions then .joined name value else .unknown
  | none =>
    if body ∈ flagOptions then .flag body
    else if body ∈ valueOptions then .option body else .unknown

/-- What a word is. -/
def reading (word : Text) : Reading :=
  if word = terminator then .done
  else if word = "-v".toList then .flag "verbose".toList
  else
    match word with
    | '-' :: '-' :: body => readingLong body
    | _ => .unknown

/-- Whether a word cannot be a value, as it looks like an option. -/
def hyphened (word : Text) : Bool := decide (word.head? = some '-' ∧ word ≠ ['-'])

/-- An option as it stands on the command line. -/
structure Item where
  name : Text
  value : Option Text
  /-- The value stands after an equals sign. -/
  joined : Bool
  deriving DecidableEq

/-- The options on a command line. -/
def parse : List Text → Option (List Item)
  | [] => some []
  | word :: rest =>
    match reading word, rest with
    | .flag name, rest => (parse rest).map (⟨name, none, false⟩ :: ·)
    | .joined name value, rest => (parse rest).map (⟨name, some value, true⟩ :: ·)
    | .option name, value :: rest =>
      if hyphened value = true then none else (parse rest).map (⟨name, some value, false⟩ :: ·)
    | .option _, [] => none
    | .done, rest => if rest = [] then some [] else none
    | .unknown, _ => none

/-- The number that a text is, if it is one of thirty-two bits. -/
def parseU32 (text : Text) : Option ℕ :=
  let digits := if text.head? = some '+' then text.tail else text
  let number := digits.foldl (fun n c => 10 * n + (c.toNat - '0'.toNat)) 0
  if digits ≠ [] ∧ digits.all Char.isDigit = true ∧ number < 2 ^ 32 then some number else none

/-- What the reader goes by. -/
structure Clap where
  /-- Whether an option other than the bit rate can have such a value. -/
  valid : Text → Text → Bool

/-- Whether the value of an option is valid. -/
def Clap.accepts (clap : Clap) (item : Item) : Bool :=
  match item.value with
  | none => true
  | some value =>
    if item.name = bitrateName then (parseU32 value).isSome else clap.valid item.name value

/-- No option is repeated that may not be. -/
def Once (items : List Item) : Prop :=
  ((items.map Item.name).filter fun name => decide (name ∉ repeatable)).Nodup

instance (items : List Item) : Decidable (Once items) :=
  inferInstanceAs (Decidable (List.Nodup _))

/-- The arguments. -/
structure Args where
  items : List Item
  once : Once items

/-- The values given for an option. -/
def Args.given (args : Args) (name : Text) : List (Option Text) :=
  (args.items.filter fun item => decide (item.name = name)).map Item.value

/-- Whether an option without a value is set. -/
def Args.isSet (args : Args) (name : Text) : Bool := decide (args.given name ≠ [])

/-- The bit rate. -/
def Args.bitrate (args : Args) : ℕ :=
  (((args.given bitrateName).head?.bind id).bind parseU32).getD 10

/-- Read a command line. -/
def tryParseFrom (clap : Clap) (argv : List Text) : Option Args :=
  (parse argv).bind fun items =>
    if h : Once items ∧ items.all clap.accepts = true then some ⟨items, h.1⟩ else none

/-! ## The file -/

/-- What is pushed on the command line at once. -/
inductive Push where
  | flag (name : Text)
  | option (name value : Text)
  deriving DecidableEq

def Push.name : Push → Text
  | .flag name => name
  | .option name _ => name

/-- The words of a push. -/
def Push.words : Push → List Text
  | .flag name => [long name]
  | .option name value => [long name, value]

/-- What the reader makes of a push. -/
def Push.item : Push → Item
  | .flag name => ⟨name, none, false⟩
  | .option name value => ⟨name, some value, false⟩

variable (settings : Text → Option Text)

/-- A setting, or its default. -/
def get (key default : Text) : Text := (settings key).getD default

/-- A setting that is there and not empty. -/
def filled (key : Text) : Option Text := (settings key).filter fun v => decide (v ≠ [])

/-- A key of the file that gives an option of its own. -/
inductive Row where
  /-- The option is set if the key is on. -/
  | switch (key : Text) (default : Bool) (name : Text)
  /-- The option has the value of the key, unless that is empty. -/
  | setting (key name : Text)

def Row.name : Row → Text
  | .switch _ _ name => name
  | .setting _ name => name

/-- What a key pushes. -/
def Row.push : Row → Option Push
  | .switch key default name => if isOn settings key default then some (.flag name) else none
  | .setting key name => (filled settings key).map (.option name)

/-- The keys before the audio modes. -/
def sessionRows : List Row :=
  [.switch "USE_KEYCHAIN".toList true "keychain".toList,
    .switch "ENABLE_H264".toList false "enable-h264".toList]

/-- The keys between the audio modes. -/
def featureRows : List Row :=
  [.setting "AAC_BITRATE".toList "aac-bitrate".toList,
    .switch "HIDPI".toList false "hidpi".toList,
    .switch "NO_CLIENT_RESOLUTION".toList false "no-client-resolution".toList,
    .switch "UNMINIMIZE".toList false "unminimize-on-switch".toList,
    .switch "ALT_TAB_SWITCH".toList false "alt-tab-switch".toList,
    .switch "ALLOW_SLEEP".toList false "allow-sleep".toList,
    .switch "ALT_BACKTICK_SWITCH".toList false "alt-backtick-switch".toList,
    .switch "APP_SWITCHER_HUD".toList false "app-switcher-hud".toList,
    .switch "RESTORE_WINDOWS_ON_DISCONNECT".toList false "restore-windows-on-disconnect".toList,
    .switch "STATS_ENDPOINT".toList false "stats-endpoint".toList,
    .switch "MAP_CTRL_TO_CMD".toList false "map-ctrl-to-cmd".toList,
    .setting "NO_REMAP_APPS".toList "no-remap-apps".toList,
    .switch "ENABLE_DRIVE_REDIRECTION".toList false "enable-drive-redirection".toList,
    .switch "ENABLE_SMARTCARD_REDIRECTION".toList false "enable-smartcard-redirection".toList,
    .switch "ENABLE_USB_REDIRECTION".toList false "enable-usb-redirection".toList,
    .switch "ENABLE_CAMERA_REDIRECTION".toList false "enable-camera-redirection".toList,
    .switch "ENABLE_UDP_MULTITRANSPORT".toList false "enable-udp-multitransport".toList,
    .switch "UDP_MIGRATE_EGFX".toList false "udp-migrate-egfx".toList,
    .switch "ADAPTIVE_BITRATE".toList false "adaptive-bitrate".toList]

/-- The keys after the virtual display. -/
def pathRows : List Row :=
  [.setting "KEYBOARD_LAYOUT".toList "keyboard-layout".toList,
    .setting "LOG_DIR".toList "log-dir".toList,
    .setting "AUDIT_FILE".toList "audit-file".toList,
    .setting "TLS_CERT".toList "cert".toList,
    .setting "TLS_KEY".toList "key".toList,
    .setting "MAX_CLIENT_SIZE".toList "max-client-size".toList]

/-- The name of the user; `user` is what the environment says. -/
def username (user : Text) : Text := (settings "USERNAME".toList).getD user

/-- How the primary display is treated. -/
def primaryMode : Text :=
  let mode := get settings "PRIMARY_MODE".toList "none".toList
  if mode = "none".toList ∧ isOn settings "CAPTURE_PRIMARY".toList false = true then
    "capture".toList
  else mode

/-- What the treatment of the primary display pushes. -/
def primaryPush : Option Push :=
  if primaryMode settings = "detach".toList then some (.flag "detach-primary".toList)
  else if primaryMode settings = "capture".toList then some (.flag "capture-primary".toList)
  else if primaryMode settings = "shield".toList then some (.flag "shield-primary".toList)
  else none

/-- What the virtual display pushes. -/
def displayPushes : List Push :=
  if isOn settings "VIRTUAL_DISPLAY".toList false then
    [.flag "virtual-display".toList,
      .option "width".toList (get settings "VD_WIDTH".toList "1920".toList),
      .option "height".toList (get settings "VD_HEIGHT".toList "1080".toList)] ++
      (primaryPush settings).toList
  else []

/-- What the keys other than `BITRATE` and `EXTRA_FLAGS` push. -/
def pushes (user : Text) : List Push :=
  let lossy := isOn settings enableLossyAudio false
  [.option "bind".toList (get settings "BIND".toList "127.0.0.1:3390".toList)] ++
    (if username settings user ≠ [] then
      [.option "username".toList (username settings user)] else []) ++
    sessionRows.filterMap (Row.push settings) ++
    (if isOn settings enableAac false && !lossy then [.flag aacName] else []) ++
    featureRows.filterMap (Row.push settings) ++
    (if lossy then [.flag lossyName] else []) ++
    displayPushes settings ++ pathRows.filterMap (Row.push settings)

/-- The words of a text. -/
def splitWhitespace (text : Text) : List Text :=
  (text.splitOnP isWhitespace).filter fun word => decide (word ≠ [])

/-- The words without the bit rate and the word after it. -/
def dropBitrate : List Text → List Text
  | [] => []
  | word :: rest =>
    if word = long bitrateName then
      match rest with
      | [] => []
      | _ :: rest => dropBitrate rest
    else word :: dropBitrate rest

/-- The words of `EXTRA_FLAGS`. -/
def extraWords : List Text := ((settings "EXTRA_FLAGS".toList).map splitWhitespace).getD []

/-- What follows the options of the other keys. -/
def tailWords : List Text :=
  match filled settings "BITRATE".toList with
  | some bitrate => dropBitrate (extraWords settings) ++ [long bitrateName, bitrate]
  | none => extraWords settings

/-- The command line of a file, without the name of the program. -/
def argv (user : Text) : List Text :=
  (pushes settings user).flatMap Push.words ++ tailWords settings

/-- The arguments of a file. -/
def argsFromConfig (clap : Clap) (user text : Text) : Option Args :=
  tryParseFrom clap (argv (cfg text) user)

/-- Whether the server offers lossy audio; `bound` says that the listener is bound, and
`environment` that the environment asks for it. -/
def registersLossyAudio (args : Args) (bound environment : Bool) : Bool :=
  (args.isSet udpName || args.isSet lossyName) && bound &&
    ((args.isSet lossyName || environment) && args.isSet aacName)

/-! ## What is expected -/

/-- What the translation of a file keeps. -/
structure Promises (clap : Clap) (user text : Text) : Prop where
  /-- The bit rate of the file is in effect, and so are the other words that go with it. -/
  bitrate : ∀ bitrate rate, filled (cfg text) "BITRATE".toList = some bitrate →
    parseU32 bitrate = some rate → ∀ given, tryParseFrom clap (extraWords (cfg text)) = some given →
    ∃ args, argsFromConfig clap user text = some args ∧ args.bitrate = rate ∧
      ∀ item ∈ given.items, item.name ≠ bitrateName → item.value ∈ args.given item.name
  /-- The audio modes exclude each other. -/
  exclusive : ∀ args, argsFromConfig clap user text = some args →
    ¬(args.isSet aacName = true ∧ args.isSet lossyName = true)
  /-- Lossy audio is offered. -/
  offered : ∀ args, argsFromConfig clap user text = some args → args.isSet lossyName = true →
    ∀ environment, registersLossyAudio args true environment = true

/-- The options of the words after those of the other keys, if the reader takes them there. -/
def Admits (clap : Clap) (user : Text) (items : List Item) : Prop :=
  parse (tailWords settings) = some items ∧ items.all clap.accepts = true ∧
    Once ((pushes settings user).map Push.item ++ items)

/-- The words do not end the options, give the bit rate only as a word and another word, and repeat
no option that another key gives. -/
def Mixes (user : Text) (given : List Item) : Prop :=
  terminator ∉ extraWords settings ∧
    (∀ item ∈ given, item.name = bitrateName → item.joined = false) ∧
    ∀ item ∈ given, item.name ∉ repeatable → ∀ p ∈ pushes settings user, item.name ≠ p.name

/-- Lossy audio is turned on neither by its key nor by the words. -/
def Lossless (given : List Item) : Prop :=
  isOn settings enableLossyAudio false = false ∧ ∀ item ∈ given, item.name ≠ lossyName

/-- The files for which everything is kept. -/
structure Harmless (clap : Clap) (user text : Text) : Prop where
  mixes : ∀ bitrate rate, filled (cfg text) "BITRATE".toList = some bitrate →
    parseU32 bitrate = some rate → ∀ given, tryParseFrom clap (extraWords (cfg text)) = some given →
    Mixes (cfg text) user given.items
  lossless : ∀ items, Admits (cfg text) clap user items → Lossless (cfg text) items

/-! ## Reading -/

variable {args : Args}

theorem tryParseFrom_eq_some {clap : Clap} {words : List Text} :
    tryParseFrom clap words = some args ↔
      parse words = some args.items ∧ args.items.all clap.accepts = true := by
  obtain ⟨items, once⟩ := args
  unfold tryParseFrom
  cases hparse : parse words with
  | none => simp
  | some read =>
    simp only [Option.bind_some, Option.some.injEq]
    split
    · rename_i h
      simp only [Option.some.injEq, Args.mk.injEq]
      constructor
      · rintro rfl
        exact ⟨rfl, h.2⟩
      · exact And.left
    · rename_i h
      simp only [reduceCtorEq, false_iff]
      rintro ⟨rfl, haccepts⟩
      exact h ⟨once, haccepts⟩

/-- Every option is read by its long name. -/
theorem reading_long :
    (∀ name ∈ flagOptions, reading (long name) = .flag name) ∧
      ∀ name ∈ valueOptions, reading (long name) = .option name := by
  decide +kernel

/-- What a reading says of the word. -/
def Reading.Sound (word : Text) : Reading → Prop
  | .flag name => name ∈ flagOptions
  | .option name => word = long name
  | .joined _ _ => word ≠ terminator
  | .done => word = terminator
  | .unknown => True

theorem readingLong_sound {body : Text} (h : long body ≠ terminator) :
    (readingLong body).Sound (long body) := by
  unfold readingLong
  split
  · split
    · exact h
    · exact trivial
  · split
    · rename_i hflag
      exact hflag
    · split
      · exact rfl
      · exact trivial

/-- A word is what it is read as. -/
theorem reading_sound (word : Text) : (reading word).Sound word := by
  unfold reading
  split
  · rename_i h
    exact h
  · rename_i hne
    split
    · have hverbose : "verbose".toList ∈ flagOptions := by decide +kernel
      exact hverbose
    · split
      · exact readingLong_sound hne
      · exact trivial

theorem reading_bitrate : reading (long bitrateName) = .option bitrateName := by decide

variable {word name bitrate : Text}

/-- A word with a hyphen in front is not the value of an option. -/
theorem ne_of_not_hyphened {other : Text} (h : ¬hyphened word = true)
    (hother : hyphened other = true) : word ≠ other := by
  rintro rfl
  exact h hother

/-! ## The words of the other keys -/

/-- A push is one that the reader knows. -/
def Push.Known : Push → Prop
  | .flag name => name ∈ flagOptions
  | .option name _ => name ∈ valueOptions

@[simp]
theorem Push.item_name (p : Push) : p.item.name = p.name := by
  cases p <;> rfl

/-- The value of a push looks like an option. -/
def Push.hyphened : Push → Bool
  | .flag _ => false
  | .option _ value => ConfigArguments.hyphened value

variable {p : Push}

theorem parse_push (hp : p.Known) (rest : List Text) :
    parse (p.words ++ rest) =
      if p.hyphened = true then none else (parse rest).map (p.item :: ·) := by
  cases p with
  | flag name =>
    have hread := reading_long.1 name hp
    simp [Push.words, parse, hread, Push.hyphened, Push.item]
  | option name value =>
    have hread := reading_long.2 name hp
    cases hvalue : hyphened value <;>
      simp [Push.words, parse, hread, Push.hyphened, Push.item, hvalue]

/-- The words of pushes are read as what was pushed. -/
theorem parse_pushes {ps : List Push} (hps : ∀ p ∈ ps, p.Known) (rest : List Text) :
    parse (ps.flatMap Push.words ++ rest) =
      if ps.any Push.hyphened = true then none
      else (parse rest).map (ps.map Push.item ++ ·) := by
  induction ps with
  | nil => simp
  | cons p ps ih =>
    have hp := hps p List.mem_cons_self
    have hrest := ih fun q hq => hps q (List.mem_cons_of_mem _ hq)
    rw [List.flatMap_cons, List.append_assoc, parse_push hp, hrest]
    cases hone : p.hyphened <;> cases hmore : ps.any Push.hyphened <;>
      simp [hone, hmore, Function.comp_def]

/-- What is known of the push of a key. -/
def Push.Foreseen (p : Push) : Prop :=
  p.Known ∧ p.name ≠ bitrateName ∧
    (p.name = lossyName → isOn settings enableLossyAudio false = true)

/-- An option of a list that is about something else than the bit rate and lossy audio. -/
abbrev IsOther (options : List Text) (name : Text) : Prop :=
  name ∈ options ∧ name ≠ bitrateName ∧ name ≠ lossyName

/-- A key whose option is one that the reader knows, and is about something else. -/
def Row.Known : Row → Prop
  | .switch _ _ name => IsOther flagOptions name
  | .setting _ name => IsOther valueOptions name

instance (row : Row) : Decidable row.Known :=
  match row with
  | .switch _ _ _ => inferInstanceAs (Decidable (_ ∧ _))
  | .setting _ _ => inferInstanceAs (Decidable (_ ∧ _))

/-- The options that are pushed one by one, and those of the tables, are known. -/
theorem names_known :
    (∀ row ∈ sessionRows ++ featureRows ++ pathRows, row.Known) ∧
      (∀ name ∈ [aacName, "virtual-display".toList, "detach-primary".toList,
        "capture-primary".toList, "shield-primary".toList], IsOther flagOptions name) ∧
      (∀ name ∈ ["bind".toList, "username".toList, "width".toList, "height".toList],
        IsOther valueOptions name) ∧
      lossyName ∈ flagOptions ∧ lossyName ≠ bitrateName ∧ bitrateName ∉ flagOptions := by
  decide +kernel

variable {settings}

theorem foreseen_flag (h : IsOther flagOptions name) : (Push.flag name).Foreseen settings :=
  ⟨h.1, h.2.1, fun hlossy => absurd hlossy h.2.2⟩

theorem foreseen_option (value : Text) (h : IsOther valueOptions name) :
    (Push.option name value).Foreseen settings :=
  ⟨h.1, h.2.1, fun hlossy => absurd hlossy h.2.2⟩

theorem Row.foreseen {row : Row} (hrow : row.Known)
    (hp : row.push settings = some p) : p.Foreseen settings := by
  cases row with
  | switch key default name =>
    simp only [Row.push] at hp
    split at hp
    · cases hp
      exact foreseen_flag hrow
    · cases hp
  | setting key name =>
    obtain ⟨value, -, rfl⟩ := Option.map_eq_some_iff.mp hp
    exact foreseen_option value hrow

theorem foreseen_of_rows {rows : List Row} (hrows : rows ⊆ sessionRows ++ featureRows ++ pathRows)
    (hp : p ∈ rows.filterMap (Row.push settings)) : p.Foreseen settings := by
  obtain ⟨row, hrow, hpush⟩ := List.mem_filterMap.mp hp
  exact Row.foreseen (names_known.1 row (hrows hrow)) hpush

theorem primaryPush_foreseen (hp : primaryPush settings = some p) : p.Foreseen settings := by
  unfold primaryPush at hp
  split at hp
  · cases hp
    exact foreseen_flag (names_known.2.1 _ (by simp))
  split at hp
  · cases hp
    exact foreseen_flag (names_known.2.1 _ (by simp))
  split at hp
  · cases hp
    exact foreseen_flag (names_known.2.1 _ (by simp))
  · cases hp

theorem displayPushes_foreseen (hp : p ∈ displayPushes settings) : p.Foreseen settings := by
  unfold displayPushes at hp
  split at hp
  · rcases List.mem_append.mp hp with hp | hp
    · simp only [List.mem_cons, List.not_mem_nil, or_false] at hp
      obtain rfl | rfl | rfl := hp
      · exact foreseen_flag (names_known.2.1 _ (by simp))
      · exact foreseen_option _ (names_known.2.2.1 _ (by simp))
      · exact foreseen_option _ (names_known.2.2.1 _ (by simp))
    · exact primaryPush_foreseen (Option.mem_toList.mp hp)
  · cases hp

/-- Every push is known, is not the bit rate, and turns lossy audio on only if its key is on. -/
theorem pushes_foreseen {user : Text} (hp : p ∈ pushes settings user) : p.Foreseen settings := by
  simp only [pushes, List.mem_append] at hp
  obtain ((((((hp | hp) | hp) | hp) | hp) | hp) | hp) | hp := hp
  · obtain rfl := List.mem_singleton.mp hp
    exact foreseen_option _ (names_known.2.2.1 _ (by simp))
  · split at hp
    · obtain rfl := List.mem_singleton.mp hp
      exact foreseen_option _ (names_known.2.2.1 _ (by simp))
    · cases hp
  · exact foreseen_of_rows (List.subset_append_of_subset_left _ (List.subset_append_left _ _)) hp
  · split at hp
    · obtain rfl := List.mem_singleton.mp hp
      exact foreseen_flag (names_known.2.1 _ (by simp))
    · cases hp
  · exact foreseen_of_rows (List.subset_append_of_subset_left _ (List.subset_append_right _ _)) hp
  · split at hp
    · rename_i hlossy
      obtain rfl := List.mem_singleton.mp hp
      obtain ⟨-, -, -, hknown, hbitrate, -⟩ := names_known
      exact ⟨hknown, hbitrate, fun _ => hlossy⟩
    · cases hp
  · exact displayPushes_foreseen hp
  · exact foreseen_of_rows (List.subset_append_right _ _) hp

/-- Lossy audio is pushed if and only if its key is on. -/
theorem lossy_mem_pushes_iff {user : Text} :
    (∃ p ∈ pushes settings user, p.name = lossyName) ↔
      isOn settings enableLossyAudio false = true := by
  constructor
  · rintro ⟨p, hp, hname⟩
    exact (pushes_foreseen hp).2.2 hname
  · intro hlossy
    refine ⟨.flag lossyName, ?_, rfl⟩
    simp only [pushes, List.mem_append, if_pos hlossy]
    exact .inl (.inl (.inr (List.mem_singleton_self _)))

/-! ## The words without the bit rate -/

/-- An option stays when the bit rate and the word after it are dropped. -/
def Item.stays (item : Item) : Bool := decide (item.name = bitrateName → item.joined = true)

theorem dropBitrate_cons (h : word ≠ long bitrateName) (rest : List Text) :
    dropBitrate (word :: rest) = word :: dropBitrate rest := by
  rw [dropBitrate.eq_def]
  exact if_neg h

theorem dropBitrate_pair (value : Text) (rest : List Text) :
    dropBitrate (long bitrateName :: value :: rest) = dropBitrate rest := by
  rw [dropBitrate, if_pos rfl]

theorem parse_flag (rest : List Text) (h : reading word = .flag name) :
    parse (word :: rest) = (parse rest).map (⟨name, none, false⟩ :: ·) := by
  rw [parse.eq_def]
  simp only [h]

theorem parse_joined {value : Text} (rest : List Text) (h : reading word = .joined name value) :
    parse (word :: rest) = (parse rest).map (⟨name, some value, true⟩ :: ·) := by
  rw [parse.eq_def]
  simp only [h]

theorem parse_option {value : Text} (rest : List Text) (h : reading word = .option name)
    (hvalue : ¬hyphened value = true) :
    parse (word :: value :: rest) = (parse rest).map (⟨name, some value, false⟩ :: ·) := by
  simp [parse, h, hvalue]

theorem parse_terminator (rest : List Text) :
    parse (terminator :: rest) = if rest = [] then some [] else none := by
  have hread : reading terminator = .done := by decide
  simp [parse, hread]

theorem ne_bitrate_of_reading (h : reading word ≠ .option bitrateName) :
    word ≠ long bitrateName := by
  rintro rfl
  exact h reading_bitrate

theorem ne_terminator_of_reading (h : reading word ≠ .done) : word ≠ terminator := by
  rintro rfl
  exact h (by decide)

variable {items given : List Item}

/-- The words without the bit rate, and others after them, are read as the options that stay and
the others, unless the words end the options. -/
theorem parse_dropBitrate {words : List Text} (h : parse words = some items) (rest : List Text) :
    parse (dropBitrate words ++ rest) =
      if terminator ∈ words ∧ rest ≠ [] then none
      else (parse rest).map (items.filter Item.stays ++ ·) := by
  induction words using parse.induct generalizing items with
  | case1 =>
    cases h
    simp [dropBitrate]
  | case2 word name tail hread ih =>
    rw [parse_flag tail hread, Option.map_eq_some_iff] at h
    obtain ⟨more, hmore, rfl⟩ := h
    have hname : name ≠ bitrateName := by
      have hsound := reading_sound word
      rw [hread] at hsound
      obtain ⟨-, -, -, -, -, hflag⟩ := names_known
      rintro rfl
      exact hflag hsound
    have hword : word ≠ long bitrateName := ne_bitrate_of_reading (by simp [hread])
    have hend : terminator ≠ word := (ne_terminator_of_reading (by simp [hread])).symm
    rw [dropBitrate_cons hword, List.cons_append, parse_flag _ hread, ih hmore]
    by_cases hdone : terminator ∈ tail ∧ rest ≠ []
    · simp [hdone]
    · simp [hdone, hend, Item.stays, hname, Function.comp_def]
  | case3 word name value tail hread ih =>
    rw [parse_joined tail hread, Option.map_eq_some_iff] at h
    obtain ⟨more, hmore, rfl⟩ := h
    have hword : word ≠ long bitrateName := ne_bitrate_of_reading (by simp [hread])
    have hend : terminator ≠ word := (ne_terminator_of_reading (by simp [hread])).symm
    rw [dropBitrate_cons hword, List.cons_append, parse_joined _ hread, ih hmore]
    by_cases hdone : terminator ∈ tail ∧ rest ≠ []
    · simp [hdone]
    · simp [hdone, hend, Item.stays, Function.comp_def]
  | case4 word name value tail hread hvalue =>
    simp [parse, hread, hvalue] at h
  | case5 word name value tail hread hvalue ih =>
    rw [parse_option tail hread hvalue, Option.map_eq_some_iff] at h
    obtain ⟨more, hmore, rfl⟩ := h
    have hsound := reading_sound word
    rw [hread] at hsound
    have hvalueEnd : terminator ≠ value := (ne_of_not_hyphened hvalue (by decide)).symm
    have hend : terminator ≠ word := (ne_terminator_of_reading (by simp [hread])).symm
    by_cases hname : name = bitrateName
    · have hword : word = long bitrateName := by rw [← hname]; exact hsound
      rw [hword, dropBitrate_pair, ih hmore]
      rw [hword] at hend
      simp [hend, hvalueEnd, Item.stays, hname]
    · have hword : word ≠ long bitrateName := ne_bitrate_of_reading (by simp [hread, hname])
      have hkept : value ≠ long bitrateName := ne_of_not_hyphened hvalue (by decide)
      rw [dropBitrate_cons hword, dropBitrate_cons hkept, List.cons_append, List.cons_append,
        parse_option _ hread hvalue, ih hmore]
      by_cases hdone : terminator ∈ tail ∧ rest ≠ []
      · simp [hdone]
      · simp [hdone, hend, hvalueEnd, Item.stays, hname, Function.comp_def]
  | case6 word name hread | case9 word tail hread =>
    simp [parse, hread] at h
  | case7 word hread =>
    have hsound := reading_sound word
    rw [hread] at hsound
    obtain rfl : word = terminator := hsound
    rw [parse_terminator, if_pos rfl] at h
    cases h
    rw [dropBitrate_cons (ne_bitrate_of_reading (by simp [hread]))]
    cases rest with
    | nil => simp [dropBitrate, parse_terminator, parse]
    | cons other rest => simp [dropBitrate, parse_terminator]
  | case8 word tail hread hne =>
    simp [parse, hread, hne] at h

/-! ## Repetitions -/

theorem once_append {before after : List Item} :
    Once (before ++ after) ↔ Once before ∧ Once after ∧
      ∀ x ∈ before, x.name ∉ repeatable → ∀ y ∈ after, x.name ≠ y.name := by
  simp only [Once, List.map_append, List.filter_append, List.nodup_append, List.mem_filter,
    List.mem_map, decide_eq_true_eq]
  constructor
  · rintro ⟨hbefore, hafter, hdiffer⟩
    refine ⟨hbefore, hafter, fun x hx hname y hy heq => ?_⟩
    exact hdiffer x.name ⟨⟨x, hx, rfl⟩, hname⟩ y.name ⟨⟨y, hy, rfl⟩, heq ▸ hname⟩ heq
  · rintro ⟨hbefore, hafter, hdiffer⟩
    refine ⟨hbefore, hafter, ?_⟩
    rintro _ ⟨⟨x, hx, rfl⟩, hname⟩ _ ⟨⟨y, hy, rfl⟩, -⟩ heq
    exact hdiffer x hx hname y hy heq

theorem Once.filter (h : Once items) (p : Item → Bool) : Once (items.filter p) :=
  List.Nodup.sublist ((List.filter_sublist.map _).filter _) h

theorem once_singleton (item : Item) : Once [item] :=
  List.Nodup.sublist List.filter_sublist (List.nodup_singleton _)

theorem bitrate_not_repeatable : bitrateName ∉ repeatable := by decide

/-! ## The command line as a whole -/

variable {clap : Clap} {user text : Text} {base : Args}

/-- What the keys other than `BITRATE` and `EXTRA_FLAGS` give, if it is valid. -/
theorem pushes_valid
    (hvalid : tryParseFrom clap ((pushes settings user).flatMap Push.words) = some base) :
    (pushes settings user).any Push.hyphened = false ∧
      base.items = (pushes settings user).map Push.item ∧ base.items.all clap.accepts = true := by
  obtain ⟨hparse, haccepts⟩ := tryParseFrom_eq_some.mp hvalid
  have hknown : ∀ p ∈ pushes settings user, p.Known := fun p hp => (pushes_foreseen hp).1
  have hall := parse_pushes hknown []
  rw [List.append_nil, hparse] at hall
  cases hhyphen : (pushes settings user).any Push.hyphened with
  | true => simp [hhyphen] at hall
  | false =>
    have hitems : base.items = (pushes settings user).map Push.item := by
      simpa [hhyphen, parse] using hall
    exact ⟨rfl, hitems, haccepts⟩

/-- The arguments of a file are the options of its keys and those of the words after them. -/
theorem argsFromConfig_iff
    (hvalid : tryParseFrom clap ((pushes (cfg text) user).flatMap Push.words) = some base) :
    argsFromConfig clap user text = some args ↔
      ∃ items, Admits (cfg text) clap user items ∧
        args.items = (pushes (cfg text) user).map Push.item ++ items := by
  obtain ⟨hhyphen, hbase, haccepts⟩ := pushes_valid hvalid
  rw [hbase] at haccepts
  have hargv : parse (argv (cfg text) user) = (parse (tailWords (cfg text))).map
      ((pushes (cfg text) user).map Push.item ++ ·) := by
    rw [argv, parse_pushes (fun p hp => (pushes_foreseen hp).1), hhyphen]
    exact if_neg Bool.false_ne_true
  rw [argsFromConfig, tryParseFrom_eq_some, hargv, Option.map_eq_some_iff]
  constructor
  · rintro ⟨⟨items, hparse, hitems⟩, hall⟩
    have honce := args.once
    rw [← hitems, List.all_append, Bool.and_eq_true] at hall
    rw [← hitems] at honce
    exact ⟨items, ⟨hparse, hall.2, honce⟩, hitems.symm⟩
  · rintro ⟨items, ⟨hparse, hall, -⟩, hitems⟩
    refine ⟨⟨items, hparse, hitems.symm⟩, ?_⟩
    rw [hitems, List.all_append, haccepts, hall]
    rfl

theorem Admits.exists_args (h : Admits (cfg text) clap user items)
    (hvalid : tryParseFrom clap ((pushes (cfg text) user).flatMap Push.words) = some base) :
    ∃ args, argsFromConfig clap user text = some args ∧
      args.items = (pushes (cfg text) user).map Push.item ++ items :=
  ⟨⟨_, h.2.2⟩, (argsFromConfig_iff hvalid).mpr ⟨items, h, rfl⟩, rfl⟩

theorem isSet_iff : args.isSet name = true ↔ ∃ item ∈ args.items, item.name = name := by
  simp [Args.isSet, Args.given, List.filter_eq_nil_iff]

/-- Lossy audio is set unless neither its key nor the words turn it on. -/
theorem lossy_isSet_iff (hitems : args.items = (pushes settings user).map Push.item ++ items) :
    args.isSet lossyName = true ↔ ¬Lossless settings items := by
  rw [isSet_iff, hitems, Lossless, ← Bool.not_eq_true, ← @lossy_mem_pushes_iff settings user]
  constructor
  · rintro ⟨item, hitem, hlossy⟩ ⟨hpushes, hmore⟩
    rcases List.mem_append.mp hitem with hitem | hitem
    · obtain ⟨p, hp, rfl⟩ := List.mem_map.mp hitem
      exact hpushes ⟨p, hp, (Push.item_name p).symm.trans hlossy⟩
    · exact hmore item hitem hlossy
  · intro h
    by_contra hnone
    simp only [not_exists, not_and] at hnone
    refine h ⟨?_, fun item hitem => hnone item (List.mem_append_right _ hitem)⟩
    rintro ⟨p, hp, hlossy⟩
    exact hnone p.item (List.mem_append_left _ (List.mem_map_of_mem hp))
      ((Push.item_name p).trans hlossy)

theorem registers_of_isSet (h : args.isSet lossyName = true) (environment : Bool) :
    registersLossyAudio args true environment = args.isSet aacName := by
  simp [registersLossyAudio, h]

/-! ## Files that keep everything -/

theorem tailWords_replaced (h : filled settings "BITRATE".toList = some bitrate) :
    tailWords settings = dropBitrate (extraWords settings) ++ [long bitrateName, bitrate] := by
  rw [tailWords, h]

variable {rate : ℕ}

/-- A number has no hyphen in front. -/
theorem not_hyphened_of_parseU32 (h : parseU32 bitrate = some rate) : ¬hyphened bitrate = true := by
  intro hhyphen
  have hhead : bitrate.head? = some '-' := (of_decide_eq_true hhyphen).1
  obtain ⟨rest, rfl⟩ : ∃ rest, bitrate = '-' :: rest := by
    cases bitrate with
    | nil => cases hhead
    | cons c rest =>
      obtain rfl : c = '-' := Option.some.inj hhead
      exact ⟨rest, rfl⟩
  have hdigit : ('-' :: rest).all Char.isDigit = false := by
    have hfirst : Char.isDigit '-' = false := by decide
    rw [List.all_cons, hfirst, Bool.false_and]
  have hplus : ('-' :: rest).head? ≠ some '+' := by
    simp
  unfold parseU32 at h
  rw [if_neg hplus] at h
  simp only [hdigit] at h
  simp at h

/-- The option that the bit rate of the file gives. -/
def bitrateItem (bitrate : Text) : Item := ⟨bitrateName, some bitrate, false⟩

/-- The words after the options of the other keys are read as the options that stay, and the bit
rate of the file. -/
theorem parse_tailWords (hfilled : filled settings "BITRATE".toList = some bitrate)
    (hrate : parseU32 bitrate = some rate) (hgiven : parse (extraWords settings) = some given) :
    parse (tailWords settings) =
      if terminator ∈ extraWords settings then none
      else some (given.filter Item.stays ++ [bitrateItem bitrate]) := by
  have hpair : parse [long bitrateName, bitrate] = some [bitrateItem bitrate] := by
    rw [parse_option [] reading_bitrate (not_hyphened_of_parseU32 hrate)]
    rfl
  rw [tailWords_replaced hfilled, parse_dropBitrate hgiven, hpair]
  by_cases hend : terminator ∈ extraWords settings
  · simp [hend]
  · simp [hend]

theorem accepts_bitrateItem (h : parseU32 bitrate = some rate) :
    clap.accepts (bitrateItem bitrate) = true := by
  simp [Clap.accepts, bitrateItem, h]

/-- With words that go with the bit rate, the options that stay are those with another name. -/
theorem stays_eq_of_mixes (h : Mixes settings user given) {item : Item}
    (hitem : item ∈ given) : item.stays = true ↔ item.name ≠ bitrateName := by
  have hjoined := h.2.1 item hitem
  simp only [Item.stays, decide_eq_true_eq]
  constructor
  · intro hstays hname
    have htrue := hstays hname
    rw [hjoined hname] at htrue
    cases htrue
  · intro hname hother
    exact absurd hother hname

/-- Words that go with the bit rate and the other keys are taken with them. -/
theorem Mixes.once (h : Mixes settings user given) (hgiven : Once given)
    (hpushes : Once ((pushes settings user).map Push.item)) (bitrate : Text) :
    Once ((pushes settings user).map Push.item ++
      (given.filter Item.stays ++ [bitrateItem bitrate])) := by
  refine once_append.mpr ⟨hpushes, once_append.mpr ⟨hgiven.filter _, once_singleton _, ?_⟩, ?_⟩
  · intro x hx _ y hy
    obtain rfl := List.mem_singleton.mp hy
    obtain ⟨hmem, hstays⟩ := List.mem_filter.mp hx
    exact (stays_eq_of_mixes h hmem).mp hstays
  · intro x hx hrepeat y hy
    obtain ⟨p, hp, rfl⟩ := List.mem_map.mp hx
    rw [Push.item_name] at hrepeat ⊢
    rcases List.mem_append.mp hy with hy | hy
    · intro heq
      obtain ⟨hmem, -⟩ := List.mem_filter.mp hy
      exact h.2.2 y hmem (heq ▸ hrepeat) p hp heq.symm
    · obtain rfl := List.mem_singleton.mp hy
      exact (pushes_foreseen hp).2.1

/-- Only words that go with the bit rate and the other keys are taken with them. -/
theorem mixes_of_once (hend : terminator ∉ extraWords settings)
    (h : Once ((pushes settings user).map Push.item ++
      (given.filter Item.stays ++ [bitrateItem bitrate]))) : Mixes settings user given := by
  obtain ⟨-, htail, hpushes⟩ := once_append.mp h
  obtain ⟨-, -, hlast⟩ := once_append.mp htail
  refine ⟨hend, fun item hitem hbitrate => ?_, fun item hitem hrepeat p hp heq => ?_⟩
  · by_contra hjoined
    rw [Bool.not_eq_false] at hjoined
    have hstays : item.stays = true := by
      simp [Item.stays, hjoined]
    have hrepeat : item.name ∉ repeatable := hbitrate ▸ bitrate_not_repeatable
    exact hlast item (List.mem_filter.mpr ⟨hitem, hstays⟩) hrepeat (bitrateItem bitrate)
      (List.mem_singleton_self _) hbitrate
  · have hother : item.name ≠ bitrateName := heq ▸ (pushes_foreseen hp).2.1
    have hstays : item.stays = true := by
      simp [Item.stays, hother]
    have hrepeat' : p.item.name ∉ repeatable := by rwa [Push.item_name, ← heq]
    exact hpushes p.item (List.mem_map_of_mem hp) hrepeat' item
      (List.mem_append_left _ (List.mem_filter.mpr ⟨hitem, hstays⟩))
      ((Push.item_name p).trans heq.symm)

/-- The options that another key or another word gives are in effect. -/
theorem value_mem_given {item : Item} (h : item ∈ args.items) : item.value ∈ args.given item.name :=
  List.mem_map_of_mem (List.mem_filter.mpr ⟨h, decide_eq_true rfl⟩)

/-- The bit rate of the arguments is that of the only option that gives one. -/
theorem bitrate_eq (h : bitrateItem bitrate ∈ args.items)
    (hrate : parseU32 bitrate = some rate) : args.bitrate = rate := by
  obtain ⟨before, after, hsplit⟩ := List.append_of_mem h
  have honce := args.once
  rw [hsplit] at honce
  obtain ⟨-, -, hbefore⟩ := once_append.mp honce
  have hnone : (before.filter fun item => decide (item.name = bitrateName)) = [] := by
    refine List.filter_eq_nil_iff.mpr fun item hitem hname => ?_
    have hname := of_decide_eq_true hname
    exact hbefore item hitem (hname ▸ bitrate_not_repeatable) _ List.mem_cons_self hname
  simp [Args.bitrate, Args.given, hsplit, hnone, bitrateItem, hrate]

/-- For a file whose other keys are valid, the bit rate goes with the words, the audio modes exclude
each other and lossy audio is offered where it is on, if and only if the words do not end the
options, give no bit rate in one word and repeat no option of another key, and lossy audio is not
turned on. -/
theorem promises_iff_harmless
    (hvalid : tryParseFrom clap ((pushes (cfg text) user).flatMap Push.words) = some base) :
    Promises clap user text ↔ Harmless clap user text := by
  constructor
  · intro h
    constructor
    · intro bitrate rate hfilled hrate given hgiven
      obtain ⟨args, hargs, -, -⟩ := h.bitrate bitrate rate hfilled hrate given hgiven
      obtain ⟨items, ⟨hparse, -, honce⟩, -⟩ := (argsFromConfig_iff hvalid).mp hargs
      rw [parse_tailWords hfilled hrate (tryParseFrom_eq_some.mp hgiven).1] at hparse
      split at hparse
      · cases hparse
      · rename_i hend
        cases hparse
        exact mixes_of_once hend honce
    · intro items hitems
      obtain ⟨args, hargs, heq⟩ := hitems.exists_args hvalid
      by_contra hlossy
      have hset := (lossy_isSet_iff heq).mpr hlossy
      have haac : args.isSet aacName = true := by
        rw [← registers_of_isSet hset false]
        exact h.offered args hargs hset false
      exact h.exclusive args hargs ⟨haac, hset⟩
  · intro h
    have hquiet : ∀ args, argsFromConfig clap user text = some args →
        ¬args.isSet lossyName = true := by
      intro args hargs hset
      obtain ⟨items, hitems, heq⟩ := (argsFromConfig_iff hvalid).mp hargs
      exact (lossy_isSet_iff heq).mp hset (h.lossless items hitems)
    refine ⟨?_, fun args hargs hboth => hquiet args hargs hboth.2,
      fun args hargs hset => absurd hset (hquiet args hargs)⟩
    intro bitrate rate hfilled hrate given hgiven
    have hmixes := h.mixes bitrate rate hfilled hrate given hgiven
    obtain ⟨hparse, haccepts⟩ := tryParseFrom_eq_some.mp hgiven
    have hbase : Once ((pushes (cfg text) user).map Push.item) := by
      rw [← (pushes_valid hvalid).2.1]
      exact base.once
    have hadmits : Admits (cfg text) clap user
        (given.items.filter Item.stays ++ [bitrateItem bitrate]) := by
      refine ⟨?_, ?_, hmixes.once given.once hbase bitrate⟩
      · rw [parse_tailWords hfilled hrate hparse, if_neg hmixes.1]
      · rw [List.all_append, Bool.and_eq_true]
        constructor
        · rw [List.all_eq_true] at haccepts ⊢
          exact fun item hitem => haccepts item (List.mem_of_mem_filter hitem)
        · simp [accepts_bitrateItem hrate]
    obtain ⟨args, hargs, heq⟩ := hadmits.exists_args hvalid
    refine ⟨args, hargs, bitrate_eq ?_ hrate, fun item hitem hname => value_mem_given ?_⟩
    · rw [heq]
      exact List.mem_append_right _ (List.mem_append_right _ (List.mem_singleton_self _))
    · rw [heq]
      have hstays := (stays_eq_of_mixes hmixes hitem).mpr hname
      exact List.mem_append_right _
        (List.mem_append_left _ (List.mem_filter.mpr ⟨hitem, hstays⟩))

/-- A reader that takes any value, but only one address. -/
def loopbackClap : Clap :=
  ⟨fun name value => decide (name = "bind".toList → value = "127.0.0.1:3390".toList)⟩

/-- A file with the bit rate in a key and in the words. -/
def plainFile : Text :=
  "ENABLE_AAC=1\nBITRATE=6\nEXTRA_FLAGS=--stretch --bitrate 8 --fps=30\n".toList

theorem promises_iff_harmless_plainFile :
    Promises loopbackClap "operator".toList plainFile ∧
      (Promises loopbackClap "operator".toList plainFile ↔
        Harmless loopbackClap "operator".toList plainFile) := by
  let given : List Item := [⟨"stretch".toList, none, false⟩, ⟨bitrateName, some ['8'], false⟩,
    ⟨"fps".toList, some ['3', '0'], true⟩]
  let tail : List Item := [⟨"stretch".toList, none, false⟩,
    ⟨"fps".toList, some ['3', '0'], true⟩, ⟨bitrateName, some ['6'], false⟩]
  obtain ⟨hsome, hgiven, htail, hmixes, hlossless⟩ :
      (tryParseFrom loopbackClap
        ((pushes (cfg plainFile) "operator".toList).flatMap Push.words)).isSome = true ∧
      parse (extraWords (cfg plainFile)) = some given ∧
      parse (tailWords (cfg plainFile)) = some tail ∧
      Mixes (cfg plainFile) "operator".toList given ∧ Lossless (cfg plainFile) tail := by
    unfold Mixes Lossless
    decide +kernel
  have hiff := promises_iff_harmless (Option.some_get hsome).symm
  refine ⟨hiff.mpr ⟨fun bitrate rate _ _ read hread => ?_, fun items hitems => ?_⟩, hiff⟩
  · have hitems := (tryParseFrom_eq_some.mp hread).1
    rw [hgiven] at hitems
    exact Option.some.inj hitems ▸ hmixes
  · have hitems := hitems.1
    rw [htail] at hitems
    exact Option.some.inj hitems ▸ hlossless

/-- A file with the bit rate in a key and as one of the words. -/
def joinedFile : Text := "BITRATE=6\nEXTRA_FLAGS=--bitrate=8\n".toList

/-- The bit rate as one word is not dropped, and is then there twice. -/
theorem not_promises_joinedFile :
    ¬∀ (clap : Clap) (user text : Text) (base : Args),
      tryParseFrom clap ((pushes (cfg text) user).flatMap Push.words) = some base →
      Promises clap user text := by
  intro h
  obtain ⟨hsome, hgiven, hnone, hfilled, hrate⟩ :
      (tryParseFrom loopbackClap
        ((pushes (cfg joinedFile) "operator".toList).flatMap Push.words)).isSome = true ∧
      (tryParseFrom loopbackClap (extraWords (cfg joinedFile))).isSome = true ∧
      (argsFromConfig loopbackClap "operator".toList joinedFile).isNone = true ∧
      filled (cfg joinedFile) "BITRATE".toList = some ['6'] ∧ parseU32 ['6'] = some 6 := by
    decide +kernel
  have hpromises := h _ _ _ _ (Option.some_get hsome).symm
  obtain ⟨args, hargs, -⟩ := hpromises.bitrate ['6'] 6 hfilled hrate _
    (Option.some_get hgiven).symm
  rw [hargs] at hnone
  cases hnone

end Macrdp.ConfigArguments
