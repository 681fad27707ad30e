import Macrdp.KeyboardInput
import Macrdp.TextLines

/-!
# The configuration file

The file of settings is edited by hand and read twice: the server builds its arguments from it, and
the settings window shows what it finds in it and writes what the user changes. Each has its own
reader, in a language of its own: the server goes by scalars, the window by user-perceived
characters, and its keys are the same if they are canonically equivalent.
-/

namespace Macrdp.ConfigFile

open TextLines
open KeyboardInput (isWhitespace)

def doubleQuote : Char := '\x22'

def singleQuote : Char := '\x27'

/-- Which of the two audio modes is on. -/
structure AudioMode where
  aac : Bool
  lossy : Bool
  deriving DecidableEq, Repr

def enableAac : List Char := "ENABLE_AAC".toList

def enableLossyAudio : List Char := "ENABLE_LOSSY_AUDIO".toList

/-! ## The server -/

namespace Server

/-- The lines of a text; a carriage return before a line feed belongs to the end of the line. -/
def lines (text : List Char) : List (List Char) :=
  let pieces := text.splitOn '\n'
  let ended := pieces.dropLast.map fun line =>
    if line.getLast? = some '\r' then line.dropLast else line
  match pieces.getLast? with
  | some (c :: rest) => ended ++ [c :: rest]
  | _ => ended

/-- What is between the quotes, if the value is quoted. -/
def unquote (quote : Char) (val : List Char) : Option (List Char) :=
  if 2 ≤ val.length ∧ val.head? = some quote ∧ val.getLast? = some quote then
    some val.tail.dropLast
  else none

/-- The value without one layer of quotes. -/
def stripQuotes (val : List Char) : List Char :=
  ((unquote doubleQuote val).or (unquote singleQuote val)).getD val

def exportPrefix : List Char := "export ".toList

/-- A line without the word that exports its variable. -/
def stripExport (line : List Char) : List Char :=
  if exportPrefix <+: line then line.drop exportPrefix.length else line

/-- What a line assigns. -/
def entry (line : List Char) : Option (List Char × List Char) :=
  let line := trim isWhitespace line
  if line = [] ∨ line.head? = some '#' then none
  else (splitOnce '=' (stripExport line)).map fun parts =>
    (trim isWhitespace parts.1, stripQuotes (trim isWhitespace parts.2))

/-- What the lines of a text assign. -/
def entries (text : List Char) : List (List Char × List Char) := (lines text).filterMap entry

/-- The settings of a text. -/
def cfg (text : List Char) : List Char → Option (List Char) := assign (entries text)

/-- Whether a setting is on. -/
def isOn (settings : List Char → Option (List Char)) (key : List Char) (default : Bool) : Bool :=
  (settings key).elim default fun v => decide (v = ['1'])

/-- The audio modes that the arguments turn on. -/
def audio (settings : List Char → Option (List Char)) : AudioMode :=
  let lossy := isOn settings enableLossyAudio false
  ⟨isOn settings enableAac false && !lossy, lossy⟩

end Server

/-! ## The settings window -/

/-- What the window's strings go by. -/
structure Unicode where
  /-- Scalars that belong to the character before them. -/
  extending : Char → Bool
  /-- Scalars that belong to the character after them. -/
  prepending : Char → Bool
  /-- Canonical form of a string. -/
  canonical : List Char → List Char
  /-- The names of the audio settings have no other spelling. -/
  canonical_audio : ∀ key ∈ [enableAac, enableLossyAudio], ∀ k,
    canonical k = canonical key → k = key

namespace Gui

variable (u : Unicode)

/-- The blanks that the window trims. -/
def isBlank (c : Char) : Bool :=
  decide (c.val = 0x09) || decide (0x2000 ≤ c.val ∧ c.val ≤ 0x200a) ||
    decide (c.val ∈ [0x20, 0xa0, 0x1680, 0x202f, 0x205f, 0x3000])

/-- The pieces of a text between the characters that are a line feed; with a carriage return before
it, it is another character. -/
def splitNewlines : List Char → List (List Char)
  | [] => [[]]
  | '\r' :: '\n' :: rest => (splitNewlines rest).modifyHead fun piece => '\r' :: '\n' :: piece
  | c :: rest =>
    if c = '\n' then [] :: splitNewlines rest else (splitNewlines rest).modifyHead (c :: ·)

/-- Whether the first character is a number sign. -/
def isComment : List Char → Bool
  | [] => false
  | c :: rest => decide (c = '#') && !rest.head?.any u.extending

/-- The parts of a line before and after its first character that is an equals sign; `joined` says
that the scalar before belongs to the first character. -/
def splitEquals (joined : Bool) : List Char → Option (List Char × List Char)
  | [] => none
  | c :: rest =>
    if c = '=' ∧ joined = false ∧ rest.head?.any u.extending = false then some ([], rest)
    else (splitEquals (u.prepending c) rest).map fun parts => (c :: parts.1, parts.2)

/-- The key of a line, and what follows it. -/
def parts (raw : List Char) : Option (List Char × List Char) :=
  let line := trim isBlank raw
  if line = [] ∨ isComment u line = true then none
  else (splitEquals u false line).map fun parts => (trim isBlank parts.1, parts.2)

/-- What a line assigns. -/
def entry (raw : List Char) : Option (List Char × List Char) :=
  (parts u raw).map fun parts =>
    (parts.1, trim (· = doubleQuote) (trim isBlank parts.2))

/-- What the lines of a text assign. -/
def entries (text : List Char) : List (List Char × List Char) :=
  ((splitNewlines text).filter (· ≠ [])).filterMap (entry u)

/-- The settings of a text. -/
def readConfig (text : List Char) : List Char → Option (List Char) :=
  assignBy u.canonical (entries u text)

/-- Whether a text ends with a character that is a line feed. -/
def endsLine (text : List Char) : Bool :=
  decide (text.getLast? = some '\n' ∧ text.dropLast.getLast? ≠ some '\r')

/-- Whether a line has a key. -/
def hasKey (key raw : List Char) : Bool :=
  (parts u raw).any fun parts => decide (u.canonical parts.1 = u.canonical key)

/-- The lines of a text with a setting changed: in the first line that has the key, or in a new
one. -/
def writtenLines (key value text : List Char) : List (List Char) :=
  let lines := text.splitOn '\n'
  match lines.findIdx? (hasKey u key) with
  | some i => lines.set i (key ++ '=' :: value)
  | none => lines ++ [key ++ '=' :: value]

/-- The text with a setting changed, with a line feed at its end. -/
def writeConfig (key value text : List Char) : List Char :=
  let body := ['\n'].intercalate (writtenLines u key value text)
  if endsLine body = true then body else body ++ ['\n']

/-- Whether a setting is shown as on. -/
def bool (draft : List Char → Option (List Char)) (key : List Char) : Bool :=
  decide ((draft key).getD ['0'] = ['1'])

/-- The mode that is shown for two settings. -/
def fromConfig (aac lossy : Bool) : AudioMode :=
  if aac = true then ⟨true, false⟩ else ⟨false, lossy⟩

/-- The audio mode that the window shows. -/
def audio (draft : List Char → Option (List Char)) : AudioMode :=
  fromConfig (bool draft enableAac) (bool draft enableLossyAudio)

end Gui

end Macrdp.ConfigFile
