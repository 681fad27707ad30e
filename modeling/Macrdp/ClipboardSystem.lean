import Mathlib.Data.Int.Order.Basic
import Macrdp.StepSystem

/-!
# The clipboard as a system of threads

The Mac's applications, the clipboard backends, the tasks that download the
client's files and the pasteboard poller share one pasteboard. A section under the
pasteboard's guard, an access to a shared counter and a message to the client is
one step. What is on the pasteboard is known by the types it has and by who wrote
it.
-/

namespace Macrdp.ClipboardSystem

/-- The client's data that is put on the pasteboard. -/
inductive ClientData where
  | text | image | files
  deriving DecidableEq

/-- Who wrote what is on the pasteboard. -/
inductive Writer where
  | mac
  | client (data : ClientData)
  /-- It was cleared of the client's files. -/
  | cleared
  deriving DecidableEq

/-- What is on the pasteboard. -/
structure Contents where
  writer : Writer
  hasFiles : Bool
  hasImage : Bool
  hasString : Bool
  deriving DecidableEq

/-- The system pasteboard. -/
structure Pasteboard where
  /-- Grows with every change, whoever makes it. -/
  changeCount : ℤ
  contents : Contents
  deriving DecidableEq

/-- Replace what is on the pasteboard. -/
def Pasteboard.write (pb : Pasteboard) (contents : Contents) : Pasteboard :=
  ⟨pb.changeCount + 1, contents⟩

/-- What a list sent to the client offers. -/
inductive Format where
  /-- Files, by their names and sizes. -/
  | files
  | dib
  | unicodeText
  deriving DecidableEq

/-- A list sent to the client: each format with the writer of what it was found in. -/
abbrev FormatList := List (Format × Writer)

/-- Where an advertise is. -/
inductive Stage where
  /-- It asks whether there are files. -/
  | files
  /-- It reads the files. -/
  | entries
  /-- It asks whether there is an image. -/
  | image
  /-- It asks whether there is text. -/
  | string (formats : FormatList)
  | send (formats : FormatList)
  deriving DecidableEq

/-- An advertise looks at the pasteboard once; `none` is the end of one that has nothing to
offer. -/
def look (contents : Contents) (readable : Bool) : Stage → Option Stage
  | .files => some (if contents.hasFiles then .entries else .image)
  | .entries =>
    some (if contents.hasFiles && readable then .send [(.files, contents.writer)] else .image)
  | .image => some (.string (if contents.hasImage then [(.dib, contents.writer)] else []))
  | .string formats =>
    let formats := formats ++ if contents.hasString then [(.unicodeText, contents.writer)] else []
    if formats.isEmpty then none else some (.send formats)
  | .send formats => some (.send formats)

/-- Looks that are left to an advertise. -/
def left : Stage → ℕ
  | .files => 4
  | .entries => 3
  | .image => 2
  | .string _ => 1
  | .send _ => 0

/-- An advertise that asked whether there is text has its list. -/
theorem look_string {contents : Contents} {readable : Bool} {formats : FormatList} {next : Stage}
    (h : look contents readable (.string formats) = some next) :
    next = .send (formats ++
      if contents.hasString then [(.unicodeText, contents.writer)] else []) := by
  simp only [look, Option.ite_none_left_eq_some] at h
  exact (Option.some.inj h.2).symm

/-- Each look leaves one less. -/
theorem left_look {contents : Contents} {readable : Bool} {stage next : Stage}
    (hlooks : 0 < left stage) (h : look contents readable stage = some next) :
    left next < left stage := by
  cases stage with
  | files =>
    cases h
    split <;> decide
  | entries =>
    cases h
    split <;> simp [left]
  | image =>
    cases h
    simp [left]
  | string formats =>
    rw [look_string h]
    simp [left]
  | send formats => exact absurd hlooks (Nat.lt_irrefl 0)

/-- What a list was sent for. -/
inductive Origin where
  /-- A wave of the poller's, counted from one. -/
  | wave (index : ℕ)
  /-- A connection, or a request of the client's. -/
  | other
  deriving DecidableEq

/-- Where the poller is; in a wave, with its generation and the retries that are left. -/
inductive Poller where
  | launched
  | parked
  /-- It is about to read the change count. -/
  | tick
  /-- It is about to compare the change count it read with our own. -/
  | comparing (current : ℤ)
  /-- It is about to begin a wave. -/
  | beginning
  | advertising (myGen : UInt64) (retries : ℕ) (stage : Stage)
  /-- It is about to ask whether a newer wave began. -/
  | superseding (myGen : UInt64) (retries : ℕ)
  /-- It is about to ask whether the wave was accepted. -/
  | locking (myGen : UInt64) (retries : ℕ)
  | stopped
  deriving DecidableEq

/-- Where the handler of the client's answers is. -/
inductive Handler where
  | idle
  /-- It is about to lock a generation, on an acceptance of a list. -/
  | stamping (origin : Origin) (gen : UInt64)
  deriving DecidableEq

/-- The clipboard of one connection. -/
structure Backend where
  initialAdvertisePending : Bool
  /-- The format last requested from the client. -/
  lastRequested : Option UInt32
  deriving DecidableEq

/-- The process's clipboard, and the client at the other end. -/
structure State where
  pasteboard : Pasteboard
  /-- Change count of our latest write of files, `-1` before the first. -/
  selfChangeCount : ℤ
  backends : List Backend
  /-- Lists of the client's files that are still to be put on the pasteboard. -/
  downloads : ℕ
  /-- Change counts of ours that were read by those about to clear the pasteboard. -/
  clearing : List ℤ
  /-- Advertises at a connection that are put off. -/
  deferred : ℕ
  /-- Advertises under way, but for the poller's. -/
  adverts : List Stage
  generation : UInt64
  lockedGen : UInt64
  /-- Waves begun so far. -/
  waves : ℕ
  /-- The change count the poller saw last. -/
  lastSeen : ℤ
  poller : Poller
  handler : Handler
  /-- Lists the client has not answered. -/
  outstanding : List Origin
  /-- The client's answers on their way, each with what it answers. -/
  responses : List (Origin × Bool)
  /-- Every list sent so far. -/
  sent : List (Origin × FormatList)
  /-- What the client accepted so far. -/
  accepted : List Origin
  /-- The acceptances processed so far. -/
  processed : List Origin
  deriving DecidableEq

/-- The data the client returns. -/
structure FormatData where
  isError : Bool
  len : ℕ
  /-- It is text or an image as requested. -/
  decodes : Bool
  deriving DecidableEq

/-- A step of the system. -/
inductive Action where
  /-- An application of the Mac's writes to the pasteboard. -/
  | macCopy (more : ℕ) (hasFiles hasImage hasString : Bool)
  | connect
  | disconnect (i : ℕ)
  /-- The client offers formats, each with a name if it has one. -/
  | remoteCopy (i : ℕ) (formats : List (UInt32 × Option String))
  | formatData (i : ℕ) (response : FormatData)
  /-- The client's list of files; an empty one is ignored. -/
  | remoteFileList (i : ℕ)
  /-- The client's files are put on the pasteboard; other types may come with them. -/
  | publish (hasImage hasString : Bool)
  | downloadFails
  /-- The client's lock on its files expires. -/
  | locksExpire
  /-- The pasteboard is cleared, if it is still as it was when our change count was read. -/
  | clear (j : ℕ)
  | ready (i : ℕ)
  | requestFormatList (i : ℕ)
  /-- An advertise that was put off begins. -/
  | fireDeferred
  /-- An advertise that is not the poller's looks at the pasteboard. -/
  | look (j : ℕ) (readable : Bool)
  /-- An advertise that is not the poller's sends its list, if the server is still there. -/
  | send (j : ℕ) (delivered : Bool)
  /-- The poller's next step. -/
  | poll (readable delivered : Bool)
  /-- The client answers the oldest list. -/
  | answer (ok : Bool)
  /-- A list does not reach the client. -/
  | loseList (j : ℕ)
  /-- An answer does not reach the handler. -/
  | loseAnswer (j : ℕ)
  /-- The handler takes an answer and reads the generation. -/
  | takeAnswer
  /-- The handler locks the generation it read. -/
  | lock
  deriving DecidableEq

def cfDib : UInt32 := 8
def cfUnicodeText : UInt32 := 13
def cfDibV5 : UInt32 := 17

/-- The largest payload that is accepted. -/
def maxIncomingPayload : ℕ := 50 * 1024 * 1024

/-- The format requested of those the client offers: files first, then images, then text. -/
def requestedFormat (formats : List (UInt32 × Option String)) : Option UInt32 :=
  match formats.find? fun f => decide (f.2 = some "FileGroupDescriptorW") with
  | some f => some f.1
  | none => [cfDibV5, cfDib, cfUnicodeText].find? fun preferred =>
    formats.any fun f => decide (f.1 = preferred)

/-- What the client's data puts on the pasteboard. -/
def dataWritten (requested : Option UInt32) (response : FormatData) : Option Contents :=
  if response.isError || decide (maxIncomingPayload < response.len) then none
  else if requested = none ∨ requested = some cfUnicodeText then
    if response.len % 2 = 0 ∧ response.decodes then some ⟨.client .text, false, false, true⟩
    else none
  else if requested = some cfDib ∨ requested = some cfDibV5 then
    if response.decodes then some ⟨.client .image, false, true, false⟩ else none
  else none

/-- What is on a pasteboard that was cleared. -/
def clearedContents : Contents := ⟨.cleared, false, false, false⟩

namespace State

/-- A new process, with what is on the pasteboard. -/
def new (pasteboard : Pasteboard) : State where
  pasteboard := pasteboard
  selfChangeCount := -1
  backends := []
  downloads := 0
  clearing := []
  deferred := 0
  adverts := []
  generation := 0
  lockedGen := 0
  waves := 0
  lastSeen := 0
  poller := .launched
  handler := .idle
  outstanding := []
  responses := []
  sent := []
  accepted := []
  processed := []

/-- Whoever clears the pasteboard of our files reads our change count first. -/
def readSelf (s : State) : State :=
  if 0 ≤ s.selfChangeCount then { s with clearing := s.clearing ++ [s.selfChangeCount] } else s

/-- An advertise that is not the poller's begins. -/
def begin (s : State) : State := { s with adverts := s.adverts ++ [.files] }

/-- A list is sent to the client. -/
def post (origin : Origin) (formats : FormatList) (s : State) : State :=
  { s with sent := s.sent ++ [(origin, formats)], outstanding := s.outstanding ++ [origin] }

/-- Put the client's files on the pasteboard, and remember the change as ours. -/
def publishToPasteboard (hasImage hasString : Bool) (s : State) : State :=
  let pasteboard := s.pasteboard.write ⟨.client .files, true, hasImage, hasString⟩
  { s with pasteboard := pasteboard, selfChangeCount := pasteboard.changeCount }

/-- Clear the pasteboard if it is still as we wrote it, and remember the clearing as ours. -/
def clearPasteboard (ourCc : ℤ) (s : State) : State :=
  if s.pasteboard.changeCount = ourCc then
    let pasteboard := s.pasteboard.write clearedContents
    { s with pasteboard := pasteboard, selfChangeCount := pasteboard.changeCount }
  else s

/-- Where the poller goes after an advertise of a wave. -/
def afterAdvertise (myGen : UInt64) : ℕ → Poller
  | 0 => .parked
  | retries + 1 => .superseding myGen retries

/-- The poller's next step. -/
def poll (readable delivered : Bool) (s : State) : Option State :=
  match s.poller with
  | .launched => some { s with lastSeen := s.pasteboard.changeCount, poller := .parked }
  | .parked => some (if s.backends.isEmpty then s else { s with poller := .tick })
  | .tick =>
    some (if s.pasteboard.changeCount = s.lastSeen then { s with poller := .parked }
      else
        { s with
          lastSeen := s.pasteboard.changeCount, poller := .comparing s.pasteboard.changeCount })
  | .comparing current =>
    some { s with poller := if current = s.selfChangeCount then .parked else .beginning }
  | .beginning =>
    some { s with
      generation := s.generation + 1
      waves := s.waves + 1
      poller := .advertising (s.generation + 1) 3 .files }
  | .advertising myGen retries (.send formats) =>
    some (if delivered then
      { s.post (.wave s.waves) formats with poller := afterAdvertise myGen retries }
    else { s with poller := .stopped })
  | .advertising myGen retries stage =>
    some { s with
      poller := match look s.pasteboard.contents readable stage with
        | none => afterAdvertise myGen retries
        | some next => .advertising myGen retries next }
  | .superseding myGen retries =>
    some { s with poller := if s.generation = myGen then .locking myGen retries else .parked }
  | .locking myGen retries =>
    some { s with
      poller := if s.lockedGen = myGen then .parked else .advertising myGen retries .files }
  | .stopped => none

/-- A step; one that its thread does not take is refused. -/
def step (s : State) : Action → Option State
  | .macCopy more hasFiles hasImage hasString =>
    some { s with
      pasteboard :=
        ⟨s.pasteboard.changeCount + 1 + more, ⟨.mac, hasFiles, hasImage, hasString⟩⟩ }
  | .connect => some { s with backends := s.backends ++ [⟨true, none⟩] }
  | .disconnect i =>
    if i < s.backends.length then
      some { s with backends := s.backends.eraseIdx i }.readSelf
    else none
  | .remoteCopy i formats =>
    if i < s.backends.length then
      some (match requestedFormat formats with
        | none => s
        | some id =>
          { s with backends := s.backends.modify i fun b => { b with lastRequested := some id } })
    else none
  | .formatData i response =>
    s.backends[i]?.map fun backend =>
      { s with
        backends := s.backends.set i { backend with lastRequested := none }
        pasteboard :=
          ((dataWritten backend.lastRequested response).map s.pasteboard.write).getD
            s.pasteboard }
  | .remoteFileList i =>
    if i < s.backends.length then some { s with downloads := s.downloads + 1 } else none
  | .publish hasImage hasString =>
    if 0 < s.downloads then
      some ({ s with downloads := s.downloads - 1 }.publishToPasteboard hasImage hasString)
    else none
  | .downloadFails =>
    if 0 < s.downloads then some { s with downloads := s.downloads - 1 } else none
  | .locksExpire => some s.readSelf
  | .clear j =>
    s.clearing[j]?.map fun ourCc =>
      { s with clearing := s.clearing.eraseIdx j }.clearPasteboard ourCc
  | .ready i =>
    s.backends[i]?.map fun backend =>
      if backend.initialAdvertisePending then
        { s with
          backends := s.backends.set i { backend with initialAdvertisePending := false }
          deferred := s.deferred + 1 }
      else s.begin
  | .requestFormatList i => if i < s.backends.length then some s.begin else none
  | .fireDeferred =>
    if 0 < s.deferred then some { s with deferred := s.deferred - 1 }.begin else none
  | .look j readable =>
    match s.adverts[j]? with
    | none => none
    | some (.send _) => none
    | some stage =>
      some { s with
        adverts := match look s.pasteboard.contents readable stage with
          | none => s.adverts.eraseIdx j
          | some next => s.adverts.set j next }
  | .send j delivered =>
    match s.adverts[j]? with
    | some (.send formats) =>
      let s := { s with adverts := s.adverts.eraseIdx j }
      some (if delivered then s.post .other formats else s)
    | _ => none
  | .poll readable delivered => s.poll readable delivered
  | .answer ok =>
    match s.outstanding with
    | [] => none
    | origin :: rest =>
      some { s with
        outstanding := rest
        responses := s.responses ++ [(origin, ok)]
        accepted := if ok then s.accepted ++ [origin] else s.accepted }
  | .loseList j =>
    if j < s.outstanding.length then some { s with outstanding := s.outstanding.eraseIdx j }
    else none
  | .loseAnswer j =>
    if j < s.responses.length then some { s with responses := s.responses.eraseIdx j } else none
  | .takeAnswer =>
    match s.handler, s.responses with
    | .idle, (origin, ok) :: rest =>
      some { s with
        responses := rest
        handler := if ok then .stamping origin s.generation else .idle }
    | _, _ => none
  | .lock =>
    match s.handler with
    | .idle => none
    | .stamping origin gen =>
      some { s with
        lockedGen := gen, handler := .idle, processed := s.processed ++ [origin] }

end State

end Macrdp.ClipboardSystem
