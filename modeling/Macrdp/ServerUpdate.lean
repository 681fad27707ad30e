import Mathlib.Data.List.SplitOn
import Macrdp.TextLines

/-!
# Installation of an update

The updater of the server downloads a release, compares its checksum, moves the installed bundle
away and the new one to its place, and moves the old one back when the new one does not verify. The
directory that holds the old bundle meanwhile is removed at the end. What is expected is that the
installed path has one of the two bundles then, the new one only if it was accepted.
-/

namespace Macrdp.ServerUpdate

open TextLines

/-! ## The checksum -/

/-- A character of a text: the scalars of a grapheme cluster. -/
abbrev Character := List Char

/-- A text. -/
abbrev Text := List Character

/-- The parts between separators, without the empty ones. -/
def split (separator : Character → Bool) (text : Text) : List Text :=
  (text.splitOnP separator).filter fun part => !part.isEmpty

/-- The scalars of a text. -/
def scalars (text : Text) : List Char := text.flatten

/-- The file name on a line of a manifest, without the spaces and asterisks around it. -/
def nameOf (isWhitespace : Char → Bool) (part : Text) : List Char :=
  trim (fun c => c = '*') (trim isWhitespace (scalars part))

/-- The checksum that a line of a manifest has for a file. -/
def lineHash (isWhitespace : Char → Bool) (fileName : List Char) (line : Text) : Option Text :=
  let parts := split (fun c => c = [' '] ∨ c = ['\t']) line
  if 2 ≤ parts.length ∧ (parts.getLast?.map fun part => nameOf isWhitespace part) = some fileName
  then parts.head?
  else none

/-- The checksum that a manifest has for a file. -/
def expected (isWhitespace : Char → Bool) (manifest : Text) (fileName : List Char) : Option Text :=
  (split (fun c => c = ['\n']) manifest).findSome? (lineHash isWhitespace fileName)

/-! ## The installation -/

/-- Names in the temporary directory. -/
inductive Name where
  | staged
  | old
  | bad
  deriving DecidableEq

/-- The installed path and the paths in the temporary directory. -/
inductive Place where
  | installed
  | temporary (name : Name)
  deriving DecidableEq

/-- The bundle that was installed, the one of the release, and what was left in the temporary
directory by another run. -/
inductive Bundle (C : Type*) where
  | previous
  | unpacked (content : C)
  | stray
  deriving DecidableEq

/-- Which bundle is where. -/
abbrev Files (C : Type*) := Place → Option (Bundle C)

/-- The moves of an installation. -/
inductive Move where
  | backUp
  | putInPlace
  | restoreReplaced
  | setAside
  | restoreInvalid
  deriving DecidableEq

variable {C : Type*}

/-- What an installation meets with. -/
structure Update (C : Type*) where
  confirmed : Bool
  downloadSums : Bool
  downloadZip : Bool
  /-- The manifest, if it can be read. -/
  manifest : Option Text
  isWhitespace : Char → Bool
  zipName : List Char
  /-- What the tool prints for the file that was downloaded. -/
  shasum : Text
  /-- The bundle that comes out of the archive, if it can be unpacked. -/
  unpack : Option C
  located : Bool
  fails : Move → Bool
  /-- The bundle with the signature of the local certificate, if there is one. -/
  resign : C → C
  codesignValid : Bundle C → Bool
  leftover : Name → Bool

/-- Which alert is shown at the end. -/
inductive Outcome where
  | cancelled
  | downloadFailed
  | checksumMismatch
  | notUnpacked
  | notFound
  | installFailed
  | notVerified
  | installed
  deriving DecidableEq

namespace Update

variable (u : Update C)

/-- Whether the checksum of the file is the one of the manifest. -/
def verifyChecksum : Bool :=
  match u.manifest.bind fun text => expected u.isWhitespace text u.zipName with
  | some want => (split (fun c => c = [' ']) u.shasum).head? = some want
  | none => false

/-- The files at first. -/
def files : Files C
  | .installed => some .previous
  | .temporary name => if u.leftover name then some .stray else none

/-- Move a bundle, which fails without effect if there is none or if the destination exists. The
flag says whether it was moved. -/
def moveItem (m : Move) (source target : Place) (fs : Files C) : Files C × Bool :=
  if u.fails m ∨ fs source = none ∨ fs target ≠ none then (fs, false)
  else (fun p => if p = target then fs source else if p = source then none else fs p, true)

/-- Sign the installed bundle anew if it is the one of the release. -/
def resignInPlace (fs : Files C) : Files C := fun p =>
  match p, fs p with
  | .installed, some (.unpacked content) => some (.unpacked (u.resign content))
  | _, bundle => bundle

/-- Put the unpacked bundle in the place of the installed one. -/
def replace (fs : Files C) : Files C × Outcome :=
  let backedUp := (u.moveItem .backUp .installed (.temporary .old) fs).1
  let placed := u.moveItem .putInPlace (.temporary .staged) .installed backedUp
  if placed.2 then
    let signed := u.resignInPlace placed.1
    if (signed .installed).any u.codesignValid then (signed, .installed)
    else
      let aside := (u.moveItem .setAside .installed (.temporary .bad) signed).1
      ((u.moveItem .restoreInvalid (.temporary .old) .installed aside).1, .notVerified)
  else
    ((u.moveItem .restoreReplaced (.temporary .old) .installed placed.1).1, .installFailed)

/-- The installation up to the end of the function, where the temporary directory is removed. -/
def attempt : Files C × Outcome :=
  if !u.confirmed then (u.files, .cancelled)
  else if !(u.downloadSums && u.downloadZip) then (u.files, .downloadFailed)
  else if !u.verifyChecksum then (u.files, .checksumMismatch)
  else
    match u.unpack with
    | none => (u.files, .notUnpacked)
    | some content =>
      let unpacked : Files C := fun p =>
        if p = .temporary .staged then some (.unpacked content) else u.files p
      if !u.located then (unpacked, .notFound) else u.replace unpacked

/-- Remove the temporary directory. -/
def removeTemporary (fs : Files C) : Files C
  | .installed => fs .installed
  | .temporary _ => none

/-- The whole function. -/
def confirmInstall : Files C × Outcome := (removeTemporary u.attempt.1, u.attempt.2)

/-! ## What is expected -/

/-- The installed path has the previous bundle, or that of the release if its checksum matched and
its signature was accepted. -/
def Safe (fs : Files C) : Prop :=
  fs .installed = some .previous ∨ ∃ content, u.unpack = some content ∧
    (fs .installed = some (.unpacked content) ∨
      fs .installed = some (.unpacked (u.resign content))) ∧
      u.verifyChecksum = true ∧ (fs .installed).any u.codesignValid = true

/-- Whether the installation comes to its moves. -/
def Reached : Prop :=
  u.confirmed = true ∧ u.downloadSums = true ∧ u.downloadZip = true ∧ u.verifyChecksum = true ∧
    u.located = true

/-- When the old bundle is moved away, the new one is moved to its place and accepted, or the moves
that bring the old one back do not fail. -/
def Recoverable : Prop :=
  ∀ content, u.unpack = some content → u.Reached → u.fails .backUp = false →
    u.leftover .old = false →
      if u.fails .putInPlace then u.fails .restoreReplaced = false
      else u.codesignValid (.unpacked (u.resign content)) = true ∨
        u.fails .setAside = false ∧ u.leftover .bad = false ∧ u.fails .restoreInvalid = false

/-! ## What the moves come to -/

variable {u : Update C} {fs : Files C} {content : C}

/-- What the paths have when the archive is unpacked. -/
structure Unpacked (u : Update C) (content : C) (fs : Files C) : Prop where
  installed : fs .installed = some .previous
  staged : fs (.temporary .staged) = some (.unpacked content)
  old : fs (.temporary .old) = if u.leftover .old then some .stray else none
  bad : fs (.temporary .bad) = if u.leftover .bad then some .stray else none

/-- While the installed bundle is not moved away, it stays. -/
theorem replace_kept (h : Unpacked u content fs)
    (hkept : u.fails .backUp = true ∨ u.leftover .old = true) :
    (u.replace fs).1 .installed = some .previous := by
  have hbackedUp : (u.moveItem .backUp .installed (.temporary .old) fs).1 = fs := by
    cases hkept with
    | inl hfails => simp [moveItem, hfails]
    | inr hleft => simp [moveItem, h.old, hleft]
  have hplaced : u.moveItem .putInPlace (.temporary .staged) .installed fs = (fs, false) := by
    simp [moveItem, h.installed]
  have hrestored : (u.moveItem .restoreReplaced (.temporary .old) .installed fs).1 = fs := by
    simp [moveItem, h.installed]
  simp [replace, hbackedUp, hplaced, hrestored, h.installed]

/-- The paths when the installed bundle is moved away. -/
structure BackedUp (u : Update C) (content : C) (fs : Files C) : Prop where
  installed : fs .installed = none
  staged : fs (.temporary .staged) = some (.unpacked content)
  old : fs (.temporary .old) = some .previous
  bad : fs (.temporary .bad) = if u.leftover .bad then some .stray else none

theorem backedUp (h : Unpacked u content fs) (hfails : u.fails .backUp = false)
    (hleft : u.leftover .old = false) :
    BackedUp u content (u.moveItem .backUp .installed (.temporary .old) fs).1 := by
  have hmoved : u.moveItem .backUp .installed (.temporary .old) fs =
      (fun p => if p = .temporary .old then fs .installed
        else if p = .installed then none else fs p, true) := by
    simp [moveItem, hfails, h.installed, h.old, hleft]
  rw [hmoved]
  constructor
  · rfl
  · exact h.staged
  · exact h.installed
  · exact h.bad

/-- Where the new bundle cannot be put, the old one comes back unless that fails too. -/
theorem replace_unplaced (h : Unpacked u content fs) (hbackUp : u.fails .backUp = false)
    (hleft : u.leftover .old = false) (hplace : u.fails .putInPlace = true) :
    (u.replace fs).1 .installed =
      if u.fails .restoreReplaced then none else some .previous := by
  have hbacked := backedUp h hbackUp hleft
  unfold replace
  generalize (u.moveItem .backUp .installed (.temporary .old) fs).1 = backed at hbacked
  have hplaced : u.moveItem .putInPlace (.temporary .staged) .installed backed =
      (backed, false) := by
    simp [moveItem, hplace]
  simp only [hplaced]
  cases hrestore : u.fails .restoreReplaced with
  | true => simp [moveItem, hrestore, hbacked.installed]
  | false => simp [moveItem, hrestore, hbacked.installed, hbacked.old]

/-- The paths when the new bundle is signed anew in its place. -/
structure Signed (u : Update C) (content : C) (fs : Files C) : Prop where
  installed : fs .installed = some (.unpacked (u.resign content))
  old : fs (.temporary .old) = some .previous
  bad : fs (.temporary .bad) = if u.leftover .bad then some .stray else none

theorem placed_signed (h : BackedUp u content fs) (hplace : u.fails .putInPlace = false) :
    (u.moveItem .putInPlace (.temporary .staged) .installed fs).2 = true ∧
      Signed u content
        (u.resignInPlace (u.moveItem .putInPlace (.temporary .staged) .installed fs).1) := by
  have hmoved : u.moveItem .putInPlace (.temporary .staged) .installed fs =
      (fun p => if p = .installed then fs (.temporary .staged)
        else if p = .temporary .staged then none else fs p, true) := by
    simp [moveItem, hplace, h.installed, h.staged]
  rw [hmoved]
  refine ⟨rfl, ?_, h.old, h.bad⟩
  simp [resignInPlace, h.staged]

/-- The old bundle comes back for one that is not accepted unless one of the two moves fails. -/
theorem restore_invalid (h : Signed u content fs) :
    (u.moveItem .restoreInvalid (.temporary .old) .installed
      (u.moveItem .setAside .installed (.temporary .bad) fs).1).1 .installed =
      if u.fails .setAside ∨ u.leftover .bad then some (.unpacked (u.resign content))
      else if u.fails .restoreInvalid then none else some .previous := by
  by_cases haside : u.fails .setAside ∨ u.leftover .bad
  · have hkept : (u.moveItem .setAside .installed (.temporary .bad) fs).1 = fs := by
      cases haside with
      | inl hfails => simp [moveItem, hfails]
      | inr hleft => simp [moveItem, h.bad, hleft]
    rw [hkept, if_pos haside]
    simp [moveItem, h.installed]
  · have hsetAside : u.fails .setAside = false := eq_false_of_ne_true fun hf => haside (.inl hf)
    have hbad : u.leftover .bad = false := eq_false_of_ne_true fun hl => haside (.inr hl)
    have hmoved : (u.moveItem .setAside .installed (.temporary .bad) fs).1 =
        fun p => if p = .temporary .bad then fs .installed
          else if p = .installed then none else fs p := by
      simp [moveItem, hsetAside, h.installed, h.bad, hbad]
    rw [hmoved, if_neg haside]
    cases hrestore : u.fails .restoreInvalid with
    | true => simp [moveItem, hrestore]
    | false => simp [moveItem, hrestore, h.old]

/-- Where the new bundle is put, it stays if it is accepted. -/
theorem replace_placed (h : Unpacked u content fs) (hbackUp : u.fails .backUp = false)
    (hleft : u.leftover .old = false) (hplace : u.fails .putInPlace = false) :
    (u.replace fs).1 .installed =
      if u.codesignValid (.unpacked (u.resign content)) ∨ u.fails .setAside ∨ u.leftover .bad then
        some (.unpacked (u.resign content))
      else if u.fails .restoreInvalid then none else some .previous := by
  have hbacked := backedUp h hbackUp hleft
  unfold replace
  generalize (u.moveItem .backUp .installed (.temporary .old) fs).1 = backed at hbacked
  obtain ⟨hplaced, hsigned⟩ := placed_signed hbacked hplace
  have hany : ∀ signed : Files C, Signed u content signed →
      (signed .installed).any u.codesignValid = u.codesignValid (.unpacked (u.resign content)) := by
    intro signed hs
    rw [hs.installed]
    rfl
  simp only [hplaced, if_true, hany _ hsigned]
  by_cases hvalid : u.codesignValid (.unpacked (u.resign content)) = true
  · rw [if_pos hvalid, if_pos (.inl hvalid)]
    exact hsigned.installed
  · rw [if_neg hvalid, restore_invalid hsigned]
    simp only [hvalid, Bool.false_eq_true, false_or]

/-! ## The whole -/

/-- What the installed path has when the archive was not unpacked for good. -/
theorem unpacked_files (u : Update C) (content : C) : Unpacked u content fun p =>
    if p = .temporary .staged then some (.unpacked content) else u.files p :=
  ⟨rfl, rfl, rfl, rfl⟩

/-- An installation that does not come to its moves changes nothing. -/
theorem attempt_unreached (h : u.unpack = none ∨ ¬ u.Reached) :
    u.attempt.1 .installed = some .previous := by
  unfold attempt
  split
  next => rfl
  next hconfirmed =>
    split
    next => rfl
    next hdownload =>
      split
      next => rfl
      next hchecksum =>
        split
        next => rfl
        next content hunpack =>
          dsimp only
          split
          next => rfl
          next hlocated =>
            have hreached : u.Reached := by
              simp only [Bool.not_eq_true', Bool.not_eq_false, Bool.and_eq_true]
                at hconfirmed hdownload hchecksum hlocated
              exact ⟨hconfirmed, hdownload.1, hdownload.2, hchecksum, hlocated⟩
            cases h with
            | inl hnone =>
              rw [hunpack] at hnone
              cases hnone
            | inr hnot => exact absurd hreached hnot

/-- An installation that comes to its moves makes them. -/
theorem attempt_reached (hunpack : u.unpack = some content) (h : u.Reached) :
    u.attempt = u.replace fun p =>
      if p = .temporary .staged then some (.unpacked content) else u.files p := by
  obtain ⟨hconfirmed, hsums, hzip, hchecksum, hlocated⟩ := h
  simp [attempt, hconfirmed, hsums, hzip, hchecksum, hlocated, hunpack]

/-- Without a bundle the installed path is not as expected. -/
theorem not_safe_of_none (h : fs .installed = none) : ¬ u.Safe fs := by
  intro hsafe
  rw [Safe, h] at hsafe
  cases hsafe with
  | inl hprevious => cases hprevious
  | inr hnew =>
    obtain ⟨content, -, -, -, hvalid⟩ := hnew
    cases hvalid

/-- The new bundle is expected exactly if its signature is accepted. -/
theorem safe_unpacked_iff (h : fs .installed = some (.unpacked (u.resign content)))
    (hunpack : u.unpack = some content) (hchecksum : u.verifyChecksum = true) :
    u.Safe fs ↔ u.codesignValid (.unpacked (u.resign content)) = true := by
  rw [Safe, h]
  constructor
  · intro hsafe
    cases hsafe with
    | inl hprevious => cases hprevious
    | inr hnew =>
      obtain ⟨-, -, -, -, hvalid⟩ := hnew
      exact hvalid
  · exact fun hvalid => .inr ⟨content, hunpack, .inr rfl, hchecksum, hvalid⟩

/-- The moves of an installation leave what is expected exactly if those that bring the old bundle
back do not fail. -/
theorem safe_replace_iff (h : Unpacked u content fs) (hunpack : u.unpack = some content)
    (hchecksum : u.verifyChecksum = true) {result : Files C}
    (hresult : result .installed = (u.replace fs).1 .installed) :
    u.Safe result ↔ (u.fails .backUp = false → u.leftover .old = false →
      if u.fails .putInPlace then u.fails .restoreReplaced = false
      else u.codesignValid (.unpacked (u.resign content)) = true ∨
        u.fails .setAside = false ∧ u.leftover .bad = false ∧ u.fails .restoreInvalid = false) := by
  by_cases hkept : u.fails .backUp = true ∨ u.leftover .old = true
  · have hprevious := hresult.trans (replace_kept h hkept)
    refine iff_of_true (.inl hprevious) fun hbackUp hleft => ?_
    rw [hbackUp, hleft] at hkept
    simp at hkept
  have hbackUp : u.fails .backUp = false := eq_false_of_ne_true fun hf => hkept (.inl hf)
  have hleft : u.leftover .old = false := eq_false_of_ne_true fun hl => hkept (.inr hl)
  simp only [hbackUp, hleft, forall_const]
  cases hplace : u.fails .putInPlace with
  | true =>
    rw [replace_unplaced h hbackUp hleft hplace] at hresult
    cases hrestore : u.fails .restoreReplaced with
    | true =>
      rw [hrestore] at hresult
      exact iff_of_false (not_safe_of_none hresult) fun heq => Bool.noConfusion heq
    | false =>
      rw [hrestore] at hresult
      exact iff_of_true (.inl hresult) rfl
  | false =>
    rw [replace_placed h hbackUp hleft hplace] at hresult
    rw [if_neg Bool.false_ne_true]
    by_cases hstays : u.codesignValid (.unpacked (u.resign content)) = true ∨
        u.fails .setAside = true ∨ u.leftover .bad = true
    · rw [if_pos hstays] at hresult
      rw [safe_unpacked_iff hresult hunpack hchecksum]
      refine ⟨.inl, fun hgood => ?_⟩
      cases hgood with
      | inl hvalid => exact hvalid
      | inr hmoves =>
        rw [hmoves.1, hmoves.2.1] at hstays
        simpa using hstays
    · rw [if_neg hstays] at hresult
      rw [not_or, not_or] at hstays
      obtain ⟨hinvalid, haside, hbad⟩ := hstays
      cases hrestore : u.fails .restoreInvalid with
      | true =>
        rw [hrestore] at hresult
        refine iff_of_false (not_safe_of_none hresult) ?_
        simp [hinvalid]
      | false =>
        rw [hrestore] at hresult
        exact iff_of_true (.inl hresult)
          (.inr ⟨eq_false_of_ne_true haside, eq_false_of_ne_true hbad, rfl⟩)

/-- The updater leaves one of the two bundles, the new one only if it was accepted, exactly if the
moves that are needed to bring the old one back do not fail. -/
theorem safe_iff_recoverable (u : Update C) : u.Safe u.confirmInstall.1 ↔ u.Recoverable := by
  by_cases hreach : u.unpack ≠ none ∧ u.Reached
  · obtain ⟨hunpacked, hreached⟩ := hreach
    obtain ⟨content, hunpack⟩ := Option.ne_none_iff_exists'.mp hunpacked
    have hinstalled : u.confirmInstall.1 .installed = u.attempt.1 .installed := rfl
    rw [attempt_reached hunpack hreached] at hinstalled
    have hiff := safe_replace_iff (unpacked_files u content) hunpack hreached.2.2.2.1 hinstalled
    rw [hiff, Recoverable]
    constructor
    · intro hmoves content' hunpack' _
      rw [hunpack, Option.some.injEq] at hunpack'
      rw [← hunpack']
      exact hmoves
    · exact fun hall => hall content hunpack hreached
  · have hkept : u.confirmInstall.1 .installed = some .previous := by
      refine attempt_unreached ?_
      by_contra hboth
      rw [not_or, not_not] at hboth
      exact hreach hboth
    refine iff_of_true (.inl hkept) fun content hunpack hreached => ?_
    refine absurd ⟨?_, hreached⟩ hreach
    rw [hunpack]
    nofun

/-- A release whose signature is not accepted, where the old bundle cannot be moved back. -/
def unlucky : Update Unit where
  confirmed := true
  downloadSums := true
  downloadZip := true
  manifest := some [['1'], [' '], ['a']]
  isWhitespace c := c = ' '
  zipName := ['a']
  shasum := [['1']]
  unpack := some ()
  located := true
  fails m := m = .restoreInvalid
  resign := id
  codesignValid _ := false
  leftover _ := false

/-- Nothing is installed then. -/
theorem not_safe_unlucky : ¬ ∀ u : Update Unit, u.Safe u.confirmInstall.1 := by
  intro h
  have hnone : unlucky.confirmInstall.1 .installed = none := by decide
  exact not_safe_of_none hnone (h unlucky)

end Update

end Macrdp.ServerUpdate
