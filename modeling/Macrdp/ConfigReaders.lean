import Macrdp.ConfigFile

/-!
# The two readers of the configuration file

On a text whose lines are plain, the server and the window read the same settings. What the window
writes is then read by the server unless a later line gives the key another value, and both go by
the same audio mode unless both modes are on.
-/

namespace Macrdp.ConfigFile

open TextLines
open KeyboardInput (isWhitespace)

/-! ## Values -/

/-- A value in no quotes, or in one layer of double quotes. -/
def Quoted (v : List Char) : Prop :=
  (v.head? ≠ some doubleQuote ∧ v.getLast? ≠ some doubleQuote ∧
      Server.unquote singleQuote v = none) ∨
    ∃ inner, v = doubleQuote :: (inner ++ [doubleQuote]) ∧ inner.head? ≠ some doubleQuote ∧
      inner.getLast? ≠ some doubleQuote

/-- A value that has the quotes at its ends. -/
theorem unquote_some {quote : Char} {v inner : List Char} :
    Server.unquote quote v = some inner ↔ v = quote :: (inner ++ [quote]) := by
  constructor
  · intro h
    rw [Server.unquote, Option.ite_none_right_eq_some] at h
    obtain ⟨⟨hlength, hhead, hlast⟩, hinner⟩ := h
    cases v with
    | nil => cases hhead
    | cons c rest =>
      cases hhead
      cases rest using List.reverseRecOn with
      | nil => simp at hlength
      | append_singleton rest d =>
        rw [← List.cons_append, List.getLast?_concat, Option.some.injEq] at hlast
        have hrest : rest = inner := by simpa using hinner
        rw [hlast, hrest]
  · rintro rfl
    rw [Server.unquote, if_pos, List.tail_cons, List.dropLast_concat]
    refine ⟨by simp, rfl, ?_⟩
    rw [← List.cons_append, List.getLast?_concat]

/-- The readers take the same quotes off a value exactly if it is in none or in one layer of double
quotes. -/
theorem stripQuotes_eq_trim_iff {v : List Char} :
    Server.stripQuotes v = trim (· = doubleQuote) v ↔ Quoted v := by
  have hends : trim (· = doubleQuote) v = v ↔
      v.head? ≠ some doubleQuote ∧ v.getLast? ≠ some doubleQuote := by
    rw [trim_eq_self_iff]
    cases v.head? <;> cases v.getLast? <;> simp
  have htwo : doubleQuote ≠ singleQuote := by decide
  cases hdouble : Server.unquote doubleQuote v with
  | some inner =>
    have hv := unquote_some.mp hdouble
    have hstrip : Server.stripQuotes v = inner := by
      rw [Server.stripQuotes, hdouble]
      rfl
    have htrim : trim (· = doubleQuote) v = trim (· = doubleQuote) inner := by
      rw [hv, trim_cons _ (by simp), trim_concat _ (by simp)]
    have hinner : trim (· = doubleQuote) inner = inner ↔
        inner.head? ≠ some doubleQuote ∧ inner.getLast? ≠ some doubleQuote := by
      rw [trim_eq_self_iff]
      cases inner.head? <;> cases inner.getLast? <;> simp
    rw [hstrip, htrim, eq_comm, hinner]
    constructor
    · intro h
      exact Or.inr ⟨inner, hv, h⟩
    · rintro (⟨hhead, -⟩ | ⟨other, hother, h⟩)
      · rw [hv] at hhead
        exact absurd rfl hhead
      · have hsame := unquote_some.mpr hother
        rw [hdouble, Option.some.injEq] at hsame
        rw [hsame]
        exact h
  | none =>
    have hnotDouble : ∀ inner, v ≠ doubleQuote :: (inner ++ [doubleQuote]) := by
      intro inner hv
      rw [unquote_some.mpr hv] at hdouble
      cases hdouble
    cases hsingle : Server.unquote singleQuote v with
    | some inner =>
      have hv := unquote_some.mp hsingle
      have hstrip : Server.stripQuotes v = inner := by
        rw [Server.stripQuotes, hdouble, hsingle]
        rfl
      have htrim : trim (· = doubleQuote) v = v := by
        rw [hends, hv, ← List.cons_append, List.getLast?_concat]
        exact ⟨fun h => htwo (Option.some.inj h).symm, fun h => htwo (Option.some.inj h).symm⟩
      have hlength : inner ≠ v := by
        intro hsame
        have hcount := congrArg List.length hv
        rw [← hsame, List.length_cons, List.length_append, List.length_singleton] at hcount
        omega
      constructor
      · intro h
        rw [hstrip, htrim] at h
        exact absurd h hlength
      · rintro (⟨-, -, hnone⟩ | ⟨other, hother, -⟩)
        · rw [hsingle] at hnone
          cases hnone
        · exact absurd hother (hnotDouble other)
    | none =>
      have hstrip : Server.stripQuotes v = v := by
        rw [Server.stripQuotes, hdouble, hsingle]
        rfl
      rw [hstrip, eq_comm, hends]
      constructor
      · rintro ⟨hhead, hlast⟩
        exact Or.inl ⟨hhead, hlast, hsingle⟩
      · rintro (⟨hhead, hlast, -⟩ | ⟨other, hother, -⟩)
        · exact ⟨hhead, hlast⟩
        · exact absurd hother (hnotDouble other)

/-! ## Lines -/

/-- A line that both readers read alike. -/
inductive PlainLine (u : Unicode) : List Char → Prop where
  /-- A line that assigns nothing. -/
  | other {line : List Char} (h : '=' ∉ line) : PlainLine u line
  /-- A comment, whose number sign is a character of its own. -/
  | comment (blanks rest : List Char) (hblanks : ∀ c ∈ blanks, Gui.isBlank c = true)
    (hown : rest.head?.any u.extending = false) : PlainLine u (blanks ++ '#' :: rest)
  /-- An assignment whose first equals sign is a character of its own, with a key that is no comment
  and not exported, with ends that both trim alike, and with plain quotes. -/
  | assignment (key value : List Char) (hkey : '=' ∉ key)
    (hbefore : key.getLast?.any u.prepending = false)
    (hafter : value.head?.any u.extending = false)
    (hcomment : (key.dropWhile isWhitespace).head? ≠ some '#')
    (hexport : ¬Server.exportPrefix <+: key.dropWhile isWhitespace)
    (hkeyEnds : trim isWhitespace key = trim Gui.isBlank key)
    (hvalueEnds : trim isWhitespace value = trim Gui.isBlank value)
    (hquoted : Quoted (trim isWhitespace value)) : PlainLine u (key ++ '=' :: value)

/-- What the window trims the server trims, too. -/
theorem isWhitespace_of_isBlank {c : Char} (h : Gui.isBlank c = true) : isWhitespace c = true := by
  simp only [Gui.isBlank, Bool.or_eq_true, decide_eq_true_eq] at h
  simp only [isWhitespace, Bool.or_eq_true, decide_eq_true_eq]
  rcases h with (h | h) | h
  · rw [h]
    exact Or.inl (Or.inl (by decide))
  · exact Or.inl (Or.inr h)
  · refine Or.inr ?_
    simp only [List.mem_cons, List.not_mem_nil, or_false] at h ⊢
    tauto

/-- The server reads no assignment in a line without an equals sign. -/
theorem Server.entry_other {line : List Char} (h : '=' ∉ line) : Server.entry line = none := by
  have htrim : ∀ c ∈ trim isWhitespace line, c ∈ line := fun c hc =>
    (List.dropWhile_sublist _).subset ((List.rdropWhile_prefix _ _).subset hc)
  have hstrip : ∀ c ∈ stripExport (trim isWhitespace line), c ∈ line := by
    intro c hc
    rw [stripExport] at hc
    split at hc
    · exact htrim c (List.mem_of_mem_drop hc)
    · exact htrim c hc
  simp only [Server.entry]
  split
  · rfl
  · rw [splitOnce_eq_none fun hmem => h (hstrip _ hmem)]
    rfl

/-- The server reads no assignment in a comment. -/
theorem Server.entry_comment {blanks : List Char} (rest : List Char)
    (hblanks : ∀ c ∈ blanks, Gui.isBlank c = true) :
    Server.entry (blanks ++ '#' :: rest) = none := by
  have htrim : trim isWhitespace (blanks ++ '#' :: rest) = '#' :: rest.rdropWhile isWhitespace := by
    rw [trim_parted blanks rest (by decide), List.dropWhile_eq_nil_iff.mpr fun c hc =>
      isWhitespace_of_isBlank (hblanks c hc), List.nil_append]
  simp only [Server.entry, htrim]
  exact if_pos (Or.inr rfl)

/-- The exporting word ends before an equals sign. -/
theorem Server.prefix_before_equals {key value : List Char}
    (h : Server.exportPrefix <+: key ++ '=' :: value) : Server.exportPrefix <+: key := by
  rcases List.prefix_or_prefix_of_prefix h (List.prefix_append key _) with hshort | ⟨more, hmore⟩
  · exact hshort
  · rw [← hmore, List.prefix_append_right_inj] at h
    have hno : '=' ∉ Server.exportPrefix := by decide
    cases more with
    | nil =>
      rw [← hmore, List.append_nil]
    | cons c more =>
      obtain ⟨rfl, -⟩ := List.cons_prefix_cons.mp h
      refine absurd ?_ hno
      rw [← hmore]
      exact List.mem_append_right _ List.mem_cons_self

/-- What the server reads in an assignment. -/
theorem Server.entry_assignment {key : List Char} (value : List Char) (hkey : '=' ∉ key)
    (hcomment : (key.dropWhile isWhitespace).head? ≠ some '#')
    (hexport : ¬Server.exportPrefix <+: key.dropWhile isWhitespace) :
    Server.entry (key ++ '=' :: value) =
      some (trim isWhitespace key, Server.stripQuotes (trim isWhitespace value)) := by
  have htrim : trim isWhitespace (key ++ '=' :: value) =
      key.dropWhile isWhitespace ++ '=' :: value.rdropWhile isWhitespace :=
    trim_parted key value (by decide)
  have hassigns : ¬(trim isWhitespace (key ++ '=' :: value) = [] ∨
      (trim isWhitespace (key ++ '=' :: value)).head? = some '#') := by
    rw [htrim]
    cases hfirst : key.dropWhile isWhitespace with
    | nil => simp
    | cons c rest =>
      rw [hfirst] at hcomment
      simpa using hcomment
  have hstrip : stripExport (trim isWhitespace (key ++ '=' :: value)) =
      key.dropWhile isWhitespace ++ '=' :: value.rdropWhile isWhitespace := by
    rw [stripExport, htrim, if_neg]
    intro hprefix
    exact hexport (prefix_before_equals hprefix)
  have hnot : '=' ∉ key.dropWhile isWhitespace := fun hmem =>
    hkey ((List.dropWhile_sublist _).subset hmem)
  simp only [Server.entry]
  rw [if_neg hassigns, hstrip, splitOnce_parted _ hnot]
  simp only [Option.map_some, trim_dropWhile, trim_rdropWhile]

/-- What does not go on after a text does not go on after its beginning. -/
theorem any_head_rdropWhile {f p : Char → Bool} {s : List Char} (h : s.head?.any f = false) :
    (s.rdropWhile p).head?.any f = false := by
  cases hfirst : s.rdropWhile p with
  | nil => rfl
  | cons c rest =>
    obtain ⟨more, hmore⟩ := List.rdropWhile_prefix p s
    rw [hfirst] at hmore
    rw [← hmore] at h
    exact h

/-- The end of a text is that of what is left of it. -/
theorem any_getLast_dropWhile {f p : Char → Bool} {s : List Char} (h : s.getLast?.any f = false) :
    (s.dropWhile p).getLast?.any f = false := by
  by_cases hnil : s.dropWhile p = []
  · rw [hnil]
    rfl
  · obtain ⟨more, hmore⟩ := List.dropWhile_suffix p (l := s)
    rw [← hmore, List.getLast?_append_of_ne_nil _ hnil] at h
    exact h

namespace Gui

variable {u : Unicode}

/-- There is nothing to split without an equals sign. -/
theorem splitEquals_eq_none {line : List Char} (joined : Bool) (h : '=' ∉ line) :
    splitEquals u joined line = none := by
  induction line generalizing joined with
  | nil => rfl
  | cons c rest ih =>
    obtain ⟨hc, hrest⟩ := not_or.mp (List.mem_cons.not.mp h)
    rw [splitEquals, if_neg (fun hall => hc hall.1.symm), ih _ hrest]
    rfl

/-- A line is split at its first equals sign if it is a character of its own. -/
theorem splitEquals_parted {key value : List Char} {joined : Bool} (hkey : '=' ∉ key)
    (hjoined : key = [] → joined = false) (hbefore : key.getLast?.any u.prepending = false)
    (hafter : value.head?.any u.extending = false) :
    splitEquals u joined (key ++ '=' :: value) = some (key, value) := by
  induction key generalizing joined with
  | nil => rw [List.nil_append, splitEquals, if_pos ⟨rfl, hjoined rfl, hafter⟩]
  | cons c rest ih =>
    obtain ⟨hc, hrest⟩ := not_or.mp (List.mem_cons.not.mp hkey)
    have hnext : rest = [] → u.prepending c = false := by
      rintro rfl
      exact hbefore
    have hlast : rest.getLast?.any u.prepending = false := by
      cases rest with
      | nil => rfl
      | cons d rest => exact hbefore
    rw [List.cons_append, splitEquals, if_neg (fun hall => hc hall.1.symm), ih hrest hnext hlast]
    rfl

/-- The window reads no assignment in a line without an equals sign. -/
theorem entry_other {line : List Char} (h : '=' ∉ line) : entry u line = none := by
  have htrim : ∀ c ∈ trim isBlank line, c ∈ line := fun c hc =>
    (List.dropWhile_sublist _).subset ((List.rdropWhile_prefix _ _).subset hc)
  simp only [entry, parts]
  split
  · rfl
  · rw [splitEquals_eq_none false fun hmem => h (htrim _ hmem)]
    rfl

/-- The window reads no assignment in a comment. -/
theorem entry_comment {blanks rest : List Char} (hblanks : ∀ c ∈ blanks, isBlank c = true)
    (hown : rest.head?.any u.extending = false) : entry u (blanks ++ '#' :: rest) = none := by
  have htrim : trim isBlank (blanks ++ '#' :: rest) = '#' :: rest.rdropWhile isBlank := by
    rw [trim_parted blanks rest (by decide), List.dropWhile_eq_nil_iff.mpr hblanks,
      List.nil_append]
  have hcomment : isComment u ('#' :: rest.rdropWhile isBlank) = true := by
    rw [isComment, any_head_rdropWhile hown]
    rfl
  simp only [entry, parts, htrim]
  rw [if_pos (Or.inr hcomment)]
  rfl

/-- What the window reads in an assignment. -/
theorem entry_assignment {key value : List Char} (hkey : '=' ∉ key)
    (hbefore : key.getLast?.any u.prepending = false)
    (hafter : value.head?.any u.extending = false)
    (hcomment : (key.dropWhile isWhitespace).head? ≠ some '#') :
    entry u (key ++ '=' :: value) =
      some (trim isBlank key, trim (· = doubleQuote) (trim isBlank value)) := by
  have htrim : trim isBlank (key ++ '=' :: value) =
      key.dropWhile isBlank ++ '=' :: value.rdropWhile isBlank :=
    trim_parted key value (by decide)
  have hassigns : ¬(trim isBlank (key ++ '=' :: value) = [] ∨
      isComment u (trim isBlank (key ++ '=' :: value)) = true) := by
    rw [htrim]
    cases hfirst : key.dropWhile isBlank with
    | nil => simp [isComment]
    | cons c rest =>
      have hc : c ≠ '#' := by
        rintro rfl
        -- what is before it is blank, so the server comes to it, too
        have hparted := List.takeWhile_append_dropWhile (p := isBlank) (l := key)
        rw [hfirst] at hparted
        have hblank : ∀ d ∈ key.takeWhile isBlank, isWhitespace d = true := fun d hd =>
          isWhitespace_of_isBlank (List.mem_takeWhile_imp hd)
        rw [← hparted, dropWhile_parted _ rest (by decide),
          List.dropWhile_eq_nil_iff.mpr hblank] at hcomment
        exact hcomment rfl
      simp [isComment, hc]
  have hnot : '=' ∉ key.dropWhile isBlank := fun hmem =>
    hkey ((List.dropWhile_sublist _).subset hmem)
  have hsplit : splitEquals u false (key.dropWhile isBlank ++ '=' :: value.rdropWhile isBlank) =
      some (key.dropWhile isBlank, value.rdropWhile isBlank) :=
    splitEquals_parted hnot (fun _ => rfl) (any_getLast_dropWhile hbefore)
      (any_head_rdropWhile hafter)
  simp only [entry, parts]
  rw [if_neg hassigns, htrim, hsplit]
  simp only [Option.map_some, trim_dropWhile, trim_rdropWhile]

/-- The characters that are a line feed are the line feeds of a text without the other line end. -/
theorem splitNewlines_eq {text : List Char} (h : ¬['\r', '\n'] <:+: text) :
    splitNewlines text = text.splitOn '\n' := by
  induction text using splitNewlines.induct with
  | case1 => rfl
  | case2 rest ih => exact absurd ⟨[], rest, rfl⟩ h
  | case3 rest hother ih =>
    have hrest : ¬['\r', '\n'] <:+: rest := fun hinner =>
      h (hinner.trans (List.suffix_cons _ rest).isInfix)
    rw [splitNewlines.eq_3 _ _ hother, if_pos rfl, ih hrest, List.splitOn_cons_eq_if_modifyHead,
      if_pos (beq_self_eq_true _)]
  | case4 c rest hother hc ih =>
    have hrest : ¬['\r', '\n'] <:+: rest := fun hinner =>
      h (hinner.trans (List.suffix_cons c rest).isInfix)
    rw [splitNewlines.eq_3 _ _ hother, if_neg hc, ih hrest, List.splitOn_cons_eq_if_modifyHead,
      if_neg (by simpa using hc)]

end Gui

/-- The readers read the same in a plain line. -/
theorem PlainLine.alike {u : Unicode} {line : List Char} (h : PlainLine u line) :
    Server.entry line = Gui.entry u line := by
  cases h with
  | other hno => rw [Server.entry_other hno, Gui.entry_other hno]
  | comment blanks rest hblanks hown =>
    rw [Server.entry_comment rest hblanks, Gui.entry_comment hblanks hown]
  | assignment key value hkey hbefore hafter hcomment hexport hkeyEnds hvalueEnds hquoted =>
    rw [Server.entry_assignment value hkey hcomment hexport,
      Gui.entry_assignment hkey hbefore hafter hcomment, hkeyEnds, hvalueEnds,
      stripQuotes_eq_trim_iff.mpr (hvalueEnds ▸ hquoted)]

/-! ## Texts -/

/-- The keys that one of the readers finds in a text. -/
def givenKeys (u : Unicode) (text : List Char) : List (List Char) :=
  (Server.entries text).map Prod.fst ++ (Gui.entries u text).map Prod.fst

/-- A key that the text gives is spelled as the text spells it. -/
def Spelled (u : Unicode) (text key : List Char) : Prop :=
  ∀ k ∈ givenKeys u text, u.canonical k = u.canonical key → key ∈ givenKeys u text

/-- A text that both readers read alike. -/
structure PlainText (u : Unicode) (text : List Char) : Prop where
  /-- Lines end in a line feed alone. -/
  noReturn : ¬['\r', '\n'] <:+: text
  lines : ∀ line ∈ text.splitOn '\n', PlainLine u line
  /-- No key is given in two spellings. -/
  spellings : ∀ k ∈ givenKeys u text, ∀ k' ∈ givenKeys u text,
    u.canonical k = u.canonical k' → k = k'

/-- The end of a line is blank to the server. -/
theorem Server.entry_dropReturn (line : List Char) :
    Server.entry (if line.getLast? = some '\r' then line.dropLast else line) =
      Server.entry line := by
  split
  · next hlast =>
    have hconcat := List.dropLast_append_getLast? '\r' hlast
    have htrim : trim isWhitespace line = trim isWhitespace line.dropLast := by
      rw [← hconcat, trim_concat _ (by decide), List.dropLast_concat]
    simp only [Server.entry, htrim]
  · rfl

/-- The server goes by the line feeds. -/
theorem Server.entries_eq (text : List Char) :
    Server.entries text = (text.splitOn '\n').filterMap Server.entry := by
  have hnil : Server.entry [] = none := rfl
  have hended : ((text.splitOn '\n').dropLast.map fun line =>
      if line.getLast? = some '\r' then line.dropLast else line).filterMap Server.entry =
        (text.splitOn '\n').dropLast.filterMap Server.entry := by
    rw [List.filterMap_map]
    exact List.filterMap_congr fun line _ => Server.entry_dropReturn line
  have hne := List.splitOn_ne_nil '\n' text
  have hparts := List.dropLast_append_getLast hne
  simp only [Server.entries, Server.lines, List.getLast?_eq_some_getLast hne]
  cases hlast : (text.splitOn '\n').getLast hne with
  | nil =>
    rw [hlast] at hparts
    have hlines := congrArg (List.filterMap Server.entry) hparts
    rw [List.filterMap_append, List.filterMap_cons_none hnil, List.filterMap_nil,
      List.append_nil] at hlines
    exact hended.trans hlines
  | cons c rest =>
    rw [hlast] at hparts
    have hlines := congrArg (List.filterMap Server.entry) hparts
    rw [List.filterMap_append] at hlines
    simp only [List.filterMap_append]
    exact (congrArg (· ++ List.filterMap Server.entry [c :: rest]) hended).trans hlines

namespace PlainText

variable {u : Unicode} {text : List Char}

/-- Both readers find the same assignments. -/
theorem entries_eq (h : PlainText u text) : Gui.entries u text = Server.entries text := by
  have hnil : Gui.entry u [] = none := rfl
  have hempty : ∀ lines : List (List Char),
      (lines.filter (· ≠ [])).filterMap (Gui.entry u) = lines.filterMap (Gui.entry u) := by
    intro lines
    induction lines with
    | nil => rfl
    | cons line lines ih =>
      by_cases hline : line = []
      · rw [hline, List.filter_cons_of_neg (by simp), List.filterMap_cons_none hnil, ih]
      · rw [List.filter_cons_of_pos (by simpa using hline), List.filterMap_cons,
          List.filterMap_cons, ih]
  rw [Gui.entries, hempty, Gui.splitNewlines_eq h.noReturn, Server.entries_eq]
  exact List.filterMap_congr fun line hline => (h.lines line hline).alike.symm

/-- A key of an assignment is given. -/
theorem given_of_mem {e : List Char × List Char} (he : e ∈ Server.entries text) :
    e.1 ∈ givenKeys u text := List.mem_append_left _ (List.mem_map_of_mem he)

/-- Both readers give the same value to a key that is spelled as in the text. -/
theorem readConfig_eq (h : PlainText u text) {k : List Char} (hk : Spelled u text k) :
    Gui.readConfig u text k = Server.cfg text k := by
  rw [Gui.readConfig, h.entries_eq]
  refine assignBy_eq_assign fun e he hform => ?_
  have hgiven := given_of_mem (u := u) he
  exact h.spellings k (hk e.1 hgiven hform.symm) e.1 hgiven hform

/-- The names of the audio settings are spelled so in every text. -/
theorem spelled_audio {key : List Char} (hkey : key ∈ [enableAac, enableLossyAudio]) :
    Spelled u text key := by
  intro k hk hform
  rw [← u.canonical_audio key hkey k hform]
  exact hk

/-- Both go by the same audio mode unless both modes are on. -/
theorem audio_eq_iff (h : PlainText u text) :
    Gui.audio (Gui.readConfig u text) = Server.audio (Server.cfg text) ↔
      ¬(Server.isOn (Server.cfg text) enableAac false = true ∧
        Server.isOn (Server.cfg text) enableLossyAudio false = true) := by
  have hbool : ∀ key ∈ [enableAac, enableLossyAudio],
      Gui.bool (Gui.readConfig u text) key = Server.isOn (Server.cfg text) key false := by
    intro key hkey
    rw [Gui.bool, Server.isOn, h.readConfig_eq (spelled_audio hkey)]
    cases Server.cfg text key with
    | none | some v => rfl
  rw [Gui.audio, Server.audio, hbool _ (by simp), hbool _ (by simp)]
  cases Server.isOn (Server.cfg text) enableAac false <;>
    cases Server.isOn (Server.cfg text) enableLossyAudio false <;> decide

end PlainText

/-! ## Writing -/

/-- A name that can stand before an equals sign. -/
structure PlainKey (key : List Char) : Prop where
  oneLine : '\n' ∉ key
  noEquals : '=' ∉ key
  trimmed : trim isWhitespace key = key
  noComment : key.head? ≠ some '#'
  notExported : ¬Server.exportPrefix <+: key

/-- A value without line breaks, quotes or blanks around it. -/
structure PlainValue (value : List Char) : Prop where
  oneLine : '\n' ∉ value
  noDouble : doubleQuote ∉ value
  noSingle : singleQuote ∉ value
  trimmed : trim isWhitespace value = value

/-- The server reads what the window writes in a line. -/
theorem Server.entry_written {key value : List Char} (hkey : PlainKey key)
    (hvalue : PlainValue value) : Server.entry (key ++ '=' :: value) = some (key, value) := by
  have hfirst : key.dropWhile isWhitespace = key :=
    dropWhile_eq_self_iff.mpr (trim_eq_self_iff.mp hkey.trimmed).1
  have hquotes : Server.stripQuotes value = value := by
    have hnone : ∀ quote ∉ value, Server.unquote quote value = none := by
      intro quote hquote
      refine Option.eq_none_iff_forall_not_mem.mpr fun inner hinner => hquote ?_
      rw [unquote_some.mp hinner]
      exact List.mem_cons_self
    rw [Server.stripQuotes, hnone _ hvalue.noDouble, hnone _ hvalue.noSingle]
    rfl
  rw [Server.entry_assignment value hkey.noEquals (by rw [hfirst]; exact hkey.noComment)
    (by rw [hfirst]; exact hkey.notExported), hkey.trimmed, hvalue.trimmed, hquotes]

/-- The lines of a written text are those that were written. -/
theorem Server.entries_written {lines : List (List Char)} (hne : lines ≠ [])
    (hlines : ∀ line ∈ lines, '\n' ∉ line) {text : List Char}
    (htext : text = ['\n'].intercalate lines ∨ text = ['\n'].intercalate lines ++ ['\n']) :
    Server.entries text = lines.filterMap Server.entry := by
  have hsplit := List.splitOn_intercalate '\n' hlines hne
  rw [Server.entries_eq]
  rcases htext with rfl | rfl
  · rw [hsplit]
  · rw [List.splitOn_append_cons_self, hsplit, List.filterMap_append]
    exact List.append_nil _

namespace PlainText

variable {u : Unicode} {text key value : List Char}

/-- The window finds a key in the lines in which the server reads it. -/
theorem hasKey_iff (h : PlainText u text) (hspelled : Spelled u text key) {raw : List Char}
    (hraw : raw ∈ text.splitOn '\n') :
    Gui.hasKey u key raw = true ↔ ∃ v, Server.entry raw = some (key, v) := by
  have halike := (h.lines raw hraw).alike
  have hgiven : ∀ e, Server.entry raw = some e → e.1 ∈ givenKeys u text := by
    intro e he
    refine given_of_mem ?_
    rw [Server.entries_eq]
    exact List.mem_filterMap.mpr ⟨raw, hraw, he⟩
  cases hparts : Gui.parts u raw with
  | none =>
    rw [Gui.entry, hparts] at halike
    rw [Gui.hasKey, hparts, halike]
    simp
  | some parts =>
    rw [Gui.entry, hparts, Option.map_some] at halike
    rw [Gui.hasKey, hparts, halike, Option.any_some, decide_eq_true_eq]
    constructor
    · intro hform
      have hown := hgiven _ halike
      have hsame := h.spellings parts.1 hown key (hspelled _ hown hform) hform
      exact ⟨_, by rw [hsame]⟩
    · rintro ⟨v, hv⟩
      cases hv
      rfl

/-- What the window writes is what the server reads unless a later line gives the key another
value, and the other settings stay. -/
theorem written_iff (h : PlainText u text) (hkey : PlainKey key)
    (hspelled : Spelled u text key) (hvalue : PlainValue value) :
    (∀ k, Server.cfg (Gui.writeConfig u key value text) k =
        if k = key then some value else Server.cfg text k) ↔
      (given (Server.entries text) key).length ≤ 1 ∨
        (given (Server.entries text) key).getLast? = some value := by
  have hnew := Server.entry_written hkey hvalue
  have honeLine : '\n' ∉ key ++ '=' :: value := by
    rw [List.mem_append, List.mem_cons]
    rintro (hmem | hmem | hmem)
    · exact hkey.oneLine hmem
    · cases hmem
    · exact hvalue.oneLine hmem
  have htext : ∀ lines : List (List Char), Gui.writtenLines u key value text = lines →
      lines ≠ [] → (∀ line ∈ lines, '\n' ∉ line) →
      Server.entries (Gui.writeConfig u key value text) = lines.filterMap Server.entry := by
    intro lines hwritten hne hlines
    refine Server.entries_written hne hlines ?_
    rw [Gui.writeConfig, hwritten]
    split
    · exact Or.inl rfl
    · exact Or.inr rfl
  cases hfound : (text.splitOn '\n').findIdx? (Gui.hasKey u key) with
  | none =>
    have hwritten : Gui.writtenLines u key value text =
        text.splitOn '\n' ++ [key ++ '=' :: value] := by
      rw [Gui.writtenLines, hfound]
    have hnoKey := List.findIdx?_eq_none_iff.mp hfound
    have hgiven : given (Server.entries text) key = [] := by
      refine given_eq_nil_iff.mpr fun e he hsame => ?_
      rw [Server.entries_eq] at he
      obtain ⟨raw, hraw, hentry⟩ := List.mem_filterMap.mp he
      have hhas := (h.hasKey_iff hspelled hraw).mpr ⟨e.2, by rw [hentry, ← hsame]⟩
      rw [hnoKey raw hraw] at hhas
      cases hhas
    have hentries := htext _ hwritten (by simp) (by
      intro line hline
      rcases List.mem_append.mp hline with hline | hline
      · exact not_mem_of_mem_splitOn hline
      · rw [List.mem_singleton.mp hline]
        exact honeLine)
    rw [List.filterMap_append, ← Server.entries_eq, List.filterMap_cons_some hnew,
      List.filterMap_nil] at hentries
    rw [hgiven]
    refine iff_of_true (fun k => ?_) (Or.inl (Nat.zero_le 1))
    rw [Server.cfg, hentries, assign_concat, Server.cfg]
    by_cases hk : k = key
    · rw [hk, Function.update_self, if_pos rfl]
    · rw [Function.update_of_ne hk, if_neg hk]
  | some i =>
    obtain ⟨hi, hhas, hfirst⟩ := List.findIdx?_eq_some_iff_getElem.mp hfound
    have hwritten : Gui.writtenLines u key value text =
        (text.splitOn '\n').take i ++ (key ++ '=' :: value) :: (text.splitOn '\n').drop (i + 1) := by
      rw [Gui.writtenLines, hfound]
      exact List.set_eq_take_append_cons_drop.trans (if_pos hi)
    obtain ⟨old, hold⟩ := (h.hasKey_iff hspelled (List.getElem_mem hi)).mp hhas
    have hlines : text.splitOn '\n' = (text.splitOn '\n').take i ++
        (text.splitOn '\n')[i] :: (text.splitOn '\n').drop (i + 1) := by
      rw [← List.drop_eq_getElem_cons hi, List.take_append_drop]
    have hentries := htext _ hwritten (by simp) (by
      intro line hline
      rcases List.mem_append.mp hline with hline | hline
      · exact not_mem_of_mem_splitOn (List.mem_of_mem_take hline)
      · rcases List.mem_cons.mp hline with rfl | hline
        · exact honeLine
        · exact not_mem_of_mem_splitOn (List.mem_of_mem_drop hline))
    rw [List.filterMap_append, List.filterMap_cons_some hnew] at hentries
    have hbefore : Server.entries text =
        ((text.splitOn '\n').take i).filterMap Server.entry ++
          (key, old) :: ((text.splitOn '\n').drop (i + 1)).filterMap Server.entry := by
      rw [← List.filterMap_cons_some hold, ← List.filterMap_append, ← hlines, Server.entries_eq]
    have hgiven : given (((text.splitOn '\n').take i).filterMap Server.entry) key = [] := by
      refine given_eq_nil_iff.mpr fun e he hsame => ?_
      obtain ⟨raw, hraw, hentry⟩ := List.mem_filterMap.mp he
      obtain ⟨j, hj, rfl⟩ := List.mem_take_iff_getElem.mp hraw
      have hother := hfirst j (by omega)
      have hagain := (h.hasKey_iff hspelled (List.mem_of_mem_take hraw)).mpr
        ⟨e.2, by rw [hentry, ← hsame]⟩
      exact hother hagain
    rw [Server.cfg, Server.cfg, hentries, hbefore]
    exact assign_replace_iff hgiven

end PlainText

/-- The readers find the same settings in a text, the server reads what the window writes for a key
and nothing else changes for it, and both go by the same audio mode. -/
def Agree (u : Unicode) (text key value : List Char) : Prop :=
  (∀ k, Spelled u text k → Gui.readConfig u text k = Server.cfg text k) ∧
    (∀ k, Server.cfg (Gui.writeConfig u key value text) k =
      if k = key then some value else Server.cfg text k) ∧
    Gui.audio (Gui.readConfig u text) = Server.audio (Server.cfg text)

/-- On a plain text the readers agree exactly if no line after the one that is written gives the key
another value, and not both audio modes are on. -/
theorem config_agree_iff (u : Unicode) {text key value : List Char} (htext : PlainText u text)
    (hkey : PlainKey key) (hspelled : Spelled u text key) (hvalue : PlainValue value) :
    Agree u text key value ↔
      ((given (Server.entries text) key).length ≤ 1 ∨
          (given (Server.entries text) key).getLast? = some value) ∧
        ¬(Server.isOn (Server.cfg text) enableAac false = true ∧
          Server.isOn (Server.cfg text) enableLossyAudio false = true) := by
  rw [← htext.written_iff hkey hspelled hvalue, ← htext.audio_eq_iff]
  exact and_iff_right fun k hk => htext.readConfig_eq hk

/-- Strings of letters and the combining marks that follow them. -/
def latin : Unicode where
  extending := fun c => decide (0x300 ≤ c.val ∧ c.val ≤ 0x36f)
  prepending := fun _ => false
  canonical := id
  canonical_audio := fun _ _ _ h => h

/-- There is one spelling of each key. -/
theorem spelled_latin (text key : List Char) : Spelled latin text key := by
  intro k hk hform
  have hsame : k = key := hform
  rw [← hsame]
  exact hk

/-- A comment, a flag that is turned on, and an address in quotes. -/
theorem config_agree_iff_sample :
    Agree latin "# display\nHIDPI=0\nBIND=\x22::1\x22\n".toList "HIDPI".toList ['1'] := by
  have hsplit : "# display\nHIDPI=0\nBIND=\x22::1\x22\n".toList.splitOn '\n' =
      [[] ++ '#' :: " display".toList, "HIDPI".toList ++ '=' :: ['0'],
        "BIND".toList ++ '=' :: "\x22::1\x22".toList, []] := by decide
  have htext : PlainText latin "# display\nHIDPI=0\nBIND=\x22::1\x22\n".toList := by
    refine ⟨by decide, fun line hline => ?_, fun _ _ _ _ hform => hform⟩
    rw [hsplit] at hline
    simp only [List.mem_cons, List.not_mem_nil, or_false] at hline
    rcases hline with rfl | rfl | rfl | rfl
    · exact .comment [] _ (by simp) (by decide)
    · exact .assignment _ _ (by decide) (by decide) (by decide) (by decide) (by decide)
        (by decide) (by decide) (Or.inl (by decide))
    · exact .assignment _ _ (by decide) (by decide) (by decide) (by decide) (by decide)
        (by decide) (by decide) (Or.inr ⟨"::1".toList, by decide⟩)
    · exact .other (by decide)
  exact (config_agree_iff latin htext ⟨by decide, by decide, by decide, by decide, by decide⟩
    (spelled_latin _ _) ⟨by decide, by decide, by decide, by decide⟩).mpr (by decide)

/-- The server takes an exported variable for a setting, the window does not. -/
theorem not_config_agree_exported :
    ¬∀ (u : Unicode) (text key value : List Char), PlainKey key → PlainValue value →
      Agree u text key value := by
  intro h
  have hread := (h latin "export HIDPI=1".toList "HIDPI".toList ['0']
    ⟨by decide, by decide, by decide, by decide, by decide⟩
    ⟨by decide, by decide, by decide, by decide⟩).1 "HIDPI".toList (spelled_latin _ _)
  have hdiffer : Gui.readConfig latin "export HIDPI=1".toList "HIDPI".toList ≠
      Server.cfg "export HIDPI=1".toList "HIDPI".toList := by decide
  exact hdiffer hread

end Macrdp.ConfigFile
