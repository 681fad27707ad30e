import Macrdp.KeyboardInput
import Macrdp.Words

/-!
# Redaction of audited errors

An error text is made printable and cut to a length before it is logged, and then those of
its words are replaced that look like secrets. The cut and the control characters may leave
a part of a secret that does not look like one.
-/

namespace Macrdp.AuditRedaction

open KeyboardInput (isWhitespace)
open Words

/-- The characters that are not printed. -/
def isControl (c : Char) : Bool :=
  decide (c.val ≤ 0x1f) || decide (0x7f ≤ c.val ∧ c.val ≤ 0x9f)

/-- The most characters a reason has. -/
def maxAuditReason : ℕ := 200

/-- A control character becomes a blank. -/
def clean (c : Char) : Char := if isControl c then ' ' else c

/-- A reason without control characters, of bounded length. -/
def boundReason : Option (List Char) → List Char
  | none => "unknown".toList
  | some r =>
    if (r.take (maxAuditReason + 1)).length ≤ maxAuditReason ∧ r.any isControl = false then r
    else (r.map clean).take maxAuditReason

/-- What a secret is named by. -/
def needles : List (List Char) :=
  ["password".toList, "credential".toList, "ntlm".toList, "response=".toList, "token=".toList,
    "secret=".toList]

def isAsciiHexdigit (c : Char) : Bool :=
  decide ('0' ≤ c ∧ c ≤ '9') || decide ('a' ≤ c ∧ c ≤ 'f') || decide ('A' ≤ c ∧ c ≤ 'F')

/-- The length in bytes. -/
def byteLen (token : List Char) : ℕ := token.foldr (fun c size => c.utf8Size + size) 0

/-- The word is long, or a long number. -/
def isBlob (token : List Char) : Bool :=
  decide (80 < byteLen token) ||
    (decide (40 ≤ byteLen token) && token.all fun c => isAsciiHexdigit c || c == '=' || c == '+')

/-- The word looks like a secret. -/
def isSensitive (token : List Char) : Bool :=
  (needles.any fun needle => decide (needle <:+: token.map Char.toLower)) || isBlob token

/-- What a secret is replaced by. -/
def redacted : List Char := "[redacted]".toList

def redactToken (token : List Char) : List Char := if isSensitive token then redacted else token

/-- The text that is logged for an error. -/
def redactAuditError (raw : List Char) : List Char :=
  List.intercalate [' '] ((words isWhitespace (boundReason (some raw))).map redactToken)

/-- A part of a text that is nowhere else in it. -/
def Once (text s : List Char) : Prop :=
  ∀ a b c d, text = a ++ s ++ b → text = c ++ s ++ d → a = c

/-- Sixteen characters in a row of a word that looks like a secret, which are nowhere else in
the text, are not logged. -/
def Redacts (raw : List Char) : Prop :=
  ∀ token ∈ words isWhitespace raw, isSensitive token = true →
    ∀ s, s.length = 16 → s <:+: token → Once raw s → ¬ s <:+: redactAuditError raw

/-- The characters that words end at once the text is made printable. -/
def parts (c : Char) : Bool := isWhitespace c || isControl c

/-- Sixteen characters within the bound, nowhere else in the text: the word around them looks
like a secret, but what is left of it up to a control character or the bound does not. -/
structure Exposed (raw a s b : List Char) : Prop where
  split : raw = a ++ s ++ b
  length_eq : s.length = 16
  bound : (a ++ s).length ≤ maxAuditReason
  printed : ∀ c ∈ s, parts c = false
  once : Once raw s
  sensitive : isSensitive (around isWhitespace a s b) = true
  left : isSensitive (around parts a s (b.take (maxAuditReason - (a ++ s).length))) = false

/-! ## The bounded text -/

/-- A text that is printable and short is as it would be when cleaned and cut. -/
theorem boundReason_some (raw : List Char) :
    boundReason (some raw) = (raw.take maxAuditReason).map clean := by
  have hbound : boundReason (some raw) =
      if (raw.take (maxAuditReason + 1)).length ≤ maxAuditReason ∧ raw.any isControl = false then raw
      else (raw.map clean).take maxAuditReason := rfl
  rw [hbound, List.map_take]
  split
  · next h =>
    obtain ⟨hshort, hclean⟩ := h
    have hlen : raw.length ≤ maxAuditReason := by
      rw [List.length_take] at hshort
      omega
    have hsame : ∀ c ∈ raw, clean c = id c := by
      intro c hc
      rw [clean, List.any_eq_false.mp hclean c hc |> eq_false_of_ne_true]
      rfl
    have hmap : raw.map clean = raw := (List.map_congr_left hsame).trans (List.map_id raw)
    rw [hmap, List.take_of_length_le hlen]
  · rfl

/-- A cleaned character is a blank exactly if the character parts words. -/
theorem isWhitespace_clean (c : Char) : isWhitespace (clean c) = parts c := by
  unfold clean parts
  cases isControl c with
  | true => simp; decide
  | false => simp

/-- No cleaned character is a control character. -/
theorem isControl_clean (c : Char) : isControl (clean c) = false := by
  unfold clean
  split
  · decide
  · next h => simpa using h

/-- The words of the bounded text are the parts of the text within the bound. -/
theorem mem_words_boundReason {raw w : List Char} :
    w ∈ words isWhitespace (boundReason (some raw)) ↔
      w ∈ words parts (raw.take maxAuditReason) := by
  rw [boundReason_some]
  refine mem_words_map isWhitespace_clean fun c hc => ?_
  rw [parts, Bool.or_eq_false_iff] at hc
  rw [clean, hc.2]
  rfl

/-! ## What is logged -/

/-- Nothing that is logged is a control character. -/
theorem isControl_of_mem_redactAuditError {raw : List Char} {c : Char}
    (h : c ∈ redactAuditError raw) : isControl c = false := by
  rcases mem_intercalate h with hblank | ⟨w, hw, hc⟩
  · rw [List.mem_singleton.mp hblank]
    decide
  · obtain ⟨token, htoken, rfl⟩ := List.mem_map.mp hw
    unfold redactToken at hc
    split at hc
    · have hplain : (redacted.any fun d => isControl d) = false := by decide +kernel
      exact eq_false_of_ne_true (List.any_eq_false.mp hplain c hc)
    · have hmem := mem_of_mem_words htoken hc
      rw [boundReason_some] at hmem
      obtain ⟨d, -, rfl⟩ := List.mem_map.mp hmem
      exact isControl_clean d

/-- Sixteen printed characters in a row are logged exactly if they are in a part that does not
look like a secret. -/
theorem infix_redactAuditError_iff {raw s : List Char} (hlen : s.length = 16)
    (hfree : ' ' ∉ s) :
    s <:+: redactAuditError raw ↔
      ∃ w ∈ words parts (raw.take maxAuditReason), isSensitive w = false ∧ s <:+: w := by
  have hne : s ≠ [] := by
    rintro rfl
    cases hlen
  constructor
  · intro h
    obtain ⟨w, hw, hs⟩ := exists_of_infix_intercalate hne hfree h
    obtain ⟨token, htoken, rfl⟩ := List.mem_map.mp hw
    unfold redactToken at hs
    split at hs
    · have hle := hs.length_le
      rw [hlen] at hle
      exact absurd hle (by decide)
    · next hplain =>
      exact ⟨token, mem_words_boundReason.mp htoken, by simpa using hplain, hs⟩
  · rintro ⟨w, hw, hplain, hs⟩
    have htoken : w ∈ (words isWhitespace (boundReason (some raw))).map redactToken :=
      List.mem_map.mpr ⟨w, mem_words_boundReason.mpr hw, by rw [redactToken, hplain]; rfl⟩
    exact List.IsInfix.trans hs (infix_intercalate htoken)

/-- The redaction keeps its promise exactly if no part of a secret is exposed by the cut or by
control characters. -/
theorem redacts_iff (raw : List Char) :
    ((∀ c ∈ redactAuditError raw, isControl c = false) ∧ Redacts raw) ↔
      ∀ a s b, ¬ Exposed raw a s b := by
  constructor
  · rintro ⟨-, hredacts⟩ a s b hexposed
    obtain ⟨hsplit, hlen, hbound, hprinted, honce, hsensitive, hleft⟩ := hexposed
    have hne : s ≠ [] := by
      rintro rfl
      cases hlen
    have hword : ∀ c ∈ s, isWhitespace c = false := fun c hc =>
      (Bool.or_eq_false_iff.mp (hprinted c hc)).1
    have hblank : ' ' ∉ s := fun hmem => absurd (hword ' ' hmem) (by decide)
    refine hredacts (around isWhitespace a s b) ?_ hsensitive s hlen ?_ honce ?_
    · rw [hsplit]
      exact around_mem_words hne hword
    · exact ⟨_, _, rfl⟩
    · refine (infix_redactAuditError_iff hlen hblank).mpr
        ⟨around parts a s (b.take (maxAuditReason - (a ++ s).length)), ?_, hleft, ⟨_, _, rfl⟩⟩
      rw [hsplit, List.take_append, List.take_of_length_le hbound]
      exact around_mem_words hne hprinted
  · intro hnone
    refine ⟨fun c hc => isControl_of_mem_redactAuditError hc, ?_⟩
    intro token htoken hsensitive s hlen hs honce hlogged
    have hblank : ' ' ∉ s := by
      intro hmem
      exact absurd (free_of_mem_words htoken ' ' (hs.subset hmem)) (by decide)
    obtain ⟨w, hw, hplain, hsw⟩ := (infix_redactAuditError_iff hlen hblank).mp hlogged
    obtain ⟨a, b, hsplit, haround⟩ := exists_around htoken hs
    obtain ⟨c, d, hcut, hpart⟩ := exists_around hw hsw
    -- The two places where the characters are found are one.
    have hsplit' : raw = c ++ s ++ (d ++ raw.drop maxAuditReason) := by
      rw [← List.append_assoc, ← hcut, List.take_append_drop]
    have hac : a = c := honce a b c _ hsplit hsplit'
    subst hac
    have hle : (a ++ s).length ≤ maxAuditReason := by
      have hcutLen := congrArg List.length hcut
      rw [List.length_take, List.length_append] at hcutLen
      omega
    have hd : b.take (maxAuditReason - (a ++ s).length) = d := by
      have htake : raw.take maxAuditReason =
          a ++ s ++ b.take (maxAuditReason - (a ++ s).length) := by
        rw [hsplit, List.take_append, List.take_of_length_le hle]
      exact List.append_cancel_left (htake.symm.trans hcut)
    exact hnone a s b
      { split := hsplit
        length_eq := hlen
        bound := hle
        printed := fun x hx => free_of_mem_words hw x (hsw.subset hx)
        once := honce
        sensitive := by rw [haround]; exact hsensitive
        left := by rw [hd, hpart]; exact hplain }

/-- A message with a key of forty characters that the bound cuts. -/
def cutKey : List Char :=
  (List.replicate 88 ['e', ' ']).flatten ++ "0123456789abcdef".toList ++ List.replicate 24 '0'

/-- The first part of a key that the bound cuts is logged. -/
theorem not_redacts_cutKey : ¬ ∀ raw : List Char,
    (∀ c ∈ redactAuditError raw, isControl c = false) ∧ Redacts raw := by
  intro hall
  have hredacts := (hall cutKey).2
  have honce : Once cutKey "0123456789abcdef".toList := by
    have hplace : ∀ j < 217, "0123456789abcdef".toList <+: cutKey.drop j → j = 176 := by
      decide +kernel
    have hlength : ∀ a b, cutKey = a ++ "0123456789abcdef".toList ++ b → a.length = 176 := by
      intro a b hsplit
      have hlen : a.length < 217 := by
        have htotal := congrArg List.length hsplit
        have hcut : cutKey.length = 216 := by decide +kernel
        rw [hcut, List.length_append, List.length_append] at htotal
        have hkey : "0123456789abcdef".toList.length = 16 := by decide
        omega
      refine hplace a.length hlen ⟨b, ?_⟩
      rw [hsplit, List.append_assoc, List.drop_left]
    intro a b c d hab hcd
    have hlen := (hlength a b hab).trans (hlength c d hcd).symm
    rw [hab, List.append_assoc, List.append_assoc] at hcd
    exact (List.append_inj hcd hlen).1
  refine hredacts ("0123456789abcdef".toList ++ List.replicate 24 '0') (by decide +kernel)
    (by decide +kernel) "0123456789abcdef".toList (by decide) ⟨[], _, rfl⟩ honce ?_
  decide +kernel

end Macrdp.AuditRedaction
