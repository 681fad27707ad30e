import Mathlib.Data.List.SplitBy
import Macrdp.LittleEndian

/-!
# Run-length codes of a plane

A plane of bytes is cut into runs. A run of one is written as it is, a longer one as its value twice
and its length. The last four bytes of the plane are not coded, and the decoder knows the length of
the plane; it takes codes that are no shorter than the plane for the plane itself.
-/

namespace Macrdp.PlaneCoding

open LittleEndian

/-! ## The encoder -/

/-- The third byte of the code of a long run. -/
def rleLongEscape : UInt8 := 0xFF

/-- The code of a run. -/
def emit (v : UInt8) (run : ℕ) : List UInt8 :=
  if run = 1 then [v]
  else if run ≤ 255 then [v, v, UInt8.ofNat (run - 2)]
  else [v, v, rleLongEscape] ++ littleEndian 4 run

/-- The length of the run that a value begins. -/
def runLength (v : UInt8) (rest : List UInt8) : ℕ :=
  min ((rest.takeWhile fun b => b = v).length + 1) (2 ^ 32 - 1)

/-- Code run after run; `none` when the fuel runs out. -/
def rleLoop : ℕ → List UInt8 → Option (List UInt8)
  | _, [] => some []
  | 0, _ :: _ => none
  | fuel + 1, v :: rest =>
    (rleLoop fuel ((v :: rest).drop (runLength v rest))).map (emit v (runLength v rest) ++ ·)

/-- Code a plane; the last four bytes stay as they are. -/
def rleEncode (plane : List UInt8) : Option (List UInt8) :=
  let n := plane.length
  if n ≤ 4 then some plane
  else
    let bodyEnd := n - 4
    (rleLoop bodyEnd (plane.take bodyEnd)).map (· ++ plane.drop bodyEnd)

/-! ## The decoder -/

/-- Decode the bytes of a plane of which some are left; `none` where they are no codes of so many
bytes. -/
def rleDecode : ℕ → ℕ → List UInt8 → Option (List UInt8)
  | 0, _, _ => none
  | fuel + 1, left, input =>
    if left ≤ 4 then if left = 4 ∧ 4 ≤ input.length then some (input.take 4) else none
    else
      match input with
      | [] => none
      | value :: rest =>
        if left = 5 then (rleDecode fuel 4 rest).map (value :: ·)
        else
          match rest with
          | [] => none
          | next :: behind =>
            if next ≠ value then (rleDecode fuel (left - 1) rest).map (value :: ·)
            else
              match behind with
              | [] => none
              | code :: behind =>
                if code < rleLongEscape then
                  if left < code.toNat + 2 then none
                  else (rleDecode fuel (left - (code.toNat + 2)) behind).map
                    (List.replicate (code.toNat + 2) value ++ ·)
                else if behind.length < 4 ∨ left < ofLittleEndian (behind.take 4) then none
                else (rleDecode fuel (left - ofLittleEndian (behind.take 4)) (behind.drop 4)).map
                  (List.replicate (ofLittleEndian (behind.take 4)) value ++ ·)

/-- Decode a plane of a length: bytes that are not fewer are the plane itself. -/
def decodePlane (n : ℕ) (bytes : List UInt8) : Option (List UInt8) :=
  if n ≤ bytes.length then some (bytes.take n) else rleDecode (bytes.length + 1) n bytes

/-! ## Runs -/

/-- The codes of the runs of some bytes. -/
def codes (bytes : List UInt8) : List UInt8 :=
  (bytes.splitBy (· == ·)).flatMap fun run => emit (run.headD 0) run.length

/-- The part of a plane that is coded. -/
def body (plane : List UInt8) : List UInt8 := plane.take (plane.length - 4)

/-- A plane whose codes are shorter, or which has no two equal bytes side by side, in the part that
is coded. -/
def Kept (plane : List UInt8) : Prop :=
  (codes (body plane)).length < (body plane).length ∨ (body plane).IsChain (· ≠ ·)

instance : DecidablePred Kept := fun plane =>
  inferInstanceAs (Decidable ((codes (body plane)).length < (body plane).length ∨
    (body plane).IsChain (· ≠ ·)))

variable {v : UInt8} {run : ℕ} {rest : List UInt8}

/-- The first run is split off. -/
theorem splitBy_run (hrun : 0 < run) (hrest : rest.head? ≠ some v) :
    (List.replicate run v ++ rest).splitBy (· == ·) =
      List.replicate run v :: rest.splitBy (· == ·) := by
  have hne : List.replicate run v ≠ [] := by
    rw [Ne, List.replicate_eq_nil_iff]
    omega
  have hchain : (List.replicate run v).IsChain fun a b => (a == b) = true :=
    List.isChain_replicate_of_rel run (beq_self_eq_true v)
  have hlast : ∀ x ∈ (List.replicate run v).getLast?, ∀ y ∈ rest.head?, (x == y) = false := by
    intro x hx y hy
    have hxv : x = v := List.eq_of_mem_replicate (List.mem_of_getLast? hx)
    have hyv : y ≠ v := fun heq => hrest (heq ▸ hy)
    rw [hxv]
    exact beq_false_of_ne hyv.symm
  rw [List.splitBy_append hlast, List.splitBy_of_isChain hne hchain]
  rfl

/-- The first run is coded first. -/
theorem codes_run (hrun : 0 < run) (hrest : rest.head? ≠ some v) :
    codes (List.replicate run v ++ rest) = emit v run ++ codes rest := by
  have hhead : (List.replicate run v).headD 0 = v := by
    rw [List.headD_eq_head?_getD, List.head?_replicate, if_neg (Nat.ne_of_gt hrun)]
    rfl
  rw [codes, splitBy_run hrun hrest, List.flatMap_cons, hhead, List.length_replicate]
  rfl

/-- What holds of no bytes, and of a run in front of other bytes when it holds of these, holds of
all bytes. -/
theorem runs_induction {P : List UInt8 → Prop} (nil : P [])
    (run : ∀ v run rest, 0 < run → rest.head? ≠ some v → P rest → P (List.replicate run v ++ rest))
    (bytes : List UInt8) : P bytes := by
  induction hlen : bytes.length using Nat.strong_induction_on generalizing bytes with
  | _ n ih =>
    cases bytes with
    | nil => exact nil
    | cons v bytes =>
      have hsplit := List.takeWhile_append_dropWhile (p := fun b => decide (b = v)) (l := bytes)
      have hfront : bytes.takeWhile (fun b => b = v) =
          List.replicate (bytes.takeWhile fun b => b = v).length v :=
        List.eq_replicate_of_mem fun b hb => by
          simpa using List.all_eq_true.mp List.all_takeWhile b hb
      have hhead : (bytes.dropWhile fun b => b = v).head? ≠ some v := by
        intro h
        have hnot := List.head?_dropWhile_not (fun b => decide (b = v)) bytes
        rw [h] at hnot
        simp at hnot
      have hcount := congrArg List.length hsplit
      rw [List.length_append] at hcount
      rw [List.length_cons] at hlen
      have hrest := ih (bytes.dropWhile fun b => b = v).length (by omega) _ rfl
      have hwhole := run v ((bytes.takeWhile fun b => b = v).length + 1) _ (by omega) hhead hrest
      rwa [List.replicate_succ, List.cons_append, ← hfront, hsplit] at hwhole

/-- A run of other bytes than the next ones is taken whole. -/
theorem runLength_eq (hrest : rest.head? ≠ some v) (hshort : run < 2 ^ 32 - 1) :
    runLength v (List.replicate run v ++ rest) = run + 1 := by
  have hall : ∀ b ∈ List.replicate run v, decide (b = v) = true := fun b hb =>
    decide_eq_true (List.eq_of_mem_replicate hb)
  have hnone : rest.takeWhile (fun b => b = v) = [] := by
    cases rest with
    | nil => rfl
    | cons b rest =>
      refine List.takeWhile_cons_of_neg ?_
      simpa using fun heq : b = v => hrest (congrArg some heq)
  rw [runLength, List.takeWhile_append_of_pos hall, hnone, List.append_nil, List.length_replicate]
  omega

/-- The loop gives the codes of the runs. -/
theorem rleLoop_eq {bytes : List UInt8} {fuel : ℕ} (hfuel : bytes.length ≤ fuel)
    (hshort : bytes.length < 2 ^ 32) : rleLoop fuel bytes = some (codes bytes) := by
  induction bytes using runs_induction generalizing fuel with
  | nil =>
    cases fuel with
    | zero | succ fuel => rfl
  | run v run rest hrun hrest ih =>
    rw [List.length_append, List.length_replicate] at hfuel hshort
    rw [codes_run hrun hrest]
    cases run with
    | zero => exact absurd hrun (Nat.lt_irrefl 0)
    | succ run =>
      cases fuel with
      | zero => omega
      | succ fuel =>
        have hdrop : (List.replicate (run + 1) v ++ rest).drop (run + 1) = rest :=
          List.drop_left' List.length_replicate
        rw [List.replicate_succ, List.cons_append] at hdrop ⊢
        rw [rleLoop, runLength_eq hrest (by omega), hdrop, ih (by omega) (by omega)]
        rfl

/-! ## Codes and their decoder -/

/-- A run of one is its own code. -/
theorem emit_one (v : UInt8) : emit v 1 = [v] := rfl

/-- A run of a few bytes has a code of three. -/
theorem emit_short (htwo : 2 ≤ run) (hle : run ≤ 255) :
    emit v run = [v, v, UInt8.ofNat (run - 2)] := by
  rw [emit, if_neg (by omega), if_pos hle]

/-- A long run has a code of seven bytes. -/
theorem emit_long (hlt : 255 < run) :
    emit v run = v :: v :: rleLongEscape :: littleEndian 4 run := by
  rw [emit, if_neg (by omega), if_neg (by omega)]
  rfl

/-- A run is one byte, some or many. -/
theorem run_cases (hrun : 0 < run) : run = 1 ∨ (2 ≤ run ∧ run ≤ 255) ∨ 255 < run := by omega

/-- No run is coded by nothing. -/
theorem emit_pos (v : UInt8) (run : ℕ) : 0 < (emit v run).length := by
  unfold emit
  split
  · exact Nat.zero_lt_one
  · split
    · exact Nat.zero_lt_succ 2
    · exact Nat.zero_lt_succ _

/-- The codes are not much longer. -/
theorem length_codes_le (bytes : List UInt8) : (codes bytes).length ≤ 2 * bytes.length := by
  induction bytes using runs_induction with
  | nil => exact Nat.le_refl _
  | run v run rest hrun hrest ih =>
    rw [codes_run hrun hrest, List.length_append, List.length_append, List.length_replicate]
    have hemit : (emit v run).length ≤ 2 * run := by
      rcases run_cases hrun with hone | hsome | hmany
      · subst hone
        exact Nat.le_succ 1
      · rw [emit_short hsome.1 hsome.2, List.length_cons, List.length_cons, List.length_singleton]
        omega
      · rw [emit_long hmany, List.length_cons, List.length_cons, List.length_cons,
          length_littleEndian]
        omega
    omega

/-- The codes begin as the bytes do. -/
theorem head_codes (bytes : List UInt8) : (codes bytes).head? = bytes.head? := by
  induction bytes using runs_induction with
  | nil => rfl
  | run v run rest hrun hrest ih =>
    have hhead : (List.replicate run v ++ rest).head? = some v := by
      rw [List.head?_append, List.head?_replicate, if_neg (Nat.ne_of_gt hrun)]
      rfl
    rw [codes_run hrun hrest, hhead]
    rcases run_cases hrun with hone | hsome | hmany
    · rw [hone, emit_one]
      rfl
    · rw [emit_short hsome.1 hsome.2]
      rfl
    · rw [emit_long hmany]
      rfl

/-- Bytes with no two equal ones side by side are their own codes. -/
theorem codes_of_isChain {bytes : List UInt8} (h : bytes.IsChain (· ≠ ·)) :
    codes bytes = bytes := by
  induction bytes using runs_induction with
  | nil => rfl
  | run v run rest hrun hrest ih =>
    have hone : run = 1 := by
      by_contra hne
      obtain ⟨more, rfl⟩ : ∃ more, run = more + 2 := ⟨run - 2, by omega⟩
      rw [List.replicate_succ, List.replicate_succ] at h
      exact (List.isChain_cons_cons.mp h).1 rfl
    subst hone
    rw [codes_run hrun hrest, ih (List.isChain_append.mp h).2.1]
    rfl

variable {fuel left : ℕ} {input : List UInt8}

/-- The last byte that may be coded is a literal. -/
theorem rleDecode_last : rleDecode (fuel + 1) 5 (v :: input) =
    (rleDecode fuel 4 input).map (v :: ·) := by
  rw [rleDecode.eq_def]
  rfl

/-- A byte in front of another one is a literal. -/
theorem rleDecode_literal {next : UInt8} (hleft : 5 < left) (hne : next ≠ v) :
    rleDecode (fuel + 1) left (v :: next :: input) =
      (rleDecode fuel (left - 1) (next :: input)).map (v :: ·) := by
  rw [rleDecode.eq_def]
  dsimp only
  rw [if_neg (by omega), if_neg (by omega), if_pos hne]

/-- A short run. -/
theorem rleDecode_short (htwo : 2 ≤ run) (hle : run ≤ 255) (hleft : run + 4 ≤ left) :
    rleDecode (fuel + 1) left (v :: v :: UInt8.ofNat (run - 2) :: input) =
      (rleDecode fuel (left - run) input).map (List.replicate run v ++ ·) := by
  have hcode : (UInt8.ofNat (run - 2)).toNat = run - 2 := by
    rw [UInt8.toNat_ofNat']
    omega
  have hlt : UInt8.ofNat (run - 2) < rleLongEscape := by
    rw [UInt8.lt_iff_toNat_lt, hcode]
    change run - 2 < 255
    omega
  have hlen : run - 2 + 2 = run := by omega
  rw [rleDecode.eq_def]
  dsimp only
  rw [if_neg (by omega), if_neg (by omega), if_neg (fun hne => hne rfl), if_pos hlt, hcode, hlen,
    if_neg (by omega)]

/-- A long run. -/
theorem rleDecode_long (hlt : 255 < run) (hshort : run < 2 ^ 32) (hleft : run + 4 ≤ left) :
    rleDecode (fuel + 1) left (v :: v :: rleLongEscape :: (littleEndian 4 run ++ input)) =
      (rleDecode fuel (left - run) input).map (List.replicate run v ++ ·) := by
  have htake : (littleEndian 4 run ++ input).take 4 = littleEndian 4 run :=
    List.take_left' (length_littleEndian 4 run)
  have hdrop : (littleEndian 4 run ++ input).drop 4 = input :=
    List.drop_left' (length_littleEndian 4 run)
  have hlen : ofLittleEndian (littleEndian 4 run) = run := by
    rw [ofLittleEndian_littleEndian]
    exact Nat.mod_eq_of_lt hshort
  have hfour : 4 ≤ (littleEndian 4 run ++ input).length := by
    rw [List.length_append, length_littleEndian]
    omega
  rw [rleDecode.eq_def]
  dsimp only
  rw [if_neg (by omega), if_neg (by omega), if_neg (fun hne => hne rfl), if_neg (by decide), htake,
    hdrop, hlen,
    if_neg (by omega)]

/-- The decoder gives the bytes back, and the four bytes behind them. -/
theorem rleDecode_codes {bytes tail : List UInt8} (htail : tail.length = 4)
    (hshort : bytes.length < 2 ^ 32) (hfuel : (codes bytes).length < fuel) :
    rleDecode fuel (bytes.length + 4) (codes bytes ++ tail) = some (bytes ++ tail) := by
  induction bytes using runs_induction generalizing fuel with
  | nil =>
    cases fuel with
    | zero => exact absurd hfuel (Nat.not_lt_zero _)
    | succ fuel =>
      change rleDecode (fuel + 1) 4 tail = some tail
      rw [rleDecode.eq_def]
      dsimp only
      rw [if_pos (Nat.le_refl 4), if_pos ⟨rfl, Nat.le_of_eq htail.symm⟩,
        List.take_of_length_le (Nat.le_of_eq htail)]
  | run v run rest hrun hrest ih =>
    have hemit := emit_pos v run
    rw [codes_run hrun hrest, List.length_append] at hfuel
    rw [List.length_append, List.length_replicate] at hshort ⊢
    cases fuel with
    | zero => exact absurd hfuel (Nat.not_lt_zero _)
    | succ fuel =>
      have hbehind := @ih fuel (by omega) (by omega)
      have hremain : run + rest.length + 4 - run = rest.length + 4 := by omega
      rw [codes_run hrun hrest, List.append_assoc, List.append_assoc]
      rcases run_cases hrun with hone | hsome | hmany
      · subst hone
        cases rest with
        | nil =>
          have hlast : rleDecode fuel 4 tail = some tail := hbehind
          change rleDecode (fuel + 1) 5 (v :: tail) = _
          rw [rleDecode_last, hlast]
          rfl
        | cons next rest =>
          have hhead := head_codes (next :: rest)
          have hne : next ≠ v := fun heq => hrest (congrArg some heq)
          cases hcodes : codes (next :: rest) with
          | nil =>
            rw [hcodes] at hhead
            cases hhead
          | cons first more =>
            rw [hcodes] at hhead hbehind
            cases hhead
            change rleDecode (fuel + 1) _ (v :: next :: (more ++ tail)) = _
            rw [rleDecode_literal (by rw [List.length_cons]; omega) hne]
            rw [hremain]
            change (rleDecode fuel _ (next :: more ++ tail)).map _ = _
            rw [hbehind]
            rfl
      · rw [emit_short hsome.1 hsome.2]
        change rleDecode (fuel + 1) _ (v :: v :: UInt8.ofNat (run - 2) :: (codes rest ++ tail)) = _
        rw [rleDecode_short hsome.1 hsome.2 (by omega), hremain, hbehind]
        rfl
      · rw [emit_long hmany]
        change rleDecode (fuel + 1) _
          (v :: v :: rleLongEscape :: (littleEndian 4 run ++ (codes rest ++ tail))) = _
        rw [rleDecode_long hmany (by omega) (by omega), hremain, hbehind]
        rfl

/-! ## Planes -/

/-- The codes of a plane, and its last four bytes. -/
def codesOf (plane : List UInt8) : List UInt8 :=
  codes (body plane) ++ plane.drop (plane.length - 4)

/-- The encoder gives the codes of the plane. -/
theorem rleEncode_eq {plane : List UInt8} (hshort : plane.length < 2 ^ 32) :
    rleEncode plane = some (codesOf plane) := by
  rw [rleEncode]
  dsimp only
  split
  · next hle =>
    have hbody : body plane = [] := by
      rw [body, show plane.length - 4 = 0 by omega]
      rfl
    rw [codesOf, hbody, show plane.length - 4 = 0 by omega]
    rfl
  · have hlen : (plane.take (plane.length - 4)).length = plane.length - 4 := by
      rw [List.length_take]
      omega
    rw [rleLoop_eq (Nat.le_of_eq hlen) (by omega)]
    rfl

theorem length_codesOf_le (plane : List UInt8) : (codesOf plane).length ≤ 2 * plane.length := by
  have hbody := length_codes_le (body plane)
  have hlen : (body plane).length = plane.length - 4 := by
    rw [body, List.length_take]
    omega
  rw [codesOf, List.length_append, List.length_drop]
  omega

/-- A plane that is kept is decoded. -/
theorem decodePlane_kept {plane : List UInt8} (hshort : plane.length < 2 ^ 32) (h : Kept plane) :
    decodePlane plane.length (codesOf plane) = some plane := by
  have hwhole : body plane ++ plane.drop (plane.length - 4) = plane := List.take_append_drop _ _
  have hlen : (body plane).length = plane.length - 4 := by
    rw [body, List.length_take]
    omega
  cases h with
  | inl hshorter =>
    have htail : (plane.drop (plane.length - 4)).length = 4 := by
      rw [List.length_drop]
      omega
    have hbound : (codesOf plane).length = (codes (body plane)).length + 4 := by
      rw [codesOf, List.length_append, htail]
    have hdecoded := rleDecode_codes htail (by omega)
      (show (codes (body plane)).length < (codesOf plane).length + 1 by omega)
    rw [hwhole, show (body plane).length + 4 = plane.length by omega] at hdecoded
    rw [decodePlane, if_neg (by omega)]
    exact hdecoded
  | inr hchain =>
    have hsame : codesOf plane = plane := by
      rw [codesOf, codes_of_isChain hchain, hwhole]
    rw [hsame, decodePlane, if_pos (Nat.le_refl _), List.take_length]

/-- Some plane comes of the codes, which is the one that was coded if that is kept. -/
theorem exists_decodePlane {plane : List UInt8} (hshort : plane.length < 2 ^ 32) :
    ∃ decoded, decodePlane plane.length (codesOf plane) = some decoded ∧
      (Kept plane → decoded = plane) := by
  by_cases hkept : Kept plane
  · exact ⟨plane, decodePlane_kept hshort hkept, fun _ => rfl⟩
  · have hlen : (body plane).length = plane.length - 4 := by
      rw [body, List.length_take]
      omega
    have htail : (plane.drop (plane.length - 4)).length = plane.length - (plane.length - 4) :=
      List.length_drop
    have hlong : plane.length ≤ (codesOf plane).length := by
      have hnot : ¬ (codes (body plane)).length < (body plane).length := fun h => hkept (.inl h)
      rw [codesOf, List.length_append]
      omega
    exact ⟨_, if_pos hlong, fun h => absurd h hkept⟩

/-- A plane of one value is kept unless it is as long as to have a run of two or three coded. -/
theorem kept_replicate {n : ℕ} (hsix : n ≠ 6) (hseven : n ≠ 7) (v : UInt8) :
    Kept (List.replicate n v) := by
  have hbody : body (List.replicate n v) = List.replicate (n - 4) v := by
    rw [body, List.length_replicate, List.take_replicate, Nat.min_eq_left (Nat.sub_le n 4)]
  unfold Kept
  rw [hbody, List.length_replicate]
  by_cases hone : n - 4 ≤ 1
  · refine .inr ?_
    cases hrun : n - 4 with
    | zero => exact List.isChain_nil
    | succ more =>
      rw [show more = 0 by omega]
      exact List.isChain_singleton v
  · have hcodes : codes (List.replicate (n - 4) v) = emit v (n - 4) := by
      have hrun := @codes_run v (n - 4) [] (by omega) nofun
      rw [List.append_nil] at hrun
      exact hrun.trans (List.append_nil _)
    refine .inl ?_
    rw [hcodes]
    by_cases hle : n - 4 ≤ 255
    · rw [emit_short (by omega) hle, List.length_cons, List.length_cons, List.length_singleton]
      omega
    · rw [emit_long (by omega), List.length_cons, List.length_cons, List.length_cons,
        length_littleEndian]
      omega

end Macrdp.PlaneCoding
