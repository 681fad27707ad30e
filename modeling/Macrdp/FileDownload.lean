import Macrdp.FileBytes
import Macrdp.StepSystem

/-!
# The download of one remote file

The destination is laid out in zeros at its final size, and chunks are requested a
window at a time. Each chunk has a task, which writes what its response has at the
position it asked for; the responses come in any order. The tasks are joined in
the order they end, and each that is joined makes room for the next chunk.
-/

namespace Macrdp.FileDownload

open StepSystem FileBytes

/-- A range that is requested: its position and its size. -/
abbrev Chunk := ℕ × ℕ

/-- The chunks from a position on, in so many rounds of the loop. -/
def planFrom (total chunkSize : ℕ) : ℕ → ℕ → List Chunk
  | 0, _ => []
  | rounds + 1, pos =>
    if pos < total then
      let req := min (total - pos) chunkSize
      (pos, req) :: planFrom total chunkSize rounds (pos + req)
    else []

/-- The plan of a file's chunks; each round advances. -/
def chunkPlan (total chunkSize : ℕ) : List Chunk := planFrom total chunkSize total 0

/-- Where a download is. -/
inductive Fetch where
  /-- It awaits the size. -/
  | sizing
  /-- The file so far, the chunks not yet requested, those that are awaited, and how the tasks
  ended that are still to be joined. -/
  | loading (file : List UInt8) (waiting inFlight : List Chunk) (ended : List Bool)
  | returned (ok : Bool) (file : List UInt8)
  deriving DecidableEq

/-- A step of a download. -/
inductive Action where
  /-- The answer to the size request, and whether the file can be laid out. -/
  | size (ok disk : Bool)
  /-- The answer to an awaited chunk: an error, or so many of the file's bytes; and whether they
  can be written. -/
  | respond (i : ℕ) (answer : Option ℕ) (disk : Bool)
  | join
  deriving DecidableEq

/-- How a download runs. -/
structure Limits where
  maxParallelChunks : ℕ
  chunkSize : ℕ
  deriving DecidableEq

/-- The size is known: lay out the file and request the first chunks. -/
def opened (limits : Limits) (total : ℕ) (disk : Bool) : Fetch :=
  if disk = false then .returned false []
  else if total = 0 then .returned true []
  else
    let plan := chunkPlan total limits.chunkSize
    .loading (List.replicate total 0) (plan.drop limits.maxParallelChunks)
      (plan.take limits.maxParallelChunks) []

/-- A download begins, with a size if there is a hint. -/
def fetchOneFile (limits : Limits) (sizeHint : Option ℕ) (disk : Bool) : Fetch :=
  match sizeHint with
  | some total => opened limits total disk
  | none => .sizing

/-- A chunk's task after its response: what it leaves in the file, and how it ends. -/
def chunkTask (source file : List UInt8) (chunk : Chunk) (answer : Option ℕ) (disk : Bool) :
    List UInt8 × Bool :=
  match answer with
  | none => (file, false)
  | some len =>
    let bytes := readAt source chunk.1 len
    if bytes.isEmpty || !disk then (file, false) else (writeAt file chunk.1 bytes, true)

/-- A step of the download of a file. A response is not longer than requested. -/
def step (limits : Limits) (source : List UInt8) : Fetch → Action → Option Fetch
  | .sizing, .size ok disk =>
    some (if ok then opened limits source.length disk else .returned false [])
  | .loading file waiting inFlight ended, .respond i answer disk =>
    match inFlight[i]? with
    | none => none
    | some chunk =>
      if answer.getD 0 ≤ chunk.2 then
        let (file, ok) := chunkTask source file chunk answer disk
        some (.loading file waiting (inFlight.eraseIdx i) (ended ++ [ok]))
      else none
  | .loading file waiting inFlight ended, .join =>
    match ended with
    | false :: _ => some (.returned false file)
    | true :: ended =>
      match waiting with
      | [] => some (.loading file [] inFlight ended)
      | chunk :: waiting => some (.loading file waiting (inFlight ++ [chunk]) ended)
    | [] => if inFlight = [] then some (.returned true file) else none
  | _, _ => none

/-- What a response leaves out of its chunk is zero in the file. -/
def lossless (source : List UInt8) : Fetch → Action → Bool
  | .loading _ _ inFlight _, .respond i (some len) _ =>
    inFlight[i]?.all fun chunk => (readAt source (chunk.1 + len) (chunk.2 - len)).all (· = 0)
  | _, _ => true

/-- The positions of a chunk. -/
def Covers (chunk : Chunk) (x : ℕ) : Prop := chunk.1 ≤ x ∧ x < chunk.1 + chunk.2

/-- Two chunks have no position in common. -/
def Apart (first second : Chunk) : Prop := ∀ x, Covers first x → ¬ Covers second x

variable {total chunkSize : ℕ}

/-- The chunks from a position on are the positions from it on, in order. -/
theorem flatMap_planFrom (hchunk : 0 < chunkSize) (rounds pos : ℕ) (hrounds : total - pos ≤ rounds) :
    (planFrom total chunkSize rounds pos).flatMap (fun c => List.range' c.1 c.2) =
      List.range' pos (total - pos) := by
  induction rounds generalizing pos with
  | zero =>
    have hnone : total - pos = 0 := by omega
    rw [hnone]
    rfl
  | succ rounds ih =>
    rw [planFrom]
    by_cases hpos : pos < total
    · have hrest : total - (pos + min (total - pos) chunkSize) ≤ rounds := by omega
      have hsplit : total - pos = min (total - pos) chunkSize +
          (total - (pos + min (total - pos) chunkSize)) := by omega
      rw [if_pos hpos, List.flatMap_cons, ih _ hrest]
      conv_rhs => rw [hsplit]
      exact List.range'_append_1
    · have hnone : total - pos = 0 := by omega
      rw [if_neg hpos, hnone]
      rfl

/-- A chunk from a position on has a size, begins there or later, and ends in the file. -/
theorem mem_planFrom (hchunk : 0 < chunkSize) {rounds pos : ℕ} {c : Chunk}
    (hc : c ∈ planFrom total chunkSize rounds pos) :
    0 < c.2 ∧ c.2 ≤ chunkSize ∧ pos ≤ c.1 ∧ c.1 + c.2 ≤ total := by
  induction rounds generalizing pos with
  | zero => exact absurd hc List.not_mem_nil
  | succ rounds ih =>
    rw [planFrom] at hc
    split at hc
    · rcases List.mem_cons.mp hc with hhead | htail
      · rw [hhead]
        dsimp only
        omega
      · have hrest := ih htail
        omega
    · exact absurd hc List.not_mem_nil

/-- The chunks from a position on are apart. -/
theorem apart_planFrom (hchunk : 0 < chunkSize) (rounds pos : ℕ) :
    (planFrom total chunkSize rounds pos).Pairwise Apart := by
  induction rounds generalizing pos with
  | zero => exact List.Pairwise.nil
  | succ rounds ih =>
    rw [planFrom]
    split
    · refine List.Pairwise.cons (fun c hc => ?_) (ih _)
      have hlater := mem_planFrom hchunk hc
      intro x hfirst hsecond
      have hend : x < pos + min (total - pos) chunkSize := hfirst.2
      have hbegin : c.1 ≤ x := hsecond.1
      omega
    · exact List.Pairwise.nil

/-- The chunks of a plan are a partition of the file's positions. -/
theorem flatMap_chunkPlan (hchunk : 0 < chunkSize) :
    (chunkPlan total chunkSize).flatMap (fun c => List.range' c.1 c.2) = List.range total := by
  rw [chunkPlan, flatMap_planFrom hchunk total 0 (by omega), List.range_eq_range', Nat.sub_zero]

/-- Every position of the file is in a chunk of the plan. -/
theorem covered_chunkPlan (hchunk : 0 < chunkSize) {x : ℕ} (hx : x < total) :
    ∃ c ∈ chunkPlan total chunkSize, Covers c x := by
  have hmem : x ∈ (chunkPlan total chunkSize).flatMap (fun c => List.range' c.1 c.2) := by
    rw [flatMap_chunkPlan hchunk]
    exact List.mem_range.mpr hx
  obtain ⟨c, hc, hin⟩ := List.mem_flatMap.mp hmem
  exact ⟨c, hc, List.mem_range'_1.mp hin⟩

/-- What holds while chunks are awaited. -/
structure Laid (source file : List UInt8) (waiting inFlight : List Chunk) (ended : List Bool) :
    Prop where
  length : file.length = source.length
  apart : (inFlight ++ waiting).Pairwise Apart
  within : ∀ c ∈ inFlight ++ waiting, c.1 + c.2 ≤ source.length
  /-- What was not written yet is zero. -/
  blank : ∀ c ∈ inFlight ++ waiting, ∀ x, Covers c x → file[x]? = some 0
  /-- No chunk waits for nothing. -/
  busy : waiting = [] ∨ inFlight ≠ [] ∨ ended ≠ []

/-- What holds in every run. -/
def Inv (source : List UInt8) : Fetch → Prop
  | .loading file waiting inFlight ended => Laid source file waiting inFlight ended
  | _ => True

/-- The file is right but for the chunks that are still to come. -/
def Agrees (source : List UInt8) : Fetch → Prop
  | .sizing => True
  | .loading file waiting inFlight _ =>
    ∀ x < source.length, (∀ c ∈ inFlight ++ waiting, ¬ Covers c x) → file[x]? = source[x]?
  | .returned _ file => file = source

/-- A chunk has failed. -/
def Doomed : Fetch → Prop
  | .sizing => False
  | .loading _ _ _ ended => false ∈ ended
  | .returned ok _ => ok = false

variable {limits : Limits} {source : List UInt8}

/-- After a failure the download fails. -/
theorem Doomed.step {s s' : Fetch} {a : Action} (h : Doomed s)
    (hstep : step limits source s a = some s') : Doomed s' := by
  cases s with
  | sizing => cases h
  | returned ok file => cases a <;> cases hstep
  | loading file waiting inFlight ended =>
    have hmem : false ∈ ended := h
    cases a with
    | size ok disk => cases hstep
    | respond i answer disk =>
      simp only [FileDownload.step] at hstep
      split at hstep
      · cases hstep
      · simp only [Option.ite_none_right_eq_some] at hstep
        rw [← Option.some.inj hstep.2]
        exact List.mem_append_left _ hmem
    | join =>
      simp only [FileDownload.step] at hstep
      split at hstep
      · cases hstep
        rfl
      · next rest =>
        have hrest : false ∈ rest := by simpa using hmem
        split at hstep <;> (cases hstep; exact hrest)
      · exact absurd hmem List.not_mem_nil

/-- A failed download does not return in good order. -/
theorem Doomed.not_returned {s : Fetch} {acts : List Action} {file : List UInt8} (h : Doomed s)
    (hrun : run (FileDownload.step limits source) s acts = some (.returned true file)) : False := by
  have hend := run_invariant_of_step Doomed (fun s a s' h hstep => h.step hstep) h hrun
  cases hend

/-- The layout of a file: all of it is still to come. -/
theorem opened_spec (hchunk : 0 < limits.chunkSize) (hparallel : 0 < limits.maxParallelChunks)
    (disk : Bool) (hopen : ¬ Doomed (opened limits source.length disk)) :
    Inv source (opened limits source.length disk) ∧
      Agrees source (opened limits source.length disk) := by
  unfold opened at hopen ⊢
  cases disk with
  | false => exact absurd rfl hopen
  | true =>
    rw [if_neg (by decide)]
    by_cases hzero : source.length = 0
    · rw [if_pos hzero]
      exact ⟨trivial, (List.eq_nil_of_length_eq_zero hzero).symm⟩
    · rw [if_neg hzero]
      dsimp only
      have hplan : (chunkPlan source.length limits.chunkSize).take limits.maxParallelChunks ++
          (chunkPlan source.length limits.chunkSize).drop limits.maxParallelChunks =
          chunkPlan source.length limits.chunkSize := List.take_append_drop _ _
      constructor
      · constructor
        · exact List.length_replicate
        · rw [hplan]
          exact apart_planFrom hchunk _ _
        · rw [hplan]
          exact fun c hc => (mem_planFrom hchunk hc).2.2.2
        · rw [hplan]
          intro c hc x hx
          have hend : c.1 + c.2 ≤ source.length := (mem_planFrom hchunk hc).2.2.2
          have hx' : x < c.1 + c.2 := hx.2
          exact List.getElem?_replicate_of_lt (by omega)
        · refine .inr (.inl fun hnone => ?_)
          obtain ⟨c, hc, -⟩ := covered_chunkPlan (x := 0) hchunk (Nat.pos_of_ne_zero hzero)
          have hlen := congrArg List.length hnone
          have hpos : 0 < (chunkPlan source.length limits.chunkSize).length :=
            List.length_pos_of_mem hc
          rw [List.length_take, List.length_nil] at hlen
          omega
      · intro x hx hfree
        obtain ⟨c, hc, hcovers⟩ := covered_chunkPlan hchunk hx
        rw [hplan] at hfree
        exact absurd hcovers (hfree c hc)

/-- The chunks that are left when one is answered. -/
theorem split_inFlight (waiting : List Chunk) {inFlight : List Chunk} {i : ℕ} {chunk : Chunk}
    (hchunk : inFlight[i]? = some chunk) :
    inFlight ++ waiting = inFlight.take i ++ chunk :: (inFlight.drop (i + 1) ++ waiting) ∧
      inFlight.eraseIdx i ++ waiting = inFlight.take i ++ (inFlight.drop (i + 1) ++ waiting) := by
  obtain ⟨hlt, hget⟩ := List.getElem?_eq_some_iff.mp hchunk
  have hdrop : inFlight.drop i = chunk :: inFlight.drop (i + 1) := by
    rw [List.drop_eq_getElem_cons hlt, hget]
  have hwhole : inFlight = inFlight.take i ++ chunk :: inFlight.drop (i + 1) := by
    rw [← hdrop, List.take_append_drop]
  constructor
  · conv_lhs => rw [hwhole]
    rw [List.append_assoc, List.cons_append]
  · rw [List.eraseIdx_eq_take_drop_succ, List.append_assoc]

/-- A chunk that is answered leaves the file right exactly if what its response left out is
zero. -/
theorem respond_spec {file : List UInt8} {waiting inFlight : List Chunk} {ended : List Bool}
    {i len : ℕ} {chunk : Chunk} (h : Laid source file waiting inFlight ended)
    (hchunk : inFlight[i]? = some chunk) (hlen : len ≤ chunk.2)
    (hbytes : readAt source chunk.1 len ≠ []) :
    Laid source (writeAt file chunk.1 (readAt source chunk.1 len)) waiting (inFlight.eraseIdx i)
        (ended ++ [true]) ∧
      (Agrees source (.loading (writeAt file chunk.1 (readAt source chunk.1 len)) waiting
          (inFlight.eraseIdx i) (ended ++ [true])) ↔
        Agrees source (.loading file waiting inFlight ended) ∧
          lossless source (.loading file waiting inFlight ended) (.respond i (some len) true)) := by
  obtain ⟨hall, hleft⟩ := split_inFlight waiting hchunk
  have hmem : chunk ∈ inFlight ++ waiting := by
    rw [hall]
    exact List.mem_append_right _ List.mem_cons_self
  have hsub : ∀ c ∈ inFlight.eraseIdx i ++ waiting, c ∈ inFlight ++ waiting := by
    intro c hc
    rw [hall]
    rw [hleft] at hc
    rcases List.mem_append.mp hc with hbefore | hafter
    · exact List.mem_append_left _ hbefore
    · exact List.mem_append_right _ (List.mem_cons_of_mem _ hafter)
  -- The chunks that are left are apart from the one that was answered.
  have hother : ∀ c ∈ inFlight.eraseIdx i ++ waiting, ∀ x, Covers c x → ¬ Covers chunk x := by
    intro c hc x hx hown
    have hapart := h.apart
    rw [hall] at hapart
    obtain ⟨-, hright, hcross⟩ := List.pairwise_append.mp hapart
    rw [hleft] at hc
    rcases List.mem_append.mp hc with hbefore | hafter
    · exact hcross c hbefore chunk List.mem_cons_self x hx hown
    · exact (List.pairwise_cons.mp hright).1 c hafter x hown hx
  have hwithin : chunk.1 + chunk.2 ≤ source.length := h.within chunk hmem
  have hread : (readAt source chunk.1 len).length = len := by
    rw [length_readAt]
    omega
  have hget : ∀ x, (writeAt file chunk.1 (readAt source chunk.1 len))[x]? =
      if chunk.1 ≤ x ∧ x < chunk.1 + len then source[x]? else file[x]? := by
    intro x
    have hlength := h.length
    rw [getElem?_writeAt hbytes, hread]
    by_cases hbefore : x < chunk.1
    · rw [if_pos hbefore, if_pos (by omega), if_neg (by omega)]
    · rw [if_neg hbefore]
      by_cases hin : x < chunk.1 + len
      · have hpos : chunk.1 + (x - chunk.1) = x := by omega
        rw [if_pos hin, if_pos (by omega), getElem?_readAt, if_pos (by omega), hpos]
      · rw [if_neg hin, if_neg (by omega)]
  have hlossless : lossless source (.loading file waiting inFlight ended)
      (.respond i (some len) true) = true ↔
        ∀ x, chunk.1 + len ≤ x → x < chunk.1 + chunk.2 → source[x]? = some 0 := by
    have hdef : lossless source (.loading file waiting inFlight ended)
        (.respond i (some len) true) =
          (readAt source (chunk.1 + len) (chunk.2 - len)).all (· = 0) := by
      simp only [lossless, hchunk, Option.all_some]
    rw [hdef, List.all_eq_true]
    constructor
    · intro hzero x hge hlt
      have hpos : chunk.1 + len + (x - (chunk.1 + len)) = x := by omega
      have hat : (readAt source (chunk.1 + len) (chunk.2 - len))[x - (chunk.1 + len)]? =
          source[x]? := by
        rw [getElem?_readAt, if_pos (by omega), hpos]
      have hlt' : x < source.length := by omega
      rw [List.getElem?_eq_getElem hlt'] at hat ⊢
      have hnone : source[x] = 0 := by simpa using hzero _ (List.mem_of_getElem? hat)
      rw [hnone]
    · intro hzero b hb
      obtain ⟨j, hj⟩ := List.mem_iff_getElem?.mp hb
      rw [getElem?_readAt] at hj
      split at hj
      · have hat := hzero (chunk.1 + len + j) (by omega) (by omega)
        rw [hj, Option.some.injEq] at hat
        simpa using hat
      · cases hj
  refine ⟨⟨?_, ?_, ?_, ?_, .inr (.inr (by simp))⟩, ?_⟩
  · have hlength := h.length
    rw [length_writeAt hbytes, hread]
    omega
  · rw [hleft]
    have hapart := h.apart
    rw [hall] at hapart
    exact hapart.sublist (List.Sublist.append_left (List.sublist_cons_self _ _) _)
  · exact fun c hc => h.within c (hsub c hc)
  · intro c hc x hx
    have hfree := hother c hc x hx
    rw [hget, if_neg (fun hin => hfree ⟨hin.1, by omega⟩)]
    exact h.blank c (hsub c hc) x hx
  · rw [hlossless]
    constructor
    · intro hagrees
      constructor
      · intro x hx hfree
        have hown : ¬ Covers chunk x := hfree chunk hmem
        have hkept := hagrees x hx fun c hc => hfree c (hsub c hc)
        rw [hget, if_neg (fun hin => hown ⟨hin.1, by omega⟩)] at hkept
        exact hkept
      · intro x hge hlt
        have hown : Covers chunk x := ⟨by omega, hlt⟩
        have hkept := hagrees x (by omega) fun c hc hx => hother c hc x hx hown
        rw [hget, if_neg (by omega), h.blank chunk hmem x hown] at hkept
        exact hkept.symm
    · rintro ⟨hagrees, hzero⟩ x hx hfree
      rw [hget]
      split
      · rfl
      · next hout =>
        by_cases hown : Covers chunk x
        · have hlow : chunk.1 ≤ x := hown.1
          rw [h.blank chunk hmem x hown, hzero x (by omega) hown.2]
        · refine hagrees x hx fun c hc hcovers => ?_
          rw [hall] at hc
          rcases List.mem_append.mp hc with hbefore | hafter
          · exact hfree c (by rw [hleft]; exact List.mem_append_left _ hbefore) hcovers
          · rcases List.mem_cons.mp hafter with heq | hrest
            · rw [heq] at hcovers
              exact hown hcovers
            · exact hfree c (by rw [hleft]; exact List.mem_append_right _ hrest) hcovers

/-- A step that does not fail leaves the file right exactly if its response loses nothing. -/
theorem agrees_step (hchunk : 0 < limits.chunkSize) (hparallel : 0 < limits.maxParallelChunks)
    {s s' : Fetch} {a : Action} (hinv : Inv source s) (hstep : step limits source s a = some s')
    (halive : ¬ Doomed s') :
    Inv source s' ∧ (Agrees source s' ↔ Agrees source s ∧ lossless source s a = true) := by
  cases s with
  | sizing =>
    cases a with
    | size ok disk =>
      cases hstep
      cases ok with
      | false => exact absurd rfl halive
      | true =>
        obtain ⟨hinv', hagrees⟩ := opened_spec hchunk hparallel disk halive
        exact ⟨hinv', iff_of_true hagrees ⟨trivial, rfl⟩⟩
    | respond | join => cases hstep
  | returned ok file => cases a <;> cases hstep
  | loading file waiting inFlight ended =>
    have hlaid : Laid source file waiting inFlight ended := hinv
    cases a with
    | size ok disk => cases hstep
    | respond i answer disk =>
      simp only [step] at hstep
      split at hstep
      · cases hstep
      · next chunk hget =>
        simp only [Option.ite_none_right_eq_some] at hstep
        obtain ⟨hle, heq⟩ := hstep
        rw [← Option.some.inj heq] at halive ⊢
        have hended : (chunkTask source file chunk answer disk).2 = true := by
          by_contra hfailed
          rw [Bool.not_eq_true] at hfailed
          refine halive ?_
          rw [hfailed]
          exact List.mem_append_right _ (List.mem_singleton_self _)
        cases answer with
        | none => cases hended
        | some len =>
          have hwrites : readAt source chunk.1 len ≠ [] ∧ disk = true := by
            by_contra hnot
            have hfails : ((readAt source chunk.1 len).isEmpty || !disk) = true := by
              rw [not_and_or] at hnot
              rcases hnot with hempty | hdisk
              · simp [not_not.mp hempty]
              · simp [hdisk]
            simp only [chunkTask, hfails, if_true] at hended
            cases hended
          obtain ⟨hbytes, rfl⟩ := hwrites
          have htask : chunkTask source file chunk (some len) true =
              (writeAt file chunk.1 (readAt source chunk.1 len), true) := by
            simp [chunkTask, hbytes]
          rw [htask]
          exact respond_spec hlaid hget hle hbytes
    | join =>
      simp only [step] at hstep
      split at hstep
      · cases hstep
        exact absurd rfl halive
      · next rest =>
        split at hstep
        · cases hstep
          refine ⟨⟨hlaid.length, hlaid.apart, hlaid.within, hlaid.blank, .inl rfl⟩, ?_⟩
          exact ⟨fun h => ⟨h, rfl⟩, fun h => h.1⟩
        · next next waiting =>
          cases hstep
          have hsame : (inFlight ++ [next]) ++ waiting = inFlight ++ next :: waiting :=
            List.append_assoc inFlight [next] waiting
          refine ⟨⟨hlaid.length, ?_, ?_, ?_, .inr (.inl (by simp))⟩, ?_⟩
          · rw [hsame]
            exact hlaid.apart
          · rw [hsame]
            exact hlaid.within
          · rw [hsame]
            exact hlaid.blank
          · unfold Agrees
            dsimp only
            rw [hsame]
            exact ⟨fun h => ⟨h, rfl⟩, fun h => h.1⟩
      · simp only [Option.ite_none_right_eq_some] at hstep
        obtain ⟨hnone, heq⟩ := hstep
        cases heq
        have hwaiting : waiting = [] := by
          rcases hlaid.busy with hdone | hflying | hended
          · exact hdone
          · exact absurd hnone hflying
          · exact absurd rfl hended
        refine ⟨trivial, ?_⟩
        subst hnone hwaiting
        constructor
        · intro h
          refine ⟨fun x _ _ => ?_, rfl⟩
          have hfile : file = source := h
          rw [hfile]
        · rintro ⟨hagrees, -⟩
          refine List.ext_getElem? fun x => ?_
          by_cases hx : x < source.length
          · exact hagrees x hx fun c hc => absurd hc List.not_mem_nil
          · have hlength := hlaid.length
            rw [List.getElem?_eq_none (by omega), List.getElem?_eq_none (by omega)]

/-- A download that returns in good order has the file exactly if what it began with was right
and no response lost anything. -/
theorem file_eq_iff (hchunk : 0 < limits.chunkSize) (hparallel : 0 < limits.maxParallelChunks)
    {acts : List Action} {s : Fetch} {file : List UInt8} (hinv : Inv source s)
    (hrun : run (step limits source) s acts = some (.returned true file)) :
    file = source ↔ Agrees source s ∧
      Meets (step limits source) (fun s a => lossless source s a = true) s acts := by
  induction acts generalizing s with
  | nil =>
    cases hrun
    exact ⟨fun h => ⟨h, trivial⟩, fun h => h.1⟩
  | cons a rest ih =>
    obtain ⟨s', hstep, hrest⟩ := run_cons_some.mp hrun
    have halive : ¬ Doomed s' := fun hdoomed => hdoomed.not_returned hrest
    obtain ⟨hinv', hagrees⟩ := agrees_step hchunk hparallel hinv hstep halive
    rw [ih hinv' hrest, hagrees, and_assoc]
    refine and_congr_right fun _ => and_congr_right fun _ => ?_
    constructor
    · intro hmeets t ht
      rw [hstep, Option.some.injEq] at ht
      rw [← ht]
      exact hmeets
    · exact fun hmeets => hmeets s' hstep

/-- The chunk plan is a partition of the file, and a download that returns in good order has
exactly the file if and only if all that its responses left out is zero in the file. -/
theorem fetchOneFile_exact_iff (source : List UInt8) (limits : Limits)
    (hchunk : 0 < limits.chunkSize) (hparallel : 0 < limits.maxParallelChunks)
    (sizeHint : Option ℕ) (hhint : ∀ size ∈ sizeHint, size = source.length) (disk : Bool)
    (acts : List Action) (file : List UInt8)
    (hrun : run (step limits source) (fetchOneFile limits sizeHint disk) acts =
      some (.returned true file)) :
    (chunkPlan source.length limits.chunkSize).flatMap (fun c => List.range' c.1 c.2) =
        List.range source.length ∧
      (file = source ↔ Meets (step limits source) (fun s a => lossless source s a = true)
        (fetchOneFile limits sizeHint disk) acts) := by
  refine ⟨flatMap_chunkPlan hchunk, ?_⟩
  have hbegin : Inv source (fetchOneFile limits sizeHint disk) ∧
      Agrees source (fetchOneFile limits sizeHint disk) := by
    cases sizeHint with
    | none => exact ⟨trivial, trivial⟩
    | some size =>
      have hsize : size = source.length := hhint size rfl
      rw [hsize] at hrun ⊢
      have halive : ¬ Doomed (opened limits source.length disk) := fun hdoomed =>
        hdoomed.not_returned hrun
      exact opened_spec hchunk hparallel disk halive
  rw [file_eq_iff hchunk hparallel hbegin.1 hrun]
  exact and_iff_right hbegin.2

/-- A file of seven bytes. -/
def sevenBytes : List UInt8 := [1, 2, 3, 4, 5, 0, 0]

/-- Two chunks at a time, of three bytes. -/
def smallLimits : Limits := ⟨2, 3⟩

/-- The chunks are answered out of order, and the last one without its zero. -/
def outOfOrder : List Action :=
  [.size true true, .respond 1 (some 2) true, .join, .respond 0 (some 3) true, .join,
    .respond 0 (some 1) true, .join, .join]

/-- The file is complete: what the short response left out is a zero. -/
theorem exact_outOfOrder :
    run (step smallLimits sevenBytes) (fetchOneFile smallLimits none true) outOfOrder =
        some (.returned true sevenBytes) ∧
      (chunkPlan 7 3).flatMap (fun c => List.range' c.1 c.2) = List.range 7 ∧
      Meets (step smallLimits sevenBytes) (fun s a => lossless sevenBytes s a = true)
        (fetchOneFile smallLimits none true) outOfOrder := by
  have hend : run (step smallLimits sevenBytes) (fetchOneFile smallLimits none true) outOfOrder =
      some (.returned true sevenBytes) := by decide +kernel
  have hexact := fetchOneFile_exact_iff sevenBytes smallLimits (by decide) (by decide) none
    (fun size hsize => by cases hsize) true outOfOrder sevenBytes hend
  exact ⟨hend, hexact.1, hexact.2.mp rfl⟩

/-- The first chunk is answered with two of its three bytes. -/
def shortChunk : List Action :=
  [.size true true, .respond 0 (some 2) true, .join, .respond 0 (some 3) true, .join,
    .respond 0 (some 1) true, .join, .join]

/-- The download returns in good order, with a hole in the file. -/
theorem not_exact_shortChunk :
    ¬ ∀ (source : List UInt8) (limits : Limits) (sizeHint : Option ℕ) (disk : Bool)
      (acts : List Action) (file : List UInt8), 0 < limits.chunkSize →
      0 < limits.maxParallelChunks → (∀ size ∈ sizeHint, size = source.length) →
      run (step limits source) (fetchOneFile limits sizeHint disk) acts =
        some (.returned true file) → file = source := by
  intro h
  have hholed := h sevenBytes smallLimits none true shortChunk [1, 2, 0, 4, 5, 0, 0] (by decide)
    (by decide) (fun size hsize => by cases hsize) (by decide +kernel)
  exact absurd hholed (by decide)

end Macrdp.FileDownload
