import Mathlib.Data.List.Infix
import Macrdp.ByteCodec

/-!
# Byte streams of coded units

A camera sends the units of its pictures as one byte stream, in which a start code of zero bytes
and a one stands in front of each unit. The decoder cuts the stream at the start codes and passes
the units on with their length in front, as the encoder side has them.
-/

namespace Macrdp.AnnexB

open ByteCodec

/-! ## The iterator -/

/-- The first start code in bytes that begin at an index, and its length. -/
def scan (i : ℕ) : List UInt8 → Option (ℕ × ℕ)
  | [] => none
  | b :: rest =>
    if [0, 0, 1] <+: b :: rest then some (i, 3)
    else if [0, 0, 0, 1] <+: b :: rest then some (i, 4)
    else scan (i + 1) rest

/-- An iterator over the units of a buffer. -/
structure AnnexBNals where
  buf : List UInt8
  pos : ℕ
  deriving DecidableEq

/-- The next start code at or behind an index, and its length. -/
def AnnexBNals.nextStartCode (it : AnnexBNals) (start : ℕ) : Option (ℕ × ℕ) :=
  scan start (it.buf.drop start)

/-- The next unit, as a range of the buffer, and the iterator behind it. -/
def AnnexBNals.next (it : AnnexBNals) : Option ((ℕ × ℕ) × AnnexBNals) := do
  let (scPos, scLen) ← it.nextStartCode it.pos
  let nalStart := scPos + scLen
  let nalEnd := ((it.nextStartCode nalStart).map Prod.fst).getD it.buf.length
  return ((nalStart, nalEnd), { it with pos := nalEnd })

/-- The ranges of all units; `none` when the fuel runs out. -/
def AnnexBNals.ranges : ℕ → AnnexBNals → Option (List (ℕ × ℕ))
  | 0, _ => none
  | fuel + 1, it =>
    match it.next with
    | none => some []
    | some (range, it) => (ranges fuel it).map (range :: ·)

/-- The bytes of a range; `none` where it is not a range of the buffer. -/
def slice (buf : List UInt8) (range : ℕ × ℕ) : Option (List UInt8) :=
  if range.1 ≤ range.2 ∧ range.2 ≤ buf.length then some ((buf.take range.2).drop range.1)
  else none

/-- The units of a buffer; `none` where the program would not end or read out of range. -/
def nals (buf : List UInt8) : Option (List (List UInt8)) := do
  let ranges ← AnnexBNals.ranges (buf.length + 1) ⟨buf, 0⟩
  ranges.mapM (slice buf)

/-! ## Lengths in place of start codes -/

def startCode : List UInt8 := [0, 0, 0, 1]

/-- Units with their length in front of each. -/
def lengthPrefixed (units : List (List UInt8)) : List UInt8 :=
  units.flatMap fun nal => bigEndian 4 nal.length ++ nal

/-- Go on to put start codes in place of lengths from an index. -/
def avccLoop (avcc : List UInt8) : ℕ → ℕ → List UInt8 → Option (List UInt8)
  | 0, _, _ => none
  | fuel + 1, i, out =>
    if i + 4 ≤ avcc.length then
      let nalLen := ofBigEndian ((avcc.drop i).take 4)
      if avcc.length < i + 4 + nalLen then some out
      else do
        let nal ← slice avcc (i + 4, i + 4 + nalLen)
        avccLoop avcc fuel (i + 4 + nalLen) (out ++ startCode ++ nal)
    else some out

/-- Put start codes in place of lengths, and the parameter sets in front on a keyframe. -/
def avccToAnnexB (avcc : List UInt8) (parameterSets : List (List UInt8)) (isKeyframe : Bool) :
    Option (List UInt8) :=
  avccLoop avcc (avcc.length + 1) 0
    (if isKeyframe then parameterSets.flatMap fun ps => startCode ++ ps else [])

/-! ## The decoder -/

/-- The decoder: the last parameter sets, what its session was built from, and whether a failure to
build one was told. -/
structure H264Decoder where
  sps : Option (List UInt8)
  pps : Option (List UInt8)
  session : Option (List UInt8 × List UInt8)
  warned : Bool
  deriving DecidableEq

def H264Decoder.new : H264Decoder := ⟨none, none, none, false⟩

/-- The type of a unit. -/
def nalType (nal : List UInt8) : UInt8 := nal.headD 0 &&& 0x1f

/-- Keep a parameter set, or add another unit to what is to be decoded. -/
def H264Decoder.feed (acc : H264Decoder × List UInt8) (nal : List UInt8) :
    H264Decoder × List UInt8 :=
  if nal.isEmpty then acc
  else if nalType nal = 7 then ({ acc.1 with sps := some nal }, acc.2)
  else if nalType nal = 8 then ({ acc.1 with pps := some nal }, acc.2)
  else if nalType nal = 9 then acc
  else (acc.1, acc.2 ++ bigEndian 4 nal.length ++ nal)

/-- Keep the parameter sets of an access unit and gather what is to be decoded. -/
def H264Decoder.collect (d : H264Decoder) (annexb : List UInt8) :
    Option (H264Decoder × List UInt8) :=
  (nals annexb).map fun units => units.foldl feed (d, [])

section Decode

-- Whether the system creates a session from these parameter sets.
variable (creates : List UInt8 × List UInt8 → Bool)

/-- Build a session when there is none and both parameter sets are known. Gives the decoder and
whether the access unit goes on to be decoded. -/
def H264Decoder.withSession (d : H264Decoder) : H264Decoder × Bool :=
  if d.session.isSome then (d, true)
  else
    match d.sps, d.pps with
    | some sps, some pps =>
      if creates (sps, pps) then ({ d with session := some (sps, pps) }, true)
      else ({ d with warned := true }, false)
    | _, _ => (d, false)

/-- Decode an access unit. Gives what its session was built from and the bytes that are passed to
it, unless nothing is passed. -/
def H264Decoder.decode (d : H264Decoder) (annexb : List UInt8) :
    Option (H264Decoder × Option ((List UInt8 × List UInt8) × List UInt8)) := do
  let (d, avcc) ← d.collect annexb
  let (d, goesOn) := d.withSession creates
  if goesOn ∧ avcc ≠ [] then return (d, d.session.map (·, avcc)) else return (d, none)

end Decode

/-! ## Units and streams -/

/-- A unit as the standard has it: it is not empty, does not end in a zero byte and contains nothing
that could be taken for a start code. -/
structure NalUnit where
  bytes : List UInt8
  ne_nil : bytes ≠ []
  last : bytes.getLast? ≠ some 0
  zeros : ¬ [0, 0, 0] <:+: bytes
  codes : ¬ [0, 0, 1] <:+: bytes

/-- A unit in a stream, and how many zero bytes more than two are in front of it. -/
structure Framed where
  extra : ℕ
  unit : NalUnit

/-- The bytes of a unit in a stream. -/
def Framed.bytes (u : Framed) : List UInt8 :=
  List.replicate (u.extra + 2) 0 ++ 1 :: u.unit.bytes

/-- A stream of units. -/
def stream (framed : List Framed) : List UInt8 := framed.flatMap Framed.bytes

/-- A unit that is passed on for decoding. -/
def IsSlice (nal : List UInt8) : Prop :=
  nal ≠ [] ∧ nalType nal ≠ 7 ∧ nalType nal ≠ 8 ∧ nalType nal ≠ 9

instance : DecidablePred IsSlice := fun nal =>
  inferInstanceAs (Decidable (nal ≠ [] ∧ nalType nal ≠ 7 ∧ nalType nal ≠ 8 ∧ nalType nal ≠ 9))

/-! ## The scan -/

/-- Bytes that begin with a start code. -/
def Starts (bytes : List UInt8) : Prop := [0, 0, 1] <+: bytes ∨ [0, 0, 0, 1] <+: bytes

/-- A start code that was found is in the bytes. -/
theorem scan_bounds {i p l : ℕ} {bytes : List UInt8} (h : scan i bytes = some (p, l)) :
    i ≤ p ∧ 3 ≤ l ∧ p + l ≤ i + bytes.length := by
  induction bytes generalizing i with
  | nil => cases h
  | cons b rest ih =>
    rw [scan] at h
    split at h
    · next hthree =>
      have hlen := hthree.length_le
      cases h
      exact ⟨Nat.le_refl _, Nat.le_refl _, Nat.add_le_add_left hlen _⟩
    · split at h
      · next hfour =>
        have hlen := hfour.length_le
        cases h
        exact ⟨Nat.le_refl _, by omega, Nat.add_le_add_left hlen _⟩
      · have hrest := ih h
        rw [List.length_cons]
        omega

/-- Bytes at which no start code begins are skipped. -/
theorem scan_append {front : List UInt8} (rest : List UInt8) (i : ℕ)
    (h : ∀ t, t ≠ [] → t <:+ front → ¬ Starts (t ++ rest)) :
    scan i (front ++ rest) = scan (i + front.length) rest := by
  induction front generalizing i with
  | nil => rfl
  | cons b front ih =>
    have hhere := not_or.mp (h (b :: front) nofun List.suffix_rfl)
    rw [List.cons_append] at hhere ⊢
    rw [scan, if_neg hhere.1, if_neg hhere.2,
      ih _ fun t hne hsuffix => h t hne (hsuffix.trans (List.suffix_cons _ _)), List.length_cons]
    congr 1
    omega

/-- No start code begins inside a unit, whatever follows it. -/
theorem NalUnit.not_starts (n : NalUnit) {t : List UInt8} (hne : t ≠ []) (ht : t <:+ n.bytes)
    (rest : List UInt8) : ¬ Starts (t ++ rest) := by
  have hlast : t.getLast? ≠ some 0 := by
    obtain ⟨front, hfront⟩ := ht
    have hn := n.last
    rwa [← hfront, List.getLast?_append_of_ne_nil _ hne] at hn
  have hcode : ∀ c : UInt8, c = 0 ∨ c = 1 → ∀ tail, t ≠ 0 :: 0 :: c :: tail := by
    intro c hc tail heq
    have hinfix : [0, 0, c] <:+: n.bytes :=
      (List.IsPrefix.isInfix ⟨tail, heq.symm⟩).trans ht.isInfix
    cases hc with
    | inl hzero => exact n.zeros (hzero ▸ hinfix)
    | inr hone => exact n.codes (hone ▸ hinfix)
  cases t with
  | nil => exact absurd rfl hne
  | cons a t =>
    cases t with
    | nil =>
      intro h
      have ha : a = 0 := by
        cases h with
        | inl h | inr h => exact (List.cons_prefix_cons.mp h).1.symm
      exact hlast (congrArg some ha)
    | cons b t =>
      intro h
      have hab : a = 0 ∧ b = 0 := by
        cases h with
        | inl h | inr h =>
          have htail := List.cons_prefix_cons.mp h
          exact ⟨htail.1.symm, (List.cons_prefix_cons.mp htail.2).1.symm⟩
      obtain ⟨rfl, rfl⟩ := hab
      cases t with
      | nil => exact hlast rfl
      | cons c tail =>
        have hc : c = 0 ∨ c = 1 := by
          cases h with
          | inl h =>
            have htail := (List.cons_prefix_cons.mp (List.cons_prefix_cons.mp h).2).2
            exact Or.inr (List.cons_prefix_cons.mp htail).1.symm
          | inr h =>
            have htail := (List.cons_prefix_cons.mp (List.cons_prefix_cons.mp h).2).2
            exact Or.inl (List.cons_prefix_cons.mp htail).1.symm
        exact hcode c hc tail rfl

/-- A unit is skipped. -/
theorem NalUnit.scan_append (n : NalUnit) (rest : List UInt8) (i : ℕ) :
    scan i (n.bytes ++ rest) = scan (i + n.bytes.length) rest :=
  AnnexB.scan_append rest i fun _ hne ht => n.not_starts hne ht rest

/-- In a run of zero bytes in front of a one, the start code takes up to three of them. -/
theorem scan_zeros (extra i : ℕ) (rest : List UInt8) :
    scan i (List.replicate (extra + 2) 0 ++ 1 :: rest) =
      some (i + (extra - 1), min extra 1 + 3) := by
  induction extra generalizing i with
  | zero => simp [scan, List.replicate_succ]
  | succ extra ih =>
    cases extra with
    | zero => simp [scan, List.replicate_succ]
    | succ extra =>
      have hthree : ¬ [0, 0, 1] <+: List.replicate (extra + 2 + 2) (0 : UInt8) ++ 1 :: rest := by
        simp [List.replicate_succ]
      have hfour : ¬ [0, 0, 0, 1] <+: List.replicate (extra + 2 + 2) (0 : UInt8) ++ 1 :: rest := by
        simp [List.replicate_succ]
      rw [show extra + 1 + 1 + 2 = extra + 2 + 2 from rfl]
      rw [List.replicate_succ, List.cons_append] at hthree hfour ⊢
      rw [scan, if_neg hthree, if_neg hfour, ih]
      congr 2
      · omega
      · omega

/-! ## The iterator ends and stays in the buffer -/

/-- A unit lies behind the iterator's position, in the buffer, and the iterator goes on behind
it. -/
theorem AnnexBNals.next_bounds {it it' : AnnexBNals} {range : ℕ × ℕ}
    (h : it.next = some (range, it')) :
    it' = { it with pos := range.2 } ∧ it.pos < range.1 ∧ range.1 ≤ range.2 ∧
      range.2 ≤ it.buf.length := by
  rw [next] at h
  cases hfirst : it.nextStartCode it.pos with
  | none =>
    rw [hfirst] at h
    cases h
  | some code =>
    rw [hfirst] at h
    have hbounds := scan_bounds hfirst
    rw [List.length_drop] at hbounds
    cases hsecond : it.nextStartCode (code.1 + code.2) with
    | none =>
      simp only [Option.bind_eq_bind, Option.bind_some, hsecond, Option.map_none,
        Option.getD_none] at h
      cases h
      exact ⟨rfl, by dsimp only; omega, by dsimp only; omega, Nat.le_refl _⟩
    | some following =>
      have hbehind := scan_bounds hsecond
      rw [List.length_drop] at hbehind
      simp only [Option.bind_eq_bind, Option.bind_some, hsecond, Option.map_some,
        Option.getD_some] at h
      cases h
      exact ⟨rfl, by dsimp only; omega, by dsimp only; omega, by dsimp only; omega⟩

/-- The iterator ends, and its units are ranges of the buffer of which each is behind the one
before it. -/
theorem AnnexBNals.ranges_total {fuel : ℕ} {it : AnnexBNals}
    (hfuel : it.buf.length - it.pos < fuel) :
    ∃ rs, ranges fuel it = some rs ∧
      (∀ r ∈ rs, it.pos < r.1 ∧ r.1 ≤ r.2 ∧ r.2 ≤ it.buf.length) ∧
      rs.Pairwise fun r s => r.2 < s.1 := by
  induction fuel generalizing it with
  | zero => exact absurd hfuel (Nat.not_lt_zero _)
  | succ fuel ih =>
    rw [ranges]
    cases hnext : it.next with
    | none => exact ⟨[], rfl, nofun, List.Pairwise.nil⟩
    | some item =>
      obtain ⟨range, it'⟩ := item
      obtain ⟨rfl, hpos, hrange, hend⟩ := next_bounds hnext
      obtain ⟨rs, hrs, hin, hordered⟩ := @ih { it with pos := range.2 } (by dsimp only; omega)
      dsimp only at hin ⊢
      refine ⟨range :: rs, by rw [hrs]; rfl, ?_, ?_⟩
      · intro r hr
        cases List.mem_cons.mp hr with
        | inl heq => exact heq ▸ ⟨hpos, hrange, hend⟩
        | inr hmem =>
          have hr := hin r hmem
          omega
      · exact List.pairwise_cons.mpr ⟨fun r hr => (hin r hr).1, hordered⟩

/-! ## Splitting a stream -/

/-- The bytes at the front of what is behind an index are a range of the buffer. -/
theorem slice_of_drop {buf part more : List UInt8} {i : ℕ} (hi : i ≤ buf.length)
    (h : buf.drop i = part ++ more) :
    slice buf (i, i + part.length) = some part ∧ buf.drop (i + part.length) = more := by
  have hlen := congrArg List.length h
  rw [List.length_drop, List.length_append] at hlen
  constructor
  · have hin : i ≤ i + part.length ∧ i + part.length ≤ buf.length := by omega
    rw [slice]
    dsimp only
    rw [if_pos hin, List.drop_take, h, Nat.add_sub_cancel_left, List.take_left]
  · rw [← List.drop_drop, h, List.drop_left]

/-- The zero bytes that the start code of the next unit leaves to the unit in front of it. -/
def left : List Framed → ℕ
  | [] => 0
  | u :: _ => u.extra - 1

/-- A stream from its first start code on. -/
def fromCode : List Framed → List Framed
  | [] => []
  | u :: rest => { u with extra := min u.extra 1 } :: rest

/-- What the iterator gives of a stream. -/
def items : List Framed → List (List UInt8)
  | [] => []
  | u :: rest => (u.unit.bytes ++ List.replicate (left rest) 0) :: items rest

theorem items_fromCode (framed : List Framed) : items (fromCode framed) = items framed := by
  cases framed with
  | nil | cons u rest => rfl

theorem length_fromCode (framed : List Framed) : (fromCode framed).length = framed.length := by
  cases framed with
  | nil | cons u rest => rfl

/-- The start code of the first unit takes some of the zero bytes in front of it. -/
theorem stream_eq (framed : List Framed) :
    stream framed = List.replicate (left framed) 0 ++ stream (fromCode framed) := by
  cases framed with
  | nil => rfl
  | cons u rest =>
    have hzeros : u.extra + 2 = u.extra - 1 + (min u.extra 1 + 2) := by omega
    have hsplit : List.replicate (u.extra + 2) (0 : UInt8) =
        List.replicate (u.extra - 1) 0 ++ List.replicate (min u.extra 1 + 2) 0 := by
      rw [List.replicate_append_replicate, ← hzeros]
    rw [stream, List.flatMap_cons, Framed.bytes, hsplit, left, fromCode, stream, List.flatMap_cons,
      Framed.bytes, List.append_assoc, List.append_assoc, List.append_assoc]

/-- A unit of a stream ends where the next start code begins. -/
theorem scan_stream {framed : List Framed} {i len : ℕ} (hlen : len = i + (stream framed).length) :
    ((scan i (stream framed)).map Prod.fst).getD len = i + left framed := by
  cases framed with
  | nil => exact hlen
  | cons u rest =>
    rw [stream, List.flatMap_cons, Framed.bytes, List.append_assoc, List.cons_append, scan_zeros]
    rfl

/-- At a start code of a stream the iterator gives the unit behind it, with the zero bytes that the
next start code leaves. -/
theorem AnnexBNals.next_stream {it : AnnexBNals} {u : Framed} {rest : List Framed}
    (h : it.buf.drop it.pos = stream (u :: rest)) :
    ∃ range, it.next = some (range, { it with pos := range.2 }) ∧
      slice it.buf range = some (u.unit.bytes ++ List.replicate (left rest) 0) ∧
      it.buf.drop range.2 = stream (fromCode rest) := by
  have hbytes : stream (u :: rest) =
      (List.replicate (u.extra + 2) 0 ++ [1]) ++ (u.unit.bytes ++ stream rest) := by
    rw [stream, List.flatMap_cons, Framed.bytes, List.append_assoc, List.append_assoc]
    rfl
  have hlen := congrArg List.length (h.trans hbytes)
  rw [List.length_drop, List.length_append, List.length_append, List.length_append,
    List.length_replicate, List.length_singleton] at hlen
  have hunit : it.buf.drop (it.pos + u.extra + 3) = u.unit.bytes ++ stream rest := by
    have hbehind := (slice_of_drop (by omega) (h.trans hbytes)).2
    rw [List.length_append, List.length_replicate, List.length_singleton] at hbehind
    rwa [show it.pos + u.extra + 3 = it.pos + (u.extra + 2 + 1) by omega]
  have hfirst : it.nextStartCode it.pos = some (it.pos + (u.extra - 1), min u.extra 1 + 3) := by
    rw [nextStartCode, h, hbytes, List.append_assoc]
    exact scan_zeros _ _ _
  have hstart : it.pos + (u.extra - 1) + (min u.extra 1 + 3) = it.pos + u.extra + 3 := by omega
  have hsecond : ((it.nextStartCode (it.pos + u.extra + 3)).map Prod.fst).getD it.buf.length =
      it.pos + u.extra + 3 + (u.unit.bytes ++ List.replicate (left rest) 0).length := by
    rw [nextStartCode, hunit, u.unit.scan_append, scan_stream (by omega), List.length_append,
      List.length_replicate]
    omega
  have hpart : it.buf.drop (it.pos + u.extra + 3) =
      (u.unit.bytes ++ List.replicate (left rest) 0) ++ stream (fromCode rest) := by
    rw [hunit, List.append_assoc, ← stream_eq]
  have hslice := slice_of_drop (by omega) hpart
  refine ⟨_, ?_, hslice.1, hslice.2⟩
  rw [next, hfirst]
  simp only [Option.bind_eq_bind, Option.bind_some, hstart, hsecond]
  rfl

/-- From a start code of a stream on the iterator gives the items of the stream. -/
theorem AnnexBNals.ranges_stream {framed : List Framed} {fuel : ℕ} {it : AnnexBNals}
    (h : it.buf.drop it.pos = stream framed) (hfuel : framed.length < fuel) :
    ∃ rs, ranges fuel it = some rs ∧ rs.mapM (slice it.buf) = some (items framed) := by
  induction fuel generalizing framed it with
  | zero => exact absurd hfuel (Nat.not_lt_zero _)
  | succ fuel ih =>
    rw [ranges]
    cases framed with
    | nil =>
      have hnone : it.nextStartCode it.pos = none := by
        rw [nextStartCode, h]
        rfl
      have hnext : it.next = none := by
        rw [next, hnone]
        rfl
      exact ⟨[], by rw [hnext], rfl⟩
    | cons u rest =>
      obtain ⟨range, hnext, hslice, hdrop⟩ := next_stream h
      have hshort : (fromCode rest).length < fuel := by
        rw [length_fromCode]
        exact Nat.lt_of_succ_lt_succ hfuel
      obtain ⟨rs, hrs, hitems⟩ := @ih _ { it with pos := range.2 } hdrop hshort
      refine ⟨range :: rs, ?_, ?_⟩
      · rw [hnext]
        dsimp only
        rw [hrs]
        rfl
      · rw [List.mapM_cons, hslice, hitems, items_fromCode]
        rfl

/-- There are fewer units than bytes in a stream. -/
theorem length_le_stream (framed : List Framed) : framed.length ≤ (stream framed).length := by
  induction framed with
  | nil => exact Nat.le_refl _
  | cons u rest ih =>
    rw [stream, List.flatMap_cons, List.length_append, Framed.bytes, List.length_append,
      List.length_cons, List.length_cons]
    change rest.length + 1 ≤ _ + (stream rest).length
    omega

/-- The iterator gives the items of a stream. -/
theorem nals_stream (framed : List Framed) : nals (stream framed) = some (items framed) := by
  have hlen := length_le_stream framed
  obtain ⟨rs, hrs, hitems⟩ := @AnnexBNals.ranges_stream framed ((stream framed).length + 1)
    ⟨stream framed, 0⟩ rfl (by omega)
  rw [nals, hrs]
  exact hitems

/-- The items of a stream are its units when no start code but the first leaves zero bytes. -/
theorem items_eq_iff (framed : List Framed) :
    items framed = framed.map (fun u => u.unit.bytes) ↔ ∀ u ∈ framed.tail, u.extra ≤ 1 := by
  induction framed with
  | nil => exact iff_of_true rfl nofun
  | cons u rest ih =>
    have hhead : u.unit.bytes ++ List.replicate (left rest) 0 = u.unit.bytes ↔ left rest = 0 := by
      rw [List.append_right_eq_self, List.replicate_eq_nil_iff]
    rw [items, List.map_cons, List.cons.injEq, hhead, ih, List.tail_cons]
    cases rest with
    | nil => exact iff_of_true ⟨rfl, nofun⟩ nofun
    | cons v rest =>
      rw [List.tail_cons, List.forall_mem_cons, left]
      exact and_congr_left fun _ => by omega

/-! ## Lengths in place of start codes -/

/-- The loop puts a start code in front of every unit. -/
theorem avccLoop_eq {avcc : List UInt8} {units : List (List UInt8)} {fuel i : ℕ}
    (hshort : ∀ nal ∈ units, nal.length < 2 ^ 32) (hi : i ≤ avcc.length)
    (h : avcc.drop i = lengthPrefixed units) (hfuel : units.length < fuel) (out : List UInt8) :
    avccLoop avcc fuel i out = some (out ++ units.flatMap fun nal => startCode ++ nal) := by
  induction fuel generalizing units i out with
  | zero => exact absurd hfuel (Nat.not_lt_zero _)
  | succ fuel ih =>
    rw [avccLoop]
    cases units with
    | nil =>
      have hend := congrArg List.length h
      rw [List.length_drop] at hend
      change _ = 0 at hend
      rw [if_neg (by omega), List.flatMap_nil, List.append_nil]
    | cons nal rest =>
      have hnal := hshort nal List.mem_cons_self
      have hbytes : avcc.drop i = bigEndian 4 nal.length ++ (nal ++ lengthPrefixed rest) := by
        rw [h, lengthPrefixed, List.flatMap_cons, List.append_assoc]
        rfl
      have hlen := congrArg List.length hbytes
      rw [List.length_drop, List.length_append, List.length_append, length_bigEndian] at hlen
      have hread : ofBigEndian ((avcc.drop i).take 4) = nal.length := by
        have htake : (avcc.drop i).take 4 = bigEndian 4 nal.length := by
          rw [hbytes]
          exact List.take_left' (length_bigEndian 4 _)
        rw [htake, ofBigEndian_bigEndian]
        exact Nat.mod_eq_of_lt hnal
      have hbehind := (slice_of_drop hi hbytes).2
      rw [length_bigEndian] at hbehind
      have hslice := slice_of_drop (by omega) hbehind
      rw [if_pos (by omega), hread]
      dsimp only
      rw [if_neg (by omega), hslice.1]
      change avccLoop avcc fuel (i + 4 + nal.length) (out ++ startCode ++ nal) = _
      rw [ih (fun other hmem => hshort other (List.mem_cons_of_mem _ hmem)) (by omega) hslice.2
        (Nat.lt_of_succ_lt_succ hfuel), List.flatMap_cons, List.append_assoc, List.append_assoc,
        List.append_assoc]

/-- There are no more units than bytes with the lengths. -/
theorem length_le_lengthPrefixed (units : List (List UInt8)) :
    units.length ≤ (lengthPrefixed units).length := by
  induction units with
  | nil => exact Nat.le_refl _
  | cons nal rest ih =>
    rw [lengthPrefixed, List.flatMap_cons, List.length_append, List.length_append,
      length_bigEndian, List.length_cons]
    change rest.length + 1 ≤ _ + (lengthPrefixed rest).length
    omega

/-- A unit in a stream behind the four bytes of a start code. -/
def coded (n : NalUnit) : Framed := ⟨1, n⟩

theorem stream_coded (units : List NalUnit) :
    stream (units.map coded) = (units.map NalUnit.bytes).flatMap fun nal => startCode ++ nal := by
  rw [stream, List.flatMap_map, List.flatMap_map]
  rfl

theorem stream_append (front rest : List Framed) :
    stream (front ++ rest) = stream front ++ stream rest := List.flatMap_append

/-- What is written for the units of a picture is the stream of the parameter sets and the
units. -/
theorem avccToAnnexB_eq {units : List NalUnit} (sets : List NalUnit) (isKeyframe : Bool)
    (hshort : ∀ n ∈ units, n.bytes.length < 2 ^ 32) :
    avccToAnnexB (lengthPrefixed (units.map NalUnit.bytes)) (sets.map NalUnit.bytes) isKeyframe =
      some (stream (((if isKeyframe then sets else []) ++ units).map coded)) := by
  have hlens : ∀ nal ∈ units.map NalUnit.bytes, nal.length < 2 ^ 32 := by
    intro nal hnal
    obtain ⟨n, hn, rfl⟩ := List.mem_map.mp hnal
    exact hshort n hn
  have hfuel := length_le_lengthPrefixed (units.map NalUnit.bytes)
  have hall : (lengthPrefixed (units.map NalUnit.bytes)).drop 0 =
      lengthPrefixed (units.map NalUnit.bytes) := rfl
  rw [avccToAnnexB, avccLoop_eq hlens (Nat.zero_le _) hall (by omega), List.map_append,
    stream_append, stream_coded, stream_coded]
  cases isKeyframe with
  | true | false => rfl

/-! ## What the decoder gathers -/

/-- The decoder gathers the slices with their lengths. -/
theorem feed_slices (units : List (List UInt8)) (acc : H264Decoder × List UInt8) :
    (units.foldl H264Decoder.feed acc).2 =
      acc.2 ++ lengthPrefixed (units.filter fun nal => IsSlice nal) := by
  induction units generalizing acc with
  | nil => exact (List.append_nil _).symm
  | cons nal rest ih =>
    rw [List.foldl_cons, ih, H264Decoder.feed]
    by_cases hslice : IsSlice nal
    · rw [List.filter_cons_of_pos (by simpa using hslice), if_neg (by simpa using hslice.1),
        if_neg hslice.2.1, if_neg hslice.2.2.1, if_neg hslice.2.2.2, lengthPrefixed,
        lengthPrefixed, List.flatMap_cons, List.append_assoc, List.append_assoc, List.append_assoc]
    · rw [List.filter_cons_of_neg (by simpa using hslice)]
      split
      · rfl
      · next hne =>
        split
        · rfl
        · next hseven =>
          split
          · rfl
          · next height =>
            split
            · rfl
            · next hnine =>
              exact absurd ⟨by simpa using hne, hseven, height, hnine⟩ hslice

/-- The decoder gathers the slices of the units of an access unit. -/
theorem H264Decoder.collect_slices {annexb : List UInt8} {units : List (List UInt8)}
    (h : nals annexb = some units) (d : H264Decoder) :
    ∃ d', d.collect annexb =
      some (d', lengthPrefixed (units.filter fun nal => IsSlice nal)) := by
  refine ⟨(units.foldl feed (d, [])).1, ?_⟩
  rw [collect, h, Option.map_some]
  exact congrArg (fun avcc => some ((units.foldl feed (d, [])).1, avcc)) (feed_slices units (d, []))

/-! ## The whole -/

/-- The iterator gives the units of a stream exactly when no unit but the first has more than three
zero bytes in front of its one. The units and parameter sets that go through the encoder's framing
come back, and the decoder gathers the slices among them with the same lengths. For every buffer
the iterator ends, in the buffer and without overlap. -/
theorem split_iff (framed : List Framed) (sets units : List NalUnit) (isKeyframe : Bool)
    (buf : List UInt8) :
    (nals (stream framed) = some (framed.map fun u => u.unit.bytes) ↔
      ∀ u ∈ framed.tail, u.extra ≤ 1) ∧
    ((∀ n ∈ units, n.bytes.length < 2 ^ 32) →
      ∃ annexb, avccToAnnexB (lengthPrefixed (units.map NalUnit.bytes)) (sets.map NalUnit.bytes)
          isKeyframe = some annexb ∧
        nals annexb =
          some (((if isKeyframe then sets else []) ++ units).map NalUnit.bytes) ∧
        ∀ d : H264Decoder, ∃ d', d.collect annexb = some (d', lengthPrefixed
          ((((if isKeyframe then sets else []) ++ units).map NalUnit.bytes).filter
            fun nal => IsSlice nal))) ∧
    ∃ rs, AnnexBNals.ranges (buf.length + 1) ⟨buf, 0⟩ = some rs ∧
      (∀ r ∈ rs, r.1 ≤ r.2 ∧ r.2 ≤ buf.length) ∧ rs.Pairwise fun r s => r.2 < s.1 := by
  refine ⟨?_, ?_, ?_⟩
  · rw [nals_stream, Option.some.injEq, items_eq_iff]
  · intro hshort
    generalize hall : (if isKeyframe then sets else []) ++ units = all
    have hmap : (all.map coded).map (fun u => u.unit.bytes) = all.map NalUnit.bytes := by
      rw [List.map_map]
      rfl
    have hitems : items (all.map coded) = all.map NalUnit.bytes := by
      rw [← hmap, items_eq_iff]
      intro u hu
      obtain ⟨n, -, rfl⟩ := List.mem_map.mp (List.mem_of_mem_tail hu)
      exact Nat.le_refl _
    have hnals : nals (stream (all.map coded)) = some (all.map NalUnit.bytes) := by
      rw [nals_stream, hitems]
    exact ⟨_, hall ▸ avccToAnnexB_eq sets isKeyframe hshort, hnals,
      fun d => d.collect_slices hnals⟩
  · obtain ⟨rs, hrs, hin, hordered⟩ :=
      @AnnexBNals.ranges_total (buf.length + 1) ⟨buf, 0⟩ (Nat.lt_succ_self _)
    exact ⟨rs, hrs, fun r hr => (hin r hr).2, hordered⟩

/-- A unit of one byte. -/
def oneByte (b : UInt8) (h : b ≠ 0) : NalUnit where
  bytes := [b]
  ne_nil := nofun
  last := fun heq => h (Option.some.inj heq)
  zeros := fun hinfix => absurd hinfix.length_le (Nat.not_le.mpr (Nat.succ_lt_succ (by decide)))
  codes := fun hinfix => absurd hinfix.length_le (Nat.not_le.mpr (Nat.succ_lt_succ (by decide)))

/-- A picture of two units goes through the framing. -/
theorem split_iff_twoUnits :
    ∃ annexb, avccToAnnexB (lengthPrefixed [[0x65], [0x41]]) [[0x67], [0x68]] true = some annexb ∧
      nals annexb = some [[0x67], [0x68], [0x65], [0x41]] := by
  have hshort : ∀ n ∈ [oneByte 0x65 (by decide), oneByte 0x41 (by decide)],
      n.bytes.length < 2 ^ 32 := by
    intro n hn
    have hone : n.bytes.length = 1 := by
      cases List.mem_cons.mp hn with
      | inl h => exact h ▸ rfl
      | inr h => exact (List.mem_singleton.mp h) ▸ rfl
    omega
  obtain ⟨annexb, hwritten, hnals, -⟩ :=
    (split_iff [] [oneByte 0x67 (by decide), oneByte 0x68 (by decide)] _ true []).2.1 hshort
  exact ⟨annexb, hwritten, hnals⟩

/-- Four zero bytes in front of the second unit's one: the first unit gets one of them. -/
theorem not_split_fourZeros :
    ¬ ∀ framed : List Framed, nals (stream framed) = some (framed.map fun u => u.unit.bytes) := by
  intro h
  have hfour := h [⟨0, oneByte 0x67 (by decide)⟩, ⟨2, oneByte 0x68 (by decide)⟩]
  exact absurd hfour (by decide)

end Macrdp.AnnexB
