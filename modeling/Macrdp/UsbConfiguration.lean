import Mathlib.Data.List.Induction
import Macrdp.Framing
import Macrdp.UsbControl

/-!
# Configuration descriptors

A configuration descriptor is followed by a chain of descriptors, of which each begins with its
length and its type. The walk along the chain gives one entry for each interface descriptor of the
default setting, with the endpoints behind it. What is expected is one entry for each interface
number, of the bytes that the configuration claims for itself.
-/

namespace Macrdp.UsbConfiguration

open Framing UsbControl

/-! ## The parser -/

/-- The header of a configuration, and the bytes that follow it. -/
structure ConfigDesc where
  length : UInt8
  descriptorType : UInt8
  totalLength : UInt16
  numInterfaces : UInt8
  configurationValue : UInt8
  configuration : UInt8
  attributes : UInt8
  maxPower : UInt8
  trailing : List UInt8
  deriving DecidableEq

/-- An endpoint that is to be opened. -/
structure PipeInfo where
  maxPacketSize : UInt16
  maxTransferSize : UInt32
  pipeFlags : UInt32
  deriving DecidableEq

/-- An interface that is to be selected. -/
structure InterfaceInfo where
  interfaceNumber : UInt8
  alternateSetting : UInt8
  pipes : List PipeInfo
  deriving DecidableEq

def descriptorTypeConfiguration : UInt8 := 0x02

def descriptorTypeInterface : UInt8 := 0x04

def descriptorTypeEndpoint : UInt8 := 0x05

/-- A pipe of this packet size. -/
def pipe (maxPacketSize : UInt16) : PipeInfo := ⟨maxPacketSize, 64 * 1024, 0⟩

/-- The entries so far, and whether the last interface descriptor was one of the default
setting. -/
structure Walk where
  ifaces : List InterfaceInfo
  inAlt0 : Bool
  deriving DecidableEq

/-- Add a pipe to the last entry, if there is one. -/
def pushPipe (ifaces : List InterfaceInfo) (p : PipeInfo) : List InterfaceInfo :=
  match ifaces.getLast? with
  | some iface => ifaces.dropLast ++ [{ iface with pipes := iface.pipes ++ [p] }]
  | none => ifaces

/-- A little-endian number at an index; `none` where the index is out of range. -/
def u16le (buf : List UInt8) (i : ℕ) : Option UInt16 := do
  let lo ← buf[i]?
  let hi ← buf[i + 1]?
  return fromLeBytes lo hi

/-- Look at the descriptor at an index. -/
def visit (buf : List UInt8) (i : ℕ) (len dtype : UInt8) (w : Walk) : Option Walk :=
  if dtype = descriptorTypeInterface ∧ 9 ≤ len then do
    let interfaceNumber ← buf[i + 2]?
    let alternateSetting ← buf[i + 3]?
    if alternateSetting = 0 then return ⟨w.ifaces ++ [⟨interfaceNumber, 0, []⟩], true⟩
    else return { w with inAlt0 := false }
  else if dtype = descriptorTypeEndpoint ∧ 7 ≤ len ∧ w.inAlt0 then do
    let size ← u16le buf (i + 4)
    return { w with ifaces := pushPipe w.ifaces (pipe size) }
  else return w

/-- Walk along the chain from an index; `none` when the fuel runs out or an index is out of
range. -/
def walk (buf : List UInt8) : ℕ → ℕ → Walk → Option Walk
  | 0, _, _ => none
  | fuel + 1, i, w =>
    if i + 2 ≤ buf.length then do
      let len ← buf[i]?
      let dtype ← buf[i + 1]?
      if len = 0 ∨ buf.length < i + len.toNat then return w
      else do
        let w ← visit buf i len dtype w
        walk buf fuel (i + len.toNat) w
    else return w

/-- Parse a configuration; `none` where the program would read out of range or not end. -/
def parseConfiguration (buf : List UInt8) :
    Option (Except String (ConfigDesc × List InterfaceInfo)) :=
  if buf.length < 9 ∨ buf[1]? ≠ some descriptorTypeConfiguration then
    some (.error s!"URBDRC: not a configuration descriptor ({buf.length} bytes)")
  else do
    let totalLength ← u16le buf 2
    let descEnd := max (min totalLength.toNat buf.length) 9
    let config : ConfigDesc :=
      { length := ← buf[0]?
        descriptorType := ← buf[1]?
        totalLength := totalLength
        numInterfaces := ← buf[4]?
        configurationValue := ← buf[5]?
        configuration := ← buf[6]?
        attributes := ← buf[7]?
        maxPower := ← buf[8]?
        trailing := (buf.take descEnd).drop 9 }
    let w ← walk buf buf.length 9 ⟨[], false⟩
    return .ok (config, w.ifaces)

/-! ## What is expected -/

/-- A chain of descriptors: each begins with its length. -/
def chain : Framer UInt8 where
  frameLen
    | len :: _ :: _ => if len = 0 then none else some len.toNat
    | _ => none
  pos {buf n} h := by
    split at h
    · next len dtype rest =>
      split at h
      · cases h
      · next hne =>
        cases h
        exact Nat.pos_of_ne_zero fun hzero => hne (UInt8.toNat_inj.mp hzero)
    · cases h
  stable {buf n} more h := by
    split at h
    · exact h
    · cases h

/-- An interface descriptor. -/
def IsInterface (d : List UInt8) : Prop := d[1]? = some descriptorTypeInterface ∧ 9 ≤ d.length

/-- One of the default setting. -/
def IsDefault (d : List UInt8) : Prop := IsInterface d ∧ d[3]? = some 0

/-- An endpoint descriptor. -/
def IsEndpoint (d : List UInt8) : Prop := d[1]? = some descriptorTypeEndpoint ∧ 7 ≤ d.length

instance : DecidablePred IsInterface := fun d =>
  inferInstanceAs (Decidable (d[1]? = some descriptorTypeInterface ∧ 9 ≤ d.length))

instance : DecidablePred IsDefault := fun d =>
  inferInstanceAs (Decidable (IsInterface d ∧ d[3]? = some 0))

instance : DecidablePred IsEndpoint := fun d =>
  inferInstanceAs (Decidable (d[1]? = some descriptorTypeEndpoint ∧ 7 ≤ d.length))

/-- The number of an interface descriptor. -/
def number (d : List UInt8) : UInt8 := d.getD 2 0

/-- The pipe of an endpoint descriptor. -/
def pipeOf (d : List UInt8) : PipeInfo := pipe (fromLeBytes (d.getD 4 0) (d.getD 5 0))

/-- The pipes of the endpoints in front of the next interface descriptor. -/
def pipesOf (ds : List (List UInt8)) : List PipeInfo :=
  ((ds.takeWhile fun d => ¬ IsInterface d).filter fun d => IsEndpoint d).map pipeOf

/-- One entry for each interface descriptor of the default setting. -/
def entries : List (List UInt8) → List InterfaceInfo
  | [] => []
  | d :: rest => if IsDefault d then ⟨number d, 0, pipesOf rest⟩ :: entries rest else entries rest

/-- The first entry of each interface number. -/
def firsts : List InterfaceInfo → List InterfaceInfo
  | [] => []
  | e :: rest => e :: (firsts rest).filter fun f => f.interfaceNumber ≠ e.interfaceNumber

/-- The number of bytes that a configuration claims for itself, as far as they are there. -/
def claimed (buf : List UInt8) : ℕ :=
  min (fromLeBytes (buf.getD 2 0) (buf.getD 3 0)).toNat buf.length

/-- The descriptors of a configuration. -/
def descriptors (buf : List UInt8) : List (List UInt8) :=
  chain.frames ((buf.take (claimed buf)).drop 9)

/-- The descriptors that follow on them behind the end of the configuration. -/
def beyond (buf : List UInt8) : List (List UInt8) :=
  (chain.frames (buf.drop 9)).drop (descriptors buf).length

/-- No interface number has two descriptors of the default setting, and behind the end of the
configuration there is no further one, nor an endpoint that would belong to the last one. -/
structure Plain (buf : List UInt8) : Prop where
  distinct : (((descriptors buf).filter fun d => IsDefault d).map number).Nodup
  interfaces : ∀ d ∈ beyond buf, ¬ IsDefault d
  endpoints : (∃ d ∈ ((descriptors buf).filter fun d => IsInterface d).getLast?, IsDefault d) →
    ∀ d ∈ (beyond buf).takeWhile fun d => ¬ IsInterface d, ¬ IsEndpoint d

/-! ## The walk goes from descriptor to descriptor -/

/-- What a descriptor does to the walk. -/
def Walk.step (w : Walk) (d : List UInt8) : Walk :=
  if IsInterface d then
    if IsDefault d then ⟨w.ifaces ++ [⟨number d, 0, []⟩], true⟩ else { w with inAlt0 := false }
  else if IsEndpoint d ∧ w.inAlt0 then { w with ifaces := pushPipe w.ifaces (pipeOf d) }
  else w

/-- A byte of a descriptor is the byte of the buffer there. -/
theorem getElem?_frame {buf : List UInt8} {i n k : ℕ} (hk : k < n) :
    ((buf.drop i).take n)[k]? = buf[i + k]? := by
  rw [List.getElem?_take_of_lt hk, List.getElem?_drop]

/-- A byte that is there is read. -/
theorem getElem?_eq_getD {d : List UInt8} {k : ℕ} (hk : k < d.length) :
    d[k]? = some (d.getD k 0) := by
  rw [List.getD_eq_getElem?_getD, List.getElem?_eq_getElem hk]
  rfl

/-- To visit an index is to look at the descriptor there. -/
theorem visit_eq {buf : List UInt8} {i : ℕ} {len dtype : UInt8} (hdtype : buf[i + 1]? = some dtype)
    (hend : i + len.toNat ≤ buf.length) (w : Walk) :
    visit buf i len dtype w = some (w.step ((buf.drop i).take len.toNat)) := by
  have hlen : ((buf.drop i).take len.toNat).length = len.toNat := by
    rw [List.length_take, List.length_drop]
    omega
  have hget : ∀ k, k < len.toNat → buf[i + k]? = some (((buf.drop i).take len.toNat).getD k 0) := by
    intro k hk
    rw [← getElem?_frame hk]
    exact getElem?_eq_getD (by omega)
  have hle : ∀ n : UInt8, n ≤ len ↔ n.toNat ≤ len.toNat := fun n => UInt8.le_iff_toNat_le
  have htype : 1 < len.toNat → ((buf.drop i).take len.toNat)[1]? = some dtype := fun h => by
    rw [getElem?_frame h, hdtype]
  have hinterface : (dtype = descriptorTypeInterface ∧ 9 ≤ len) ↔
      IsInterface ((buf.drop i).take len.toNat) := by
    rw [IsInterface, hlen, hle]
    change _ ∧ 9 ≤ len.toNat ↔ _
    constructor
    · rintro ⟨hd, hn⟩
      exact ⟨(htype (by omega)).trans (congrArg some hd), hn⟩
    · rintro ⟨hd, hn⟩
      exact ⟨Option.some.inj ((htype (by omega)).symm.trans hd), hn⟩
  have hendpoint : (dtype = descriptorTypeEndpoint ∧ 7 ≤ len) ↔
      IsEndpoint ((buf.drop i).take len.toNat) := by
    rw [IsEndpoint, hlen, hle]
    change _ ∧ 7 ≤ len.toNat ↔ _
    constructor
    · rintro ⟨hd, hn⟩
      exact ⟨(htype (by omega)).trans (congrArg some hd), hn⟩
    · rintro ⟨hd, hn⟩
      exact ⟨Option.some.inj ((htype (by omega)).symm.trans hd), hn⟩
  unfold visit Walk.step
  by_cases hi : IsInterface ((buf.drop i).take len.toNat)
  · have hn : 9 ≤ len.toNat := hlen ▸ hi.2
    have hdefault : IsDefault ((buf.drop i).take len.toNat) ↔
        ((buf.drop i).take len.toNat).getD 3 0 = 0 := by
      rw [IsDefault, getElem?_eq_getD (by omega), Option.some.injEq]
      exact and_iff_right hi
    rw [if_pos (hinterface.mpr hi), if_pos hi, hget 2 (by omega), hget 3 (by omega)]
    simp only [Option.bind_eq_bind, Option.bind_some]
    by_cases hd : IsDefault ((buf.drop i).take len.toNat)
    · rw [if_pos (hdefault.mp hd), if_pos hd]
      rfl
    · rw [if_neg (mt hdefault.mpr hd), if_neg hd]
      rfl
  · rw [if_neg (mt hinterface.mp hi), if_neg hi]
    by_cases he : IsEndpoint ((buf.drop i).take len.toNat) ∧ w.inAlt0
    · have hn : 7 ≤ len.toNat := hlen ▸ he.1.2
      have hpos := hendpoint.mpr he.1
      rw [if_pos ⟨hpos.1, hpos.2, he.2⟩, if_pos he, u16le, hget 4 (by omega),
        show i + 4 + 1 = i + 5 from rfl, hget 5 (by omega)]
      rfl
    · rw [if_neg (fun h => he ⟨hendpoint.mp ⟨h.1, h.2.1⟩, h.2.2⟩), if_neg he]
      rfl

/-- The walk ends, reads nothing out of range and looks at the descriptors in turn. -/
theorem walk_eq {buf : List UInt8} {fuel i : ℕ} (hfuel : buf.length - i < fuel) (w : Walk) :
    walk buf fuel i w = some ((chain.frames (buf.drop i)).foldl Walk.step w) := by
  rw [← chain.consume_frames Walk.step]
  induction fuel generalizing i w with
  | zero => exact absurd hfuel (Nat.not_lt_zero _)
  | succ fuel ih =>
    rw [walk]
    split
    · next hheader =>
      have hlen : buf[i]? = some buf[i] := List.getElem?_eq_getElem (by omega)
      have hdtype : buf[i + 1]? = some buf[i + 1] := List.getElem?_eq_getElem (by omega)
      have hdrop : buf.drop i = buf[i] :: buf[i + 1] :: buf.drop (i + 2) := by
        rw [List.drop_eq_getElem_cons (by omega), List.drop_eq_getElem_cons (by omega)]
      rw [hlen, hdtype]
      simp only [Option.bind_eq_bind, Option.bind_some]
      generalize buf[i] = len at hdrop ⊢
      split
      · next hstop =>
        have hcut : chain.cut (buf.drop i) = none := by
          by_cases hzero : len = 0
          · have hframe : chain.frameLen (buf.drop i) = none := by
              rw [hdrop]
              exact if_pos hzero
            rw [Framer.cut, hframe]
          · have hframe : chain.frameLen (buf.drop i) = some len.toNat := by
              rw [hdrop]
              exact if_neg hzero
            have hshort : buf.length < i + len.toNat := hstop.resolve_left hzero
            rw [Framer.cut, hframe]
            dsimp only
            rw [if_pos (by rw [List.length_drop]; omega)]
        rw [chain.consume_of_cut_none Walk.step hcut]
        rfl
      · next hgo =>
        obtain ⟨hne, hfits⟩ := not_or.mp hgo
        have hpos : 0 < len.toNat := Nat.pos_of_ne_zero fun hzero => hne (UInt8.toNat_inj.mp hzero)
        have hcut : chain.cut (buf.drop i) =
            some ((buf.drop i).take len.toNat, buf.drop (i + len.toNat)) := by
          have hframe : chain.frameLen (buf.drop i) = some len.toNat := by
            rw [hdrop]
            exact if_neg hne
          rw [Framer.cut, hframe]
          dsimp only
          rw [if_neg (by rw [List.length_drop]; omega), List.drop_drop]
        rw [visit_eq hdtype (by omega), Option.bind_some,
          chain.consume_of_cut_some Walk.step hcut]
        exact ih (by omega) _
    · next hheader =>
      have hcut : chain.cut (buf.drop i) = none := by
        have hshort : (buf.drop i).length < 2 := by
          rw [List.length_drop]
          omega
        rw [Framer.cut]
        generalize buf.drop i = rest at hshort ⊢
        cases rest with
        | nil => rfl
        | cons len tail =>
          cases tail with
          | nil => rfl
          | cons dtype tail =>
            simp only [List.length_cons] at hshort
            omega
      rw [chain.consume_of_cut_none Walk.step hcut]
      rfl

/-! ## The entries of a walk -/

/-- Add pipes to the last entry while its endpoints follow. -/
def attach (inAlt0 : Bool) (pipes : List PipeInfo) (ifaces : List InterfaceInfo) :
    List InterfaceInfo :=
  if inAlt0 then pipes.foldl pushPipe ifaces else ifaces

/-- Whether the last interface descriptor is one of the default setting. -/
def alt0After (inAlt0 : Bool) (ds : List (List UInt8)) : Bool :=
  ds.foldl (fun b d => if IsInterface d then decide (IsDefault d) else b) inAlt0

theorem alt0After_cons (inAlt0 : Bool) (d : List UInt8) (rest : List (List UInt8)) :
    alt0After inAlt0 (d :: rest) =
      alt0After (if IsInterface d then decide (IsDefault d) else inAlt0) rest := rfl

/-- Pipes are added to the last entry. -/
theorem foldl_pushPipe (pipes : List PipeInfo) (ifaces : List InterfaceInfo) (e : InterfaceInfo) :
    pipes.foldl pushPipe (ifaces ++ [e]) = ifaces ++ [{ e with pipes := e.pipes ++ pipes }] := by
  induction pipes generalizing e with
  | nil =>
    rw [List.foldl_nil, List.append_nil]
  | cons p rest ih =>
    have hpush : pushPipe (ifaces ++ [e]) p = ifaces ++ [{ e with pipes := e.pipes ++ [p] }] := by
      unfold pushPipe
      rw [List.getLast?_concat, List.dropLast_concat]
    rw [List.foldl_cons, hpush, ih, List.append_assoc]
    rfl

/-- Pipes are added to no entry but the last. -/
theorem length_foldl_pushPipe (pipes : List PipeInfo) (ifaces : List InterfaceInfo) :
    (pipes.foldl pushPipe ifaces).length = ifaces.length := by
  induction ifaces using List.reverseRecOn with
  | nil =>
    induction pipes with
    | nil => rfl
    | cons p rest ih => exact ih
  | append_singleton front e =>
    rw [foldl_pushPipe, List.length_append, List.length_append]
    rfl

/-- The pipes in front of the first interface descriptor, by the first descriptor. -/
theorem pipesOf_cons (d : List UInt8) (rest : List (List UInt8)) :
    pipesOf (d :: rest) =
      if IsInterface d then []
      else if IsEndpoint d then pipeOf d :: pipesOf rest
      else pipesOf rest := by
  unfold pipesOf
  by_cases hi : IsInterface d
  · rw [if_pos hi, List.takeWhile_cons_of_neg (by simpa using hi)]
    rfl
  · rw [if_neg hi, List.takeWhile_cons_of_pos (by simpa using hi)]
    by_cases he : IsEndpoint d
    · rw [if_pos he, List.filter_cons_of_pos (by simpa using he), List.map_cons]
    · rw [if_neg he, List.filter_cons_of_neg (by simpa using he)]

/-- A walk adds to the last entry what belongs to it, and an entry for each interface descriptor
of the default setting. -/
theorem foldl_step (ds : List (List UInt8)) (w : Walk) :
    ds.foldl Walk.step w =
      ⟨attach w.inAlt0 (pipesOf ds) w.ifaces ++ entries ds, alt0After w.inAlt0 ds⟩ := by
  induction ds generalizing w with
  | nil =>
    have hattach : attach w.inAlt0 (pipesOf []) w.ifaces = w.ifaces := by
      unfold attach
      split <;> rfl
    rw [hattach]
    change w = ⟨w.ifaces ++ [], w.inAlt0⟩
    rw [List.append_nil]
  | cons d rest ih =>
    rw [List.foldl_cons, ih, pipesOf_cons, entries, alt0After_cons]
    unfold Walk.step
    by_cases hi : IsInterface d
    · have hnone : attach w.inAlt0 [] w.ifaces = w.ifaces := by
        unfold attach
        split <;> rfl
      rw [if_pos hi, if_pos hi, if_pos hi, hnone]
      by_cases hd : IsDefault d
      · rw [if_pos hd, if_pos hd, decide_eq_true hd]
        have hlast : attach true (pipesOf rest) (w.ifaces ++ [⟨number d, 0, []⟩]) =
            w.ifaces ++ [⟨number d, 0, pipesOf rest⟩] := foldl_pushPipe _ _ _
        rw [hlast, List.append_assoc]
        rfl
      · rw [if_neg hd, if_neg hd, decide_eq_false hd]
        rfl
    · have hd : ¬ IsDefault d := fun hd => hi hd.1
      rw [if_neg hi, if_neg hi, if_neg hi, if_neg hd]
      by_cases he : IsEndpoint d
      · cases hflag : w.inAlt0 with
        | true =>
          rw [if_pos ⟨he, rfl⟩, if_pos he]
          rfl
        | false =>
          rw [if_neg (fun h => Bool.noConfusion h.2), hflag]
          rfl
      · rw [if_neg (fun h => he h.1), if_neg he]

/-- The entries of a longer chain: what follows may add pipes to the last entry of its front, and
entries of its own. -/
theorem entries_append (ds more : List (List UInt8)) :
    entries (ds ++ more) =
      attach (alt0After false ds) (pipesOf more) (entries ds) ++ entries more := by
  have hwhole := foldl_step (ds ++ more) ⟨[], false⟩
  rw [List.foldl_append, foldl_step ds, foldl_step more] at hwhole
  exact (congrArg Walk.ifaces hwhole).symm

/-- There is one entry for each descriptor of the default setting. -/
theorem map_entries (ds : List (List UInt8)) :
    (entries ds).map InterfaceInfo.interfaceNumber =
      (ds.filter fun d => IsDefault d).map number := by
  induction ds with
  | nil => rfl
  | cons d rest ih =>
    rw [entries]
    by_cases hd : IsDefault d
    · rw [if_pos hd, List.map_cons, ih, List.filter_cons_of_pos (by simpa using hd), List.map_cons]
    · rw [if_neg hd, ih, List.filter_cons_of_neg (by simpa using hd)]

/-- There is no entry where there is no descriptor of the default setting. -/
theorem entries_eq_nil_iff (ds : List (List UInt8)) :
    entries ds = [] ↔ ∀ d ∈ ds, ¬ IsDefault d := by
  rw [← List.map_eq_nil_iff (f := InterfaceInfo.interfaceNumber), map_entries, List.map_eq_nil_iff,
    List.filter_eq_nil_iff]
  simp only [decide_eq_true_eq]

/-- There is no pipe where there is no endpoint in front of the next interface descriptor. -/
theorem pipesOf_eq_nil_iff (ds : List (List UInt8)) :
    pipesOf ds = [] ↔ ∀ d ∈ ds.takeWhile fun d => ¬ IsInterface d, ¬ IsEndpoint d := by
  rw [pipesOf, List.map_eq_nil_iff, List.filter_eq_nil_iff]
  simp only [decide_eq_true_eq]

/-- A chain ends in the default setting when its last interface descriptor is of it. -/
theorem alt0After_iff (ds : List (List UInt8)) :
    alt0After false ds = true ↔
      ∃ d ∈ (ds.filter fun d => IsInterface d).getLast?, IsDefault d := by
  induction ds using List.reverseRecOn with
  | nil => exact ⟨nofun, nofun⟩
  | append_singleton front d ih =>
    have hlast : alt0After false (front ++ [d]) =
        if IsInterface d then decide (IsDefault d) else alt0After false front := by
      rw [alt0After, List.foldl_append]
      rfl
    rw [hlast, List.filter_append]
    by_cases hi : IsInterface d
    · rw [if_pos hi, List.filter_cons_of_pos (by simpa using hi), List.filter_nil,
        List.getLast?_concat]
      simp
    · rw [if_neg hi, List.filter_cons_of_neg (by simpa using hi), List.filter_nil,
        List.append_nil]
      exact ih

/-! ## One entry for each number -/

theorem firsts_sublist (es : List InterfaceInfo) : (firsts es).Sublist es := by
  induction es with
  | nil => exact List.Sublist.slnil
  | cons e rest ih => exact (List.filter_sublist.trans ih).cons_cons e

/-- Every entry is the first of its number when no two have one number. -/
theorem firsts_eq_self_iff (es : List InterfaceInfo) :
    firsts es = es ↔ (es.map InterfaceInfo.interfaceNumber).Nodup := by
  induction es with
  | nil => exact iff_of_true rfl List.nodup_nil
  | cons e rest ih =>
    rw [firsts, List.cons.injEq, List.map_cons, List.nodup_cons, ← ih, List.mem_map]
    constructor
    · intro h
      have hsub : ((firsts rest).filter fun f => f.interfaceNumber ≠ e.interfaceNumber).Sublist
          (firsts rest) := List.filter_sublist
      have hlen := hsub.length_le
      rw [h.2] at hlen
      have hrest : firsts rest = rest :=
        (firsts_sublist rest).eq_of_length (Nat.le_antisymm (firsts_sublist rest).length_le hlen)
      rw [hrest, List.filter_eq_self] at h
      refine ⟨?_, hrest⟩
      intro hmem
      obtain ⟨f, hf, hnumber⟩ := hmem
      exact of_decide_eq_true (h.2 f hf) hnumber
    · intro h
      rw [h.2, List.filter_eq_self]
      exact ⟨rfl, fun f hf => decide_eq_true fun hnumber => h.1 ⟨f, hf, hnumber⟩⟩

/-- A walk over a longer chain gives what is expected of its front when no number comes twice in
the front and what follows adds nothing. -/
theorem entries_append_eq_firsts_iff (ds more : List (List UInt8)) :
    entries (ds ++ more) = firsts (entries ds) ↔
      ((entries ds).map InterfaceInfo.interfaceNumber).Nodup ∧ entries more = [] ∧
        (alt0After false ds = true → pipesOf more = []) := by
  rw [entries_append, ← firsts_eq_self_iff]
  have hlen : (attach (alt0After false ds) (pipesOf more) (entries ds)).length =
      (entries ds).length := by
    unfold attach
    split
    · exact length_foldl_pushPipe _ _
    · rfl
  constructor
  · intro h
    have hcount := congrArg List.length h
    rw [List.length_append, hlen] at hcount
    have hle := (firsts_sublist (entries ds)).length_le
    have hmore : entries more = [] := List.length_eq_zero_iff.mp (by omega)
    have hfirsts : firsts (entries ds) = entries ds :=
      (firsts_sublist _).eq_of_length (by omega)
    refine ⟨hfirsts, hmore, ?_⟩
    intro halt
    rw [hmore, List.append_nil, hfirsts, halt] at h
    obtain ⟨d, hd, hdefault⟩ := (alt0After_iff ds).mp halt
    have hmem : d ∈ ds := List.mem_of_mem_filter (List.mem_of_getLast? hd)
    have hne : entries ds ≠ [] := fun hnil => (entries_eq_nil_iff ds).mp hnil d hmem hdefault
    generalize entries ds = es at h hne
    obtain ⟨front, e, rfl⟩ := (List.eq_nil_or_concat' es).resolve_left hne
    have hadded : front ++ [{ e with pipes := e.pipes ++ pipesOf more }] = front ++ [e] :=
      (foldl_pushPipe _ _ _).symm.trans h
    have hpipes := congrArg InterfaceInfo.pipes
      (List.cons.inj (List.append_cancel_left hadded)).1
    exact List.append_right_eq_self.mp hpipes
  · intro h
    rw [h.1, h.2.1, List.append_nil]
    unfold attach
    split
    · next halt =>
      rw [h.2.2 halt]
      rfl
    · rfl

/-- A walk gives what is expected of the configuration's own bytes exactly in a plain one. -/
theorem entries_eq_firsts_iff {buf : List UInt8} :
    entries (chain.frames (buf.drop 9)) = firsts (entries (descriptors buf)) ↔ Plain buf := by
  have hsplit : buf.drop 9 =
      (buf.take (claimed buf)).drop 9 ++ (buf.drop 9).drop (claimed buf - 9) := by
    rw [List.drop_take]
    exact (List.take_append_drop _ _).symm
  obtain ⟨more, hmore⟩ :=
    chain.frames_append ((buf.take (claimed buf)).drop 9) ((buf.drop 9).drop (claimed buf - 9))
  rw [← hsplit] at hmore
  have hbeyond : beyond buf = more := by
    rw [beyond, ← hmore]
    exact List.drop_left
  have hframes : chain.frames (buf.drop 9) = descriptors buf ++ beyond buf := by
    rw [hbeyond, ← hmore]
    rfl
  rw [hframes, entries_append_eq_firsts_iff, map_entries, entries_eq_nil_iff, pipesOf_eq_nil_iff,
    alt0After_iff]
  exact ⟨fun h => ⟨h.1, h.2.1, h.2.2⟩, fun h => ⟨h.distinct, h.interfaces, h.endpoints⟩⟩

/-- The parser ends for every buffer and reads nothing out of range, and it gives the
configuration's own bytes behind its header. Its interfaces are what is expected exactly in a plain
configuration. -/
theorem parse_exact_iff (buf : List UInt8) :
    ∃ result, parseConfiguration buf = some result ∧
      ∀ config ifaces, result = .ok (config, ifaces) →
        config.trailing = (buf.take (claimed buf)).drop 9 ∧
          (ifaces = firsts (entries (descriptors buf)) ↔ Plain buf) := by
  rw [parseConfiguration]
  split
  · exact ⟨_, rfl, nofun⟩
  · next haccepted =>
    obtain ⟨hlen, -⟩ := not_or.mp haccepted
    have hget : ∀ k, k < 9 → buf[k]? = some (buf.getD k 0) := fun k hk =>
      getElem?_eq_getD (by omega)
    have hwalk : walk buf buf.length 9 ⟨[], false⟩ =
        some ((chain.frames (buf.drop 9)).foldl Walk.step ⟨[], false⟩) := walk_eq (by omega) _
    rw [foldl_step] at hwalk
    rw [u16le, hget 0 (by omega), hget 1 (by omega), hget 2 (by omega), hget 3 (by omega),
      hget 4 (by omega), hget 5 (by omega), hget 6 (by omega), hget 7 (by omega),
      hget 8 (by omega), hwalk]
    refine ⟨_, rfl, ?_⟩
    intro config ifaces h
    cases h
    refine ⟨?_, entries_eq_firsts_iff⟩
    change (buf.take (max (claimed buf) 9)).drop 9 = _
    rw [List.drop_take, List.drop_take]
    congr 1
    omega

/-- The program gives a second entry for an interface number that comes twice. -/
theorem not_exact_twice :
    ¬ ∀ (buf : List UInt8) (config : ConfigDesc) (ifaces : List InterfaceInfo),
      parseConfiguration buf = some (.ok (config, ifaces)) →
        ifaces = firsts (entries (descriptors buf)) := by
  intro h
  have htwice := h
    [9, 2, 27, 0, 1, 1, 0, 128, 50, 9, 4, 0, 0, 0, 8, 6, 80, 0, 9, 4, 0, 0, 0, 8, 6, 80, 0] _ _ rfl
  exact absurd htwice (by decide)

end Macrdp.UsbConfiguration
