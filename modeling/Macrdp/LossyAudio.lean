import Mathlib.Algebra.Order.Ring.Nat
import Macrdp.StepSystem

/-!
# The format of the lossy audio waves

The client and the server agree on formats twice: on the static channel, which decides how waves are
encoded, and on a dynamic channel, which decides the number of the format that the waves of the
lossy channel carry. The number is in a cell that is written when the client confirms a training and
never cleared. What is expected is that a wave carries the number of a format of the client's last
list that is the one it is encoded in.
-/

namespace Macrdp.LossyAudio

open StepSystem

/-! ## The dynamic channel -/

/-- The number of a codec in the protocol. -/
abbrev WaveFormat := UInt16

def WaveFormat.pcm : WaveFormat := 0x0001

def WaveFormat.aacMs : WaveFormat := 0xA106

/-- What a client sends on the dynamic channel. -/
inductive ClientAudioOutputPdu where
  | audioFormat (formats : List WaveFormat)
  | qualityMode
  | trainingConfirm
  | waveConfirm

/-- What the server answers on the dynamic channel. -/
inductive ServerAudioOutputPdu where
  | training
  deriving DecidableEq

/-- The reliable dynamic channel: the number of the format that was chosen, and whether the client
has confirmed a training. -/
structure AudioDvc where
  chosenFormatNo : Option ℕ
  trainingConfirmed : Bool
  deriving DecidableEq

/-- The number of a format, or zero if it is too large for one. -/
def formatNo (index : ℕ) : ℕ := if index < 2 ^ 16 then index else 0

/-- Where the format is that is preferred: the compressed one, or else the first. -/
def preferred (formats : List WaveFormat) : Option ℕ :=
  (formats.findIdx? fun f => f == .aacMs).or (if formats.isEmpty then none else some 0)

/-- The channel and the shared number when the client sends something, and the answers. -/
def AudioDvc.process (d : AudioDvc) (negotiated : Option ℕ) :
    ClientAudioOutputPdu → AudioDvc × Option ℕ × List ServerAudioOutputPdu
  | .audioFormat formats =>
    match preferred formats with
    | some index => ({ d with chosenFormatNo := some (formatNo index) }, negotiated, [])
    | none => (d, negotiated, [])
  | .qualityMode => (d, negotiated, [.training])
  | .trainingConfirm =>
    ({ d with trainingConfirmed := true }, d.chosenFormatNo.or negotiated, [])
  | .waveConfirm => (d, negotiated, [])

/-! ## The connection -/

/-- An encoded wave and the codec it is encoded in. -/
structure Wave where
  codec : WaveFormat
  data : List UInt8
  timestamp : UInt32
  deriving DecidableEq

/-- A wave that was sent on the lossy channel, with the client's last list and whether a training
was completed behind it. -/
structure Wave2 where
  blockNo : UInt8
  formatNo : ℕ
  wave : Wave
  formats : Option (List WaveFormat)
  trained : Bool

/-- A connection: the shared number, the dynamic channel, the codec of the capture, the waves it has
put into the queue, and the number of the next block. Recorded are the client's last list, whether a
training is not confirmed yet and whether one was since the list, and the waves of the lossy
channel. -/
structure Connection where
  negotiated : Option ℕ
  dvc : AudioDvc
  codec : Option WaveFormat
  queue : List Wave
  blockNo : UInt8
  formats : Option (List WaveFormat)
  training : Bool
  trained : Bool
  sent : List Wave2

/-- A connection begins with the number that the one before it has left. -/
def Connection.begin (left : Option ℕ) : Connection where
  negotiated := left
  dvc := ⟨none, false⟩
  codec := none
  queue := []
  blockNo := 0
  formats := none
  training := false
  trained := false
  sent := []

/-- What happens on a connection. -/
inductive Action where
  /-- The client sends something on the dynamic channel. -/
  | receive (pdu : ClientAudioOutputPdu)
  /-- The static channel has found formats that both sides have, the best first. -/
  | negotiate (common : List WaveFormat)
  | capture (data : List UInt8) (timestamp : UInt32)
  /-- The capture of an earlier connection puts its last wave into the queue. -/
  | captureLate (wave : Wave)
  /-- The dispatch takes a wave; the flag says whether the lossy channel is there. -/
  | dispatch (live : Bool)
  /-- The dispatch drops a wave. -/
  | drop

/-- The format of the static channel, if there is one. -/
def chooseFormat (common : List WaveFormat) : Option WaveFormat := common.head?

/-- The codec that the capture encodes in. -/
def startCodec (format : WaveFormat) : WaveFormat := if format = .aacMs then .aacMs else .pcm

namespace Connection

/-- The client sends something on the dynamic channel. -/
def receive (c : Connection) (pdu : ClientAudioOutputPdu) : Connection :=
  let r := c.dvc.process c.negotiated pdu
  let after := { c with dvc := r.1, negotiated := r.2.1 }
  match pdu with
  | .audioFormat formats => { after with formats := some formats, trained := false }
  | .qualityMode => { after with training := c.training || r.2.2.contains .training }
  | .trainingConfirm => { after with training := false, trained := c.trained || c.training }
  | .waveConfirm => after

/-- The number that a wave of the lossy channel carries, if it goes there. -/
def lossyAudioTarget (c : Connection) (live : Bool) : Option ℕ :=
  if live then c.negotiated else none

/-- Send a wave on the lossy channel, or on the static one, which is not modelled. -/
def ship (c : Connection) (live : Bool) (wave : Wave) : Connection :=
  match c.lossyAudioTarget live with
  | some formatNo =>
    { c with
      blockNo := c.blockNo + 1
      sent := c.sent ++ [⟨c.blockNo, formatNo, wave, c.formats, c.trained⟩] }
  | none => c

/-- One step; `none` if it cannot happen. -/
def step (c : Connection) : Action → Option Connection
  | .receive pdu => some (c.receive pdu)
  | .negotiate common =>
    some { c with codec := ((chooseFormat common).map startCodec).or c.codec }
  | .capture data timestamp =>
    c.codec.map fun codec => { c with queue := c.queue ++ [⟨codec, data, timestamp⟩] }
  | .captureLate wave => some { c with queue := c.queue ++ [wave] }
  | .dispatch live =>
    match c.queue with
    | [] => none
    | wave :: rest => some (ship { c with queue := rest } live wave)
  | .drop =>
    match c.queue with
    | [] => none
    | _ :: rest => some { c with queue := rest }

end Connection

/-! ## What is expected -/

/-- A wave carries the number of the format it is encoded in, in the client's last list, and a
training was completed behind the list. -/
def Wave2.Valid (w : Wave2) : Prop :=
  w.trained = true ∧ ∃ formats, w.formats = some formats ∧
    formats[w.formatNo]? = some w.wave.codec

/-- All waves of the lossy channel do. -/
def Kept (c : Connection) : Prop := ∀ w ∈ c.sent, w.Valid

/-- The client has confirmed a training since its last list, which has the compressed format among
those that can be numbered exactly if a wave is encoded in it, or else begins with its codec. -/
def Connection.Agreed (c : Connection) (wave : Wave) : Prop :=
  c.trained = true ∧ ∃ first rest, c.formats = some (first :: rest) ∧
    wave.codec = if .aacMs ∈ (first :: rest).take (2 ^ 16) then .aacMs else first

/-- A wave goes to the lossy channel only when the two sides agree. -/
def Matching (c : Connection) : Action → Prop
  | .dispatch live =>
    ∀ wave ∈ c.queue.head?, (c.lossyAudioTarget live).isSome = true → c.Agreed wave
  | _ => True

/-! ## What the number stands for -/

variable {c c' t : Connection} {a : Action} {acts : List Action}

/-- The preferred format of a list that has one. -/
theorem preferred_cons (first : WaveFormat) (rest : List WaveFormat) :
    ∃ index, preferred (first :: rest) = some index ∧
      (first :: rest)[formatNo index]? =
        some (if .aacMs ∈ (first :: rest).take (2 ^ 16) then .aacMs else first) := by
  rw [preferred]
  cases hfind : (first :: rest).findIdx? fun f => f == .aacMs with
  | none =>
    have hnone : ∀ f ∈ first :: rest, f ≠ .aacMs := by
      intro f hf
      have hne := List.findIdx?_eq_none_iff.mp hfind f hf
      exact fun heq => absurd (beq_iff_eq.mpr heq) (Bool.eq_false_iff.mp hne)
    have hmem : ¬WaveFormat.aacMs ∈ (first :: rest).take (2 ^ 16) :=
      fun hin => hnone _ (List.mem_of_mem_take hin) rfl
    refine ⟨0, rfl, ?_⟩
    rw [if_neg hmem]
    rfl
  | some index =>
    refine ⟨index, rfl, ?_⟩
    obtain ⟨hlt, haac, hbefore⟩ := List.findIdx?_eq_some_iff_getElem.mp hfind
    have hvalue : (first :: rest)[index] = .aacMs := beq_iff_eq.mp haac
    rw [formatNo]
    split
    next hsmall =>
      have hmem : WaveFormat.aacMs ∈ (first :: rest).take (2 ^ 16) := by
        rw [← hvalue]
        exact List.mem_take_iff_getElem.mpr ⟨index, by omega, rfl⟩
      rw [if_pos hmem, List.getElem?_eq_getElem hlt, hvalue]
    next hlarge =>
      have hmem : ¬WaveFormat.aacMs ∈ (first :: rest).take (2 ^ 16) := by
        intro hin
        obtain ⟨k, hk, heq⟩ := List.mem_take_iff_getElem.mp hin
        exact hbefore k (by omega) (beq_iff_eq.mpr heq)
      rw [if_neg hmem]
      rfl

/-- For a last list that is not empty its preferred format is chosen, and shared when a training was
completed behind it. -/
structure Inv (c : Connection) : Prop where
  chosen : ∀ first rest, c.formats = some (first :: rest) →
    c.dvc.chosenFormatNo = (preferred (first :: rest)).map formatNo
  shared : ∀ first rest, c.formats = some (first :: rest) → c.trained = true →
    c.negotiated = (preferred (first :: rest)).map formatNo

theorem inv_begin (left : Option ℕ) : Inv (.begin left) :=
  ⟨fun _ _ h => absurd h.symm (Option.some_ne_none _),
    fun _ _ h => absurd h.symm (Option.some_ne_none _)⟩

/-- Everything that the client sends keeps this. -/
theorem Inv.receive (h : Inv c) (pdu : ClientAudioOutputPdu) : Inv (c.receive pdu) := by
  cases pdu with
  | audioFormat formats =>
    constructor
    · intro first rest hformats
      have hlist : formats = first :: rest := Option.some.inj hformats
      obtain ⟨index, hindex, -⟩ := preferred_cons first rest
      rw [Connection.receive, AudioDvc.process, hlist, hindex]
      rfl
    · exact fun first rest hformats htrained => Bool.noConfusion htrained
  | qualityMode | waveConfirm => exact ⟨h.chosen, h.shared⟩
  | trainingConfirm =>
    refine ⟨h.chosen, fun first rest hformats _ => ?_⟩
    obtain ⟨index, hindex, -⟩ := preferred_cons first rest
    have hchosen := h.chosen first rest hformats
    rw [Connection.receive, AudioDvc.process, hchosen, hindex]
    rfl

/-- A wave that is sent leaves the formats alone. -/
theorem ship_formats (c : Connection) (live : Bool) (wave : Wave) :
    (c.ship live wave).formats = c.formats ∧ (c.ship live wave).dvc = c.dvc ∧
      (c.ship live wave).trained = c.trained ∧ (c.ship live wave).negotiated = c.negotiated := by
  rw [Connection.ship]
  split
  · exact ⟨rfl, rfl, rfl, rfl⟩
  · exact ⟨rfl, rfl, rfl, rfl⟩

theorem Inv.ship (h : Inv c) (live : Bool) (wave : Wave) : Inv (c.ship live wave) := by
  obtain ⟨hformats, hdvc, htrained, hnegotiated⟩ := ship_formats c live wave
  constructor
  · intro first rest hlist
    rw [hdvc]
    exact h.chosen first rest (hformats ▸ hlist)
  · intro first rest hlist hdone
    rw [hnegotiated]
    exact h.shared first rest (hformats ▸ hlist) (htrained ▸ hdone)

/-- The waves that wait are not part of it. -/
theorem Inv.queue (h : Inv c) (queue : List Wave) : Inv { c with queue := queue } :=
  ⟨h.chosen, h.shared⟩

theorem Inv.step (h : Inv c) (hs : c.step a = some c') : Inv c' := by
  cases a with
  | receive pdu =>
    cases hs
    exact h.receive pdu
  | negotiate common =>
    cases hs
    exact ⟨h.chosen, h.shared⟩
  | capture data timestamp =>
    obtain ⟨codec, -, hs⟩ := Option.map_eq_some_iff.mp hs
    cases hs
    exact h.queue _
  | captureLate wave =>
    cases hs
    exact h.queue _
  | dispatch live =>
    rw [Connection.step] at hs
    split at hs
    next => cases hs
    next wave rest hqueue =>
      cases hs
      exact (h.queue rest).ship live wave
  | drop =>
    rw [Connection.step] at hs
    split at hs
    next => cases hs
    next wave rest hqueue =>
      cases hs
      exact h.queue rest

/-- A wave that is stamped now is stamped well exactly if the two sides agree. -/
theorem valid_iff_agreed (h : Inv c) {wave : Wave} {number : ℕ}
    (hnumber : c.negotiated = some number) :
    Wave2.Valid ⟨c.blockNo, number, wave, c.formats, c.trained⟩ ↔ c.Agreed wave := by
  have hstamp : ∀ first rest, c.formats = some (first :: rest) → c.trained = true →
      (first :: rest)[number]? =
        some (if .aacMs ∈ (first :: rest).take (2 ^ 16) then .aacMs else first) := by
    intro first rest hformats htrained
    obtain ⟨index, hindex, hget⟩ := preferred_cons first rest
    have hshared := h.shared first rest hformats htrained
    rw [hnumber, hindex, Option.map_some, Option.some.injEq] at hshared
    rw [hshared]
    exact hget
  constructor
  · rintro ⟨htrained, formats, hformats, hget⟩
    cases formats with
    | nil => exact absurd hget.symm (Option.some_ne_none _)
    | cons first rest =>
      have hsame := hstamp first rest hformats htrained
      exact ⟨htrained, first, rest, hformats, Option.some.inj (hget.symm.trans hsame)⟩
  · rintro ⟨htrained, first, rest, hformats, hcodec⟩
    exact ⟨htrained, first :: rest, hformats,
      (hstamp first rest hformats htrained).trans (congrArg some hcodec.symm)⟩

/-- A dispatch keeps what is expected exactly if the two sides agree when the wave goes to the lossy
channel. -/
theorem ship_kept_iff (h : Inv c) (hkept : Kept c) (live : Bool) (wave : Wave) :
    Kept (c.ship live wave) ↔ ((c.lossyAudioTarget live).isSome = true → c.Agreed wave) := by
  rw [Connection.ship]
  cases htarget : c.lossyAudioTarget live with
  | none => exact ⟨fun _ hsome => Bool.noConfusion hsome, fun _ => hkept⟩
  | some number =>
    have hnumber : c.negotiated = some number := by
      rw [Connection.lossyAudioTarget] at htarget
      split at htarget
      · exact htarget
      · cases htarget
    have hvalid := @valid_iff_agreed c h wave number hnumber
    constructor
    · intro hall _
      exact hvalid.mp (hall _ (List.mem_append_right _ (List.mem_singleton.mpr rfl)))
    · intro hagreed w hw
      cases List.mem_append.mp hw with
      | inl hold => exact hkept w hold
      | inr hnew =>
        rw [List.mem_singleton.mp hnew]
        exact hvalid.mpr (hagreed rfl)

/-- A step keeps what is expected exactly if its wave goes to the lossy channel only when the two
sides agree. -/
theorem kept_step_iff (h : Inv c) (hkept : Kept c) (hs : c.step a = some c') :
    Kept c' ↔ Matching c a := by
  have hsame : Matching c a → c'.sent = c.sent → (Kept c' ↔ Matching c a) := by
    intro hmatching hsent
    rw [Kept, hsent]
    exact ⟨fun _ => hmatching, fun _ => hkept⟩
  cases a with
  | receive pdu =>
    cases hs
    refine hsame trivial ?_
    cases pdu <;> rfl
  | negotiate common | captureLate wave =>
    cases hs
    exact hsame trivial rfl
  | capture data timestamp =>
    obtain ⟨codec, -, hs⟩ := Option.map_eq_some_iff.mp hs
    cases hs
    exact hsame trivial rfl
  | dispatch live =>
    rw [Connection.step] at hs
    split at hs
    next => cases hs
    next wave rest hqueue =>
      cases hs
      refine (ship_kept_iff (h.queue rest) hkept live wave).trans ?_
      rw [Matching, hqueue, List.head?_cons]
      exact ⟨fun hagreed w hw => Option.some.inj hw ▸ hagreed, fun hall => hall wave rfl⟩
  | drop =>
    rw [Connection.step] at hs
    split at hs
    next => cases hs
    next wave rest hqueue =>
      cases hs
      exact hsame trivial rfl

/-! ## Whole connections -/

/-- For whatever the connection before has left, everything the client sends on the dynamic channel
and all outcomes on the static one: the waves of the lossy channel carry the right numbers exactly
if each goes there only when the client has confirmed a training since its last list, and the list
has the codec of the wave where the server looks for it. -/
theorem kept_iff_matching (left : Option ℕ)
    (hrun : run Connection.step (.begin left) acts = some t) :
    (∀ before u, before <+: acts → run Connection.step (.begin left) before = some u → Kept u) ↔
      Meets Connection.step Matching (.begin left) acts := by
  refine prefixes_iff_meets_of_iff (fun _ => True) (fun c a c' => Inv.step) ?_ (inv_begin left)
    (fun w hw => absurd hw List.not_mem_nil) hrun fun _ _ => trivial
  exact fun c a c' _ h hkept hs => kept_step_iff h hkept hs

/-- The handshake of the dynamic channel. -/
def handshake (formats : List WaveFormat) : List Action :=
  [.receive (.audioFormat formats), .receive .qualityMode, .receive .trainingConfirm]

/-- Both channels agree on the compressed format, and a wave is sent. -/
def agreeing : List Action :=
  [.negotiate [.aacMs, .pcm]] ++ handshake [.pcm, .aacMs] ++ [.capture [1, 2] 0, .dispatch true]

theorem kept_iff_matching_agreeing :
    ∃ t, run Connection.step (.begin none) agreeing = some t ∧
      t.sent.map Wave2.formatNo = [1] ∧
      ((∀ before u, before <+: agreeing →
        run Connection.step (.begin none) before = some u → Kept u) ↔
        Meets Connection.step Matching (.begin none) agreeing) := by
  exact ⟨_, rfl, by decide, kept_iff_matching none rfl⟩

/-- The client sends another list behind the handshake, where the other format comes first. -/
def listedAgain : List Action :=
  [.negotiate [.aacMs, .pcm]] ++ handshake [.aacMs, .pcm] ++
    [.receive (.audioFormat [.pcm, .aacMs]), .receive .qualityMode, .capture [1, 2] 0,
      .dispatch true]

theorem not_always_valid :
    ¬ ∀ (acts : List Action) (t : Connection),
      run Connection.step (.begin none) acts = some t → Kept t := by
  intro h
  have hvalid := h listedAgain _ rfl _ (List.mem_singleton.mpr rfl)
  exact absurd hvalid.1 (by decide)

end Macrdp.LossyAudio
