import Mathlib

/-!
# Messages of the dynamic channels

A message of a dynamic channel is sent in pieces, and the first piece of one that is not short says
how long the whole is. The other end puts the pieces together, and so does the server with what the
client sends. What is expected is that the messages that were sent arrive whole and in their order.
-/

namespace Macrdp.DynamicChannels

/-! ## Pieces of messages -/

/-- The most data that a piece carries. -/
def maxDataSize : ℕ := 1590

/-- A piece of a message. -/
inductive DrdynvcDataPdu where
  /-- The first piece, with the length of the whole message. -/
  | dataFirst (channelId length : ℕ) (data : List UInt8)
  | data (channelId : ℕ) (data : List UInt8)
  deriving DecidableEq

variable {channelId : ℕ} {msg : List UInt8} {ms : List (List UInt8)} {pdus : List DrdynvcDataPdu}

/-- The pieces of a message from an offset on, if its length can be written. -/
def encodeFrom (channelId : ℕ) (msg : List UInt8) (off : ℕ) : Option (List DrdynvcDataPdu) :=
  if off < msg.length then
    let size := min (msg.length - off) maxDataSize
    let data := (msg.drop off).take size
    if maxDataSize ≤ msg.length ∧ off = 0 then
      if msg.length < 2 ^ 32 then
        (encodeFrom channelId msg (off + size)).map (.dataFirst channelId msg.length data :: ·)
      else none
    else (encodeFrom channelId msg (off + size)).map (.data channelId data :: ·)
  else some []
termination_by msg.length - off
decreasing_by all_goals simp only [maxDataSize]; omega

/-- The pieces of some messages. -/
def encodeDvcMessages (channelId : ℕ) : List (List UInt8) → Option (List DrdynvcDataPdu)
  | [] => some []
  | msg :: rest => (encodeFrom channelId msg 0).bind fun first =>
      (encodeDvcMessages channelId rest).map (first ++ ·)

/-- What has arrived of a message. -/
structure CompleteData where
  totalSize : ℕ
  data : List UInt8
  deriving DecidableEq

namespace CompleteData

def new : CompleteData := ⟨0, []⟩

/-- Take in a piece; perhaps a message is complete. -/
def processData (c : CompleteData) : DrdynvcDataPdu → CompleteData × Option (List UInt8)
  | .dataFirst _ length data =>
    let c := if c.totalSize ≠ 0 ∨ c.data ≠ [] then { c with data := [] } else c
    if length = data.length then (c, some data) else (⟨length, data⟩, none)
  | .data _ data =>
    if c.totalSize = 0 ∧ c.data = [] then (c, some data)
    else
      match compare (c.data.length + data.length) c.totalSize with
      | .lt => ({ c with data := c.data ++ data }, none)
      | .eq => (new, some (c.data ++ data))
      | .gt => (new, none)

/-- Take in some pieces; the messages that are complete then. -/
def deliver : CompleteData → List DrdynvcDataPdu → CompleteData × List (List UInt8)
  | c, [] => (c, [])
  | c, pdu :: rest =>
    let r := c.processData pdu
    ((r.1.deliver rest).1, r.2.toList ++ (r.1.deliver rest).2)

theorem deliver_append (c : CompleteData) (first second : List DrdynvcDataPdu) :
    c.deliver (first ++ second) = (((c.deliver first).1.deliver second).1,
      (c.deliver first).2 ++ ((c.deliver first).1.deliver second).2) := by
  induction first generalizing c with
  | nil => rfl
  | cons pdu rest ih => simp only [List.cons_append, deliver, ih, List.append_assoc]

/-- The rest of a message completes it. -/
theorem deliver_rest {off : ℕ} (hoff : 0 < off) (hmore : off < msg.length)
    (h : encodeFrom channelId msg off = some pdus) :
    (⟨msg.length, msg.take off⟩ : CompleteData).deliver pdus = (new, [msg]) := by
  induction hleft : msg.length - off using Nat.strong_induction_on generalizing off pdus with
  | _ left ih =>
    rw [encodeFrom, if_pos hmore, if_neg (by omega)] at h
    obtain ⟨rest, hrest, rfl⟩ := Option.map_eq_some_iff.mp h
    have hlength : ((msg.drop off).take (min (msg.length - off) maxDataSize)).length =
        min (msg.length - off) maxDataSize := by
      rw [List.length_take, List.length_drop]
      omega
    have htake : msg.take off ++ (msg.drop off).take (min (msg.length - off) maxDataSize) =
        msg.take (off + min (msg.length - off) maxDataSize) := List.take_add.symm
    have hbusy : ¬(msg.length = 0 ∧ msg.take off = []) := by omega
    rw [deliver, processData, if_neg hbusy, hlength, htake, List.length_take_of_le hmore.le]
    by_cases hlast : off + min (msg.length - off) maxDataSize = msg.length
    · rw [encodeFrom, if_neg (by omega)] at hrest
      cases hrest
      rw [hlast, compare_eq_iff_eq.mpr rfl, List.take_length]
      rfl
    · have hlt : off + min (msg.length - off) maxDataSize < msg.length := by omega
      have hstep : 0 < maxDataSize := by decide
      rw [compare_lt_iff_lt.mpr hlt]
      exact ih _ (by omega) (by omega) hlt hrest rfl

end CompleteData

open CompleteData

section Messages

variable (c : CompleteData)

/-- A message that fits a piece is one piece. -/
theorem encodeFrom_short (hshort : msg.length < maxDataSize) (hne : msg ≠ [])
    (h : encodeFrom channelId msg 0 = some pdus) : pdus = [.data channelId msg] := by
  have hpos : 0 < msg.length := List.length_pos_iff.mpr hne
  rw [encodeFrom, if_pos hpos, if_neg (by omega)] at h
  obtain ⟨rest, hrest, rfl⟩ := Option.map_eq_some_iff.mp h
  have hsize : min (msg.length - 0) maxDataSize = msg.length := by omega
  rw [hsize, encodeFrom, if_neg (by omega)] at hrest
  cases hrest
  rw [hsize, List.drop_zero, List.take_length]

/-- A message that does not fit starts with a piece that has its length. -/
theorem encodeFrom_long (hlong : maxDataSize ≤ msg.length)
    (h : encodeFrom channelId msg 0 = some pdus) :
    ∃ rest, encodeFrom channelId msg maxDataSize = some rest ∧
      pdus = .dataFirst channelId msg.length (msg.take maxDataSize) :: rest := by
  have hpos : 0 < maxDataSize := by decide
  rw [encodeFrom, if_pos (by omega), if_pos ⟨hlong, rfl⟩] at h
  split_ifs at h with hlength
  obtain ⟨rest, hrest, rfl⟩ := Option.map_eq_some_iff.mp h
  have hsize : min (msg.length - 0) maxDataSize = maxDataSize := by omega
  rw [hsize, Nat.zero_add] at hrest
  exact ⟨rest, hrest, by rw [hsize, List.drop_zero]⟩

/-- A message of exactly one full piece is complete at once, and the state it found stays. -/
theorem deliver_exact (hexact : msg.length = maxDataSize)
    (h : encodeFrom channelId msg 0 = some pdus) :
    c.deliver pdus = ({ c with data := [] }, [msg]) := by
  obtain ⟨rest, hrest, rfl⟩ := encodeFrom_long hexact.ge h
  rw [encodeFrom, if_neg (by omega)] at hrest
  cases hrest
  rw [← hexact, List.take_length, deliver, processData, if_pos rfl]
  split_ifs with hbusy
  · rfl
  · rw [not_or, not_not, not_not] at hbusy
    rw [← hbusy.2]
    rfl

/-- A longer message is complete whatever was there before, of which nothing stays. -/
theorem deliver_long (hlong : maxDataSize < msg.length)
    (h : encodeFrom channelId msg 0 = some pdus) : c.deliver pdus = (new, [msg]) := by
  obtain ⟨rest, hrest, rfl⟩ := encodeFrom_long hlong.le h
  have hpart : ¬msg.length = (msg.take maxDataSize).length := by
    rw [List.length_take]
    omega
  have hpos : 0 < maxDataSize := by decide
  rw [deliver, processData, if_neg hpart]
  exact deliver_rest hpos hlong hrest

/-- A receiver that expects nothing takes in every message, and expects nothing again. -/
theorem deliver_encodeDvcMessages (h : encodeDvcMessages channelId ms = some pdus) :
    new.deliver pdus = (new, ms.filter (· ≠ [])) := by
  induction ms generalizing pdus with
  | nil =>
    cases h
    rfl
  | cons msg rest ih =>
    obtain ⟨first, hfirst, hrest⟩ := Option.bind_eq_some_iff.mp h
    obtain ⟨second, hsecond, rfl⟩ := Option.map_eq_some_iff.mp hrest
    have hone : new.deliver first = (new, if msg ≠ [] then [msg] else []) := by
      split_ifs with hne
      · obtain hlt | heq | hgt := lt_trichotomy msg.length maxDataSize
        · rw [encodeFrom_short hlt hne hfirst]
          rfl
        · exact deliver_exact new heq hfirst
        · exact deliver_long new hgt hfirst
      · rw [not_not.mp hne, encodeFrom] at hfirst
        cases hfirst
        rfl
    rw [deliver_append, hone, ih hsecond, List.filter_cons]
    by_cases hne : msg = [] <;> simp [hne]

/-- The answers of a processor, sent call by call, arrive whole and in order. -/
theorem answers_arrive {answers : List (List (List UInt8))} {sent : List (List DrdynvcDataPdu)}
    (h : List.Forall₂ (fun ms pdus => encodeDvcMessages channelId ms = some pdus) answers sent) :
    new.deliver sent.flatten = (new, answers.flatten.filter (· ≠ [])) := by
  induction h with
  | nil => rfl
  | cons hone _ ih =>
    rw [List.flatten_cons, deliver_append, deliver_encodeDvcMessages hone, ih, List.flatten_cons,
      List.filter_append]

/-- An empty message between two others is not sent. -/
theorem answers_arrive_empty : new.deliver [.data 3 [1], .data 3 [2, 4]] = (new, [[1], [2, 4]]) :=
  @answers_arrive 3 [[[1], []], [[2, 4]]] [[.data 3 [1]], [.data 3 [2, 4]]]
    (.cons (by simp [encodeDvcMessages, encodeFrom, maxDataSize])
      (.cons (by simp [encodeDvcMessages, encodeFrom, maxDataSize]) .nil))

end Messages

end Macrdp.DynamicChannels
