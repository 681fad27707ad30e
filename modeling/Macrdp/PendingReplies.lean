import Mathlib.Algebra.Group.Nat.Defs
import Mathlib.Data.List.AList
import Mathlib.Data.List.Nodup

/-!
# Callers that wait for a reply by id

A map has, for each id, the sending end of a channel that carries one reply to the
caller that waits on it. A reply takes its entry out of the map; an entry that is
replaced or dropped releases its caller without one. A caller that gives up leaves
its entry behind.
-/

namespace Macrdp.PendingReplies

/-- A caller: its id, what it waits for, and what became of it. -/
structure Caller (κ γ β : Type*) where
  key : κ
  info : γ
  /-- It gave up. -/
  cancelled : Bool
  /-- The sending end was dropped. -/
  closed : Bool
  received : List β
  deriving DecidableEq

/-- The map of entries, each with the number of its caller, and the callers so far. -/
structure Board (κ γ β : Type*) where
  pending : AList fun _ : κ => ℕ
  callers : List (Caller κ γ β)

variable {κ γ β : Type*}

namespace Caller

/-- A caller begins to wait. -/
def new (key : κ) (info : γ) : Caller κ γ β := ⟨key, info, false, false, []⟩

/-- A caller still waits. -/
def waiting (c : Caller κ γ β) : Bool := !c.cancelled && !c.closed && c.received.isEmpty

/-- A reply is sent to a caller; one that gave up does not get it. -/
def receive (reply : β) (c : Caller κ γ β) : Caller κ γ β :=
  if c.cancelled then c else { c with received := c.received ++ [reply] }

/-- A caller gives up. -/
def cancel (c : Caller κ γ β) : Caller κ γ β := { c with cancelled := true }

/-- The sending end of a caller is dropped. -/
def close (c : Caller κ γ β) : Caller κ γ β := { c with closed := true }

end Caller

/-- No caller waits yet. -/
def Board.empty : Board κ γ β := ⟨∅, []⟩

/-- The elements after one was changed. -/
theorem getElem?_modify_eq {α : Type*} (f : α → α) (l : List α) (i j : ℕ) :
    (l.modify i f)[j]? = if i = j then (l[j]?).map f else l[j]? := by
  rw [List.getElem?_modify]
  by_cases hij : i = j
  · simp [hij]
  · simp [hij]

/-- Ids that are counted in 32 bits do not repeat before they wrap. -/
theorem nodup_ids (first n : ℕ) (hfit : n + first ≤ 2 ^ 32) :
    ((List.range n).map fun k => UInt32.ofNat (k + first)).Nodup := by
  refine List.Nodup.map_on ?_ List.nodup_range
  intro i hi j hj heq
  have hi' : i < n := List.mem_range.mp hi
  have hj' : j < n := List.mem_range.mp hj
  have hleft : (UInt32.ofNat (i + first)).toNat = i + first :=
    UInt32.toNat_ofNat_of_lt' (show i + first < 2 ^ 32 by omega)
  have hright : (UInt32.ofNat (j + first)).toNat = j + first :=
    UInt32.toNat_ofNat_of_lt' (show j + first < 2 ^ 32 by omega)
  rw [heq, hright] at hleft
  omega

namespace Board

/-- A caller gives up; its entry stays. -/
def cancel (i : ℕ) (b : Board κ γ β) : Board κ γ β :=
  { b with callers := b.callers.modify i .cancel }

/-- The map is dropped with all its entries. -/
def drop (b : Board κ γ β) : Board κ γ β :=
  ⟨∅, b.callers.map fun c => if c.waiting then c.close else c⟩

/-- The callers after one gave up. -/
theorem getElem?_cancel (i : ℕ) (b : Board κ γ β) (j : ℕ) :
    (b.cancel i).callers[j]? = if i = j then (b.callers[j]?).map .cancel else b.callers[j]? :=
  getElem?_modify_eq _ _ _ _

variable {b : Board κ γ β} {i : ℕ}

/-- Nobody waits on a map that was dropped. -/
theorem waiting_drop {c : Caller κ γ β} (hc : b.drop.callers[i]? = some c) : c.waiting = false := by
  rw [drop, List.getElem?_map] at hc
  obtain ⟨d, -, rfl⟩ := Option.map_eq_some_iff.mp hc
  split
  · simp [Caller.waiting, Caller.close]
  · next hnot => exact Bool.eq_false_iff.mpr hnot

/-- A caller is as before the map was dropped, but for its sending end. -/
theorem exists_of_drop {c : Caller κ γ β} (hc : b.drop.callers[i]? = some c) :
    ∃ d, b.callers[i]? = some d ∧ c.key = d.key ∧ c.info = d.info ∧ c.received = d.received := by
  rw [drop, List.getElem?_map] at hc
  obtain ⟨d, hd, rfl⟩ := Option.map_eq_some_iff.mp hc
  refine ⟨d, hd, ?_⟩
  split <;> exact ⟨rfl, rfl, rfl⟩

/-- The ids of the callers, in the order they entered. -/
def keys (b : Board κ γ β) : List κ := b.callers.map Caller.key

/-- A change of one caller that keeps its id keeps all ids. -/
theorem map_key_modify (f : Caller κ γ β → Caller κ γ β) (hf : ∀ c, (f c).key = c.key)
    (l : List (Caller κ γ β)) (i : ℕ) : (l.modify i f).map Caller.key = l.map Caller.key := by
  refine List.ext_getElem? fun j => ?_
  rw [List.getElem?_map, List.getElem?_map, getElem?_modify_eq]
  split
  · rw [Option.map_map]
    congr 1
    exact funext hf
  · rfl

/-- A caller that gives up keeps its id. -/
theorem keys_cancel (i : ℕ) (b : Board κ γ β) : (b.cancel i).keys = b.keys :=
  map_key_modify Caller.cancel (fun _ => rfl) b.callers i

/-- Callers of a map that is dropped keep their ids. -/
theorem keys_drop (b : Board κ γ β) : b.drop.keys = b.keys := by
  rw [keys, keys, drop, List.map_map]
  congr 1
  funext c
  dsimp only [Function.comp_apply]
  split <;> rfl

variable [DecidableEq κ]

/-- A caller enters under an id; one whose entry it replaces is released. -/
def register (key : κ) (info : γ) (b : Board κ γ β) : Board κ γ β where
  pending := b.pending.insert key b.callers.length
  callers := (match b.pending.lookup key with
    | some i => b.callers.modify i .close
    | none => b.callers) ++ [.new key info]

/-- A reply goes to the caller that is entered under its id, if there is one. -/
def deliver (key : κ) (reply : β) (b : Board κ γ β) : Board κ γ β :=
  match b.pending.lookup key with
  | some i => ⟨b.pending.erase key, b.callers.modify i (.receive reply)⟩
  | none => b

/-- Each entry is of a caller with its id that got nothing so far, and each caller that waits has
its entry. -/
structure Linked (b : Board κ γ β) : Prop where
  entry : ∀ key i, b.pending.lookup key = some i →
    ∃ c, b.callers[i]? = some c ∧ c.key = key ∧ c.closed = false ∧ c.received = []
  waits : ∀ (i : ℕ) (c : Caller κ γ β), b.callers[i]? = some c → c.waiting = true →
    b.pending.lookup c.key = some i
  received_le : ∀ (i : ℕ) (c : Caller κ γ β), b.callers[i]? = some c → c.received.length ≤ 1

/-- Nobody waits at first. -/
theorem linked_empty : (Board.empty : Board κ γ β).Linked where
  entry := fun key i h => by cases h
  waits := fun i c h => by cases h
  received_le := fun i c h => by cases h

/-- The callers after one has entered. -/
theorem getElem?_register (key : κ) (info : γ) (b : Board κ γ β) (j : ℕ) :
    (b.register key info).callers[j]? =
      if j = b.callers.length then some (.new key info)
      else if b.pending.lookup key = some j then (b.callers[j]?).map .close else b.callers[j]? := by
  have hlen : (match b.pending.lookup key with
      | some i => b.callers.modify i .close
      | none => b.callers).length = b.callers.length := by
    split
    · exact List.length_modify ..
    · rfl
  rw [register]
  by_cases hlast : j = b.callers.length
  · rw [if_pos hlast, List.getElem?_append_right (by omega), hlen, hlast, Nat.sub_self]
    rfl
  · rw [if_neg hlast]
    by_cases hin : j < b.callers.length
    · rw [List.getElem?_append_left (by omega)]
      split
      · next i hlookup =>
        simp only [getElem?_modify_eq, hlookup, Option.some.injEq]
      · next hlookup =>
        rw [hlookup, if_neg (by simp)]
    · rw [List.getElem?_eq_none (by rw [List.length_append, hlen, List.length_singleton]; omega),
        List.getElem?_eq_none (l := b.callers) (by omega)]
      split <;> rfl

/-- The callers after a reply: only the one that is entered under its id got it. -/
theorem getElem?_deliver (key : κ) (reply : β) (b : Board κ γ β) (j : ℕ) :
    (b.deliver key reply).callers[j]? =
      if b.pending.lookup key = some j then (b.callers[j]?).map (.receive reply)
      else b.callers[j]? := by
  unfold deliver
  split
  · next i hlookup => simp only [getElem?_modify_eq, hlookup, Option.some.injEq]
  · next hlookup => rw [hlookup, if_neg (by simp)]

/-- Entering adds an id. -/
theorem keys_register (key : κ) (info : γ) (b : Board κ γ β) :
    (b.register key info).keys = b.keys ++ [key] := by
  rw [keys, register, List.map_append]
  congr 1
  split
  · exact map_key_modify Caller.close (fun _ => rfl) _ _
  · rfl

/-- A reply changes no id. -/
theorem keys_deliver (key : κ) (reply : β) (b : Board κ γ β) : (b.deliver key reply).keys = b.keys := by
  have hreceive : ∀ c : Caller κ γ β, (c.receive reply).key = c.key := by
    intro c
    unfold Caller.receive
    split <;> rfl
  unfold deliver
  split
  · exact map_key_modify (Caller.receive reply) hreceive _ _
  · rfl

/-- A caller that enters has a fresh number. -/
theorem lookup_lt (h : b.Linked) {key : κ}
    (hlookup : b.pending.lookup key = some i) : i < b.callers.length := by
  obtain ⟨c, hc, -⟩ := h.entry key i hlookup
  exact (List.getElem?_eq_some_iff.mp hc).1

/-- A caller's number tells its id. -/
theorem lookup_inj (h : b.Linked) {first second : κ}
    (hfirst : b.pending.lookup first = some i) (hsecond : b.pending.lookup second = some i) :
    first = second := by
  obtain ⟨c, hc, hkey, -⟩ := h.entry first i hfirst
  obtain ⟨d, hd, hkey', -⟩ := h.entry second i hsecond
  rw [hc, Option.some.injEq] at hd
  rw [← hkey, ← hkey', hd]

/-- Entering keeps the links. -/
theorem Linked.register (h : b.Linked) (key : κ) (info : γ) : (b.register key info).Linked := by
  have hpending : ∀ k, (b.register key info).pending.lookup k =
      if k = key then some b.callers.length else b.pending.lookup k := by
    intro k
    by_cases hk : k = key
    · rw [if_pos hk, hk]
      exact AList.lookup_insert _
    · rw [if_neg hk]
      exact AList.lookup_insert_ne hk
  constructor
  · intro k i hlookup
    rw [hpending] at hlookup
    rw [getElem?_register]
    by_cases hk : k = key
    · rw [if_pos hk, Option.some.injEq] at hlookup
      rw [if_pos hlookup.symm]
      exact ⟨.new key info, rfl, hk.symm, rfl, rfl⟩
    · rw [if_neg hk] at hlookup
      have hlt := lookup_lt h hlookup
      have hother : b.pending.lookup key ≠ some i := fun hkey => hk (lookup_inj h hlookup hkey)
      rw [if_neg (by omega), if_neg hother]
      exact h.entry k i hlookup
  · intro i c hc hwaiting
    rw [getElem?_register] at hc
    rw [hpending]
    split at hc
    · next hlast =>
      cases hc
      exact (if_pos rfl).trans (congrArg some hlast.symm)
    · split at hc
      · obtain ⟨d, -, rfl⟩ := Option.map_eq_some_iff.mp hc
        simp [Caller.waiting, Caller.close] at hwaiting
      · next hother =>
        have hlookup := h.waits i c hc hwaiting
        have hkey : c.key ≠ key := by
          intro hkey
          rw [hkey] at hlookup
          exact hother hlookup
        rw [if_neg hkey]
        exact hlookup
  · intro i c hc
    rw [getElem?_register] at hc
    split at hc
    · cases hc
      exact Nat.zero_le 1
    · split at hc
      · obtain ⟨d, hd, rfl⟩ := Option.map_eq_some_iff.mp hc
        exact h.received_le i d hd
      · exact h.received_le i c hc

/-- A reply keeps the links. -/
theorem Linked.deliver (h : b.Linked) (key : κ) (reply : β) : (b.deliver key reply).Linked := by
  cases hentry : b.pending.lookup key with
  | none =>
    have hsame : b.deliver key reply = b := by rw [Board.deliver, hentry]
    rw [hsame]
    exact h
  | some n =>
    have hpending : ∀ k, (b.deliver key reply).pending.lookup k =
        if k = key then none else b.pending.lookup k := by
      intro k
      have heq : (b.deliver key reply).pending = b.pending.erase key := by
        rw [Board.deliver, hentry]
      rw [heq]
      by_cases hk : k = key
      · rw [if_pos hk, hk]
        exact AList.lookup_erase _ _
      · rw [if_neg hk]
        exact AList.lookup_erase_ne hk
    obtain ⟨own, hown, hkey, hopen, hnone⟩ := h.entry key n hentry
    constructor
    · intro k i hlookup
      rw [hpending] at hlookup
      split at hlookup
      · cases hlookup
      · next hk =>
        have hother : b.pending.lookup key ≠ some i := fun hkey => hk (lookup_inj h hlookup hkey)
        rw [getElem?_deliver, if_neg hother]
        exact h.entry k i hlookup
    · intro i c hc hwaiting
      rw [getElem?_deliver] at hc
      split at hc
      · obtain ⟨d, hd, rfl⟩ := Option.map_eq_some_iff.mp hc
        unfold Caller.receive Caller.waiting at hwaiting
        split at hwaiting
        · next hcancelled => simp [hcancelled] at hwaiting
        · simp at hwaiting
      · next hother =>
        have hlookup := h.waits i c hc hwaiting
        have hk : c.key ≠ key := by
          intro hk
          rw [hk] at hlookup
          exact hother hlookup
        rw [hpending, if_neg hk]
        exact hlookup
    · intro i c hc
      rw [getElem?_deliver] at hc
      split at hc
      · next hlookup =>
        obtain ⟨d, hd, rfl⟩ := Option.map_eq_some_iff.mp hc
        obtain ⟨e, he, -, -, hnone'⟩ := h.entry key i hlookup
        rw [hd, Option.some.injEq] at he
        unfold Caller.receive
        split
        · exact h.received_le i d hd
        · rw [he, hnone']
          exact Nat.le_refl 1
      · exact h.received_le i c hc

/-- Giving up keeps the links. -/
theorem Linked.cancel (h : b.Linked) (n : ℕ) : (b.cancel n).Linked := by
  constructor
  · intro key i hlookup
    obtain ⟨c, hc, hkey, hopen, hnone⟩ := h.entry key i hlookup
    rw [getElem?_cancel, hc]
    split
    · exact ⟨c.cancel, rfl, hkey, hopen, hnone⟩
    · exact ⟨c, rfl, hkey, hopen, hnone⟩
  · intro i c hc hwaiting
    rw [getElem?_cancel] at hc
    split at hc
    · obtain ⟨d, -, rfl⟩ := Option.map_eq_some_iff.mp hc
      simp [Caller.waiting, Caller.cancel] at hwaiting
    · exact h.waits i c hc hwaiting
  · intro i c hc
    rw [getElem?_cancel] at hc
    split at hc
    · obtain ⟨d, hd, rfl⟩ := Option.map_eq_some_iff.mp hc
      exact h.received_le i d hd
    · exact h.received_le i c hc

/-- Dropping the map keeps the links. -/
theorem Linked.drop (h : b.Linked) : b.drop.Linked := by
  constructor
  · intro key i hlookup
    cases hlookup
  · intro i c hc hwaiting
    rw [waiting_drop hc] at hwaiting
    cases hwaiting
  · intro i c hc
    obtain ⟨d, hd, -, -, hreceived⟩ := exists_of_drop hc
    rw [hreceived]
    exact h.received_le i d hd

end Board

end Macrdp.PendingReplies
