import Mathlib.Data.List.Basic

/-!
# Processes that talk over a byte stream

A process reads an exact number of bytes, writes bytes, performs an operation of its
environment, or is done. Its bytes come and go in pieces of any size. A relation tells what a
process comes to once it has read given bytes, another what it comes to once it has written
them, and both are kept by every piece: what a stream carries does not depend on how it is cut.
-/

namespace Macrdp.ByteProcess

variable {β ο ρ α : Type*}

/-- What a process has left to do. -/
inductive Proc (β ο ρ α : Type*) where
  | done (a : α)
  /-- Read exactly so many elements. -/
  | read (n : ℕ) (next : List β → Proc β ο ρ α)
  | write (bytes : List β) (next : Proc β ο ρ α)
  /-- Ask the environment. -/
  | perform (op : ο) (next : ρ → Proc β ο ρ α)

namespace Proc

/-- Reads and writes of nothing take no time. -/
def settle : Proc β ο ρ α → Proc β ο ρ α
  | .done a => .done a
  | .read 0 next => (next []).settle
  | .read (n + 1) next => .read (n + 1) next
  | .write [] next => next.settle
  | .write (b :: bytes) next => .write (b :: bytes) next
  | .perform op next => .perform op next

/-- The result of a process that is done. -/
def result : Proc β ο ρ α → Option α
  | .done a => some a
  | _ => none

variable {p q : Proc β ο ρ α}

/-- Only a process that is done has a result. -/
theorem eq_done_of_result {a : α} (h : p.result = some a) : p = .done a := by
  cases p with
  | done b =>
    cases h
    rfl
  | read n next | write bytes next | perform op next => cases h

variable {n : ℕ} {next : List β → Proc β ο ρ α}

/-- A settled process does not wait for an empty read. -/
theorem read_pos_of_settled (h : p.settle = .read n next) : 0 < n := by
  induction p with
  | done a => cases h
  | read m k ih =>
    cases m with
    | zero => exact ih [] h
    | succ m =>
      cases h
      exact Nat.succ_pos m
  | write bytes k ih =>
    cases bytes with
    | nil => exact ih h
    | cons b bytes => cases h
  | perform op k ih => cases h

/-- A settled process does not wait for an empty write. -/
theorem settle_ne_write_nil (p next : Proc β ο ρ α) : p.settle ≠ .write [] next := by
  intro h
  induction p with
  | done a => cases h
  | read n k ih =>
    cases n with
    | zero => exact ih [] h
    | succ n => cases h
  | write bytes k ih =>
    cases bytes with
    | nil => exact ih h
    | cons b bytes => cases h
  | perform op k ih => cases h

/-- Settling twice is settling once. -/
theorem settle_settle (p : Proc β ο ρ α) : p.settle.settle = p.settle := by
  induction p with
  | done a => rfl
  | read n next ih =>
    cases n with
    | zero => exact ih []
    | succ n => rfl
  | write bytes next ih =>
    cases bytes with
    | nil => exact ih
    | cons b bytes => rfl
  | perform op next ih => rfl

/-- Fed exactly these bytes, a process comes to another. -/
inductive Reads : Proc β ο ρ α → List β → Proc β ο ρ α → Prop
  | refl (p : Proc β ο ρ α) : Reads p [] p
  | read {n : ℕ} {next : List β → Proc β ο ρ α} {bytes rest : List β} {q : Proc β ο ρ α}
      (hlen : bytes.length = n) (hrest : Reads (next bytes) rest q) :
      Reads (.read n next) (bytes ++ rest) q

/-- Once exactly these bytes are written, a process is another. -/
inductive Writes : Proc β ο ρ α → List β → Proc β ο ρ α → Prop
  | refl (p : Proc β ο ρ α) : Writes p [] p
  | write {bytes rest : List β} {next q : Proc β ο ρ α} (hrest : Writes next rest q) :
      Writes (.write bytes next) (bytes ++ rest) q

variable {bytes : List β}

/-- The last read of a process. -/
theorem Reads.last (hlen : bytes.length = n) : Reads (.read n next) bytes (next bytes) := by
  have h := Reads.read hlen (.refl (next bytes))
  rw [List.append_nil] at h
  exact h

/-- The last write of a process. -/
theorem Writes.last (bytes : List β) (next : Proc β ο ρ α) :
    Writes (.write bytes next) bytes next := by
  have h : Writes (.write bytes next) (bytes ++ []) next := .write (.refl next)
  rw [List.append_nil] at h
  exact h

/-- One element is written before the rest. -/
theorem Writes.one {b : β} {rest : List β} {next : Proc β ο ρ α} (h : Writes next rest q) :
    Writes (.write [b] next) (b :: rest) q :=
  Writes.write h

/-- A settled process that has nothing left to write is what it comes to. -/
theorem Writes.eq_of_nil (h : Writes p [] q) (hp : p.settle = p) : p = q := by
  generalize hbytes : ([] : List β) = bytes at h
  cases h with
  | refl => rfl
  | write hrest =>
    rw [(List.append_eq_nil_iff.mp hbytes.symm).1] at hp
    exact absurd hp (settle_ne_write_nil _ _)

/-- A process that does not read has read nothing. -/
theorem Reads.eq_nil (h : Reads p bytes q)
    (hp : ∀ n next, p ≠ .read n next) : bytes = [] ∧ p = q := by
  cases h with
  | refl => exact ⟨rfl, rfl⟩
  | read hlen hrest => exact absurd rfl (hp _ _)

/-- A process that does not write has written nothing. -/
theorem Writes.eq_nil (h : Writes p bytes q)
    (hp : ∀ piece next, p ≠ .write piece next) : bytes = [] ∧ p = q := by
  cases h with
  | refl => exact ⟨rfl, rfl⟩
  | write hrest => exact absurd rfl (hp _ _)

/-- The bytes of a pending read come first. -/
theorem Reads.of_read (h : Reads (.read n next) bytes q) (hq : ∀ m k, q ≠ .read m k) :
    n ≤ bytes.length ∧ Reads (next (bytes.take n)) (bytes.drop n) q := by
  generalize hp : Proc.read n next = p at h
  cases h with
  | refl => exact absurd hp.symm (hq n next)
  | read hlen hrest =>
    cases hp
    rw [List.length_append, List.take_left' hlen, List.drop_left' hlen]
    exact ⟨by omega, hrest⟩

/-- The bytes of a pending write come first. -/
theorem Writes.of_write {piece : List β} {next : Proc β ο ρ α}
    (h : Writes (.write piece next) bytes q) (hq : ∀ other k, q ≠ .write other k) :
    ∃ rest, bytes = piece ++ rest ∧ Writes next rest q := by
  generalize hp : Proc.write piece next = p at h
  cases h with
  | refl => exact absurd hp.symm (hq piece next)
  | write hrest =>
    cases hp
    exact ⟨_, rfl, hrest⟩

/-- Settling a process changes nothing of what it comes to by reading. -/
theorem Reads.settle (h : Reads p bytes q) (hq : q.settle = q) : Reads p.settle bytes q := by
  induction h with
  | refl p =>
    rw [hq]
    exact .refl p
  | @read n next bytes rest q hlen hrest ih =>
    cases n with
    | zero =>
      rw [List.eq_nil_of_length_eq_zero hlen] at ih ⊢
      exact ih hq
    | succ n => exact .read hlen hrest

/-- Settling a process changes nothing of what it comes to by writing. -/
theorem Writes.settle (h : Writes p bytes q) (hq : q.settle = q) : Writes p.settle bytes q := by
  induction h with
  | refl p =>
    rw [hq]
    exact .refl p
  | @write piece rest next q hrest ih =>
    cases piece with
    | nil => exact ih hq
    | cons b piece => exact .write hrest

/-- A settled process that still has bytes to read reads. -/
theorem Reads.exists_read (h : Reads p bytes q) (hb : bytes ≠ []) : ∃ n next, p = .read n next := by
  cases h with
  | refl => exact absurd rfl hb
  | read hlen hrest => exact ⟨_, _, rfl⟩

/-- A process that still has bytes to write writes. -/
theorem Writes.exists_write (h : Writes p bytes q)
    (hb : bytes ≠ []) : ∃ piece next, p = .write piece next := by
  cases h with
  | refl => exact absurd rfl hb
  | write hrest => exact ⟨_, _, rfl⟩

end Proc

/-- A process, with what its pending read has got so far. -/
structure Endpoint (β ο ρ α : Type*) where
  proc : Proc β ο ρ α
  got : List β

namespace Endpoint

/-- A process at its beginning. -/
def start (p : Proc β ο ρ α) : Endpoint β ο ρ α := ⟨p.settle, []⟩

/-- A pending read gets a piece of the input; what is left of the input comes with it. -/
def receive (k : ℕ) (input : List β) (e : Endpoint β ο ρ α) :
    Option (Endpoint β ο ρ α × List β) :=
  match e.proc with
  | .read n next =>
    if 0 < k ∧ k ≤ input.length ∧ e.got.length + k ≤ n then
      some (if e.got.length + k = n then start (next (e.got ++ input.take k))
        else { e with got := e.got ++ input.take k }, input.drop k)
    else none
  | _ => none

/-- A pending write gives a piece to the output. -/
def send (k : ℕ) (output : List β) (e : Endpoint β ο ρ α) : Option (Endpoint β ο ρ α × List β) :=
  match e.proc with
  | .write bytes next =>
    if 0 < k ∧ k ≤ bytes.length then
      some (start (.write (bytes.drop k) next), output ++ bytes.take k)
    else none
  | _ => none

/-- The environment answers a pending operation. -/
def answer (r : ρ) (e : Endpoint β ο ρ α) : Option (ο × Endpoint β ο ρ α) :=
  match e.proc with
  | .perform op next => some (op, start (next r))
  | _ => none

/-- Between two pieces a process is settled, and its pending read is not full. -/
def Settled (e : Endpoint β ο ρ α) : Prop :=
  e.proc.settle = e.proc ∧
    match e.proc with
    | .read n _ => e.got.length < n
    | _ => e.got = []

/-- A process at its beginning is settled. -/
theorem settled_start (p : Proc β ο ρ α) : (start p).Settled := by
  refine ⟨Proc.settle_settle p, ?_⟩
  change (match p.settle with | .read n _ => ([] : List β).length < n | _ => ([] : List β) = [])
  split
  · next hp => exact Proc.read_pos_of_settled hp
  · rfl

variable {k : ℕ} {input : List β} {e e' : Endpoint β ο ρ α}
variable {left output output' : List β} {q : Proc β ο ρ α}

/-- A piece that was received comes off the input and makes the process read on. -/
theorem receive_reads {more : List β} (h : e.receive k input = some (e', left))
    (hreads : Proc.Reads e.proc (e.got ++ input ++ more) q) (hq : q.settle = q)
    (hread : ∀ m next, q ≠ .read m next) : Proc.Reads e'.proc (e'.got ++ left ++ more) q := by
  unfold receive at h
  split at h
  case h_2 => cases h
  case h_1 n next hproc =>
    split at h
    case isFalse => cases h
    case isTrue hk =>
      obtain ⟨-, hinput, hroom⟩ := hk
      rw [hproc] at hreads
      have hcut : e.got ++ input ++ more = e.got ++ input.take k ++ (input.drop k ++ more) := by
        rw [List.append_assoc e.got (input.take k), ← List.append_assoc (input.take k),
          List.take_append_drop, List.append_assoc]
      have hlen : (e.got ++ input.take k).length = e.got.length + k := by
        rw [List.length_append, List.length_take]
        omega
      rw [Option.some.injEq, Prod.mk.injEq] at h
      obtain ⟨rfl, rfl⟩ := h
      by_cases hfull : e.got.length + k = n
      · rw [if_pos hfull]
        have hrest := (hreads.of_read hread).2
        rw [hcut, List.take_left' (hlen.trans hfull), List.drop_left' (hlen.trans hfull)] at hrest
        exact hrest.settle hq
      · rw [if_neg hfull, hproc]
        rw [hcut, ← List.append_assoc] at hreads
        exact hreads

/-- What was received is the front of the input. -/
theorem receive_input (h : e.receive k input = some (e', left)) :
    0 < k ∧ k ≤ input.length ∧ left = input.drop k := by
  unfold receive at h
  split at h
  · split at h
    · next hk =>
      rw [Option.some.injEq, Prod.mk.injEq] at h
      exact ⟨hk.1, hk.2.1, h.2.symm⟩
    · cases h
  · cases h

/-- Receiving leaves a settled process. -/
theorem settled_receive
    (h : e.receive k input = some (e', left)) (hs : e.Settled) : e'.Settled := by
  unfold receive at h
  split at h
  case h_2 => cases h
  case h_1 n next hproc =>
    split at h
    case isFalse => cases h
    case isTrue hk =>
      rw [Option.some.injEq, Prod.mk.injEq] at h
      obtain ⟨rfl, -⟩ := h
      by_cases hfull : e.got.length + k = n
      · rw [if_pos hfull]
        exact settled_start _
      · rw [if_neg hfull]
        refine ⟨hs.1, ?_⟩
        change (match e.proc with
          | .read n _ => (e.got ++ input.take k).length < n
          | _ => e.got ++ input.take k = [])
        rw [hproc]
        change (e.got ++ input.take k).length < n
        rw [List.length_append, List.length_take]
        omega

/-- A settled read takes what there is. -/
theorem receive_ready {n : ℕ} {next : List β → Proc β ο ρ α}
    (hs : e.Settled) (hproc : e.proc = .read n next) (hin : input ≠ []) :
    (e.receive 1 input).isSome := by
  have hroom : e.got.length < n := by
    have h := hs.2
    rw [hproc] at h
    exact h
  have hlen := List.length_pos_of_ne_nil hin
  unfold receive
  rw [hproc]
  change (if 0 < 1 ∧ 1 ≤ input.length ∧ e.got.length + 1 ≤ n then some _ else none).isSome = true
  rw [if_pos ⟨Nat.one_pos, hlen, hroom⟩]
  rfl

/-- A piece that was sent goes to the output and makes the process write on. -/
theorem send_writes {total : List β} (h : e.send k output = some (e', output'))
    (hwrites : Proc.Writes e.proc total q) (hq : q.settle = q)
    (hwrite : ∀ piece next, q ≠ .write piece next) :
    ∃ piece rest, piece ≠ [] ∧ total = piece ++ rest ∧ output' = output ++ piece ∧
      Proc.Writes e'.proc rest q := by
  unfold send at h
  split at h
  case h_2 => cases h
  case h_1 bytes next hproc =>
    split at h
    case isFalse => cases h
    case isTrue hk =>
      rw [Option.some.injEq, Prod.mk.injEq] at h
      obtain ⟨rfl, rfl⟩ := h
      rw [hproc] at hwrites
      obtain ⟨rest, htotal, hrest⟩ := hwrites.of_write hwrite
      have hpiece : (bytes.take k).length = k := by
        rw [List.length_take]
        omega
      refine ⟨bytes.take k, bytes.drop k ++ rest, ?_, ?_, rfl, ?_⟩
      · intro hnil
        rw [hnil] at hpiece
        exact absurd hpiece (Nat.ne_of_lt hk.1)
      · rw [htotal, ← List.append_assoc, List.take_append_drop]
      · exact (Proc.Writes.write hrest).settle hq

/-- Only a pending write is sent, and it has got nothing. -/
theorem send_eq (h : e.send k output = some (e', output')) :
    (∃ bytes next, e.proc = .write bytes next) ∧ e'.got = [] := by
  unfold send at h
  split at h
  · next bytes next hproc =>
    split at h
    · rw [Option.some.injEq, Prod.mk.injEq] at h
      rw [← h.1]
      exact ⟨⟨bytes, next, hproc⟩, rfl⟩
    · cases h
  · cases h

/-- Sending leaves a settled process. -/
theorem settled_send (h : e.send k output = some (e', output')) : e'.Settled := by
  unfold send at h
  split at h
  · split at h
    · rw [Option.some.injEq, Prod.mk.injEq] at h
      rw [← h.1]
      exact settled_start _
    · cases h
  · cases h

/-- A settled write can give a piece. -/
theorem send_ready {bytes : List β} {next : Proc β ο ρ α}
    (hs : e.Settled) (hproc : e.proc = .write bytes next) (output : List β) :
    (e.send 1 output).isSome := by
  have hbytes : 0 < bytes.length := by
    refine List.length_pos_of_ne_nil fun hnil => ?_
    have h := hs.1
    rw [hproc, hnil] at h
    exact Proc.settle_ne_write_nil _ _ h
  unfold send
  rw [hproc]
  change (if 0 < 1 ∧ 1 ≤ bytes.length then some _ else none).isSome = true
  rw [if_pos ⟨Nat.one_pos, hbytes⟩]
  rfl

/-- Only a pending operation is answered. -/
theorem answer_eq {r : ρ} {op : ο} (h : e.answer r = some (op, e')) :
    ∃ next, e.proc = .perform op next ∧ e' = start (next r) := by
  unfold answer at h
  split at h
  · next own next hproc =>
    rw [Option.some.injEq, Prod.mk.injEq] at h
    obtain ⟨rfl, rfl⟩ := h
    exact ⟨next, hproc, rfl⟩
  · cases h

/-- A settled process that has nothing left to read is what it comes to. -/
theorem eq_of_reads_got (hs : e.Settled)
    (h : Proc.Reads e.proc e.got q) (hq : ∀ m next, q ≠ .read m next) : e.proc = q := by
  cases hproc : e.proc with
  | read n next =>
    have hroom := hs.2
    rw [hproc] at hroom h
    have hfull := (h.of_read hq).1
    omega
  | done a | write bytes next | perform op next =>
    rw [hproc] at h
    exact (h.eq_nil nofun).2

end Endpoint

end Macrdp.ByteProcess
