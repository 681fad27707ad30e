import Mathlib.Data.List.MinMax
import Mathlib.Data.List.Nodup

/-!
# A cache of handles that gives up the least recently used

Each entry has a key, a handle and the stamp of its last use. Entries leave the cache by their
keys, or when one more than the capacity were put in; a handle that leaves is passed on to
whoever disposes of it.
-/

namespace Macrdp.LruCache

/-- An entry of the cache. -/
structure Entry (κ ρ : Type*) where
  key : κ
  handle : ρ
  /-- The tick of its last use. -/
  lastUsed : ℕ

/-- The entries and the next tick. -/
structure Cache (κ ρ : Type*) where
  entries : List (Entry κ ρ)
  tick : ℕ

namespace Cache

variable {κ ρ : Type*}

/-- A cache without entries. -/
def empty : Cache κ ρ := ⟨[], 0⟩

/-- The handles in the cache. -/
def handles (c : Cache κ ρ) : List ρ := c.entries.map Entry.handle

/-- Take out the entries whose keys have a property. -/
def takeOut (p : κ → Bool) (c : Cache κ ρ) : Cache κ ρ × List ρ :=
  ({ c with entries := c.entries.filter fun e => !p e.key },
    (c.entries.filter fun e => p e.key).map Entry.handle)

/-- Put in an entry. -/
def insert (key : κ) (handle : ρ) (c : Cache κ ρ) : Cache κ ρ :=
  ⟨c.entries ++ [⟨key, handle, c.tick⟩], c.tick + 1⟩

/-- Each key has one entry, the stamps are of the past, and the capacity is kept. -/
structure Wf (capacity : ℕ) (c : Cache κ ρ) : Prop where
  stamped : ∀ e ∈ c.entries, e.lastUsed < c.tick
  nodup : (c.entries.map Entry.key).Nodup
  length_le : c.entries.length ≤ capacity

variable {c : Cache κ ρ} {e : Entry κ ρ}

/-- The entries that stay. -/
theorem mem_takeOut {p : κ → Bool} :
    e ∈ (c.takeOut p).1.entries ↔ e ∈ c.entries ∧ p e.key = false := by
  simp [takeOut]

/-- The handles that are passed on. -/
theorem mem_taken {p : κ → Bool} {handle : ρ} :
    handle ∈ (c.takeOut p).2 ↔ ∃ e ∈ c.entries, p e.key = true ∧ e.handle = handle := by
  simp [takeOut, and_assoc]

/-- No handle is lost where entries are taken out. -/
theorem count_takeOut [DecidableEq ρ] (p : κ → Bool) (c : Cache κ ρ) (handle : ρ) :
    (c.takeOut p).1.handles.count handle + (c.takeOut p).2.count handle =
      c.handles.count handle := by
  simp only [takeOut, handles]
  induction c.entries with
  | nil => rfl
  | cons e rest ih =>
    cases hp : p e.key with
    | false =>
      rw [List.filter_cons_of_pos (by simp [hp]), List.filter_cons_of_neg (by simp [hp]),
        List.map_cons, List.map_cons, List.count_cons, List.count_cons, ← ih]
      omega
    | true =>
      rw [List.filter_cons_of_neg (by simp [hp]), List.filter_cons_of_pos (by simp [hp]),
        List.map_cons, List.map_cons, List.count_cons, List.count_cons, ← ih]
      omega

variable {capacity : ℕ}

/-- Taking out keeps the cache well formed. -/
theorem Wf.takeOut (h : c.Wf capacity) (p : κ → Bool) :
    (c.takeOut p).1.Wf capacity where
  stamped := fun e he => h.stamped e (mem_takeOut.mp he).1
  nodup := h.nodup.sublist (List.filter_sublist.map Entry.key)
  length_le := (List.length_filter_le _ _).trans h.length_le

variable [DecidableEq κ]

/-- The entry of a key. -/
def find? (key : κ) (c : Cache κ ρ) : Option (Entry κ ρ) :=
  c.entries.find? fun e => e.key = key

/-- The entry of a key is used. -/
def touch (key : κ) (c : Cache κ ρ) : Cache κ ρ :=
  ⟨c.entries.map fun e => if e.key = key then { e with lastUsed := c.tick } else e, c.tick + 1⟩

/-- Take out the least recently used entry of a cache that is too full. -/
def evictLru (capacity : ℕ) (c : Cache κ ρ) : Cache κ ρ × List ρ :=
  if capacity < c.entries.length then
    match c.entries.argmin Entry.lastUsed with
    | some e => c.takeOut fun key => key = e.key
    | none => (c, [])
  else (c, [])

/-- Put in a handle unless its key has one already; what it displaces, or the handle itself, is
passed on. -/
def install (capacity : ℕ) (key : κ) (handle : ρ) (c : Cache κ ρ) : Cache κ ρ × ρ × List ρ :=
  match c.find? key with
  | some e => (c.touch key, e.handle, [handle])
  | none =>
    let evicted := (c.insert key handle).evictLru capacity
    (evicted.1, handle, evicted.2)

/-- A use of a key's entry. -/
theorem mem_touch (key : κ) (he : e ∈ c.entries) :
    ∃ e' ∈ (c.touch key).entries, e'.key = e.key ∧ e'.handle = e.handle := by
  refine ⟨if e.key = key then { e with lastUsed := c.tick } else e,
    List.mem_map.mpr ⟨e, he, rfl⟩, ?_, ?_⟩
  · split <;> rfl
  · split <;> rfl

variable {key : κ}

/-- A use adds no entry. -/
theorem exists_of_mem_touch (he : e ∈ (c.touch key).entries) :
    ∃ e' ∈ c.entries, e'.key = e.key ∧ e'.handle = e.handle := by
  obtain ⟨e', he', rfl⟩ := List.mem_map.mp he
  refine ⟨e', he', ?_, ?_⟩
  · split <;> rfl
  · split <;> rfl

/-- A use keeps the handles. -/
theorem handles_touch (key : κ) (c : Cache κ ρ) : (c.touch key).handles = c.handles := by
  simp only [handles, touch, List.map_map]
  refine List.map_congr_left fun e _ => ?_
  dsimp only [Function.comp_apply]
  split <;> rfl

/-- The entry of a key is in the cache. -/
theorem mem_of_find? (h : c.find? key = some e) : e ∈ c.entries ∧ e.key = key :=
  ⟨List.mem_of_find?_eq_some h, by simpa using List.find?_some h⟩

/-- A key without an entry. -/
theorem key_ne_of_find? (h : c.find? key = none) (he : e ∈ c.entries) : e.key ≠ key := by
  simpa using List.find?_eq_none.mp h e he

/-- A use keeps the cache well formed. -/
theorem Wf.touch (h : c.Wf capacity) (key : κ) : (c.touch key).Wf capacity := by
  constructor
  · intro e he
    obtain ⟨e', he', rfl⟩ := List.mem_map.mp he
    split
    · exact Nat.lt_succ_self c.tick
    · exact Nat.lt_succ_of_lt (h.stamped e' he')
  · have hkeys : (c.touch key).entries.map Entry.key = c.entries.map Entry.key := by
      simp only [Cache.touch, List.map_map]
      refine List.map_congr_left fun e _ => ?_
      dsimp only [Function.comp_apply]
      split <;> rfl
    rw [hkeys]
    exact h.nodup
  · exact (List.length_map _).le.trans h.length_le

/-- What is displaced from a full cache is not what was put in last, and the capacity is kept. -/
theorem evictLru_insert (hpos : 0 < capacity) (h : c.Wf capacity)
    (handle : ρ) (habsent : c.find? key = none) :
    (⟨key, handle, c.tick⟩ ∈ ((c.insert key handle).evictLru capacity).1.entries) ∧
      ((c.insert key handle).evictLru capacity).1.entries.length ≤ capacity := by
  have hlength : (c.insert key handle).entries.length = c.entries.length + 1 := by
    simp [Cache.insert]
  have hmem : (⟨key, handle, c.tick⟩ : Entry κ ρ) ∈ (c.insert key handle).entries := by
    simp [Cache.insert]
  unfold evictLru
  split
  · next hfull =>
    split
    · next victim hvictim =>
      have hvictim' := List.argmin_mem hvictim
      have hold : victim ∈ c.entries := by
        have hfirst : 0 < c.entries.length := by omega
        have hother : c.entries[0] ∈ (c.insert key handle).entries :=
          List.mem_append_left _ (List.getElem_mem hfirst)
        have hle := List.le_of_mem_argmin hother hvictim
        have hlt := h.stamped _ (List.getElem_mem hfirst)
        rcases List.mem_append.mp hvictim' with hmem' | hmem'
        · exact hmem'
        · rw [List.mem_singleton.mp hmem'] at hle
          have htick : c.tick ≤ c.entries[0].lastUsed := hle
          omega
      have hkey := key_ne_of_find? habsent hold
      constructor
      · exact mem_takeOut.mpr ⟨hmem, by simp [Ne.symm hkey]⟩
      · have hshorter : ((c.insert key handle).takeOut fun k => k = victim.key).1.entries.length <
            (c.insert key handle).entries.length :=
          List.length_filter_lt_length_iff_exists.mpr ⟨victim, hvictim', by simp⟩
        have hle := h.length_le
        omega
    · next hnone =>
      rw [List.argmin_eq_none] at hnone
      rw [hnone] at hmem
      cases hmem
  · next hroom => exact ⟨hmem, Nat.le_of_not_lt hroom⟩

/-- Giving up the least recently used entry is taking out entries. -/
theorem exists_evictLru (capacity : ℕ) (c : Cache κ ρ) :
    ∃ p : κ → Bool, c.evictLru capacity = c.takeOut p := by
  have hnone : c.takeOut (fun _ => false) = (c, []) := by
    simp [takeOut]
  unfold evictLru
  split
  · split
    · exact ⟨_, rfl⟩
    · exact ⟨_, hnone.symm⟩
  · exact ⟨_, hnone.symm⟩

/-- Where its key has an entry, a handle is passed on at once; else it is put in, and entries of
other keys may leave. -/
theorem install_cases (hpos : 0 < capacity) (h : c.Wf capacity) (key : κ) (handle : ρ) :
    (∃ e ∈ c.entries, e.key = key ∧
      c.install capacity key handle = (c.touch key, e.handle, [handle])) ∨
    ∃ p : κ → Bool, p key = false ∧
      c.install capacity key handle =
        (((c.insert key handle).takeOut p).1, handle, ((c.insert key handle).takeOut p).2) ∧
      ((c.insert key handle).takeOut p).1.Wf capacity := by
  unfold install
  split
  · next e hfind =>
    obtain ⟨hmem, hkey⟩ := mem_of_find? hfind
    exact .inl ⟨e, hmem, hkey, rfl⟩
  · next hfind =>
    obtain ⟨p, hp⟩ := exists_evictLru capacity (c.insert key handle)
    obtain ⟨hmem, hlength⟩ := evictLru_insert hpos h handle hfind
    rw [hp] at hmem hlength ⊢
    refine .inr ⟨p, (mem_takeOut.mp hmem).2, rfl, ?_, ?_, hlength⟩
    · intro e he
      rcases List.mem_append.mp (mem_takeOut.mp he).1 with hold | hnew
      · exact Nat.lt_succ_of_lt (h.stamped e hold)
      · rw [List.mem_singleton.mp hnew]
        exact Nat.lt_succ_self c.tick
    · have hkeys : ((c.insert key handle).entries.map Entry.key).Nodup := by
        simp only [Cache.insert, List.map_append, List.map_cons, List.map_nil]
        refine List.nodup_append.mpr ⟨h.nodup, List.nodup_singleton _, ?_⟩
        intro k hk k' hk' heq
        obtain ⟨e, he, rfl⟩ := List.mem_map.mp hk
        rw [List.mem_singleton] at hk'
        exact key_ne_of_find? hfind he (heq.trans hk')
      exact hkeys.sublist (List.filter_sublist.map Entry.key)

end Cache

end Macrdp.LruCache
