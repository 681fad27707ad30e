import Mathlib.Data.List.AList

/-!
# Maps with in-place filtering

Association lists with unique keys, under the operations that visit every
entry: keep, rewrite or drop each.
-/

namespace Macrdp.KeyedMap

variable {α β : Type*}

/-- Rewrite every value, or drop its entry. -/
def retain (f : α → β → Option β) (m : AList fun _ : α => β) : AList fun _ : α => β where
  entries := m.entries.filterMap fun e => (f e.1 e.2).map (Sigma.mk e.1)
  nodupKeys := by
    rw [List.nodupKeys_iff_pairwise, List.pairwise_filterMap]
    refine (List.nodupKeys_iff_pairwise.mp m.nodupKeys).imp ?_
    intro e e' hne b hb b' hb'
    obtain ⟨_, -, rfl⟩ := Option.map_eq_some_iff.mp hb
    obtain ⟨_, -, rfl⟩ := Option.map_eq_some_iff.mp hb'
    exact hne

/-- Nothing is added. -/
theorem length_retain_le (f : α → β → Option β) (m : AList fun _ : α => β) :
    (retain f m).entries.length ≤ m.entries.length :=
  List.length_filterMap_le _ _

variable [DecidableEq α]

/-- An entry is there exactly if it was kept. -/
theorem lookup_retain (f : α → β → Option β) (m : AList fun _ : α => β) (a : α) :
    (retain f m).lookup a = (m.lookup a).bind (f a) := by
  ext b
  have hmem : b ∈ (retain f m).lookup a ↔ b ∈ (m.lookup a).bind (f a) := by
    rw [AList.mem_lookup_iff, Option.mem_def, Option.bind_eq_some_iff]
    simp only [retain, List.mem_filterMap, Option.map_eq_some_iff]
    constructor
    · rintro ⟨⟨a', b'⟩, he, c, hc, heq⟩
      cases heq
      exact ⟨b', AList.mem_lookup_iff.mpr he, hc⟩
    · rintro ⟨b', hb', hb⟩
      exact ⟨⟨a, b'⟩, AList.mem_lookup_iff.mp hb', b, hb, rfl⟩
  exact hmem

/-- A key that was there is overwritten; another comes in. -/
theorem length_insert (m : AList fun _ : α => β) (a : α) (b : β) :
    (m.insert a b).entries.length =
      if (m.lookup a).isSome then m.entries.length else m.entries.length + 1 := by
  have hkeys : (m.insert a b).entries.length = (m.keys.erase a).length + 1 := by
    have hlength := congrArg List.length (AList.keys_insert (b := b) (a := a) m)
    rw [AList.keys, List.keys, List.length_map, List.length_cons] at hlength
    exact hlength
  have hlength : m.keys.length = m.entries.length := by
    rw [AList.keys, List.keys, List.length_map]
  rw [hkeys, List.length_erase, hlength]
  cases hlookup : m.lookup a with
  | none =>
    have hnot : a ∉ m.keys := fun hmem => AList.lookup_eq_none.mp hlookup (AList.mem_keys.mpr hmem)
    rw [if_neg hnot]
    rfl
  | some c =>
    have hmem : a ∈ m.keys := AList.mem_keys.mp (AList.lookup_isSome.mp (by rw [hlookup]; rfl))
    have hpos : 0 < m.entries.length := by
      rw [← hlength]
      exact List.length_pos_of_mem hmem
    rw [if_pos hmem]
    change m.entries.length - 1 + 1 = m.entries.length
    omega

/-- Taking a key out adds none, and one that was there is gone. -/
theorem length_erase (m : AList fun _ : α => β) (a : α) :
    (m.erase a).entries.length =
      if a ∈ m then m.entries.length - 1 else m.entries.length := by
  have hkeys : (m.erase a).entries.length = (m.keys.erase a).length := by
    have hlength := congrArg List.length (AList.keys_erase a m)
    rw [AList.keys, List.keys, List.length_map] at hlength
    exact hlength
  have hlength : m.keys.length = m.entries.length := by
    rw [AList.keys, List.keys, List.length_map]
  rw [hkeys, List.length_erase, hlength]
  by_cases ha : a ∈ m
  · rw [if_pos ha, if_pos (AList.mem_keys.mp ha)]
  · rw [if_neg ha, if_neg fun hmem => ha (AList.mem_keys.mpr hmem)]

/-- Taking keys out adds none. -/
theorem length_foldl_erase_le (keys : List α) (m : AList fun _ : α => β) :
    (keys.foldl (fun kept a => kept.erase a) m).entries.length ≤ m.entries.length := by
  induction keys generalizing m with
  | nil => exact Nat.le_refl _
  | cons a rest ih =>
    have hrest := ih (m.erase a)
    rw [length_erase] at hrest
    rw [List.foldl_cons]
    split at hrest <;> omega

end Macrdp.KeyedMap
