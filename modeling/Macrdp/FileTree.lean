import Mathlib.Data.List.AList

/-!
# Trees of directories and files

A tree is kept as a table: each object but the root has a number, the number of the directory it
is in, its name there and its content. Numbers are never used again, and the names in a directory
differ. Moving an object touches its own record only, so that whatever is below it moves with it.
-/

namespace Macrdp.FileTree

variable {ν β : Type*}

/-- What an object is. -/
inductive Content (β : Type*) where
  | dir
  | file (bytes : List β)
  deriving DecidableEq

/-- The object is a directory. -/
def Content.isDir : Content β → Bool
  | .dir => true
  | .file _ => false

/-- The length of a file; that of a directory is not used. -/
def Content.size : Content β → ℕ
  | .dir => 0
  | .file bytes => bytes.length

/-- An object other than the root. -/
structure Record (ν β : Type*) where
  parent : ℕ
  name : ν
  content : Content β

/-- A tree. The root has number 0 and no record. -/
structure Tree (ν β : Type*) where
  records : AList fun _ : ℕ => Record ν β
  /-- The number that was given last. -/
  last : ℕ
  rootless : records.lookup 0 = none
  bounded : ∀ i r, records.lookup i = some r → i ≤ last
  unique : ∀ i j r s, records.lookup i = some r → records.lookup j = some s →
    r.parent = s.parent → r.name = s.name → i = j

namespace Tree

/-- The tree of the root alone. -/
def empty : Tree ν β where
  records := ∅
  last := 0
  rootless := AList.lookup_empty 0
  bounded := fun i r h => by rw [AList.lookup_empty] at h; cases h
  unique := fun i j r s h => by rw [AList.lookup_empty] at h; cases h

/-- The record of a number that is not the root's. -/
def record (t : Tree ν β) (i : ℕ) : Option (Record ν β) := t.records.lookup i

/-- What the object of a number is. -/
def content (t : Tree ν β) (i : ℕ) : Option (Content β) :=
  if i = 0 then some .dir else (t.record i).map Record.content

/-- The directory that an object is in; the root is in itself. -/
def parent (t : Tree ν β) (i : ℕ) : ℕ := ((t.record i).map Record.parent).getD 0

/-- The objects in a directory. -/
def children (t : Tree ν β) (d : ℕ) : List (ℕ × Record ν β) :=
  (t.records.entries.map fun e => (e.1, e.2)).filter fun e => e.2.parent = d

variable {t : Tree ν β} {d i : ℕ}

/-- The objects in a directory are those whose record says so. -/
theorem mem_children {r : Record ν β} :
    (i, r) ∈ t.children d ↔ t.record i = some r ∧ r.parent = d := by
  rw [children, List.mem_filter, List.mem_map, decide_eq_true_eq]
  refine and_congr_left fun _ => ?_
  constructor
  · rintro ⟨⟨j, s⟩, hmem, heq⟩
    cases heq
    exact AList.mem_lookup_iff.mpr hmem
  · intro hrecord
    exact ⟨⟨i, r⟩, AList.mem_lookup_iff.mp hrecord, rfl⟩

/-- No object is listed twice. -/
theorem nodup_children (t : Tree ν β) (d : ℕ) : ((t.children d).map Prod.fst).Nodup := by
  have hkeys : ((t.records.entries.map fun e => (e.1, e.2)).map Prod.fst).Nodup := by
    have h := t.records.keys_nodup
    rw [List.map_map]
    exact h
  exact hkeys.sublist ((List.filter_sublist ..).map Prod.fst)

/-- The root has no record. -/
theorem record_zero (t : Tree ν β) : t.record 0 = none := t.rootless

/-- An object with a record is not the root. -/
theorem ne_zero_of_record {r : Record ν β} (h : t.record i = some r) : i ≠ 0 := by
  intro hzero
  rw [hzero, t.record_zero] at h
  cases h

/-- What an object with a record is. -/
theorem content_of_record {r : Record ν β} (h : t.record i = some r) :
    t.content i = some r.content := by
  rw [content, if_neg (ne_zero_of_record h), h]
  rfl

/-- An object that is there is the root or has a record. -/
theorem record_of_content {c : Content β} (h : t.content i = some c)
    (hi : i ≠ 0) : ∃ r, t.record i = some r ∧ r.content = c := by
  rw [content, if_neg hi] at h
  exact Option.map_eq_some_iff.mp h

/-- Replace the bytes of an object that has a record. -/
def put (i : ℕ) (c : Content β) (t : Tree ν β) : Tree ν β :=
  match h : t.record i with
  | none => t
  | some own =>
    { records := t.records.insert i { own with content := c }
      last := t.last
      rootless := by
        rw [AList.lookup_insert_ne (ne_zero_of_record h).symm]
        exact t.rootless
      bounded := by
        intro j r hj
        by_cases hij : j = i
        · rw [hij]
          exact t.bounded i own h
        · rw [AList.lookup_insert_ne hij] at hj
          exact t.bounded j r hj
      unique := by
        have hold : ∀ j r, (t.records.insert i { own with content := c }).lookup j = some r →
            ∃ s, t.records.lookup j = some s ∧ s.parent = r.parent ∧ s.name = r.name := by
          intro j r hj
          by_cases hij : j = i
          · rw [hij, AList.lookup_insert] at hj
            cases hj
            rw [hij]
            exact ⟨own, h, rfl, rfl⟩
          · rw [AList.lookup_insert_ne hij] at hj
            exact ⟨r, hj, rfl, rfl⟩
        intro j k r s hj hk hparent hname
        obtain ⟨r', hr, hrp, hrn⟩ := hold j r hj
        obtain ⟨s', hs, hsp, hsn⟩ := hold k s hk
        exact t.unique j k r' s' hr hs (hrp.trans (hparent.trans hsp.symm))
          (hrn.trans (hname.trans hsn.symm)) }

/-- The records after the bytes of an object were replaced. -/
theorem record_put (t : Tree ν β) (i : ℕ) (c : Content β) (j : ℕ) :
    (t.put i c).record j =
      if j = i then (t.record i).map fun r => { r with content := c } else t.record j := by
  unfold put
  split
  · next h =>
    split
    · next hj => rw [hj, h, Option.map_none]
    · rfl
  · next own h =>
    change (t.records.insert i { own with content := c }).lookup j = _
    split
    · next hj => rw [hj, AList.lookup_insert, h, Option.map_some]
    · next hj => exact AList.lookup_insert_ne hj

/-- Replacing bytes gives out no number. -/
theorem last_put (t : Tree ν β) (i : ℕ) (c : Content β) : (t.put i c).last = t.last := by
  unfold put
  split <;> rfl

/-- Take an object out. -/
def drop (i : ℕ) (t : Tree ν β) : Tree ν β where
  records := t.records.erase i
  last := t.last
  rootless := by
    by_cases hi : 0 = i
    · rw [← hi]
      exact AList.lookup_erase 0 t.records
    · rw [AList.lookup_erase_ne hi]
      exact t.rootless
  bounded := by
    intro j r hj
    by_cases hij : j = i
    · rw [hij, AList.lookup_erase] at hj
      cases hj
    · rw [AList.lookup_erase_ne hij] at hj
      exact t.bounded j r hj
  unique := by
    intro j k r s hj hk
    have hold : ∀ j r, (t.records.erase i).lookup j = some r → t.records.lookup j = some r := by
      intro j r hj
      by_cases hij : j = i
      · rw [hij, AList.lookup_erase] at hj
        cases hj
      · rw [AList.lookup_erase_ne hij] at hj
        exact hj
    exact t.unique j k r s (hold j r hj) (hold k s hk)

/-- The records after an object was taken out. -/
theorem record_drop (t : Tree ν β) (i j : ℕ) :
    (t.drop i).record j = if j = i then none else t.record j := by
  change (t.records.erase i).lookup j = _
  split
  · next hj => rw [hj, AList.lookup_erase]
  · next hj => exact AList.lookup_erase_ne hj

variable [DecidableEq ν]

/-- The object of a name in a directory. -/
def child (t : Tree ν β) (d : ℕ) (n : ν) : Option ℕ :=
  ((t.children d).find? fun e => e.2.name = n).map Prod.fst

/-- Follow names from a directory. -/
def walk (t : Tree ν β) : ℕ → List ν → Option ℕ
  | i, [] => some i
  | i, n :: rest => (t.child i n).bind fun j => t.walk j rest

variable {n : ν}

/-- A name leads to the object whose record says so. -/
theorem child_eq_some_iff :
    t.child d n = some i ↔ ∃ r, t.record i = some r ∧ r.parent = d ∧ r.name = n := by
  constructor
  · intro h
    obtain ⟨⟨j, r⟩, hfind, rfl⟩ := Option.map_eq_some_iff.mp h
    obtain ⟨hrecord, hparent⟩ := mem_children.mp (List.mem_of_find?_eq_some hfind)
    have hname := List.find?_some hfind
    exact ⟨r, hrecord, hparent, of_decide_eq_true hname⟩
  · rintro ⟨r, hrecord, hparent, hname⟩
    have hmem : (i, r) ∈ t.children d := mem_children.mpr ⟨hrecord, hparent⟩
    cases hfind : (t.children d).find? fun e => e.2.name = n with
    | none =>
      have hnot := List.find?_eq_none.mp hfind (i, r) hmem
      exact absurd (decide_eq_true hname) hnot
    | some e =>
      obtain ⟨j, s⟩ := e
      obtain ⟨hs, hsparent⟩ := mem_children.mp (List.mem_of_find?_eq_some hfind)
      have hfound := List.find?_some hfind
      have hsname : s.name = n := of_decide_eq_true hfound
      have hij : j = i := t.unique j i s r hs hrecord (hsparent.trans hparent.symm)
        (hsname.trans hname.symm)
      rw [child, hfind, hij]
      rfl

/-- A path ends with a step into a directory. -/
theorem walk_append (t : Tree ν β) (i : ℕ) (p : List ν) (n : ν) :
    t.walk i (p ++ [n]) = (t.walk i p).bind fun j => t.child j n := by
  induction p generalizing i with
  | nil =>
    change (t.child i n).bind (fun j => some j) = t.child i n
    exact Option.bind_fun_some _
  | cons m rest ih =>
    change (t.child i m).bind (fun j => t.walk j (rest ++ [n])) = _
    cases hchild : t.child i m with
    | none => simp only [walk, hchild, Option.bind_none]
    | some j => simp only [walk, hchild, Option.bind_some, ih]

/-- A new object under a name that is free. -/
def add (d : ℕ) (n : ν) (c : Content β) (t : Tree ν β) (h : t.child d n = none) : Tree ν β where
  records := t.records.insert (t.last + 1) ⟨d, n, c⟩
  last := t.last + 1
  rootless := by
    rw [AList.lookup_insert_ne (Nat.succ_ne_zero _).symm]
    exact t.rootless
  bounded := by
    intro i r hi
    by_cases hnew : i = t.last + 1
    · exact Nat.le_of_eq hnew
    · rw [AList.lookup_insert_ne hnew] at hi
      exact Nat.le_succ_of_le (t.bounded i r hi)
  unique := by
    have hfree : ∀ i r, t.records.lookup i = some r → r.parent = d → r.name ≠ n := by
      intro i r hi hparent hname
      rw [child_eq_some_iff.mpr ⟨r, hi, hparent, hname⟩] at h
      cases h
    intro i j r s hi hj hparent hname
    by_cases hinew : i = t.last + 1
    · by_cases hjnew : j = t.last + 1
      · exact hinew.trans hjnew.symm
      · rw [hinew, AList.lookup_insert] at hi
        rw [AList.lookup_insert_ne hjnew] at hj
        cases hi
        exact absurd hname.symm (hfree j s hj hparent.symm)
    · rw [AList.lookup_insert_ne hinew] at hi
      by_cases hjnew : j = t.last + 1
      · rw [hjnew, AList.lookup_insert] at hj
        cases hj
        exact absurd hname (hfree i r hi hparent)
      · rw [AList.lookup_insert_ne hjnew] at hj
        exact t.unique i j r s hi hj hparent hname

/-- An object gets another place, under a name that is free. -/
def move (i d : ℕ) (n : ν) (t : Tree ν β) (hfree : t.child d n = none) : Tree ν β :=
  match h : t.record i with
  | none => t
  | some own =>
    { records := t.records.insert i { own with parent := d, name := n }
      last := t.last
      rootless := by
        rw [AList.lookup_insert_ne (ne_zero_of_record h).symm]
        exact t.rootless
      bounded := by
        intro j r hj
        by_cases hij : j = i
        · rw [hij]
          exact t.bounded i own h
        · rw [AList.lookup_insert_ne hij] at hj
          exact t.bounded j r hj
      unique := by
        have hother : ∀ j r, t.records.lookup j = some r → r.parent = d → r.name ≠ n := by
          intro j r hj hparent hname
          rw [child_eq_some_iff.mpr ⟨r, hj, hparent, hname⟩] at hfree
          cases hfree
        intro j k r s hj hk hparent hname
        by_cases hji : j = i
        · by_cases hki : k = i
          · exact hji.trans hki.symm
          · rw [hji, AList.lookup_insert] at hj
            rw [AList.lookup_insert_ne hki] at hk
            cases hj
            exact absurd hname.symm (hother k s hk hparent.symm)
        · rw [AList.lookup_insert_ne hji] at hj
          by_cases hki : k = i
          · rw [hki, AList.lookup_insert] at hk
            cases hk
            exact absurd hname (hother j r hj hparent)
          · rw [AList.lookup_insert_ne hki] at hk
            exact t.unique j k r s hj hk hparent hname }

/-- The records after an object was added. -/
theorem record_add {c : Content β} (h : t.child d n = none)
    (j : ℕ) : (t.add d n c h).record j = if j = t.last + 1 then some ⟨d, n, c⟩ else t.record j := by
  change (t.records.insert (t.last + 1) ⟨d, n, c⟩).lookup j = _
  split
  · next hj => rw [hj, AList.lookup_insert]
  · next hj => exact AList.lookup_insert_ne hj

/-- The records after an object was moved. -/
theorem record_move (i : ℕ) (h : t.child d n = none) (j : ℕ) :
    (t.move i d n h).record j =
      if j = i then (t.record i).map fun r => { r with parent := d, name := n }
      else t.record j := by
  unfold move
  split
  · next hnone =>
    split
    · next hj => rw [hj, hnone, Option.map_none]
    · rfl
  · next own hown =>
    change (t.records.insert i { own with parent := d, name := n }).lookup j = _
    split
    · next hj => rw [hj, AList.lookup_insert, hown, Option.map_some]
    · next hj => exact AList.lookup_insert_ne hj

/-- Moving gives out no number. -/
theorem last_move (i : ℕ) (h : t.child d n = none) : (t.move i d n h).last = t.last := by
  unfold move
  split <;> rfl

/-- A new object, if its name is free; its number comes with it. -/
def create (d : ℕ) (n : ν) (c : Content β) (t : Tree ν β) : Option (Tree ν β × ℕ) :=
  if h : t.child d n = none then some (t.add d n c h, t.last + 1) else none

/-- Another place for an object, if the name there is free. -/
def relocate (i d : ℕ) (n : ν) (t : Tree ν β) : Option (Tree ν β) :=
  if h : t.child d n = none then some (t.move i d n h) else none

/-- An object is another or above it; at most so many steps are made upwards. -/
def above (i : ℕ) (t : Tree ν β) : ℕ → ℕ → Bool
  | 0, j => j = i
  | steps + 1, j => j = i || (j ≠ 0 && t.above i steps (t.parent j))

/-- An object is another or somewhere in it. -/
def within (i j : ℕ) (t : Tree ν β) : Bool := t.above i t.records.entries.length j

end Tree

end Macrdp.FileTree
