import Mathlib.Data.List.Basic
import Mathlib.Data.Nat.Basic

/-!
# Numbered files

A directory of files whose names are the numbers from the newest on: `0` is the live file, and the
files of greater numbers are older. A name stands for a file, and a file that is open stays the
same when its name changes. The contents of the files, oldest first, are one sequence, and the
operations on the directory say what becomes of it.
-/

namespace Macrdp.NumberedFiles

/-- The names of a directory and the files, some of which may have no name. -/
structure Disk (α : Type*) where
  names : ℕ → Option ℕ
  files : ℕ → List α
  next : ℕ

variable {α : Type*}

/-- No names and no files. -/
def Disk.empty : Disk α := ⟨fun _ => none, fun _ => [], 0⟩

/-- What is in the file of a name. -/
def Disk.content (d : Disk α) (n : ℕ) : List α := ((d.names n).map d.files).getD []

/-- What is in the files of the names below a bound, oldest first. -/
def Disk.below (d : Disk α) : ℕ → List α
  | 0 => []
  | n + 1 => d.content n ++ d.below n

/-- Give the file of a name another name, in place of the file that has it. -/
def Disk.rename (d : Disk α) (source target : ℕ) : Disk α :=
  { d with names := fun n =>
      if n = source then none else if n = target then d.names source else d.names n }

/-- Remove a name. -/
def Disk.remove (d : Disk α) (name : ℕ) : Disk α :=
  { d with names := fun n => if n = name then none else d.names n }

/-- Give a new empty file a name. -/
def Disk.create (d : Disk α) (name : ℕ) : Disk α :=
  { d with names := fun n => if n = name then some d.next else d.names n, next := d.next + 1 }

/-- Empty a file. -/
def Disk.truncate (d : Disk α) (file : ℕ) : Disk α :=
  { d with files := fun f => if f = file then [] else d.files f }

/-- Write at the end of a file. -/
def Disk.append (d : Disk α) (file : ℕ) (bytes : List α) : Disk α :=
  { d with files := fun f => if f = file then d.files f ++ bytes else d.files f }

/-- Open the file of a name to write at its end, a new one if there is none. -/
def Disk.openAppend (d : Disk α) (name : ℕ) : Disk α × ℕ :=
  match d.names name with
  | some file => (d, file)
  | none => (d.create name, d.next)

/-- Open the file of a name to write it anew. -/
def Disk.openTruncate (d : Disk α) (name : ℕ) : Disk α × ℕ :=
  ((d.openAppend name).1.truncate (d.openAppend name).2, (d.openAppend name).2)

/-- A file has one name at most, files that have one exist, and those that do not are empty. -/
structure Disk.WellFormed (d : Disk α) : Prop where
  unique : ∀ m n f, d.names m = some f → d.names n = some f → m = n
  exist : ∀ n f, d.names n = some f → f < d.next
  blank : ∀ f, d.next ≤ f → d.files f = []

/-- The file has the lowest name that is in use. -/
def Disk.Newest (d : Disk α) (file : ℕ) : Prop :=
  ∃ n, d.names n = some file ∧ ∀ m < n, d.names m = none

variable {d d' : Disk α} {n k file : ℕ}

/-! ## Contents -/

theorem content_of_none (h : d.names n = none) : d.content n = [] := by
  rw [Disk.content, h]
  rfl

theorem content_of_some (h : d.names n = some file) : d.content n = d.files file := by
  rw [Disk.content, h]
  rfl

theorem below_congr (h : ∀ m < k, d'.content m = d.content m) : d'.below k = d.below k := by
  induction k with
  | zero => rfl
  | succ k ih =>
    have hbelow := ih fun m hm => h m (Nat.lt_succ_of_lt hm)
    rw [Disk.below, Disk.below, hbelow, h k (Nat.lt_succ_self k)]

theorem below_eq_nil (h : ∀ m < k, d.content m = []) : d.below k = [] := by
  induction k with
  | zero => rfl
  | succ k ih =>
    have hbelow := ih fun m hm => h m (Nat.lt_succ_of_lt hm)
    rw [Disk.below, hbelow, h k (Nat.lt_succ_self k), List.append_nil]

/-- What is changed below some name and stays from it on changes the whole likewise. -/
theorem below_eq_of_eq (hsame : ∀ m, n ≤ m → d'.content m = d.content m)
    (hbelow : d'.below n = d.below n) (hk : n ≤ k) : d'.below k = d.below k := by
  induction k, hk using Nat.le_induction with
  | base => exact hbelow
  | succ k hk ih => rw [Disk.below, Disk.below, ih, hsame k hk]

/-! ## Renaming -/

/-- Renaming to the next number moves the content, and drops that of the other name. -/
theorem content_rename (d : Disk α) (n m : ℕ) :
    (d.rename n (n + 1)).content m =
      if m = n then [] else if m = n + 1 then d.content n else d.content m := by
  unfold Disk.content Disk.rename
  by_cases hsource : m = n
  · simp only [if_pos hsource]
    rfl
  · simp only [if_neg hsource]
    by_cases htarget : m = n + 1
    · simp only [if_pos htarget]
    · simp only [if_neg htarget]

theorem below_rename_self (d : Disk α) (n : ℕ) :
    (d.rename n (n + 1)).below (n + 2) = d.below (n + 1) := by
  have hlow : (d.rename n (n + 1)).below n = d.below n := by
    refine below_congr fun m hm => ?_
    rw [content_rename, if_neg (by omega), if_neg (by omega)]
  have hsource : (d.rename n (n + 1)).content n = [] := by
    rw [content_rename, if_pos rfl]
  have htarget : (d.rename n (n + 1)).content (n + 1) = d.content n := by
    rw [content_rename, if_neg (by omega), if_pos rfl]
  rw [Disk.below, Disk.below, hlow, hsource, htarget, List.nil_append, Disk.below]

/-- Renaming the last but one drops what the last name has. -/
theorem below_rename_last (d : Disk α) (n : ℕ) :
    d.below (n + 2) = d.content (n + 1) ++ (d.rename n (n + 1)).below (n + 2) := by
  rw [below_rename_self]
  rfl

/-- Renaming to a number that is free changes nothing. -/
theorem below_rename (hfree : d.content (n + 1) = []) (hk : n + 2 ≤ k) :
    (d.rename n (n + 1)).below k = d.below k := by
  refine below_eq_of_eq (n := n + 2) (fun m hm => ?_) ?_ hk
  · rw [content_rename, if_neg (by omega), if_neg (by omega)]
  · rw [below_rename_last d, hfree, List.nil_append]

theorem names_rename_self (d : Disk α) (n target : ℕ) : (d.rename n target).names n = none := by
  simp [Disk.rename]

theorem Disk.WellFormed.rename (h : d.WellFormed) (source target : ℕ) :
    (d.rename source target).WellFormed where
  unique m n f hm hn := by
    simp only [Disk.rename] at hm hn
    have hunique := h.unique
    grind
  exist n f hn := by
    simp only [Disk.rename] at hn
    have hexist := h.exist
    grind [Disk.rename]
  blank := h.blank

/-- The newest file stays the newest when one is renamed to the next number. -/
theorem Disk.Newest.rename (h : d.Newest file) (hsource : d.names n ≠ none) :
    (d.rename n (n + 1)).Newest file := by
  obtain ⟨low, hlow, hfree⟩ := h
  have hle : low ≤ n := by
    by_contra hlt
    exact hsource (hfree n (by omega))
  by_cases heq : low = n
  · refine ⟨n + 1, ?_, fun m hm => ?_⟩
    · simp [Disk.rename, ← heq, hlow]
    · by_cases hm' : m = n
      · simp [Disk.rename, hm']
      · have hnone : d.names m = none := hfree m (by omega)
        have hother : m ≠ n + 1 := by omega
        simp [Disk.rename, hm', hother, hnone]
  · refine ⟨low, ?_, fun m hm => ?_⟩
    · have hother : low ≠ n + 1 := by omega
      simp [Disk.rename, heq, hother, hlow]
    · have hnone : d.names m = none := hfree m hm
      have hsame : m ≠ n := by omega
      have hother : m ≠ n + 1 := by omega
      simp [Disk.rename, hsame, hother, hnone]

/-! ## Creating and removing -/

theorem names_remove_self (d : Disk α) (n : ℕ) : (d.remove n).names n = none := by
  simp [Disk.remove]

theorem Disk.WellFormed.remove (h : d.WellFormed) (name : ℕ) : (d.remove name).WellFormed where
  unique m n f hm hn := by
    simp only [Disk.remove] at hm hn
    exact h.unique m n f (by grind) (by grind)
  exist n f hn := by
    simp only [Disk.remove] at hn
    exact h.exist n f (by grind)
  blank := h.blank

theorem names_create_self (d : Disk α) (n : ℕ) : (d.create n).names n = some d.next := by
  simp [Disk.create]

theorem Disk.WellFormed.create (h : d.WellFormed) (name : ℕ) : (d.create name).WellFormed where
  unique m n f hm hn := by
    simp only [Disk.create] at hm hn
    have hunique := h.unique m n f
    have hm' := h.exist m f
    have hn' := h.exist n f
    grind
  exist n f hn := by
    simp only [Disk.create] at hn ⊢
    have hn' := h.exist n f
    grind
  blank f hf := h.blank f (by simp only [Disk.create] at hf; omega)

/-- A new file where there was none adds nothing. -/
theorem below_create (h : d.WellFormed) (hnone : d.names n = none) :
    (d.create n).below k = d.below k := by
  refine below_congr fun m _ => ?_
  by_cases heq : m = n
  · have hnew : (d.create n).content m = d.files d.next :=
      content_of_some (by simp [Disk.create, heq])
    rw [hnew, h.blank _ (Nat.le_refl _), heq, content_of_none hnone]
  · simp [Disk.content, Disk.create, heq]

theorem newest_create (d : Disk α) : (d.create 0).Newest d.next :=
  ⟨0, by simp [Disk.create], nofun⟩

/-- An empty file stays as it is. -/
theorem truncate_of_blank (h : d.files file = []) : d.truncate file = d := by
  have hfiles : (fun f => if f = file then [] else d.files f) = d.files := by
    funext f
    by_cases heq : f = file
    · rw [if_pos heq, heq, h]
    · rw [if_neg heq]
  rw [Disk.truncate, hfiles]

theorem openAppend_of_some (h : d.names n = some file) : d.openAppend n = (d, file) := by
  rw [Disk.openAppend, h]

theorem openAppend_of_none (h : d.names n = none) : d.openAppend n = (d.create n, d.next) := by
  rw [Disk.openAppend, h]

/-- Where there is no file to be emptied, a new one is created. -/
theorem openTruncate_of_none (hd : d.WellFormed) (h : d.names n = none) :
    d.openTruncate n = (d.create n, d.next) := by
  have hblank : (d.create n).files d.next = [] := hd.blank _ (Nat.le_refl _)
  rw [Disk.openTruncate, openAppend_of_none h, truncate_of_blank hblank]

/-! ## Writing -/

theorem Disk.WellFormed.append (h : d.WellFormed) (hfile : file < d.next) (bytes : List α) :
    (d.append file bytes).WellFormed where
  __ := h
  blank f hf := by
    have hother : f ≠ file := by
      have hle : d.next ≤ f := hf
      omega
    simp only [Disk.append, if_neg hother]
    exact h.blank f hf

/-- What is written to the newest file comes last. -/
theorem below_append (h : d.WellFormed) (hn : d.names n = some file)
    (hfree : ∀ m < n, d.names m = none) (hk : n < k) (bytes : List α) :
    (d.append file bytes).below k = d.below k ++ bytes := by
  induction k, hk using Nat.le_induction with
  | base =>
    have hlow : d.below n = [] := below_eq_nil fun m hm => content_of_none (hfree m hm)
    have hlow' : (d.append file bytes).below n = [] :=
      below_eq_nil fun m hm => content_of_none (hfree m hm)
    have hname : (d.append file bytes).names n = some file := hn
    have hcontent : (d.append file bytes).content n = d.files file ++ bytes := by
      rw [content_of_some hname]
      simp [Disk.append]
    rw [Disk.below, Disk.below, hlow, hlow', hcontent, content_of_some hn, List.append_nil,
      List.append_nil]
  | succ k hk ih =>
    have hcontent : (d.append file bytes).content k = d.content k := by
      cases hname : d.names k with
      | none => rw [content_of_none hname, content_of_none (d := d.append file bytes) hname]
      | some f =>
        have hother : f ≠ file := by
          intro heq
          have hsame := h.unique k n file (by rw [hname, heq]) hn
          omega
        rw [content_of_some hname, content_of_some (d := d.append file bytes) hname]
        simp [Disk.append, hother]
    rw [Disk.below, Disk.below, ih, hcontent, List.append_assoc]

end Macrdp.NumberedFiles
