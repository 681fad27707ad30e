import Macrdp.CacheIndex
import Macrdp.SortedPages

/-!
# Paged scans of a directory

A client reads a directory in pages, each behind the last id of the page before. Every page lists
the directory again, while entries come and go and other calls write to what is known. The scan
goes on where it stopped as long as the entry that it stopped at is still listed.
-/

namespace Macrdp.DirectoryScan

open RedirectedDrive NfsSurface NfsSurface.RdpdrFs SortedPages StepSystem

/-- A page of at most `maxEntries` of a listing behind an id, and whether it is the last. -/
def pageOf (kids : List (ℕ × DirEntry)) (startAfter maxEntries : ℕ) :
    List (ℕ × DirEntry) × Bool :=
  let kids := kids.mergeSort fun a b => a.1 ≤ b.1
  let start := startIndex kids startAfter
  let entries := (kids.drop (min start kids.length)).take maxEntries
  (entries, kids.length ≤ start + entries.length)

variable {kids : List (ℕ × DirEntry)}

/-- The surface answers with a page. -/
theorem readdir_eq {dirid : ℕ} {s s' : RdpdrFs}
    (h : s.listAndCache dirid = (.ok kids, s')) (startAfter maxEntries : ℕ) :
    s.readdir dirid startAfter maxEntries =
      (.ok (.listing
        ((pageOf kids startAfter maxEntries).1.map fun (id, e) =>
          (⟨id, e.name, s'.attr id e.isDir e.size⟩ : NfsDirEntry))
        (pageOf kids startAfter maxEntries).2), s') := by
  rw [readdir, h]
  simp only [pageOf, List.length_map]

/-- A page that is asked for, and what the directory lists then: its names are distinct. -/
structure Page where
  maxEntries : ℕ
  listing : List DirEntry
  pos : 0 < maxEntries
  distinct : (listing.map DirEntry.name).Nodup

/-- A scan, and what the surface knows. -/
structure Scan where
  cache : FsCache
  startAfter : ℕ
  /-- The ids and names on the pages so far. -/
  returned : List (ℕ × String)
  ended : Bool

/-- The scan asks for a page, or another call writes to what is known. -/
inductive Act where
  | page (p : Page)
  | other (w : FsCache.Write)

section

variable (dirid : ℕ) (dirPath : String)

/-- The page that the surface answers with, and what it knows then. -/
def answer (p : Page) (c : FsCache) (startAfter : ℕ) : (List (ℕ × DirEntry) × Bool) × FsCache :=
  let (kids, cache) := c.internAll dirid dirPath p.listing
  (pageOf kids startAfter p.maxEntries, cache)

/-- One step. A scan that has ended asks for no more pages. -/
def step (s : Scan) : Act → Scan
  | .other w => { s with cache := s.cache.apply w }
  | .page p =>
    if s.ended then s
    else
      let ((entries, ended), cache) := answer dirid dirPath p s.cache s.startAfter
      { cache := cache
        startAfter := (entries.getLast?.map Prod.fst).getD s.startAfter
        returned := s.returned ++ entries.map fun r => (r.1, r.2.name)
        ended := ended }

/-- The entry that the scan stopped at is still listed, or nothing that is listed is known by a
smaller id. -/
def Resumes (s : Scan) : Act → Prop
  | .other _ => True
  | .page p =>
    s.startAfter = 0 ∨
      (∃ e ∈ p.listing, s.cache.pathToId.lookup (joinRemote dirPath e.name) = some s.startAfter) ∨
      ∀ e ∈ p.listing, ∀ id,
        s.cache.pathToId.lookup (joinRemote dirPath e.name) = some id → s.startAfter < id

/-- The entry is there: it is listed, and its id is not forgotten. -/
def Present (x : String) (s : Scan) : Act → Prop
  | .other w => ∀ id, s.cache.pathToId.lookup (joinRemote dirPath x) = some id → w ≠ .forget id
  | .page p => x ∈ p.listing.map DirEntry.name

/-- The directory has these entries, and none of them is forgotten. -/
def Settled (names : List String) (s : Scan) : Act → Prop
  | .other w => ∀ x ∈ names, Present dirPath x s (.other w)
  | .page p => (p.listing.map DirEntry.name).Perm names

end

/-- A scan that starts. -/
def Scan.start (c : FsCache) : Scan := ⟨c, 0, [], false⟩

/-- A scan that starts after these writes. -/
def Scan.after (before : List FsCache.Write) : Scan := .start (before.foldl FsCache.apply .new)

/-- The number of pages that are asked for. -/
def pages (acts : List Act) : ℕ :=
  acts.countP fun
    | .page _ => true
    | .other _ => false

/-! ## One page -/

variable {dirPath : String}

/-- Joined paths of one directory differ in the names. -/
theorem joinRemote_inj {x y : String} (h : joinRemote dirPath x = joinRemote dirPath y) :
    x = y := by
  have hlist := congrArg String.toList h
  rw [toList_joinRemote, toList_joinRemote] at hlist
  exact String.toList_injective (List.cons.inj (List.append_cancel_left hlist)).2

variable {c : FsCache}

/-- The entries of a listing get distinct ids. -/
theorem nodup_ids (hc : c.Indexed) (dirid : ℕ) (dirPath : String)
    {listing : List DirEntry} (h : (listing.map DirEntry.name).Nodup) :
    ((c.internAll dirid dirPath listing).1.map Prod.fst).Nodup := by
  obtain ⟨hmap, hids⟩ := hc.internAll_spec dirid dirPath listing
  have hnames : ((c.internAll dirid dirPath listing).1.map fun r => r.2.name).Nodup := by
    rw [← hmap, List.map_map] at h
    exact h
  refine List.Nodup.map_on ?_ (List.Nodup.of_map _ hnames)
  intro r hr q hq heq
  have hname : r.2.name = q.2.name := by
    have hrp := hids r hr
    have hqp := hids q hq
    have hc' : (c.internAll dirid dirPath listing).2.Indexed := by
      rw [FsCache.internAll_eq]
      exact hc.foldl _
    obtain ⟨n, hn, hnp⟩ := (hc'.path _ _).mp hrp
    obtain ⟨m, hm, hmp⟩ := (hc'.path _ _).mp hqp
    rw [heq, hm] at hn
    cases hn
    exact joinRemote_inj (hnp.symm.trans hmp)
  exact List.inj_on_of_nodup_map hnames hr hq hname

/-- Distinct ids are sorted strictly. -/
theorem ascending_mergeSort (h : (kids.map Prod.fst).Nodup) :
    Ascending Prod.fst (kids.mergeSort fun a b => a.1 ≤ b.1) := by
  have hsorted : (kids.mergeSort fun a b => a.1 ≤ b.1).Pairwise fun a b => a.1 ≤ b.1 := by
    have hle : (kids.mergeSort fun a b => a.1 ≤ b.1).Pairwise
        fun a b => decide (a.1 ≤ b.1) = true := List.pairwise_mergeSort
      (fun a b c hab hbc => by
        simp only [decide_eq_true_eq] at hab hbc ⊢
        omega)
      (fun a b => by
        simp only [Bool.or_eq_true, decide_eq_true_eq]
        omega) kids
    exact hle.imp fun hab => of_decide_eq_true hab
  have hnodup : (kids.mergeSort fun a b => a.1 ≤ b.1).Pairwise fun a b => a.1 ≠ b.1 := by
    have hperm := (List.mergeSort_perm kids fun a b => a.1 ≤ b.1).map Prod.fst
    exact List.pairwise_map.mp (hperm.nodup_iff.mpr h)
  exact (hsorted.and hnodup).imp fun hab => lt_of_le_of_ne hab.1 hab.2

/-- The index to go on at is within the listing. -/
theorem startIndex_cases (kids : List (ℕ × DirEntry)) (startAfter : ℕ) :
    startIndex kids startAfter = 0 ∨
      ∃ p, ∃ hp : p < kids.length, startIndex kids startAfter = p + 1 ∧ kids[p].1 = startAfter := by
  unfold startIndex
  split
  · exact .inl rfl
  · cases hfind : kids.findIdx? fun e => e.1 = startAfter with
    | none => exact .inl rfl
    | some p =>
      obtain ⟨hp, heq, -⟩ := List.findIdx?_eq_some_iff_getElem.mp hfind
      exact .inr ⟨p, hp, rfl, of_decide_eq_true heq⟩

/-- Behind an entry that is listed the scan goes on. -/
theorem startIndex_listed {r : ℕ × DirEntry} (hr : r ∈ kids) (hne : r.1 ≠ 0) :
    ∃ p, ∃ hp : p < kids.length, startIndex kids r.1 = p + 1 ∧ kids[p].1 = r.1 := by
  cases startIndex_cases kids r.1 with
  | inl hzero =>
    have hfound : (kids.findIdx? fun e => e.1 = r.1).isSome := by
      rw [List.findIdx?_isSome]
      exact List.any_eq_true.mpr ⟨r, hr, decide_eq_true rfl⟩
    obtain ⟨p, hp⟩ := Option.isSome_iff_exists.mp hfound
    rw [startIndex, if_neg hne, hp] at hzero
    exact absurd hzero (Nat.succ_ne_zero p)
  | inr hsome => exact hsome

/-- A page that goes on where the scan stopped is the first of what comes behind. -/
theorem pageOf_eq (hnodup : (kids.map Prod.fst).Nodup)
    {startAfter : ℕ} (hstart : (∃ r ∈ kids, r.1 = startAfter ∧ startAfter ≠ 0) ∨
      ∀ r ∈ kids, startAfter < r.1) (maxEntries : ℕ) :
    pageOf kids startAfter maxEntries =
      ((after Prod.fst startAfter (kids.mergeSort fun a b => a.1 ≤ b.1)).take maxEntries,
        decide ((after Prod.fst startAfter (kids.mergeSort fun a b => a.1 ≤ b.1)).length ≤
          maxEntries)) := by
  have hasc := ascending_mergeSort hnodup
  have hmem : ∀ r, r ∈ kids.mergeSort (fun a b => a.1 ≤ b.1) ↔ r ∈ kids := fun r =>
    (List.mergeSort_perm kids fun a b => a.1 ≤ b.1).mem_iff
  unfold pageOf
  generalize kids.mergeSort (fun a b => a.1 ≤ b.1) = sorted at hasc hmem ⊢
  have hdrop : startIndex sorted startAfter ≤ sorted.length ∧
      sorted.drop (startIndex sorted startAfter) = after Prod.fst startAfter sorted := by
    cases hstart with
    | inl hstart =>
      obtain ⟨r, hr, hid, hne⟩ := hstart
      rw [← hid] at hne ⊢
      obtain ⟨p, hp, heq, hget⟩ := startIndex_listed ((hmem r).mpr hr) hne
      rw [heq, ← hget]
      exact ⟨hp, drop_eq_after hasc hp⟩
    | inr hstart =>
      cases startIndex_cases sorted startAfter with
      | inl hzero =>
        rw [hzero]
        exact ⟨Nat.zero_le _, (after_eq_self fun r hr => hstart r ((hmem r).mp hr)).symm⟩
      | inr hsome =>
        obtain ⟨p, hp, heq, hget⟩ := hsome
        rw [heq, ← hget]
        exact ⟨hp, drop_eq_after hasc hp⟩
  obtain ⟨hle, hdrop⟩ := hdrop
  have hlen := congrArg List.length hdrop
  rw [List.length_drop] at hlen
  dsimp only
  rw [Nat.min_eq_left hle, hdrop, Prod.mk.injEq, decide_eq_decide, List.length_take]
  refine ⟨rfl, ?_⟩
  omega

/-- What a page holds when the scan goes on where it stopped. -/
structure Answered (dirPath : String) (p : Page) (startAfter : ℕ) (entries : List (ℕ × DirEntry))
    (ended : Bool) (c' : FsCache) : Prop where
  ascending : Ascending Prod.fst entries
  behind : ∀ r ∈ entries, startAfter < r.1
  path : ∀ r ∈ entries, c'.pathToId.lookup (joinRemote dirPath r.2.name) = some r.1
  known : ∀ e ∈ p.listing, ∃ id, c'.pathToId.lookup (joinRemote dirPath e.name) = some id ∧
    (startAfter < id → (id, e) ∈ entries ∨
      ended = false ∧ entries ≠ [] ∧ ∀ r ∈ entries, r.1 < id)

/-- What is known after a page. -/
theorem answer_cache (dirid : ℕ) (dirPath : String) (p : Page) (c : FsCache) (startAfter : ℕ) :
    (answer dirid dirPath p c startAfter).2 =
      (FsCache.listing dirid dirPath p.listing).foldl FsCache.apply c :=
  FsCache.internAll_eq dirid dirPath p.listing c

/-- A page that resumes goes on where the scan stopped. -/
theorem answered (dirid : ℕ) {p : Page} {s : Scan} (hc : s.cache.Indexed)
    (hlt : s.startAfter < s.cache.nextId) (hres : Resumes dirPath s (.page p)) :
    Answered dirPath p s.startAfter (answer dirid dirPath p s.cache s.startAfter).1.1
      (answer dirid dirPath p s.cache s.startAfter).1.2
      (answer dirid dirPath p s.cache s.startAfter).2 := by
  obtain ⟨hmap, hids⟩ := hc.internAll_spec dirid dirPath p.listing
  have hnodup := nodup_ids hc dirid dirPath p.distinct
  have hkeeps : ∀ path id, s.cache.pathToId.lookup path = some id →
      (s.cache.internAll dirid dirPath p.listing).2.pathToId.lookup path = some id :=
    fun path id h => hc.path_listing h dirid dirPath p.listing
  have hc' : (s.cache.internAll dirid dirPath p.listing).2.Indexed := by
    rw [FsCache.internAll_eq]
    exact hc.foldl _
  have hlater : FsCache.Later s.cache (s.cache.internAll dirid dirPath p.listing).2 := by
    rw [FsCache.internAll_eq]
    exact hc.later _
  unfold answer
  generalize s.cache.internAll dirid dirPath p.listing = out at hmap hids hnodup hkeeps hc' hlater ⊢
  obtain ⟨kids, c'⟩ := out
  dsimp only at hmap hids hnodup hkeeps hc' hlater ⊢
  have hlow : ∀ r ∈ kids, 0 < r.1 := fun r hr => by
    obtain ⟨n, hn, -⟩ := (hc'.path _ _).mp (hids r hr)
    exact hc'.low _ _ hn
  have hlist : ∀ r ∈ kids, r.2 ∈ p.listing := fun r hr => by
    rw [← hmap]
    exact List.mem_map_of_mem hr
  have hstart : (∃ r ∈ kids, r.1 = s.startAfter ∧ s.startAfter ≠ 0) ∨
      ∀ r ∈ kids, s.startAfter < r.1 := by
    by_cases hzero : s.startAfter = 0
    · rw [hzero]
      exact .inr hlow
    · obtain hres | hres | hres := hres
      · exact absurd hres hzero
      · obtain ⟨e, he, hid⟩ := hres
        rw [← hmap] at he
        obtain ⟨r, hr, rfl⟩ := List.mem_map.mp he
        have hsame := (hids r hr).symm.trans (hkeeps _ _ hid)
        exact .inl ⟨r, hr, Option.some.inj hsame, hzero⟩
      · refine .inr fun r hr => ?_
        by_cases hold : r.1 < s.cache.nextId
        · exact hres r.2 (hlist r hr) r.1 (hlater.old _ _ (hids r hr) hold)
        · omega
  have hasc := ascending_mergeSort hnodup
  have hmem : ∀ r, r ∈ kids.mergeSort (fun a b => a.1 ≤ b.1) ↔ r ∈ kids := fun r =>
    (List.mergeSort_perm kids fun a b => a.1 ≤ b.1).mem_iff
  rw [pageOf_eq hnodup hstart]
  have htaken : ∀ r ∈ (after Prod.fst s.startAfter (kids.mergeSort fun a b => a.1 ≤ b.1)).take
      p.maxEntries, r ∈ kids ∧ s.startAfter < r.1 := fun r hr => by
    obtain ⟨hr, hbehind⟩ := mem_after.mp (List.mem_of_mem_take hr)
    exact ⟨(hmem r).mp hr, hbehind⟩
  refine ⟨(hasc.after _).take _, fun r hr => (htaken r hr).2,
    fun r hr => hids r (htaken r hr).1, fun e he => ?_⟩
  rw [← hmap] at he
  obtain ⟨r, hr, rfl⟩ := List.mem_map.mp he
  refine ⟨r.1, hids r hr, fun hbehind => ?_⟩
  have hin : r ∈ after Prod.fst s.startAfter (kids.mergeSort fun a b => a.1 ≤ b.1) :=
    mem_after.mpr ⟨(hmem r).mpr hr, hbehind⟩
  cases mem_take_or_lt (hasc.after _) hin p.maxEntries with
  | inl hpage => exact .inl hpage
  | inr hafter =>
    have hpos := p.pos
    by_cases hall : (after Prod.fst s.startAfter (kids.mergeSort fun a b => a.1 ≤ b.1)).length ≤
        p.maxEntries
    · refine .inl ?_
      rw [List.take_of_length_le hall]
      exact hin
    · refine .inr ⟨decide_eq_false hall, ?_, hafter⟩
      refine List.ne_nil_of_length_pos ?_
      rw [List.length_take]
      omega

/-! ## What a scan returns -/

/-- The returned ids ascend, and the scan goes on behind all of them. -/
structure Ordered (s : Scan) : Prop where
  indexed : s.cache.Indexed
  below : s.startAfter < s.cache.nextId
  ascending : (s.returned.map Prod.fst).Pairwise (· < ·)
  behind : ∀ r ∈ s.returned, r.1 ≤ s.startAfter

/-- What was returned of an entry, and what is still to come. -/
structure Tracked (dirPath x : String) (s : Scan) : Prop where
  known : ∀ id, (id, x) ∈ s.returned →
    s.cache.pathToId.lookup (joinRemote dirPath x) = some id
  seen : ∀ id, s.cache.pathToId.lookup (joinRemote dirPath x) = some id → id ≤ s.startAfter →
    (id, x) ∈ s.returned
  all : s.ended = true → ∃ id, (id, x) ∈ s.returned

theorem ordered_start (hc : c.Indexed) : Ordered (.start c) where
  indexed := hc
  below := Nat.lt_of_le_of_lt (Nat.zero_le _) hc.next
  ascending := List.Pairwise.nil
  behind _ hr := absurd hr List.not_mem_nil

theorem tracked_start (hc : c.Indexed) (dirPath x : String) :
    Tracked dirPath x (.start c) where
  known id hid := absurd hid List.not_mem_nil
  seen id hid hle := by
    obtain ⟨n, hn, -⟩ := (hc.path _ _).mp hid
    have hlow : 1 ≤ id := hc.low id n hn
    change id ≤ 0 at hle
    omega
  all hended := Bool.noConfusion hended

section

variable {dirid : ℕ} {dirPath : String} {s : Scan}

/-- A page extends what was returned. -/
theorem step_page (p : Page) :
    step dirid dirPath s (.page p) =
      if s.ended then s
      else
        { cache := (answer dirid dirPath p s.cache s.startAfter).2
          startAfter := ((answer dirid dirPath p s.cache s.startAfter).1.1.getLast?.map
            Prod.fst).getD s.startAfter
          returned := s.returned ++ (answer dirid dirPath p s.cache s.startAfter).1.1.map
            fun r => (r.1, r.2.name)
          ended := (answer dirid dirPath p s.cache s.startAfter).1.2 } :=
  rfl

/-- While the scan goes on, it takes what the surface answers with. -/
theorem step_open (h : s.ended = false) (p : Page) :
    step dirid dirPath s (.page p) =
      { cache := (answer dirid dirPath p s.cache s.startAfter).2
        startAfter := ((answer dirid dirPath p s.cache s.startAfter).1.1.getLast?.map
          Prod.fst).getD s.startAfter
        returned := s.returned ++ (answer dirid dirPath p s.cache s.startAfter).1.1.map
          fun r => (r.1, r.2.name)
        ended := (answer dirid dirPath p s.cache s.startAfter).1.2 } := by
  rw [step_page, if_neg (by rw [h]; exact Bool.false_ne_true)]

/-- The scan goes on behind the last entry of a page. -/
theorem startAfter_cases (entries : List (ℕ × DirEntry)) (startAfter : ℕ) :
    entries = [] ∧ (entries.getLast?.map Prod.fst).getD startAfter = startAfter ∨
      ∃ r ∈ entries, entries.getLast? = some r ∧
        (entries.getLast?.map Prod.fst).getD startAfter = r.1 := by
  cases hlast : entries.getLast? with
  | none => exact .inl ⟨List.getLast?_eq_none_iff.mp hlast, rfl⟩
  | some r => exact .inr ⟨r, List.mem_of_getLast? hlast, rfl, rfl⟩

/-- A step that resumes keeps the order. -/
theorem Ordered.step (h : Ordered s) {a : Act} (hres : Resumes dirPath s a) :
    Ordered (step dirid dirPath s a) := by
  cases a with
  | other w =>
    refine ⟨h.indexed.apply w, ?_, h.ascending, h.behind⟩
    exact Nat.lt_of_lt_of_le h.below (h.indexed.later_apply w).next
  | page p =>
    rw [step_page]
    split
    · exact h
    · have hans := answered dirid h.indexed h.below hres
      have hcache := answer_cache dirid dirPath p s.cache s.startAfter
      generalize answer dirid dirPath p s.cache s.startAfter = out at hans hcache ⊢
      obtain ⟨⟨entries, ended⟩, c'⟩ := out
      dsimp only at hans hcache ⊢
      have hc' : c'.Indexed := by
        rw [hcache]
        exact h.indexed.foldl _
      have hlater : FsCache.Later s.cache c' := by
        rw [hcache]
        exact h.indexed.later _
      have hnext := hlater.next
      have hbelow := h.below
      have hids : (entries.map fun r => (r.1, r.2.name)).map Prod.fst = entries.map Prod.fst := by
        rw [List.map_map]
        rfl
      refine ⟨hc', ?_, ?_, ?_⟩
      · change (entries.getLast?.map Prod.fst).getD s.startAfter < c'.nextId
        cases startAfter_cases entries s.startAfter with
        | inl hnil =>
          rw [hnil.2]
          omega
        | inr hsome =>
          obtain ⟨r, hr, -, heq⟩ := hsome
          obtain ⟨n, hn, -⟩ := (hc'.path _ _).mp (hans.path r hr)
          rw [heq]
          exact hc'.bound _ _ hn
      · rw [List.map_append, hids]
        refine List.pairwise_append.mpr ⟨h.ascending, List.pairwise_map.mpr hans.ascending, ?_⟩
        intro i hi j hj
        obtain ⟨r, hr, rfl⟩ := List.mem_map.mp hi
        obtain ⟨q, hq, rfl⟩ := List.mem_map.mp hj
        exact Nat.lt_of_le_of_lt (h.behind r hr) (hans.behind q hq)
      · intro r hr
        change r.1 ≤ (entries.getLast?.map Prod.fst).getD s.startAfter
        rw [List.mem_append] at hr
        cases startAfter_cases entries s.startAfter with
        | inl hnil =>
          rw [hnil.2]
          rw [hnil.1] at hr
          cases hr with
          | inl hr => exact h.behind r hr
          | inr hr => exact absurd hr List.not_mem_nil
        | inr hsome =>
          obtain ⟨q, hq, hlast, heq⟩ := hsome
          rw [heq]
          cases hr with
          | inl hr => exact Nat.le_of_lt (Nat.lt_of_le_of_lt (h.behind r hr) (hans.behind q hq))
          | inr hr =>
            obtain ⟨e, he, rfl⟩ := List.mem_map.mp hr
            exact hans.ascending.le_getLast hlast he

/-- While an entry is there, a step that resumes keeps track of it. -/
theorem Tracked.step {x : String} (h : Tracked dirPath x s) (ho : Ordered s) {a : Act}
    (hres : Resumes dirPath s a) (hpres : Present dirPath x s a) :
    Tracked dirPath x (step dirid dirPath s a) := by
  cases a with
  | other w =>
    refine ⟨fun id hid => ?_, fun id hid hle => ?_, h.all⟩
    · have hknown := h.known id hid
      exact ho.indexed.path_apply hknown (hpres id hknown)
    · have hold := (ho.indexed.later_apply w).old _ _ hid (Nat.lt_of_le_of_lt hle ho.below)
      exact h.seen id hold hle
  | page p =>
    rw [step_page]
    split
    · exact h
    · have hans := answered dirid ho.indexed ho.below hres
      have hcache := answer_cache dirid dirPath p s.cache s.startAfter
      have hkeeps : ∀ id, s.cache.pathToId.lookup (joinRemote dirPath x) = some id →
          (answer dirid dirPath p s.cache s.startAfter).2.pathToId.lookup (joinRemote dirPath x) =
            some id := fun id h => ho.indexed.path_listing h dirid dirPath p.listing
      generalize answer dirid dirPath p s.cache s.startAfter = out at hans hcache hkeeps ⊢
      obtain ⟨⟨entries, ended⟩, c'⟩ := out
      dsimp only at hans hcache hkeeps ⊢
      have hlater : FsCache.Later s.cache c' := by
        rw [hcache]
        exact ho.indexed.later _
      obtain ⟨e, he, rfl⟩ := List.mem_map.mp hpres
      obtain ⟨id, hid, hnew⟩ := hans.known e he
      have hold : id ≤ s.startAfter → (id, e.name) ∈ s.returned := fun hle =>
        h.seen id (hlater.old _ _ hid (Nat.lt_of_le_of_lt hle ho.below)) hle
      have hin : (id, e) ∈ entries →
          (id, e.name) ∈ s.returned ++ entries.map fun r => (r.1, r.2.name) := fun hmem =>
        List.mem_append_right _ (List.mem_map.mpr ⟨(id, e), hmem, rfl⟩)
      refine ⟨fun j hj => ?_, fun j hj hle => ?_, fun hended => ⟨id, ?_⟩⟩
      · rw [List.mem_append] at hj
        cases hj with
        | inl hj => exact hkeeps j (h.known j hj)
        | inr hj =>
          obtain ⟨r, hr, heq⟩ := List.mem_map.mp hj
          rw [Prod.mk.injEq] at heq
          rw [← heq.1, ← heq.2]
          exact hans.path r hr
      · change c'.pathToId.lookup _ = some j at hj
        rw [hid] at hj
        cases hj
        change id ≤ (entries.getLast?.map Prod.fst).getD s.startAfter at hle
        by_cases hseen : id ≤ s.startAfter
        · exact List.mem_append_left _ (hold hseen)
        · cases hnew (by omega) with
          | inl hmem => exact hin hmem
          | inr hlate =>
            obtain ⟨-, hne, hlt⟩ := hlate
            cases startAfter_cases entries s.startAfter with
            | inl hnil => exact absurd hnil.1 hne
            | inr hsome =>
              obtain ⟨r, hr, -, heq⟩ := hsome
              have hbefore := hlt r hr
              omega
      · by_cases hseen : id ≤ s.startAfter
        · exact List.mem_append_left _ (hold hseen)
        · cases hnew (by omega) with
          | inl hmem => exact hin hmem
          | inr hlate =>
            change ended = true at hended
            rw [hlate.1] at hended
            cases hended

end

/-! ## The end of a scan -/

/-- The number of entries behind an id. -/
def behind (dirPath : String) (names : List String) (c : FsCache) (k : ℕ) : ℕ :=
  names.countP fun x => (c.pathToId.lookup (joinRemote dirPath x)).any fun id => k < id

/-- The entries are known, and the scan stopped at one of them with at most `n` behind. -/
structure Going (dirPath : String) (names : List String) (n : ℕ) (s : Scan) : Prop where
  known : ∀ x ∈ names, (s.cache.pathToId.lookup (joinRemote dirPath x)).isSome
  stopped : ∃ x ∈ names, s.cache.pathToId.lookup (joinRemote dirPath x) = some s.startAfter
  left : behind dirPath names s.cache s.startAfter ≤ n

/-- The entries of a sorted listing behind an id are counted by their names. -/
theorem length_after {names : List String} (hperm : (kids.map fun r => r.2.name).Perm names)
    (hids : ∀ r ∈ kids, c.pathToId.lookup (joinRemote dirPath r.2.name) = some r.1) (k : ℕ) :
    (after Prod.fst k (kids.mergeSort fun a b => a.1 ≤ b.1)).length =
      behind dirPath names c k := by
  have hsort := (List.mergeSort_perm kids fun a b => a.1 ≤ b.1).countP_eq fun r => decide (k < r.1)
  rw [after, ← List.countP_eq_length_filter, hsort, behind, ← hperm.countP_eq, List.countP_map]
  refine List.countP_congr fun r hr => ?_
  change decide (k < r.1) = true ↔
    ((c.pathToId.lookup (joinRemote dirPath r.2.name)).any fun id => decide (k < id)) = true
  rw [hids r hr]
  exact Iff.rfl

/-- A page that is not the last ends with an entry, and one entry less is behind it: less than
all, and less than before if the scan stopped at an entry. -/
theorem answer_progress {dirid : ℕ} {names : List String} {p : Page}
    {startAfter : ℕ} (hc : c.Indexed) (hperm : (p.listing.map DirEntry.name).Perm names)
    (hlast : (answer dirid dirPath p c startAfter).1.2 = false) :
    ∃ r, (answer dirid dirPath p c startAfter).1.1.getLast? = some r ∧
      (∃ x ∈ names, (answer dirid dirPath p c startAfter).2.pathToId.lookup
        (joinRemote dirPath x) = some r.1) ∧
      behind dirPath names (answer dirid dirPath p c startAfter).2 r.1 < names.length ∧
      ((∃ x ∈ names, c.pathToId.lookup (joinRemote dirPath x) = some startAfter) →
        behind dirPath names (answer dirid dirPath p c startAfter).2 r.1 <
          behind dirPath names (answer dirid dirPath p c startAfter).2 startAfter) := by
  obtain ⟨hmap, hids⟩ := hc.internAll_spec dirid dirPath p.listing
  have hasc := ascending_mergeSort (nodup_ids hc dirid dirPath p.distinct)
  have hkeeps : ∀ path id, c.pathToId.lookup path = some id →
      (c.internAll dirid dirPath p.listing).2.pathToId.lookup path = some id :=
    fun path id h => hc.path_listing h dirid dirPath p.listing
  unfold answer at hlast ⊢
  generalize c.internAll dirid dirPath p.listing = out at hmap hids hasc hkeeps hlast ⊢
  obtain ⟨kids, c'⟩ := out
  dsimp only at hmap hids hasc hkeeps hlast ⊢
  have hnames : (kids.map fun r => r.2.name).Perm names := by
    rw [← hmap, List.map_map] at hperm
    exact hperm
  have hmem : ∀ r, r ∈ kids.mergeSort (fun a b => a.1 ≤ b.1) ↔ r ∈ kids := fun r =>
    (List.mergeSort_perm kids fun a b => a.1 ≤ b.1).mem_iff
  have hbehind := length_after hnames hids
  have hlen : (kids.mergeSort fun a b => a.1 ≤ b.1).length = names.length := by
    rw [List.length_mergeSort, ← hnames.length_eq, List.length_map]
  unfold pageOf at hlast ⊢
  generalize kids.mergeSort (fun a b => a.1 ≤ b.1) = sorted at hasc hmem hbehind hlen hlast ⊢
  dsimp only at hlast ⊢
  have hstart : startIndex sorted startAfter ≤ sorted.length := by
    cases startIndex_cases sorted startAfter with
    | inl hzero => omega
    | inr hsome =>
      obtain ⟨q, hq, heq, -⟩ := hsome
      omega
  have hresume : (∃ x ∈ names, c.pathToId.lookup (joinRemote dirPath x) = some startAfter) →
      sorted.length - startIndex sorted startAfter = behind dirPath names c' startAfter := by
    rintro ⟨x, hx, hid⟩
    obtain ⟨r, hr, rfl⟩ := List.mem_map.mp (hnames.mem_iff.mpr hx)
    have hsame := (hids r hr).symm.trans (hkeeps _ _ hid)
    have hr1 : r.1 = startAfter := Option.some.inj hsame
    have hne : r.1 ≠ 0 := fun hzero => by
      obtain ⟨n, hn, -⟩ := (hc.path _ _).mp hid
      have hlow : 1 ≤ startAfter := hc.low _ _ hn
      omega
    obtain ⟨q, hq, heq, hget⟩ := startIndex_listed ((hmem r).mpr hr) hne
    have hdrop := congrArg List.length (drop_eq_after hasc hq)
    rw [List.length_drop, hget, hr1] at hdrop
    rw [← hbehind, ← hr1, heq, hr1]
    exact hdrop
  generalize startIndex sorted startAfter = start at hstart hresume hlast ⊢
  rw [Nat.min_eq_left hstart, decide_eq_false_iff_not, List.length_take, List.length_drop] at hlast
  have hpos := p.pos
  have hend : start + p.maxEntries - 1 < sorted.length := by omega
  have hget : ((sorted.drop start).take p.maxEntries).getLast? =
      some sorted[start + p.maxEntries - 1] := by
    have hlen' : ((sorted.drop start).take p.maxEntries).length = p.maxEntries := by
      rw [List.length_take, List.length_drop]
      omega
    rw [List.getLast?_eq_getElem?, hlen', List.getElem?_take_of_lt (by omega), List.getElem?_drop,
      ← Nat.add_sub_assoc (by omega), List.getElem?_eq_getElem hend]
  have hleft := congrArg List.length (drop_eq_after hasc hend)
  rw [List.length_drop, hbehind] at hleft
  rw [Nat.min_eq_left hstart]
  refine ⟨_, hget, ?_, ?_, fun hstop => ?_⟩
  · have hr := (hmem _).mp (List.getElem_mem hend)
    exact ⟨_, hnames.mem_iff.mp (List.mem_map_of_mem hr), hids _ hr⟩
  · omega
  · have hbefore := hresume hstop
    omega

section

variable {dirid : ℕ} {dirPath : String} {names : List String}
variable {s : Scan}

/-- Every step keeps the index. -/
theorem indexed_step (hc : s.cache.Indexed) (a : Act) : (step dirid dirPath s a).cache.Indexed := by
  cases a with
  | other w => exact hc.apply w
  | page p =>
    rw [step_page]
    split
    · exact hc
    · change (answer dirid dirPath p s.cache s.startAfter).2.Indexed
      rw [answer_cache]
      exact hc.foldl _

/-- A scan that has ended stays so. -/
theorem ended_step (h : s.ended = true) (a : Act) : (step dirid dirPath s a).ended = true := by
  cases a with
  | other w => exact h
  | page p =>
    rw [step_page, if_pos h]
    exact h

/-- While nothing changes in the directory, another write changes nothing for the scan. -/
theorem Going.other {n : ℕ} (h : Going dirPath names n s) (hc : s.cache.Indexed)
    {w : FsCache.Write} (hset : Settled dirPath names s (.other w)) :
    Going dirPath names n (step dirid dirPath s (.other w)) := by
  have hsame : ∀ x ∈ names, (s.cache.apply w).pathToId.lookup (joinRemote dirPath x) =
      s.cache.pathToId.lookup (joinRemote dirPath x) := by
    intro x hx
    obtain ⟨id, hid⟩ := Option.isSome_iff_exists.mp (h.known x hx)
    rw [hid]
    exact hc.path_apply hid (hset x hx id hid)
  obtain ⟨y, hy, hstop⟩ := h.stopped
  refine ⟨fun x hx => ?_, ⟨y, hy, (hsame y hy).trans hstop⟩, ?_⟩
  · change ((s.cache.apply w).pathToId.lookup (joinRemote dirPath x)).isSome
    rw [hsame x hx]
    exact h.known x hx
  · refine le_trans (le_of_eq ?_) h.left
    refine List.countP_congr fun x hx => ?_
    change (((s.cache.apply w).pathToId.lookup (joinRemote dirPath x)).any _) = true ↔ _
    rw [hsame x hx]
    exact Iff.rfl

/-- Each page ends the scan or leaves fewer entries behind. -/
theorem going_page (hc : s.cache.Indexed) {p : Page} (hset : Settled dirPath names s (.page p))
    (hend : (step dirid dirPath s (.page p)).ended = false) :
    ∃ n, n < names.length ∧ Going dirPath names n (step dirid dirPath s (.page p)) ∧
      ∀ m, Going dirPath names m s → n < m := by
  have hopen : s.ended = false := by
    cases hended : s.ended with
    | false => rfl
    | true => exact (ended_step hended (.page p)).symm.trans hend
  rw [step_open hopen] at hend ⊢
  have hperm : (p.listing.map DirEntry.name).Perm names := hset
  obtain ⟨r, hlast, hstop, hall, hless⟩ := answer_progress hc hperm hend
  have hkeeps : ∀ path id, s.cache.pathToId.lookup path = some id →
      (s.cache.internAll dirid dirPath p.listing).2.pathToId.lookup path = some id :=
    fun path id h => hc.path_listing h dirid dirPath p.listing
  obtain ⟨hmap, hids⟩ := hc.internAll_spec dirid dirPath p.listing
  rw [hlast]
  refine ⟨_, hall, ⟨fun x hx => ?_, hstop, le_rfl⟩, fun m hm => ?_⟩
  · obtain ⟨e, he, rfl⟩ := List.mem_map.mp (hperm.mem_iff.mpr hx)
    rw [← hmap] at he
    obtain ⟨q, hq, rfl⟩ := List.mem_map.mp he
    exact Option.isSome_iff_exists.mpr ⟨q.1, hids q hq⟩
  · refine lt_of_lt_of_le (hless hm.stopped) (le_trans (le_of_eq ?_) hm.left)
    refine List.countP_congr fun x hx => ?_
    obtain ⟨id, hid⟩ := Option.isSome_iff_exists.mp (hm.known x hx)
    change (((s.cache.internAll dirid dirPath p.listing).2.pathToId.lookup _).any _) = true ↔ _
    rw [hid, hkeeps _ _ hid]

/-- A scan ends within as many pages as there are entries, or as there are entries behind. -/
theorem ends_within {n : ℕ} (h : n = names.length ∨ Going dirPath names n s) (hc : s.cache.Indexed)
    {acts : List Act} (hset : Meets (total (step dirid dirPath)) (Settled dirPath names) s acts)
    (hpages : n < pages acts) : (acts.foldl (step dirid dirPath) s).ended = true := by
  induction acts generalizing n s with
  | nil => exact absurd hpages (Nat.not_lt_zero n)
  | cons a rest ih =>
    have hrest := hset.2 _ rfl
    cases a with
    | other w => exact ih (h.imp_right (·.other hc hset.1)) (indexed_step hc _) hrest hpages
    | page p =>
      cases hend : (step dirid dirPath s (.page p)).ended with
      | true =>
        exact StepSystem.foldl_invariant (fun t : Scan => t.ended = true)
          (fun _ a ht => ended_step ht a) hend rest
      | false =>
        obtain ⟨m, hall, hm, hless⟩ := going_page hc hset.1 hend
        have hlt : m < n := h.elim (fun heq => heq ▸ hall) (hless n)
        have hcount : pages (.page p :: rest) = pages rest + 1 := List.countP_cons_of_pos rfl
        exact ih (.inr hm) (indexed_step hc _) hrest (by omega)

/-- A scan of a directory that no longer changes ends. -/
theorem ends (hc : s.cache.Indexed) {acts : List Act}
    (hset : Meets (total (step dirid dirPath)) (Settled dirPath names) s acts)
    (hpages : names.length < pages acts) : (acts.foldl (step dirid dirPath) s).ended = true :=
  ends_within (.inl rfl) hc hset hpages

end

/-! ## The scan as a whole -/

/-- What a scan owes: no id twice, and every entry that is there all the time once. -/
structure Complete (dirid : ℕ) (dirPath : String) (before : List FsCache.Write)
    (acts : List Act) : Prop where
  nodup : ((acts.foldl (step dirid dirPath) (.after before)).returned.map Prod.fst).Nodup
  once : (acts.foldl (step dirid dirPath) (.after before)).ended = true → ∀ x,
    Meets (total (step dirid dirPath)) (Present dirPath x) (.after before) acts →
    ∃ id, (acts.foldl (step dirid dirPath) (.after before)).returned.filter (·.2 = x) = [(id, x)]

/-- An entry that was tracked to the end was returned once. -/
theorem Tracked.once {x : String} {s : Scan} (h : Tracked dirPath x s) (ho : Ordered s)
    (hended : s.ended = true) : ∃ id, s.returned.filter (·.2 = x) = [(id, x)] := by
  obtain ⟨id, hid⟩ := h.all hended
  have hsame : ∀ r ∈ s.returned.filter (·.2 = x), r = (id, x) := by
    intro r hr
    obtain ⟨hr, hname⟩ := List.mem_filter.mp hr
    have hname : r.2 = x := of_decide_eq_true hname
    have hr' : (r.1, x) ∈ s.returned := by
      rw [← hname]
      exact hr
    have heq := (h.known r.1 hr').symm.trans (h.known id hid)
    exact Prod.ext (Option.some.inj heq) hname
  have hnodup : (s.returned.filter (·.2 = x)).Nodup := by
    have hids : (s.returned.map Prod.fst).Nodup := ho.ascending.imp fun hlt => Nat.ne_of_lt hlt
    exact (List.Nodup.of_map _ hids).filter _
  have hmem : (id, x) ∈ s.returned.filter (·.2 = x) :=
    List.mem_filter.mpr ⟨hid, decide_eq_true rfl⟩
  have hrep := List.eq_replicate_of_mem hsame
  rw [hrep] at hnodup hmem ⊢
  have hle := List.nodup_replicate.mp hnodup
  have hpos := List.length_pos_of_mem hmem
  rw [List.length_replicate] at hpos
  have hone : (s.returned.filter (·.2 = x)).length = 1 := by omega
  rw [hone]
  exact ⟨id, rfl⟩

/-- The three files of a directory. -/
def files : List DirEntry := [⟨"a", 0, false⟩, ⟨"b", 0, false⟩, ⟨"c", 0, false⟩]

/-- What is left when the second is removed. -/
def filesLeft : List DirEntry := [⟨"a", 0, false⟩, ⟨"c", 0, false⟩]

/-- A page of two of the three. -/
def firstPage : Page := ⟨2, files, by decide, by decide⟩

/-- A page of what is left. -/
def secondPage : Page := ⟨2, filesLeft, by decide, by decide⟩

/-- What is known of the three files. -/
def filesKnown : FsCache := (FsCache.new.internAll rootId "\\" files).2

/-- A listing that is in the order of the ids needs no sorting. -/
theorem pageOf_sorted
    (h : kids.Pairwise fun a b => decide (a.1 ≤ b.1) = true) (startAfter maxEntries : ℕ) :
    pageOf kids startAfter maxEntries =
      ((kids.drop (min (startIndex kids startAfter) kids.length)).take maxEntries,
        decide (kids.length ≤ startIndex kids startAfter + ((kids.drop
          (min (startIndex kids startAfter) kids.length)).take maxEntries).length)) := by
  unfold pageOf
  rw [List.mergeSort_of_pairwise h]

/-- The first page returns two files. -/
theorem step_firstPage :
    step rootId "\\" (.after []) (.page firstPage) =
      ⟨filesKnown, 3, [(2, "a"), (3, "b")], false⟩ := by
  have hfirst : answer rootId "\\" firstPage .new 0 =
      (([(2, ⟨"a", 0, false⟩), (3, ⟨"b", 0, false⟩)], false), filesKnown) := by
    have hsorted : (FsCache.new.internAll rootId "\\" files).1.Pairwise
        fun a b => decide (a.1 ≤ b.1) = true := by decide +kernel
    change (pageOf (FsCache.new.internAll rootId "\\" files).1 0 2, filesKnown) = _
    rw [pageOf_sorted hsorted]
    rfl
  rw [step_open rfl, show (Scan.after []).cache = .new from rfl,
    show (Scan.after []).startAfter = 0 from rfl, hfirst]
  rfl

/-- A scan whose every page finds the entry that the last one stopped at, or nothing before it,
returns no id twice and every entry that is there all the time once. Every scan ends, with one
page more than there are entries once these no longer change. -/
theorem scan_complete (dirid : ℕ) (dirPath : String) (before : List FsCache.Write)
    (acts : List Act) :
    (Meets (total (step dirid dirPath)) (Resumes dirPath) (.after before) acts →
      Complete dirid dirPath before acts) ∧
    ∀ names later,
      Meets (total (step dirid dirPath)) (Settled dirPath names)
        (acts.foldl (step dirid dirPath) (.after before)) later →
      names.length < pages later →
      ((acts ++ later).foldl (step dirid dirPath) (.after before)).ended = true := by
  have hc : (before.foldl FsCache.apply .new).Indexed := FsCache.indexed_new.foldl before
  constructor
  · intro hres
    have hordered : Ordered (acts.foldl (step dirid dirPath) (.after before)) :=
      run_invariant Ordered (fun s a s' h hr hs => by
        cases hs
        exact h.step hr) (ordered_start hc) hres (run_total _ _ _)
    refine ⟨hordered.ascending.imp fun hlt => Nat.ne_of_lt hlt, fun hended x hpres => ?_⟩
    have htracked : Ordered (acts.foldl (step dirid dirPath) (.after before)) ∧
        Tracked dirPath x (acts.foldl (step dirid dirPath) (.after before)) :=
      run_invariant (fun s => Ordered s ∧ Tracked dirPath x s) (fun s a s' h hr hs => by
        cases hs
        exact ⟨h.1.step hr.1, h.2.step h.1 hr.1 hr.2⟩)
        ⟨ordered_start hc, tracked_start hc dirPath x⟩ (hres.and hpres) (run_total _ _ _)
    exact htracked.2.once hordered hended
  · intro names later hset hpages
    rw [List.foldl_append]
    have hindexed : (acts.foldl (step dirid dirPath) (.after before)).cache.Indexed :=
      foldl_invariant (fun s : Scan => s.cache.Indexed) (fun _ a h => indexed_step h a) hc acts
    exact ends hindexed hset hpages

/-- Two pages of three files of which the third is removed between them. -/
theorem scan_complete_thirdRemoved :
    Complete rootId "\\" [] [.page firstPage, .other (.forget 4), .page firstPage] ∧
    (([Act.page firstPage] ++ List.replicate 4 (Act.page firstPage)).foldl
      (step rootId "\\") (.after [])).ended = true := by
  constructor
  · refine (scan_complete rootId "\\" [] _).1 ⟨.inl rfl, fun s hs => ⟨trivial, fun t ht => ?_⟩⟩
    cases hs
    cases ht
    rw [step_firstPage]
    refine ⟨.inr (.inl ⟨⟨"b", 0, false⟩, by decide, ?_⟩), fun _ _ => trivial⟩
    decide +kernel
  · have hpages : ∀ a ∈ List.replicate 4 (Act.page firstPage), a = .page firstPage := fun a ha =>
      List.eq_of_mem_replicate ha
    refine (scan_complete rootId "\\" [] [.page firstPage]).2 ["a", "b", "c"] _ ?_ (by decide)
    refine Meets.mono (fun s a ha => ?_) (meets_of_forall hpages _)
    rw [ha]
    exact List.Perm.refl _

/-- The second page starts over if the file that the first one ended with is removed. -/
theorem not_complete_secondRemoved : ¬ ∀ before acts, Complete rootId "\\" before acts := by
  intro h
  have hnodup := (h [] [.page firstPage, .other (.forget 3), .page secondPage]).nodup
  have hsecond : (answer rootId "\\" secondPage (filesKnown.forget 3) 3).1.1 =
      [(2, ⟨"a", 0, false⟩), (4, ⟨"c", 0, false⟩)] := by
    have hsorted : ((filesKnown.forget 3).internAll rootId "\\" filesLeft).1.Pairwise
        fun a b => decide (a.1 ≤ b.1) = true := by decide +kernel
    change (pageOf ((filesKnown.forget 3).internAll rootId "\\" filesLeft).1 3 2).1 = _
    rw [pageOf_sorted hsorted]
    decide +kernel
  rw [List.foldl_cons, step_firstPage, List.foldl_cons, List.foldl_cons, List.foldl_nil,
    step_open rfl] at hnodup
  change ((([(2, "a"), (3, "b")] : List (ℕ × String)) ++
    (answer rootId "\\" secondPage (filesKnown.forget 3) 3).1.1.map
      fun r => (r.1, r.2.name)).map Prod.fst).Nodup at hnodup
  rw [hsecond] at hnodup
  revert hnodup
  decide

end Macrdp.DirectoryScan
