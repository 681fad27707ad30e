import Macrdp.DriveHandles
import Macrdp.StepSystem

/-!
# Which handles the operations on a drive use and close

In every run the handles that are open on the client are in the cache or in the hands of one
task. A handle that is taken out of the cache while an operation uses it, or that is kept under a
path that was renamed or removed, is used after that for whatever its id denotes then.
-/

namespace Macrdp.DriveHandles

open StepSystem LruCache

namespace State

/-- Another task uses a file. -/
def inUse (s : State) (i : ℕ) (file : FileId) : Bool :=
  (s.tasks.eraseIdx i).any fun t => t.uses = some file

/-- The keys under which handles are cached, or were opened or acquired. -/
def keys (s : State) : List HandleKey :=
  s.cache.entries.map Entry.key ++ s.tasks.filterMap Task.key?

/-- Setting the information of what is at a place affects another place. -/
def affects (source p : Place) : FileInformation → Bool
  | .disposition => p = source
  | .rename target => source.covers p || target.covers p
  | .endOfFile => false

/-- What leaves the cache is not in use, and a rename or a removal takes effect where no handle
is cached or held under a path that it affects. -/
def orderly (s : State) : Action → Bool
  | .advance i reply =>
    match s.tasks[i]? with
    | some (.installing key file) =>
      (s.cache.install maxOpenHandles key file).2.2.all fun f => !s.inUse i f
    | some (.failing key _) =>
      (s.cache.takeOut fun k => k = key).2.all fun f => !s.inUse i f
    | some (.evicting (place :: _) _) =>
      (s.cache.takeOut fun k => k.place = place).2.all fun f => !s.inUse i f
    | some (.setting file info) =>
      decide (reply = .failure) ||
        match (s.client.opened file).bind fun o => s.client.objects[o]?.join with
        | some source => s.keys.all fun k => !affects source k.place info
        | none => true
    | _ => true
  | _ => true

/-- What is sent is proper: a read or a write is sent on a file id that is open on the file at
its path; a close is sent once, on an open file id that no operation uses. -/
def Proper (s : State) : Action → Prop
  | .advance i _ =>
    match s.tasks[i]? with
    | some (.ready key file) => s.client.Denotes file key.place
    | some (.closing file false _ _ _) =>
      (s.client.opened file).isSome = true ∧ s.cache.handles.count file = 0 ∧
        (s.tasks.flatMap Task.owned).count file = 1 ∧ ∀ t ∈ s.tasks, t.uses ≠ some file
    | _ => True
  | _ => True

/-- Every file id that is open is cached, or a task has it to install or to close; and the cache
is bounded. -/
structure Kept (s : State) : Prop where
  accounted : ∀ file, (s.client.opened file).isSome = true →
    file ∈ s.cache.handles ∨ ∃ t ∈ s.tasks, file ∈ t.owned
  bounded : s.cache.entries.length ≤ maxOpenHandles

/-- What is known in every run: the files that are open are in the cache or in the hands of a
task, and in one place only. -/
structure Inv (s : State) : Prop where
  wf : s.cache.Wf maxOpenHandles
  held : ∀ file, s.cache.handles.count file + (s.tasks.flatMap Task.owned).count file =
    if (s.client.opened file).isSome then 1 else 0

/-- What is known in an orderly run: cached handles are open on the files at their paths, and a
file that is used is cached. -/
structure Safe (s : State) : Prop where
  cached : ∀ e ∈ s.cache.entries, s.client.Denotes e.handle e.key.place
  installing : ∀ key file, .installing key file ∈ s.tasks → s.client.Denotes file key.place
  used : ∀ t ∈ s.tasks, ∀ file, t.uses = some file →
    ∃ e ∈ s.cache.entries, e.handle = file ∧ t.key? = some e.key

/-! ## What the client does -/

variable {c : Client} {place : Place} {disposition : CreateDisposition}

/-- Opening a file leaves the other ones as they are. -/
theorem openFile_spec {c' : Client}
    {file : FileId} (h : c.openFile place disposition file = some c') :
    c.opened file = none ∧ c'.Denotes file place ∧
      (∀ f, (c'.opened f).isSome = if f = file then true else (c.opened f).isSome) ∧
      ∀ f p, c.Denotes f p → c'.Denotes f p := by
  unfold Client.openFile at h
  split at h
  · cases h
  · next hfree =>
    have hnone : c.opened file = none := by simpa using hfree
    have hother : ∀ (objects : List (Option Place)) (o : ℕ),
        (∀ (n : ℕ) (p : Place), c.objects[n]? = some (some p) → objects[n]? = some (some p)) →
          ∀ f p, c.Denotes f p → (Client.bind file o { c with objects := objects }).Denotes f p := by
      rintro objects o hkept f p ⟨n, hn, hp⟩
      refine ⟨n, ?_, hkept n p hp⟩
      have hf : f ≠ file := by
        rintro rfl
        rw [hnone] at hn
        cases hn
      exact (if_neg hf).trans hn
    have hopened : ∀ (objects : List (Option Place)) (o : ℕ) (f : FileId),
        ((Client.bind file o { c with objects := objects }).opened f).isSome =
          if f = file then true else (c.opened f).isSome := by
      intro objects o f
      simp only [Client.bind]
      split <;> rfl
    split at h
    · next o hfind =>
      split at h
      · cases h
      · cases h
        obtain ⟨hlt, hat, -⟩ := List.findIdx?_eq_some_iff_getElem.mp hfind
        refine ⟨hnone, ⟨o, if_pos rfl, ?_⟩, hopened c.objects o,
          hother c.objects o fun n p hp => hp⟩
        have hplace : c.objects[o] = some place := by simpa using hat
        change c.objects[o]? = _
        rw [List.getElem?_eq_getElem hlt, hplace]
    · split at h
      · cases h
      · cases h
        refine ⟨hnone, ⟨c.objects.length, if_pos rfl, ?_⟩, hopened _ _, hother _ _ ?_⟩
        · change (c.objects ++ [some place])[c.objects.length]? = _
          rw [List.getElem?_append_right (Nat.le_refl _), Nat.sub_self]
          rfl
        · intro n p hp
          rw [List.getElem?_append_left (List.getElem?_eq_some_iff.mp hp).1]
          exact hp

/-- Closing a file leaves the other ones as they are. -/
theorem denotes_closeFile {file f : FileId} {p : Place} (h : c.Denotes f p)
    (hne : f ≠ file) : (c.closeFile file).Denotes f p := by
  obtain ⟨o, ho, hp⟩ := h
  exact ⟨o, (if_neg hne).trans ho, hp⟩

/-- Setting information opens and closes nothing. -/
theorem opened_setInformation (c : Client) (file : FileId) (info : FileInformation) :
    (c.setInformation file info).opened = c.opened := by
  unfold Client.setInformation
  split
  · rfl
  · split <;> rfl

variable {info : FileInformation}

/-- A file at a place that is not affected stays there. -/
theorem denotes_setInformation {file f : FileId} {p : Place} (h : c.Denotes f p)
    (hfar : ∀ source, ((c.opened file).bind fun o => c.objects[o]?.join) = some source →
      affects source p info = false) : (c.setInformation file info).Denotes f p := by
  obtain ⟨o, ho, hp⟩ := h
  refine ⟨o, by rw [opened_setInformation]; exact ho, ?_⟩
  unfold Client.setInformation
  split
  · exact hp
  · next n hn =>
    rw [hn, Option.bind_some] at hfar
    split
    · next source hsource =>
      have hne := hfar source hsource
      have hon : n ≠ o := by
        rintro rfl
        rw [hp] at hsource
        have hsame : p = source := Option.some.inj hsource
        simp [affects, hsame] at hne
      change (c.objects.set n none)[o]? = _
      rw [List.getElem?_set_ne hon]
      exact hp
    · next source target hsource =>
      have hne := hfar source hsource
      simp only [affects, Bool.or_eq_false_iff] at hne
      change (c.objects.map _)[o]? = _
      rw [List.getElem?_map, hp]
      simp [Client.movePlace, hne.1, hne.2]
    · exact hp

/-! ## Every open file is in one place -/

/-- Closing files in turn is having them to close. -/
theorem owned_closeAll (files : List FileId) (places : List Place) (access : Option Access) :
    (Task.closeAll files places access).owned = files := by
  cases files <;> rfl

variable {s : State} {i : ℕ} {before after t : Task}

/-- The files of the tasks after one went on and others were spawned. -/
theorem count_owned_proceed (hi : s.tasks[i]? = some before)
    (after : Task) (closes : List FileId) (file : FileId) :
    ((s.proceed i after closes).tasks.flatMap Task.owned).count file + before.owned.count file =
      (s.tasks.flatMap Task.owned).count file + after.owned.count file + closes.count file := by
  have hcloses : ((closes.map Task.closeOne).flatMap Task.owned).count file =
      closes.count file := by
    induction closes with
    | nil => rfl
    | cons f rest ih =>
      rw [List.map_cons, List.flatMap_cons, List.count_append, ih, List.count_cons]
      change List.count file [f] + _ = _
      rw [List.count_singleton]
      omega
  have hset : ∀ (tasks : List Task) (i : ℕ), tasks[i]? = some before →
      ((tasks.set i after).flatMap Task.owned).count file + before.owned.count file =
        (tasks.flatMap Task.owned).count file + after.owned.count file := by
    intro tasks
    induction tasks with
    | nil =>
      intro i h
      cases h
    | cons t rest ih =>
      intro i h
      cases i with
      | zero =>
        cases h
        rw [List.set_cons_zero, List.flatMap_cons, List.flatMap_cons, List.count_append,
          List.count_append]
        omega
      | succ i =>
        have hrest := ih i h
        rw [List.set_cons_succ, List.flatMap_cons, List.flatMap_cons, List.count_append,
          List.count_append]
        omega
  have htotal := hset s.tasks i hi
  change ((s.tasks.set i after ++ closes.map Task.closeOne).flatMap Task.owned).count file + _ = _
  rw [List.flatMap_append, List.count_append, hcloses]
  omega

variable {closes : List FileId}

/-- A step of a task that accounts for every file keeps the invariant. -/
theorem Inv.proceed (hi : s.tasks[i]? = some before)
    (cache : Cache HandleKey FileId) (client : Client) (hwf : cache.Wf maxOpenHandles)
    (hheld : ∀ file, cache.handles.count file + (s.tasks.flatMap Task.owned).count file +
        after.owned.count file + closes.count file =
      (if (client.opened file).isSome then 1 else 0) + before.owned.count file) :
    (({ s with cache := cache, client := client } : State).proceed i after closes).Inv := by
  refine ⟨hwf, fun file => ?_⟩
  have htasks := count_owned_proceed (s := { s with cache := cache, client := client }) hi after
    closes file
  have heq := hheld file
  change cache.handles.count file + _ = if (client.opened file).isSome then 1 else 0
  dsimp only at htasks
  omega

/-- A task that goes on with the files it had keeps the invariant. -/
theorem Inv.proceed_of_owned (h : s.Inv)
    (hi : s.tasks[i]? = some before) (howned : after.owned = before.owned) :
    (s.proceed i after []).Inv := by
  refine Inv.proceed hi s.cache s.client h.wf fun file => ?_
  have heq := h.held file
  rw [howned, List.count_nil]
  omega

/-- Taking handles out of the cache keeps the invariant where they are closed. -/
theorem Inv.takeOut (h : s.Inv)
    (hi : s.tasks[i]? = some before) (hnone : before.owned = []) (p : HandleKey → Bool)
    (hcloses : ∀ file, after.owned.count file + closes.count file =
      (s.cache.takeOut p).2.count file) :
    (({ s with cache := (s.cache.takeOut p).1 } : State).proceed i after closes).Inv := by
  refine Inv.proceed hi _ s.client (h.wf.takeOut p) fun file => ?_
  have heq := h.held file
  have htaken := Cache.count_takeOut p s.cache file
  have hclosed := hcloses file
  rw [hnone, List.count_nil]
  omega

/-- A file that was opened is in the hands of the task that opened it. -/
theorem Inv.openFile (h : s.Inv) {client : Client} {file : FileId}
    (hi : s.tasks[i]? = some before) (hnone : before.owned = []) (hafter : after.owned = [file])
    (hopen : s.client.openFile place disposition file = some client) :
    (({ s with client := client } : State).proceed i after []).Inv := by
  obtain ⟨hfree, -, hopened, -⟩ := openFile_spec hopen
  refine Inv.proceed hi s.cache _ h.wf fun f => ?_
  have heq := h.held f
  rw [hnone, hafter, hopened, List.count_nil, List.count_singleton]
  by_cases hf : f = file
  · rw [hf, hfree] at heq
    rw [hf, if_pos rfl, if_pos rfl, if_pos (beq_self_eq_true file)]
    simp only [Option.isSome_none, Bool.false_eq_true, if_false] at heq
    omega
  · have hne : (file == f) = false := beq_false_of_ne (Ne.symm hf)
    rw [if_neg hf, hne]
    simp only [Bool.false_eq_true, if_false]
    omega

/-- A file that a task has to close is open. -/
theorem Inv.opened_of_owned (h : s.Inv) {file : FileId} (ht : t ∈ s.tasks)
    (howned : file ∈ t.owned) : (s.client.opened file).isSome = true ∧
      s.cache.handles.count file = 0 ∧ (s.tasks.flatMap Task.owned).count file = 1 := by
  have heq := h.held file
  have hpos : 0 < (s.tasks.flatMap Task.owned).count file :=
    List.count_pos_iff.mpr (List.mem_flatMap.mpr ⟨t, ht, howned⟩)
  split at heq
  · next hopen => exact ⟨hopen, by omega, by omega⟩
  · omega

/-- A file that was closed is in no hands. -/
theorem Inv.closeFile (h : s.Inv) {file : FileId} {sent : Bool}
    {files : List FileId} {places : List Place} {access : Option Access}
    (hi : s.tasks[i]? = some (.closing file sent files places access))
    (hafter : after.owned = files) :
    (({ s with client := s.client.closeFile file } : State).proceed i after []).Inv := by
  refine Inv.proceed hi s.cache _ h.wf fun f => ?_
  have heq := h.held f
  have hbefore : (Task.closing file sent files places access).owned = file :: files := rfl
  rw [hafter, hbefore, List.count_nil, List.count_cons]
  by_cases hf : f = file
  · have hopened := h.opened_of_owned (List.mem_of_getElem? hi)
      (List.mem_cons_self : file ∈ file :: files)
    have hclosed : (s.client.closeFile file).opened f = none := if_pos hf
    rw [hclosed, hf, if_pos (beq_self_eq_true file)]
    rw [hf, hopened.1] at heq
    simp only [if_true] at heq
    simp only [Option.isSome_none, Bool.false_eq_true, if_false]
    omega
  · have hne : (file == f) = false := beq_false_of_ne (Ne.symm hf)
    have hsame : (s.client.closeFile file).opened f = s.client.opened f := if_neg hf
    rw [hsame, hne]
    simp only [Bool.false_eq_true, if_false]
    omega

variable {key : HandleKey}

/-- Installing a handle keeps the invariant. -/
theorem Inv.install (h : s.Inv) {file : FileId} (hi : s.tasks[i]? = some (.installing key file)) :
    (({ s with cache := (s.cache.install maxOpenHandles key file).1 } : State).proceed i
      (.ready key (s.cache.install maxOpenHandles key file).2.1)
      (s.cache.install maxOpenHandles key file).2.2).Inv := by
  have hbefore : (Task.installing key file).owned = [file] := rfl
  rcases Cache.install_cases (by decide) h.wf key file with ⟨e, -, -, heq⟩ | ⟨p, -, heq, hwf⟩
  · rw [heq]
    refine Inv.proceed hi _ s.client (h.wf.touch key) fun f => ?_
    have hheld := h.held f
    rw [Cache.handles_touch, hbefore]
    change s.cache.handles.count f + _ + List.count f [] + List.count f [file] = _
    rw [List.count_nil]
    omega
  · rw [heq]
    refine Inv.proceed hi _ s.client hwf fun f => ?_
    have hheld := h.held f
    have htaken := Cache.count_takeOut p (s.cache.insert key file) f
    have hinsert : (s.cache.insert key file).handles.count f =
        s.cache.handles.count f + List.count f [file] := by
      simp only [Cache.insert, Cache.handles, List.map_append, List.count_append, List.map_cons,
        List.map_nil]
    rw [hbefore]
    change _ + _ + List.count f [] + _ = _
    rw [List.count_nil]
    dsimp only
    omega

/-- Setting the information of a file keeps the invariant. -/
theorem Inv.setInformation (h : s.Inv) {file : FileId}
    (hi : s.tasks[i]? = some (.setting file info)) :
    (({ s with client := s.client.setInformation file info } : State).proceed i
      (.closeOne file) []).Inv := by
  refine Inv.proceed hi s.cache _ h.wf fun f => ?_
  have heq := h.held f
  have hsame : (Task.closeOne file).owned = (Task.setting file info).owned := rfl
  rw [opened_setInformation, hsame, List.count_nil]
  omega

/-- A new task has no files. -/
theorem Inv.start (h : s.Inv) (hnone : t.owned = []) : (s.start t).Inv := by
  refine ⟨h.wf, fun file => ?_⟩
  change _ + ((s.tasks ++ [t]).flatMap Task.owned).count file = _
  rw [List.flatMap_append, List.count_append, List.flatMap_singleton, hnone]
  exact h.held file

/-- Every step keeps the invariant. -/
theorem inv_step {s' : State} {a : Action} (h : s.Inv) (hstep : s.step a = some s') : s'.Inv := by
  cases a with
  | readFile place | writeFile place | createFile place exclusive | remove place
    | rename source target
    | setLen place =>
    cases hstep
    exact h.start rfl
  | advance i reply =>
    obtain ⟨t, hi, hact⟩ := Option.bind_eq_some_iff.mp hstep
    cases t with
    | lookup key =>
      simp only [advance] at hact
      split at hact
      · next e _ =>
        cases hact
        refine Inv.proceed hi _ s.client (h.wf.touch key) fun f => ?_
        have heq := h.held f
        rw [Cache.handles_touch]
        exact heq
      · cases hact
        exact h.proceed_of_owned hi rfl
    | opening key =>
      cases reply with
      | success id =>
        obtain ⟨client, hopen, rfl⟩ := Option.map_eq_some_iff.mp hact
        exact h.openFile hi rfl rfl hopen
      | failure =>
        cases hact
        exact h.proceed_of_owned hi rfl
    | installing key file =>
      cases hact
      exact h.install hi
    | ready key file =>
      cases hact
      exact h.proceed_of_owned hi rfl
    | transferring key file =>
      cases reply with
      | success id | failure =>
        cases hact
        exact h.proceed_of_owned hi rfl
    | failing key file =>
      cases hact
      exact h.takeOut hi rfl _ fun f => (Nat.zero_add _)
    | evicting places access =>
      cases places with
      | nil =>
        cases access with
        | none => cases hact
        | some access =>
          cases hact
          exact h.proceed_of_owned hi rfl
      | cons place places =>
        cases hact
        refine h.takeOut hi rfl _ fun f => ?_
        rw [owned_closeAll]
        rfl
    | closing file sent files places access =>
      cases sent with
      | false =>
        cases hact
        exact h.proceed_of_owned hi rfl
      | true =>
        cases hact
        exact h.closeFile hi (owned_closeAll _ _ _)
    | accessing access =>
      cases reply with
      | success id =>
        obtain ⟨client, hopen, rfl⟩ := Option.map_eq_some_iff.mp hact
        refine h.openFile hi rfl ?_ hopen
        split <;> rfl
      | failure =>
        cases hact
        exact h.proceed_of_owned hi rfl
    | setting file info =>
      cases reply with
      | success id =>
        cases hact
        exact h.setInformation hi
      | failure =>
        cases hact
        exact h.proceed_of_owned hi rfl

/-! ## Orderly runs -/

/-- The tasks after one went on and others were spawned. -/
theorem mem_proceed (ht : t ∈ (s.proceed i after closes).tasks) :
    t = after ∨ (∃ j, j ≠ i ∧ s.tasks[j]? = some t) ∨ ∃ f ∈ closes, t = Task.closeOne f := by
  rcases List.mem_append.mp ht with hset | hclose
  · obtain ⟨j, hj⟩ := List.mem_iff_getElem?.mp hset
    rw [List.getElem?_set] at hj
    split at hj
    · split at hj
      · exact .inl (Option.some.inj hj).symm
      · cases hj
    · next hij => exact .inr (.inl ⟨j, Ne.symm hij, hj⟩)
  · obtain ⟨f, hf, rfl⟩ := List.mem_map.mp hclose
    exact .inr (.inr ⟨f, hf, rfl⟩)

/-- Another task uses a file. -/
theorem inUse_iff {file : FileId} :
    s.inUse i file = true ↔ ∃ (j : ℕ) (t : Task), j ≠ i ∧ s.tasks[j]? = some t ∧
      t.uses = some file := by
  simp only [inUse, List.any_eq_true, List.mem_eraseIdx_iff_getElem?, decide_eq_true_eq]
  constructor
  · rintro ⟨t, ⟨j, hj, ht⟩, huses⟩
    exact ⟨j, t, hj, ht, huses⟩
  · rintro ⟨j, t, hj, ht, huses⟩
    exact ⟨t, ⟨j, hj, ht⟩, huses⟩

/-- A step of a task keeps all safe if the cached and the other opened handles denote what they
should and each file that is used is cached. -/
theorem Safe.proceed (cache : Cache HandleKey FileId) (client : Client)
    (hcached : ∀ e ∈ cache.entries, client.Denotes e.handle e.key.place)
    (hinstalling : ∀ j key file, j ≠ i → s.tasks[j]? = some (.installing key file) →
      client.Denotes file key.place)
    (hafter : ∀ key file, after = .installing key file → client.Denotes file key.place)
    (hused : ∀ (j : ℕ) (t : Task) (file : FileId), j ≠ i → s.tasks[j]? = some t →
      t.uses = some file → ∃ e ∈ cache.entries, e.handle = file ∧ t.key? = some e.key)
    (huses : ∀ file, after.uses = some file →
      ∃ e ∈ cache.entries, e.handle = file ∧ after.key? = some e.key) :
    (({ s with cache := cache, client := client } : State).proceed i after closes).Safe := by
  constructor
  · exact hcached
  · intro key file ht
    rcases mem_proceed ht with heq | ⟨j, hj, hother⟩ | ⟨f, -, hclose⟩
    · exact hafter key file heq.symm
    · exact hinstalling j key file hj hother
    · cases hclose
  · intro t ht file hfile
    rcases mem_proceed ht with rfl | ⟨j, hj, hother⟩ | ⟨f, -, rfl⟩
    · exact huses file hfile
    · exact hused j t file hj hother hfile
    · cases hfile

/-- A step that changes neither the cache nor the client keeps all safe. -/
theorem Safe.proceed_same (h : s.Safe) (hafter : ∀ key file, after ≠ .installing key file)
    (huses : ∀ file, after.uses = some file →
      ∃ e ∈ s.cache.entries, e.handle = file ∧ after.key? = some e.key) :
    (s.proceed i after []).Safe :=
  Safe.proceed s.cache s.client h.cached
    (fun _ key file _ ht => h.installing key file (List.mem_of_getElem? ht))
    (fun key file heq => absurd heq (hafter key file))
    (fun _ t file _ ht hfile => h.used t (List.mem_of_getElem? ht) file hfile) huses

/-- Taking out handles that no other task uses keeps all safe. -/
theorem Safe.takeOut (h : s.Safe)
    (p : HandleKey → Bool) (hfree : ∀ f ∈ (s.cache.takeOut p).2, s.inUse i f = false)
    (hafter : ∀ key file, after ≠ .installing key file) (huses : after.uses = none) :
    (({ s with cache := (s.cache.takeOut p).1 } : State).proceed i after closes).Safe := by
  refine Safe.proceed _ s.client (fun e he => h.cached e (Cache.mem_takeOut.mp he).1)
    (fun _ key file _ ht => h.installing key file (List.mem_of_getElem? ht))
    (fun key file heq => absurd heq (hafter key file)) ?_ ?_
  · intro j t file hj ht hfile
    obtain ⟨e, he, hhandle, hkey⟩ := h.used t (List.mem_of_getElem? ht) file hfile
    refine ⟨e, Cache.mem_takeOut.mpr ⟨he, ?_⟩, hhandle, hkey⟩
    rw [Bool.eq_false_iff]
    intro hp
    have hunused := hfree file (Cache.mem_taken.mpr ⟨e, he, hp, hhandle⟩)
    rw [inUse_iff.mpr ⟨j, t, hj, ht, hfile⟩] at hunused
    cases hunused
  · intro file hfile
    rw [huses] at hfile
    cases hfile

/-- A hit keeps all safe. -/
theorem Safe.touch (h : s.Safe) {e : Entry HandleKey FileId} (he : e ∈ s.cache.entries)
    (hkey : e.key = key) : (({ s with cache := s.cache.touch key } : State).proceed i
      (.ready key e.handle) closes).Safe := by
  refine Safe.proceed _ s.client ?_
    (fun _ key file _ ht => h.installing key file (List.mem_of_getElem? ht)) ?_ ?_ ?_
  · intro e' he'
    obtain ⟨d, hd, hdkey, hdhandle⟩ := Cache.exists_of_mem_touch he'
    rw [← hdkey, ← hdhandle]
    exact h.cached d hd
  · intro key' file' heq
    cases heq
  · intro j t file _ ht hfile
    obtain ⟨d, hd, hhandle, hdkey⟩ := h.used t (List.mem_of_getElem? ht) file hfile
    obtain ⟨e', he', hekey, hehandle⟩ := Cache.mem_touch key hd
    exact ⟨e', he', hehandle.trans hhandle, by rw [hdkey, hekey]⟩
  · intro file hfile
    cases hfile
    obtain ⟨e', he', hekey, hehandle⟩ := Cache.mem_touch key he
    exact ⟨e', he', hehandle, by rw [hekey, hkey]; rfl⟩

/-- Installing a handle keeps all safe if none that it displaces is used. -/
theorem Safe.install (hinv : s.Inv) (h : s.Safe)
    {file : FileId} (hi : s.tasks[i]? = some (.installing key file))
    (hfree : ∀ f ∈ (s.cache.install maxOpenHandles key file).2.2, s.inUse i f = false) :
    (({ s with cache := (s.cache.install maxOpenHandles key file).1 } : State).proceed i
      (.ready key (s.cache.install maxOpenHandles key file).2.1)
      (s.cache.install maxOpenHandles key file).2.2).Safe := by
  have hfile := h.installing key file (List.mem_of_getElem? hi)
  rcases Cache.install_cases (by decide) hinv.wf key file with
    ⟨e, he, hkey, heq⟩ | ⟨p, hp, heq, -⟩
  · rw [heq]
    exact h.touch he hkey
  · rw [heq] at hfree ⊢
    have hnew : (⟨key, file, s.cache.tick⟩ : Entry HandleKey FileId) ∈
        ((s.cache.insert key file).takeOut p).1.entries :=
      Cache.mem_takeOut.mpr ⟨List.mem_append_right _ (List.mem_singleton.mpr rfl), hp⟩
    refine Safe.proceed _ s.client ?_
      (fun _ key file _ ht => h.installing key file (List.mem_of_getElem? ht)) ?_ ?_ ?_
    · intro e he
      rcases List.mem_append.mp (Cache.mem_takeOut.mp he).1 with hold | hlast
      · exact h.cached e hold
      · rw [List.mem_singleton.mp hlast]
        exact hfile
    · intro key' file' hafter
      cases hafter
    · intro j t f hj ht hf
      obtain ⟨e, he, hhandle, hkey⟩ := h.used t (List.mem_of_getElem? ht) f hf
      have hmem : e ∈ (s.cache.insert key file).entries := List.mem_append_left _ he
      refine ⟨e, Cache.mem_takeOut.mpr ⟨hmem, ?_⟩, hhandle, hkey⟩
      rw [Bool.eq_false_iff]
      intro hpe
      have hunused := hfree f (Cache.mem_taken.mpr ⟨e, hmem, hpe, hhandle⟩)
      rw [inUse_iff.mpr ⟨j, t, hj, ht, hf⟩] at hunused
      cases hunused
    · intro f hf
      cases hf
      exact ⟨_, hnew, rfl, rfl⟩

/-- A file that was opened keeps all safe. -/
theorem Safe.openFile (h : s.Safe) {client : Client} {file : FileId}
    (hopen : s.client.openFile place disposition file = some client)
    (hafter : ∀ key f, after = .installing key f → key.place = place ∧ f = file)
    (huses : after.uses = none) :
    (({ s with client := client } : State).proceed i after []).Safe := by
  obtain ⟨-, hnew, -, hkept⟩ := openFile_spec hopen
  refine Safe.proceed s.cache _ (fun e he => hkept _ _ (h.cached e he))
    (fun _ key f _ ht => hkept _ _ (h.installing key f (List.mem_of_getElem? ht))) ?_
    (fun _ t f _ ht hf => h.used t (List.mem_of_getElem? ht) f hf) ?_
  · intro key f heq
    obtain ⟨hplace, hf⟩ := hafter key f heq
    rw [hplace, hf]
    exact hnew
  · intro f hf
    rw [huses] at hf
    cases hf

/-- Closing a file that a task has to close keeps all safe. -/
theorem Safe.closeFile (hinv : s.Inv) (h : s.Safe) {file : FileId}
    {sent : Bool} {files : List FileId} {places : List Place} {access : Option Access}
    (hi : s.tasks[i]? = some (.closing file sent files places access)) :
    (({ s with client := s.client.closeFile file } : State).proceed i
      (.closeAll files places access) []).Safe := by
  obtain ⟨-, hcache, hcount⟩ := hinv.opened_of_owned (List.mem_of_getElem? hi)
    (List.mem_cons_self : file ∈ file :: files)
  have hafter : ∀ key f, Task.closeAll files places access ≠ .installing key f := by
    intro key f
    cases files <;> simp [Task.closeAll]
  refine Safe.proceed s.cache _ ?_ ?_
    (fun key f heq => absurd heq (hafter key f))
    (fun _ t f _ ht hf => h.used t (List.mem_of_getElem? ht) f hf) ?_
  · intro e he
    refine denotes_closeFile (h.cached e he) ?_
    rintro rfl
    have hpos : 0 < s.cache.handles.count e.handle :=
      List.count_pos_iff.mpr (List.mem_map.mpr ⟨e, he, rfl⟩)
    omega
  · intro j key f hj ht
    refine denotes_closeFile (h.installing key f (List.mem_of_getElem? ht)) ?_
    -- the file would be in the hands of two tasks
    rintro rfl
    have htasks := count_owned_proceed hi Task.done [] f
    have hmem : Task.installing key f ∈ (s.proceed i Task.done []).tasks := by
      refine List.mem_append_left _ (List.mem_of_getElem? (i := j) ?_)
      rw [List.getElem?_set_ne (Ne.symm hj)]
      exact ht
    have hpos : 0 < ((s.proceed i Task.done []).tasks.flatMap Task.owned).count f :=
      List.count_pos_iff.mpr (List.mem_flatMap.mpr ⟨_, hmem, List.mem_singleton.mpr rfl⟩)
    have hown : 0 < (Task.closing f sent files places access).owned.count f :=
      List.count_pos_iff.mpr List.mem_cons_self
    have hdone : Task.done.owned.count f = 0 := rfl
    rw [hdone, List.count_nil] at htasks
    omega
  · intro f hf
    cases files <;> cases hf

/-- Setting information that affects no handle's path keeps all safe. -/
theorem Safe.setInformation (h : s.Safe) {file : FileId}
    (hfar : ∀ source, ((s.client.opened file).bind fun o => s.client.objects[o]?.join) =
      some source → ∀ k ∈ s.keys, affects source k.place info = false) :
    (({ s with client := s.client.setInformation file info } : State).proceed i
      (.closeOne file) []).Safe := by
  refine Safe.proceed s.cache _ ?_ ?_ (fun key f heq => by cases heq)
    (fun _ t f _ ht hf => h.used t (List.mem_of_getElem? ht) f hf) (fun f hf => by cases hf)
  · intro e he
    refine denotes_setInformation (h.cached e he) fun source hsource => ?_
    exact hfar source hsource e.key (List.mem_append_left _ (List.mem_map.mpr ⟨e, he, rfl⟩))
  · intro j key f _ ht
    have hmem := List.mem_of_getElem? ht
    refine denotes_setInformation (h.installing key f hmem) fun source hsource => ?_
    exact hfar source hsource key
      (List.mem_append_right _ (List.mem_filterMap.mpr ⟨_, hmem, rfl⟩))

/-- A new task that is at its beginning keeps all safe. -/
theorem Safe.start (h : s.Safe)
    (hnot : ∀ key file, t ≠ .installing key file) (huses : t.uses = none) : (s.start t).Safe := by
  constructor
  · exact h.cached
  · intro key file ht
    rcases List.mem_append.mp ht with hold | hnew
    · exact h.installing key file hold
    · exact absurd (List.mem_singleton.mp hnew).symm (hnot key file)
  · intro t' ht file hfile
    rcases List.mem_append.mp ht with hold | hnew
    · exact h.used t' hold file hfile
    · rw [List.mem_singleton.mp hnew, huses] at hfile
      cases hfile

/-- Every orderly step keeps all safe. -/
theorem safe_step {s' : State} {a : Action} (hinv : s.Inv) (h : s.Safe)
    (horderly : s.orderly a = true) (hstep : s.step a = some s') : s'.Safe := by
  cases a with
  | readFile place | writeFile place | createFile place exclusive | remove place
    | rename source target
    | setLen place =>
    cases hstep
    exact h.start (by simp) rfl
  | advance i reply =>
    obtain ⟨t, hi, hact⟩ := Option.bind_eq_some_iff.mp hstep
    have hended : (s.proceed i .done []).Safe :=
      h.proceed_same (by simp [Task.done]) fun file hfile => by cases hfile
    cases t with
    | lookup key =>
      simp only [advance] at hact
      split at hact
      · next e hfind =>
        cases hact
        obtain ⟨he, hkey⟩ := Cache.mem_of_find? hfind
        exact h.touch he hkey
      · cases hact
        exact h.proceed_same (by simp) fun file hfile => by cases hfile
    | opening key =>
      cases reply with
      | success id =>
        obtain ⟨client, hopen, rfl⟩ := Option.map_eq_some_iff.mp hact
        refine h.openFile hopen (fun key' f heq => ?_) rfl
        cases heq
        exact ⟨rfl, rfl⟩
      | failure =>
        cases hact
        exact hended
    | installing key file =>
      cases hact
      refine h.install hinv hi fun f hf => ?_
      simp only [orderly, hi, List.all_eq_true, Bool.not_eq_true'] at horderly
      exact horderly f hf
    | ready key file =>
      cases hact
      refine h.proceed_same (by simp) fun f hf => ?_
      exact h.used _ (List.mem_of_getElem? hi) f hf
    | transferring key file =>
      cases reply with
      | success id =>
        cases hact
        exact hended
      | failure =>
        cases hact
        refine h.proceed_same (by simp) fun f hf => ?_
        exact h.used _ (List.mem_of_getElem? hi) f hf
    | failing key file =>
      cases hact
      refine h.takeOut _ (fun f hf => ?_) (by simp [Task.done]) rfl
      simp only [orderly, hi, List.all_eq_true, Bool.not_eq_true'] at horderly
      exact horderly f hf
    | evicting places access =>
      cases places with
      | nil =>
        cases access with
        | none => cases hact
        | some access =>
          cases hact
          exact h.proceed_same (by simp) fun file hfile => by cases hfile
      | cons place places =>
        cases hact
        simp only [orderly, hi, List.all_eq_true, Bool.not_eq_true'] at horderly
        refine h.takeOut _ (fun f hf => horderly f hf) ?_ ?_
        · intro key file
          unfold Task.closeAll
          split <;> simp
        · unfold Task.closeAll
          split <;> rfl
    | closing file sent files places access =>
      cases sent with
      | false =>
        cases hact
        exact h.proceed_same (by simp) fun f hf => by cases hf
      | true =>
        cases hact
        exact h.closeFile hinv hi
    | accessing access =>
      cases reply with
      | success id =>
        obtain ⟨client, hopen, rfl⟩ := Option.map_eq_some_iff.mp hact
        refine h.openFile hopen ?_ ?_
        · intro key f heq
          split at heq
          · cases heq
          · cases heq
        · split <;> rfl
      | failure =>
        cases hact
        exact hended
    | setting file info =>
      cases reply with
      | success id =>
        cases hact
        refine h.setInformation fun source hsource k hk => ?_
        simp only [orderly, hi, hsource, List.all_eq_true, Bool.not_eq_true', Bool.or_eq_true,
          decide_eq_true_iff] at horderly
        rcases horderly with hfailed | hfar
        · cases hfailed
        · exact hfar k hk
      | failure =>
        cases hact
        exact h.proceed_same (by simp [Task.closeOne]) fun f hf => by cases hf

/-- What is sent where all is safe is proper. -/
theorem proper_of_safe (hinv : s.Inv) (h : s.Safe) (a : Action) : s.Proper a := by
  unfold Proper
  split
  · next i reply =>
    split
    · next key file hi =>
      obtain ⟨e, he, hhandle, hkey⟩ := h.used _ (List.mem_of_getElem? hi) file rfl
      have hkey' : key = e.key := Option.some.inj hkey
      rw [hkey', ← hhandle]
      exact h.cached e he
    · next file files places access hi =>
      obtain ⟨hopen, hcache, hcount⟩ := hinv.opened_of_owned (List.mem_of_getElem? hi)
        (List.mem_cons_self : file ∈ file :: files)
      refine ⟨hopen, hcache, hcount, fun t ht huses => ?_⟩
      obtain ⟨e, he, hhandle, -⟩ := h.used t ht file huses
      have hpos : 0 < s.cache.handles.count file :=
        List.count_pos_iff.mpr (List.mem_map.mpr ⟨e, he, hhandle⟩)
      omega
    · trivial
  · trivial

/-- The open files are accounted for and the cache is bounded. -/
theorem Inv.kept (h : s.Inv) : s.Kept := by
  refine ⟨fun file hopen => ?_, h.wf.length_le⟩
  have heq := h.held file
  rw [hopen, if_pos rfl] at heq
  by_cases hcache : file ∈ s.cache.handles
  · exact .inl hcache
  · rw [List.count_eq_zero.mpr hcache, Nat.zero_add] at heq
    have hpos : 0 < (s.tasks.flatMap Task.owned).count file := by omega
    exact .inr (List.mem_flatMap.mp (List.count_pos_iff.mp hpos))

/-- A client with its files, and no handle yet. -/
theorem inv_new (objects : List (Option Place)) : (new objects).Inv :=
  ⟨⟨fun e he => (by cases he), List.nodup_nil, Nat.zero_le _⟩, fun _ => rfl⟩

/-- In every run the open files are accounted for and the cache is bounded, and in an orderly
one whatever is sent is proper. -/
theorem proper_of_orderly {objects : List (Option Place)} {acts : List Action} {t : State}
    (hrun : run step (new objects) acts = some t) :
    t.Kept ∧ (Meets step (fun s a => s.orderly a = true) (new objects) acts →
      Meets step Proper (new objects) acts) := by
  constructor
  · exact (run_invariant_of_step Inv (fun s a s' h hstep => inv_step h hstep) (inv_new objects)
      hrun).kept
  · intro hmeets
    have hstep : ∀ (s : State) (a : Action) (s' : State), s.Inv ∧ s.Safe → s.orderly a = true →
        s.step a = some s' → s'.Inv ∧ s'.Safe :=
      fun s a s' h horderly hs => ⟨inv_step h.1 hs, safe_step h.1 h.2 horderly hs⟩
    have hnew : (new objects).Inv ∧ (new objects).Safe :=
      ⟨inv_new objects, fun e he => (by cases he), fun key file ht => (by cases ht),
        fun t ht => (by cases ht)⟩
    exact Meets.of_invariant (fun s => s.Inv ∧ s.Safe) hstep
      (fun s a h _ => proper_of_safe h.1 h.2 a) hnew hmeets

/-- A file on the first device. -/
def file (name : String) : Place := ⟨1, [name]⟩

/-- Two reads of a file open it both, one fails on it, and it is renamed and written to. -/
def turns : List Action :=
  [.readFile (file "a"), .readFile (file "a"), .advance 0 .failure, .advance 1 .failure,
    .advance 0 (.success 7), .advance 1 (.success 8), .advance 1 .failure, .advance 0 .failure,
    .advance 2 .failure, .advance 0 .failure, .advance 1 .failure, .advance 1 (.success 0),
    .advance 0 .failure, .advance 0 .failure, .advance 2 (.success 0), .advance 3 .failure,
    .advance 3 (.success 0), .rename (file "a") (file "b"), .advance 4 .failure,
    .advance 4 .failure, .advance 4 .failure, .advance 4 (.success 7), .advance 4 (.success 0),
    .advance 4 .failure, .advance 4 (.success 0), .writeFile (file "b"), .advance 5 .failure,
    .advance 5 (.success 7), .advance 5 .failure, .advance 5 .failure, .advance 5 (.success 0)]

/-- All that is sent is proper, and the handle of the new path is left in the cache. -/
theorem proper_turns :
    ((run step (new [some (file "a")]) turns).map fun s =>
        (s.cache.handles, s.tasks.all fun t => decide (t = Task.done))) =
      some ([⟨1, 7⟩], true) ∧ Meets step Proper (new [some (file "a")]) turns := by
  refine ⟨by decide +kernel, ?_⟩
  cases hrun : run step (new [some (file "a")]) turns with
  | none =>
    have hsome : (run step (new [some (file "a")]) turns).isSome = true := by decide +kernel
    rw [hrun] at hsome
    cases hsome
  | some t => exact (proper_of_orderly hrun).2 (meetsBool_iff.mp (by decide +kernel))

/-- A read acquires a handle; the file is removed, and its handle evicted and closed; the id is
given to another file; then the read is sent. -/
def reused : List Action :=
  [.readFile (file "a"), .advance 0 .failure, .advance 0 (.success 7), .advance 0 .failure,
    .remove (file "a"), .advance 1 .failure, .advance 1 .failure, .advance 1 (.success 0),
    .readFile (file "b"), .advance 2 .failure, .advance 2 (.success 7)]

/-- The read of one file goes to another one. -/
theorem not_proper_reused :
    ¬ ∀ (objects : List (Option Place)) (acts : List Action) (t : State),
      run step (new objects) acts = some t → Meets step Proper (new objects) acts := by
  intro h
  have hsome : (run step (new [some (file "a"), some (file "b")])
      (reused ++ [.advance 0 .failure])).isSome = true := by decide +kernel
  obtain ⟨t, ht⟩ := Option.isSome_iff_exists.mp hsome
  have hmeets := ((meets_append reused [.advance 0 .failure] _).mp (h _ _ t ht)).2
  cases hrun : run step (new [some (file "a"), some (file "b")]) reused with
  | none =>
    have hbefore : (run step (new [some (file "a"), some (file "b")]) reused).isSome = true := by
      decide +kernel
    rw [hrun] at hbefore
    cases hbefore
  | some s =>
    have hstate : (run step (new [some (file "a"), some (file "b")]) reused).map
        (fun s => (s.tasks[0]?, s.client.opened ⟨1, 7⟩, s.client.objects)) =
          some (some (.ready ⟨file "a", .read⟩ ⟨1, 7⟩), some 1,
            [some (file "a"), some (file "b")]) := by decide +kernel
    rw [hrun, Option.map_some, Option.some.injEq] at hstate
    obtain ⟨htask, hrest⟩ := Prod.mk.inj hstate
    obtain ⟨hopened, hobjects⟩ := Prod.mk.inj hrest
    have hproper : s.Proper (.advance 0 .failure) := (hmeets s hrun).1
    simp only [Proper, htask] at hproper
    obtain ⟨o, ho, hplace⟩ := hproper
    rw [hopened, Option.some.injEq] at ho
    rw [← ho, hobjects] at hplace
    revert hplace
    decide

end State

end Macrdp.DriveHandles
