import Macrdp.RemotePaste

/-!
# Superseded and disconnected pastes

A new list, and the end of a connection, cancel neither a running download nor a
closure that waits for the run loop. What they publish and make then is of a list
that is no longer the last one. The steps that keep the pasteboard and the tables
true to the last list are told from the state they are taken in.
-/

namespace Macrdp.RemotePaste

open StepSystem

namespace State

/-- What is published is the last list's top level, in the temp directory that is stored. -/
def Current (s : State) : Prop :=
  ∀ p, s.pasteboard.contents = some p →
    p.list = s.lists ∧ s.currentTempDir = some p.dir ∧ p.urls = topLevel p.dir s.latest

/-- Nothing is registered for a connection that ended after the last list. -/
def NoneLeft (s : State) : Prop :=
  (∀ q ∈ s.registry, q.conn ∉ s.ended) ∧ ∀ q ∈ s.livePresenters, q.conn ∉ s.ended

/-- What is published is current, and the ends of connections after the last list left nothing
behind and are followed by nothing. -/
structure Tidy (s : State) : Prop where
  current : s.Current
  noneLeft : s.NoneLeft
  onTime : s.late = false

/-- A list is the last one, its temp directory is the one that is stored, and no connection has
ended since. -/
def mayPublish (s : State) (list : FileList) (dir : ℕ) : Bool :=
  decide (list.number = s.lists ∧ s.currentTempDir = some dir ∧ s.ended = ∅)

/-- A list arrives, and a task starts, only when no remote files are on the pasteboard; what is
published is the last list's; no directory is made for a connection that ended; and at the end of
a connection the run loop has taken up all that was registered for it. -/
def orderly (s : State) : Action → Bool
  | .fileList _ _ _ _ => decide (s.pasteboard.contents = none)
  | .start i made ok =>
    match s.tasks[i]? with
    | some (.spawned list) =>
      (!made || decide (list.conn ∉ s.ended)) &&
        if made && list.safe && ok && (skipEmpty (files list.entries)).isEmpty &&
            !(topLevel s.nextDir list.entries).isEmpty then
          decide (list.number = s.lists ∧ s.ended = ∅)
        else decide (s.pasteboard.contents = none)
    | _ => true
  | .fetched i complete ok =>
    match s.tasks[i]? with
    | some (.fetching list dir left) =>
      (!complete || left.tail.isEmpty || decide (list.conn ∉ s.ended)) &&
        (!(complete && (left.tail.isEmpty || ok && (skipEmpty left.tail).isEmpty) &&
            !(topLevel dir list.entries).isEmpty) || s.mayPublish list dir)
    | _ => true
  | .runLoop =>
    match s.queue.head? with
    | some (.present list dir presenters) =>
      decide (∀ q ∈ presenters, q.conn ∉ s.ended) &&
        ((topLevel dir list.entries).isEmpty || s.mayPublish list dir)
    | _ => true
  | .disconnect conn => decide (∀ q ∈ s.registry, q.conn = conn → q ∈ s.livePresenters)
  | _ => true

/-- A list is known: it is not of the future, and the last one has the last entries. -/
def Known (s : State) (list : FileList) : Prop :=
  list.number ≤ s.lists ∧ (list.number = s.lists → list.entries = s.latest)

/-- What holds in every run. -/
structure Inv (s : State) : Prop where
  dir_lt : ∀ d, s.currentTempDir = some d → d < s.nextDir
  known_job : ∀ list dir presenters, Job.present list dir presenters ∈ s.queue → s.Known list
  known_task : ∀ t ∈ s.tasks, s.Known t.list
  /-- Our latest write is what is on the pasteboard. -/
  ours : ∀ p, s.pasteboard.contents = some p → (s.pasteboard.changeCount : ℤ) = s.selfChangeCount

/-- Only the cell and the disk change when the temp directory is taken. -/
theorem takeTempDir_eq (s : State) :
    s.takeTempDir = { s with currentTempDir := none, onDisk := s.takeTempDir.onDisk } := by
  unfold takeTempDir
  split
  · next hnone => rw [← hnone]
  · rfl

variable {s : State} {list : FileList} {dir conn : ℕ}

/-- A publication is tidy exactly if it is of the last list. -/
theorem tidy_publish (hknown : s.Known list)
    (hurls : topLevel dir list.entries ≠ []) (hleft : s.NoneLeft) :
    (s.publishToPasteboard list dir).Tidy ↔ s.late = false ∧ s.mayPublish list dir = true := by
  have heq : s.publishToPasteboard list dir =
      { s with
        pasteboard :=
          ⟨s.pasteboard.changeCount + 1, some ⟨list.number, dir, topLevel dir list.entries⟩⟩
        selfChangeCount := s.pasteboard.changeCount + 1
        late := s.late || decide (s.ended ≠ ∅) } := if_neg hurls
  rw [heq, mayPublish, decide_eq_true_iff]
  constructor
  · intro h
    have hcurrent := h.current _ rfl
    obtain ⟨hlate, hended⟩ := Bool.or_eq_false_iff.mp h.onTime
    exact ⟨hlate, hcurrent.1, hcurrent.2.1, by simpa using hended⟩
  · rintro ⟨hlate, hnumber, hdir, hended⟩
    constructor
    · intro p hp
      cases hp
      have hentries : list.entries = s.latest := hknown.2 hnumber
      exact ⟨hnumber, hdir, by rw [hentries]⟩
    · exact hleft
    · have hnone : decide (s.ended ≠ ∅) = false := by simp [hended]
      exact Bool.or_eq_false_iff.mpr ⟨hlate, hnone⟩

/-- Without top-level paths nothing is published. -/
theorem publish_nothing
    (hurls : topLevel dir list.entries = []) : s.publishToPasteboard list dir = s := if_pos hurls

/-- A state is as tidy as one with the same pasteboard, cell, lists and tables. -/
theorem Tidy.of_same {s' : State} (h : s.Tidy) (hpb : s'.pasteboard.contents = s.pasteboard.contents)
    (hdir : s'.currentTempDir = s.currentTempDir) (hlists : s'.lists = s.lists)
    (hlatest : s'.latest = s.latest) (hended : s'.ended = s.ended) (hlate : s'.late = s.late)
    (hregistry : s'.registry ⊆ s.registry) (hlive : s'.livePresenters ⊆ s.livePresenters) :
    s'.Tidy := by
  constructor
  · intro p hp
    rw [hpb] at hp
    rw [hlists, hdir, hlatest]
    exact h.current p hp
  · rw [NoneLeft, hended]
    exact ⟨fun q hq => h.noneLeft.1 q (hregistry hq), fun q hq => h.noneLeft.2 q (hlive hq)⟩
  · rw [hlate]
    exact h.onTime

/-- Clearing changes only the pasteboard, and leaves it as it was or without remote files. -/
theorem clearPasteboardIfStale_spec (s : State) :
    (s.clearPasteboardIfStale.pasteboard.contents = s.pasteboard.contents ∨
        s.clearPasteboardIfStale.pasteboard.contents = none) ∧
      s.clearPasteboardIfStale = { s with
        pasteboard := s.clearPasteboardIfStale.pasteboard
        selfChangeCount := s.clearPasteboardIfStale.selfChangeCount } := by
  unfold clearPasteboardIfStale
  split
  · exact ⟨.inr rfl, rfl⟩
  · exact ⟨.inl rfl, rfl⟩

/-- What an arriving list leaves as it was. -/
theorem onRemoteFileList_spec (s : State) (conn : ℕ) (entries : List RemoteEntry) (made : Bool)
    (failsAfter : Option ℕ) :
    (s.onRemoteFileList conn entries made failsAfter).pasteboard = s.pasteboard ∧
      (s.onRemoteFileList conn entries made failsAfter).lists = s.lists + 1 ∧
      (s.onRemoteFileList conn entries made failsAfter).ended = ∅ ∧
      (s.onRemoteFileList conn entries made failsAfter).late = s.late := by
  have htask : ∀ (t : State) (list : FileList), (t.spawnRemotePaste list).pasteboard = t.pasteboard ∧
      (t.spawnRemotePaste list).lists = t.lists ∧ (t.spawnRemotePaste list).ended = t.ended ∧
      (t.spawnRemotePaste list).late = t.late := by
    intro t list
    unfold spawnRemotePaste
    split <;> exact ⟨rfl, rfl, rfl, rfl⟩
  have hlazy : ∀ (t : State) (list : FileList), t.ended = ∅ →
      (t.spawnLazyPaste list made failsAfter).1.pasteboard = t.pasteboard ∧
      (t.spawnLazyPaste list made failsAfter).1.lists = t.lists ∧
      (t.spawnLazyPaste list made failsAfter).1.ended = t.ended ∧
      (t.spawnLazyPaste list made failsAfter).1.late = t.late := by
    intro t list hended
    have hlate : (t.late || decide (list.conn ∈ t.ended)) = t.late := by simp [hended]
    unfold spawnLazyPaste
    rw [cleanupPrevious, takeTempDir_eq]
    split
    · exact ⟨rfl, rfl, rfl, rfl⟩
    · split
      · exact ⟨rfl, rfl, rfl, rfl⟩
      · split
        · exact ⟨rfl, rfl, rfl, rfl⟩
        · dsimp only
          split
          · exact ⟨rfl, rfl, rfl, hlate⟩
          · split <;> exact ⟨rfl, rfl, rfl, hlate⟩
  unfold onRemoteFileList
  dsimp only
  split
  · have hl := hlazy { s with lists := s.lists + 1, latest := entries, ended := ∅ }
      ⟨s.lists + 1, conn, entries⟩ rfl
    split
    · exact hl
    · have ht := htask (({ s with lists := s.lists + 1, latest := entries, ended := ∅ } :
        State).spawnLazyPaste ⟨s.lists + 1, conn, entries⟩ made failsAfter).1
        ⟨s.lists + 1, conn, entries⟩
      exact ⟨ht.1.trans hl.1, ht.2.1.trans hl.2.1, ht.2.2.1.trans hl.2.2.1,
        ht.2.2.2.trans hl.2.2.2⟩
  · exact htask _ _

/-- An arriving list leaves things tidy exactly if no remote files are on the pasteboard. -/
theorem tidy_fileList {entries : List RemoteEntry} {made : Bool}
    {failsAfter : Option ℕ} (ht : s.Tidy) :
    (s.onRemoteFileList conn entries made failsAfter).Tidy ↔ s.pasteboard.contents = none := by
  obtain ⟨hpb, hlists, hended, hlate⟩ := onRemoteFileList_spec s conn entries made failsAfter
  constructor
  · intro h
    cases hcontents : s.pasteboard.contents with
    | none => rfl
    | some p =>
      have hnew := (h.current p (by rw [hpb, hcontents])).1
      have hold := (ht.current p hcontents).1
      omega
  · intro hnone
    constructor
    · intro p hp
      rw [hpb, hnone] at hp
      cases hp
    · rw [NoneLeft, hended]
      exact ⟨fun q _ => Finset.notMem_empty _, fun q _ => Finset.notMem_empty _⟩
    · rw [hlate]
      exact ht.onTime

/-- The tasks do not matter. -/
theorem tidy_tasks {tasks : List Task} : ({ s with tasks := tasks } : State).Tidy ↔
    s.Tidy :=
  ⟨fun h => ⟨h.current, h.noneLeft, h.onTime⟩, fun h => ⟨h.current, h.noneLeft, h.onTime⟩⟩

/-- A task that goes on leaves things tidy exactly if it may publish what it publishes. -/
theorem tidy_proceed {i : ℕ} {left : List RemoteEntry}
    (hknown : s.Known list) (hleft : s.NoneLeft) :
    (s.proceed i list dir left).Tidy ↔
      if (skipEmpty left).isEmpty = true ∧ (topLevel dir list.entries).isEmpty = false then
        s.late = false ∧ s.mayPublish list dir = true
      else s.Tidy := by
  unfold proceed
  by_cases hskip : skipEmpty left = []
  · rw [if_pos hskip]
    by_cases hurls : topLevel dir list.entries = []
    · rw [publish_nothing hurls, if_neg (by simp [hurls])]
      exact tidy_tasks
    · have hpublishes : (skipEmpty left).isEmpty = true ∧
          (topLevel dir list.entries).isEmpty = false := by simp [hskip, hurls]
      rw [if_pos hpublishes]
      exact tidy_publish hknown hurls hleft
  · rw [if_neg hskip, if_neg (by simp [hskip])]
    exact tidy_tasks

/-- Directories are made in time exactly if their connection has not ended. -/
theorem late_makeDirs (dir : ℕ) (hlate : s.late = false) :
    (s.makeDirs conn dir).late = false ↔ conn ∉ s.ended := by
  have heq : (s.makeDirs conn dir).late = (s.late || decide (conn ∈ s.ended)) := rfl
  rw [heq, hlate]
  simp

/-- Directories are made anew exactly if their connection has not ended. -/
theorem tidy_makeDirs (ht : s.Tidy) : (s.makeDirs conn dir).Tidy ↔ conn ∉ s.ended := by
  rw [← late_makeDirs dir ht.onTime]
  exact ⟨fun h => h.onTime, fun h => ⟨ht.current, ht.noneLeft, h⟩⟩

/-- A task's step after a file leaves things tidy exactly if it is orderly. -/
theorem tidy_fetched {i : ℕ} {left : List RemoteEntry}
    {complete ok : Bool} (ht : s.Tidy) (hknown : s.Known list)
    (htask : s.tasks[i]? = some (.fetching list dir left)) :
    (s.fetched i list dir left complete ok).Tidy ↔ s.orderly (.fetched i complete ok) = true := by
  have hyes : ¬ true = false := by decide
  simp only [orderly, htask]
  unfold fetched
  cases complete with
  | false => simpa using tidy_tasks.mpr ht
  | true =>
    by_cases htail : left.tail = []
    · have hempty : (skipEmpty []).isEmpty = true := rfl
      rw [if_neg hyes, if_pos htail, tidy_proceed hknown ht.noneLeft]
      simp only [htail, hempty, true_and, List.isEmpty_nil]
      cases hurls : (topLevel dir list.entries).isEmpty with
      | true => simpa using ht
      | false => simp [ht.onTime]
    · have htail' : left.tail.isEmpty = false := by simpa using htail
      have hknown' : (s.makeDirs list.conn dir).Known list := hknown
      rw [if_neg hyes, if_neg htail]
      cases ok with
      | false => simp [tidy_tasks, tidy_makeDirs ht, htail']
      | true =>
        have hmay : (s.makeDirs list.conn dir).mayPublish list dir = s.mayPublish list dir := rfl
        dsimp only
        rw [if_neg hyes, tidy_proceed hknown' ht.noneLeft, hmay,
          tidy_makeDirs ht, late_makeDirs dir ht.onTime]
        cases hskip : (skipEmpty left.tail).isEmpty <;>
          cases hurls : (topLevel dir list.entries).isEmpty <;> simp [htail']

/-- A new temp directory is tidy exactly if no remote files are on the pasteboard and its
connection has not ended. -/
theorem tidy_makeTempDir (hinv : s.Inv) (ht : s.Tidy) :
    (s.takeTempDir.makeTempDir conn).Tidy ↔ conn ∉ s.ended ∧ s.pasteboard.contents = none := by
  have hlate : (s.takeTempDir.makeTempDir conn).late = (s.late || decide (conn ∈ s.ended)) := by
    rw [takeTempDir_eq]
    rfl
  have hdir : (s.takeTempDir.makeTempDir conn).currentTempDir = some s.nextDir := by
    rw [takeTempDir_eq]
    rfl
  have hpb : (s.takeTempDir.makeTempDir conn).pasteboard = s.pasteboard := by
    rw [takeTempDir_eq]
    rfl
  constructor
  · intro h
    have hin : decide (conn ∈ s.ended) = false := by
      have := h.onTime
      rw [hlate] at this
      exact (Bool.or_eq_false_iff.mp this).2
    refine ⟨of_decide_eq_false hin, ?_⟩
    cases hcontents : s.pasteboard.contents with
    | none => rfl
    | some p =>
      have hnew := (h.current p (by rw [hpb, hcontents])).2.1
      have hold := hinv.dir_lt p.dir (ht.current p hcontents).2.1
      rw [hdir, Option.some.injEq] at hnew
      omega
  · rintro ⟨hconn, hnone⟩
    constructor
    · intro p hp
      rw [hpb, hnone] at hp
      cases hp
    · rw [takeTempDir_eq]
      exact ht.noneLeft
    · rw [hlate, ht.onTime]
      simpa using hconn

/-- A task's first step leaves things tidy exactly if it is orderly. -/
theorem tidy_start {i : ℕ} {made ok : Bool} (hinv : s.Inv)
    (ht : s.Tidy) (hknown : s.Known list) (htask : s.tasks[i]? = some (.spawned list)) :
    (s.start i list made ok).Tidy ↔ s.orderly (.start i made ok) = true := by
  have hyes : ¬ true = false := by decide
  have hnext : s.takeTempDir.nextDir = s.nextDir := by
    rw [takeTempDir_eq]
  simp only [orderly, htask]
  unfold start
  dsimp only
  cases made with
  | false =>
    have hnone : s.takeTempDir.Tidy ↔ s.pasteboard.contents = none := by
      rw [takeTempDir_eq]
      constructor
      · intro h
        cases hcontents : s.pasteboard.contents with
        | none => rfl
        | some p => cases (h.current p hcontents).2.1
      · intro hnone
        refine ⟨fun p hp => ?_, ht.noneLeft, ht.onTime⟩
        have hp' : s.pasteboard.contents = some p := hp
        rw [hnone] at hp'
        cases hp'
    simpa [tidy_tasks] using hnone
  | true =>
    have htemp : (s.takeTempDir.makeTempDir list.conn).Tidy ↔
        list.conn ∉ s.ended ∧ s.pasteboard.contents = none := tidy_makeTempDir hinv ht
    rw [if_neg hyes, hnext]
    by_cases hstops : list.safe = false ∨ ok = false
    · rw [if_pos hstops, tidy_tasks, htemp]
      rcases hstops with hsafe | hok
      · simp [hsafe]
      · simp [hok]
    · rw [not_or, Bool.not_eq_false, Bool.not_eq_false] at hstops
      obtain ⟨hsafe, hok⟩ := hstops
      have hknown' : (s.takeTempDir.makeTempDir list.conn).Known list := by
        rw [takeTempDir_eq]
        exact hknown
      have hleft' : (s.takeTempDir.makeTempDir list.conn).NoneLeft := by
        rw [takeTempDir_eq]
        exact ht.noneLeft
      have hmay : (s.takeTempDir.makeTempDir list.conn).mayPublish list s.nextDir =
          decide (list.number = s.lists ∧ s.ended = ∅) := by
        rw [takeTempDir_eq, mayPublish]
        simp [makeTempDir, makeDirs]
      have hlate : (s.takeTempDir.makeTempDir list.conn).late = false ↔ list.conn ∉ s.ended := by
        rw [takeTempDir_eq]
        exact late_makeDirs s.nextDir ht.onTime
      rw [if_neg (by simp [hsafe, hok]), tidy_proceed hknown' hleft', hmay, htemp, hlate]
      cases hskip : (skipEmpty (files list.entries)).isEmpty <;>
        cases hurls : (topLevel s.nextDir list.entries).isEmpty <;> simp [hsafe, hok]

/-- A closure leaves things tidy exactly if it is orderly. -/
theorem tidy_runLoop {job : Job} {queue : List Job} (hinv : s.Inv) (ht : s.Tidy)
    (hqueue : s.queue = job :: queue) :
    (({ s with queue := queue } : State).runJob job).Tidy ↔ s.orderly .runLoop = true := by
  simp only [orderly, hqueue, List.head?_cons]
  cases job with
  | remove presenters => exact iff_of_true ⟨ht.current, ht.noneLeft, ht.onTime⟩ rfl
  | present list dir presenters =>
    have hknown : s.Known list := hinv.known_job list dir presenters (by rw [hqueue]; simp)
    let t : State := { s with
      queue := queue
      coordinated := s.coordinated ∪ presenters
      livePresenters := s.livePresenters ∪ presenters }
    have hleft : t.NoneLeft ↔ ∀ q ∈ presenters, q.conn ∉ s.ended := by
      constructor
      · exact fun h q hq => h.2 q (Finset.mem_union_right _ hq)
      · intro h
        refine ⟨ht.noneLeft.1, fun q hq => ?_⟩
        rcases Finset.mem_union.mp hq with hold | hnew
        · exact ht.noneLeft.2 q hold
        · exact h q hnew
    have hjob : (({ s with queue := queue } : State).runJob (.present list dir presenters)) =
        t.publishToPasteboard list dir := rfl
    rw [hjob, Bool.and_eq_true, decide_eq_true_iff, ← hleft]
    by_cases hurls : topLevel dir list.entries = []
    · rw [publish_nothing hurls]
      have hempty : (topLevel dir list.entries).isEmpty = true := by simp [hurls]
      rw [hempty, Bool.true_or]
      exact ⟨fun h => ⟨h.noneLeft, rfl⟩, fun h => ⟨ht.current, h.1, ht.onTime⟩⟩
    · have hempty : (topLevel dir list.entries).isEmpty = false := by simpa using hurls
      rw [hempty, Bool.false_or]
      constructor
      · intro h
        have hnone : t.NoneLeft := by
          have hkept := h.noneLeft
          rw [publishToPasteboard, if_neg hurls] at hkept
          exact hkept
        have hpublish := (tidy_publish (s := t) hknown hurls hnone).mp h
        exact ⟨hnone, hpublish.2⟩
      · intro h
        exact (tidy_publish (s := t) hknown hurls h.1).mpr ⟨ht.onTime, h.2⟩

/-- At the end of a connection no remote files stay on the pasteboard. -/
theorem contents_cleanupOnDisconnect (hinv : s.Inv) :
    s.cleanupOnDisconnect.pasteboard.contents = none := by
  have hsame : s.cleanupPrevious.pasteboard = s.pasteboard ∧
      s.cleanupPrevious.selfChangeCount = s.selfChangeCount := by
    rw [cleanupPrevious, takeTempDir_eq]
    exact ⟨rfl, rfl⟩
  unfold cleanupOnDisconnect clearPasteboardIfStale
  rw [hsame.1, hsame.2]
  split
  · rfl
  · next hother =>
    rw [hsame.1]
    cases hcontents : s.pasteboard.contents with
    | none => rfl
    | some p =>
      have hours := hinv.ours p hcontents
      omega

/-- The end of a connection leaves things tidy exactly if all its presenters were taken up. -/
theorem tidy_disconnect (hinv : s.Inv) (ht : s.Tidy) :
    ({ s.cleanupOnDisconnect with
        connections := s.connections.erase conn, ended := insert conn s.ended } : State).Tidy ↔
      s.orderly (.disconnect conn) = true := by
  have htables : s.cleanupOnDisconnect.registry = s.registry \ s.livePresenters ∧
      s.cleanupOnDisconnect.livePresenters = ∅ ∧ s.cleanupOnDisconnect.late = s.late := by
    rw [cleanupOnDisconnect, (clearPasteboardIfStale_spec _).2, cleanupPrevious, takeTempDir_eq]
    exact ⟨rfl, rfl, rfl⟩
  obtain ⟨hregistry, hlive, hlate⟩ := htables
  rw [orderly, decide_eq_true_iff]
  constructor
  · intro h q hq hconn
    by_contra hnot
    have hkept : q ∈ s.cleanupOnDisconnect.registry := by
      rw [hregistry]
      exact Finset.mem_sdiff.mpr ⟨hq, hnot⟩
    exact h.noneLeft.1 q hkept (hconn ▸ Finset.mem_insert_self _ _)
  · intro h
    constructor
    · intro p hp
      have hnone := contents_cleanupOnDisconnect hinv
      rw [hnone] at hp
      cases hp
    · constructor
      · intro q hq
        have hkept : q ∈ s.registry \ s.livePresenters := hregistry ▸ hq
        obtain ⟨hmem, hnot⟩ := Finset.mem_sdiff.mp hkept
        intro hended
        rcases Finset.mem_insert.mp hended with hconn | hold
        · exact hnot (h q hmem hconn)
        · exact ht.noneLeft.1 q hmem hold
      · intro q hq
        have hkept : q ∈ s.cleanupOnDisconnect.livePresenters := hq
        rw [hlive] at hkept
        exact absurd hkept (Finset.notMem_empty q)
    · exact hlate.trans ht.onTime

/-- A new process has published nothing. -/
theorem inv_new (lazyPaste : Bool) (changeCount : ℕ) : (State.new lazyPaste changeCount).Inv where
  dir_lt := fun d hd => by cases hd
  known_job := fun list dir presenters hj => absurd hj List.not_mem_nil
  known_task := fun t ht => absurd ht List.not_mem_nil
  ours := fun p hp => by cases hp

/-- Only the cell changes when the temp directory is taken. -/
theorem Inv.takeTempDir (h : s.Inv) : s.takeTempDir.Inv := by
  rw [takeTempDir_eq]
  exact ⟨fun d hd => (by cases hd), h.known_job, h.known_task, h.ours⟩

/-- A new temp directory is the latest. -/
theorem Inv.makeTempDir (h : s.Inv) (conn : ℕ) : (s.makeTempDir conn).Inv := by
  constructor
  · intro d hd
    have hnew : s.nextDir = d := Option.some.inj hd
    rw [← hnew]
    exact Nat.lt_succ_self s.nextDir
  · exact h.known_job
  · exact h.known_task
  · exact h.ours

/-- A cleanup leaves only removals to the run loop. -/
theorem Inv.cleanupPrevious (h : s.Inv) : s.cleanupPrevious.Inv := by
  have ht := h.takeTempDir
  rw [State.cleanupPrevious]
  refine ⟨ht.dir_lt, ?_, ht.known_task, ht.ours⟩
  intro list dir presenters hj
  have hold : Job.present list dir presenters ∈ s.queue := by
    dsimp only at hj
    split at hj
    · exact hj
    · rcases List.mem_append.mp hj with hold | hnew
      · exact hold
      · cases List.mem_singleton.mp hnew
  rw [takeTempDir_eq]
  exact h.known_job list dir presenters hold

/-- Clearing leaves nothing of ours. -/
theorem Inv.clear (h : s.Inv) : s.clearPasteboardIfStale.Inv := by
  unfold clearPasteboardIfStale
  split
  · exact ⟨h.dir_lt, h.known_job, h.known_task, fun p hp => by cases hp⟩
  · exact h

/-- A publication is remembered as ours. -/
theorem Inv.publish (h : s.Inv) (list : FileList) (dir : ℕ) :
    (s.publishToPasteboard list dir).Inv := by
  unfold publishToPasteboard
  split
  · exact h
  · exact ⟨h.dir_lt, h.known_job, h.known_task, fun _ _ => rfl⟩

/-- The tasks are of known lists. -/
theorem Inv.tasks (h : s.Inv) {tasks : List Task} (hknown : ∀ t ∈ tasks, s.Known t.list) :
    ({ s with tasks := tasks } : State).Inv := ⟨h.dir_lt, h.known_job, hknown, h.ours⟩

/-- A task that ends leaves the others. -/
theorem Inv.eraseTask (h : s.Inv) (i : ℕ) : ({ s with tasks := s.tasks.eraseIdx i } : State).Inv :=
  h.tasks fun t ht => h.known_task t (List.mem_of_mem_eraseIdx ht)

/-- A task goes on with its list. -/
theorem Inv.proceed (h : s.Inv) (hknown : s.Known list) (i dir : ℕ)
    (left : List RemoteEntry) : (s.proceed i list dir left).Inv := by
  unfold State.proceed
  split
  · exact (h.eraseTask i).publish list dir
  · refine h.tasks fun t ht => ?_
    rcases List.mem_or_eq_of_mem_set ht with hold | hnew
    · exact h.known_task t hold
    · rw [hnew]
      exact hknown

/-- A new list is known, and is the last. -/
theorem Inv.newList (h : s.Inv) (entries : List RemoteEntry) :
    ({ s with lists := s.lists + 1, latest := entries, ended := ∅ } : State).Inv := by
  have hknown : ∀ list, s.Known list →
      ({ s with lists := s.lists + 1, latest := entries, ended := ∅ } : State).Known list := by
    intro list hlist
    have hle : list.number ≤ s.lists := hlist.1
    refine ⟨Nat.le_succ_of_le hle, fun hlast => ?_⟩
    have heq : list.number = s.lists + 1 := hlast
    omega
  exact ⟨h.dir_lt, fun list dir presenters hj => hknown list (h.known_job list dir presenters hj),
    fun t ht => hknown t.list (h.known_task t ht), h.ours⟩

/-- The presenters' pipeline takes a known list. -/
theorem Inv.spawnLazyPaste (h : s.Inv) (hknown : s.Known list)
    (made : Bool) (failsAfter : Option ℕ) : (s.spawnLazyPaste list made failsAfter).1.Inv := by
  have htemp := h.cleanupPrevious.makeTempDir list.conn
  unfold State.spawnLazyPaste
  split
  · exact h
  · split
    · exact h
    · split
      · exact h.cleanupPrevious
      · dsimp only
        split
        · exact htemp
        · split
          · exact { __ := htemp }
          · refine ⟨htemp.dir_lt, ?_, htemp.known_task, htemp.ours⟩
            intro list' dir presenters hj
            rcases List.mem_append.mp hj with hold | hnew
            · exact htemp.known_job list' dir presenters hold
            · cases List.mem_singleton.mp hnew
              rw [State.cleanupPrevious, takeTempDir_eq]
              exact hknown

/-- A task is spawned for a known list. -/
theorem Inv.spawnRemotePaste (h : s.Inv) (hknown : s.Known list) :
    (s.spawnRemotePaste list).Inv := by
  unfold State.spawnRemotePaste
  split
  · exact h
  · refine h.tasks fun t ht => ?_
    rcases List.mem_append.mp ht with hold | hnew
    · exact h.known_task t hold
    · rw [List.mem_singleton.mp hnew]
      exact hknown

/-- The presenters' pipeline does not change which lists are known. -/
theorem known_spawnLazyPaste {list' : FileList} {made : Bool}
    {failsAfter : Option ℕ} (hknown : s.Known list') :
    (s.spawnLazyPaste list made failsAfter).1.Known list' := by
  unfold State.spawnLazyPaste
  rw [State.cleanupPrevious, takeTempDir_eq]
  split
  · exact hknown
  · split
    · exact hknown
    · split
      · exact hknown
      · dsimp only
        split
        · exact hknown
        · split <;> exact hknown

/-- An arriving list keeps the invariant. -/
theorem Inv.onRemoteFileList (h : s.Inv) (conn : ℕ) (entries : List RemoteEntry)
    (made : Bool) (failsAfter : Option ℕ) :
    (s.onRemoteFileList conn entries made failsAfter).Inv := by
  have hnew := h.newList entries
  have hknown : ({ s with lists := s.lists + 1, latest := entries, ended := ∅ } : State).Known
      ⟨s.lists + 1, conn, entries⟩ := ⟨Nat.le_refl _, fun _ => rfl⟩
  unfold State.onRemoteFileList
  dsimp only
  split
  · split
    · exact hnew.spawnLazyPaste hknown made failsAfter
    · exact (hnew.spawnLazyPaste hknown made failsAfter).spawnRemotePaste
        (known_spawnLazyPaste hknown)
  · exact hnew.spawnRemotePaste hknown

/-- Every step keeps the invariant. -/
theorem Inv.step {s' : State} {a : Action} (h : s.Inv) (hstep : s.step a = some s') : s'.Inv := by
  cases a with
  | connect =>
    cases hstep
    exact { __ := h }
  | fileList conn entries made failsAfter =>
    simp only [State.step, Option.ite_none_right_eq_some] at hstep
    rw [← Option.some.inj hstep.2]
    exact h.onRemoteFileList conn entries made failsAfter
  | start i made ok =>
    simp only [State.step] at hstep
    split at hstep
    · next list htask =>
      cases hstep
      have hknown : s.Known list := h.known_task _ (List.mem_of_getElem? htask)
      have htemp := h.takeTempDir.makeTempDir list.conn
      unfold State.start
      dsimp only
      split
      · exact h.takeTempDir.eraseTask i
      · split
        · exact htemp.eraseTask i
        · refine htemp.proceed ?_ i _ _
          rw [takeTempDir_eq]
          exact hknown
    · cases hstep
  | fetched i complete ok =>
    simp only [State.step] at hstep
    split at hstep
    · next list dir left htask =>
      cases hstep
      have hknown : s.Known list := h.known_task _ (List.mem_of_getElem? htask)
      have hmade : (s.makeDirs list.conn dir).Inv := { __ := h }
      unfold State.fetched
      dsimp only
      split
      · exact h.eraseTask i
      · split
        · exact h.proceed hknown i dir []
        · split
          · exact hmade.eraseTask i
          · exact hmade.proceed hknown i dir _
    · cases hstep
  | runLoop =>
    simp only [State.step] at hstep
    split at hstep
    · cases hstep
    · next job queue hqueue =>
      cases hstep
      have hrest : ∀ list dir presenters, Job.present list dir presenters ∈ queue →
          s.Known list := by
        intro list dir presenters hj
        refine h.known_job list dir presenters ?_
        rw [hqueue]
        exact List.mem_cons_of_mem _ hj
      cases job with
      | present list dir presenters =>
        have htaken : ({ s with
            queue := queue
            coordinated := s.coordinated ∪ presenters
            livePresenters := s.livePresenters ∪ presenters } : State).Inv :=
          ⟨h.dir_lt, hrest, h.known_task, h.ours⟩
        exact htaken.publish list dir
      | remove presenters => exact ⟨h.dir_lt, hrest, h.known_task, h.ours⟩
  | readFails p =>
    simp only [State.step, Option.ite_none_right_eq_some] at hstep
    rw [← Option.some.inj hstep.2]
    exact { __ := h }
  | locksExpire =>
    cases hstep
    exact h.clear
  | disconnect conn =>
    simp only [State.step, Option.ite_none_right_eq_some] at hstep
    rw [← Option.some.inj hstep.2]
    have hclean := h.cleanupPrevious.clear
    exact { __ := hclean }
  | otherWrite more =>
    cases hstep
    exact ⟨h.dir_lt, h.known_job, h.known_task, fun p hp => by cases hp⟩

/-- A step leaves things tidy exactly if it is orderly. -/
theorem tidy_step {s' : State} {a : Action} (hinv : s.Inv) (ht : s.Tidy)
    (hstep : s.step a = some s') : s'.Tidy ↔ s.orderly a = true := by
  cases a with
  | connect =>
    cases hstep
    exact iff_of_true ⟨ht.current, ht.noneLeft, ht.onTime⟩ rfl
  | fileList conn entries made failsAfter =>
    simp only [State.step, Option.ite_none_right_eq_some] at hstep
    rw [← Option.some.inj hstep.2, orderly, decide_eq_true_iff]
    exact tidy_fileList ht
  | start i made ok =>
    simp only [State.step] at hstep
    split at hstep
    · next list htask =>
      cases hstep
      exact tidy_start hinv ht (hinv.known_task _ (List.mem_of_getElem? htask)) htask
    · cases hstep
  | fetched i complete ok =>
    simp only [State.step] at hstep
    split at hstep
    · next list dir left htask =>
      cases hstep
      exact tidy_fetched ht (hinv.known_task _ (List.mem_of_getElem? htask)) htask
    · cases hstep
  | runLoop =>
    simp only [State.step] at hstep
    split at hstep
    · cases hstep
    · next job queue hqueue =>
      cases hstep
      exact tidy_runLoop hinv ht hqueue
  | readFails p =>
    simp only [State.step, Option.ite_none_right_eq_some] at hstep
    rw [← Option.some.inj hstep.2]
    exact iff_of_true (ht.of_same rfl rfl rfl rfl rfl rfl (Finset.erase_subset p _) fun q hq => hq)
      rfl
  | locksExpire =>
    cases hstep
    obtain ⟨hcontents, heq⟩ := clearPasteboardIfStale_spec s
    refine iff_of_true ?_ rfl
    rcases hcontents with hsame | hnone
    · rw [heq]
      exact ht.of_same hsame rfl rfl rfl rfl rfl (fun q hq => hq) fun q hq => hq
    · rw [heq]
      refine ⟨fun p hp => ?_, ht.noneLeft, ht.onTime⟩
      rw [hnone] at hp
      cases hp
  | disconnect conn =>
    simp only [State.step, Option.ite_none_right_eq_some] at hstep
    rw [← Option.some.inj hstep.2]
    exact tidy_disconnect hinv ht
  | otherWrite more =>
    cases hstep
    exact iff_of_true ⟨fun p hp => (by cases hp), ht.noneLeft, ht.onTime⟩ rfl

/-- What is published stays the last list's, and the end of a connection leaves nothing behind
and is followed by nothing, exactly as long as every step is orderly. -/
theorem tidy_iff_orderly (lazyPaste : Bool) (changeCount : ℕ) {acts : List Action} {t : State}
    (hrun : run State.step (.new lazyPaste changeCount) acts = some t) :
    (∀ before s, before <+: acts → run State.step (.new lazyPaste changeCount) before = some s →
        s.Tidy) ↔
      Meets State.step (fun s a => s.orderly a = true) (.new lazyPaste changeCount) acts := by
  have hnew : (State.new lazyPaste changeCount).Tidy := by
    refine ⟨fun p hp => (by cases hp), ⟨?_, ?_⟩, rfl⟩
    · exact fun q hq => absurd hq (Finset.notMem_empty q)
    · exact fun q hq => absurd hq (Finset.notMem_empty q)
  have hinv : ∀ (s : State) (a : Action) (s' : State), s.Inv → s.step a = some s' → s'.Inv :=
    fun s a s' hinv h => hinv.step h
  have hiff : ∀ (s : State) (a : Action) (s' : State), True → s.Inv → s.Tidy →
      s.step a = some s' → (s'.Tidy ↔ s.orderly a = true) :=
    fun s a s' _ hinv ht h => tidy_step hinv ht h
  exact prefixes_iff_meets_of_iff (fun _ => True) hinv hiff (inv_new lazyPaste changeCount) hnew
    hrun fun _ _ => trivial

/-- A file of the client's, of a known size. -/
def sizedFile (name : String) : RemoteEntry := ⟨name, some 3, false, none⟩

/-- A list is published, expires, is superseded by another, and the connection ends. -/
def orderlyPastes : List Action :=
  [.connect, .fileList 0 [sizedFile "a"] true none, .runLoop, .locksExpire,
    .fileList 0 [sizedFile "b", ⟨"c", some 3, false, some ["d"]⟩] true none, .runLoop, .runLoop,
    .disconnect 0]

/-- Both lists are published, and after the end nothing is left. -/
theorem tidy_orderlyPastes :
    ((run State.step (.new true 4) (orderlyPastes.take 7)).map fun s =>
      (s.pasteboard.contents, s.currentTempDir)) =
        some (some ⟨2, 1, [⟨1, ["b"]⟩]⟩, some 1) ∧
      ∀ before s, before <+: orderlyPastes →
        run State.step (.new true 4) before = some s → s.Tidy := by
  refine ⟨by decide +kernel, ?_⟩
  cases hrun : run State.step (.new true 4) orderlyPastes with
  | none => exact absurd hrun (by decide +kernel)
  | some t => exact (tidy_iff_orderly true 4 hrun).mpr (meetsBool_iff.mp (by decide +kernel))

/-- A list is being downloaded when its connection ends, and the download completes. -/
def lateDownload : List Action :=
  [.connect, .fileList 0 [sizedFile "a"] true none, .start 0 true true, .disconnect 0,
    .fetched 0 true true]

/-- The files are published after the end of their connection, with no temp directory stored. -/
theorem not_tidy_lateDownload :
    ¬ ∀ (lazyPaste : Bool) (changeCount : ℕ) (acts : List Action) (s : State),
      run State.step (.new lazyPaste changeCount) acts = some s → s.Tidy := by
  intro h
  cases hrun : run State.step (.new false 4) lateDownload with
  | none => exact absurd hrun (by decide +kernel)
  | some s =>
    have hlate : (run State.step (.new false 4) lateDownload).map (fun s => s.late) = some true := by
      decide +kernel
    rw [hrun, Option.map_some, Option.some.injEq] at hlate
    have hontime := (h false 4 lateDownload s hrun).onTime
    rw [hlate] at hontime
    cases hontime

end State

end Macrdp.RemotePaste
