import Macrdp.ClipboardSystem

/-!
# The client's clipboard is not offered back to it

Only the poller's ticks compare the pasteboard with our own writes, and only the
writes of files are remembered. What the client wrote is offered back to it when
an advertise begins on it, or is still to look when it is written.
-/

namespace Macrdp.ClipboardSystem

open StepSystem

/-- The client's data is on the pasteboard. -/
def Contents.isClients (contents : Contents) : Bool :=
  match contents.writer with
  | .client _ => true
  | _ => false

/-- An advertise at a stage can still find something to offer. -/
def offers (contents : Contents) : Stage → Bool
  | .files | .entries => contents.hasFiles || contents.hasImage || contents.hasString
  | .image => contents.hasImage || contents.hasString
  | .string _ => contents.hasString
  | .send _ => false

/-- The stage of the poller's advertise. -/
def Poller.stage : Poller → Option Stage
  | .advertising _ _ stage => some stage
  | _ => none

namespace State

/-- The stages of all advertises under way. -/
def stages (s : State) : List Stage := s.adverts ++ s.poller.stage.toList

/-- An action begins an advertise. -/
def begins (s : State) : Action → Bool
  | .ready i => s.backends[i]?.any fun b => !b.initialAdvertisePending
  | .requestFormatList _ | .fireDeferred => true
  | .poll _ _ =>
    match s.poller with
    | .beginning => true
    | .locking myGen _ => decide (s.lockedGen ≠ myGen)
    | _ => false
  | _ => false

/-- What an action puts on the pasteboard of the client's data. -/
def written (s : State) : Action → Option Contents
  | .formatData i response => s.backends[i]?.bind fun b => dataWritten b.lastRequested response
  | .publish hasImage hasString => some ⟨.client .files, true, hasImage, hasString⟩
  | _ => none

/-- No advertise begins while the client's data is on the pasteboard, and none can still find
the client's data that is put there. -/
def safe (s : State) (a : Action) : Bool :=
  !(s.begins a && s.pasteboard.contents.isClients) &&
    (s.written a).all fun contents => !s.stages.any (offers contents)

/-- All that was sent to the client was written by the Mac. -/
def NoEcho (s : State) : Prop := ∀ e ∈ s.sent, ∀ f ∈ e.2, f.2 = Writer.mac

/-- What a step can do to the pasteboard, the advertises and the lists sent. -/
inductive Moves (s s' : State) (a : Action) : Prop
  | kept (contents : s'.pasteboard.contents = s.pasteboard.contents)
      (stages : ∀ x ∈ s'.stages, x ∈ s.stages) (sent : s'.sent = s.sent)
  | writes (contents : s'.pasteboard.contents.writer = .mac ∨
        s'.pasteboard.contents = clearedContents ∨
        s.written a = some s'.pasteboard.contents)
      (stages : s'.stages = s.stages) (sent : s'.sent = s.sent)
  | begins (contents : s'.pasteboard.contents = s.pasteboard.contents)
      (begun : s.begins a = true) (stages : ∀ x ∈ s'.stages, x = .files ∨ x ∈ s.stages)
      (sent : s'.sent = s.sent)
  | looks (contents : s'.pasteboard.contents = s.pasteboard.contents) (stage : Stage)
      (present : stage ∈ s.stages) (readable : Bool)
      (stages : ∀ x ∈ s'.stages,
        x ∈ s.stages ∨ look s.pasteboard.contents readable stage = some x)
      (sent : s'.sent = s.sent)
  | posts (contents : s'.pasteboard.contents = s.pasteboard.contents) (origin : Origin)
      (formats : FormatList) (present : .send formats ∈ s.stages)
      (stages : ∀ x ∈ s'.stages, x ∈ s.stages) (sent : s'.sent = s.sent ++ [(origin, formats)])

theorem stages_afterAdvertise (myGen : UInt64) (retries : ℕ) :
    (afterAdvertise myGen retries).stage = none := by
  cases retries <;> rfl

variable {s s' : State}

/-- The poller's steps. -/
theorem moves_poll {readable delivered : Bool}
    (h : s.poll readable delivered = some s') : Moves s s' (.poll readable delivered) := by
  have hkept : ∀ x ∈ s.adverts, x ∈ s.stages := fun x hx => List.mem_append_left _ hx
  -- A step to a place at which the poller does not advertise.
  have hleft : ∀ t : State, t.pasteboard = s.pasteboard → t.adverts = s.adverts →
      t.poller.stage = none → t.sent = s.sent → Moves s t (.poll readable delivered) := by
    intro t hpb hadverts hstage hsent
    refine .kept (by rw [hpb]) (fun x hx => ?_) hsent
    rw [stages, hstage, hadverts] at hx
    exact hkept x (by simpa using hx)
  unfold poll at h
  split at h
  · cases h
    exact hleft _ rfl rfl rfl rfl
  · cases h
    split
    · exact .kept rfl (fun x hx => hx) rfl
    · exact hleft _ rfl rfl rfl rfl
  · cases h
    split <;> exact hleft _ rfl rfl rfl rfl
  · cases h
    refine hleft _ rfl rfl ?_ rfl
    dsimp only
    split <;> rfl
  · next hpoller =>
    cases h
    refine .begins rfl (by simp [begins, hpoller]) (fun x hx => ?_) rfl
    rcases List.mem_append.mp hx with hother | hfiles
    · exact .inr (hkept x hother)
    · exact .inl (List.mem_singleton.mp hfiles)
  · next myGen retries formats hpoller =>
    cases h
    split
    · refine .posts rfl (.wave s.waves) formats ?_ (fun x hx => ?_) rfl
      · rw [stages, hpoller]
        exact List.mem_append_right _ (List.mem_singleton_self _)
      · rw [stages, stages_afterAdvertise] at hx
        exact hkept x (by simpa [post] using hx)
    · exact hleft _ rfl rfl rfl rfl
  · next myGen retries stage _ hpoller =>
    cases h
    have hpresent : stage ∈ s.stages := by
      rw [stages, hpoller]
      exact List.mem_append_right _ (List.mem_singleton_self _)
    refine .looks rfl stage hpresent readable (fun x hx => ?_) rfl
    rcases List.mem_append.mp hx with hother | hnext
    · exact .inl (hkept x hother)
    · dsimp only at hnext
      split at hnext
      · rw [stages_afterAdvertise] at hnext
        cases hnext
      · next next hlook =>
        rw [List.mem_singleton.mp hnext]
        exact .inr hlook
  · cases h
    refine hleft _ rfl rfl ?_ rfl
    dsimp only
    split <;> rfl
  · next myGen retries hpoller =>
    cases h
    by_cases hlocked : s.lockedGen = myGen
    · exact hleft _ rfl rfl (by simp [hlocked, Poller.stage]) rfl
    · refine .begins rfl (by simp [begins, hpoller, hlocked]) (fun x hx => ?_) rfl
      rcases List.mem_append.mp hx with hother | hfiles
      · exact .inr (hkept x hother)
      · rw [if_neg hlocked] at hfiles
        exact .inl (List.mem_singleton.mp hfiles)
  · cases h

variable {a : Action}

/-- A step that only touches what is neither the pasteboard nor an advertise. -/
theorem moves_of_same (hpb : s'.pasteboard = s.pasteboard)
    (hadverts : s'.adverts = s.adverts) (hpoller : s'.poller = s.poller)
    (hsent : s'.sent = s.sent) : Moves s s' a := by
  refine .kept (by rw [hpb]) (fun x hx => ?_) hsent
  rw [stages, hadverts, hpoller] at hx
  exact hx

/-- An advertise begins that is not the poller's. -/
theorem moves_begin {t : State} (hpb : t.pasteboard = s.pasteboard)
    (hadverts : t.adverts = s.adverts) (hpoller : t.poller = s.poller) (hsent : t.sent = s.sent)
    (hbegins : s.begins a = true) : Moves s t.begin a := by
  refine .begins (by rw [← hpb]; rfl) hbegins (fun x hx => ?_) hsent
  have hstages : t.begin.stages = s.adverts ++ [.files] ++ s.poller.stage.toList := by
    rw [← hadverts, ← hpoller]
    rfl
  rw [hstages] at hx
  rcases List.mem_append.mp hx with hother | hpolls
  · rcases List.mem_append.mp hother with hold | hnew
    · exact .inr (List.mem_append_left _ hold)
    · exact .inl (List.mem_singleton.mp hnew)
  · exact .inr (List.mem_append_right _ hpolls)

/-- What a step can do, whoever takes it. -/
theorem moves_step (h : s.step a = some s') : Moves s s' a := by
  have hpolls : ∀ x ∈ s.poller.stage.toList, x ∈ s.stages := fun x hx =>
    List.mem_append_right _ hx
  cases a with
  | macCopy more hasFiles hasImage hasString =>
    cases h
    exact .writes (.inl rfl) rfl rfl
  | connect =>
    cases h
    exact moves_of_same rfl rfl rfl rfl
  | disconnect i =>
    simp only [step] at h
    split at h
    · cases h
      unfold readSelf
      split <;> exact moves_of_same rfl rfl rfl rfl
    · cases h
  | remoteCopy i formats =>
    simp only [step] at h
    split at h
    · cases h
      split <;> exact moves_of_same rfl rfl rfl rfl
    · cases h
  | formatData i response =>
    obtain ⟨backend, hbackend, rfl⟩ := Option.map_eq_some_iff.mp h
    cases hdata : dataWritten backend.lastRequested response with
    | none => exact moves_of_same rfl rfl rfl rfl
    | some contents =>
      refine .writes (.inr (.inr ?_)) rfl rfl
      simp only [written, hbackend, Option.bind_some, hdata]
      rfl
  | remoteFileList i | downloadFails | loseList j | loseAnswer j | takeAnswer =>
    simp only [step] at h
    split at h
    · cases h
      exact moves_of_same rfl rfl rfl rfl
    · cases h
  | publish hasImage hasString =>
    simp only [step] at h
    split at h
    · cases h
      exact .writes (.inr (.inr rfl)) rfl rfl
    · cases h
  | locksExpire =>
    cases h
    unfold readSelf
    split <;> exact moves_of_same rfl rfl rfl rfl
  | clear j =>
    obtain ⟨ourCc, -, rfl⟩ := Option.map_eq_some_iff.mp h
    unfold clearPasteboard
    split
    · exact .writes (.inr (.inl rfl)) rfl rfl
    · exact moves_of_same rfl rfl rfl rfl
  | ready i =>
    obtain ⟨backend, hbackend, rfl⟩ := Option.map_eq_some_iff.mp h
    cases hpending : backend.initialAdvertisePending with
    | true => exact moves_of_same rfl rfl rfl rfl
    | false => exact moves_begin rfl rfl rfl rfl (by simp [begins, hbackend, hpending])
  | requestFormatList i | fireDeferred =>
    simp only [step] at h
    split at h
    · cases h
      exact moves_begin rfl rfl rfl rfl rfl
    · cases h
  | look j readable =>
    simp only [step] at h
    split at h
    · cases h
    · cases h
    · next stage _ hstage =>
      cases h
      have hpresent : stage ∈ s.adverts := List.mem_of_getElem? hstage
      refine .looks rfl stage (List.mem_append_left _ hpresent) readable (fun x hx => ?_) rfl
      rcases List.mem_append.mp hx with hother | hpoll
      · dsimp only at hother
        split at hother
        · exact .inl (List.mem_append_left _ (List.mem_of_mem_eraseIdx hother))
        · next next hlook =>
          rcases List.mem_or_eq_of_mem_set hother with hold | hnext
          · exact .inl (List.mem_append_left _ hold)
          · rw [hnext]
            exact .inr hlook
      · exact .inl (hpolls x hpoll)
  | send j delivered =>
    simp only [step] at h
    split at h
    · next formats hstage =>
      cases h
      have hpresent : .send formats ∈ s.adverts := List.mem_of_getElem? hstage
      have hleft : ∀ x ∈ s.adverts.eraseIdx j ++ s.poller.stage.toList, x ∈ s.stages := by
        intro x hx
        rcases List.mem_append.mp hx with hother | hpoll
        · exact List.mem_append_left _ (List.mem_of_mem_eraseIdx hother)
        · exact hpolls x hpoll
      split
      · exact .posts rfl .other formats (List.mem_append_left _ hpresent) hleft rfl
      · exact .kept rfl hleft rfl
    · cases h
  | poll readable delivered => exact moves_poll h
  | answer ok | lock =>
    simp only [step] at h
    split at h
    · cases h
    · cases h
      exact moves_of_same rfl rfl rfl rfl

/-- What an advertise has found so far. -/
def found : Stage → FormatList
  | .string formats | .send formats => formats
  | _ => []

/-- All that is found and sent so far is the Mac's, and no advertise can find the client's
data any more. -/
structure Clean (s : State) : Prop where
  noEcho : s.NoEcho
  /-- What the advertises under way have found is the Mac's. -/
  found_mac : ∀ x ∈ s.stages, ∀ f ∈ found x, f.2 = Writer.mac
  client_unseen : s.pasteboard.contents.isClients = true →
    ∀ x ∈ s.stages, offers s.pasteboard.contents x = false
  /-- A cleared pasteboard has nothing to offer. -/
  cleared_empty : s.pasteboard.contents.writer = .cleared →
    s.pasteboard.contents = clearedContents

variable {contents : Contents} {stage : Stage}

/-- What an advertise finds is on the pasteboard when it looks. -/
theorem found_look {readable : Bool} {next : Stage}
    (h : look contents readable stage = some next) {f : Format × Writer} (hf : f ∈ found next) :
    f ∈ found stage ∨ f.2 = contents.writer ∧ offers contents stage = true := by
  cases stage with
  | files =>
    cases h
    split at hf <;> cases hf
  | entries =>
    cases h
    split at hf
    · next hfiles =>
      rw [List.mem_singleton.mp hf]
      have : contents.hasFiles = true := (Bool.and_eq_true_iff.mp hfiles).1
      exact .inr ⟨rfl, by simp [offers, this]⟩
    · cases hf
  | image =>
    cases h
    simp only [found] at hf
    split at hf
    · next himage =>
      rw [List.mem_singleton.mp hf]
      exact .inr ⟨rfl, by simp [offers, himage]⟩
    · cases hf
  | string formats =>
    rw [look_string h] at hf
    rcases List.mem_append.mp hf with hold | hnew
    · exact .inl hold
    · split at hnew
      · next hstring =>
        rw [List.mem_singleton.mp hnew]
        exact .inr ⟨rfl, hstring⟩
      · cases hnew
  | send formats =>
    cases h
    exact .inl hf

/-- An advertise that looks has less left to find. -/
theorem offers_look {readable : Bool} {next : Stage}
    (h : look contents readable stage = some next) (hnext : offers contents next = true) :
    offers contents stage = true := by
  cases stage with
  | files =>
    cases h
    split at hnext
    · exact hnext
    · have : contents.hasImage = true ∨ contents.hasString = true := Bool.or_eq_true_iff.mp hnext
      rcases this with himage | hstring
      · simp [offers, himage]
      · simp [offers, hstring]
  | entries =>
    cases h
    split at hnext
    · cases hnext
    · have : contents.hasImage = true ∨ contents.hasString = true := Bool.or_eq_true_iff.mp hnext
      rcases this with himage | hstring
      · simp [offers, himage]
      · simp [offers, hstring]
  | image =>
    cases h
    have : contents.hasString = true := hnext
    simp [offers, this]
  | string formats =>
    rw [look_string h] at hnext
    cases hnext
  | send formats =>
    cases h
    cases hnext

/-- The client's data is not empty. -/
theorem dataWritten_offers {requested : Option UInt32} {response : FormatData}
    (h : dataWritten requested response = some contents) :
    contents.isClients = true ∧ offers contents .files = true := by
  unfold dataWritten at h
  split at h
  · cases h
  · split at h
    · split at h
      · cases h
        exact ⟨rfl, rfl⟩
      · cases h
    · split at h
      · split at h
        · cases h
          exact ⟨rfl, rfl⟩
        · cases h
      · cases h

/-- What is put on the pasteboard of the client's data is the client's, and is not empty. -/
theorem written_offers (h : s.written a = some contents) :
    contents.isClients = true ∧ offers contents .files = true := by
  unfold written at h
  split at h
  · obtain ⟨backend, -, hdata⟩ := Option.bind_eq_some_iff.mp h
    exact dataWritten_offers hdata
  · cases h
    exact ⟨rfl, rfl⟩
  · cases h

/-- Nothing is found on a cleared pasteboard. -/
theorem offers_cleared (stage : Stage) : offers clearedContents stage = false := by
  cases stage <;> rfl

/-- A pasteboard that is the Mac's, cleared or the client's. -/
theorem isClients_iff :
    contents.isClients = true ↔ contents.writer ≠ .mac ∧ contents.writer ≠ .cleared := by
  unfold Contents.isClients
  cases contents.writer <;> simp

/-- A safe step finds and sends only what is the Mac's. -/
theorem Clean.step (hclean : s.Clean) (hsafe : s.safe a = true)
    (h : s.step a = some s') : s'.Clean := by
  obtain ⟨hsent, hfound, hunseen, hempty⟩ := hclean
  obtain ⟨hbegins, hwritten⟩ := Bool.and_eq_true_iff.mp hsafe
  cases moves_step h with
  | kept hcontents hstages hsame =>
    constructor
    · rw [NoEcho, hsame]
      exact hsent
    · exact fun x hx => hfound x (hstages x hx)
    · rw [hcontents]
      exact fun hclients x hx => hunseen hclients x (hstages x hx)
    · rw [hcontents]
      exact hempty
  | writes hcontents hstages hsame =>
    constructor
    · rw [NoEcho, hsame]
      exact hsent
    · rw [hstages]
      exact hfound
    · intro hclients x hx
      rw [hstages] at hx
      rcases hcontents with hmac | hcleared | hwrites
      · exact absurd hmac (isClients_iff.mp hclients).1
      · rw [hcleared]
        exact offers_cleared x
      · rw [hwrites] at hwritten
        have hnone : s.stages.any (offers s'.pasteboard.contents) = false := by
          simpa using hwritten
        exact Bool.eq_false_iff.mpr (List.any_eq_false.mp hnone x hx)
    · intro hcleared
      rcases hcontents with hmac | hsame | hwrites
      · rw [hmac] at hcleared
        cases hcleared
      · exact hsame
      · exact absurd hcleared (isClients_iff.mp (written_offers hwrites).1).2
  | begins hcontents hbegun hstages hsame =>
    have hnot : s.pasteboard.contents.isClients = false := by
      simpa [hbegun] using hbegins
    constructor
    · rw [NoEcho, hsame]
      exact hsent
    · intro x hx
      rcases hstages x hx with hfiles | hold
      · rw [hfiles]
        exact fun f hf => absurd hf List.not_mem_nil
      · exact hfound x hold
    · rw [hcontents, hnot]
      exact fun hclients => absurd hclients Bool.false_ne_true
    · rw [hcontents]
      exact hempty
  | looks hcontents stage hpresent readable hstages hsame =>
    constructor
    · rw [NoEcho, hsame]
      exact hsent
    · intro x hx f hf
      rcases hstages x hx with hold | hlook
      · exact hfound x hold f hf
      · rcases found_look hlook hf with hbefore | ⟨hwriter, hoffers⟩
        · exact hfound stage hpresent f hbefore
        · rw [hwriter]
          by_contra hnot
          -- What it found was not the Mac's, but then there was nothing to find.
          have hcleared : s.pasteboard.contents.writer ≠ .cleared := by
            intro hcleared
            rw [hempty hcleared, offers_cleared] at hoffers
            cases hoffers
          rw [hunseen (isClients_iff.mpr ⟨hnot, hcleared⟩) stage hpresent] at hoffers
          cases hoffers
    · rw [hcontents]
      intro hclients x hx
      rcases hstages x hx with hold | hlook
      · exact hunseen hclients x hold
      · refine Bool.eq_false_iff.mpr fun hoffers => ?_
        have hbefore := offers_look hlook hoffers
        rw [hunseen hclients stage hpresent] at hbefore
        cases hbefore
    · rw [hcontents]
      exact hempty
  | posts hcontents origin formats hpresent hstages hposted =>
    constructor
    · rw [NoEcho, hposted]
      intro e he
      rcases List.mem_append.mp he with hold | hnew
      · exact hsent e hold
      · rw [List.mem_singleton.mp hnew]
        exact hfound _ hpresent
    · exact fun x hx => hfound x (hstages x hx)
    · rw [hcontents]
      exact fun hclients x hx => hunseen hclients x (hstages x hx)
    · rw [hcontents]
      exact hempty

/-- A new process has sent nothing. -/
theorem clean_new {pasteboard : Pasteboard} (hmac : pasteboard.contents.writer = .mac) :
    (State.new pasteboard).Clean where
  noEcho := fun e he => absurd he List.not_mem_nil
  found_mac := fun x hx => absurd hx List.not_mem_nil
  client_unseen := fun _ x hx => absurd hx List.not_mem_nil
  cleared_empty := fun hcleared => by
    have : pasteboard.contents.writer = .cleared := hcleared
    rw [hmac] at this
    cases this

/-- The stage of one advertise: by its index, or the poller's. -/
def stageAt (s : State) : Option ℕ → Option Stage
  | some j => s.adverts[j]?
  | none => s.poller.stage

/-- The step that takes an advertise on. -/
def drive (place : Option ℕ) (stage : Stage) : Action :=
  match place, stage with
  | none, _ => .poll true true
  | some j, .send _ => .send j true
  | some j, _ => .look j true

/-- An advertise has found the client's data, or can find what is on the pasteboard. -/
def echoing (contents : Contents) (stage : Stage) : Prop :=
  offers contents stage = true ∨ ∃ f ∈ found stage, f.2 ≠ Writer.mac

/-- An advertise that can find the client's data goes on to have it in its list. -/
theorem look_echoing (hclients : contents.isClients = true) (hechoes : echoing contents stage)
    (hlooks : 0 < left stage) :
    ∃ next, look contents true stage = some next ∧ echoing contents next := by
  have hwriter : contents.writer ≠ .mac := (isClients_iff.mp hclients).1
  have hnone : found stage = [] → offers contents stage = true := by
    intro hempty
    rcases hechoes with hoffers | ⟨f, hf, -⟩
    · exact hoffers
    · rw [hempty] at hf
      exact absurd hf List.not_mem_nil
  cases stage with
  | files =>
    have hoffers := hnone rfl
    refine ⟨_, rfl, .inl ?_⟩
    split
    · exact hoffers
    · next hfiles => simpa [offers, hfiles] using hoffers
  | entries =>
    have hoffers := hnone rfl
    refine ⟨_, rfl, ?_⟩
    split
    · exact .inr ⟨_, List.mem_singleton_self _, hwriter⟩
    · next hfiles =>
      rw [Bool.and_true] at hfiles
      exact .inl (by simpa [offers, hfiles] using hoffers)
  | image =>
    have hoffers := hnone rfl
    refine ⟨_, rfl, ?_⟩
    split
    · exact .inr ⟨_, List.mem_singleton_self _, hwriter⟩
    · next himage => exact .inl (by simpa [offers, himage] using hoffers)
  | string formats =>
    have hlist : ∃ f ∈ formats ++
        if contents.hasString then [(Format.unicodeText, contents.writer)] else [],
        f.2 ≠ Writer.mac := by
      rcases hechoes with hoffers | ⟨f, hf, hnot⟩
      · have hstring : contents.hasString = true := hoffers
        rw [if_pos hstring]
        exact ⟨_, List.mem_append_right _ (List.mem_singleton_self _), hwriter⟩
      · exact ⟨f, List.mem_append_left _ hf, hnot⟩
    obtain ⟨f, hf, hnot⟩ := hlist
    refine ⟨.send _, ?_, .inr ⟨f, hf, hnot⟩⟩
    simp only [look]
    refine if_neg fun hempty => ?_
    rw [List.isEmpty_iff.mp hempty] at hf
    exact absurd hf List.not_mem_nil
  | send formats => exact absurd hlooks (Nat.lt_irrefl 0)

/-- An advertise takes its next look. -/
theorem drive_look {place : Option ℕ} {next : Stage}
    (hstage : s.stageAt place = some stage) (hlooks : 0 < left stage)
    (hlook : look s.pasteboard.contents true stage = some next) :
    ∃ s', s.step (drive place stage) = some s' ∧ s'.stageAt place = some next ∧
      s'.pasteboard = s.pasteboard := by
  cases place with
  | some j =>
    have hj : s.adverts[j]? = some stage := hstage
    obtain ⟨hlt, -⟩ := List.getElem?_eq_some_iff.mp hj
    refine ⟨{ s with adverts := s.adverts.set j next }, ?_, ?_, rfl⟩
    · cases stage with
      | send formats => exact absurd hlooks (Nat.lt_irrefl 0)
      | _ => simp only [drive, State.step, hj, hlook]
    · exact List.getElem?_set_self hlt
  | none =>
    cases hpoller : s.poller with
    | advertising myGen retries current =>
      have hsame : current = stage := by simpa [stageAt, hpoller, Poller.stage] using hstage
      subst hsame
      refine ⟨{ s with poller := .advertising myGen retries next }, ?_, rfl, rfl⟩
      cases current with
      | send formats => exact absurd hlooks (Nat.lt_irrefl 0)
      | _ => simp only [drive, State.step, poll, hpoller, hlook]
    | _ => simp [stageAt, hpoller, Poller.stage] at hstage

/-- An advertise sends its list. -/
theorem drive_send {place : Option ℕ} {formats : FormatList}
    (hstage : s.stageAt place = some (.send formats)) :
    ∃ s' origin, s.step (drive place (.send formats)) = some s' ∧
      s'.sent = s.sent ++ [(origin, formats)] := by
  cases place with
  | some j =>
    have hj : s.adverts[j]? = some (.send formats) := hstage
    refine ⟨{ s with adverts := s.adverts.eraseIdx j }.post .other formats, .other, ?_, rfl⟩
    simp only [drive, State.step, hj, if_true]
  | none =>
    cases hpoller : s.poller with
    | advertising myGen retries current =>
      have hsame : current = .send formats := by simpa [stageAt, hpoller, Poller.stage] using hstage
      subst hsame
      refine ⟨{ s.post (.wave s.waves) formats with poller := afterAdvertise myGen retries },
        .wave s.waves, ?_, rfl⟩
      simp only [drive, State.step, poll, hpoller, if_true]
    | _ => simp [stageAt, hpoller, Poller.stage] at hstage

/-- An advertise that can still find the client's data can send it. -/
theorem leaks {place : Option ℕ}
    (hstage : s.stageAt place = some stage) (hclients : s.pasteboard.contents.isClients = true)
    (hechoes : echoing s.pasteboard.contents stage) :
    ∃ more t, run State.step s more = some t ∧ ¬ t.NoEcho := by
  induction hn : left stage using Nat.strongRecOn generalizing s stage with
  | ind n ih =>
    by_cases hlooks : 0 < left stage
    · obtain ⟨next, hlook, hechoes'⟩ := look_echoing hclients hechoes hlooks
      have hless := left_look hlooks hlook
      obtain ⟨s', hstep, hstage', hsame⟩ := drive_look hstage hlooks hlook
      rw [← hsame] at hclients hechoes'
      obtain ⟨more, t, hrun, hleak⟩ := ih (left next) (hn ▸ hless) hstage' hclients hechoes' rfl
      exact ⟨_ :: more, t, run_cons_some.mpr ⟨s', hstep, hrun⟩, hleak⟩
    · have hsend : ∃ formats, stage = .send formats := by
        cases stage with
        | send formats => exact ⟨formats, rfl⟩
        | _ => exact absurd (by simp [left]) hlooks
      obtain ⟨formats, rfl⟩ := hsend
      obtain ⟨s', origin, hstep, hsent⟩ := drive_send hstage
      refine ⟨[_], s', run_cons_some.mpr ⟨s', hstep, rfl⟩, fun hno => ?_⟩
      obtain ⟨f, hf, hnot⟩ : ∃ f ∈ formats, f.2 ≠ Writer.mac := by
        rcases hechoes with hoffers | hfound
        · cases hoffers
        · exact hfound
      refine hnot (hno (origin, formats) ?_ f hf)
      rw [hsent]
      exact List.mem_append_right _ (List.mem_singleton_self _)

/-- The client's data on the pasteboard is not empty. -/
def ClientsOffer (s : State) : Prop :=
  s.pasteboard.contents.isClients = true → offers s.pasteboard.contents .files = true

/-- The client's data on the pasteboard never becomes empty. -/
theorem ClientsOffer.step (hoffer : s.ClientsOffer) (h : s.step a = some s') : s'.ClientsOffer := by
  have hkept : s'.pasteboard.contents = s.pasteboard.contents → s'.ClientsOffer := by
    intro hsame
    rw [ClientsOffer, hsame]
    exact hoffer
  cases moves_step h with
  | kept hcontents _ _ => exact hkept hcontents
  | writes hcontents _ _ =>
    intro hclients
    rcases hcontents with hmac | hcleared | hwrites
    · exact absurd hmac (isClients_iff.mp hclients).1
    · rw [hcleared] at hclients
      cases hclients
    · exact (written_offers hwrites).2
  | begins hcontents _ _ _ | looks hcontents _ _ _ _ _ => exact hkept hcontents
  | posts hcontents _ _ _ _ _ => exact hkept hcontents

/-- An action that begins an advertise leaves it with everything to find. -/
theorem stageAt_of_begins (hbegins : s.begins a = true) (h : s.step a = some s') :
    ∃ place, s'.stageAt place = some .files ∧ s'.pasteboard = s.pasteboard := by
  have hnew : ∀ t : State, t.begin.stageAt (some t.adverts.length) = some .files := by
    intro t
    simp [stageAt, State.begin]
  cases a with
  | ready i =>
    obtain ⟨backend, hbackend, rfl⟩ := Option.map_eq_some_iff.mp h
    have hpending : backend.initialAdvertisePending = false := by
      simpa [State.begins, hbackend] using hbegins
    rw [hpending]
    exact ⟨_, hnew s, rfl⟩
  | requestFormatList i =>
    simp only [State.step, Option.ite_none_right_eq_some] at h
    rw [← Option.some.inj h.2]
    exact ⟨_, hnew s, rfl⟩
  | fireDeferred =>
    simp only [State.step, Option.ite_none_right_eq_some] at h
    rw [← Option.some.inj h.2]
    exact ⟨_, hnew _, rfl⟩
  | poll readable delivered =>
    simp only [State.begins] at hbegins
    simp only [State.step, poll] at h
    split at hbegins
    · next hpoller =>
      simp only [hpoller, Option.some.injEq] at h
      rw [← h]
      exact ⟨none, rfl, rfl⟩
    · next myGen retries hpoller =>
      simp only [hpoller, Option.some.injEq] at h
      rw [← h, if_neg (of_decide_eq_true hbegins)]
      exact ⟨none, rfl, rfl⟩
    · cases hbegins
  | _ => cases hbegins

/-- An action that writes the client's data touches no advertise. -/
theorem step_written (hwritten : s.written a = some contents) (h : s.step a = some s') :
    s'.pasteboard.contents = contents ∧ s'.adverts = s.adverts ∧ s'.poller = s.poller := by
  cases a with
  | formatData i response =>
    obtain ⟨backend, hbackend, rfl⟩ := Option.map_eq_some_iff.mp h
    obtain ⟨b, hb, hdata⟩ := Option.bind_eq_some_iff.mp hwritten
    rw [hbackend, Option.some.injEq] at hb
    rw [hb, hdata]
    exact ⟨rfl, rfl, rfl⟩
  | publish hasImage hasString =>
    cases hwritten
    simp only [State.step, Option.ite_none_right_eq_some] at h
    rw [← Option.some.inj h.2]
    exact ⟨rfl, rfl, rfl⟩
  | _ => cases hwritten

/-- After an unsafe step the client's data can be sent back to it. -/
theorem leaks_of_unsafe (hoffer : s.ClientsOffer)
    (hleaky : s.safe a = false) (h : s.step a = some s') :
    ∃ more t, run State.step s' more = some t ∧ ¬ t.NoEcho := by
  rcases Bool.and_eq_false_iff.mp hleaky with hbegun | hwrites
  · have hboth : s.begins a = true ∧ s.pasteboard.contents.isClients = true := by
      simpa using hbegun
    obtain ⟨place, hstage, hsame⟩ := stageAt_of_begins hboth.1 h
    have hclients := hboth.2
    rw [← hsame] at hclients
    refine leaks hstage hclients (.inl ?_)
    rw [hsame]
    exact hoffer hboth.2
  · cases hwritten : s.written a with
    | none =>
      rw [hwritten] at hwrites
      cases hwrites
    | some contents =>
      obtain ⟨hcontents, hadverts, hpoller⟩ := step_written hwritten h
      have hany : ∃ stage ∈ s.stages, offers contents stage = true := by
        rw [hwritten] at hwrites
        simpa using hwrites
      obtain ⟨stage, hstage, hoffers⟩ := hany
      have hplace : ∃ place, s'.stageAt place = some stage := by
        rcases List.mem_append.mp hstage with hother | hpoll
        · obtain ⟨j, hj⟩ := List.mem_iff_getElem?.mp hother
          exact ⟨some j, by rw [stageAt, hadverts, hj]⟩
        · exact ⟨none, by rw [stageAt, hpoller]; exact Option.mem_toList.mp hpoll⟩
      obtain ⟨place, hplace⟩ := hplace
      refine leaks hplace ?_ (.inl ?_)
      · rw [hcontents]
        exact (written_offers hwritten).1
      · rw [hcontents]
        exact hoffers

/-- A process that begins with the Mac's pasteboard never sends back what the client wrote as
long as each step is safe, and after a step that is not the client's data can be sent back. -/
theorem noEcho_of_safe (pasteboard : Pasteboard) (hmac : pasteboard.contents.writer = .mac)
    {before : List Action} {s : State} (hrun : run State.step (.new pasteboard) before = some s) :
    (Meets State.step (fun s a => s.safe a = true) (.new pasteboard) before → s.NoEcho) ∧
      ∀ a s', s.step a = some s' → s.safe a = false →
        ∃ more t, run State.step s' more = some t ∧ ¬ t.NoEcho := by
  constructor
  · intro hsafe
    have hclean := run_invariant Clean (fun s a s' hclean hsafe h => hclean.step hsafe h)
      (clean_new hmac) hsafe hrun
    exact hclean.noEcho
  · intro a s' hstep hleaky
    have hinit : (State.new pasteboard).ClientsOffer := fun hclients =>
      absurd hmac (isClients_iff.mp hclients).1
    have hoffer := run_invariant_of_step ClientsOffer (fun s a s' hoffer h => hoffer.step h)
      hinit hrun
    exact leaks_of_unsafe hoffer hleaky hstep

/-- A pasteboard with the Mac's text on it. -/
def macText : Pasteboard := ⟨5, ⟨.mac, false, false, true⟩⟩

/-- A client connects and is told of a copy of the Mac's, and its own text comes later. -/
def advertisedCopy : List Action :=
  [.poll true true, .connect, .macCopy 0 false false true, .poll true true, .poll true true,
    .poll true true, .poll true true, .poll true true, .poll true true, .poll true true,
    .poll true true, .remoteCopy 0 [(cfUnicodeText, none)], .formatData 0 ⟨false, 12, true⟩]

/-- The Mac's text is sent once, and the step that writes the client's is safe. -/
theorem noEcho_advertisedCopy :
    ((run State.step (.new macText) advertisedCopy).map fun s =>
      (s.sent, s.pasteboard.contents.writer)) =
        some ([(.wave 1, [(.unicodeText, .mac)])], .client .text) ∧
      ∀ s, run State.step (.new macText) advertisedCopy = some s → s.NoEcho := by
  refine ⟨by decide +kernel, fun s hrun => ?_⟩
  exact (noEcho_of_safe macText rfl hrun).1 (meetsBool_iff.mp (by decide +kernel))

/-- A client connects and copies a text, and the poller looks at the pasteboard. -/
def bouncedText : List Action :=
  [.poll true true, .connect, .remoteCopy 0 [(cfUnicodeText, none)],
    .formatData 0 ⟨false, 12, true⟩, .poll true true, .poll true true, .poll true true,
    .poll true true, .poll true true, .poll true true, .poll true true, .poll true true]

/-- The client's text is offered back to it by the next tick. -/
theorem not_noEcho_bouncedText :
    ¬ ∀ (pasteboard : Pasteboard) (before : List Action) (s : State),
      pasteboard.contents.writer = .mac →
      run State.step (.new pasteboard) before = some s → s.NoEcho := by
  intro h
  cases hrun : run State.step (.new macText) bouncedText with
  | none => exact absurd hrun (by decide +kernel)
  | some s =>
    have hsent : (run State.step (.new macText) bouncedText).map (fun s => s.sent) =
        some [(.wave 1, [(.unicodeText, .client .text)])] := by decide +kernel
    rw [hrun, Option.map_some, Option.some.injEq] at hsent
    have hmem : (Origin.wave 1, [(Format.unicodeText, Writer.client .text)]) ∈ s.sent := by
      rw [hsent]
      exact List.mem_singleton_self _
    cases h macText bouncedText s rfl hrun _ hmem _ (List.mem_singleton_self _)

end State

end Macrdp.ClipboardSystem
