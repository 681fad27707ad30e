import Macrdp.ClipboardSystem

/-!
# What locks a wave of advertises

The handler of the client's answers locks whatever generation is current, and an
answer says nothing of the list it is for. An answer to another list can lock a
wave, and an answer that comes between the poller's check and its next list does
not stop that list.
-/

namespace Macrdp.ClipboardSystem

open StepSystem

/-- The generation of the wave the poller is in. -/
def Poller.inWave : Poller → Option UInt64
  | .advertising myGen _ _ | .superseding myGen _ | .locking myGen _ => some myGen
  | _ => none

/-- The poller will still ask whether its wave was accepted. -/
def Poller.asks : Poller → Bool
  | .advertising _ retries _ => decide (0 < retries)
  | .superseding _ _ | .locking _ _ => true
  | _ => false

/-- The poller is past its check, and on its way to send a list. -/
def Poller.advertises : Poller → Bool
  | .advertising _ _ _ => true
  | _ => false

/-- The generation that is about to be locked. -/
def Handler.stamp : Handler → Option UInt64
  | .idle => none
  | .stamping _ gen => some gen

/-- What the answer is to that is about to be stored. -/
def Handler.origin : Handler → Option Origin
  | .idle => none
  | .stamping origin _ => some origin

namespace State

/-- A wave stops at its locked generation only if the client accepted a list of it, and sends no
list after such an acceptance was stored. -/
def OwnAcceptance (s : State) : Action → Prop
  | .poll _ delivered =>
    match s.poller with
    | .locking myGen _ => s.lockedGen = myGen → .wave s.waves ∈ s.accepted
    | .advertising _ _ (.send _) => delivered = true → .wave s.waves ∉ s.processed
    | _ => True
  | _ => True

/-- A wave begins with a generation that is neither locked nor about to be; an acceptance taken
while the wave has a check ahead finds a list of the wave accepted; and one of the wave's own is
not stored between its check and its list. -/
def timely (s : State) : Action → Bool
  | .poll _ _ =>
    decide (s.poller = .beginning →
      s.lockedGen ≠ s.generation + 1 ∧ s.handler.stamp ≠ some (s.generation + 1))
  | .takeAnswer =>
    decide ((s.responses.head?.any fun answer => answer.2) = true → s.poller.asks = true →
      .wave s.waves ∈ s.accepted)
  | .lock =>
    decide (s.handler.origin = some (.wave s.waves) → s.poller.advertises = false)
  | _ => true

/-- Two states agree on the generations and on all that was accepted and stored. -/
structure SameLedger (s s' : State) : Prop where
  generation : s'.generation = s.generation
  lockedGen : s'.lockedGen = s.lockedGen
  waves : s'.waves = s.waves
  handler : s'.handler = s.handler
  accepted : s'.accepted = s.accepted
  processed : s'.processed = s.processed
  responses : ∀ x ∈ s'.responses, x ∈ s.responses
  /-- A new list is the current wave's or no wave's. -/
  outstanding : ∀ o ∈ s'.outstanding, o ∈ s.outstanding ∨ o = .other ∨ o = .wave s.waves

/-- What a step can do to the waves and their answers. -/
inductive Turns (s s' : State) (a : Action) : Prop
  | keeps (ledger : SameLedger s s')
      (wave : ∀ g, s'.poller.inWave = some g → s.poller.inWave = some g)
      (asks : s'.poller.asks = true → s.poller.asks = true)
      (advertises : s'.poller.advertises = true →
        s.poller.advertises = true ∨ s.poller.inWave ≠ some s.lockedGen)
  | begins (readable delivered : Bool) (action : a = .poll readable delivered)
      (poller : s.poller = .beginning)
      (next : s' = { s with
        generation := s.generation + 1
        waves := s.waves + 1
        poller := .advertising (s.generation + 1) 3 .files })
  | answers (origin : Origin) (rest : List Origin) (ok : Bool)
      (outstanding : s.outstanding = origin :: rest)
      (next : s' = { s with
        outstanding := rest
        responses := s.responses ++ [(origin, ok)]
        accepted := if ok then s.accepted ++ [origin] else s.accepted })
  | takes (action : a = .takeAnswer) (origin : Origin) (ok : Bool) (rest : List (Origin × Bool))
      (responses : s.responses = (origin, ok) :: rest)
      (next : s' = { s with
        responses := rest
        handler := if ok then .stamping origin s.generation else .idle })
  | locks (action : a = .lock) (origin : Origin) (gen : UInt64)
      (handler : s.handler = .stamping origin gen)
      (next : s' = { s with
        lockedGen := gen, handler := .idle, processed := s.processed ++ [origin] })

variable {s s' : State} {a : Action}

/-- A step that touches nothing of the waves. -/
theorem turns_of_same (hledger : SameLedger s s')
    (hpoller : s'.poller = s.poller) : Turns s s' a := by
  refine .keeps hledger ?_ ?_ ?_
  · rw [hpoller]
    exact fun g hg => hg
  · rw [hpoller]
    exact fun hasks => hasks
  · rw [hpoller]
    exact fun hadvertises => .inl hadvertises

/-- A step of the poller's out of its wave. -/
theorem turns_of_left (hledger : SameLedger s s')
    (hwave : s'.poller.inWave = none) : Turns s s' a := by
  have hasks : s'.poller.asks = false := by
    cases hpoller : s'.poller <;> simp_all [Poller.inWave, Poller.asks]
  have hadvertises : s'.poller.advertises = false := by
    cases hpoller : s'.poller <;> simp_all [Poller.inWave, Poller.advertises]
  refine .keeps hledger ?_ ?_ ?_
  · rw [hwave]
    exact fun g hg => absurd hg (by simp)
  · rw [hasks]
    exact fun h => absurd h (by simp)
  · rw [hadvertises]
    exact fun h => absurd h (by simp)

/-- After its list an advertise is in its wave if retries are left, and past its check. -/
theorem afterAdvertise_spec (myGen : UInt64) (retries : ℕ) :
    (∀ g, (afterAdvertise myGen retries).inWave = some g → g = myGen) ∧
      ((afterAdvertise myGen retries).asks = true → 0 < retries) ∧
      (afterAdvertise myGen retries).advertises = false := by
  cases retries with
  | zero => exact ⟨fun g hg => (by cases hg), nofun, rfl⟩
  | succ retries =>
    exact ⟨fun g hg => (Option.some.inj hg).symm, fun _ => Nat.succ_pos retries, rfl⟩

/-- The poller's steps. -/
theorem turns_poll {readable delivered : Bool}
    (h : s.poll readable delivered = some s') : Turns s s' (.poll readable delivered) := by
  have hsame : ∀ poller lastSeen, SameLedger s { s with poller := poller, lastSeen := lastSeen } :=
    fun _ _ => ⟨rfl, rfl, rfl, rfl, rfl, rfl, fun _ hx => hx, fun _ ho => .inl ho⟩
  unfold poll at h
  split at h
  · cases h
    exact turns_of_left (hsame _ _) rfl
  · cases h
    split
    · exact turns_of_same (hsame _ _) rfl
    · exact turns_of_left (hsame .tick s.lastSeen) rfl
  · cases h
    split
    · exact turns_of_left (hsame .parked s.lastSeen) rfl
    · exact turns_of_left (hsame _ _) rfl
  · cases h
    refine turns_of_left (hsame _ s.lastSeen) ?_
    dsimp only
    split <;> rfl
  · next hpoller =>
    cases h
    exact .begins _ _ rfl hpoller rfl
  · next myGen retries formats hpoller =>
    cases h
    obtain ⟨hwave, hasks, hquiet⟩ := afterAdvertise_spec myGen retries
    split
    · refine .keeps ⟨rfl, rfl, rfl, rfl, rfl, rfl, fun _ hx => hx, fun o ho => ?_⟩ ?_ ?_ ?_
      · rcases List.mem_append.mp ho with hold | hnew
        · exact .inl hold
        · exact .inr (.inr (List.mem_singleton.mp hnew))
      · intro g hg
        rw [hwave g hg, hpoller]
        rfl
      · intro hstill
        rw [hpoller]
        exact decide_eq_true (hasks hstill)
      · intro hstill
        rw [hquiet] at hstill
        cases hstill
    · exact turns_of_left (hsame .stopped s.lastSeen) rfl
  · next myGen retries stage _ hpoller =>
    cases h
    obtain ⟨hwave, hasks, hquiet⟩ := afterAdvertise_spec myGen retries
    refine .keeps (hsame _ s.lastSeen) ?_ ?_ ?_
    · intro g hg
      dsimp only at hg
      split at hg
      · rw [hwave g hg, hpoller]
        rfl
      · rw [← hg, hpoller]
        rfl
    · intro hstill
      rw [hpoller]
      dsimp only at hstill
      split at hstill
      · exact decide_eq_true (hasks hstill)
      · exact hstill
    · intro _
      rw [hpoller]
      exact .inl rfl
  · next myGen retries hpoller =>
    cases h
    split
    · refine .keeps (hsame (.locking myGen retries) s.lastSeen) ?_ ?_ ?_
      · rw [hpoller]
        exact fun g hg => hg
      · rw [hpoller]
        exact fun _ => rfl
      · exact nofun
    · exact turns_of_left (hsame .parked s.lastSeen) rfl
  · next myGen retries hpoller =>
    cases h
    split
    · exact turns_of_left (hsame .parked s.lastSeen) rfl
    · next hopen =>
      refine .keeps (hsame (.advertising myGen retries .files) s.lastSeen) ?_ ?_ ?_
      · rw [hpoller]
        exact fun g hg => hg
      · rw [hpoller]
        exact fun _ => rfl
      · rw [hpoller]
        exact fun _ => .inr fun hlocked => hopen (Option.some.inj hlocked).symm
  · cases h

/-- What a step can do, whoever takes it. -/
theorem turns_step (h : s.step a = some s') : Turns s s' a := by
  have hsame : SameLedger s s :=
    ⟨rfl, rfl, rfl, rfl, rfl, rfl, fun _ hx => hx, fun _ ho => .inl ho⟩
  cases a with
  | macCopy more hasFiles hasImage hasString | connect =>
    cases h
    exact turns_of_same { hsame with } rfl
  | disconnect i =>
    simp only [step, Option.ite_none_right_eq_some] at h
    rw [← Option.some.inj h.2]
    unfold readSelf
    split <;> exact turns_of_same { hsame with } rfl
  | remoteCopy i formats =>
    simp only [step, Option.ite_none_right_eq_some] at h
    rw [← Option.some.inj h.2]
    split <;> exact turns_of_same { hsame with } rfl
  | formatData i response =>
    obtain ⟨backend, -, rfl⟩ := Option.map_eq_some_iff.mp h
    exact turns_of_same { hsame with } rfl
  | remoteFileList i | publish hasImage hasString | downloadFails
    | requestFormatList i | fireDeferred =>
    simp only [step, Option.ite_none_right_eq_some] at h
    rw [← Option.some.inj h.2]
    exact turns_of_same { hsame with } rfl
  | locksExpire =>
    cases h
    unfold readSelf
    split <;> exact turns_of_same { hsame with } rfl
  | clear j =>
    obtain ⟨ourCc, -, rfl⟩ := Option.map_eq_some_iff.mp h
    unfold clearPasteboard
    split <;> exact turns_of_same { hsame with } rfl
  | ready i =>
    obtain ⟨backend, -, rfl⟩ := Option.map_eq_some_iff.mp h
    split <;> exact turns_of_same { hsame with } rfl
  | look j readable =>
    simp only [step] at h
    split at h
    · cases h
    · cases h
    · cases h
      exact turns_of_same { hsame with } rfl
  | send j delivered =>
    simp only [step] at h
    split at h
    · cases h
      split
      · refine turns_of_same { hsame with outstanding := fun o ho => ?_ } rfl
        rcases List.mem_append.mp ho with hold | hnew
        · exact .inl hold
        · exact .inr (.inl (List.mem_singleton.mp hnew))
      · exact turns_of_same { hsame with } rfl
    · cases h
  | poll readable delivered => exact turns_poll h
  | answer ok =>
    simp only [step] at h
    split at h
    · cases h
    · next origin rest houtstanding =>
      cases h
      exact .answers origin rest ok houtstanding rfl
  | loseList j =>
    simp only [step, Option.ite_none_right_eq_some] at h
    rw [← Option.some.inj h.2]
    refine turns_of_same { hsame with outstanding := fun o ho => ?_ } rfl
    exact .inl (List.mem_of_mem_eraseIdx ho)
  | loseAnswer j =>
    simp only [step, Option.ite_none_right_eq_some] at h
    rw [← Option.some.inj h.2]
    exact turns_of_same { hsame with responses := fun x hx => List.mem_of_mem_eraseIdx hx } rfl
  | takeAnswer =>
    simp only [step] at h
    split at h
    · next origin ok rest hhandler hresponses =>
      cases h
      exact .takes rfl origin ok rest hresponses rfl
    · cases h
  | lock =>
    simp only [step] at h
    split at h
    · cases h
    · next origin gen hhandler =>
      cases h
      exact .locks rfl origin gen hhandler rfl

/-- What holds of the waves in every run. -/
structure Bookkept (s : State) : Prop where
  outstanding_le : ∀ i, .wave i ∈ s.outstanding → i ≤ s.waves
  accepted_le : ∀ i, .wave i ∈ s.accepted → i ≤ s.waves
  responses_accepted : ∀ o, (o, true) ∈ s.responses → o ∈ s.accepted
  stamping_accepted : ∀ o g, s.handler = .stamping o g → o ∈ s.accepted
  processed_accepted : ∀ o ∈ s.processed, o ∈ s.accepted
  /-- The poller's wave is the latest. -/
  inWave_eq : ∀ g, s.poller.inWave = some g → g = s.generation
  stamping_eq : ∀ g, s.handler = .stamping (.wave s.waves) g → g = s.generation
  /-- Once an acceptance of the latest wave is stored, its generation stays locked. -/
  processed_locked : .wave s.waves ∈ s.processed →
    s.lockedGen = s.generation ∧ ∀ o g, s.handler = .stamping o g → g = s.generation

/-- A new process has begun no wave. -/
theorem bookkept_new (pasteboard : Pasteboard) : (State.new pasteboard).Bookkept where
  outstanding_le := fun i hi => absurd hi List.not_mem_nil
  accepted_le := fun i hi => absurd hi List.not_mem_nil
  responses_accepted := fun o ho => absurd ho List.not_mem_nil
  stamping_accepted := fun o g hg => by cases hg
  processed_accepted := fun o ho => absurd ho List.not_mem_nil
  inWave_eq := fun g hg => by cases hg
  stamping_eq := fun g hg => by cases hg
  processed_locked := fun h => absurd h List.not_mem_nil

/-- Every step keeps the books. -/
theorem Bookkept.step (hb : s.Bookkept) (h : s.step a = some s') : s'.Bookkept := by
  cases turns_step h with
  | keeps ledger wave asks advertises =>
    obtain ⟨hgen, hlocked, hwaves, hhandler, haccepted, hprocessed, hresponses, hout⟩ := ledger
    constructor
    · intro i hi
      rw [hwaves]
      rcases hout _ hi with hold | hother | hnew
      · exact hb.outstanding_le i hold
      · cases hother
      · cases hnew
        exact Nat.le_refl _
    · rw [haccepted, hwaves]
      exact hb.accepted_le
    · rw [haccepted]
      exact fun o ho => hb.responses_accepted o (hresponses _ ho)
    · rw [haccepted, hhandler]
      exact hb.stamping_accepted
    · rw [haccepted, hprocessed]
      exact hb.processed_accepted
    · rw [hgen]
      exact fun g hg => hb.inWave_eq g (wave g hg)
    · rw [hgen, hwaves, hhandler]
      exact hb.stamping_eq
    · rw [hgen, hwaves, hhandler, hprocessed, hlocked]
      exact hb.processed_locked
  | begins readable delivered action poller next =>
    rw [next]
    -- What was accepted so far is of earlier waves.
    have hnew : .wave (s.waves + 1) ∉ s.accepted := fun hmem => by
      have := hb.accepted_le _ hmem
      omega
    constructor
    · exact fun i hi => Nat.le_succ_of_le (hb.outstanding_le i hi)
    · exact fun i hi => Nat.le_succ_of_le (hb.accepted_le i hi)
    · exact hb.responses_accepted
    · exact hb.stamping_accepted
    · exact hb.processed_accepted
    · exact fun g hg => (Option.some.inj hg).symm
    · exact fun g hg => absurd (hb.stamping_accepted _ g hg) hnew
    · exact fun hmem => absurd (hb.processed_accepted _ hmem) hnew
  | answers origin rest ok outstanding next =>
    rw [next]
    have hgrows : ∀ o ∈ s.accepted, o ∈ if ok then s.accepted ++ [origin] else s.accepted := by
      intro o ho
      split
      · exact List.mem_append_left _ ho
      · exact ho
    have hhead : origin ∈ s.outstanding := by
      rw [outstanding]
      exact List.mem_cons_self
    constructor
    · intro i hi
      refine hb.outstanding_le i ?_
      rw [outstanding]
      exact List.mem_cons_of_mem _ hi
    · intro i hi
      dsimp only at hi
      split at hi
      · rcases List.mem_append.mp hi with hold | hnew
        · exact hb.accepted_le i hold
        · rw [← List.mem_singleton.mp hnew] at hhead
          exact hb.outstanding_le i hhead
      · exact hb.accepted_le i hi
    · intro o ho
      rcases List.mem_append.mp ho with hold | hnew
      · exact hgrows o (hb.responses_accepted o hold)
      · obtain ⟨rfl, rfl⟩ := Prod.mk.inj (List.mem_singleton.mp hnew)
        exact List.mem_append_right _ (List.mem_singleton_self _)
    · exact fun o g hg => hgrows o (hb.stamping_accepted o g hg)
    · exact fun o ho => hgrows o (hb.processed_accepted o ho)
    · exact hb.inWave_eq
    · exact hb.stamping_eq
    · exact hb.processed_locked
  | takes action origin ok rest responses next =>
    rw [next]
    have hstamp : ∀ o g, (if ok then Handler.stamping origin s.generation else .idle) =
        .stamping o g → g = s.generation ∧ (o, true) ∈ s.responses := by
      intro o g hg
      split at hg
      · next hok =>
        cases hg
        rw [responses, hok]
        exact ⟨rfl, List.mem_cons_self⟩
      · cases hg
    constructor
    · exact hb.outstanding_le
    · exact hb.accepted_le
    · intro o ho
      refine hb.responses_accepted o ?_
      rw [responses]
      exact List.mem_cons_of_mem _ ho
    · exact fun o g hg => hb.responses_accepted o (hstamp o g hg).2
    · exact hb.processed_accepted
    · exact hb.inWave_eq
    · exact fun g hg => (hstamp _ g hg).1
    · exact fun hmem => ⟨(hb.processed_locked hmem).1, fun o g hg => (hstamp o g hg).1⟩
  | locks action origin gen handler next =>
    rw [next]
    constructor
    · exact hb.outstanding_le
    · exact hb.accepted_le
    · exact hb.responses_accepted
    · exact fun o g hg => by cases hg
    · intro o ho
      rcases List.mem_append.mp ho with hold | hnew
      · exact hb.processed_accepted o hold
      · rw [List.mem_singleton.mp hnew]
        exact hb.stamping_accepted origin gen handler
    · exact hb.inWave_eq
    · exact fun g hg => by cases hg
    · intro hmem
      refine ⟨?_, fun o g hg => by cases hg⟩
      rcases List.mem_append.mp hmem with hold | hnew
      · exact (hb.processed_locked hold).2 origin gen handler
      · rw [← List.mem_singleton.mp hnew] at handler
        exact hb.stamping_eq gen handler

/-- A wave that will ask is locked by its own acceptance, and one that was told is past its
lists. -/
structure OwnLock (s : State) : Prop where
  locked_accepted : s.poller.asks = true → s.lockedGen = s.generation → .wave s.waves ∈ s.accepted
  stamp_accepted : s.poller.asks = true → s.handler.stamp = some s.generation →
    .wave s.waves ∈ s.accepted
  processed_quiet : .wave s.waves ∈ s.processed → s.poller.advertises = false

/-- The poller only asks and advertises in a wave. -/
theorem inWave_of_advertises {poller : Poller} (h : poller.advertises = true) :
    ∃ g, poller.inWave = some g := by
  cases poller with
  | advertising myGen _ _ => exact ⟨myGen, rfl⟩
  | _ => cases h

/-- Each step that meets the condition keeps a wave locked by its own acceptance. -/
theorem OwnLock.step (hb : s.Bookkept) (ho : s.OwnLock)
    (htimely : s.timely a = true) (h : s.step a = some s') : s'.OwnLock := by
  cases turns_step h with
  | keeps ledger wave asks advertises =>
    obtain ⟨hgen, hlocked, hwaves, hhandler, haccepted, hprocessed, -, -⟩ := ledger
    constructor
    · rw [hgen, hlocked, hwaves, haccepted]
      exact fun hasks => ho.locked_accepted (asks hasks)
    · rw [hgen, hhandler, hwaves, haccepted]
      exact fun hasks => ho.stamp_accepted (asks hasks)
    · rw [hwaves, hprocessed]
      intro hmem
      refine Bool.eq_false_iff.mpr fun hstill => ?_
      have hbefore : s.poller.advertises = true ∨ s.poller.inWave ≠ some s.lockedGen :=
        advertises hstill
      rcases hbefore with hbefore | hopen
      · rw [ho.processed_quiet hmem] at hbefore
        cases hbefore
      · -- It passed the check, though its generation is locked.
        obtain ⟨g, hg⟩ := inWave_of_advertises hstill
        have hwave := wave g hg
        rw [hb.inWave_eq g hwave, ← (hb.processed_locked hmem).1] at hwave
        exact hopen hwave
  | begins readable delivered action poller next =>
    rw [action] at htimely
    obtain ⟨hlocked, hstamp⟩ := of_decide_eq_true htimely poller
    rw [next]
    constructor
    · exact fun _ hlocked' => absurd hlocked' hlocked
    · exact fun _ hstamp' => absurd hstamp' hstamp
    · intro hmem
      have := hb.accepted_le _ (hb.processed_accepted _ hmem)
      dsimp only at this
      omega
  | answers origin rest ok outstanding next =>
    rw [next]
    have hgrows : ∀ o ∈ s.accepted, o ∈ if ok then s.accepted ++ [origin] else s.accepted := by
      intro o ho
      split
      · exact List.mem_append_left _ ho
      · exact ho
    constructor
    · exact fun hasks hlocked => hgrows _ (ho.locked_accepted hasks hlocked)
    · exact fun hasks hstamp => hgrows _ (ho.stamp_accepted hasks hstamp)
    · exact ho.processed_quiet
  | takes action origin ok rest responses next =>
    rw [action] at htimely
    rw [next]
    constructor
    · exact ho.locked_accepted
    · intro hasks hstamp
      refine of_decide_eq_true htimely ?_ hasks
      rw [responses]
      cases ok with
      | true => rfl
      | false => cases hstamp
    · exact ho.processed_quiet
  | locks action origin gen handler next =>
    rw [action] at htimely
    rw [next]
    constructor
    · intro hasks hlocked
      refine ho.stamp_accepted hasks ?_
      rw [handler]
      exact congrArg some hlocked
    · exact nofun
    · intro hmem
      rcases List.mem_append.mp hmem with hold | hnew
      · exact ho.processed_quiet hold
      · refine of_decide_eq_true htimely ?_
        rw [handler, List.mem_singleton.mp hnew]
        rfl

/-- A wave that is locked by its own acceptance stops by it, and stops for good. -/
theorem OwnLock.ownAcceptance (hb : s.Bookkept) (ho : s.OwnLock) (a : Action) :
    s.OwnAcceptance a := by
  unfold OwnAcceptance
  split
  · split
    · next myGen retries hpoller =>
      intro hlocked
      refine ho.locked_accepted (by rw [hpoller]; rfl) ?_
      rw [hlocked]
      exact hb.inWave_eq myGen (by rw [hpoller]; rfl)
    · next hpoller =>
      intro _ hmem
      have hquiet := ho.processed_quiet hmem
      rw [hpoller] at hquiet
      cases hquiet
    · trivial
  · trivial

/-- A run goes on to a step at which a wave is not locked by its own acceptance. -/
def Fails (s : State) : Prop :=
  ∃ more t, run State.step s more = some t ∧ ¬ Meets State.step OwnAcceptance s more

/-- A run fails at its first step. -/
theorem fails_of_step (h : s.step a = some s') (hbad : ¬ s.OwnAcceptance a) : s.Fails :=
  ⟨[a], s', run_cons_some.mpr ⟨s', h, rfl⟩, fun hmeets => hbad hmeets.1⟩

/-- A run fails later. -/
theorem Fails.cons (h : s.step a = some s') (hfails : s'.Fails) : s.Fails := by
  obtain ⟨more, t, hrun, hbad⟩ := hfails
  exact ⟨a :: more, t, run_cons_some.mpr ⟨s', h, hrun⟩, fun hmeets => hbad (hmeets.2 s' h)⟩

/-- Steps that are left to the check of a wave. -/
def checkAhead : Poller → ℕ
  | .advertising _ _ stage => left stage + 2
  | .superseding _ _ => 1
  | _ => 0

/-- A wave that asks, and whose generation another acceptance locked, stops by it. -/
theorem fails_of_locked (hasks : s.poller.asks = true)
    (hwave : s.poller.inWave = some s.generation) (hlocked : s.lockedGen = s.generation)
    (hnot : .wave s.waves ∉ s.accepted) : s.Fails := by
  induction hn : checkAhead s.poller using Nat.strongRecOn generalizing s with
  | ind n ih =>
    cases hpoller : s.poller with
    | locking myGen retries =>
      rw [hpoller] at hwave
      have hgen : s.lockedGen = myGen := hlocked.trans (Option.some.inj hwave).symm
      have hstep : s.step (.poll true true) = some { s with poller := .parked } := by
        simp only [State.step, poll, hpoller, hgen, if_true]
      refine fails_of_step hstep fun hown => hnot ?_
      simp only [OwnAcceptance, hpoller] at hown
      exact hown hgen
    | superseding myGen retries =>
      rw [hpoller] at hwave hn
      have hgen : s.generation = myGen := (Option.some.inj hwave).symm
      have hstep : s.step (.poll true true) =
          some { s with poller := .locking myGen retries } := by
        simp only [State.step, poll, hpoller, hgen, if_true]
      refine .cons hstep (ih 0 ?_ rfl ?_ hlocked hnot rfl)
      · rw [← hn]
        exact Nat.zero_lt_one
      · exact congrArg some hgen.symm
    | advertising myGen retries stage =>
      rw [hpoller] at hasks hwave hn
      obtain ⟨retries, rfl⟩ : ∃ r, retries = r + 1 :=
        Nat.exists_eq_succ_of_ne_zero (Nat.pos_iff_ne_zero.mp (of_decide_eq_true hasks))
      by_cases hlooks : 0 < left stage
      · cases hlook : look s.pasteboard.contents true stage with
        | none =>
          have hstep : s.step (.poll true true) =
              some { s with poller := .superseding myGen retries } := by
            cases stage with
            | send formats => exact absurd hlooks (Nat.lt_irrefl 0)
            | _ => simp only [State.step, poll, hpoller, hlook, afterAdvertise]
          refine .cons hstep (ih 1 ?_ rfl hwave hlocked hnot rfl)
          rw [← hn]
          exact Nat.lt_add_left _ (by decide)
        | some next =>
          have hstep : s.step (.poll true true) =
              some { s with poller := .advertising myGen (retries + 1) next } := by
            cases stage with
            | send formats => exact absurd hlooks (Nat.lt_irrefl 0)
            | _ => simp only [State.step, poll, hpoller, hlook]
          refine .cons hstep (ih (left next + 2) ?_ hasks hwave hlocked hnot rfl)
          rw [← hn]
          exact Nat.add_lt_add_right (left_look hlooks hlook) 2
      · obtain ⟨formats, rfl⟩ : ∃ formats, stage = .send formats := by
          cases stage with
          | send formats => exact ⟨formats, rfl⟩
          | _ => exact absurd (by simp [left]) hlooks
        have hstep : s.step (.poll true true) =
            some { s.post (.wave s.waves) formats with
              poller := .superseding myGen retries } := by
          simp only [State.step, poll, hpoller, if_true, afterAdvertise]
        refine .cons hstep (ih 1 ?_ rfl hwave hlocked hnot rfl)
        rw [← hn]
        exact Nat.lt_add_left _ (by decide)
    | _ =>
      rw [hpoller] at hasks
      cases hasks

/-- An advertise on a pasteboard with text has a list in the end. -/
theorem look_of_string {contents : Contents} (readable : Bool) (stage : Stage)
    (hstring : contents.hasString = true) : ∃ next, look contents readable stage = some next := by
  cases stage with
  | string formats =>
    refine ⟨.send (formats ++ [(.unicodeText, contents.writer)]), ?_⟩
    simp [look, hstring]
  | _ => exact ⟨_, rfl⟩

/-- A wave whose acceptance was stored while it was past its check sends a list all the same. -/
theorem fails_of_processed {myGen : UInt64} {retries : ℕ} {stage : Stage}
    (hpoller : s.poller = .advertising myGen retries stage)
    (hstring : s.pasteboard.contents.hasString = true) (hmem : .wave s.waves ∈ s.processed) :
    s.Fails := by
  induction hn : left stage using Nat.strongRecOn generalizing s stage with
  | ind n ih =>
    by_cases hlooks : 0 < left stage
    · obtain ⟨next, hlook⟩ := look_of_string true stage hstring
      have hstep : s.step (.poll true true) =
          some { s with poller := .advertising myGen retries next } := by
        cases stage with
        | send formats => exact absurd hlooks (Nat.lt_irrefl 0)
        | _ => simp only [State.step, poll, hpoller, hlook]
      exact .cons hstep (ih (left next) (hn ▸ left_look hlooks hlook) rfl hstring hmem rfl)
    · obtain ⟨formats, rfl⟩ : ∃ formats, stage = .send formats := by
        cases stage with
        | send formats => exact ⟨formats, rfl⟩
        | _ => exact absurd (by simp [left]) hlooks
      have hstep : s.step (.poll true true) =
          some { s.post (.wave s.waves) formats with poller := afterAdvertise myGen retries } := by
        simp only [State.step, poll, hpoller, if_true]
      refine fails_of_step hstep fun hown => ?_
      simp only [OwnAcceptance, hpoller] at hown
      exact hown trivial hmem

/-- The poller that asks is in the latest wave. -/
theorem Bookkept.inWave_of_asks (hb : s.Bookkept) (hasks : s.poller.asks = true) :
    s.poller.inWave = some s.generation := by
  have hin : ∃ g, s.poller.inWave = some g := by
    cases hpoller : s.poller with
    | advertising myGen _ _ | superseding myGen _ | locking myGen _ => exact ⟨myGen, rfl⟩
    | _ =>
      rw [hpoller] at hasks
      cases hasks
  obtain ⟨g, hg⟩ := hin
  rw [hg, hb.inWave_eq g hg]

/-- The handler stores what it took. -/
theorem step_lock {origin : Origin} {gen : UInt64} (hhandler : s.handler = .stamping origin gen) :
    s.step .lock = some { s with
      lockedGen := gen, handler := .idle, processed := s.processed ++ [origin] } := by
  simp only [State.step, hhandler]

/-- After a step that does not meet the condition a wave can go wrong. -/
theorem fails_of_untimely (hb : s.Bookkept)
    (hnot : s.timely a = false) (h : s.step a = some s') : s'.Fails := by
  cases a with
  | poll readable delivered =>
    have hboth := of_decide_eq_false hnot
    have hpoller : s.poller = .beginning := by
      by_contra hother
      exact hboth fun hbeginning => absurd hbeginning hother
    simp only [State.step, poll, hpoller, Option.some.injEq] at h
    have hunaccepted : .wave (s.waves + 1) ∉ s.accepted := fun hmem => by
      have := hb.accepted_le _ hmem
      omega
    by_cases hlocked : s.lockedGen = s.generation + 1
    · rw [← h]
      exact fails_of_locked rfl rfl hlocked hunaccepted
    · have hstamp : s.handler.stamp = some (s.generation + 1) := by
        by_contra hother
        exact hboth fun _ => ⟨hlocked, hother⟩
      cases hhandler : s.handler with
      | idle =>
        rw [hhandler] at hstamp
        cases hstamp
      | stamping origin gen =>
        rw [hhandler] at hstamp
        have hlock := step_lock (s := s') (by rw [← h]; exact hhandler)
        refine .cons hlock ?_
        rw [← h]
        exact fails_of_locked rfl rfl (Option.some.inj hstamp) hunaccepted
  | takeAnswer =>
    have hboth := of_decide_eq_false hnot
    simp only [State.step] at h
    split at h
    · next origin ok rest hhandler hresponses =>
      cases h
      have hcase : ok = true ∧ s.poller.asks = true ∧ .wave s.waves ∉ s.accepted := by
        rw [hresponses] at hboth
        simpa using hboth
      obtain ⟨rfl, hasks, hunaccepted⟩ := hcase
      refine .cons (step_lock rfl) ?_
      exact fails_of_locked hasks (hb.inWave_of_asks hasks) rfl hunaccepted
    · cases h
  | lock =>
    have hboth : s.handler.origin = some (.wave s.waves) ∧ s.poller.advertises = true := by
      simpa using of_decide_eq_false hnot
    obtain ⟨horigin, hadvertises⟩ := hboth
    simp only [State.step] at h
    split at h
    · cases h
    · next origin gen hhandler =>
      cases h
      rw [hhandler] at horigin
      have hmem : .wave s.waves ∈ s.processed ++ [origin] := by
        rw [Option.some.inj horigin]
        exact List.mem_append_right _ (List.mem_singleton_self _)
      have hpoller : ∃ myGen retries stage, s.poller = .advertising myGen retries stage := by
        cases hpoller : s.poller with
        | advertising myGen retries stage => exact ⟨myGen, retries, stage, rfl⟩
        | _ =>
          rw [hpoller] at hadvertises
          cases hadvertises
      obtain ⟨myGen, retries, stage, hpoller⟩ := hpoller
      -- The Mac copies a text before the list is sent.
      have hcopy : ∀ t : State, ∃ t', t.step (.macCopy 0 false false true) = some t' ∧
          t'.pasteboard.contents.hasString = true ∧ t'.poller = t.poller ∧
          t'.waves = t.waves ∧ t'.processed = t.processed :=
        fun t => ⟨_, rfl, rfl, rfl, rfl, rfl⟩
      obtain ⟨t', hstep, hstring, hsame, hwaves, hprocessed⟩ := hcopy _
      refine .cons hstep (fails_of_processed (hsame.trans hpoller) hstring ?_)
      rw [hwaves, hprocessed]
      exact hmem
  | _ => cases hnot

/-- A wave stops at its locked generation only after the client accepted a list of it, and sends
nothing once that was stored, as long as each step meets the condition; after a step that does
not it can go wrong. -/
theorem ownAcceptance_of_timely (pasteboard : Pasteboard) {before : List Action} {s : State}
    (hrun : run State.step (.new pasteboard) before = some s) :
    (Meets State.step (fun s a => s.timely a = true) (.new pasteboard) before →
        Meets State.step OwnAcceptance (.new pasteboard) before) ∧
      ∀ a s', s.step a = some s' → s.timely a = false → s'.Fails := by
  have hinit := bookkept_new pasteboard
  constructor
  · refine Meets.of_invariant (fun s => s.Bookkept ∧ s.OwnLock) ?_ ?_ ⟨hinit, ?_⟩
    · exact fun s a s' hinv htimely h => ⟨hinv.1.step h, hinv.2.step hinv.1 htimely h⟩
    · exact fun s a hinv _ => hinv.2.ownAcceptance hinv.1 a
    · exact ⟨fun hasks => absurd hasks Bool.false_ne_true,
        fun hasks => absurd hasks Bool.false_ne_true, fun _ => rfl⟩
  · intro a s' hstep hnot
    have hb := run_invariant_of_step Bookkept (fun s a s' hb h => hb.step h) hinit hrun
    exact fails_of_untimely hb hnot hstep

/-- A client connects, rejects the first list of a copy and accepts the second. -/
def retriedWave : List Action :=
  [.poll true true, .connect, .macCopy 0 false false true] ++
    List.replicate 8 (.poll true true) ++
    [.answer false, .takeAnswer] ++ List.replicate 6 (.poll true true) ++
    [.answer true, .takeAnswer, .lock, .poll true true, .poll true true]

/-- What the process starts with: a text of the Mac's. -/
def startText : Pasteboard := ⟨5, ⟨.mac, false, false, true⟩⟩

/-- The wave sends two lists and stops by its own acceptance. -/
theorem ownAcceptance_retriedWave :
    ((run State.step (.new startText) retriedWave).map fun s =>
      (s.sent.length, s.accepted, s.processed, s.poller)) =
        some (2, [.wave 1], [.wave 1], .parked) ∧
      Meets State.step OwnAcceptance (.new startText) retriedWave := by
  refine ⟨by decide +kernel, ?_⟩
  cases hrun : run State.step (.new startText) retriedWave with
  | none => exact absurd hrun (by decide +kernel)
  | some s =>
    exact (ownAcceptance_of_timely startText hrun).1 (meetsBool_iff.mp (by decide +kernel))

/-- The client accepts a list it asked for after a copy began a wave, and rejects the wave's own
list. -/
def staleOk : List Action :=
  [.poll true true, .connect, .requestFormatList 0, .look 0 true, .look 0 true, .look 0 true,
    .send 0 true, .macCopy 0 false false true] ++ List.replicate 8 (.poll true true) ++
    [.answer true, .takeAnswer, .lock, .answer false, .takeAnswer, .poll true true]

/-- The wave stops by the acceptance of another list. -/
theorem not_ownAcceptance_staleOk :
    ¬ ∀ (pasteboard : Pasteboard) (before : List Action),
      Meets State.step OwnAcceptance (.new pasteboard) before := by
  intro h
  cases hrun : run State.step (.new startText) staleOk with
  | none => exact absurd hrun (by decide +kernel)
  | some s =>
    have hend : (run State.step (.new startText) staleOk).map
        (fun s => (s.poller, s.lockedGen, s.waves, s.accepted)) =
          some (.locking 1 2, 1, 1, [.other]) := by decide +kernel
    rw [hrun, Option.map_some, Option.some.injEq] at hend
    obtain ⟨hpoller, hlocked, hwaves, haccepted⟩ : s.poller = .locking 1 2 ∧ s.lockedGen = 1 ∧
        s.waves = 1 ∧ s.accepted = [.other] := by simpa using hend
    have hmeets := ((meets_append staleOk [.poll true true] _).mp
      (h startText (staleOk ++ [.poll true true]))).2 s hrun
    have hmem := hmeets.1
    simp only [OwnAcceptance, hpoller, hlocked, hwaves, haccepted] at hmem
    exact absurd (hmem trivial) (by decide)

end State

end Macrdp.ClipboardSystem
