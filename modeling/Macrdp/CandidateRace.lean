import Macrdp.GfxContext
import Macrdp.MacClipboard
import Macrdp.NetAddress
import Macrdp.NonInterference

/-!
# A candidate beside a live session

While a session is served, the accept loop negotiates with one other connection
at a time. The candidate's channels are attached, through the factories of the
live session, before its peer has sent a byte, and dropped when it fails. The
live session is undisturbed exactly when no candidate builds a graphics server
and no dropped clipboard backend finds anything of the live session's to clean
up.
-/

namespace Macrdp.CandidateRace

open GfxContext MacClipboard NetAddress NonInterference PlatformTime StepSystem

/-- The guard of the accept loop. -/
structure ConnectionHandler (η : Type*) where
  onAccept : η → SocketAddr → Bool × η
  onAuthenticated : η → Bool → η

/-- The security mode of the server. -/
inductive RdpServerSecurity where
  | none
  | tls
  | hybrid
  deriving DecidableEq

/-- What a candidate is negotiated with; of the factories that keep nothing for
the process, only whether they are installed. -/
structure NegotiationContext (η : Type*) where
  security : RdpServerSecurity
  cliprdrFactory : Bool
  soundFactory : Bool
  rdpdrFactory : Bool
  usbFactory : Bool
  cameraFactory : Bool
  gfxFactory : Option Gfx
  connectionHandler : Option (ConnectionHandler η)

/-- The state that outlives a connection and that the live session uses. -/
structure SharedCells (μ : Type*) where
  gfx : GfxCells
  clipboard : ClipboardCells
  /-- Generation of the audio capture. -/
  audioGeneration : UInt64
  /-- The fields of the UDP transports, which no candidate is given. -/
  multitransport : μ

/-- A channel attached through a factory. -/
inductive Channel where
  | cliprdr
  | sound
  | rdpdr
  | gfx
  | usb
  | camera
  deriving DecidableEq

/-- The order in which channels are attached. -/
def Channel.next : Channel → Option Channel
  | .cliprdr => some .sound
  | .sound => some .rdpdr
  | .rdpdr => some .gfx
  | .gfx => some .usb
  | .usb => some .camera
  | .camera => none

/-- What the peer of a candidate is waited for. -/
inductive Stage where
  | x224
  | tls
  | credssp
  deriving DecidableEq

/-- What is next in dropping a clipboard backend. -/
inductive Teardown where
  | leaveClipboard
  | takeTempDir
  | drainPresenters
  | forgetPresenters (drained : Finset ℕ)
  | submitRemoval (drained : Finset ℕ)
  | loadSelfChangeCount
  | clearPasteboard (ourCc : ℤ)
  deriving DecidableEq

/-- How far a candidate is. -/
inductive Phase where
  /-- It waits for the size of the display. -/
  | sizing
  /-- A channel is attached next. -/
  | attaching (channel : Channel)
  /-- It waits for its peer. -/
  | negotiating (stage : Stage)
  /-- It has failed, and its channels are dropped. -/
  | dropping (next : Teardown)
  deriving DecidableEq

/-- A connection negotiated beside the live session. -/
structure Candidate where
  peer : SocketAddr
  phase : Phase

/-- The accept loop while it serves a session. -/
structure RaceState (π μ ο η : Type*) where
  /-- What only the live session uses. -/
  session : π
  cells : SharedCells μ
  /-- What the live session sent. -/
  sent : List ο
  /-- Clipboard backends alive; the pasteboard poller is parked at none. -/
  activeBackends : ℕ
  counters : GfxCounters
  /-- Presenters whose removal waits for the run loop. -/
  runloop : List (Finset ℕ)
  handler : η
  /-- Address, time of eviction and last try of the peer just evicted. -/
  recentlyEvicted : Option (IpAddr × Instant × Instant)
  /-- The candidate being negotiated. -/
  probing : Option Candidate

/-- What a live session does with the shared state: a step of its own that may
depend on everything but the candidates. -/
structure Session (π μ ε ο : Type*) where
  step : π → SharedCells μ → Bool → ε → Option (π × SharedCells μ × List ο)
  /-- A session changes the graphics context in place; only building a server
  puts another one in the cell. -/
  keepsServer : ∀ {p c parked e p' c' out}, step p c parked e = some (p', c', out) →
    c'.gfx.server = c.gfx.server

/-- How a candidate fails. -/
inductive Failure where
  /-- Its ten seconds are over. -/
  | timedOut
  /-- Its peer left, or sent no connection request that leads to TLS. -/
  | beginFailed
  | tlsFailed
  | credsspFailed
  deriving DecidableEq

/-- One step of the race. -/
inductive Action (ε : Type*) where
  | live (event : ε)
  | accepted (peer : SocketAddr) (now : Instant)
  /-- The candidate goes on. -/
  | candidate (now : Instant)
  | failed (failure : Failure)
  /-- The run loop removes presenters. -/
  | runloop

/-- A step of the live session. -/
def Action.isLive {ε : Type*} : Action ε → Bool
  | .live _ => true
  | _ => false

theorem Action.eq_live {ε : Type*} {a : Action ε} (h : a.isLive = true) :
    ∃ event, a = .live event := by
  cases a with
  | live event => exact ⟨event, rfl⟩
  | accepted peer now | candidate now | failed failure | runloop => cases h

/-- How soon after its last try an evicted peer may not come back. -/
def repreemptCooldown : Duration := .fromSecs 5

/-- How long after its eviction that is so at most. -/
def repreemptMaxLockout : Duration := .fromSecs 30

/-- A failure happens only where the candidate waits for what fails. -/
def Failure.possible : Failure → Phase → Bool
  | .timedOut, .sizing => true
  | .timedOut, .negotiating _ => true
  | .beginFailed, .negotiating .x224 => true
  | .tlsFailed, .negotiating .tls => true
  | .credsspFailed, .negotiating .credssp => true
  | _, _ => false

/-- What the peer is waited for next; `none` where it has won. -/
def Stage.next (security : RdpServerSecurity) : Stage → Option Stage
  | .x224 => if security = .none then none else some .tls
  | .tls => if security = .hybrid then some .credssp else none
  | .credssp => none

section Race

variable {π μ ε ο η : Type*}

/-- What the live session is and sees. -/
def RaceState.view (s : RaceState π μ ο η) : π × SharedCells μ × List ο :=
  (s.session, s.cells, s.sent)

/-- No clipboard channel is alive. -/
def RaceState.parked (s : RaceState π μ ο η) : Bool := decide (s.activeBackends = 0)

/-- Change the clipboard. -/
def RaceState.onClipboard (s : RaceState π μ ο η) (f : ClipboardCells → ClipboardCells) :
    RaceState π μ ο η :=
  { s with cells := { s.cells with clipboard := f s.cells.clipboard } }

/-- Whether the peer was evicted a moment ago; a try within the window re-arms it. -/
def bouncedBack (s : RaceState π μ ο η) (peer : SocketAddr) (now : Instant) :
    Bool × RaceState π μ ο η :=
  match s.recentlyEvicted with
  | some (ip, evictedAt, lastTry) =>
    if ip = peer.ip then
      let within := decide (now.saturatingDurationSince lastTry < repreemptCooldown)
        && decide (now.saturatingDurationSince evictedAt < repreemptMaxLockout)
      (within,
        if within then { s with recentlyEvicted := some (ip, evictedAt, now) } else s)
    else (false, s)
  | none => (false, s)

/-- A connection arrives while the session is live. -/
def accept (ctx : NegotiationContext η) (s : RaceState π μ ο η) (peer : SocketAddr)
    (now : Instant) : RaceState π μ ο η :=
  let (bounced, s) := bouncedBack s peer now
  if bounced then s
  else
    let (pass, handler) := match ctx.connectionHandler with
      | none => (true, s.handler)
      | some h => h.onAccept s.handler peer
    let s := { s with handler }
    if pass then { s with probing := some ⟨peer, .sizing⟩ } else s

/-- Attach a channel, if its factory is installed. -/
def attach (ctx : NegotiationContext η) (s : RaceState π μ ο η) (now : Instant) :
    Channel → RaceState π μ ο η
  | .cliprdr =>
    if ctx.cliprdrFactory then { s with activeBackends := s.activeBackends + 1 } else s
  | .gfx =>
    match ctx.gfxFactory with
    | none => s
    | some gfx =>
      let (cells, counters) := buildServerWithHandle gfx s.cells.gfx s.counters now
      { s with cells := { s.cells with gfx := cells }, counters }
  | .sound | .rdpdr | .usb | .camera => s

/-- The channels of a served connection, in the order they are attached. -/
def attachChannels (ctx : NegotiationContext η) (s : RaceState π μ ο η)
    (now : Instant) : RaceState π μ ο η :=
  [Channel.cliprdr, .sound, .rdpdr, .gfx, .usb, .camera].foldl (attach ctx · now) s

/-- One step of dropping a clipboard backend, and what is next. -/
def teardown (s : RaceState π μ ο η) : Teardown → RaceState π μ ο η × Option Teardown
  | .leaveClipboard => ({ s with activeBackends := s.activeBackends - 1 }, some .takeTempDir)
  | .takeTempDir => (s.onClipboard .takeTempDir, some .drainPresenters)
  | .drainPresenters =>
    (s.onClipboard .drainPresenters, some (.forgetPresenters s.cells.clipboard.livePresenters))
  | .forgetPresenters drained =>
    (s.onClipboard (·.forgetPresenters drained), some (.submitRemoval drained))
  | .submitRemoval drained =>
    (if drained = ∅ then s else { s with runloop := s.runloop ++ [drained] },
      some .loadSelfChangeCount)
  | .loadSelfChangeCount => (s, some (.clearPasteboard s.cells.clipboard.selfChangeCount))
  | .clearPasteboard ourCc => (s.onClipboard (·.clearPasteboard ourCc), none)

/-- The candidate goes on, or is gone. -/
def proceed (s : RaceState π μ ο η) (c : Candidate) (phase : Option Phase) : RaceState π μ ο η :=
  { s with probing := phase.map fun p => { c with phase := p } }

/-- The candidate's next step. A candidate that wins ends the race, which is not a
step of it. -/
def advance (ctx : NegotiationContext η) (s : RaceState π μ ο η) (now : Instant) (c : Candidate) :
    Option (RaceState π μ ο η) :=
  match c.phase with
  | .sizing => some (proceed s c (some (.attaching .cliprdr)))
  | .attaching channel =>
    some (proceed (attach ctx s now channel) c
      (some (channel.next.elim (.negotiating .x224) .attaching)))
  | .negotiating stage =>
    (stage.next ctx.security).map fun next => proceed s c (some (.negotiating next))
  | .dropping next =>
    let (s, next) := teardown s next
    some (proceed s c (next.map .dropping))

/-- The candidate fails: the channels it has are dropped. -/
def fail (ctx : NegotiationContext η) (s : RaceState π μ ο η) (c : Candidate)
    (failure : Failure) : Option (RaceState π μ ο η) :=
  if failure.possible c.phase then
    let s := match failure, ctx.connectionHandler with
      | .credsspFailed, some h => { s with handler := h.onAuthenticated s.handler false }
      | _, _ => s
    if c.phase = .sizing ∨ ctx.cliprdrFactory = false then some (proceed s c none)
    else some (proceed s c (some (.dropping .leaveClipboard)))
  else none

/-- The run loop removes the presenters submitted first. -/
def removePresenters (s : RaceState π μ ο η) : Option (RaceState π μ ο η) :=
  match s.runloop with
  | [] => none
  | job :: rest => some { s.onClipboard (·.removeFilePresenters job) with runloop := rest }

/-- One step of the race. -/
def step (live : Session π μ ε ο) (ctx : NegotiationContext η) (s : RaceState π μ ο η) :
    Action ε → Option (RaceState π μ ο η)
  | .live event => (live.step s.session s.cells s.parked event).map fun (p, c, out) =>
      { s with session := p, cells := c, sent := s.sent ++ out }
  | .accepted peer now => if s.probing.isSome then none else some (accept ctx s peer now)
  | .candidate now => s.probing.bind (advance ctx s now)
  | .failed failure => s.probing.bind fun c => fail ctx s c failure
  | .runloop => removePresenters s

/-- The clipboard backends of one connection with its channels attached. -/
def NegotiationContext.backends (ctx : NegotiationContext η) : ℕ :=
  if ctx.cliprdrFactory then 1 else 0

/-- The clipboard backends of a candidate. -/
def Phase.backends (ctx : NegotiationContext η) : Phase → ℕ
  | .sizing | .attaching .cliprdr => 0
  | .attaching _ | .negotiating _ | .dropping .leaveClipboard => ctx.backends
  | .dropping _ => 0

/-- A session is live: its clipboard backend is one of those alive, and its
graphics server was built before the next one. -/
structure Live (ctx : NegotiationContext η) (s : RaceState π μ ο η) : Prop where
  backends : s.activeBackends =
    ctx.backends + (s.probing.elim 0 fun c => c.phase.backends ctx)
  server : ∀ h, s.cells.gfx.server = some h → h < s.counters.nextHandle

/-- The candidate's next step takes nothing of the live session's. -/
def Phase.Harmless (ctx : NegotiationContext η) (c : ClipboardCells) : Phase → Prop
  | .attaching .gfx => ctx.gfxFactory = none
  | .dropping .takeTempDir => c.pasteTempDir = none
  | .dropping .drainPresenters => c.livePresenters = ∅
  | .dropping (.forgetPresenters drained) => Disjoint c.registry drained
  | .dropping (.clearPasteboard ourCc) => ¬c.OwnsPasteboard ourCc
  | _ => True

/-- The step takes nothing of the live session's. -/
def Harmless (ctx : NegotiationContext η) (s : RaceState π μ ο η) : Action ε → Prop
  | .candidate _ => ∀ c ∈ s.probing, c.phase.Harmless ctx s.cells.clipboard
  | .runloop => ∀ job ∈ s.runloop.head?, Disjoint s.cells.clipboard.coordinated job
  | _ => True

instance (ctx : NegotiationContext η) (c : ClipboardCells) :
    (phase : Phase) → Decidable (phase.Harmless ctx c)
  | .sizing => isTrue trivial
  | .attaching .gfx => inferInstanceAs (Decidable (ctx.gfxFactory = none))
  | .attaching .cliprdr | .attaching .sound | .attaching .rdpdr | .attaching .usb
  | .attaching .camera => isTrue trivial
  | .negotiating _ => isTrue trivial
  | .dropping .takeTempDir => inferInstanceAs (Decidable (c.pasteTempDir = none))
  | .dropping .drainPresenters => inferInstanceAs (Decidable (c.livePresenters = ∅))
  | .dropping (.forgetPresenters drained) =>
    inferInstanceAs (Decidable (Disjoint c.registry drained))
  | .dropping (.clearPasteboard ourCc) => inferInstanceAs (Decidable (¬c.OwnsPasteboard ourCc))
  | .dropping .leaveClipboard | .dropping (.submitRemoval _) | .dropping .loadSelfChangeCount =>
    isTrue trivial

instance (ctx : NegotiationContext η) (s : RaceState π μ ο η) :
    (a : Action ε) → Decidable (Harmless ctx s a)
  | .live _ | .accepted _ _ | .failed _ => isTrue trivial
  | .candidate _ =>
    inferInstanceAs (Decidable (∀ c ∈ s.probing, c.phase.Harmless ctx s.cells.clipboard))
  | .runloop =>
    inferInstanceAs (Decidable
      (∀ job ∈ s.runloop.head?, Disjoint s.cells.clipboard.coordinated job))

/-- The server in the cell was built before the next one. -/
def Served (s : RaceState π μ ο η) : Prop :=
  ∀ h, s.cells.gfx.server = some h → h < s.counters.nextHandle

variable {ctx : NegotiationContext η} {s s' : RaceState π μ ο η}

/-- What is seen changes with the clipboard only if the clipboard does. -/
theorem view_onClipboard {f : ClipboardCells → ClipboardCells} :
    (s.onClipboard f).view = s.view ↔ f s.cells.clipboard = s.cells.clipboard := by
  constructor
  · intro h
    exact congrArg (fun v => v.2.1.clipboard) h
  · intro h
    simp only [RaceState.view, RaceState.onClipboard, h]

theorem attach_backends (now : Instant) (channel : Channel) :
    (attach ctx s now channel).activeBackends =
      s.activeBackends + if channel = .cliprdr then ctx.backends else 0 := by
  cases channel with
  | cliprdr =>
    simp only [attach, NegotiationContext.backends, if_true]
    split <;> rfl
  | gfx =>
    simp only [attach]
    split <;> rfl
  | sound | rdpdr | usb | camera => rfl

theorem Served.attach (h : Served s) (now : Instant) (channel : Channel) :
    Served (attach ctx s now channel) := by
  cases channel with
  | cliprdr =>
    simp only [CandidateRace.attach]
    split
    · exact h
    · exact h
  | gfx =>
    simp only [CandidateRace.attach]
    split
    · exact h
    · intro handle hhandle
      cases hhandle
      exact Nat.lt_succ_self _
  | sound | rdpdr | usb | camera => exact h

/-- Of the channels, only graphics are seen by the live session: the context of
its server is replaced. -/
theorem view_attach (h : Served s) (now : Instant) (channel : Channel) :
    (attach ctx s now channel).view = s.view ↔
      Phase.Harmless ctx s.cells.clipboard (.attaching channel) := by
  cases channel with
  | cliprdr =>
    simp only [attach, Phase.Harmless, iff_true]
    split <;> rfl
  | gfx =>
    simp only [attach, Phase.Harmless]
    cases hgfx : ctx.gfxFactory with
    | none => simp only
    | some gfx =>
      simp only [reduceCtorEq, iff_false]
      intro hview
      have hbuilt := server_buildServerWithHandle gfx s.cells.gfx s.counters now
      have hserver : (buildServerWithHandle gfx s.cells.gfx s.counters now).1.server =
          s.cells.gfx.server := congrArg (fun v => v.2.1.gfx.server) hview
      exact absurd (h _ (hserver.symm.trans hbuilt)) (lt_irrefl _)
  | sound | rdpdr | usb | camera => exact iff_of_true rfl trivial

/-- A connection served by a process with no other is live. -/
theorem live_attachChannels (hserved : Served s) (hbackends : s.activeBackends = 0)
    (hprobing : s.probing = none) (now : Instant) : Live ctx (attachChannels ctx s now) where
  backends := by
    have hkeeps : ∀ (s : RaceState π μ ο η) channel,
        (attach ctx s now channel).probing = s.probing := by
      intro s channel
      cases channel <;> simp only [attach] <;> split <;> rfl
    simp only [attachChannels, List.foldl_cons, List.foldl_nil, attach_backends, hkeeps, hprobing,
      hbackends]
    simp
  server := by
    simp only [attachChannels, List.foldl_cons, List.foldl_nil]
    exact (((((hserved.attach now _).attach now _).attach now _).attach now _).attach now _).attach
      now _

theorem teardown_backends (next : Teardown) :
    (teardown s next).1.activeBackends =
      if next = .leaveClipboard then s.activeBackends - 1 else s.activeBackends := by
  cases next with
  | submitRemoval drained =>
    simp only [teardown, reduceCtorEq, if_false]
    split <;> rfl
  | leaveClipboard | takeTempDir | drainPresenters | forgetPresenters drained => rfl
  | loadSelfChangeCount | clearPasteboard ourCc => rfl

theorem Served.teardown (h : Served s) (next : Teardown) : Served (teardown s next).1 := by
  cases next with
  | submitRemoval drained =>
    simp only [CandidateRace.teardown]
    split
    · exact h
    · exact h
  | leaveClipboard | takeTempDir | drainPresenters | forgetPresenters drained => exact h
  | loadSelfChangeCount | clearPasteboard ourCc => exact h

/-- A backend that is dropped is seen exactly when there is something to clean up. -/
theorem view_teardown (next : Teardown) :
    (teardown s next).1.view = s.view ↔
      Phase.Harmless ctx s.cells.clipboard (.dropping next) := by
  cases next with
  | leaveClipboard | loadSelfChangeCount => exact iff_of_true rfl trivial
  | takeTempDir => exact view_onClipboard.trans ClipboardCells.takeTempDir_eq_self
  | drainPresenters => exact view_onClipboard.trans ClipboardCells.drainPresenters_eq_self
  | forgetPresenters drained => exact view_onClipboard.trans ClipboardCells.forgetPresenters_eq_self
  | submitRemoval drained =>
    refine iff_of_true ?_ trivial
    simp only [CandidateRace.teardown]
    split <;> rfl
  | clearPasteboard ourCc => exact view_onClipboard.trans ClipboardCells.clearPasteboard_eq_self

theorem bouncedBack_eq (s : RaceState π μ ο η) (peer : SocketAddr) (now : Instant) :
    ∃ evicted, (bouncedBack s peer now).2 = { s with recentlyEvicted := evicted } := by
  simp only [bouncedBack]
  split
  · split
    · simp only
      split
      · exact ⟨_, rfl⟩
      · exact ⟨s.recentlyEvicted, rfl⟩
    · exact ⟨s.recentlyEvicted, rfl⟩
  · exact ⟨s.recentlyEvicted, rfl⟩

/-- An arrival concerns the guard, and may become the candidate. -/
theorem accept_eq (ctx : NegotiationContext η) (s : RaceState π μ ο η) (peer : SocketAddr)
    (now : Instant) :
    ∃ evicted handler probing, accept ctx s peer now =
        { s with recentlyEvicted := evicted, handler, probing } ∧
      (probing = s.probing ∨ probing = some ⟨peer, .sizing⟩) := by
  obtain ⟨evicted, hevicted⟩ := bouncedBack_eq s peer now
  simp only [accept, hevicted]
  split
  · exact ⟨evicted, s.handler, s.probing, rfl, .inl rfl⟩
  · generalize (match ctx.connectionHandler with
      | none => (true, s.handler)
      | some h => h.onAccept s.handler peer) = verdict
    split
    · exact ⟨evicted, verdict.2, _, rfl, .inr rfl⟩
    · exact ⟨evicted, verdict.2, s.probing, rfl, .inl rfl⟩

/-- A candidate fails where it waits. -/
theorem possible_cases {failure : Failure} {phase : Phase} (h : failure.possible phase = true) :
    phase = .sizing ∨ ∃ stage, phase = .negotiating stage := by
  cases phase with
  | sizing => exact .inl rfl
  | attaching channel => cases failure <;> cases h
  | negotiating stage => exact .inr ⟨stage, rfl⟩
  | dropping next => cases failure <;> cases h

/-- A failure concerns the guard, and begins to drop what the candidate has. -/
theorem fail_eq {c : Candidate} {failure : Failure} (h : fail ctx s c failure = some s') :
    ∃ handler phase, s' = proceed { s with handler } c phase ∧
      (phase = none ∧ c.phase.backends ctx = 0 ∨
        phase = some (.dropping .leaveClipboard) ∧ c.phase.backends ctx = ctx.backends) := by
  simp only [fail] at h
  split at h
  · next hpossible =>
    have hhandler : ∃ handler, (match failure, ctx.connectionHandler with
        | .credsspFailed, some h => { s with handler := h.onAuthenticated s.handler false }
        | _, _ => s) = { s with handler } := by
      split
      · exact ⟨_, rfl⟩
      · exact ⟨s.handler, rfl⟩
    obtain ⟨handler, hhandler⟩ := hhandler
    rw [hhandler] at h
    split at h
    · next hnone =>
      cases h
      refine ⟨handler, none, rfl, .inl ⟨rfl, ?_⟩⟩
      rcases possible_cases hpossible with hphase | ⟨stage, hphase⟩
      · rw [hphase]
        rfl
      · have hfactory : ctx.cliprdrFactory = false := hnone.resolve_left (by simp [hphase])
        simp [hphase, Phase.backends, NegotiationContext.backends, hfactory]
    · next hsome =>
      cases h
      refine ⟨handler, _, rfl, .inr ⟨rfl, ?_⟩⟩
      rcases possible_cases hpossible with hphase | ⟨stage, hphase⟩
      · exact absurd (.inl hphase) hsome
      · rw [hphase]
        rfl
  · cases h

/-- A candidate goes on with the clipboard backend it has then. -/
theorem Live.proceed {c : Candidate} {phase : Option Phase} (hserved : Served s)
    (hbackends : s.activeBackends = ctx.backends + phase.elim 0 (·.backends ctx)) :
    Live ctx (proceed s c phase) where
  backends := by
    rw [CandidateRace.proceed, hbackends]
    cases phase <;> rfl
  server := hserved

/-- The candidate's next step keeps the live session's part. -/
theorem Live.advance {now : Instant} {c : Candidate} (h : Live ctx s) (hc : s.probing = some c)
    (hstep : advance ctx s now c = some s') : Live ctx s' := by
  have hbackends : s.activeBackends = ctx.backends + c.phase.backends ctx := by
    rw [h.backends, hc]
    rfl
  simp only [CandidateRace.advance] at hstep
  cases hphase : c.phase with
  | sizing =>
    simp only [hphase, Option.some.injEq] at hstep hbackends
    rw [← hstep]
    exact Live.proceed h.server hbackends
  | attaching channel =>
    simp only [hphase, Option.some.injEq] at hstep hbackends
    rw [← hstep]
    refine Live.proceed (Served.attach h.server now channel) ?_
    rw [attach_backends, hbackends]
    cases channel <;> rfl
  | negotiating stage =>
    simp only [hphase, Option.map_eq_some_iff] at hstep hbackends
    obtain ⟨next, -, rfl⟩ := hstep
    exact Live.proceed h.server hbackends
  | dropping next =>
    simp only [hphase, Option.some.injEq] at hstep hbackends
    rw [← hstep]
    refine Live.proceed (Served.teardown h.server next) ?_
    rw [teardown_backends, hbackends]
    cases next with
    | leaveClipboard =>
      simp only [if_true, CandidateRace.teardown, Option.map_some, Option.elim_some,
        Phase.backends, NegotiationContext.backends]
      split <;> rfl
    | takeTempDir | drainPresenters | forgetPresenters drained | submitRemoval drained => rfl
    | loadSelfChangeCount | clearPasteboard ourCc => rfl

/-- The session stays live through every step of the race. -/
theorem Live.step {live : Session π μ ε ο} {a : Action ε} (h : Live ctx s)
    (hstep : step live ctx s a = some s') : Live ctx s' := by
  cases a with
  | live event =>
    obtain ⟨⟨p, c, out⟩, hlive, rfl⟩ := Option.map_eq_some_iff.mp hstep
    refine ⟨h.backends, fun handle hhandle => h.server handle ?_⟩
    rw [← live.keepsServer hlive]
    exact hhandle
  | accepted peer now =>
    simp only [CandidateRace.step] at hstep
    split at hstep
    · cases hstep
    · next hprobing =>
      cases hstep
      obtain ⟨evicted, handler, probing, heq, hcases⟩ := accept_eq ctx s peer now
      have hnone : s.probing = none := by simpa using hprobing
      have hbackends : s.activeBackends = ctx.backends := by
        rw [h.backends, hnone]
        rfl
      rw [heq]
      refine ⟨?_, h.server⟩
      rcases hcases with hsame | hnew
      · rw [hsame, hnone]
        exact hbackends
      · rw [hnew]
        exact hbackends
  | candidate now =>
    obtain ⟨c, hc, hadvance⟩ := Option.bind_eq_some_iff.mp hstep
    exact h.advance hc hadvance
  | failed failure =>
    obtain ⟨c, hc, hfail⟩ := Option.bind_eq_some_iff.mp hstep
    obtain ⟨handler, phase, rfl, hphase⟩ := fail_eq hfail
    have hbackends : s.activeBackends = ctx.backends + c.phase.backends ctx := by
      rw [h.backends, hc]
      rfl
    refine Live.proceed h.server ?_
    rcases hphase with ⟨rfl, hzero⟩ | ⟨rfl, hone⟩
    · rw [hzero] at hbackends
      exact hbackends
    · rw [hone] at hbackends
      exact hbackends
  | runloop =>
    simp only [CandidateRace.step, removePresenters] at hstep
    split at hstep
    · cases hstep
    · cases hstep
      exact ⟨h.backends, h.server⟩

/-- A live session is parked exactly when it has no clipboard channel. -/
theorem Live.parked (h : Live ctx s) : s.parked = !ctx.cliprdrFactory := by
  have hshare : ∀ phase : Phase, ctx.cliprdrFactory = false → phase.backends ctx = 0 := by
    intro phase hfactory
    have hzero : ctx.backends = 0 := by simp [NegotiationContext.backends, hfactory]
    unfold Phase.backends
    split <;> first | rfl | exact hzero
  unfold RaceState.parked
  rw [h.backends]
  cases hfactory : ctx.cliprdrFactory with
  | true => simp [NegotiationContext.backends, hfactory]
  | false =>
    cases s.probing with
    | none => simp [NegotiationContext.backends, hfactory]
    | some c => simp [NegotiationContext.backends, hfactory, hshare c.phase hfactory]

/-- A step of the live session depends on what it sees only. -/
theorem live_consistent {live : Session π μ ε ο} {u : RaceState π μ ο η} {event : ε}
    (hs : Live ctx s) (hu : Live ctx u) (heq : s.view = u.view)
    (hstep : step live ctx s (.live event) = some s') :
    ∃ u', step live ctx u (.live event) = some u' ∧ s'.view = u'.view := by
  obtain ⟨⟨p, c, out⟩, hlive, rfl⟩ := Option.map_eq_some_iff.mp hstep
  simp only [RaceState.view, Prod.mk.injEq] at heq
  obtain ⟨hsession, hcells, hsent⟩ := heq
  rw [hsession, hcells, hs.parked, ← hu.parked] at hlive
  refine ⟨_, Option.map_eq_some_iff.mpr ⟨_, hlive, rfl⟩, ?_⟩
  simp only [RaceState.view, hsent]

/-- A step that is not the live session's is seen exactly when it takes something
of the live session's. -/
theorem bystander_seen {live : Session π μ ε ο} {a : Action ε} (ha : a.isLive = false)
    (h : Live ctx s) (hstep : step live ctx s a = some s') :
    s'.view = s.view ↔ Harmless ctx s a := by
  cases a with
  | live event => cases ha
  | accepted peer now =>
    refine iff_of_true ?_ trivial
    simp only [CandidateRace.step] at hstep
    split at hstep
    · cases hstep
    · cases hstep
      obtain ⟨evicted, handler, probing, heq, -⟩ := accept_eq ctx s peer now
      rw [heq]
      rfl
  | candidate now =>
    obtain ⟨c, hc, hadvance⟩ := Option.bind_eq_some_iff.mp hstep
    simp only [Harmless, hc, Option.mem_some_iff, forall_eq']
    simp only [CandidateRace.advance] at hadvance
    cases hphase : c.phase with
    | sizing =>
      simp only [hphase, Option.some.injEq] at hadvance
      rw [← hadvance]
      exact iff_of_true rfl trivial
    | attaching channel =>
      simp only [hphase, Option.some.injEq] at hadvance
      rw [← hadvance]
      exact view_attach h.server now channel
    | negotiating stage =>
      simp only [hphase, Option.map_eq_some_iff] at hadvance
      obtain ⟨next, -, rfl⟩ := hadvance
      exact iff_of_true rfl trivial
    | dropping next =>
      simp only [hphase, Option.some.injEq] at hadvance
      rw [← hadvance]
      exact view_teardown next
  | failed failure =>
    obtain ⟨c, -, hfail⟩ := Option.bind_eq_some_iff.mp hstep
    obtain ⟨handler, phase, rfl, -⟩ := fail_eq hfail
    exact iff_of_true rfl trivial
  | runloop =>
    simp only [CandidateRace.step, removePresenters] at hstep
    split at hstep
    · cases hstep
    · next job rest hqueue =>
      cases hstep
      simp only [Harmless, hqueue, List.head?_cons, Option.mem_some_iff, forall_eq']
      exact (view_onClipboard (s := s) (f := (·.removeFilePresenters job))).trans
        ClipboardCells.removeFilePresenters_eq_self

/-- Harmlessness decides whether the candidates are seen. -/
theorem unwinding (live : Session π μ ε ο) (ctx : NegotiationContext η) :
    Unwinding (step live ctx) Action.isLive RaceState.view (Live ctx) (Harmless ctx) where
  inv := Live.step
  consistent {s u a s'} ha hs hu heq hstep := by
    obtain ⟨event, rfl⟩ := Action.eq_live ha
    exact live_consistent hs hu heq hstep
  own {s a} ha := by
    obtain ⟨event, rfl⟩ := Action.eq_live ha
    trivial
  seen := bystander_seen

/-- Whatever the live session does, and however candidates come, go and fail
between its steps: it is undisturbed exactly when every step is harmless. -/
theorem candidates_undisturb_iff (live : Session π μ ε ο) (ctx : NegotiationContext η)
    {s t : RaceState π μ ο η} {acts : List (Action ε)} (hs : Live ctx s)
    (hrun : run (step live ctx) s acts = some t) :
    Undisturbed (step live ctx) Action.isLive RaceState.view s acts ↔
      Meets (step live ctx) (Harmless ctx) s acts :=
  (unwinding live ctx).undisturbed_iff hs hrun

end Race

/-- What the client and the desktop bring about in a live session. -/
inductive MacEvent where
  | gfx (event : GfxEvent)
  /-- The client copied files, -/
  | remoteFiles (dir : String) (ids : Finset ℕ)
  /-- which the run loop presents. -/
  | presented (ids : Finset ℕ) (urls : List String)
  /-- The client's clipboard moved on without files. -/
  | locksExpired
  /-- Another application wrote the pasteboard. -/
  | copied (contents : List String)

/-- The graphics callbacks and the clipboard of a live session. -/
def macStep {μ : Type*} (cells : SharedCells μ) : MacEvent → SharedCells μ
  | .gfx event => { cells with gfx := callback cells.gfx event }
  | .remoteFiles dir ids =>
    { cells with clipboard := (cells.clipboard.stageRemoteFiles dir ids).1 }
  | .presented ids urls =>
    { cells with clipboard := cells.clipboard.presentRemoteFiles ids urls }
  | .locksExpired => { cells with clipboard := cells.clipboard.clearPasteboardIfStale }
  | .copied contents =>
    { cells with clipboard := { cells.clipboard with
      pasteboard := cells.clipboard.pasteboard.clearContents.writeObjects contents } }

/-- A live session of graphics callbacks and clipboard events. -/
def macSession (μ : Type*) : Session Unit μ MacEvent Empty where
  step _ cells _ event := some ((), macStep cells event, [])
  keepsServer {p c parked e p' c' out} h := by
    cases h
    cases e with
    | gfx event => exact server_callback c.gfx event
    | remoteFiles dir ids => rfl
    | presented ids urls => rfl
    | locksExpired => rfl
    | copied contents => rfl

/-- A server with clipboard, sound and graphics. -/
def macContext : NegotiationContext Unit where
  security := .hybrid
  cliprdrFactory := true
  soundFactory := true
  rdpdrFactory := false
  usbFactory := false
  cameraFactory := false
  gfxFactory := some
    { fps := 30
      bitrateBps := 8000000
      adaptiveEnabled := true
      adaptiveFloorBps := 1000000
      adaptiveSeedRttMs := 80
      minRenderReports := 3 }
  connectionHandler := none

/-- A process without a session, before its first. -/
def idle : RaceState Unit Unit Empty Unit where
  session := ()
  cells :=
    { gfx := { ctx := none, congestionRetransmits := 0, linkRttMs := 0, egfxOnUdp := false }
      clipboard := .new ⟨7, []⟩
      audioGeneration := 0
      multitransport := () }
  sent := []
  activeBackends := 0
  counters := { nextHandle := 0, nextDiagnosticSession := 1 }
  runloop := []
  handler := ()
  recentlyEvicted := none
  probing := none

/-- A client that decodes H.264 and has copied a file. -/
def copiesFile : List (Action MacEvent) :=
  [.live (.gfx (.capabilities [.v8, .v10 false])), .live (.gfx .ready),
    .live (.remoteFiles "paste" {1}), .live (.presented {1} ["paste/file"])]

/-- A connection whose peer says nothing until it is dropped. -/
def silentCandidate : List (Action MacEvent) :=
  .accepted ⟨.v4 ⟨10, 0, 0, 9⟩, 50000⟩ (.fromSecs 60) ::
    (List.replicate 7 (.candidate (.fromSecs 60)) ++
      .failed .timedOut :: (List.replicate 7 (.candidate (.fromSecs 70)) ++ [.runloop]))

/-- A connection that never sends a byte stops the captures of the live session,
removes the files its client copied and empties the pasteboard. -/
theorem not_candidates_undisturb :
    let served := attachChannels macContext idle (.fromSecs 0)
    let shown := fun s : RaceState Unit Unit Empty Unit =>
      (s.cells.gfx.takesCaptures, s.cells.clipboard.tempDirs, s.cells.clipboard.registry,
        s.cells.clipboard.pasteboard.contents)
    (run (step (macSession Unit) macContext) served copiesFile).map shown =
        some (true, {"paste"}, {1}, ["paste/file"]) ∧
      (run (step (macSession Unit) macContext) served (copiesFile ++ silentCandidate)).map shown =
        some (false, ∅, ∅, []) ∧
      ¬Undisturbed (step (macSession Unit) macContext) Action.isLive RaceState.view served
        (copiesFile ++ silentCandidate) := by
  intro served shown
  have halone : (run (step (macSession Unit) macContext) served copiesFile).map shown =
      some (true, {"paste"}, {1}, ["paste/file"]) := by decide +kernel
  have hbeside : (run (step (macSession Unit) macContext) served
      (copiesFile ++ silentCandidate)).map shown = some (false, ∅, ∅, []) := by decide +kernel
  refine ⟨halone, hbeside, fun h => ?_⟩
  obtain ⟨t, ht, hshown⟩ := Option.map_eq_some_iff.mp hbeside
  obtain ⟨u, hu, hview⟩ := h _ (List.prefix_refl _) t ht
  have hown : (copiesFile ++ silentCandidate).filter Action.isLive = copiesFile := rfl
  rw [hown] at hu
  have hcells : t.cells = u.cells := congrArg (fun v => v.2.1) hview
  have hsame : shown t = shown u := by simp only [shown, hcells]
  rw [hu, Option.map_some, ← hsame, hshown] at halone
  exact absurd halone (by decide)

/-- Beside a session without graphics, whose client copied nothing, the same
connection is not noticed. -/
theorem candidates_undisturb_iff_silent :
    Undisturbed (step (macSession Unit) { macContext with gfxFactory := none }) Action.isLive
      RaceState.view (attachChannels { macContext with gfxFactory := none } idle (.fromSecs 0))
      (.live (.copied ["text"]) :: silentCandidate.dropLast) := by
  have hsome : (run (step (macSession Unit) { macContext with gfxFactory := none })
      (attachChannels { macContext with gfxFactory := none } idle (.fromSecs 0))
      (.live (.copied ["text"]) :: silentCandidate.dropLast)).isSome = true := by decide +kernel
  obtain ⟨t, hrun⟩ := Option.isSome_iff_exists.mp hsome
  refine (candidates_undisturb_iff (macSession Unit) { macContext with gfxFactory := none }
    (live_attachChannels (fun h hh => by cases hh) rfl rfl _) hrun).mpr ?_
  have hmeets : meetsBool (step (macSession Unit) { macContext with gfxFactory := none })
      (fun s a => decide (Harmless { macContext with gfxFactory := none } s a))
      (attachChannels { macContext with gfxFactory := none } idle (.fromSecs 0))
      (.live (.copied ["text"]) :: silentCandidate.dropLast) = true := by decide +kernel
  exact (meetsBool_iff.mp hmeets).mono fun s a hcond => of_decide_eq_true hcond

end Macrdp.CandidateRace
