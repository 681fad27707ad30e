import Macrdp.TunnelRetirement

/-!
# When retirement is final

A registered flag is held by one entry, which sits at the cookie of its connection,
so dropping the cookie after lowering the flag leaves nothing that could raise it,
unless the entry was taken in between.
-/

namespace Macrdp.TunnelRetirement

open CookieRegistry EmtTunnel NetAddress PlatformTime StepSystem

variable {cfg : DeathConfig} {s s' : System} {now : Instant}

/-- The observation the listener is about to start a cooldown on. -/
def System.pending? (s : System) : Option Observation :=
  match s.listener with
  | .lowering seen _ _ _ _ => some { seen with raised := true }
  | .suppressing seen _ _ _ _ => some seen
  | _ => none

/-- A cooldown is justified: the peer was silent too long, and if its connection was
reset already, that is what the flag said. -/
def Justified (cfg : DeathConfig) (seen : Observation) : Prop :=
  cfg.deadMs < seen.idleMs ∧ (seen.afterReset = true → seen.raised = false)

/-- How the registry, the server and the retired flags hang together. -/
structure Owned (s : System) : Prop where
  retired_lt : ∀ f ∈ s.retiredFlags, f < s.reg.nextFlag
  retired_down : ∀ f ∈ s.retiredFlags, s.reg.flags f = false
  entry_lt : ∀ c e, s.reg.entries.lookup c = some e → e.bound < s.reg.nextFlag
  entry_live : ∀ c e, s.reg.entries.lookup c = some e → e.bound ∉ s.retiredFlags
  own_lt : ∀ f, s.udpTunnelBound = some f → f < s.reg.nextFlag
  own_at : ∀ cookie c e, s.currentOfferCookie = some cookie →
    s.reg.entries.lookup c = some e → s.udpTunnelBound = some e.bound → c = cookie
  idle_none : s.server = .idle ∨ s.server = .offering → s.currentOfferCookie = none
  lowered_down : s.server = .lowered → ∀ f, s.udpTunnelBound = some f → s.reg.flags f = false

theorem owned_init : Owned .init where
  retired_lt := by simp [System.init]
  retired_down := by simp [System.init]
  entry_lt := by simp [System.init, Registry.new]
  entry_live := by simp [System.init, Registry.new]
  own_lt := by simp [System.init]
  own_at := by simp [System.init]
  idle_none := by simp [System.init]
  lowered_down := by simp [System.init]

/-- Lowering flags and dropping entries disturbs nothing. -/
theorem Owned.of_drop (h : Owned s) (hnext : s'.reg.nextFlag = s.reg.nextFlag)
    (hflags : ∀ f, s'.reg.flags f = true → s.reg.flags f = true)
    (hentries : ∀ c e, s'.reg.entries.lookup c = some e → s.reg.entries.lookup c = some e)
    (hretired : s'.retiredFlags = s.retiredFlags)
    (hbound : s'.udpTunnelBound = s.udpTunnelBound)
    (hcookie : s'.currentOfferCookie = s.currentOfferCookie) (hserver : s'.server = s.server) :
    Owned s' := by
  have hdown : ∀ f, s.reg.flags f = false → s'.reg.flags f = false := fun f hf =>
    Bool.eq_false_iff.mpr fun hup => Bool.eq_false_iff.mp hf (hflags f hup)
  refine ⟨?_, ?_, ?_, ?_, ?_, ?_, ?_, ?_⟩
  · rw [hretired, hnext]
    exact h.retired_lt
  · rw [hretired]
    exact fun f hf => hdown f (h.retired_down f hf)
  · rw [hnext]
    exact fun c e he => h.entry_lt c e (hentries c e he)
  · rw [hretired]
    exact fun c e he => h.entry_live c e (hentries c e he)
  · rw [hbound, hnext]
    exact h.own_lt
  · rw [hbound, hcookie]
    exact fun cookie c e hc he => h.own_at cookie c e hc (hentries c e he)
  · rw [hserver, hcookie]
    exact h.idle_none
  · rw [hserver, hbound]
    exact fun hlow f hf => hdown f (h.lowered_down hlow f hf)

theorem Owned.lower (h : Owned s) (flag : Option ℕ) : Owned (s.lower flag) := by
  cases flag with
  | none => exact h
  | some f =>
    exact h.of_drop rfl (fun _ => Registry.flags_store_false) (fun _ _ he => he) rfl rfl rfl rfl

theorem Owned.dropCookie (h : Owned s) (cookie : Option Cookie) : Owned (s.dropCookie cookie) := by
  cases cookie with
  | none => exact h
  | some c =>
    exact h.of_drop rfl (fun _ hf => hf) (fun _ _ he => (Registry.lookup_remove he).2) rfl rfl rfl
      rfl

theorem Owned.listener (h : Owned s) (peers : AList fun _ : SocketAddr => TunnelPeer)
    (phase : ListenerPhase) : Owned { s with peers, listener := phase } :=
  h.of_drop rfl (fun _ hf => hf) (fun _ _ he => he) rfl rfl rfl rfl

theorem Owned.dropPeer (h : Owned s) (addr : SocketAddr) : Owned (s.dropPeer addr) := by
  simp only [System.dropPeer]
  split
  · exact (h.listener _ _).lower _
  · exact h

theorem Owned.check (h : Owned s) (addr : SocketAddr) (todo retired : List SocketAddr)
    (nowMs : UInt64) : Owned (s.check cfg addr todo retired nowMs) := by
  simp only [System.check]
  split
  · exact h.listener _ _
  · split
    · exact h.listener _ _
    · split
      · split
        · exact h.listener _ _
        · exact h.listener _ _
      · exact h.listener _ _

/-- What an access of a tick comes to. -/
inductive GoCase (cfg : DeathConfig) (s : System) (now : Instant) : System → Prop
  /-- A part of the tick is over, or the tick is. -/
  | next (phase : ListenerPhase) (hquiet : System.pending? { s with listener := phase } = none) :
    GoCase cfg s now { s with listener := phase }
  | check (addr : SocketAddr) (todo retired : List SocketAddr) (nowMs : UInt64) :
    GoCase cfg s now (s.check cfg addr todo retired nowMs)
  | lower (seen : Observation) (addr : SocketAddr) (todo retired : List SocketAddr)
    (nowMs : UInt64) (hseen : s.pending? = some { seen with raised := true }) :
    GoCase cfg s now ((s.lower (some seen.flag)).retire cfg seen addr todo retired nowMs)
  | suppress (seen : Observation) (phase : ListenerPhase) (reg : Registry)
    (hseen : s.pending? = some seen)
    (hquiet : System.pending? { s with listener := phase } = none)
    (hreg : s.reg.suppressMultitransport now (.fromSecs cfg.cooldownSecs) = some reg) :
    GoCase cfg s now { s with reg, listener := phase, cooldowns := seen :: s.cooldowns }
  | drop (addr : SocketAddr) (phase : ListenerPhase)
    (hquiet : System.pending? { s with listener := phase } = none) :
    GoCase cfg s now { s.dropPeer addr with listener := phase }

theorem go_cases (h : s.go cfg now = some s') : GoCase cfg s now s' := by
  simp only [System.go] at h
  split at h
  · cases h
  · cases h
    exact .next _ rfl
  · cases h
    exact .check _ _ _ _
  · next hl =>
    cases h
    exact .lower _ _ _ _ _ (by rw [System.pending?, hl])
  · next hl =>
    obtain ⟨reg, hreg, rfl⟩ := Option.map_eq_some_iff.mp h
    exact .suppress _ _ reg (by rw [System.pending?, hl]) rfl hreg
  · cases h
    exact .next _ rfl
  · cases h
    exact .drop _ _ rfl
  · cases h
    exact .next _ rfl
  · cases h
    exact .drop _ _ rfl

theorem Owned.go (h : Owned s) (hgo : s.go cfg now = some s') : Owned s' := by
  cases go_cases hgo with
  | next phase hquiet => exact h.listener _ _
  | check addr todo retired nowMs => exact h.check addr todo retired nowMs
  | lower seen addr todo retired nowMs hseen => exact (h.lower _).listener _ _
  | suppress seen phase reg hseen hquiet hreg =>
    obtain ⟨until', -, rfl⟩ := Option.map_eq_some_iff.mp hreg
    exact h.of_drop rfl (fun _ hf => hf) (fun _ _ he => he) rfl rfl rfl rfl
  | drop addr phase hquiet => exact (h.dropPeer addr).listener _ _

/-- What a request that was not answered does: nothing, or its entry is taken. -/
theorem createRequest_cases {addr : SocketAddr} {cookie : Cookie}
    (h : s.createRequest addr cookie = some s') :
    s' = s ∨ ∃ entry peer, s.reg.entries.lookup cookie = some entry ∧
      s' = { s with reg := (s.reg.remove cookie).store entry.bound true }.insertPeer addr peer := by
  obtain ⟨peer, -, hpeer⟩ := Option.bind_eq_some_iff.mp h
  split at hpeer
  · cases hpeer
  · cases htake : s.reg.take cookie with
    | none => exact .inl (by simpa [htake] using hpeer.symm)
    | some taken =>
      obtain ⟨entry, hentry, rfl⟩ := Option.map_eq_some_iff.mp htake
      refine .inr ⟨entry, { peer with tunnelCreated := true, boundFlag := some entry.bound },
        hentry, ?_⟩
      simpa [htake] using hpeer.symm

/-- A request raises a flag no reset is done with, unless it comes in between. -/
theorem Owned.createRequest {addr : SocketAddr} {cookie : Cookie} (h : Owned s)
    (hcond : NotBetween s (.listener (.createRequest addr cookie)))
    (hreq : s.createRequest addr cookie = some s') : Owned s' := by
  rcases createRequest_cases hreq with rfl | ⟨entry, peer, hentry, rfl⟩
  · exact h
  have hraise : ∀ f, f ≠ entry.bound →
      ((s.reg.remove cookie).store entry.bound true).flags f = s.reg.flags f := fun f hf => by
    simp [Registry.store, Registry.remove, hf]
  have hkept : ∀ c e, ((s.reg.remove cookie).store entry.bound true).entries.lookup c = some e →
      s.reg.entries.lookup c = some e := fun c e he => (Registry.lookup_remove he).2
  refine ⟨h.retired_lt, ?_, ?_, ?_, h.own_lt, ?_, h.idle_none, ?_⟩
  · intro f hf
    have hne : f ≠ entry.bound := fun heq => h.entry_live cookie entry hentry (heq ▸ hf)
    exact (hraise f hne).trans (h.retired_down f hf)
  · exact fun c e he => h.entry_lt c e (hkept c e he)
  · exact fun c e he => h.entry_live c e (hkept c e he)
  · exact fun own c e hown he => h.own_at own c e hown (hkept c e he)
  · intro hlow f hf
    have hne : f ≠ entry.bound := fun heq => hcond hlow entry hentry (heq ▸ hf)
    exact (hraise f hne).trans (h.lowered_down hlow f hf)

theorem Owned.stepListener {a : ListenerStep} (h : Owned s) (hcond : NotBetween s (.listener a))
    (hstep : s.stepListener cfg a = some s') : Owned s' := by
  cases a with
  | datagram addr nowMs | tick nowMs =>
    obtain ⟨-, heq⟩ := Option.ite_none_right_eq_some.mp hstep
    cases heq
    exact h.listener _ _
  | createRequest addr cookie =>
    exact h.createRequest hcond (Option.ite_none_right_eq_some.mp hstep).2
  | replace addr =>
    obtain ⟨-, heq⟩ := Option.ite_none_right_eq_some.mp hstep
    cases heq
    exact h.dropPeer addr
  | go now => exact h.go hstep

/-- Registering the cookie of a connection. -/
theorem Owned.register (h : Owned s) (cookie : Cookie) (inbound : ℕ) :
    Owned { s with
      reg := (s.reg.register cookie inbound).2
      server := .serving
      udpTunnelBound := some s.reg.nextFlag
      currentOfferCookie := some cookie } := by
  have hentry : ∀ c e, (s.reg.register cookie inbound).2.entries.lookup c = some e →
      c = cookie ∧ e.bound = s.reg.nextFlag ∨ s.reg.entries.lookup c = some e := by
    intro c e he
    rcases eq_or_ne c cookie with rfl | hne
    · refine .inl ⟨rfl, ?_⟩
      simp only [Registry.register, AList.lookup_insert, Option.some.injEq] at he
      rw [← he]
    · exact .inr (by simpa [Registry.register, AList.lookup_insert_ne hne] using he)
  have hnew : ∀ f, f < s.reg.nextFlag →
      (s.reg.register cookie inbound).2.flags f = s.reg.flags f := fun f hf => by
    simp [Registry.register, Nat.ne_of_lt hf]
  refine ⟨?_, ?_, ?_, ?_, ?_, ?_, by simp, by simp⟩
  · exact fun f hf => (h.retired_lt f hf).trans (Nat.lt_succ_self _)
  · exact fun f hf => (hnew f (h.retired_lt f hf)).trans (h.retired_down f hf)
  · intro c e he
    rcases hentry c e he with ⟨-, heq⟩ | hold
    · exact Nat.lt_succ_of_le heq.le
    · exact (h.entry_lt c e hold).trans (Nat.lt_succ_self _)
  · intro c e he hmem
    rcases hentry c e he with ⟨-, heq⟩ | hold
    · exact absurd (h.retired_lt _ hmem) (by omega)
    · exact h.entry_live c e hold hmem
  · rintro f ⟨⟩
    exact Nat.lt_succ_self _
  · intro own c e hown he hbound
    rcases hentry c e he with ⟨heq, -⟩ | hold
    · exact heq.trans (Option.some.inj hown)
    · have heq : s.reg.nextFlag = e.bound := Option.some.inj hbound
      exact absurd (h.entry_lt c e hold) (by omega)

/-- The reset is complete: the entry that held the flag is gone and the flag is down. -/
theorem Owned.remove (h : Owned s) (hserver : s.server = .lowered) :
    Owned { s.dropCookie s.currentOfferCookie with
      server := .idle
      currentOfferCookie := none
      retiredFlags := s.ownFlag.toList ++ s.retiredFlags } := by
  have hdrop := h.dropCookie s.currentOfferCookie
  have hown : ∀ f ∈ s.ownFlag.toList, ∃ cookie,
      s.currentOfferCookie = some cookie ∧ s.udpTunnelBound = some f := by
    intro f hf
    obtain ⟨cookie, hcookie, hbound⟩ := Option.bind_eq_some_iff.mp (Option.mem_toList.mp hf)
    exact ⟨cookie, hcookie, hbound⟩
  have hflags : (s.dropCookie s.currentOfferCookie).reg.flags = s.reg.flags := by
    cases s.currentOfferCookie <;> rfl
  have hnext : (s.dropCookie s.currentOfferCookie).reg.nextFlag = s.reg.nextFlag := by
    cases s.currentOfferCookie <;> rfl
  refine ⟨?_, ?_, hdrop.entry_lt, ?_, hdrop.own_lt, by simp, by simp, by simp⟩
  · intro f hf
    rcases List.mem_append.mp hf with hf | hf
    · obtain ⟨-, -, hbound⟩ := hown f hf
      exact hnext ▸ h.own_lt f hbound
    · exact hdrop.retired_lt f hf
  · intro f hf
    rcases List.mem_append.mp hf with hf | hf
    · obtain ⟨-, -, hbound⟩ := hown f hf
      exact (congrFun hflags f).trans (h.lowered_down hserver f hbound)
    · exact hdrop.retired_down f hf
  · intro c e he hmem
    rcases List.mem_append.mp hmem with hf | hf
    · obtain ⟨cookie, hcookie, hbound⟩ := hown _ hf
      have hlook : (s.reg.remove cookie).entries.lookup c = some e := by
        simpa [System.dropCookie, hcookie] using he
      obtain ⟨hne, hold⟩ := Registry.lookup_remove hlook
      exact hne (h.own_at cookie c e hcookie hold hbound)
    · exact hdrop.entry_live c e he hf

theorem Owned.stepServer {a : ServerStep} (h : Owned s) (hstep : s.stepServer a = some s') :
    Owned s' := by
  cases a with
  | negotiated =>
    obtain ⟨-, heq⟩ := Option.ite_none_right_eq_some.mp hstep
    cases heq
    exact ⟨h.retired_lt, h.retired_down, h.entry_lt, h.entry_live, h.own_lt, h.own_at,
      by simp, by simp⟩
  | withheld =>
    obtain ⟨-, heq⟩ := Option.ite_none_right_eq_some.mp hstep
    cases heq
    have hdrop := h.dropCookie s.migration
    exact ⟨hdrop.retired_lt, hdrop.retired_down, hdrop.entry_lt, hdrop.entry_live,
      by simp, by simp, by simp, by simp⟩
  | offer =>
    obtain ⟨hidle, heq⟩ := Option.ite_none_right_eq_some.mp hstep
    cases heq
    have hdrop := h.dropCookie s.migration
    exact ⟨hdrop.retired_lt, hdrop.retired_down, hdrop.entry_lt, hdrop.entry_live,
      hdrop.own_lt, hdrop.own_at, fun _ => h.idle_none (.inl hidle), by simp⟩
  | register cookie inbound =>
    obtain ⟨-, heq⟩ := Option.ite_none_right_eq_some.mp hstep
    cases heq
    exact h.register cookie inbound
  | activate | forgetMigration =>
    obtain ⟨-, heq⟩ := Option.ite_none_right_eq_some.mp hstep
    cases heq
    exact h.of_drop rfl (fun _ hf => hf) (fun _ _ he => he) rfl rfl rfl rfl
  | lower =>
    obtain ⟨-, heq⟩ := Option.ite_none_right_eq_some.mp hstep
    cases heq
    have hlow := h.lower s.udpTunnelBound
    refine ⟨hlow.retired_lt, hlow.retired_down, hlow.entry_lt, hlow.entry_live, hlow.own_lt,
      hlow.own_at, by simp, ?_⟩
    intro _ f hf
    have hbound : s.udpTunnelBound = some f := by
      cases hb : s.udpTunnelBound with
      | none => simp [System.lower, hb] at hf
      | some g => simpa [System.lower, hb] using hf
    simp [System.lower, hbound, Registry.store]
  | remove =>
    obtain ⟨hlow, heq⟩ := Option.ite_none_right_eq_some.mp hstep
    cases heq
    exact h.remove hlow

/-- What the listener is about to do is justified, and so is what it did. -/
structure Observed (cfg : DeathConfig) (s : System) : Prop where
  pending : ∀ seen ∈ s.pending?, Justified cfg seen
  cooldowns : ∀ seen ∈ s.cooldowns, Justified cfg seen

theorem observed_init : Observed cfg .init where
  pending := by simp [System.init, System.pending?]
  cooldowns := by simp [System.init]

/-- Nothing new is pending. -/
theorem Observed.of_eq (h : Observed cfg s) (hcooldowns : s'.cooldowns = s.cooldowns)
    (hpending : ∀ seen ∈ s'.pending?, Justified cfg seen) : Observed cfg s' :=
  ⟨hpending, hcooldowns ▸ h.cooldowns⟩

@[simp] theorem dropPeer_cooldowns (addr : SocketAddr) :
    (s.dropPeer addr).cooldowns = s.cooldowns := by
  simp only [System.dropPeer]
  split <;> rfl

@[simp] theorem dropPeer_listener (addr : SocketAddr) :
    (s.dropPeer addr).listener = s.listener := by
  simp only [System.dropPeer]
  split <;> rfl

/-- A step that leaves the listener alone. -/
theorem Observed.aside (h : Observed cfg s) (hcooldowns : s'.cooldowns = s.cooldowns)
    (hlistener : s'.listener = s.listener) : Observed cfg s' := by
  refine h.of_eq hcooldowns ?_
  have heq : s'.pending? = s.pending? := by simp only [System.pending?, hlistener]
  exact heq ▸ h.pending

/-- A peer is retired: a cooldown is next only if the peer was silent too long. -/
theorem Observed.retire {seen : Observation} {addr : SocketAddr} {todo retired : List SocketAddr}
    {nowMs : UInt64} (h : Observed cfg s) (hseen : seen.afterReset = true → seen.raised = false) :
    Observed cfg (s.retire cfg seen addr todo retired nowMs) := by
  refine h.of_eq rfl ?_
  by_cases hlong : cfg.deadMs < seen.idleMs ∧ 0 < cfg.cooldownSecs
  · simp only [System.retire, System.pending?, if_pos hlong, Option.mem_def, Option.some.injEq]
    rintro _ rfl
    exact ⟨hlong.1, hseen⟩
  · simp [System.retire, System.pending?, if_neg hlong]

/-- A flag that was loaded raised belongs to no connection that was reset. -/
theorem Observed.check (h : Observed cfg s) (howned : Owned s) (addr : SocketAddr)
    (todo retired : List SocketAddr) (nowMs : UInt64) :
    Observed cfg (s.check cfg addr todo retired nowMs) := by
  simp only [System.check]
  split
  · exact h.of_eq rfl (by simp [System.pending?])
  · split
    · exact h.of_eq rfl (by simp [System.pending?])
    · rename_i flag _
      split
      · rename_i hraised
        have hlive : flag ∉ s.retiredFlags := fun hmem =>
          Bool.eq_false_iff.mp (howned.retired_down flag hmem) hraised
        split
        · exact h.of_eq rfl (by simp [System.pending?])
        · rename_i hlong
          refine h.of_eq rfl ?_
          simp only [System.pending?, Option.mem_def, Option.some.injEq]
          rintro _ rfl
          exact ⟨UInt64.not_le.mp hlong, by simp [hlive]⟩
      · rename_i hraised
        refine Observed.retire (h.aside rfl rfl) fun _ => ?_
        exact Bool.eq_false_iff.mpr hraised

theorem Observed.go (h : Observed cfg s) (howned : Owned s) (hgo : s.go cfg now = some s') :
    Observed cfg s' := by
  have hnone : ∀ {s' : System} {phase : ListenerPhase}, s'.listener = phase →
      System.pending? { s with listener := phase } = none →
      ∀ seen ∈ s'.pending?, Justified cfg seen := by
    rintro s' _ rfl hquiet seen hmem
    have hsame : s'.pending? = none := hquiet
    rw [hsame] at hmem
    cases hmem
  cases go_cases hgo with
  | next phase hquiet => exact h.of_eq rfl (hnone rfl hquiet)
  | check addr todo retired nowMs => exact h.check howned addr todo retired nowMs
  | lower seen addr todo retired nowMs hseen =>
    have hjustified : Justified cfg { seen with raised := true } := h.pending _ hseen
    have hlowered : Observed cfg (s.lower (some seen.flag)) := h.aside rfl rfl
    exact hlowered.retire fun hafter => absurd (hjustified.2 hafter) (by simp)
  | suppress seen phase reg hseen hquiet hreg =>
    refine ⟨hnone rfl hquiet, ?_⟩
    intro other hother
    rcases List.mem_cons.mp hother with rfl | hother
    · exact h.pending _ hseen
    · exact h.cooldowns other hother
  | drop addr phase hquiet => exact h.of_eq (dropPeer_cooldowns addr) (hnone rfl hquiet)

theorem Observed.createRequest {addr : SocketAddr} {cookie : Cookie} (h : Observed cfg s)
    (hreq : s.createRequest addr cookie = some s') : Observed cfg s' := by
  rcases createRequest_cases hreq with rfl | ⟨entry, peer, -, rfl⟩
  · exact h
  · exact h.aside rfl rfl

theorem Observed.stepListener {a : ListenerStep} (h : Observed cfg s) (howned : Owned s)
    (hstep : s.stepListener cfg a = some s') : Observed cfg s' := by
  cases a with
  | datagram addr nowMs =>
    obtain ⟨-, heq⟩ := Option.ite_none_right_eq_some.mp hstep
    cases heq
    exact h.aside rfl rfl
  | createRequest addr cookie =>
    exact h.createRequest (Option.ite_none_right_eq_some.mp hstep).2
  | replace addr =>
    obtain ⟨-, heq⟩ := Option.ite_none_right_eq_some.mp hstep
    cases heq
    exact h.aside (dropPeer_cooldowns addr) (dropPeer_listener addr)
  | tick nowMs =>
    obtain ⟨-, heq⟩ := Option.ite_none_right_eq_some.mp hstep
    cases heq
    by_cases hzero : cfg.deadMs = 0
    · exact h.of_eq rfl (by simp [System.pending?, hzero])
    · exact h.of_eq rfl (by simp [System.pending?, hzero])
  | go now => exact h.go howned hstep

/-- The server neither decides on cooldowns nor makes them. -/
theorem Observed.stepServer {a : ServerStep} (h : Observed cfg s)
    (hstep : s.stepServer a = some s') : Observed cfg s' := by
  cases a with
  | negotiated | withheld | offer | register | activate | forgetMigration | lower | remove =>
    obtain ⟨-, heq⟩ := Option.ite_none_right_eq_some.mp hstep
    cases heq
    exact h.aside rfl rfl

/-- What one step keeps. -/
theorem step_final {a : Action} (h : Owned s ∧ Observed cfg s) (hcond : NotBetween s a)
    (hstep : s.step cfg a = some s') : Owned s' ∧ Observed cfg s' := by
  cases a with
  | server a => exact ⟨h.1.stepServer hstep, h.2.stepServer hstep⟩
  | listener a => exact ⟨h.1.stepListener hcond hstep, h.2.stepListener h.1 hstep⟩

/-- Retirement is final in every run in which no request takes the cookie of a
connection between the two steps of its reset. -/
theorem retirement_final (cfg : DeathConfig) (acts : List Action) (s : System)
    (hmeets : Meets (System.step cfg) NotBetween .init acts)
    (hrun : run (System.step cfg) .init acts = some s) : Final cfg s := by
  have h : Owned s ∧ Observed cfg s :=
    run_invariant (fun s => Owned s ∧ Observed cfg s) (fun _ _ _ h => step_final h)
      ⟨owned_init, observed_init⟩ hmeets hrun
  exact ⟨h.1.retired_down, h.2.cooldowns⟩

/-- The tunnel of a session is dead after 25 s and offers rest for 10 min. -/
def sampleDeath : DeathConfig := ⟨25000, 600⟩

def sampleCookie : Cookie := .replicate 7

def sampleAddr : SocketAddr := ⟨.v4 ⟨198, 51, 100, 7⟩, 50000⟩

/-- A connection offers a tunnel, whose first datagram arrives. -/
def sampleOffer : List Action :=
  [.server .offer, .server (.register sampleCookie 0), .listener (.datagram sampleAddr 0)]

/-- The client asks for the tunnel while the session lives, and falls silent; the
session ends, and the next tick finds a tunnel that was dead before. -/
theorem retirement_final_wedged :
    ∃ s, run (System.step sampleDeath) .init
        (sampleOffer ++ [.listener (.createRequest sampleAddr sampleCookie), .server .lower,
          .server .remove, .listener (.tick 30000), .listener (.go (.fromSecs 30)),
          .listener (.go (.fromSecs 30))]) = some s ∧
      s.cooldowns.length = 1 ∧ Final sampleDeath s := by
  have hrun : (run (System.step sampleDeath) .init
      (sampleOffer ++ [.listener (.createRequest sampleAddr sampleCookie), .server .lower,
        .server .remove, .listener (.tick 30000), .listener (.go (.fromSecs 30)),
        .listener (.go (.fromSecs 30))])).any
      (fun s => decide (s.cooldowns.length = 1)) = true := by
    decide +kernel
  obtain ⟨s, hs, hlength⟩ := (Option.any_eq_true _ _).mp hrun
  have hmeets : meetsBool (System.step sampleDeath) (fun s a => decide (NotBetween s a)) .init
      (sampleOffer ++ [.listener (.createRequest sampleAddr sampleCookie), .server .lower,
        .server .remove, .listener (.tick 30000), .listener (.go (.fromSecs 30)),
        .listener (.go (.fromSecs 30))]) = true := by decide +kernel
  have hcond := meetsBool_iff.mp hmeets
  simp only [decide_eq_true_eq] at hcond
  exact ⟨s, hs, of_decide_eq_true hlength, retirement_final _ _ _ hcond hs⟩

/-- The client asks for the tunnel after its flag was lowered and before its cookie is
dropped: the flag of the connection that is gone is up. -/
theorem not_final_between :
    ¬∀ (cfg : DeathConfig) (acts : List Action) (s : System),
      run (System.step cfg) .init acts = some s → Final cfg s := by
  intro h
  have hrun : (run (System.step sampleDeath) .init
      (sampleOffer ++ [.server .lower, .listener (.createRequest sampleAddr sampleCookie),
        .server .remove])).any (fun s => decide (0 ∈ s.retiredFlags) && s.reg.flags 0) = true := by
    decide +kernel
  obtain ⟨s, hs, hraised⟩ := (Option.any_eq_true _ _).mp hrun
  rw [Bool.and_eq_true, decide_eq_true_eq] at hraised
  exact Bool.eq_false_iff.mp ((h _ _ s hs).flags 0 hraised.1) hraised.2

end Macrdp.TunnelRetirement
