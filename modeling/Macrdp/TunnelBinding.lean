import Mathlib.Data.List.Nodup
import Macrdp.StepSystem
import Macrdp.UdpListener

/-!
# How tunnels are bound

The listener and the server interleave on the cookie registry and on the
tunnel-bound flags. Whatever they do, bound cookies have peers, a cookie binds one
peer and a peer one cookie, a raised flag has its one holder among the peers, and
a request is answered once for a peer and only if its cookie was there to be
consumed.
-/

namespace Macrdp.TunnelBinding

open StepSystem CookieRegistry EmtTunnel NetAddress PlatformTime RdpeudpDatagram UdpListener
  UdpListener.Listener

/-- A response to a request: what it bound, and the peer it was for. -/
structure Response where
  /-- The cookie of the request. -/
  cookie : Option Cookie
  /-- The flag of the registration that was consumed. -/
  flag : Option ℕ
  /-- The peer. -/
  serial : ℕ
  deriving DecidableEq

/-- Where the loop is on a timer tick. -/
inductive Phase where
  /-- Between transitions. -/
  | waiting
  /-- After the check for dead tunnels. -/
  | checked (retired : List SocketAddr) (nowMs : UInt64)
  /-- After the eviction of the retired peers. -/
  | evicted (nowMs : UInt64)
  deriving DecidableEq

/-- The listener within the server. -/
structure System where
  listener : Listener
  phase : Phase
  /-- Every registration made, by its cookie and its flag. -/
  issued : List (Cookie × ℕ)
  /-- Every response produced. -/
  responses : List Response

/-- A step of the listener or of the server. -/
inductive Action where
  | register (cookie : Cookie) (inbound : ℕ)
  | remove (cookie : Cookie)
  | suppress (now : Instant) (cooldown : Duration)
  /-- The server lowers a tunnel-bound flag. -/
  | lower (flag : ℕ)
  | datagram (addr : SocketAddr) (nowMs : UInt64) (data : List UInt8) (secure : SecureOutput)
  | outbound (cookie : Cookie) (nowMs : UInt64) (records : List (List UInt8))
  /-- A tick: the transports are pumped and the tunnels checked. -/
  | tick (nowMs deadMs : UInt64) (now : Instant) (cooldown : Duration)
  /-- The tick goes on with the eviction of the retired peers, -/
  | evict
  /-- and with that of the idle ones. -/
  | gc

namespace System

def new (cfg : ListenerConfig) : System := ⟨.new cfg, .waiting, [], []⟩

/-- The response that processing a datagram of an address produced. -/
def responsesOf (l : Listener) (addr : SocketAddr) (outcome : EmtTunnelOutcome) : List Response :=
  match outcome.response with
  | some _ => [⟨outcome.boundCookie, (l.peers.lookup addr).bind Peer.boundFlag,
      (l.peers.lookup addr).elim 0 Peer.serial⟩]
  | none => []

/-- Carry out one step. The steps of the server can fall between those of a
tick; `none` is a panic, or a step of the listener out of its order. -/
def step (s : System) : Action → Option System
  | .register cookie inbound =>
    let (flag, registry) := s.listener.registry.register cookie inbound
    some { s with
      listener := { s.listener with registry := registry }
      issued := s.issued ++ [(cookie, flag)] }
  | .remove cookie =>
    some { s with
      listener := { s.listener with registry := s.listener.registry.remove cookie } }
  | .suppress now cooldown =>
    (s.listener.registry.suppressMultitransport now cooldown).map fun registry =>
      { s with listener := { s.listener with registry := registry } }
  | .lower flag => some { s with listener := s.listener.lower (some flag) }
  | .datagram addr nowMs data secure =>
    match s.phase with
    | .waiting => (s.listener.datagram addr nowMs data secure).map fun (l, emitted) =>
        { s with
          listener := l
          responses := s.responses ++ responsesOf l addr emitted.outcome }
    | _ => none
  | .outbound cookie nowMs records =>
    match s.phase with
    | .waiting => (s.listener.shipOutbound cookie nowMs records).map fun (l, _) =>
        { s with listener := l }
    | _ => none
  | .tick nowMs deadMs now cooldown =>
    match s.phase with
    | .waiting => do
      let l ← s.listener.pumpPeersOnTimer nowMs
      let (l, retired) ← l.checkDeadTunnels nowMs deadMs now cooldown
      return { s with listener := l, phase := .checked retired nowMs }
    | _ => none
  | .evict =>
    match s.phase with
    | .checked retired nowMs =>
      some { s with listener := s.listener.evictRetiredPeers retired, phase := .evicted nowMs }
    | _ => none
  | .gc =>
    match s.phase with
    | .evicted nowMs => some { s with listener := s.listener.gcIdlePeers nowMs, phase := .waiting }
    | _ => none

end System

/-- A peer that differs in nothing that has to do with its tunnel. -/
structure SameTunnel (p p' : Peer) : Prop where
  tunnelCreated : p'.tunnelCreated = p.tunnelCreated
  boundFlag : p'.boundFlag = p.boundFlag
  serial : p'.serial = p.serial

theorem SameTunnel.refl (p : Peer) : SameTunnel p p := ⟨rfl, rfl, rfl⟩

theorem SameTunnel.trans {p q r : Peer} (h : SameTunnel p q) (h' : SameTunnel q r) :
    SameTunnel p r :=
  ⟨h'.tunnelCreated.trans h.tunnelCreated, h'.boundFlag.trans h.boundFlag,
    h'.serial.trans h.serial⟩

/-- Nothing is bound, and what is unbound is unbound everywhere. -/
structure Forgets (l l' : Listener) : Prop where
  /-- No peer is new, and none gains a flag. -/
  peers : ∀ a q', l'.peers.lookup a = some q' → ∃ q, l.peers.lookup a = some q ∧
    q'.serial = q.serial ∧ q'.tunnelCreated = q.tunnelCreated ∧
      ∀ f, q'.boundFlag = some f → q.boundFlag = some f
  /-- A cookie stays bound only if its peer stays. -/
  addrs : ∀ c a, l'.boundAddrs.lookup c = some a → l.boundAddrs.lookup c = some a ∧
    ((l.peers.lookup a).isSome → (l'.peers.lookup a).isSome)
  /-- A flag stays raised only if its holders stay. -/
  raised : ∀ f, l'.registry.flags f = true → l.registry.flags f = true ∧
    ∀ a q, l.peers.lookup a = some q → q.boundFlag = some f →
      ∃ q', l'.peers.lookup a = some q' ∧ q'.boundFlag = some f
  entries : ∀ c e, l'.registry.entries.lookup c = some e → l.registry.entries.lookup c = some e
  nextFlag : l'.registry.nextFlag = l.registry.nextFlag
  nextSerial : l'.nextSerial = l.nextSerial
  cfg : l'.cfg = l.cfg

variable {l l' l'' : Listener} {issued : List (Cookie × ℕ)} {responses : List Response}
  {addr : SocketAddr} {p p' : Peer}

namespace Forgets

theorem refl (l : Listener) : Forgets l l where
  peers _ q hq := ⟨q, hq, rfl, rfl, fun _ hf => hf⟩
  addrs _ _ h := ⟨h, id⟩
  raised _ h := ⟨h, fun _ q hq hf => ⟨q, hq, hf⟩⟩
  entries _ _ h := h
  nextFlag := rfl
  nextSerial := rfl
  cfg := rfl

theorem trans (h : Forgets l l') (h' : Forgets l' l'') : Forgets l l'' where
  peers := by
    intro a q'' hq''
    obtain ⟨q', hq', hserial', hcreated', hflag'⟩ := h'.peers a q'' hq''
    obtain ⟨q, hq, hserial, hcreated, hflag⟩ := h.peers a q' hq'
    exact ⟨q, hq, hserial'.trans hserial, hcreated'.trans hcreated,
      fun f hf => hflag f (hflag' f hf)⟩
  addrs := by
    intro c a hc
    obtain ⟨hc', hstays'⟩ := h'.addrs c a hc
    obtain ⟨hc, hstays⟩ := h.addrs c a hc'
    exact ⟨hc, fun hsome => hstays' (hstays hsome)⟩
  raised := by
    intro f hf
    obtain ⟨hf', hholds'⟩ := h'.raised f hf
    obtain ⟨hf, hholds⟩ := h.raised f hf'
    refine ⟨hf, ?_⟩
    intro a q hq hflag
    obtain ⟨q', hq', hflag'⟩ := hholds a q hq hflag
    exact hholds' a q' hq' hflag'
  entries c e he := h.entries c e (h'.entries c e he)
  nextFlag := h'.nextFlag.trans h.nextFlag
  nextSerial := h'.nextSerial.trans h.nextSerial
  cfg := h'.cfg.trans h.cfg

/-- Cookies may go and flags may be lowered while the peers stay. -/
theorem of_registry {reg : Registry} (hflags : ∀ f, reg.flags f = true → l.registry.flags f = true)
    (hentries : ∀ c e, reg.entries.lookup c = some e → l.registry.entries.lookup c = some e)
    (hnext : reg.nextFlag = l.registry.nextFlag) : Forgets l { l with registry := reg } where
  peers _ q hq := ⟨q, hq, rfl, rfl, fun _ hf => hf⟩
  addrs _ _ h := ⟨h, id⟩
  raised f hf := ⟨hflags f hf, fun _ q hq hflag => ⟨q, hq, hflag⟩⟩
  entries := hentries
  nextFlag := hnext
  nextSerial := rfl
  cfg := rfl

theorem remove (l : Listener) (cookie : Cookie) :
    Forgets l { l with registry := l.registry.remove cookie } := by
  refine of_registry (fun _ hf => hf) ?_ rfl
  intro c e he
  change (l.registry.entries.erase cookie).lookup c = some e at he
  have hc : c ≠ cookie := by
    rintro rfl
    rw [AList.lookup_erase] at he
    cases he
  rwa [AList.lookup_erase_ne hc] at he

theorem lower (l : Listener) (flag : ℕ) : Forgets l (l.lower (some flag)) := by
  rw [lower_eq]
  refine of_registry ?_ (fun _ _ he => he) rfl
  intro f hf
  change (if some flag = some f then false else l.registry.flags f) = true at hf
  split at hf
  · cases hf
  · exact hf

/-- A peer may change in whatever has nothing to do with its tunnel. -/
theorem insertPeer (hp : l.peers.lookup addr = some p) (hsame : SameTunnel p p') :
    Forgets l (l.insertPeer addr p') where
  peers := by
    intro a q hq
    rw [lookup_insertPeer] at hq
    split at hq
    · next ha =>
      cases hq
      exact ⟨p, ha ▸ hp, hsame.serial, hsame.tunnelCreated, fun f hf => hsame.boundFlag ▸ hf⟩
    · exact ⟨q, hq, rfl, rfl, fun _ hf => hf⟩
  addrs := by
    intro c a hc
    refine ⟨hc, ?_⟩
    rw [lookup_insertPeer]
    split
    · exact fun _ => rfl
    · exact id
  raised := by
    intro f hf
    refine ⟨hf, ?_⟩
    intro a q hq hflag
    rw [lookup_insertPeer]
    split
    · next ha =>
      subst ha
      rw [hp, Option.some.injEq] at hq
      exact ⟨p', rfl, by rw [hsame.boundFlag, hq, hflag]⟩
    · exact ⟨q, hq, hflag⟩
  entries _ _ h := h
  nextFlag := rfl
  nextSerial := rfl
  cfg := rfl

/-- A peer that goes takes its cookies and its flag along. -/
theorem dropPeer (l : Listener) (addr : SocketAddr) : Forgets l (l.dropPeer addr) := by
  unfold Listener.dropPeer
  cases hp : l.peers.lookup addr with
  | none => exact refl l
  | some p =>
    simp only [lower_eq]
    refine ⟨?_, ?_, ?_, fun _ _ h => h, rfl, rfl, rfl⟩
    · intro a q hq
      change (l.peers.erase addr).lookup a = some q at hq
      have ha : a ≠ addr := by
        rintro rfl
        rw [AList.lookup_erase] at hq
        cases hq
      rw [AList.lookup_erase_ne ha] at hq
      exact ⟨q, hq, rfl, rfl, fun _ hf => hf⟩
    · intro c a hc
      rw [lookup_unbind, Option.bind_eq_some_iff] at hc
      obtain ⟨a', hc, ha'⟩ := hc
      split at ha'
      · cases ha'
      · next hne =>
        cases ha'
        refine ⟨hc, ?_⟩
        change (l.peers.lookup a).isSome → ((l.peers.erase addr).lookup a).isSome
        rw [AList.lookup_erase_ne hne]
        exact id
    · intro f hf
      change (if p.boundFlag = some f then false else l.registry.flags f) = true at hf
      split at hf
      · cases hf
      · next hne =>
        refine ⟨hf, ?_⟩
        intro a q hq hflag
        have ha : a ≠ addr := by
          rintro rfl
          rw [hp, Option.some.injEq] at hq
          exact hne (hq ▸ hflag)
        exact ⟨q, (AList.lookup_erase_ne ha).trans hq, hflag⟩

theorem replaceStale (l : Listener) (addr : SocketAddr) (data : List UInt8) :
    Forgets l (l.replaceStale addr data) := by
  unfold Listener.replaceStale
  split
  · exact dropPeer l addr
  · exact refl l

/-- Dropping peers one after the other. -/
theorem foldl_dropPeer (addrs : List SocketAddr) (l : Listener) :
    Forgets l (addrs.foldl Listener.dropPeer l) :=
  foldl_invariant (Forgets l) (fun l' a h => h.trans (dropPeer l' a)) (refl l) addrs

variable {now : Instant} {cooldown : Duration}

theorem suppress {reg : Registry} (h : l.registry.suppressMultitransport now cooldown = some reg) :
    Forgets l { l with registry := reg } := by
  obtain ⟨_, -, rfl⟩ := Option.map_eq_some_iff.mp h
  exact of_registry (fun _ hf => hf) (fun _ _ he => he) rfl

/-- A peer loses its flag when that is lowered. -/
theorem takeFlag {flag : ℕ} (hp : l.peers.lookup addr = some p) (hflag : p.boundFlag = some flag) :
    Forgets l ((l.insertPeer addr { p with boundFlag := none }).lower (some flag)) := by
  rw [lower_eq]
  refine ⟨?_, ?_, ?_, fun _ _ h => h, rfl, rfl, rfl⟩
  · intro a q hq
    change (l.insertPeer addr _).peers.lookup a = some q at hq
    rw [lookup_insertPeer] at hq
    split at hq
    · next ha =>
      cases hq
      exact ⟨p, ha ▸ hp, rfl, rfl, fun _ hf => nomatch hf⟩
    · exact ⟨q, hq, rfl, rfl, fun _ hf => hf⟩
  · intro c a hc
    refine ⟨hc, ?_⟩
    change _ → ((l.insertPeer addr _).peers.lookup a).isSome
    rw [lookup_insertPeer]
    split
    · exact fun _ => rfl
    · exact id
  · intro f hf
    change (if some flag = some f then false else l.registry.flags f) = true at hf
    split at hf
    · cases hf
    · next hne =>
      refine ⟨hf, ?_⟩
      intro a q hq hq'
      have ha : a ≠ addr := by
        rintro rfl
        rw [hp, Option.some.injEq] at hq
        exact hne (hflag.symm.trans (hq ▸ hq'))
      refine ⟨q, ?_, hq'⟩
      change (l.insertPeer addr _).peers.lookup a = some q
      rw [lookup_insertPeer, if_neg ha]
      exact hq

variable {nowMs : UInt64}

theorem checkTunnel {deadMs : UInt64} {st st' : Listener × List SocketAddr}
    (h : Listener.checkTunnel nowMs deadMs now cooldown st addr = some st') :
    Forgets st.1 st'.1 := by
  obtain ⟨l, retired⟩ := st
  rcases checkTunnel_cases h with hkept | ⟨p, flag, registry, hp, hflag, hst, hregistry⟩
  · rw [hkept]
    exact refl l
  · rw [hst]
    refine (takeFlag hp hflag).trans ?_
    rcases hregistry with rfl | hregistry
    · exact refl _
    · exact suppress hregistry

theorem checkDeadTunnels {deadMs : UInt64}
    {st : Listener × List SocketAddr} (h : l.checkDeadTunnels nowMs deadMs now cooldown = some st) :
    Forgets l st.1 := by
  unfold Listener.checkDeadTunnels at h
  split at h
  · cases h
    exact refl l
  · rw [← run_eq_foldlM] at h
    exact run_invariant_of_step (fun s => Forgets l s.1)
      (fun s a s' hs hstep => hs.trans (checkTunnel hstep)) (refl l) h

theorem pumpPeer (h : Listener.pumpPeer nowMs l addr = some l') : Forgets l l' := by
  unfold Listener.pumpPeer at h
  split at h
  · cases h
    exact refl l
  next p hp =>
  split at h
  · obtain ⟨_, -, rfl⟩ := Option.map_eq_some_iff.mp h
    exact insertPeer hp ⟨rfl, rfl, rfl⟩
  · cases h
    exact refl l

theorem pumpPeersOnTimer (h : l.pumpPeersOnTimer nowMs = some l') : Forgets l l' := by
  unfold Listener.pumpPeersOnTimer at h
  rw [← run_eq_foldlM] at h
  exact run_invariant_of_step (Forgets l) (fun s a s' hs hstep => hs.trans (pumpPeer hstep))
    (refl l) h

theorem shipOutbound {cookie : Cookie} {records : List (List UInt8)}
    {emitted : Emitted} (h : l.shipOutbound cookie nowMs records = some (l', emitted)) :
    Forgets l l' := by
  unfold Listener.shipOutbound at h
  split at h
  · cases h
    exact refl l
  split at h
  · cases h
    exact refl l
  next p hp =>
  obtain ⟨⟨sm, sent⟩, -, h⟩ := Option.bind_eq_some_iff.mp h
  cases h
  exact insertPeer hp ⟨rfl, rfl, rfl⟩

end Forgets

/-- How cookies, flags and peers hang together. -/
structure Bound (l : Listener) (issued : List (Cookie × ℕ)) (responses : List Response) :
    Prop where
  /-- A bound cookie belongs to a peer that was answered for it. -/
  addrs : ∀ c a, l.boundAddrs.lookup c = some a → ∃ p, l.peers.lookup a = some p ∧
    ∃ r ∈ responses, r.cookie = some c ∧ r.serial = p.serial
  /-- A raised flag is held by a peer. -/
  raised : ∀ f, l.registry.flags f = true → ∃ a p, l.peers.lookup a = some p ∧
    p.boundFlag = some f
  /-- A peer holds the flag it was answered with. -/
  held : ∀ a p f, l.peers.lookup a = some p → p.boundFlag = some f →
    ∃ r ∈ responses, r.flag = some f ∧ r.serial = p.serial
  /-- A peer whose request is not answered yet has no response. -/
  pending : ∀ a p, l.peers.lookup a = some p → p.tunnelCreated = false →
    ∀ r ∈ responses, r.serial ≠ p.serial
  /-- Peers are told apart by their serial. -/
  serials : ∀ a a' p p', l.peers.lookup a = some p → l.peers.lookup a' = some p' →
    p.serial = p'.serial → a = a'
  made : ∀ a p, l.peers.lookup a = some p → p.serial < l.nextSerial
  answered : ∀ r ∈ responses, r.serial < l.nextSerial
  /-- A peer is answered once, -/
  oncePeer : (responses.map Response.serial).Nodup
  /-- and a registration is consumed once. -/
  onceFlag : (responses.map Response.flag).Nodup
  /-- A registration that is there was made and is not consumed. -/
  entries : ∀ c e, l.registry.entries.lookup c = some e → (c, e.bound) ∈ issued ∧
    ∀ r ∈ responses, r.flag ≠ some e.bound
  distinct : ∀ c c' e e', l.registry.entries.lookup c = some e →
    l.registry.entries.lookup c' = some e' → e.bound = e'.bound → c = c'
  /-- Flags are allocated in order. -/
  allocated : ∀ i ∈ issued, i.2 < l.registry.nextFlag
  /-- A response consumed a registration that was made. -/
  registered : ∀ r ∈ responses, ∃ c f, r.cookie = some c ∧ r.flag = some f ∧ (c, f) ∈ issued

namespace Bound

theorem new (cfg : ListenerConfig) : Bound (.new cfg) [] [] := by
  constructor <;> simp [Listener.new, Registry.new]

/-- Nothing is lost by unbinding. -/
theorem forget (h : Bound l issued responses) (hforgets : Forgets l l') :
    Bound l' issued responses where
  __ := h
  addrs := by
    intro c a hc
    obtain ⟨hc, hstays⟩ := hforgets.addrs c a hc
    obtain ⟨q, hq, r, hr, hcookie, hserial⟩ := h.addrs c a hc
    obtain ⟨q', hq'⟩ := Option.isSome_iff_exists.mp (hstays (by rw [hq]; rfl))
    obtain ⟨q₀, hq₀, hsame, -⟩ := hforgets.peers a q' hq'
    rw [hq, Option.some.injEq] at hq₀
    exact ⟨q', hq', r, hr, hcookie, by rw [hserial, hsame, hq₀]⟩
  raised := by
    intro f hf
    obtain ⟨hf, hholds⟩ := hforgets.raised f hf
    obtain ⟨a, q, hq, hflag⟩ := h.raised f hf
    exact ⟨a, hholds a q hq hflag⟩
  held := by
    intro a q' f hq' hflag'
    obtain ⟨q, hq, hserial, -, hflag⟩ := hforgets.peers a q' hq'
    rw [hserial]
    exact h.held a q f hq (hflag f hflag')
  pending := by
    intro a q' hq' hcreated'
    obtain ⟨q, hq, hserial, hcreated, -⟩ := hforgets.peers a q' hq'
    rw [hserial]
    exact h.pending a q hq (hcreated ▸ hcreated')
  serials := by
    intro a a' q' r' hq' hr' hserial
    obtain ⟨q, hq, hqs, -⟩ := hforgets.peers a q' hq'
    obtain ⟨r, hr, hrs, -⟩ := hforgets.peers a' r' hr'
    exact h.serials a a' q r hq hr (by rw [← hqs, ← hrs, hserial])
  made := by
    intro a q' hq'
    obtain ⟨q, hq, hserial, -⟩ := hforgets.peers a q' hq'
    rw [hserial, hforgets.nextSerial]
    exact h.made a q hq
  answered := hforgets.nextSerial ▸ h.answered
  entries c e he := h.entries c e (hforgets.entries c e he)
  distinct c c' e e' he he' :=
    h.distinct c c' e e' (hforgets.entries c e he) (hforgets.entries c' e' he')
  allocated := hforgets.nextFlag ▸ h.allocated

/-- A registration comes with a flag of its own. -/
theorem register (h : Bound l issued responses) (cookie : Cookie) (inbound : ℕ) :
    Bound { l with registry := (l.registry.register cookie inbound).2 }
      (issued ++ [(cookie, l.registry.nextFlag)]) responses where
  __ := h
  raised := by
    intro f hf
    change Function.update l.registry.flags l.registry.nextFlag false f = true at hf
    rw [Function.update_apply] at hf
    split at hf
    · cases hf
    · exact h.raised f hf
  entries := by
    intro c e he
    change (l.registry.entries.insert cookie ⟨l.registry.nextFlag, inbound⟩).lookup c = some e at he
    by_cases hc : c = cookie
    · subst hc
      rw [AList.lookup_insert, Option.some.injEq] at he
      subst he
      refine ⟨List.mem_append_right _ List.mem_cons_self, ?_⟩
      intro r hr hflag
      obtain ⟨c', f, -, hf, hmem⟩ := h.registered r hr
      rw [hflag, Option.some.injEq] at hf
      exact absurd (h.allocated _ hmem) (by simp [← hf])
    · rw [AList.lookup_insert_ne hc] at he
      obtain ⟨hmem, hfresh⟩ := h.entries c e he
      exact ⟨List.mem_append_left _ hmem, hfresh⟩
  distinct := by
    have hold : ∀ c e, l.registry.entries.lookup c = some e → e.bound < l.registry.nextFlag :=
      fun c e he => h.allocated _ (h.entries c e he).1
    intro c c' e e' he he' heq
    change (l.registry.entries.insert cookie ⟨l.registry.nextFlag, inbound⟩).lookup c = some e at he
    change (l.registry.entries.insert cookie ⟨l.registry.nextFlag, inbound⟩).lookup c' = some e'
      at he'
    by_cases hc : c = cookie <;> by_cases hc' : c' = cookie
    · rw [hc, hc']
    · subst hc
      rw [AList.lookup_insert, Option.some.injEq] at he
      rw [AList.lookup_insert_ne hc'] at he'
      subst he
      exact absurd heq (Nat.ne_of_gt (hold c' e' he'))
    · subst hc'
      rw [AList.lookup_insert, Option.some.injEq] at he'
      rw [AList.lookup_insert_ne hc] at he
      subst he'
      exact absurd heq (Nat.ne_of_lt (hold c e he))
    · rw [AList.lookup_insert_ne hc] at he
      rw [AList.lookup_insert_ne hc'] at he'
      exact h.distinct c c' e e' he he' heq
  allocated := by
    intro i hi
    change i.2 < l.registry.nextFlag + 1
    rcases List.mem_append.mp hi with hi | hi
    · exact (h.allocated i hi).trans (Nat.lt_succ_self _)
    · rw [List.mem_singleton.mp hi]
      exact Nat.lt_succ_self _
  registered := by
    intro r hr
    obtain ⟨c, f, hc, hf, hmem⟩ := h.registered r hr
    exact ⟨c, f, hc, hf, List.mem_append_left _ hmem⟩

/-- A new peer differs from every other one in its address and in its serial. -/
theorem addPeer {sessionCounter : UInt32} (h : Bound l issued responses)
    (hnone : l.peers.lookup addr = none) (hserial : p.serial = l.nextSerial)
    (hflag : p.boundFlag = none) :
    Bound ({ l with sessionCounter, nextSerial := l.nextSerial + 1 }.insertPeer addr p) issued
      responses where
  __ := h
  addrs := by
    intro c a hc
    obtain ⟨q, hq, hr⟩ := h.addrs c a hc
    exact ⟨q, lookup_insertPeer_of_some hnone hq, hr⟩
  raised := by
    intro f hf
    obtain ⟨a, q, hq, hqf⟩ := h.raised f hf
    exact ⟨a, q, lookup_insertPeer_of_some hnone hq, hqf⟩
  held := by
    intro a q f hq hqf
    rw [lookup_insertPeer] at hq
    split at hq
    · cases hq
      rw [hflag] at hqf
      cases hqf
    · exact h.held a q f hq hqf
  pending := by
    intro a q hq hcreated r hr
    rw [lookup_insertPeer] at hq
    split at hq
    · cases hq
      rw [hserial]
      exact Nat.ne_of_lt (h.answered r hr)
    · exact h.pending a q hq hcreated r hr
  serials := by
    intro a a' q q' hq hq' heq
    rw [lookup_insertPeer] at hq hq'
    split at hq <;> split at hq'
    · next ha ha' => rw [ha, ha']
    · cases hq
      exact absurd (heq.symm.trans hserial) (Nat.ne_of_lt (h.made a' q' hq'))
    · cases hq'
      exact absurd (heq.trans hserial) (Nat.ne_of_lt (h.made a q hq))
    · exact h.serials a a' q q' hq hq' heq
  made := by
    intro a q hq
    change q.serial < l.nextSerial + 1
    rw [lookup_insertPeer] at hq
    split at hq
    · cases hq
      rw [hserial]
      exact Nat.lt_succ_self _
    · exact (h.made a q hq).trans (Nat.lt_succ_self _)
  answered := fun r hr => (h.answered r hr).trans (Nat.lt_succ_self _)

/-- The peer that processes a datagram is the one of its address or a new one. -/
theorem peerFor {nowMs : UInt64} {data : List UInt8} (h : Bound l issued responses)
    (hpeer : l.peerFor addr nowMs data = (p, l')) :
    Bound (l'.insertPeer addr p) issued responses := by
  simp only [Listener.peerFor] at hpeer
  split at hpeer
  · next q hq =>
    cases hpeer
    exact h.forget (Forgets.insertPeer hq (SameTunnel.refl _))
  · next hnone =>
    cases hpeer
    exact h.addPeer hnone rfl rfl

/-- A peer whose request is not answered yet holds no flag. -/
theorem no_flag (h : Bound l issued responses) (hp : l.peers.lookup addr = some p)
    (hfresh : p.tunnelCreated = false) (f : ℕ) : p.boundFlag ≠ some f := by
  intro hflag
  obtain ⟨r, hr, -, hserial⟩ := h.held addr p f hp hflag
  exact h.pending addr p hp hfresh r hr hserial

/-- A request that is answered binds its cookie to its peer. -/
theorem bind {cookie : Cookie} {entry : CookieEntry} (h : Bound l issued responses)
    (hp : l.peers.lookup addr = some p) (hfresh : p.tunnelCreated = false)
    (hentry : l.registry.entries.lookup cookie = some entry) (hcreated : p'.tunnelCreated = true)
    (hflag : p'.boundFlag = some entry.bound) (hserial : p'.serial = p.serial) :
    Bound ({ l with
        boundAddrs := l.boundAddrs.insert cookie addr
        registry := (l.registry.remove cookie).store entry.bound true }.insertPeer addr p')
      issued (responses ++ [⟨some cookie, some entry.bound, p.serial⟩]) where
  addrs := by
    intro c a hc
    change (l.boundAddrs.insert cookie addr).lookup c = some a at hc
    by_cases hcc : c = cookie
    · subst hcc
      rw [AList.lookup_insert, Option.some.injEq] at hc
      subst hc
      exact ⟨p', lookup_insertPeer_self, _, List.mem_concat_self, rfl, hserial.symm⟩
    · rw [AList.lookup_insert_ne hcc] at hc
      obtain ⟨q, hq, r, hr, hcookie, hrs⟩ := h.addrs c a hc
      rw [lookup_insertPeer]
      split
      · next ha =>
        subst ha
        rw [hp, Option.some.injEq] at hq
        subst hq
        exact ⟨p', rfl, r, List.mem_append_left _ hr, hcookie, hrs.trans hserial.symm⟩
      · exact ⟨q, hq, r, List.mem_append_left _ hr, hcookie, hrs⟩
  raised := by
    intro f hf
    change Function.update l.registry.flags entry.bound true f = true at hf
    rw [Function.update_apply] at hf
    split at hf
    · next hfe => exact ⟨addr, p', lookup_insertPeer_self, hfe ▸ hflag⟩
    · obtain ⟨a, q, hq, hqf⟩ := h.raised f hf
      have ha : a ≠ addr := by
        rintro rfl
        rw [hp, Option.some.injEq] at hq
        exact h.no_flag hp hfresh f (hq ▸ hqf)
      exact ⟨a, q, by rw [lookup_insertPeer, if_neg ha]; exact hq, hqf⟩
  held := by
    intro a q f hq hqf
    rw [lookup_insertPeer] at hq
    split at hq
    · cases hq
      exact ⟨_, List.mem_concat_self, hflag.symm.trans hqf, hserial.symm⟩
    · obtain ⟨r, hr, hrf, hrs⟩ := h.held a q f hq hqf
      exact ⟨r, List.mem_append_left _ hr, hrf, hrs⟩
  pending := by
    intro a q hq hqc
    rw [lookup_insertPeer] at hq
    split at hq
    · cases hq
      rw [hcreated] at hqc
      cases hqc
    · next ha =>
      have hother : p.serial ≠ q.serial := fun heq => ha (h.serials a addr q p hq hp heq.symm)
      exact List.forall_mem_append.mpr
        ⟨h.pending a q hq hqc, List.forall_mem_singleton.mpr hother⟩
  serials := by
    -- The peer keeps its serial, so the peers are told apart as before.
    have hback : ∀ a q, ((if a = addr then some p' else l.peers.lookup a) = some q) →
        ∃ q₀, l.peers.lookup a = some q₀ ∧ q₀.serial = q.serial := by
      intro a q hq
      split at hq
      · next ha =>
        cases hq
        exact ⟨p, ha ▸ hp, hserial.symm⟩
      · exact ⟨q, hq, rfl⟩
    intro a a' q q' hq hq' heq
    rw [lookup_insertPeer] at hq hq'
    obtain ⟨q₀, hq₀, hs₀⟩ := hback a q hq
    obtain ⟨q₁, hq₁, hs₁⟩ := hback a' q' hq'
    exact h.serials a a' q₀ q₁ hq₀ hq₁ (hs₀.trans (heq.trans hs₁.symm))
  made := by
    intro a q hq
    rw [lookup_insertPeer] at hq
    split at hq
    · cases hq
      rw [hserial]
      exact h.made addr p hp
    · exact h.made a q hq
  answered :=
    List.forall_mem_append.mpr ⟨h.answered, List.forall_mem_singleton.mpr (h.made addr p hp)⟩
  oncePeer := by
    rw [List.map_append, List.nodup_append_comm]
    refine List.nodup_cons.mpr ⟨?_, h.oncePeer⟩
    intro hmem
    obtain ⟨r, hr, heq⟩ := List.mem_map.mp hmem
    exact h.pending addr p hp hfresh r hr heq
  onceFlag := by
    rw [List.map_append, List.nodup_append_comm]
    refine List.nodup_cons.mpr ⟨?_, h.onceFlag⟩
    intro hmem
    obtain ⟨r, hr, heq⟩ := List.mem_map.mp hmem
    exact (h.entries cookie entry hentry).2 r hr heq
  entries := by
    intro c e he
    obtain ⟨hc, he⟩ := Registry.lookup_remove he
    obtain ⟨hmem, hunused⟩ := h.entries c e he
    have hother : some entry.bound ≠ some e.bound :=
      fun heq => hc (h.distinct c cookie e entry he hentry (Option.some.inj heq).symm)
    exact ⟨hmem, List.forall_mem_append.mpr ⟨hunused, List.forall_mem_singleton.mpr hother⟩⟩
  distinct := by
    intro c c' e e' he he'
    exact h.distinct c c' e e' (Registry.lookup_remove he).2 (Registry.lookup_remove he').2
  allocated := h.allocated
  registered :=
    List.forall_mem_append.mpr ⟨h.registered,
      List.forall_mem_singleton.mpr
        ⟨cookie, entry.bound, rfl, rfl, (h.entries cookie entry hentry).1⟩⟩

end Bound

/-- Parsing left the tunnel of the peer as it was. -/
structure Unanswered (e e' : EmtState) : Prop where
  same : SameTunnel e.peer e'.peer
  registry : e'.registry = e.registry
  outcome : e'.outcome = e.outcome

/-- Parsing answered the request of the peer, consuming the entry of a cookie. -/
structure Answers (e e' : EmtState) (cookie : Cookie) (entry : CookieEntry) : Prop where
  fresh : e.peer.tunnelCreated = false
  found : e.registry.entries.lookup cookie = some entry
  registry : e'.registry = (e.registry.remove cookie).store entry.bound true
  tunnelCreated : e'.peer.tunnelCreated = true
  boundFlag : e'.peer.boundFlag = some entry.bound
  serial : e'.peer.serial = e.peer.serial
  outcome : e'.outcome = ⟨some cookie, some TunnelCreateResponse.ok.toVec⟩

namespace Unanswered

theorem refl (e : EmtState) : Unanswered e e := ⟨SameTunnel.refl _, rfl, rfl⟩

theorem trans {e e' e'' : EmtState} (h : Unanswered e e') (h' : Unanswered e' e'') :
    Unanswered e e'' :=
  ⟨h.same.trans h'.same, h'.registry.trans h.registry, h'.outcome.trans h.outcome⟩

theorem answers {e e' e'' : EmtState} {cookie : Cookie} {entry : CookieEntry}
    (h : Unanswered e e') (h' : Answers e' e'' cookie entry) : Answers e e'' cookie entry where
  fresh := h.same.tunnelCreated ▸ h'.fresh
  found := h.registry ▸ h'.found
  registry := h.registry ▸ h'.registry
  tunnelCreated := h'.tunnelCreated
  boundFlag := h'.boundFlag
  serial := h'.serial.trans h.same.serial
  outcome := h'.outcome

end Unanswered

theorem Answers.unanswered {e e' e'' : EmtState} {cookie : Cookie} {entry : CookieEntry}
    (h : Answers e e' cookie entry) (h' : Unanswered e' e'') : Answers e e'' cookie entry where
  __ := h
  registry := h'.registry.trans h.registry
  tunnelCreated := h'.same.tunnelCreated.trans h.tunnelCreated
  boundFlag := h'.same.boundFlag.trans h.boundFlag
  serial := h'.same.serial.trans h.serial
  outcome := h'.outcome.trans h.outcome

/-- A request is answered only for a peer that was not, and for a cookie that is
there to be consumed. -/
theorem createRequest_cases (e : EmtState) (bytes : List UInt8) :
    Unanswered e (e.createRequest true bytes) ∨
      ∃ cookie entry, Answers e (e.createRequest true bytes) cookie entry := by
  unfold EmtState.createRequest
  split
  · exact .inl (Unanswered.refl e)
  next req _ _ =>
  split
  · exact .inl (Unanswered.refl e)
  next hfresh =>
  rw [if_pos rfl]
  split
  · exact .inl (Unanswered.refl e)
  next sink flag registry htake =>
  obtain ⟨entry, hentry, heq⟩ := Option.map_eq_some_iff.mp htake
  cases heq
  exact .inr ⟨req.securityCookie, entry,
    ⟨Bool.eq_false_of_not_eq_true hfresh, hentry, rfl, rfl, rfl, rfl, rfl⟩⟩

/-- Channel data binds nothing. -/
theorem data_unanswered (e : EmtState) (bytes : List UInt8) : Unanswered e (e.data bytes) := by
  unfold EmtState.data
  split
  · exact ⟨SameTunnel.refl _, rfl, rfl⟩
  · exact Unanswered.refl e

theorem pdu_cases (e : EmtState) (bytes : List UInt8) :
    Unanswered e (e.pdu true bytes) ∨
      ∃ cookie entry, Answers e (e.pdu true bytes) cookie entry := by
  unfold EmtState.pdu
  split
  · split
    · exact createRequest_cases e bytes
    split
    · exact .inl (data_unanswered e bytes)
    · exact .inl (Unanswered.refl e)
  · exact .inl (Unanswered.refl e)

/-- Parsing the messages of a peer answers it at most once. -/
theorem messages_cases (fuel : ℕ) (e : EmtState) :
    Unanswered e (EmtState.messages true fuel e) ∨
      ∃ cookie entry, Answers e (EmtState.messages true fuel e) cookie entry := by
  induction fuel generalizing e with
  | zero => exact .inl (Unanswered.refl e)
  | succ fuel ih =>
    simp only [EmtState.messages]
    split
    · exact .inl (Unanswered.refl e)
    next total _ =>
    split
    · exact .inl (Unanswered.refl e)
    have hdrain : Unanswered e
        { e with peer := { e.peer with emtInbound := e.peer.emtInbound.drop total } } :=
      ⟨⟨rfl, rfl, rfl⟩, rfl, rfl⟩
    rcases pdu_cases { e with peer := { e.peer with emtInbound := e.peer.emtInbound.drop total } }
      (e.peer.emtInbound.take total) with hpdu | ⟨cookie, entry, hpdu⟩
    · rcases ih (EmtState.pdu true _ (e.peer.emtInbound.take total)) with hrest | ⟨c, n, hrest⟩
      · exact .inl ((hdrain.trans hpdu).trans hrest)
      · exact .inr ⟨c, n, (hdrain.trans hpdu).answers hrest⟩
    · rcases ih (EmtState.pdu true _ (e.peer.emtInbound.take total)) with hrest | ⟨c, n, hrest⟩
      · exact .inr ⟨cookie, entry, (hdrain.answers hpdu).unanswered hrest⟩
      · -- The peer is answered already.
        exact absurd hpdu.tunnelCreated (by rw [hrest.fresh]; exact Bool.false_ne_true)

variable {nowMs : UInt64} {secure : SecureOutput}

/-- Taking in a delivery keeps the tunnel of the peer, or answers its request. -/
theorem deliver_cases {emitted : Emitted} (hbinding : l.cfg.cookieBinding = true)
    (h : l.deliver addr nowMs p secure = some (p', l', emitted)) :
    (emitted.outcome = {} ∧ SameTunnel p p' ∧ l' = l) ∨
      ∃ cookie entry, p.tunnelCreated = false ∧ l.registry.entries.lookup cookie = some entry ∧
        p'.tunnelCreated = true ∧ p'.boundFlag = some entry.bound ∧ p'.serial = p.serial ∧
        emitted.outcome = ⟨some cookie, some TunnelCreateResponse.ok.toVec⟩ ∧
        l' = { l with
          boundAddrs := l.boundAddrs.insert cookie addr
          registry := (l.registry.remove cookie).store entry.bound true } := by
  simp only [Listener.deliver, hbinding] at h
  obtain ⟨⟨sm, sent⟩, -, h⟩ := Option.bind_eq_some_iff.mp h
  cases h
  have hparsed : ∀ e : EmtState, e = (if secure.parse then
      handleEmtTunnel true { p with emtInbound := p.emtInbound ++ secure.plain } l.registry
      else ⟨{ p with emtInbound := p.emtInbound ++ secure.plain }, l.registry, {}, []⟩) →
      Unanswered ⟨p, l.registry, {}, []⟩ e ∨
        ∃ cookie entry, Answers ⟨p, l.registry, {}, []⟩ e cookie entry := by
    have hfed : Unanswered ⟨p, l.registry, {}, []⟩
        ⟨{ p with emtInbound := p.emtInbound ++ secure.plain }, l.registry, {}, []⟩ :=
      ⟨⟨rfl, rfl, rfl⟩, rfl, rfl⟩
    rintro e rfl
    split
    · rcases messages_cases (p.emtInbound ++ secure.plain).length
        ⟨{ p with emtInbound := p.emtInbound ++ secure.plain }, l.registry, {}, []⟩ with
        hsame | ⟨cookie, entry, hanswers⟩
      · exact .inl (hfed.trans hsame)
      · exact .inr ⟨cookie, entry, hfed.answers hanswers⟩
    · exact .inl hfed
  rcases hparsed _ rfl with ⟨hsame, hregistry, houtcome⟩ | ⟨cookie, entry, hanswers⟩
  · refine .inl ⟨houtcome, ⟨hsame.tunnelCreated, hsame.boundFlag, hsame.serial⟩, ?_⟩
    rw [hregistry, houtcome]
  · refine .inr ⟨cookie, entry, hanswers.fresh, hanswers.found, hanswers.tunnelCreated,
      hanswers.boundFlag, hanswers.serial, hanswers.outcome, ?_⟩
    rw [hanswers.registry, hanswers.outcome]

/-- A datagram keeps the tunnel of its peer, or answers its request. -/
theorem datagram_cases {data : List UInt8}
    {emitted : Emitted} (hbinding : l.cfg.cookieBinding = true)
    (h : l.datagram addr nowMs data secure = some (l', emitted)) :
    ∃ p l₁ p', (l.replaceStale addr data).peerFor addr nowMs data = (p, l₁) ∧
      ((emitted.outcome = {} ∧ SameTunnel p p' ∧ l' = l₁.insertPeer addr p') ∨
        ∃ cookie entry, p.tunnelCreated = false ∧
          l₁.registry.entries.lookup cookie = some entry ∧
          p'.tunnelCreated = true ∧ p'.boundFlag = some entry.bound ∧ p'.serial = p.serial ∧
          emitted.outcome = ⟨some cookie, some TunnelCreateResponse.ok.toVec⟩ ∧
          l' = { l₁ with
            boundAddrs := l₁.boundAddrs.insert cookie addr
            registry := (l₁.registry.remove cookie).store entry.bound true }.insertPeer
              addr p') := by
  cases hpeer : (l.replaceStale addr data).peerFor addr nowMs data with
  | mk p l₁ =>
    have hbinding₁ : l₁.cfg.cookieBinding = true := by
      have hstale := (Forgets.replaceStale l addr data).cfg
      rw [← hbinding, ← hstale]
      unfold Listener.peerFor at hpeer
      split at hpeer <;> cases hpeer <;> rfl
    simp only [Listener.datagram, hpeer] at h
    obtain ⟨⟨sm, out⟩, -, h⟩ := Option.bind_eq_some_iff.mp h
    split at h
    · cases h
      exact ⟨p, l₁, p.afterStep nowMs data sm, rfl, .inl ⟨rfl, ⟨rfl, rfl, rfl⟩, rfl⟩⟩
    · obtain ⟨⟨q, l₂, emitted₁⟩, hdeliver, h⟩ := Option.bind_eq_some_iff.mp h
      cases h
      refine ⟨p, l₁, q, rfl, ?_⟩
      rcases deliver_cases hbinding₁ hdeliver with ⟨houtcome, hsame, rfl⟩ |
        ⟨cookie, entry, hfresh, hentry, hcreated, hflag, hserial, houtcome, rfl⟩
      · exact .inl ⟨houtcome, ⟨hsame.tunnelCreated, hsame.boundFlag, hsame.serial⟩, rfl⟩
      · exact .inr ⟨cookie, entry, hfresh, hentry, hcreated, hflag, hserial, houtcome, rfl⟩

/-- What holds between the cookies, the flags and the peers in every state. -/
structure Consistent (s : System) : Prop where
  /-- Every address a cookie is bound to has a peer. -/
  hasPeer : ∀ c a, s.listener.boundAddrs.lookup c = some a → a ∈ s.listener.peers
  /-- A peer is bound to one cookie. -/
  oneCookie : ∀ c c' a, s.listener.boundAddrs.lookup c = some a →
    s.listener.boundAddrs.lookup c' = some a → c = c'
  /-- A registration bound one peer, -/
  onePeer : (s.responses.map Response.flag).Nodup
  /-- so that a cookie bound no more peers than it was registered times. -/
  registrations : ∀ c, s.responses.countP (fun r => r.cookie == some c) ≤
    s.issued.countP fun i => i.1 == c
  /-- A peer was answered once. -/
  oneResponse : (s.responses.map Response.serial).Nodup
  /-- A raised flag is held by one peer that is there. -/
  holder : ∀ f, s.listener.registry.flags f = true →
    ∃! a, ∃ p, s.listener.peers.lookup a = some p ∧ p.boundFlag = some f

/-- A step answers nobody, or one peer that was not answered, whose cookie is
registered before it and consumed after it. -/
def AnswersRegistered (s s' : System) : Prop :=
  s'.responses = s.responses ∨ ∃ r cookie entry addr peer,
    s'.responses = s.responses ++ [r] ∧ r.cookie = some cookie ∧ r.flag = some entry.bound ∧
    s.listener.registry.entries.lookup cookie = some entry ∧
    s'.listener.registry.entries.lookup cookie = none ∧
    s'.listener.boundAddrs.lookup cookie = some addr ∧
    s'.listener.peers.lookup addr = some peer ∧ peer.serial = r.serial ∧
    ∀ r' ∈ s.responses, r'.serial ≠ r.serial ∧ r'.flag ≠ r.flag

/-- Two responses to one peer are one response. -/
theorem Bound.response_unique (h : Bound l issued responses) {r r' : Response}
    (hr : r ∈ responses) (hr' : r' ∈ responses) (heq : r.serial = r'.serial) : r = r' :=
  List.inj_on_of_nodup_map h.oncePeer hr hr' heq

/-- Two responses with one flag are one response. -/
theorem Bound.response_unique_of_flag (h : Bound l issued responses) {r r' : Response}
    (hr : r ∈ responses) (hr' : r' ∈ responses) (heq : r.flag = r'.flag) : r = r' :=
  List.inj_on_of_nodup_map h.onceFlag hr hr' heq

variable {s : System}

theorem consistent_of_bound (h : Bound s.listener s.issued s.responses) :
    Consistent s where
  hasPeer := by
    intro c a hc
    obtain ⟨p, hp, -⟩ := h.addrs c a hc
    exact AList.lookup_isSome.mp (by rw [hp]; rfl)
  oneCookie := by
    intro c c' a hc hc'
    obtain ⟨p, hp, r, hr, hcookie, hserial⟩ := h.addrs c a hc
    obtain ⟨p', hp', r', hr', hcookie', hserial'⟩ := h.addrs c' a hc'
    rw [hp, Option.some.injEq] at hp'
    have heq := h.response_unique hr hr' (by rw [hserial, hserial', hp'])
    rw [heq, hcookie', Option.some.injEq] at hcookie
    exact hcookie.symm
  onePeer := h.onceFlag
  registrations := by
    intro c
    have hnodup : (s.responses.map fun r => (r.cookie, r.flag)).Nodup :=
      List.Nodup.of_map Prod.snd (by rw [List.map_map]; exact h.onceFlag)
    have hsub : s.responses.map (fun r => (r.cookie, r.flag)) ⊆
        s.issued.map fun i => (some i.1, some i.2) := by
      intro x hx
      obtain ⟨r, hr, rfl⟩ := List.mem_map.mp hx
      obtain ⟨c', f, hc', hf, hmem⟩ := h.registered r hr
      exact List.mem_map.mpr ⟨(c', f), hmem, by rw [hc', hf]⟩
    have hle := (List.subperm_of_subset hnodup hsub).countP_le fun x => x.1 == some c
    rw [List.countP_map, List.countP_map] at hle
    exact hle
  oneResponse := h.oncePeer
  holder := by
    intro f hf
    obtain ⟨a, p, hp, hflag⟩ := h.raised f hf
    refine ⟨a, ⟨p, hp, hflag⟩, ?_⟩
    rintro a' ⟨p', hp', hflag'⟩
    obtain ⟨r, hr, hrf, hserial⟩ := h.held a p f hp hflag
    obtain ⟨r', hr', hrf', hserial'⟩ := h.held a' p' f hp' hflag'
    have heq := h.response_unique_of_flag hr hr' (hrf.trans hrf'.symm)
    exact h.serials a' a p' p hp' hp (by rw [← hserial, ← hserial', heq])

/-- What every step keeps: the ties, under a listener that has a registry. -/
def Inv (s : System) : Prop :=
  s.listener.cfg.cookieBinding = true ∧ Bound s.listener s.issued s.responses

/-- A datagram keeps the ties, and answers for registered cookies. -/
theorem datagram_inv {s' : System} {data : List UInt8} (hinv : Inv s)
    (hstep : s.step (.datagram addr nowMs data secure) = some s') :
    Inv s' ∧ AnswersRegistered s s' := by
  obtain ⟨hbinding, hbound⟩ := hinv
  simp only [System.step] at hstep
  split at hstep
  case h_2 => cases hstep
  obtain ⟨⟨l, emitted⟩, hdatagram, rfl⟩ := Option.map_eq_some_iff.mp hstep
  obtain ⟨p, l₁, p', hpeer, hcases⟩ := datagram_cases hbinding hdatagram
  have hstale := Forgets.replaceStale s.listener addr data
  have hmade := (hbound.forget hstale).peerFor hpeer
  have hlookup : (l₁.insertPeer addr p).peers.lookup addr = some p := by
    rw [lookup_insertPeer_self]
  have hkept : l₁.registry = (s.listener.replaceStale addr data).registry ∧
      l₁.cfg = (s.listener.replaceStale addr data).cfg := by
    unfold Listener.peerFor at hpeer
    split at hpeer <;> cases hpeer <;> exact ⟨rfl, rfl⟩
  have hcfg : l₁.cfg.cookieBinding = true := by
    rw [hkept.2, hstale.cfg]
    exact hbinding
  rcases hcases with ⟨houtcome, hsame, rfl⟩ |
    ⟨cookie, entry, hfresh, hentry, hcreated, hflag, hserial, houtcome, rfl⟩
  · have hnone : System.responsesOf (l₁.insertPeer addr p') addr emitted.outcome = [] := by
      rw [houtcome]
      rfl
    simp only [hnone, List.append_nil]
    refine ⟨⟨hcfg, ?_⟩, .inl rfl⟩
    have htouched := hmade.forget (Forgets.insertPeer hlookup hsame)
    rw [insertPeer_insertPeer] at htouched
    exact htouched
  · have hresponse : System.responsesOf ({ l₁ with
        boundAddrs := l₁.boundAddrs.insert cookie addr
        registry := (l₁.registry.remove cookie).store entry.bound true }.insertPeer addr p') addr
        emitted.outcome = [⟨some cookie, some entry.bound, p.serial⟩] := by
      rw [houtcome]
      simp only [System.responsesOf, lookup_insertPeer, if_pos, Option.bind_some,
        Option.elim_some, hflag, hserial]
    simp only [hresponse]
    have hbind := hmade.bind hlookup hfresh hentry hcreated hflag hserial
    refine ⟨⟨hcfg, ?_⟩, .inr ⟨_, cookie, entry, addr, p', rfl, rfl, rfl, ?_, ?_, ?_, ?_, hserial,
      ?_⟩⟩
    · have hput := insertPeer_insertPeer { l₁ with
        boundAddrs := l₁.boundAddrs.insert cookie addr
        registry := (l₁.registry.remove cookie).store entry.bound true } addr p p'
      rw [← hput]
      exact hbind
    · exact hstale.entries cookie entry (hkept.1 ▸ hentry)
    · exact AList.lookup_erase _ _
    · exact AList.lookup_insert _
    · rw [lookup_insertPeer_self]
    · intro r hr
      exact ⟨hmade.pending addr p hlookup hfresh r hr, (hmade.entries cookie entry hentry).2 r hr⟩

/-- Every step keeps the ties, and answers for registered cookies. -/
theorem step_inv {s' : System} {act : Action} (hinv : Inv s) (hstep : s.step act = some s') :
    Inv s' ∧ AnswersRegistered s s' := by
  -- A step that binds nothing only forgets.
  have hforgets : ∀ (l : Listener) (phase : Phase), Forgets s.listener l →
      Inv ⟨l, phase, s.issued, s.responses⟩ ∧
        AnswersRegistered s ⟨l, phase, s.issued, s.responses⟩ :=
    fun l phase h => ⟨⟨by rw [h.cfg]; exact hinv.1, hinv.2.forget h⟩, .inl rfl⟩
  cases act with
  | register cookie inbound =>
    cases hstep
    exact ⟨⟨hinv.1, hinv.2.register cookie inbound⟩, .inl rfl⟩
  | remove cookie =>
    cases hstep
    exact hforgets _ _ (Forgets.remove s.listener cookie)
  | suppress now cooldown =>
    obtain ⟨registry, hregistry, rfl⟩ := Option.map_eq_some_iff.mp hstep
    exact hforgets _ _ (Forgets.suppress hregistry)
  | lower flag =>
    cases hstep
    exact hforgets _ _ (Forgets.lower s.listener flag)
  | datagram addr nowMs data secure => exact datagram_inv hinv hstep
  | outbound cookie nowMs records =>
    simp only [System.step] at hstep
    split at hstep
    · obtain ⟨⟨l, emitted⟩, hship, rfl⟩ := Option.map_eq_some_iff.mp hstep
      exact hforgets l _ (Forgets.shipOutbound hship)
    · cases hstep
  | tick nowMs deadMs now cooldown =>
    simp only [System.step] at hstep
    split at hstep
    · obtain ⟨l₁, hpump, hstep⟩ := Option.bind_eq_some_iff.mp hstep
      obtain ⟨⟨l₂, retired⟩, hcheck, hstep⟩ := Option.bind_eq_some_iff.mp hstep
      cases hstep
      exact hforgets l₂ _ ((Forgets.pumpPeersOnTimer hpump).trans (Forgets.checkDeadTunnels hcheck))
    · cases hstep
  | evict | gc =>
    simp only [System.step] at hstep
    split at hstep
    · cases hstep
      exact hforgets _ _ (Forgets.foldl_dropPeer _ _)
    · cases hstep

/-- Over every interleaving of the listener and the server, cookies, flags and
peers stay consistent, and a request is answered only by consuming a registered
cookie. -/
theorem tunnels_stay_consistent {cfg : ListenerConfig} {acts : List Action} {s : System}
    (hcfg : cfg.cookieBinding = true) (hrun : run System.step (System.new cfg) acts = some s) :
    Consistent s ∧ ∀ act s', s.step act = some s' → AnswersRegistered s s' := by
  have hinv : Inv s := run_invariant_of_step Inv (fun _ _ _ hi hs => (step_inv hi hs).1)
    ⟨hcfg, Bound.new cfg⟩ hrun
  exact ⟨consistent_of_bound hinv.2, fun _ _ hstep => (step_inv hinv hstep).2⟩

/-- A registered cookie, the SYN of a client, and its request in the first data. -/
theorem tunnels_stay_consistent_request :
    ∃ s, run System.step (System.new {})
        [.register ⟨List.replicate 16 5, rfl⟩ 3,
          .datagram ⟨.v4 ⟨1, 2, 3, 4⟩, 50⟩ 0
            (Datagram.ofSyn (-1) 64 ⟨9, 1232, 1232⟩ none none).bytes ⟨[], false, []⟩,
          .datagram ⟨.v4 ⟨1, 2, 3, 4⟩, 50⟩ 1 (Datagram.ofData 0 64 ⟨[]⟩ ⟨⟨10, 10⟩, [1]⟩).bytes
            ⟨[0, 24, 0, 4] ++ List.replicate 8 0 ++ List.replicate 16 5, true, [[7]]⟩] = some s ∧
      s.responses.map Response.flag = [some 0] ∧ s.listener.registry.flags 0 = true ∧
      Consistent s ∧ ∀ act s', s.step act = some s' → AnswersRegistered s s' := by
  have hresult : (run System.step (System.new {})
      [.register ⟨List.replicate 16 5, rfl⟩ 3,
        .datagram ⟨.v4 ⟨1, 2, 3, 4⟩, 50⟩ 0
          (Datagram.ofSyn (-1) 64 ⟨9, 1232, 1232⟩ none none).bytes ⟨[], false, []⟩,
        .datagram ⟨.v4 ⟨1, 2, 3, 4⟩, 50⟩ 1 (Datagram.ofData 0 64 ⟨[]⟩ ⟨⟨10, 10⟩, [1]⟩).bytes
          ⟨[0, 24, 0, 4] ++ List.replicate 8 0 ++ List.replicate 16 5, true, [[7]]⟩]).map
      (fun s => (s.responses.map Response.flag, s.listener.registry.flags 0)) =
      some ([some 0], true) := by
    decide +kernel
  obtain ⟨s, hrun, hs⟩ := Option.map_eq_some_iff.mp hresult
  simp only [Prod.mk.injEq] at hs
  exact ⟨s, hrun, hs.1, hs.2, tunnels_stay_consistent rfl hrun⟩

end Macrdp.TunnelBinding
