import Macrdp.RdpeudpReceive
import Macrdp.TunnelBinding

/-!
# A SYN that arrives again

A transport is established by the first SYN of its flow, and the listener drops
an established peer on every SYN from its address. A duplicate of the SYN that
opened a flow therefore ends it: the peer that takes its place agrees with it
only if the flow is as its SYN left it and the listener derives the same initial
number again, which takes a whole wrap of its counter.
-/

namespace Macrdp.SynReplacement

open StepSystem EmtTunnel NetAddress RdpeudpDatagram RdpeudpEndpoint
  RdpeudpEndpoint.RdpeudpState RdpeudpPdu RdpeudpPump RdpeudpReceive TunnelBinding UdpListener
  UdpListener.Listener

/-- What a peer of the listener is, from its making on. -/
structure PeerSound (cfg : ListenerConfig) (nextSerial : ℕ) (p : Peer) : Prop where
  role : p.sm.role = .server
  /-- Its initial number is derived from the counter at its making. -/
  initialSeq : p.sm.cfg.initialSeq = cfg.serverIsnSeed + UInt32.ofNat (p.serial + 1)
  made : p.serial < nextSerial
  /-- It was established by a SYN, whose number it knows. -/
  opened : p.sm.isEstablished = false ∧ p.opening = [] ∨
    p.sm.isEstablished = true ∧ p.sm.havePeerSeq = true ∧ ∃ dg syn,
      Datagram.decode p.opening = .ok dg ∧ dg.syn = some syn ∧ p.sm.peerIsn = syn.initialSeq
  /-- Before its request is answered it has neither a sink nor a flag. -/
  unanswered : p.tunnelCreated = false → p.inboundSink = none ∧ p.boundFlag = none

/-- What the listener is in every state. -/
structure Sound (l : Listener) : Prop where
  counter : l.sessionCounter = UInt32.ofNat l.nextSerial
  peers : ∀ a p, l.peers.lookup a = some p → PeerSound l.cfg l.nextSerial p
  /-- A bound cookie belongs to a peer whose request was answered. -/
  addrs : ∀ c a, l.boundAddrs.lookup c = some a → ∃ p, l.peers.lookup a = some p ∧
    p.tunnelCreated = true

variable {l l' : Listener} {addr : SocketAddr} {p p' : Peer}
variable {cfg : ListenerConfig} {sm : RdpeudpState}
variable {nextSerial : ℕ}

/-- The transport may change in what has nothing to do with its open. -/
theorem PeerSound.withTransport (h : PeerSound cfg nextSerial p) (hsame : SameReceiver p.sm sm) :
    PeerSound cfg nextSerial { p with sm := sm } where
  __ := h
  role := hsame.role.trans h.role
  initialSeq := (congrArg Config.initialSeq hsame.cfg).trans h.initialSeq
  opened := by
    have hest : sm.isEstablished = p.sm.isEstablished := by
      simp only [isEstablished, hsame.state]
    rcases h.opened with ⟨hclosed, hopening⟩ | ⟨hopen, hknown, dg, syn, hdecode, hsyn, hisn⟩
    · exact .inl ⟨hest.trans hclosed, hopening⟩
    · exact .inr ⟨hest.trans hopen, hsame.havePeerSeq.trans hknown, dg, syn, hdecode, hsyn,
        hsame.peerIsn.trans hisn⟩

variable {nowMs : UInt64} {data : List UInt8}

/-- A datagram that establishes nothing is not the opening. -/
theorem opening_afterStep (h : sm.isEstablished = p.sm.isEstablished) :
    (p.afterStep nowMs data sm).opening = p.opening := by
  simp only [Peer.afterStep, h, Bool.not_and_self, Bool.false_eq_true, if_false]

variable {dg : Datagram} {syn : SynData}

/-- A SYN taken by a peer that is not established may establish it. -/
theorem PeerSound.afterSyn (h : PeerSound cfg nextSerial p) (hclosed : p.sm.isEstablished = false)
    (hdecode : Datagram.decode data = .ok dg) (hsyn : dg.syn = some syn)
    (hknown : sm.havePeerSeq = true) (hisn : sm.peerIsn = syn.initialSeq) :
    sm.isEstablished = false ∧ (p.afterStep nowMs data sm).opening = [] ∨
      sm.isEstablished = true ∧ sm.havePeerSeq = true ∧ ∃ dg syn,
        Datagram.decode (p.afterStep nowMs data sm).opening = .ok dg ∧ dg.syn = some syn ∧
          sm.peerIsn = syn.initialSeq := by
  have hempty : p.opening = [] := by
    rcases h.opened with ⟨-, hempty⟩ | ⟨hopen, -⟩
    · exact hempty
    · rw [hclosed] at hopen
      cases hopen
  cases hsm : sm.isEstablished with
  | false => exact .inl ⟨rfl, (opening_afterStep (hsm.trans hclosed.symm)).trans hempty⟩
  | true =>
    have hopening : (p.afterStep nowMs data sm).opening = data := by
      simp only [Peer.afterStep, hsm, hclosed, Bool.not_false, Bool.and_self, if_true]
    exact .inr ⟨rfl, hknown, dg, syn, by rw [hopening]; exact hdecode, hsyn, hisn⟩

/-- A datagram keeps a peer sound: one that carries a SYN is taken by a peer that
is not established, and no other establishes it. -/
theorem PeerSound.afterStep {out : StepOutput} (h : PeerSound cfg nextSerial p)
    (hfresh : isSynFamily data = true → p.sm.isEstablished = false)
    (hstep : p.sm.step nowMs (some data) = some (sm, out)) :
    PeerSound cfg nextSerial (p.afterStep nowMs data sm) := by
  simp only [step] at hstep
  cases hdecode : Datagram.decode data with
  | error e =>
    simp only [hdecode] at hstep
    have hsame := pump_frame hstep
    have hest : sm.isEstablished = p.sm.isEstablished := by
      simp only [isEstablished, hsame.state]
    have hkept := h.withTransport hsame
    refine ⟨hkept.role, hkept.initialSeq, hkept.made, ?_, hkept.unanswered⟩
    rw [opening_afterStep hest]
    exact hkept.opened
  | ok dg =>
    simp only [hdecode] at hstep
    obtain ⟨⟨m, o⟩, hhandle, hpump⟩ := Option.bind_eq_some_iff.mp hstep
    have hsame := pump_frame hpump
    have hest : sm.isEstablished = m.isEstablished := by simp only [isEstablished, hsame.state]
    have hframe := (handle_frame [] hhandle).1
    have hrole := hsame.role.trans (hframe.role.trans h.role)
    have hcfg : sm.cfg = p.sm.cfg := hsame.cfg.trans hframe.cfg
    have hisn := (congrArg Config.initialSeq hcfg).trans h.initialSeq
    have hpeerIsn := hsame.peerIsn.trans hframe.peerIsn
    refine ⟨hrole, hisn, h.made, ?_, h.unanswered⟩
    obtain ⟨hpeek, hflag, -⟩ := Datagram.decode_sections hdecode
    cases hsyn : dg.syn with
    | some syn =>
      have hfamily : isSynFamily data = true := by
        rw [isSynFamily, hpeek, Option.any_some, ← hflag, hsyn, Option.isSome_some]
      have hknown := hsame.havePeerSeq.trans (hframe.known (.inr (by rw [hsyn]; rfl)))
      exact h.afterSyn (hfresh hfamily) hdecode hsyn hknown
        (hpeerIsn.trans (by rw [hsyn]; rfl))
    | none =>
      have hopens : sm.isEstablished = p.sm.isEstablished := by
        rw [hest]
        rcases hframe.state with hkept | hopen
        · simp only [isEstablished, hkept]
        · rcases hframe.opened hopen with hopen' | hsome
          · simp only [isEstablished, hopen, hopen']
          · rw [hsyn] at hsome
            cases hsome
      rw [opening_afterStep hopens]
      rcases h.opened with ⟨hclosed, hempty⟩ | ⟨hopen, hknown, d, syn, hd, hs, hi⟩
      · exact .inl ⟨hopens.trans hclosed, hempty⟩
      · have hknown' := hframe.known (.inl hknown)
        refine .inr ⟨hopens.trans hopen, hsame.havePeerSeq.trans hknown', d, syn, hd, hs, ?_⟩
        exact (hpeerIsn.trans (by rw [hsyn]; rfl)).trans hi

namespace Sound

theorem new (cfg : ListenerConfig) : Sound (.new cfg) := by
  constructor <;> simp [Listener.new]

theorem registry (h : Sound l) (reg : CookieRegistry.Registry) :
    Sound { l with registry := reg } :=
  ⟨h.counter, h.peers, h.addrs⟩

theorem lower (h : Sound l) (flag : Option ℕ) : Sound (l.lower flag) := by
  rw [lower_eq]
  exact h.registry _

/-- A peer may be replaced by a sound one that is answered if it was. -/
theorem insertPeer (h : Sound l) (hp : PeerSound l.cfg l.nextSerial p')
    (hcreated : ∀ p, l.peers.lookup addr = some p → p.tunnelCreated = true →
      p'.tunnelCreated = true) : Sound (l.insertPeer addr p') where
  counter := h.counter
  peers := by
    intro a q hq
    rw [lookup_insertPeer] at hq
    split at hq
    · cases hq
      exact hp
    · exact h.peers a q hq
  addrs := by
    intro c a hc
    obtain ⟨q, hq, hqc⟩ := h.addrs c a hc
    rw [lookup_insertPeer]
    split
    · next ha =>
      subst ha
      exact ⟨p', rfl, hcreated q hq hqc⟩
    · exact ⟨q, hq, hqc⟩

theorem dropPeer (h : Sound l) (addr : SocketAddr) : Sound (l.dropPeer addr) := by
  have hforgets := Forgets.dropPeer l addr
  unfold Listener.dropPeer at hforgets ⊢
  cases hp : l.peers.lookup addr with
  | none => exact h
  | some p =>
    rw [hp] at hforgets
    simp only [lower_eq] at hforgets ⊢
    refine ⟨h.counter, ?_, ?_⟩
    · intro a q hq
      change (l.peers.erase addr).lookup a = some q at hq
      have ha : a ≠ addr := by
        rintro rfl
        rw [AList.lookup_erase] at hq
        cases hq
      rw [AList.lookup_erase_ne ha] at hq
      exact h.peers a q hq
    · intro c a hc
      obtain ⟨hc, hstays⟩ := hforgets.addrs c a hc
      obtain ⟨q, hq, hqc⟩ := h.addrs c a hc
      obtain ⟨q', hq'⟩ := Option.isSome_iff_exists.mp (hstays (by rw [hq]; rfl))
      obtain ⟨q₀, hq₀, -, hcreated, -⟩ := hforgets.peers a q' hq'
      rw [hq, Option.some.injEq] at hq₀
      exact ⟨q', hq', by rw [hcreated, ← hq₀, hqc]⟩

theorem foldl_dropPeer (h : Sound l) (addrs : List SocketAddr) :
    Sound (addrs.foldl Listener.dropPeer l) :=
  foldl_invariant Sound (fun _ a hs => hs.dropPeer a) h addrs

end Sound

/-- Parsing keeps the transport, and an unanswered peer as it was. -/
structure Parsed (e e' : EmtState) : Prop where
  sm : e'.peer.sm = e.peer.sm
  serial : e'.peer.serial = e.peer.serial
  opening : e'.peer.opening = e.peer.opening
  unanswered : e'.peer.tunnelCreated = false → e.peer.tunnelCreated = false ∧
    e'.peer.inboundSink = e.peer.inboundSink ∧ e'.peer.boundFlag = e.peer.boundFlag ∧
    e'.outcome = e.outcome

theorem Parsed.refl (e : EmtState) : Parsed e e := ⟨rfl, rfl, rfl, fun h => ⟨h, rfl, rfl, rfl⟩⟩

theorem Parsed.trans {e e' e'' : EmtState} (h : Parsed e e') (h' : Parsed e' e'') :
    Parsed e e'' where
  sm := h'.sm.trans h.sm
  serial := h'.serial.trans h.serial
  opening := h'.opening.trans h.opening
  unanswered := by
    intro hcreated
    obtain ⟨hcreated', hsink', hflag', houtcome'⟩ := h'.unanswered hcreated
    obtain ⟨hcreated, hsink, hflag, houtcome⟩ := h.unanswered hcreated'
    exact ⟨hcreated, hsink'.trans hsink, hflag'.trans hflag, houtcome'.trans houtcome⟩

theorem parsed_createRequest (cookieBinding : Bool) (e : EmtState) (bytes : List UInt8) :
    Parsed e (e.createRequest cookieBinding bytes) := by
  unfold EmtState.createRequest
  split
  · exact Parsed.refl e
  split
  · exact Parsed.refl e
  split
  · split
    · exact Parsed.refl e
    · exact ⟨rfl, rfl, rfl, fun h => nomatch h⟩
  · exact ⟨rfl, rfl, rfl, fun h => nomatch h⟩

theorem parsed_pdu (cookieBinding : Bool) (e : EmtState) (bytes : List UInt8) :
    Parsed e (e.pdu cookieBinding bytes) := by
  unfold EmtState.pdu
  split
  · split
    · exact parsed_createRequest cookieBinding e bytes
    split
    · unfold EmtState.data
      split
      · exact ⟨rfl, rfl, rfl, fun h => ⟨h, rfl, rfl, rfl⟩⟩
      · exact Parsed.refl e
    · exact Parsed.refl e
  · exact Parsed.refl e

theorem parsed_messages (cookieBinding : Bool) (fuel : ℕ) (e : EmtState) :
    Parsed e (EmtState.messages cookieBinding fuel e) := by
  induction fuel generalizing e with
  | zero => exact Parsed.refl e
  | succ fuel ih =>
    simp only [EmtState.messages]
    split
    · exact Parsed.refl e
    next total _ =>
    split
    · exact Parsed.refl e
    have hdrain : Parsed e
        { e with peer := { e.peer with emtInbound := e.peer.emtInbound.drop total } } :=
      ⟨rfl, rfl, rfl, fun h => ⟨h, rfl, rfl, rfl⟩⟩
    exact (hdrain.trans (parsed_pdu cookieBinding _ _)).trans (ih _)

/-- Sending records leaves the receiver alone. -/
theorem enqueueAll_frame {records sent : List (List UInt8)}
    {sm' : RdpeudpState} (h : enqueueAll nowMs sm records = some (sm', sent)) :
    SameReceiver sm sm' := by
  induction records generalizing sm sent with
  | nil =>
    cases h
    exact SameReceiver.refl _
  | cons record rest ih =>
    obtain ⟨⟨sm₁, out⟩, hsend, h⟩ := Option.bind_eq_some_iff.mp h
    obtain ⟨⟨sm₂, sent₂⟩, hrest, h⟩ := Option.bind_eq_some_iff.mp h
    cases h
    have hqueued : SameReceiver sm { sm with outQueue := sm.outQueue ++ record } :=
      ⟨rfl, rfl, rfl, rfl, rfl, rfl, rfl, rfl⟩
    exact (hqueued.trans (pump_frame hsend)).trans (ih hrest)

/-- Taking in a delivery keeps a peer sound, and binds a cookie only to a peer
that it answers. -/
theorem deliver_sound {secure : SecureOutput} {emitted : Emitted}
    (hp : PeerSound l.cfg l.nextSerial p)
    (h : l.deliver addr nowMs p secure = some (p', l', emitted)) :
    PeerSound l.cfg l.nextSerial p' ∧ (p.tunnelCreated = true → p'.tunnelCreated = true) ∧
      ∃ reg boundAddrs, l' = { l with registry := reg, boundAddrs := boundAddrs } ∧
        (boundAddrs = l.boundAddrs ∨ p'.tunnelCreated = true ∧
          ∃ c, boundAddrs = l.boundAddrs.insert c addr) := by
  simp only [Listener.deliver] at h
  obtain ⟨⟨sm, sent⟩, hsend, h⟩ := Option.bind_eq_some_iff.mp h
  cases h
  have hparsed : ∀ e : EmtState, e = (if secure.parse then
      handleEmtTunnel l.cfg.cookieBinding { p with emtInbound := p.emtInbound ++ secure.plain }
        l.registry
      else ⟨{ p with emtInbound := p.emtInbound ++ secure.plain }, l.registry, {}, []⟩) →
      Parsed ⟨p, l.registry, {}, []⟩ e := by
    have hfed : Parsed ⟨p, l.registry, {}, []⟩
        ⟨{ p with emtInbound := p.emtInbound ++ secure.plain }, l.registry, {}, []⟩ :=
      ⟨rfl, rfl, rfl, fun h => ⟨h, rfl, rfl, rfl⟩⟩
    rintro e rfl
    split
    · exact hfed.trans (parsed_messages _ _ _)
    · exact hfed
  have hkept := hparsed _ rfl
  generalize (if secure.parse then
      handleEmtTunnel l.cfg.cookieBinding { p with emtInbound := p.emtInbound ++ secure.plain }
        l.registry
      else ⟨{ p with emtInbound := p.emtInbound ++ secure.plain }, l.registry, {}, []⟩) = e at *
  have hpeer : PeerSound l.cfg l.nextSerial e.peer := by
    refine ⟨?_, ?_, ?_, ?_, ?_⟩
    · rw [hkept.sm]
      exact hp.role
    · rw [hkept.sm, hkept.serial]
      exact hp.initialSeq
    · rw [hkept.serial]
      exact hp.made
    · rw [hkept.sm, hkept.opening]
      exact hp.opened
    · intro hcreated
      obtain ⟨hcreated, hsink, hflag, -⟩ := hkept.unanswered hcreated
      rw [hsink, hflag]
      exact hp.unanswered hcreated
  refine ⟨hpeer.withTransport (enqueueAll_frame hsend), ?_, _, _, rfl, ?_⟩
  · intro hcreated
    cases hanswered : e.peer.tunnelCreated with
    | true => rfl
    | false =>
      rw [(hkept.unanswered hanswered).1] at hcreated
      cases hcreated
  · cases hcookie : e.outcome.boundCookie with
    | none => exact .inl rfl
    | some c =>
      refine .inr ⟨?_, c, rfl⟩
      cases hanswered : e.peer.tunnelCreated with
      | true => rfl
      | false =>
        rw [(hkept.unanswered hanswered).2.2.2] at hcookie
        cases hcookie

namespace Sound

variable {nowMs : UInt64}

theorem checkTunnel {deadMs : UInt64} {now : PlatformTime.Instant}
    {cooldown : PlatformTime.Duration} {st st' : Listener × List SocketAddr} (h : Sound st.1)
    (hcheck : Listener.checkTunnel nowMs deadMs now cooldown st addr = some st') : Sound st'.1 := by
  obtain ⟨l, retired⟩ := st
  rcases checkTunnel_cases hcheck with hkept | ⟨p, flag, registry, hp, -, hst, -⟩
  · rw [hkept]
    exact h
  · have hold := h.peers addr p hp
    have htaken : Sound (l.insertPeer addr { p with boundFlag := none }) := by
      refine h.insertPeer ⟨hold.role, hold.initialSeq, hold.made, hold.opened, ?_⟩ ?_
      · exact fun hcreated => ⟨(hold.unanswered hcreated).1, rfl⟩
      · intro q hq hcreated
        rw [hp, Option.some.injEq] at hq
        rw [← hq] at hcreated
        exact hcreated
    rw [hst]
    exact (htaken.lower _).registry registry

theorem checkDeadTunnels {deadMs : UInt64} {now : PlatformTime.Instant}
    {cooldown : PlatformTime.Duration} {st : Listener × List SocketAddr} (h : Sound l)
    (hcheck : l.checkDeadTunnels nowMs deadMs now cooldown = some st) : Sound st.1 := by
  unfold Listener.checkDeadTunnels at hcheck
  split at hcheck
  · cases hcheck
    exact h
  · rw [← run_eq_foldlM] at hcheck
    exact run_invariant_of_step (fun s => Sound s.1) (fun _ _ _ hs hstep => hs.checkTunnel hstep)
      h hcheck

/-- The transport of a peer may change in what has nothing to do with its open. -/
theorem withTransport (h : Sound l) (hp : l.peers.lookup addr = some p)
    (hsame : SameReceiver p.sm sm) : Sound (l.insertPeer addr { p with sm := sm }) := by
  refine h.insertPeer ((h.peers addr p hp).withTransport hsame) ?_
  intro q hq hcreated
  rw [hp, Option.some.injEq] at hq
  rw [← hq] at hcreated
  exact hcreated

theorem pumpPeersOnTimer (h : Sound l) (hpump : l.pumpPeersOnTimer nowMs = some l') : Sound l' := by
  unfold Listener.pumpPeersOnTimer at hpump
  rw [← run_eq_foldlM] at hpump
  refine run_invariant_of_step Sound ?_ h hpump
  intro s a s' hs hstep
  unfold Listener.pumpPeer at hstep
  split at hstep
  · cases hstep
    exact hs
  next p hp =>
  split at hstep
  · obtain ⟨⟨sm, out⟩, htick, rfl⟩ := Option.map_eq_some_iff.mp hstep
    have hpump : p.sm.pump nowMs {} = some (sm, out) := htick
    exact hs.withTransport hp (pump_frame hpump)
  · cases hstep
    exact hs

theorem shipOutbound {cookie : Cookie} {records : List (List UInt8)}
    {emitted : Emitted} (h : Sound l)
    (hship : l.shipOutbound cookie nowMs records = some (l', emitted)) : Sound l' := by
  unfold Listener.shipOutbound at hship
  split at hship
  · cases hship
    exact h
  split at hship
  · cases hship
    exact h
  next p hp =>
  obtain ⟨⟨sm, sent⟩, hsend, hship⟩ := Option.bind_eq_some_iff.mp hship
  cases hship
  exact h.withTransport hp (enqueueAll_frame hsend)

theorem replaceStale (h : Sound l) (addr : SocketAddr) (data : List UInt8) :
    Sound (l.replaceStale addr data) := by
  unfold Listener.replaceStale
  split
  · exact h.dropPeer addr
  · exact h

/-- The peer that processes a datagram is sound. -/
theorem peerFor (h : Sound l) (hpeer : l.peerFor addr nowMs data = (p, l')) :
    Sound (l'.insertPeer addr p) := by
  simp only [Listener.peerFor] at hpeer
  split at hpeer
  · next q hq =>
    cases hpeer
    refine h.insertPeer (h.peers addr _ hq) ?_
    intro q' hq' hcreated
    rw [hq, Option.some.injEq] at hq'
    rw [hq']
    exact hcreated
  next hnone =>
  cases hpeer
  have hnext : Sound { l with
      sessionCounter := l.sessionCounter + 1, nextSerial := l.nextSerial + 1 } := by
    refine ⟨?_, ?_, h.addrs⟩
    · show l.sessionCounter + 1 = UInt32.ofNat (l.nextSerial + 1)
      rw [h.counter, UInt32.ofNat_add]
      rfl
    · intro a q hq
      have hold := h.peers a q hq
      exact ⟨hold.role, hold.initialSeq, Nat.lt_succ_of_lt hold.made, hold.opened,
        hold.unanswered⟩
  refine hnext.insertPeer ⟨rfl, ?_, Nat.lt_succ_self _, .inl ⟨rfl, rfl⟩, fun _ => ⟨rfl, rfl⟩⟩ ?_
  · show l.cfg.serverIsnSeed + (l.sessionCounter + 1) =
      l.cfg.serverIsnSeed + UInt32.ofNat (l.nextSerial + 1)
    rw [h.counter, UInt32.ofNat_add]
    rfl
  · intro q hq
    change l.peers.lookup addr = some q at hq
    rw [hnone] at hq
    cases hq

/-- A peer that takes a SYN is not established: an established one was dropped. -/
theorem peerFor_fresh (hpeer : (l.replaceStale addr data).peerFor addr nowMs data = (p, l'))
    (hfamily : isSynFamily data = true) : p.sm.isEstablished = false := by
  simp only [Listener.peerFor] at hpeer
  split at hpeer
  · next q hq =>
    cases hpeer
    cases hest : p.sm.isEstablished with
    | false => rfl
    | true =>
      unfold Listener.replaceStale at hq
      split at hq
      · rw [lookup_dropPeer] at hq
        cases hq
      · next hkept =>
        rw [hfamily, hq, Option.any_some, hest] at hkept
        exact absurd rfl hkept
  · cases hpeer
    rfl

/-- A datagram keeps the listener sound. -/
theorem datagram {secure : SecureOutput} {emitted : Emitted} (h : Sound l)
    (hdatagram : l.datagram addr nowMs data secure = some (l', emitted)) : Sound l' := by
  cases hpeer : (l.replaceStale addr data).peerFor addr nowMs data with
  | mk p l₁ =>
    simp only [Listener.datagram, hpeer] at hdatagram
    obtain ⟨⟨sm, out⟩, hstep, hdatagram⟩ := Option.bind_eq_some_iff.mp hdatagram
    have hmade := (h.replaceStale addr data).peerFor hpeer
    have hlookup : (l₁.insertPeer addr p).peers.lookup addr = some p := by
      rw [lookup_insertPeer_self]
    have hp : PeerSound l₁.cfg l₁.nextSerial (p.afterStep nowMs data sm) :=
      PeerSound.afterStep (hmade.peers addr p hlookup) (peerFor_fresh hpeer) hstep
    -- The peer that is stored last replaces the one that took the datagram.
    have hstored : ∀ q, PeerSound l₁.cfg l₁.nextSerial q →
        (p.tunnelCreated = true → q.tunnelCreated = true) → Sound (l₁.insertPeer addr q) := by
      intro q hq hcreated
      rw [← insertPeer_insertPeer l₁ addr p q]
      refine hmade.insertPeer hq ?_
      intro p₀ hp₀ hcreated₀
      rw [hlookup, Option.some.injEq] at hp₀
      exact hcreated (hp₀ ▸ hcreated₀)
    split at hdatagram
    · cases hdatagram
      exact hstored _ hp id
    · obtain ⟨⟨q, l₂, emitted₁⟩, hdeliver, hdatagram⟩ := Option.bind_eq_some_iff.mp hdatagram
      cases hdatagram
      obtain ⟨hq, hcreated, reg, boundAddrs, rfl, hbound⟩ := deliver_sound hp hdeliver
      have hsound := hstored q hq hcreated
      refine ⟨hsound.counter, hsound.peers, ?_⟩
      rcases hbound with rfl | ⟨hanswered, c, rfl⟩
      · exact hsound.addrs
      · intro c' a ha
        change (l₁.boundAddrs.insert c addr).lookup c' = some a at ha
        by_cases hc : c' = c
        · subst hc
          rw [AList.lookup_insert, Option.some.injEq] at ha
          subst ha
          exact ⟨q, AList.lookup_insert _, hanswered⟩
        · rw [AList.lookup_insert_ne hc] at ha
          exact hsound.addrs c' a ha

end Sound

/-- Every step keeps the listener sound. -/
theorem sound_step {s s' : System} {act : Action} (h : Sound s.listener)
    (hstep : s.step act = some s') : Sound s'.listener := by
  cases act with
  | register cookie inbound | remove cookie =>
    cases hstep
    exact h.registry _
  | suppress now cooldown =>
    obtain ⟨registry, -, rfl⟩ := Option.map_eq_some_iff.mp hstep
    exact h.registry registry
  | lower flag =>
    cases hstep
    exact h.lower (some flag)
  | datagram addr nowMs data secure =>
    simp only [System.step] at hstep
    split at hstep
    · obtain ⟨⟨l, emitted⟩, hdatagram, rfl⟩ := Option.map_eq_some_iff.mp hstep
      exact h.datagram hdatagram
    · cases hstep
  | outbound cookie nowMs records =>
    simp only [System.step] at hstep
    split at hstep
    · obtain ⟨⟨l, emitted⟩, hship, rfl⟩ := Option.map_eq_some_iff.mp hstep
      exact h.shipOutbound hship
    · cases hstep
  | tick nowMs deadMs now cooldown =>
    simp only [System.step] at hstep
    split at hstep
    · obtain ⟨l₁, hpump, hstep⟩ := Option.bind_eq_some_iff.mp hstep
      obtain ⟨⟨l₂, retired⟩, hcheck, hstep⟩ := Option.bind_eq_some_iff.mp hstep
      cases hstep
      exact (h.pumpPeersOnTimer hpump).checkDeadTunnels hcheck
    · cases hstep
  | evict | gc =>
    simp only [System.step] at hstep
    split at hstep
    · cases hstep
      exact h.foldl_dropPeer _
    · cases hstep

theorem sound_run {acts : List Action} {s : System}
    (hrun : run System.step (System.new cfg) acts = some s) : Sound s.listener :=
  run_invariant_of_step (fun s => Sound s.listener) (fun _ _ _ => sound_step) (Sound.new cfg) hrun

/-- The flow of two peers is the same: its numbers, what is in flight and its
tunnel. -/
structure SameFlow (p p' : Peer) : Prop where
  sendNext : p'.sm.sendNext = p.sm.sendNext
  initialSeq : p'.sm.cfg.initialSeq = p.sm.cfg.initialSeq
  recvNext : p'.sm.recvNext = p.sm.recvNext
  peerIsn : p'.sm.peerIsn = p.sm.peerIsn
  havePeerSeq : p'.sm.havePeerSeq = p.sm.havePeerSeq
  reorder : p'.sm.reorder = p.sm.reorder
  unacked : p'.sm.unacked = p.sm.unacked
  tunnelCreated : p'.tunnelCreated = p.tunnelCreated
  inboundSink : p'.inboundSink = p.inboundSink
  boundFlag : p'.boundFlag = p.boundFlag

/-- The flow of an address is as it was, with its cookies and its flag. -/
structure Undisturbed (l l' : Listener) (addr : SocketAddr) (p : Peer) : Prop where
  flow : ∃ p', l'.peers.lookup addr = some p' ∧ SameFlow p p'
  cookies : ∀ c, l'.boundAddrs.lookup c = some addr ↔ l.boundAddrs.lookup c = some addr
  flag : ∀ f, p.boundFlag = some f → l'.registry.flags f = l.registry.flags f

/-- The flow is as the SYN left it: nothing was sent, received or bound since. -/
structure AsOpened (p : Peer) (syn : SynData) : Prop where
  sendNext : p.sm.sendNext = p.sm.cfg.initialSeq + 1
  recvNext : p.sm.recvNext = syn.initialSeq + 1
  reorder : p.sm.reorder = ∅
  unacked : p.sm.unacked = []
  tunnelCreated : p.tunnelCreated = false

/-- A SYN establishes a new transport of the server, which delivers nothing. -/
theorem new_step_syn (cfg : Config) (nowMs : UInt64)
    (hdecode : Datagram.decode data = .ok dg) (hsyn : dg.syn = some syn) :
    ∃ sm out, (RdpeudpState.new .server cfg).step nowMs (some data) = some (sm, out) ∧
      out.delivered = [] ∧ sm.sendNext = cfg.initialSeq + 1 ∧ sm.cfg = cfg ∧
      sm.recvNext = syn.initialSeq + 1 ∧ sm.peerIsn = syn.initialSeq ∧ sm.havePeerSeq = true ∧
      sm.reorder = ∅ ∧ sm.unacked = [] ∧ sm.isEstablished = true := by
  have hsource : dg.source = none :=
    (Datagram.decode_sections hdecode).2.2 (by rw [hsyn]; rfl)
  simp only [step, hdecode, handle, hsyn, hsource, handleSyn, RdpeudpState.new, learnSyn,
    push_synAck, processAck, recvSection, List.dropWhile_nil, Option.bind_eq_bind,
    Option.bind_some, Option.pure_def]
  rw [pump_idle rfl rfl rfl rfl]
  exact ⟨_, _, rfl, rfl, rfl, rfl, rfl, rfl, rfl, rfl, rfl, rfl⟩

/-- A SYN from the address of an established peer replaces the peer. -/
theorem datagram_syn (nowMs : UInt64) (secure : SecureOutput)
    (hp : l.peers.lookup addr = some p) (hest : p.sm.isEstablished = true)
    (hdecode : Datagram.decode data = .ok dg) (hsyn : dg.syn = some syn) :
    ∃ l' emitted p', l.datagram addr nowMs data secure = some (l', emitted) ∧
      l'.peers.lookup addr = some p' ∧
      p'.sm.cfg.initialSeq = l.cfg.serverIsnSeed + (l.sessionCounter + 1) ∧
      p'.sm.sendNext = p'.sm.cfg.initialSeq + 1 ∧ p'.sm.recvNext = syn.initialSeq + 1 ∧
      p'.sm.peerIsn = syn.initialSeq ∧ p'.sm.havePeerSeq = true ∧ p'.sm.reorder = ∅ ∧
      p'.sm.unacked = [] ∧ p'.tunnelCreated = false ∧ p'.inboundSink = none ∧
      p'.boundFlag = none ∧ (∀ c, l'.boundAddrs.lookup c ≠ some addr) := by
  obtain ⟨hpeek, hflag, -⟩ := Datagram.decode_sections hdecode
  have hfamily : isSynFamily data = true := by
    rw [isSynFamily, hpeek, Option.any_some, ← hflag, hsyn, Option.isSome_some]
  have hstale : l.replaceStale addr data = l.dropPeer addr := by
    rw [Listener.replaceStale, hfamily, hp, Option.any_some, hest]
    rfl
  have hdropped : (l.dropPeer addr).cfg = l.cfg ∧
      (l.dropPeer addr).sessionCounter = l.sessionCounter ∧
      ∀ c, (l.dropPeer addr).boundAddrs.lookup c ≠ some addr := by
    unfold Listener.dropPeer
    rw [hp]
    simp only [lower_eq]
    refine ⟨rfl, rfl, ?_⟩
    intro c hc
    rw [lookup_unbind, Option.bind_eq_some_iff] at hc
    obtain ⟨a, -, ha⟩ := hc
    split at ha
    · cases ha
    · next hne =>
      cases ha
      exact hne rfl
  obtain ⟨sm, out, hstep, hdelivered, hsend, hcfg, hrecv, hisn, hknown, hreorder, hunacked, -⟩ :=
    new_step_syn ((l.dropPeer addr).nextConfig data) nowMs hdecode hsyn
  have hpeer : (l.dropPeer addr).peerFor addr nowMs data =
      (⟨RdpeudpState.new .server ((l.dropPeer addr).nextConfig data), [], false, none, none, nowMs,
          (l.dropPeer addr).nextSerial, []⟩,
        { l.dropPeer addr with
          sessionCounter := (l.dropPeer addr).sessionCounter + 1
          nextSerial := (l.dropPeer addr).nextSerial + 1 }) := by
    simp only [Listener.peerFor, lookup_dropPeer]
  have hisn' : sm.cfg.initialSeq = l.cfg.serverIsnSeed + (l.sessionCounter + 1) := by
    rw [hcfg, Listener.nextConfig, hdropped.1, hdropped.2.1]
  simp only [Listener.datagram, hstale, hpeer, hstep, hdelivered, List.flatten_nil,
    Option.bind_eq_bind, Option.bind_some, if_true, Option.pure_def]
  refine ⟨_, _, _, rfl, AList.lookup_insert _, hisn', ?_, hrecv, hisn, hknown, hreorder, hunacked,
    rfl, rfl, rfl, hdropped.2.2⟩
  show sm.sendNext = sm.cfg.initialSeq + 1
  rw [hsend, hcfg]

/-- Two peers get one initial number only a whole wrap of the counter apart. -/
theorem initialSeq_eq_iff {seed : UInt32} {m n : ℕ} (h : m < n) :
    seed + (UInt32.ofNat n + 1) = seed + UInt32.ofNat (m + 1) ↔ (n - m) % 2 ^ 32 = 0 := by
  have hsum : UInt32.ofNat (m + 1) = UInt32.ofNat m + 1 := UInt32.ofNat_add m 1
  rw [hsum, UInt32.add_right_inj, UInt32.add_left_inj, ← UInt32.toNat_inj, UInt32.toNat_ofNat',
    UInt32.toNat_ofNat']
  omega

/-- A duplicate of the SYN that opened a flow leaves the flow alone exactly when
the flow is as the SYN left it and a multiple of `2 ^ 32` peers was made since. -/
theorem duplicate_syn_undisturbed_iff {cfg : ListenerConfig} {acts : List Action} {s : System}
    {addr : SocketAddr} {p : Peer} {dg : Datagram} {syn : SynData} (nowMs : UInt64)
    (secure : SecureOutput) (hrun : run System.step (System.new cfg) acts = some s)
    (hphase : s.phase = .waiting) (hp : s.listener.peers.lookup addr = some p)
    (hdecode : Datagram.decode p.opening = .ok dg) (hsyn : dg.syn = some syn) :
    ∃ s', s.step (.datagram addr nowMs p.opening secure) = some s' ∧
      (Undisturbed s.listener s'.listener addr p ↔
        AsOpened p syn ∧ (s.listener.nextSerial - p.serial) % 2 ^ 32 = 0) := by
  have hsound := sound_run hrun
  have hpeer := hsound.peers addr p hp
  have hopened : p.sm.isEstablished = true ∧ p.sm.havePeerSeq = true ∧
      p.sm.peerIsn = syn.initialSeq := by
    rcases hpeer.opened with ⟨-, hempty⟩ | ⟨hest, hknown, d, n, hd, hn, hisn⟩
    · rw [hempty] at hdecode
      cases hdecode
    · rw [hdecode, Except.ok.injEq] at hd
      rw [← hd, hsyn, Option.some.injEq] at hn
      exact ⟨hest, hknown, hn ▸ hisn⟩
  obtain ⟨hest, hknown, hisn⟩ := hopened
  obtain ⟨l', emitted, p', hdatagram, hp', hseq', hsend', hrecv', hisn', hknown', hreorder',
    hunacked', hcreated', hsink', hflag', hcookies'⟩ :=
    datagram_syn nowMs secure hp hest hdecode hsyn
  have hwrap : p'.sm.cfg.initialSeq = p.sm.cfg.initialSeq ↔
      (s.listener.nextSerial - p.serial) % 2 ^ 32 = 0 := by
    rw [hseq', hsound.counter, hpeer.initialSeq]
    exact initialSeq_eq_iff hpeer.made
  refine ⟨{ s with listener := l', responses := s.responses ++
    System.responsesOf l' addr emitted.outcome }, ?_, ?_⟩
  · simp only [System.step, hphase, hdatagram, Option.map_some]
  constructor
  · rintro ⟨⟨q, hq, hflow⟩, -, -⟩
    change l'.peers.lookup addr = some q at hq
    rw [hp', Option.some.injEq] at hq
    subst hq
    refine ⟨⟨?_, ?_, ?_, ?_, ?_⟩, hwrap.mp hflow.initialSeq⟩
    · rw [← hflow.sendNext, ← hflow.initialSeq, hsend']
    · rw [← hflow.recvNext, hrecv']
    · rw [← hflow.reorder, hreorder']
    · rw [← hflow.unacked, hunacked']
    · rw [← hflow.tunnelCreated, hcreated']
  · rintro ⟨hfresh, hmultiple⟩
    have hseq := hwrap.mpr hmultiple
    obtain ⟨hsink, hflag⟩ := hpeer.unanswered hfresh.tunnelCreated
    refine ⟨⟨p', hp', ?_⟩, ?_, ?_⟩
    · exact ⟨by rw [hsend', hseq, hfresh.sendNext], hseq, by rw [hrecv', hfresh.recvNext],
        hisn'.trans hisn.symm, hknown'.trans hknown.symm, hreorder'.trans hfresh.reorder.symm,
        hunacked'.trans hfresh.unacked.symm, hcreated'.trans hfresh.tunnelCreated.symm,
        hsink'.trans hsink.symm, hflag'.trans hflag.symm⟩
    · intro c
      refine ⟨fun hc => absurd hc (hcookies' c), ?_⟩
      intro hc
      obtain ⟨q, hq, hqc⟩ := hsound.addrs c addr hc
      rw [hp, Option.some.injEq] at hq
      rw [← hq, hfresh.tunnelCreated] at hqc
      cases hqc
    · intro f hf
      rw [hflag] at hf
      cases hf

/-- The duplicate of a SYN that comes right behind it. -/
theorem duplicate_syn_undisturbed_iff_behind :
    ∃ s p s', run System.step (System.new {}) [.datagram ⟨.v4 ⟨1, 2, 3, 4⟩, 50⟩ 0
        (Datagram.ofSyn (-1) 64 ⟨9, 1232, 1232⟩ none none).bytes ⟨[], false, []⟩] = some s ∧
      s.listener.peers.lookup ⟨.v4 ⟨1, 2, 3, 4⟩, 50⟩ = some p ∧
      s.step (.datagram ⟨.v4 ⟨1, 2, 3, 4⟩, 50⟩ 7 p.opening ⟨[], false, []⟩) = some s' ∧
      (Undisturbed s.listener s'.listener ⟨.v4 ⟨1, 2, 3, 4⟩, 50⟩ p ↔
        AsOpened p ⟨9, 1232, 1232⟩ ∧ (s.listener.nextSerial - p.serial) % 2 ^ 32 = 0) := by
  have hresult : (run System.step (System.new {}) [.datagram ⟨.v4 ⟨1, 2, 3, 4⟩, 50⟩ 0
      (Datagram.ofSyn (-1) 64 ⟨9, 1232, 1232⟩ none none).bytes ⟨[], false, []⟩]).map
      (fun s => (s.phase, (s.listener.peers.lookup ⟨.v4 ⟨1, 2, 3, 4⟩, 50⟩).map Peer.opening)) =
      some (.waiting, some (Datagram.ofSyn (-1) 64 ⟨9, 1232, 1232⟩ none none).bytes) := by
    decide +kernel
  obtain ⟨s, hrun, hs⟩ := Option.map_eq_some_iff.mp hresult
  simp only [Prod.mk.injEq] at hs
  obtain ⟨hphase, hs⟩ := hs
  obtain ⟨p, hp, hopening⟩ := Option.map_eq_some_iff.mp hs
  have hdecode : Datagram.decode p.opening =
      .ok (Datagram.ofSyn (-1) 64 ⟨9, 1232, 1232⟩ none none) := by
    rw [hopening]
    exact Datagram.decode_ofSyn _ _ _
  obtain ⟨s', hstep, hiff⟩ :=
    duplicate_syn_undisturbed_iff 7 ⟨[], false, []⟩ hrun hphase hp hdecode rfl
  exact ⟨s, p, s', hrun, hp, hstep, hiff⟩

/-- A duplicate of the SYN that arrives once the tunnel is bound: the peer is
replaced by one with another initial number, its cookie is gone and its flag is
lowered. -/
theorem not_duplicate_syn_undisturbed :
    ∃ s p s', run System.step (System.new {})
        [.register ⟨List.replicate 16 5, rfl⟩ 3,
          .datagram ⟨.v4 ⟨1, 2, 3, 4⟩, 50⟩ 0
            (Datagram.ofSyn (-1) 64 ⟨9, 1232, 1232⟩ none none).bytes ⟨[], false, []⟩,
          .datagram ⟨.v4 ⟨1, 2, 3, 4⟩, 50⟩ 1 (Datagram.ofData 0 64 ⟨[]⟩ ⟨⟨10, 10⟩, [1]⟩).bytes
            ⟨[0, 24, 0, 4] ++ List.replicate 8 0 ++ List.replicate 16 5, true, [[7]]⟩] = some s ∧
      s.listener.peers.lookup ⟨.v4 ⟨1, 2, 3, 4⟩, 50⟩ = some p ∧ p.tunnelCreated = true ∧
      p.opening = (Datagram.ofSyn (-1) 64 ⟨9, 1232, 1232⟩ none none).bytes ∧
      s.step (.datagram ⟨.v4 ⟨1, 2, 3, 4⟩, 50⟩ 2 p.opening ⟨[], false, []⟩) = some s' ∧
      s.listener.registry.flags 0 = true ∧ s'.listener.registry.flags 0 = false ∧
      s'.listener.boundAddrs.lookup ⟨List.replicate 16 5, rfl⟩ = none ∧
      (s'.listener.peers.lookup ⟨.v4 ⟨1, 2, 3, 4⟩, 50⟩).map (fun q => q.sm.cfg.initialSeq) ≠
        some p.sm.cfg.initialSeq ∧
      ¬ Undisturbed s.listener s'.listener ⟨.v4 ⟨1, 2, 3, 4⟩, 50⟩ p := by
  have hbefore : (run System.step (System.new {})
      [.register ⟨List.replicate 16 5, rfl⟩ 3,
        .datagram ⟨.v4 ⟨1, 2, 3, 4⟩, 50⟩ 0
          (Datagram.ofSyn (-1) 64 ⟨9, 1232, 1232⟩ none none).bytes ⟨[], false, []⟩,
        .datagram ⟨.v4 ⟨1, 2, 3, 4⟩, 50⟩ 1 (Datagram.ofData 0 64 ⟨[]⟩ ⟨⟨10, 10⟩, [1]⟩).bytes
          ⟨[0, 24, 0, 4] ++ List.replicate 8 0 ++ List.replicate 16 5, true, [[7]]⟩]).map
      (fun s => ((s.listener.peers.lookup ⟨.v4 ⟨1, 2, 3, 4⟩, 50⟩).map fun p =>
        (p.tunnelCreated, p.opening, p.sm.cfg.initialSeq), s.listener.registry.flags 0)) =
      some (some (true, (Datagram.ofSyn (-1) 64 ⟨9, 1232, 1232⟩ none none).bytes, 0x50524401),
        true) := by
    decide +kernel
  have hafter : (run System.step (System.new {})
      ([.register ⟨List.replicate 16 5, rfl⟩ 3,
        .datagram ⟨.v4 ⟨1, 2, 3, 4⟩, 50⟩ 0
          (Datagram.ofSyn (-1) 64 ⟨9, 1232, 1232⟩ none none).bytes ⟨[], false, []⟩,
        .datagram ⟨.v4 ⟨1, 2, 3, 4⟩, 50⟩ 1 (Datagram.ofData 0 64 ⟨[]⟩ ⟨⟨10, 10⟩, [1]⟩).bytes
          ⟨[0, 24, 0, 4] ++ List.replicate 8 0 ++ List.replicate 16 5, true, [[7]]⟩] ++
        [.datagram ⟨.v4 ⟨1, 2, 3, 4⟩, 50⟩ 2
          (Datagram.ofSyn (-1) 64 ⟨9, 1232, 1232⟩ none none).bytes ⟨[], false, []⟩])).map
      (fun s => (s.listener.registry.flags 0,
        (s.listener.boundAddrs.lookup ⟨List.replicate 16 5, rfl⟩).isNone,
        (s.listener.peers.lookup ⟨.v4 ⟨1, 2, 3, 4⟩, 50⟩).map fun q => q.sm.cfg.initialSeq)) =
      some (false, true, some 0x50524402) := by
    decide +kernel
  obtain ⟨s, hrun, hs⟩ := Option.map_eq_some_iff.mp hbefore
  simp only [Prod.mk.injEq] at hs
  obtain ⟨hpeer, hraised⟩ := hs
  obtain ⟨p, hp, hpeer⟩ := Option.map_eq_some_iff.mp hpeer
  simp only [Prod.mk.injEq] at hpeer
  obtain ⟨hcreated, hopening, hseq⟩ := hpeer
  obtain ⟨s', hrun', hs'⟩ := Option.map_eq_some_iff.mp hafter
  rw [run_append, hrun, Option.bind_some] at hrun'
  obtain ⟨s₁, hstep, hnil⟩ := run_cons_some.mp hrun'
  cases hnil
  simp only [Prod.mk.injEq] at hs'
  obtain ⟨hlowered, hunbound, hreplaced⟩ := hs'
  have hother : (s'.listener.peers.lookup ⟨.v4 ⟨1, 2, 3, 4⟩, 50⟩).map
      (fun q => q.sm.cfg.initialSeq) ≠ some p.sm.cfg.initialSeq := by
    rw [hreplaced, hseq]
    decide
  refine ⟨s, p, s', hrun, hp, hcreated, hopening, hopening ▸ hstep, hraised, hlowered,
    Option.isNone_iff_eq_none.mp hunbound, hother, ?_⟩
  rintro ⟨⟨q, hq, hflow⟩, -, -⟩
  refine hother ?_
  rw [hq, Option.map_some, hflow.initialSeq]

end Macrdp.SynReplacement
