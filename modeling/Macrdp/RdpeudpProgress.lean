import Macrdp.RdpeudpRelease
import Macrdp.RdpeudpExchange

/-!
# Progress of a lossy connection

A client whose oldest segment is due exchanges datagrams with the server once, and none of them is
lost. The server has the segment after the first datagram and acknowledges it, and that releases it.
The one exception is an endpoint that has received so many segments that the vector of them does not
fit the buffer of a datagram.
-/

namespace Macrdp.RdpeudpProgress

open StepSystem RdpeudpPdu RdpeudpDatagram RdpeudpEndpoint RdpeudpEndpoint.RdpeudpState
  RdpeudpPump RdpeudpReceive RdpeudpNetwork RdpeudpStream RdpeudpRelease RdpeudpSizes
  RdpeudpExchange SerialNumber

/-! ## The segments up to the oldest one -/

/-- The client numbers from `isn`; its first segments are `pre`, of its segments it has released
`p` at least, and the server has handed up `r` at least. -/
structure Past (isn : UInt32) (pre : List (List UInt8)) (p r : ℕ) (net : Network) : Prop where
  connected : Connected net
  initialSeq : net.client.endpoint.cfg.initialSeq = isn
  held : net.client.sentSegments < 2 ^ 31 → ∃ more p' r', p ≤ p' ∧ r ≤ r' ∧
    Held net.client net.server (pre ++ more) p' r'

variable {net net' : Network}

/-- The configuration of the client is kept. -/
theorem cfg_step {a : NetAction} (h : Connected net)
    (hstep : net.step a = some net') : net'.client.endpoint.cfg = net.client.endpoint.cfg := by
  obtain ⟨-, -, ⟨-, hcall, -⟩ | ⟨-, -, hkeep⟩⟩ := step_some hstep
  · obtain ⟨_, _, _, _, -, hcalled⟩ := call_spec h.clientMode hcall
    exact hcalled.cfg
  · rw [hkeep]

variable {isn : UInt32} {pre : List (List UInt8)}

/-- A step goes no way back. -/
theorem past_step {p r : ℕ}
    {a : NetAction} (h : Past isn pre p r net) (hstep : net.step a = some net') :
    Past isn pre p r net' where
  connected := connected_step h.connected hstep
  initialSeq := by rw [cfg_step h.connected hstep, h.initialSeq]
  held := by
    intro hcount
    have hle := (sentSegments_step h.connected hstep).1
    have hbefore : net.client.sentSegments < 2 ^ 31 := by omega
    obtain ⟨more, p', r', hp, hr, hheld⟩ := h.held hbefore
    obtain ⟨new, p'', r'', hp', hr', hheld'⟩ := clientHeld_step h.connected hheld hbefore hstep
    rw [List.append_assoc] at hheld'
    exact ⟨more ++ new, p'', r'', hp.trans hp', hr.trans hr', hheld'⟩

/-- A run goes no way back. -/
theorem past_run {p r : ℕ} {acts : List NetAction} (h : Past isn pre p r net)
    (hrun : run Network.step net acts = some net') : Past isn pre p r net' :=
  run_invariant_of_step (Past isn pre p r) (fun _ _ _ hpast hstep => past_step hpast hstep) h hrun

/-- What was sent is never forgotten. -/
theorem emitted_step {a : NetAction} (h : Connected net)
    (hstep : net.step a = some net') : net.server.emitted <+: net'.server.emitted := by
  obtain ⟨-, -, ⟨-, -, hkeep⟩ | ⟨-, hcall, -⟩⟩ := step_some hstep
  · exact hkeep ▸ List.prefix_rfl
  · obtain ⟨_, _, _, _, -, hcalled⟩ := call_spec h.serverMode hcall
    obtain ⟨ds, hds, -⟩ := hcalled.emitted
    rw [hds]
    exact List.prefix_append _ _

/-- An acknowledgment of the first `k` segments at least. -/
def Covers (isn : UInt32) (k : ℕ) (dg : Datagram) : Prop :=
  ∃ j, k ≤ j ∧ j < 2 ^ 31 ∧ dg.fec.sndSourceAck.toUInt32 = serial isn j

variable {nowMs : UInt64} {dg : Datagram}

/-- An established server that takes in segment `k` has it, and acknowledges it. -/
theorem past_request {k index : ℕ} {src : SourcePacket} (h : Past isn pre k k net)
    (hest : net.server.endpoint.state = .established)
    (hin : net.client.inbound (.receive index) = some dg) (hsyn : dg.syn = none)
    (hsrc : dg.source = some src) (hseq : src.header.snSourceStart = serial (isn + 1) k)
    (hcount : net'.client.sentSegments < 2 ^ 31)
    (hstep : net.step ⟨.server, nowMs, .receive index⟩ = some net') :
    Past isn pre k (k + 1) net' ∧ ∃ i bytes dg', net.server.emitted.length ≤ i ∧
      net'.server.emitted[i]? = some bytes ∧ Datagram.decode bytes = .ok dg' ∧
      Covers isn (k + 1) dg' := by
  have hpast := past_step h hstep
  have hle := (sentSegments_step h.connected hstep).1
  obtain ⟨more, p, r, hp, hr, hheld⟩ := h.held (by omega)
  have hlength : (pre ++ more).length < 2 ^ 31 := by
    rw [← hheld.sending.sentSegments]
    omega
  have hmode := h.connected.serverMode
  obtain ⟨-, -, ⟨hrole, -, -⟩ | ⟨-, hcall, -⟩⟩ := step_some hstep
  · cases hrole
  obtain ⟨m, out, s', out', hhandle, hpump, hside⟩ := receive_some hin hcall
  obtain ⟨hh, -⟩ := handle_frame [] hhandle
  have hknown := (hheld.learned hest).1
  have htracks : Tracks (isn + 1) (pre ++ more) net.server.endpoint
      (net.server.delivered ++ ({} : StepOutput).delivered.flatten) r := by
    rw [← h.initialSeq]
    simpa using hheld.tracks
  have hmember : (src.header.snSourceStart, src.payload) ∈ numbered (isn + 1) (pre ++ more) := by
    have hcarries := hheld.sending.carries_inbound hin
    rw [h.initialSeq] at hcarries
    exact hcarries.source src hsrc
  obtain ⟨r₁, hr₁, htracks₁, hnext⟩ := handle_tracks hmode (by omega) htracks
    (fun syn hsome => by rw [hsyn] at hsome; cases hsome)
    (fun src' hsrc' => by
      rw [hsrc] at hsrc'
      cases hsrc'
      exact ⟨hmember, fun hfresh => by rw [hknown] at hfresh; cases hfresh⟩) hhandle
  -- The segment is handed up now, or was before.
  have hreached : k + 1 ≤ r₁ := by
    rcases Nat.eq_or_lt_of_le hr with heq | hlt
    · have hexpected : src.header.snSourceStart = net.server.endpoint.recvNext := by
        rw [hseq, htracks.numbered hknown, heq]
      have hmoved := hnext hknown ⟨src, hsrc, hexpected⟩
      omega
    · omega
  have hbound := htracks₁.bound
  have hknown₁ : m.havePeerSeq = true := hh.known (.inl hknown)
  have hstate : m.state = .established := by
    rcases hh.state with hsame | hopen
    · rw [hsame, hest]
    · exact hopen
  have hmode₁ : m.cfg.mode = .reliable := by rw [hh.cfg, hmode]
  have hframe := pump_frame hpump
  refine ⟨⟨hpast.connected, hpast.initialSeq, fun hcount' => ?_⟩, ?_⟩
  · obtain ⟨more', p', r', hp', -, hheld'⟩ := hpast.held hcount'
    have hbound' := hheld'.tracks.bound
    have hlength' : (pre ++ more').length < 2 ^ 31 := by
      rw [← hheld'.sending.sentSegments]
      exact hcount'
    have hsame : r' = r₁ := by
      have hnumber := hheld'.tracks.numbered
      rw [hside, hpast.initialSeq] at hnumber
      have hrecv : serial (isn + 1) r' = serial (isn + 1) r₁ := by
        rw [← htracks₁.numbered hknown₁, ← hframe.recvNext]
        exact (hnumber (hframe.havePeerSeq.trans hknown₁)).symm
      exact serial_inj (by omega) (by omega) hrecv
    exact ⟨more', p', r', hp', by omega, hheld'⟩
  · obtain ⟨d, hmem, hdecode, hack⟩ :=
      pump_answers hmode₁ hstate (handle_needAck hmode hsrc hhandle) hpump
    obtain ⟨i, hi⟩ := List.getElem?_of_mem hmem
    refine ⟨net.server.emitted.length + i, d.bytes, d, Nat.le_add_right _ _, ?_, hdecode, r₁,
      hreached, by omega, ?_⟩
    · rw [hside, Side.absorb, List.getElem?_append_right (Nat.le_add_right _ _),
        Nat.add_sub_cancel_left]
      exact hi
    · rw [hack, RdpeudpState.ackNum, if_pos hknown₁, htracks₁.numbered hknown₁, serial_sub_one]
      rfl

/-- A client that takes in such an acknowledgment has released the segment. -/
theorem past_reply {k index : ℕ} (h : Past isn pre k (k + 1) net) (hpre : pre.length = k + 1)
    (hin : net.server.inbound (.receive index) = some dg) (hcovers : Covers isn (k + 1) dg)
    (hcount : net'.client.sentSegments < 2 ^ 31)
    (hstep : net.step ⟨.client, nowMs, .receive index⟩ = some net') :
    Past isn pre (k + 1) (k + 1) net' := by
  have hpast := past_step h hstep
  have hle := (sentSegments_step h.connected hstep).1
  obtain ⟨more, p, r, hp, hr, hheld⟩ := h.held (by omega)
  have hlength : (pre ++ more).length < 2 ^ 31 := by
    rw [← hheld.sending.sentSegments]
    omega
  obtain ⟨-, -, ⟨-, hcall, -⟩ | ⟨hrole, -, -⟩⟩ := step_some hstep
  swap
  · cases hrole
  obtain ⟨m, out, s', out', hhandle, hpump, hside⟩ := receive_some hin hcall
  obtain ⟨hh, -⟩ := handle_frame [] hhandle
  have hmode₁ : m.cfg.mode = .reliable := by rw [hh.cfg, h.connected.clientMode]
  obtain ⟨new, hpumped, -, -⟩ := pump_spec hmode₁ hpump
  refine ⟨hpast.connected, hpast.initialSeq, fun hcount' => ?_⟩
  obtain ⟨more', p', r', hp', hr', hheld'⟩ := hpast.held hcount'
  refine ⟨more', p', r', ?_, hr', hheld'⟩
  -- Otherwise segment `k` leads those in flight, either kept or new.
  by_contra hkept
  have hpk : p' = k := by omega
  have hsent : k < (pre ++ more).length := by
    rw [List.length_append]
    omega
  have hlt : k < (pre ++ more').length := by
    rw [List.length_append]
    omega
  have hflight := hheld'.inFlight
  rw [hpast.initialSeq, hpk, List.drop_eq_getElem_cons hlt, numbered_cons, hside] at hflight
  change s'.unacked.map Unacked.segment = _ at hflight
  rw [hpumped.unacked] at hflight
  cases hm : m.unacked with
  | nil =>
    rw [hm, List.map_nil, List.nil_append] at hflight
    cases new with
    | nil => cases hflight
    | cons seg new =>
      rw [numbered_cons, List.cons.injEq, Prod.mk.injEq, hh.sendNext, hheld.sending.sendNext,
        h.initialSeq] at hflight
      have hsame := serial_inj (by omega) (by omega) hflight.1.1
      omega
  | cons v rest =>
    rw [hm, List.map_cons, List.cons_append, List.cons.injEq] at hflight
    have hseq : v.seq = serial isn (k + 1) := by
      rw [← serial_isn]
      exact congrArg Prod.fst hflight.1
    obtain ⟨j, hj, hj', hack⟩ := hcovers
    have hahead : seqLeq v.seq dg.fec.sndSourceAck.toUInt32 = true := by
      rw [hseq, hack, seqLeq_eq_leq]
      exact leq_serial isn hj (by omega)
    have hfirst := List.head?_dropWhile_not (fun u => seqLeq u.seq dg.fec.sndSourceAck.toUInt32)
      net.client.endpoint.unacked
    rw [← hh.unacked, hm] at hfirst
    simp only [List.head?_cons, hahead] at hfirst
    cases hfirst

/-- A run keeps the open consistent, and forgets neither segments nor datagrams. -/
theorem connected_run {acts : List NetAction} (h : Connected net)
    (hrun : run Network.step net acts = some net') :
    Connected net' ∧ net.client.sentSegments ≤ net'.client.sentSegments ∧
      net.server.emitted <+: net'.server.emitted := by
  refine run_invariant_of_step (fun n => Connected n ∧
    net.client.sentSegments ≤ n.client.sentSegments ∧
      net.server.emitted <+: n.server.emitted) ?_ ⟨h, Nat.le_refl _, List.prefix_rfl⟩ hrun
  rintro n a n' ⟨hconnected, hle, hprefix⟩ hstep
  have hmore := (sentSegments_step hconnected hstep).1
  exact ⟨connected_step hconnected hstep, hle.trans hmore,
    hprefix.trans (emitted_step hconnected hstep)⟩

/-- In every run the client holds the segments from its oldest on. -/
theorem exists_past {clientCfg serverCfg : Config} {acts : List NetAction}
    {u : Unacked} {rest : List Unacked} (hclient : clientCfg.mode = .reliable)
    (hserver : serverCfg.mode = .reliable)
    (hrun : run Network.step (.new clientCfg serverCfg) acts = some net)
    (hcount : net.client.sentSegments < 2 ^ 31) (hfront : net.client.endpoint.unacked = u :: rest) :
    ∃ isn before, Past isn (before ++ [u.payload]) before.length before.length net ∧
      u.seq = serial (isn + 1) before.length ∧
      net.client.enqueued = before.flatten ++
        ((net.client.endpoint.unacked.map Unacked.payload).flatten ++
          net.client.endpoint.outQueue) := by
  have hinv : Past clientCfg.initialSeq [] 0 0 net := by
    refine past_run ⟨connected_new hclient hserver, rfl, fun _ => ?_⟩ hrun
    exact ⟨[], 0, 0, Nat.le_refl 0, Nat.le_refl 0, held_new hclient⟩
  obtain ⟨segs, p, r, -, -, hheld⟩ := hinv.held hcount
  rw [List.nil_append] at hheld
  have hflight := hheld.inFlight
  have hlt : p < segs.length := by
    by_contra hge
    rw [List.drop_of_length_le (by omega), hfront] at hflight
    cases hflight
  have hpayloads : net.client.endpoint.unacked.map Unacked.payload = segs.drop p := by
    have hmap := congrArg (List.map Prod.snd) hflight
    rwa [map_snd_numbered, List.map_map] at hmap
  rw [hinv.initialSeq, hfront, List.drop_eq_getElem_cons hlt, List.map_cons, numbered_cons,
    List.cons.injEq] at hflight
  have hseq : u.seq = serial (clientCfg.initialSeq + 1) p := congrArg Prod.fst hflight.1
  have hpayload : u.payload = segs[p] := congrArg Prod.snd hflight.1
  have hlength : (segs.take p).length = p := List.length_take_of_le (by omega)
  have hsplit : segs = segs.take p ++ [u.payload] ++ segs.drop (p + 1) := by
    rw [hpayload, ← List.take_succ_eq_append_getElem hlt, List.take_append_drop]
  have hreleased := hheld.released
  refine ⟨clientCfg.initialSeq, segs.take p, ?_, by rw [hlength]; exact hseq, ?_⟩
  · refine ⟨hinv.connected, hinv.initialSeq, fun _ => ⟨segs.drop (p + 1), p, r, ?_, ?_, ?_⟩⟩
    · omega
    · omega
    · rw [← hsplit]
      exact hheld
  · rw [hpayloads, hheld.sending.enqueued, ← List.append_assoc, ← List.flatten_append,
      List.take_append_drop]

/-- Past a segment, it is neither in flight nor missing at the server. -/
theorem Past.progressed {before : List (List UInt8)}
    {u : Unacked} (hseq : u.seq = serial (isn + 1) before.length)
    (henqueued : net.client.enqueued = before.flatten ++
      ((net.client.endpoint.unacked.map Unacked.payload).flatten ++ net.client.endpoint.outQueue))
    (hcount : net'.client.sentSegments < 2 ^ 31)
    (h : Past isn (before ++ [u.payload]) (before.length + 1) (before.length + 1) net') :
    Progressed net net' u := by
  obtain ⟨more, p, r, hp, hr, hheld⟩ := h.held hcount
  rw [hheld.sending.sentSegments] at hcount
  refine ⟨fun v hv hsame => ?_, before.flatten, henqueued, ?_⟩
  · have hmem : v.segment ∈ net'.client.endpoint.unacked.map Unacked.segment :=
      List.mem_map_of_mem hv
    rw [hheld.inFlight, h.initialSeq] at hmem
    obtain ⟨i, hi, hget⟩ := mem_numbered.mp hmem
    have hlt := (List.getElem?_eq_some_iff.mp hget).1
    rw [List.length_drop] at hlt
    have hv' : v.seq = serial (isn + 1) (p + i) := by
      rw [← serial_add]
      exact hi
    rw [hv', hseq] at hsame
    have heq := serial_inj (by omega) (by omega) hsame
    omega
  · rw [hheld.tracks.delivered]
    have hlength : (before ++ [u.payload]).length = before.length + 1 := by simp
    have hsplit : before ++ [u.payload] <+: (before ++ [u.payload] ++ more).take r :=
      List.prefix_take_iff.mpr ⟨List.prefix_append _ _, by omega⟩
    obtain ⟨tail, htail⟩ := hsplit
    rw [← htail, List.flatten_append, List.flatten_append, List.flatten_singleton]
    exact List.prefix_append _ _

/-! ## The run of the exchange -/

/-- The tick sends the oldest segment first. -/
theorem tick_front {sent : Network} {u : Unacked} {rest : List Unacked}
    (h : Connected net) (hest : net.client.endpoint.state = .established)
    (hfront : net.client.endpoint.unacked = u :: rest)
    (hdue : net.client.endpoint.cfg.rtoMs ≤ nowMs - u.lastSentMs)
    (hstep : net.step ⟨.client, nowMs, .tick⟩ = some sent) :
    ∃ dg more, Datagram.decode dg.bytes = .ok dg ∧ dg.syn = none ∧
      dg.source = some ⟨⟨u.seq, u.seq⟩, u.payload⟩ ∧
      sent.client.emitted = net.client.emitted ++ dg.bytes :: more ∧ sent.server = net.server := by
  obtain ⟨-, -, ⟨-, hcall, hkeep⟩ | ⟨hrole, -, -⟩⟩ := step_some hstep
  swap
  · cases hrole
  obtain ⟨⟨s', out'⟩, hpump, hside⟩ := Option.map_eq_some_iff.mp hcall
  have hv := ackVector_wellFormed net.client.endpoint
  obtain ⟨more, hmore⟩ := pump_front h.clientMode hest hfront hdue hpump
  refine ⟨net.client.endpoint.dataDatagram u.seq u.payload net.client.endpoint.ackVector, more,
    Datagram.decode_ofData _ _ _ hv.1 hv.2, rfl, rfl, ?_, hkeep⟩
  rw [← hside, Side.absorb, hmore, List.nil_append]

/-- Once the server has the oldest segment, the client's receipts release it. -/
theorem past_replies {k i sent : ℕ} {bytes : List UInt8}
    (h : Past isn pre k (k + 1) net) (hpre : pre.length = k + 1) (hsent : sent ≤ i)
    (hget : net.server.emitted[i]? = some bytes) (hdecode : Datagram.decode bytes = .ok dg)
    (hcovers : Covers isn (k + 1) dg) (hcount : net'.client.sentSegments < 2 ^ 31)
    (hrun : run Network.step net (receipts .client nowMs sent net.server) = some net') :
    Past isn pre (k + 1) (k + 1) net' := by
  have hlt : i < net.server.emitted.length := (List.getElem?_eq_some_iff.mp hget).1
  have hmem : (⟨.client, nowMs, .receive i⟩ : NetAction) ∈
      receipts .client nowMs sent net.server :=
    List.mem_map_of_mem (List.mem_range'_1.mpr ⟨hsent, by omega⟩)
  obtain ⟨first, last, hacts⟩ := List.append_of_mem hmem
  rw [hacts, run_append] at hrun
  obtain ⟨before, hfirst, hrun⟩ := Option.bind_eq_some_iff.mp hrun
  obtain ⟨after, hstep, hlast⟩ := run_cons_some.mp hrun
  -- The server is as it was, so the datagram is the same.
  have hserver : before.server = net.server := by
    have hclient : Meets Network.step (fun _ a => a.role = .client) net first := by
      refine meets_of_forall (fun a ha => ?_) net
      have hall : a ∈ receipts .client nowMs sent net.server := by
        rw [hacts]
        exact List.mem_append_left _ ha
      obtain ⟨index, rfl, -, -⟩ := mem_receipts hall
      rfl
    refine run_invariant (fun n => n.server = net.server) (fun n a n' hn ha hs => ?_) rfl hclient
      hfirst
    have hkept := peerOf_step hs
    rw [ha] at hkept
    exact hkept.trans hn
  have hin : before.server.inbound (.receive i) = some dg := by
    rw [hserver, Side.inbound, hget, Option.bind_some, hdecode]
    rfl
  have hbefore := past_run h hfirst
  have hle := (connected_run (connected_step hbefore.connected hstep) hlast).2.1
  exact past_run (past_reply hbefore hpre hin hcovers (by omega) hstep) hlast

/-! ## A peer that sends many segments -/

variable {s : RdpeudpState}

/-- Segments that are not due are left alone. -/
theorem retransmitData_idle (v : AckVectorHeader)
    {entries : List Unacked} (out : StepOutput) (sent : Bool)
    (hdue : ∀ u ∈ entries, ¬ s.cfg.rtoMs ≤ nowMs - u.lastSentMs) :
    s.retransmitData nowMs v entries out sent = some (entries, out, sent) := by
  induction entries with
  | nil => rfl
  | cons entry rest ih =>
    have hrest := ih fun u hu => hdue u (List.mem_cons_of_mem _ hu)
    rw [retransmitData, if_neg (hdue entry List.mem_cons_self), hrest]
    rfl

/-- An established endpoint sends one byte at once if its window has room. -/
theorem enqueue_byte (b : UInt8)
    (hmode : s.cfg.mode = .reliable) (hest : s.state = .established) (hqueue : s.outQueue = [])
    (hdue : ∀ u ∈ s.unacked, ¬ s.cfg.rtoMs ≤ nowMs - u.lastSentMs)
    (hroom : s.unacked.length < s.peerRecvWindow.toNat) (hv : s.ackVector.bytes.length ≤ 80) :
    s.enqueue nowMs [b] = some ({ s with
        sendNext := s.sendNext + 1
        unacked := s.unacked ++ [⟨s.sendNext, [b], nowMs⟩]
        needAck := false },
      { toSend := [(s.dataDatagram s.sendNext [b] s.ackVector).bytes] }) := by
  have hopen : { s with outQueue := [b] }.isEstablished = true := by
    rw [isEstablished, hest]
    rfl
  have hsyn : { s with outQueue := [b] }.retransmitSyn nowMs {} =
      some ({ s with outQueue := [b] }, {}) := by
    rw [retransmitSyn, if_neg]
    rintro ⟨hstate, -⟩
    rw [hest] at hstate
    cases hstate
  have hidle := retransmitData_idle (s := { s with outQueue := [b] }) s.ackVector {} false hdue
  have hcapacity : (s.dataDatagram s.sendNext [b] s.ackVector).encodeCapacity = 97 := rfl
  have hpush : push {} (s.dataDatagram s.sendNext [b] s.ackVector) =
      some { toSend := [(s.dataDatagram s.sendNext [b] s.ackVector).bytes] } := by
    rw [push_eq, length_data, hcapacity, if_pos (by rw [List.length_singleton]; omega)]
    rfl
  have hpos : 1 ≤ s.maxPayload := Nat.le_max_right _ 1
  have htake : [b].take s.maxPayload = [b] := List.take_of_length_le hpos
  have hdrop : [b].drop s.maxPayload = [] := List.drop_of_length_le hpos
  have hvector : { s with outQueue := [b] }.ackVector = s.ackVector := rfl
  have hmax : { s with outQueue := [b] }.maxPayload = s.maxPayload := rfl
  have hdatagram : { s with outQueue := [b] }.dataDatagram s.sendNext [b] s.ackVector =
      s.dataDatagram s.sendNext [b] s.ackVector := rfl
  have hnonempty : [b] ≠ ([] : List UInt8) := List.cons_ne_nil _ _
  simp only [enqueue, hqueue, List.nil_append, pump, hsyn, hopen, Option.bind_eq_bind,
    Option.bind_some, if_true, hvector, hidle, List.length_singleton, sendNew, hnonempty, hroom,
    ne_eq, not_false_eq_true, and_self, sendSegment, hmode, reduceCtorEq, false_and, if_false,
    hmax, htake, hdrop, hdatagram, hpush, Option.pure_def, sendAck, Bool.not_true, Bool.and_false,
    Bool.false_eq_true, Bool.true_or]

/-- An established endpoint with nothing to send acknowledges what it owes. -/
theorem pump_ack (out : StepOutput)
    (hest : s.state = .established) (hqueue : s.outQueue = []) (howed : s.needAck = true)
    (hdue : ∀ u ∈ s.unacked, ¬ s.cfg.rtoMs ≤ nowMs - u.lastSentMs)
    (hv : s.ackVector.bytes.length ≤ 88) :
    ∃ out', s.pump nowMs out = some ({ s with needAck := false }, out') := by
  have hopen : s.isEstablished = true := by
    rw [isEstablished, hest]
    rfl
  have hsyn : s.retransmitSyn nowMs out = some (s, out) := by
    rw [retransmitSyn, if_neg]
    rintro ⟨hstate, -⟩
    rw [hest] at hstate
    cases hstate
  have hidle := retransmitData_idle s.ackVector out false hdue
  have hempty : s.outQueue.length = 0 := by
    rw [hqueue]
    rfl
  have hcapacity : (s.ackDatagram s.ackVector).encodeCapacity = 96 := rfl
  have hpush : push out (s.ackDatagram s.ackVector) =
      some { out with toSend := out.toSend ++ [(s.ackDatagram s.ackVector).bytes] } := by
    rw [push_eq, length_ack, hcapacity, if_pos (by omega)]
  have hlast : s.sendAck s.ackVector out false = some ({ s with needAck := false },
      { out with toSend := out.toSend ++ [(s.ackDatagram s.ackVector).bytes] }) := by
    simp only [sendAck, howed, Bool.not_false, Bool.and_self, if_true, hpush, Option.bind_eq_bind,
      Option.bind_some, Option.pure_def, Bool.or_true]
  refine ⟨{ out with toSend := out.toSend ++ [(s.ackDatagram s.ackVector).bytes] }, ?_⟩
  simp only [pump, hsyn, hopen, Option.bind_eq_bind, Option.bind_some, if_true, hidle, hempty,
    sendNew]
  exact hlast

/-- An established endpoint with nothing to send takes the next segment in and acknowledges it. -/
theorem receive_next {bytes : List UInt8}
    {src : SourcePacket} (hmode : s.cfg.mode = .reliable) (hest : s.state = .established)
    (hqueue : s.outQueue = []) (hknown : s.havePeerSeq = true) (hreorder : s.reorder = ∅)
    (hdue : ∀ u ∈ s.unacked, ¬ s.cfg.rtoMs ≤ nowMs - u.lastSentMs)
    (hdecode : Datagram.decode bytes = .ok dg) (hsyn : dg.syn = none)
    (hsrc : dg.source = some src) (hseq : src.header.snSourceStart = s.recvNext)
    (hkept : (s.unacked.dropWhile fun u => seqLeq u.seq dg.fec.sndSourceAck.toUInt32) = s.unacked)
    (hv : { s with recvNext := s.recvNext + 1 }.ackVector.bytes.length ≤ 88) :
    ∃ out, s.step nowMs (some bytes) = some ({ s with
        peerRecvWindow := max dg.fec.recvWindow 1
        recvNext := s.recvNext + 1
        needAck := false }, out) := by
  have hnone : s.reorder.entries.length = 0 := by
    rw [hreorder]
    rfl
  have hhandle : s.handle dg {} = some ({ s with
      peerRecvWindow := max dg.fec.recvWindow 1
      recvNext := s.recvNext + 1
      needAck := true }, { delivered := [src.payload] }) := by
    simp only [handle, hsyn, Option.bind_eq_bind, Option.bind_some, recvSection, hsrc, processAck,
      hkept, recvSource, adoptSeq, hknown, if_true, hmode, reduceCtorEq, if_false, placeSegment,
      hseq, hnone, drainReorder, Option.pure_def, List.nil_append]
  obtain ⟨out, hpump⟩ := pump_ack (s := { s with
    peerRecvWindow := max dg.fec.recvWindow 1
    recvNext := s.recvNext + 1
    needAck := true }) { delivered := [src.payload] } hest hqueue rfl hdue hv
  refine ⟨out, ?_⟩
  simp only [RdpeudpState.step, hdecode, hhandle, Option.bind_eq_bind, Option.bind_some]
  exact hpump

/-- The window of a client that takes in any number of datagrams. -/
def floodedConfig : Config := { recvWindow := 65535 }

/-- A server that has sent `n` segments of a byte each, and has received nothing. -/
structure FloodedServer (n : ℕ) (side : Side) : Prop where
  cfg : side.endpoint.cfg = {}
  opened : side.endpoint.state = .established
  outQueue : side.endpoint.outQueue = []
  room : side.endpoint.peerRecvWindow = 65535
  known : side.endpoint.havePeerSeq = true
  recvNext : side.endpoint.recvNext = 1
  peerIsn : side.endpoint.peerIsn = 0
  inFlight : side.endpoint.unacked.length = n
  recent : ∀ u ∈ side.endpoint.unacked, u.lastSentMs = 0
  sendNext : side.endpoint.sendNext = serial 1 n
  emitted : side.emitted.length = n + 1
  sent : side.sentSegments = n

instance (n : ℕ) (side : Side) : Decidable (FloodedServer n side) :=
  decidable_of_iff (side.endpoint.cfg = {} ∧ side.endpoint.state = .established ∧
    side.endpoint.outQueue = [] ∧ side.endpoint.peerRecvWindow = 65535 ∧
    side.endpoint.havePeerSeq = true ∧ side.endpoint.recvNext = 1 ∧ side.endpoint.peerIsn = 0 ∧
    side.endpoint.unacked.length = n ∧ (∀ u ∈ side.endpoint.unacked, u.lastSentMs = 0) ∧
    side.endpoint.sendNext = serial 1 n ∧ side.emitted.length = n + 1 ∧ side.sentSegments = n)
    ⟨fun ⟨a, b, c, d, e, f, g, h, i, j, k, l⟩ => ⟨a, b, c, d, e, f, g, h, i, j, k, l⟩,
      fun ⟨a, b, c, d, e, f, g, h, i, j, k, l⟩ => ⟨a, b, c, d, e, f, g, h, i, j, k, l⟩⟩

/-- A client that has received `n` segments, and has sent one that is not acknowledged. -/
structure FloodedClient (n : ℕ) (side : Side) : Prop where
  cfg : side.endpoint.cfg = floodedConfig
  opened : side.endpoint.state = .established
  outQueue : side.endpoint.outQueue = []
  known : side.endpoint.havePeerSeq = true
  peerIsn : side.endpoint.peerIsn = 0
  recvNext : side.endpoint.recvNext = serial 1 n
  reorder : side.endpoint.reorder = ∅
  unacked : side.endpoint.unacked = [⟨1, [0], 0⟩]
  sent : side.sentSegments = 1

instance (n : ℕ) (side : Side) : Decidable (FloodedClient n side) :=
  decidable_of_iff (side.endpoint.cfg = floodedConfig ∧ side.endpoint.state = .established ∧
    side.endpoint.outQueue = [] ∧ side.endpoint.havePeerSeq = true ∧ side.endpoint.peerIsn = 0 ∧
    side.endpoint.recvNext = serial 1 n ∧ side.endpoint.reorder.entries = [] ∧
    side.endpoint.unacked = [⟨1, [0], 0⟩] ∧ side.sentSegments = 1)
    ⟨fun ⟨a, b, c, d, e, f, g, h, i⟩ => ⟨a, b, c, d, e, f, AList.ext g, h, i⟩,
      fun ⟨a, b, c, d, e, f, g, h, i⟩ => ⟨a, b, c, d, e, f, congrArg AList.entries g, h, i⟩⟩

/-- The server has sent `n` segments, which the client has. -/
structure Flooded (n : ℕ) (net : Network) : Prop where
  clock : net.clock = 0
  server : FloodedServer n net.server
  client : FloodedClient n net.client

/-- The open, and the segment of the client that is lost. -/
def floodedOpen : List NetAction :=
  [⟨.client, 0, .start⟩, ⟨.server, 0, .receive 0⟩, ⟨.client, 0, .receive 0⟩,
    ⟨.client, 0, .enqueue [0]⟩]

/-- The server sends a byte, and the client receives it. -/
def floodedRound (n : ℕ) : List NetAction :=
  [⟨.server, 0, .enqueue [0]⟩, ⟨.client, 0, .receive (n + 1)⟩]

instance (n : ℕ) (net : Network) : Decidable (Flooded n net) :=
  decidable_of_iff (net.clock = 0 ∧ FloodedServer n net.server ∧ FloodedClient n net.client)
    ⟨fun h => ⟨h.1, h.2.1, h.2.2⟩, fun h => ⟨h.clock, h.server, h.client⟩⟩

/-- After the open nothing was sent by the server. -/
theorem flooded_open :
    ∃ net, run Network.step (.new floodedConfig {}) floodedOpen = some net ∧ Flooded 0 net := by
  have hopen : (run Network.step (.new floodedConfig {}) floodedOpen).any
      (fun net => decide (Flooded 0 net)) = true := by decide +kernel
  obtain ⟨net, hrun, hflooded⟩ := (Option.any_eq_true _ _).mp hopen
  exact ⟨net, hrun, of_decide_eq_true hflooded⟩

variable {n : ℕ}

/-- The run of the client after `n` segments. -/
theorem receivedRun_flooded (hn : n < 2 ^ 16)
    (hcfg : s.cfg = floodedConfig) (hknown : s.havePeerSeq = true) (hpeer : s.peerIsn = 0)
    (hnext : s.recvNext = serial 1 n) : receivedRun s = n := by
  have hwindow : s.cfg.recvWindow.toNat = 65535 := by rw [hcfg]; rfl
  have hdistance : (s.recvNext - s.peerIsn).toNat = n + 1 := by
    rw [hnext, hpeer]
    have hsub := serial_sub 0 (Nat.zero_le (n + 1))
    rw [← serial_isn, serial_zero] at hsub
    have hone : (0 : UInt32) + 1 = 1 := rfl
    rw [hone] at hsub
    omega
  rw [receivedRun, if_pos hknown, hdistance, hwindow]
  omega

/-- The vector of the client after `n` segments. -/
theorem length_flooded (hn : n < 2 ^ 16)
    (hcfg : s.cfg = floodedConfig) (hknown : s.havePeerSeq = true) (hpeer : s.peerIsn = 0)
    (hnext : s.recvNext = serial 1 n) : s.ackVector.bytes.length = vectorSize n := by
  rw [length_ackVector, receivedRun_flooded hn hcfg hknown hpeer hnext]

/-- A vector of up to 86 elements fits an acknowledgment. -/
theorem vectorSize_le (hn : n ≤ 5418) : vectorSize n ≤ 88 := by
  rw [vectorSize, AckVectorHeader.paddedLen, AckVectorHeader.fixedPartSize]
  omega

/-- One round more. -/
theorem flooded_step (hn : n < 5418) (h : Flooded n net) :
    ∃ net', run Network.step net (floodedRound n) = some net' ∧ Flooded (n + 1) net' := by
  -- The server has received nothing, so its vector is empty.
  have hempty : net.server.endpoint.ackVector = ⟨[]⟩ := by
    simp only [ackVector, h.server.known, if_true, h.server.recvNext, h.server.peerIsn]
    rfl
  have hnothing : ¬ (300 : UInt64) ≤ 0 - 0 := by decide
  have hserverDue : ∀ u ∈ net.server.endpoint.unacked,
      ¬ net.server.endpoint.cfg.rtoMs ≤ 0 - u.lastSentMs := by
    intro u hu
    rw [h.server.cfg, h.server.recent u hu]
    exact hnothing
  have hclientDue : ∀ u ∈ net.client.endpoint.unacked,
      ¬ net.client.endpoint.cfg.rtoMs ≤ 0 - u.lastSentMs := by
    intro u hu
    rw [h.client.unacked, List.mem_singleton] at hu
    rw [h.client.cfg, hu]
    exact hnothing
  have henqueue := enqueue_byte 0 (by rw [h.server.cfg]) h.server.opened h.server.outQueue
    hserverDue (by rw [h.server.inFlight, h.server.room]; show n < 65535; omega)
    (by rw [hempty]; decide)
  obtain ⟨dg, hdg⟩ : ∃ dg, dg = net.server.endpoint.dataDatagram net.server.endpoint.sendNext [0]
      net.server.endpoint.ackVector := ⟨_, rfl⟩
  rw [← hdg] at henqueue
  have hv := ackVector_wellFormed net.server.endpoint
  have hdecode : Datagram.decode dg.bytes = .ok dg := by
    rw [hdg]
    exact Datagram.decode_ofData _ _ _ hv.1 hv.2
  have hack : dg.fec.sndSourceAck.toUInt32 = 0 := by
    rw [hdg]
    change net.server.endpoint.ackNum.toUInt32 = 0
    rw [RdpeudpState.ackNum, if_pos h.server.known, h.server.recvNext]
    rfl
  have hnext : net.client.endpoint.recvNext + 1 = serial 1 (n + 1) := by
    rw [h.client.recvNext, serial_succ]
  have hsize : { net.client.endpoint with
      recvNext := net.client.endpoint.recvNext + 1 }.ackVector.bytes.length ≤ 88 := by
    have hlength := length_flooded (s := { net.client.endpoint with
      recvNext := net.client.endpoint.recvNext + 1 }) (n := n + 1) (by omega) h.client.cfg
      h.client.known h.client.peerIsn hnext
    rw [hlength]
    exact vectorSize_le (by omega)
  have hsource : dg.source = some
      ⟨⟨net.server.endpoint.sendNext, net.server.endpoint.sendNext⟩, [0]⟩ := by
    rw [hdg]
    rfl
  obtain ⟨out, hreceive⟩ := receive_next (by rw [h.client.cfg]; rfl) h.client.opened
    h.client.outQueue h.client.known h.client.reorder hclientDue hdecode (by rw [hdg]; rfl)
    hsource (by rw [h.server.sendNext, h.client.recvNext]) (by rw [h.client.unacked, hack]; rfl)
    hsize
  have hone : (net.server.endpoint.sendNext + 1 - net.server.endpoint.sendNext).toNat = 1 := by
    have hsub := serial_sub net.server.endpoint.sendNext (Nat.zero_le 1)
    rw [serial_zero, ← serial_succ, serial_zero] at hsub
    exact hsub
  have hfirst : net.step ⟨.server, 0, .enqueue [0]⟩ = some { net with
      server := net.server.absorb [0] ({ net.server.endpoint with
        sendNext := net.server.endpoint.sendNext + 1
        unacked := net.server.endpoint.unacked ++ [⟨net.server.endpoint.sendNext, [0], 0⟩]
        needAck := false }, { toSend := [dg.bytes] })
      clock := 0 } := by
    rw [Network.step, h.clock, if_neg (by decide)]
    simp only [Side.call, henqueue, Option.map_some]
  have hget : (net.server.emitted ++ [dg.bytes])[n + 1]? = some dg.bytes := by
    rw [← h.server.emitted, List.getElem?_append_right (Nat.le_refl _), Nat.sub_self]
    rfl
  refine ⟨{
    client := net.client.absorb [] ({ net.client.endpoint with
      peerRecvWindow := max dg.fec.recvWindow 1
      recvNext := net.client.endpoint.recvNext + 1
      needAck := false }, out)
    server := net.server.absorb [0] ({ net.server.endpoint with
      sendNext := net.server.endpoint.sendNext + 1
      unacked := net.server.endpoint.unacked ++ [⟨net.server.endpoint.sendNext, [0], 0⟩]
      needAck := false }, { toSend := [dg.bytes] })
    clock := 0 }, ?_, ?_⟩
  · rw [floodedRound, run, hfirst, Option.bind_some, run, Network.step,
      if_neg (UInt64.lt_irrefl 0)]
    simp only [Side.call, Side.absorb, hget, Option.bind_some, hreceive, Option.map_some, run]
  · refine ⟨rfl, ?_, ?_⟩
    · refine ⟨h.server.cfg, h.server.opened, h.server.outQueue, h.server.room, h.server.known,
        h.server.recvNext, h.server.peerIsn, ?_, ?_, ?_, ?_, ?_⟩
      · simp only [Side.absorb, List.length_append, List.length_singleton, h.server.inFlight]
      · intro u hu
        rcases List.mem_append.mp hu with hold | hnew
        · exact h.server.recent u hold
        · rw [List.mem_singleton.mp hnew]
      · simp only [Side.absorb, h.server.sendNext, serial_succ]
      · simp only [Side.absorb, List.length_append, List.length_singleton, h.server.emitted]
      · simp only [Side.absorb, hone, h.server.sent]
    · refine ⟨h.client.cfg, h.client.opened, h.client.outQueue, h.client.known, h.client.peerIsn,
        hnext, h.client.reorder, h.client.unacked, ?_⟩
      simp only [Side.absorb, h.client.sent, UInt32.sub_self]
      rfl

/-- Any number of rounds. -/
theorem flooded_run (hn : n ≤ 5418) :
    ∃ acts net, run Network.step (.new floodedConfig {}) acts = some net ∧ Flooded n net := by
  induction n with
  | zero => exact ⟨floodedOpen, flooded_open⟩
  | succ n ih =>
    obtain ⟨acts, net, hrun, hflooded⟩ := ih (by omega)
    obtain ⟨net', hround, hflooded'⟩ := flooded_step (by omega) hflooded
    refine ⟨acts ++ floodedRound n, net', ?_, hflooded'⟩
    rw [run_append, hrun, Option.bind_some, hround]

/-- The vector of 4915 segments does not fit beside the segment that is due. -/
theorem flooded_panics (h : Flooded 4915 net) : exchange net 300 = none := by
  have hrun : receivedRun net.client.endpoint = 4915 :=
    receivedRun_flooded (by decide) h.client.cfg h.client.known h.client.peerIsn h.client.recvNext
  have hdue : payloads net.client.endpoint 300 ≠ [] := by
    refine List.ne_nil_of_mem (a := 1) (List.mem_append_left _ ?_)
    rw [h.client.unacked, h.client.cfg]
    decide
  have hencodes : callEncodes net ⟨.client, 300, .tick⟩ = false := by
    have hopen : net.client.endpoint.isEstablished = true := by
      rw [isEstablished, h.client.opened]
      rfl
    change pumpEncodes net.client.endpoint 300 = false
    rw [pumpEncodes, hopen, if_neg hdue, hrun]
    rfl
  have htick : net.step ⟨.client, 300, .tick⟩ = none := by
    have htime : net.clock ≤ (300 : UInt64) := by
      rw [h.clock]
      decide
    have hiff := step_isSome_iff (a := ⟨.client, 300, .tick⟩) htime fun i hi => by cases hi
    rw [hencodes] at hiff
    exact Option.not_isSome_iff_eq_none.mp fun hsome => Bool.false_ne_true (hiff.mp hsome)
  rw [exchange, htick, Option.bind_none]

/-! ## The oldest segment -/

/-- One exchange releases and delivers the oldest segment, in every run: exactly if the vectors
fit at its calls. -/
theorem progress_iff {clientCfg serverCfg : Config} {acts : List NetAction} {net : Network}
    {u : Unacked} {rest : List Unacked} {nowMs : UInt64} (hclient : clientCfg.mode = .reliable)
    (hserver : serverCfg.mode = .reliable)
    (hrun : run Network.step (.new clientCfg serverCfg) acts = some net)
    (hclientOpen : net.client.endpoint.state = .established)
    (hserverOpen : net.server.endpoint.state = .established)
    (hfront : net.client.endpoint.unacked = u :: rest) (htime : net.clock ≤ nowMs)
    (hdue : u.lastSentMs.toNat + net.client.endpoint.cfg.rtoMs.toNat ≤ nowMs.toNat)
    (hcount : ∀ net', exchange net nowMs = some net' → net'.client.sentSegments < 2 ^ 31) :
    (∃ net', exchange net nowMs = some net' ∧ Progressed net net' u) ↔
      exchangeEncodes net nowMs = true := by
  rw [← exchange_isSome_iff htime, Option.isSome_iff_exists]
  refine ⟨fun h => h.imp fun _ h' => h'.1, fun h => h.imp fun net' hexchange => ?_⟩
  refine ⟨hexchange, ?_⟩
  have hend := hcount net' hexchange
  obtain ⟨sent, hsent, hrest⟩ := Option.bind_eq_some_iff.mp hexchange
  obtain ⟨replied, hreplied, hlast⟩ := Option.bind_eq_some_iff.mp hrest
  have hconnected : Connected net := (connected_run (connected_new hclient hserver) hrun).1
  have hconnected₁ := connected_step hconnected hsent
  have hconnected₂ := connected_run hconnected₁ hreplied
  have hconnected₃ := connected_run hconnected₂.1 hlast
  have hle := (sentSegments_step hconnected hsent).1
  obtain ⟨isn, before, hpast, hseq, henqueued⟩ :=
    exists_past hclient hserver hrun (by omega) hfront
  have hdue' : net.client.endpoint.cfg.rtoMs ≤ nowMs - u.lastSentMs := by
    have hlast : u.lastSentMs ≤ nowMs := UInt64.le_iff_toNat_le.mpr (by omega)
    rw [UInt64.le_iff_toNat_le, UInt64.toNat_sub_of_le _ _ hlast]
    omega
  obtain ⟨dg, more, hdecode, hsyn, hsource, hemitted, hserverKept⟩ :=
    tick_front hconnected hclientOpen hfront hdue' hsent
  -- The server takes the oldest segment in first.
  have hrequests : receipts .server nowMs net.client.emitted.length sent.client =
      ⟨.server, nowMs, .receive net.client.emitted.length⟩ ::
        receipts .server nowMs (net.client.emitted.length + 1) sent.client := by
    have hlength : sent.client.emitted.length =
        net.client.emitted.length + 1 + more.length := by
      rw [hemitted, List.length_append, List.length_cons]
      omega
    rw [receipts, receipts, hlength, Nat.add_sub_cancel_left, Nat.add_assoc,
      Nat.add_sub_cancel_left, Nat.add_comm 1, List.range'_succ, List.map_cons]
  rw [hrequests] at hreplied
  obtain ⟨first, hfirst, hothers⟩ := run_cons_some.mp hreplied
  have hin : sent.client.inbound (.receive net.client.emitted.length) = some dg := by
    rw [Side.inbound, hemitted, List.getElem?_append_right (Nat.le_refl _), Nat.sub_self,
      List.getElem?_cons_zero, Option.bind_some, hdecode]
    rfl
  have hothers' := connected_run (connected_step hconnected₁ hfirst) hothers
  obtain ⟨hpast₁, i, bytes, dg', hnew, hget, hdecode', hcovers⟩ :=
    past_request (past_step hpast hsent) (by rw [hserverKept]; exact hserverOpen) hin hsyn hsource
      hseq (by omega) hfirst
  rw [hserverKept] at hnew
  obtain ⟨tail, htail⟩ := hothers'.2.2
  have hget' : replied.server.emitted[i]? = some bytes := by
    rw [← htail, List.getElem?_append_left (List.getElem?_eq_some_iff.mp hget).1]
    exact hget
  refine Past.progressed hseq henqueued hend ?_
  exact past_replies (past_run hpast₁ hothers) (by simp) hnew hget' hdecode' hcovers hend hlast

/-- The first copy of the segment is lost, the exchange releases it. -/
theorem progress_iff_lost :
    ∃ net net' u, run Network.step (.new {} {})
        [⟨.client, 0, .start⟩, ⟨.server, 5, .receive 0⟩, ⟨.client, 10, .receive 0⟩,
          ⟨.client, 10, .enqueue [42]⟩] = some net ∧
      net.client.endpoint.unacked = [u] ∧ exchange net 310 = some net' ∧ Progressed net net' u := by
  have hresult : (run Network.step (.new {} {})
      [⟨.client, 0, .start⟩, ⟨.server, 5, .receive 0⟩, ⟨.client, 10, .receive 0⟩,
        ⟨.client, 10, .enqueue [42]⟩]).any (fun net =>
      decide (net.client.endpoint.state = .established ∧
        net.server.endpoint.state = .established ∧
        net.client.endpoint.unacked = [⟨1, [42], 10⟩] ∧ net.clock = 10 ∧
        net.client.endpoint.cfg.rtoMs = 300 ∧ exchangeEncodes net 310 = true ∧
        (exchange net 310).all fun net' => decide (net'.client.sentSegments < 2 ^ 31))) =
      true := by
    decide +kernel
  obtain ⟨net, hrun, hfacts⟩ := (Option.any_eq_true _ _).mp hresult
  obtain ⟨hclient, hserver, hfront, hclock, hrto, hencodes, hcount⟩ := of_decide_eq_true hfacts
  have hsmall : ∀ net', exchange net 310 = some net' → net'.client.sentSegments < 2 ^ 31 := by
    intro net' hexchange
    rw [hexchange, Option.all_some] at hcount
    exact of_decide_eq_true hcount
  obtain ⟨net', hexchange, hprogressed⟩ :=
    (progress_iff rfl rfl hrun hclient hserver hfront (by rw [hclock]; decide)
      (by rw [hrto]; decide) hsmall).mpr hencodes
  exact ⟨net, net', ⟨1, [42], 10⟩, hrun, hfront, hexchange, hprogressed⟩

/-- The server sends 4915 segments, which the client acknowledges, before the first segment of the
client is due: the vector does not fit beside it. -/
theorem not_progress_flooded :
    ¬∀ (clientCfg serverCfg : Config) (acts : List NetAction) (net : Network) (u : Unacked)
      (rest : List Unacked) (nowMs : UInt64), clientCfg.mode = .reliable →
      serverCfg.mode = .reliable →
      run Network.step (.new clientCfg serverCfg) acts = some net →
      net.client.endpoint.state = .established → net.server.endpoint.state = .established →
      net.client.endpoint.unacked = u :: rest → net.clock ≤ nowMs →
      u.lastSentMs.toNat + net.client.endpoint.cfg.rtoMs.toNat ≤ nowMs.toNat →
      net.client.sentSegments < 2 ^ 31 → net.server.sentSegments < 2 ^ 31 →
      ∃ net', exchange net nowMs = some net' ∧ Progressed net net' u := by
  intro h
  obtain ⟨acts, net, hrun, hflooded⟩ := flooded_run (n := 4915) (by decide)
  obtain ⟨net', hexchange, -⟩ := h floodedConfig {} acts net ⟨1, [0], 0⟩ [] 300 rfl rfl hrun
    hflooded.client.opened hflooded.server.opened hflooded.client.unacked
    (by rw [hflooded.clock]; decide) (by rw [hflooded.client.cfg]; decide)
    (by rw [hflooded.client.sent]; decide) (by rw [hflooded.server.sent]; decide)
  rw [flooded_panics hflooded] at hexchange
  cases hexchange

end Macrdp.RdpeudpProgress
