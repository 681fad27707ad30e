import Mathlib.Data.List.TakeWhile
import Macrdp.RdpeudpStream

/-!
# What an endpoint releases

A sender holds every segment from some point on, and its peer has received all
segments before that point: acknowledgments name segments that were received.
The one exception is the acknowledgment number `-1` of a SYN that was sent before
anything was received. In wrapping comparison it may lie ahead of segments in
flight, which it then releases although the peer has none of them.
-/

namespace Macrdp.RdpeudpRelease

open StepSystem RdpeudpDatagram RdpeudpEndpoint RdpeudpPump RdpeudpReceive RdpeudpNetwork
  RdpeudpStream SerialNumber

/-- Every byte a side was given is with its peer or held: the bytes it no longer
holds are a prefix of what the peer handed up. -/
def NoLoss (sender receiver : Side) : Prop :=
  ∃ released, sender.enqueued =
      released ++ ((sender.endpoint.unacked.map Unacked.payload).flatten ++
        sender.endpoint.outQueue) ∧
    released <+: receiver.delivered

/-- An acknowledgment of segments that were received, or the number of a SYN that
was sent before the numbering was known. -/
def Acknowledges (receiver : Side) (isn : UInt32) (r : ℕ) (dg : Datagram) : Prop :=
  (∃ j, j ≤ r ∧ dg.fec.sndSourceAck.toUInt32 = serial isn j) ∨
    (receiver.endpoint.role = .client ∧ dg.syn.isSome = true ∧ dg.fec.sndSourceAck = -1)

/-- The sender holds its segments from position `a` on; the receiver has handed up
the first `r` of them and acknowledged no others. -/
structure Held (sender receiver : Side) (segs : List (List UInt8)) (a r : ℕ) : Prop where
  sending : Sending sender segs
  tracks : Tracks (sender.endpoint.cfg.initialSeq + 1) segs receiver.endpoint
    receiver.delivered r
  inFlight : sender.endpoint.unacked.map Unacked.segment =
    numbered (serial (sender.endpoint.cfg.initialSeq + 1) a) (segs.drop a)
  /-- Nothing is released that was not received. -/
  released : a ≤ r
  acks : ∀ bytes ∈ receiver.emitted, ∀ dg, Datagram.decode bytes = .ok dg →
    Acknowledges receiver sender.endpoint.cfg.initialSeq r dg
  /-- An established receiver has learned the numbering from the SYN. -/
  learned : receiver.endpoint.state = .established → receiver.endpoint.havePeerSeq = true ∧
    receiver.endpoint.peerIsn = sender.endpoint.cfg.initialSeq

variable {sender receiver : Side} {segs : List (List UInt8)} {a r : ℕ}

/-- What is held and what was handed up cover what was given. -/
theorem Held.noLoss (h : Held sender receiver segs a r) : NoLoss sender receiver := by
  have hpayloads : sender.endpoint.unacked.map Unacked.payload = segs.drop a := by
    have hmap := congrArg (List.map Prod.snd) h.inFlight
    rwa [map_snd_numbered, List.map_map] at hmap
  refine ⟨(segs.take a).flatten, ?_, ?_⟩
  · rw [hpayloads, h.sending.enqueued, ← List.append_assoc, ← List.flatten_append,
      List.take_append_drop]
  · rw [h.tracks.delivered]
    have hsplit : segs.take r = segs.take a ++ (segs.take r).drop a := by
      conv_lhs => rw [← List.take_append_drop a (segs.take r), List.take_take,
        Nat.min_eq_left h.released]
    rw [hsplit, List.flatten_append]
    exact List.prefix_append _ _

/-- New sides hold everything. -/
theorem held_new {role role' : Role} {cfg cfg' : Config} (hmode : cfg.mode = .reliable) :
    Held (.new role cfg) (.new role' cfg') [] 0 0 where
  sending := sending_new hmode
  tracks := by constructor <;> simp [Side.new, RdpeudpState.new]
  inFlight := rfl
  released := Nat.le_refl 0
  acks := by simp [Side.new]
  learned := by cases role' <;> simp [Side.new, RdpeudpState.new]

/-- The number of the last of `r` segments follows that of the SYN by `r`. -/
theorem serial_isn (isn : UInt32) (n : ℕ) : serial (isn + 1) n = serial isn (n + 1) := by
  rw [Nat.add_comm]
  exact serial_add isn 1 n

/-- Releasing leading segments that were received. -/
theorem release {isn : UInt32} {unacked : List Unacked}
    {p : Unacked → Bool} (hflight : unacked.map Unacked.segment =
      numbered (serial (isn + 1) a) (segs.drop a)) (har : a ≤ r) (hcount : segs.length < 2 ^ 31)
    (hreceived : ∀ u ∈ unacked.takeWhile p, leq u.seq (serial isn r) = true) :
    ∃ a', a ≤ a' ∧ a' ≤ r ∧ (unacked.dropWhile p).map Unacked.segment =
      numbered (serial (isn + 1) a') (segs.drop a') := by
  induction unacked generalizing a with
  | nil => exact ⟨a, Nat.le_refl a, har, hflight⟩
  | cons u rest ih =>
    cases hp : p u with
    | false =>
      refine ⟨a, Nat.le_refl a, har, ?_⟩
      rw [List.dropWhile_cons_of_neg (by simp [hp])]
      exact hflight
    | true =>
      rw [List.takeWhile_cons_of_pos hp] at hreceived
      have hlt : a < segs.length := by
        by_contra hge
        rw [List.drop_of_length_le (by omega)] at hflight
        cases hflight
      rw [List.drop_eq_getElem_cons hlt, List.map_cons, numbered_cons, List.cons.injEq,
        serial_succ] at hflight
      obtain ⟨hu, hrest⟩ := hflight
      have hseq : u.seq = serial isn (a + 1) := by
        rw [← serial_isn]
        exact congrArg Prod.fst hu
      have hnext : a + 1 ≤ r := by
        have hfirst := hreceived u List.mem_cons_self
        rw [hseq] at hfirst
        exact le_of_leq_serial hfirst (hlt.trans (hcount.trans_le (Nat.le_add_left _ _)))
      obtain ⟨a', ha', har', hkept⟩ :=
        ih hrest hnext fun v hv => hreceived v (List.mem_cons_of_mem _ hv)
      refine ⟨a', by omega, har', ?_⟩
      rw [List.dropWhile_cons_of_pos hp]
      exact hkept

/-- The leading segments in flight that are not ahead of an acknowledgment number. -/
def coveredBy (unacked : List Unacked) (ack : Int32) : List Unacked :=
  unacked.takeWhile fun u => seqLeq u.seq ack.toUInt32

theorem mem_coveredBy {unacked : List Unacked} {ack : Int32} {u : Unacked}
    (h : u ∈ coveredBy unacked ack) : u ∈ unacked ∧ seqLeq u.seq ack.toUInt32 = true := by
  refine ⟨(List.takeWhile_sublist _).mem h, ?_⟩
  have hcovered := List.mem_takeWhile_imp h
  exact hcovered

/-- The comparison of the endpoint is that of serial numbers. -/
theorem seqLeq_eq_leq (a b : UInt32) : seqLeq a b = leq a b := rfl

/-- An endpoint has received all segments up to one. -/
def Received (s : RdpeudpState) (u : Unacked) : Prop :=
  s.havePeerSeq = true ∧ seqLeq u.seq (s.recvNext - 1) = true

instance (s : RdpeudpState) (u : Unacked) : Decidable (Received s u) :=
  inferInstanceAs (Decidable (_ ∧ _))

/-- The number `-1` of a SYN covers no segment in flight but those that its sender
has received. -/
def ReleasesReceived (side peer : Side) (c : Call) : Prop :=
  ∀ dg ∈ peer.inbound c, dg.syn.isSome = true → dg.fec.sndSourceAck = -1 →
    ∀ u ∈ coveredBy side.endpoint.unacked (-1), Received peer.endpoint u

instance (side peer : Side) (c : Call) : Decidable (ReleasesReceived side peer c) :=
  inferInstanceAs (Decidable (∀ dg ∈ peer.inbound c, _ → _ → _))

/-- Segments in flight are numbered by their position. -/
theorem Held.seq
    (h : Held sender receiver segs a r) {u : Unacked} (hu : u ∈ sender.endpoint.unacked) :
    ∃ k, k < segs.length ∧ u.seq = serial sender.endpoint.cfg.initialSeq (k + 1) := by
  obtain ⟨k, hseq, hget⟩ := mem_numbered.mp (h.sending.flight _ (List.mem_map_of_mem hu))
  exact ⟨k, (List.getElem?_eq_some_iff.mp hget).1, by rw [← serial_isn]; exact hseq⟩

/-- A datagram of the peer releases only segments that it has received. -/
theorem Held.received {c : Call}
    {dg : Datagram} (h : Held sender receiver segs a r) (hcount : segs.length < 2 ^ 31)
    (hrelease : receiver.endpoint.role = .client → ReleasesReceived sender receiver c)
    (hin : receiver.inbound c = some dg) :
    ∀ u ∈ coveredBy sender.endpoint.unacked dg.fec.sndSourceAck,
      leq u.seq (serial sender.endpoint.cfg.initialSeq r) = true := by
  obtain ⟨bytes, hmem, hdecode⟩ := Side.mem_of_inbound hin
  have hbound := h.tracks.bound
  rcases h.acks bytes hmem dg hdecode with ⟨j, hj, hack⟩ | ⟨hrole, hsyn, hack⟩
  · intro u hu
    obtain ⟨hmem, hacked⟩ := mem_coveredBy hu
    obtain ⟨k, hk, hseq⟩ := h.seq hmem
    rw [seqLeq_eq_leq, hack, hseq] at hacked
    rw [hseq]
    have hkj : k + 1 ≤ j := le_of_leq_serial hacked (by omega)
    exact leq_serial _ (by omega) (by omega)
  · have hall := hrelease hrole dg hin hsyn hack
    rw [hack]
    intro u hu
    obtain ⟨hhave, hreceived⟩ := hall u hu
    rw [h.tracks.numbered hhave, serial_sub_one, seqLeq_eq_leq] at hreceived
    exact hreceived

/-- A call of the sender releases leading segments that were received, and cuts further ones. -/
theorem held_sender {sender' : Side} {nowMs : UInt64} {c : Call} (h : Held sender receiver segs a r)
    (hcount : segs.length < 2 ^ 31)
    (hrelease : receiver.endpoint.role = .client → ReleasesReceived sender receiver c)
    (hcall : sender.call receiver nowMs c = some sender') :
    ∃ new a', a ≤ a' ∧ Held sender' receiver (segs ++ new) a' r := by
  obtain ⟨data, m, out, new, hprep, hcalled⟩ := call_spec h.sending.mode hcall
  have hm : ∃ a', a ≤ a' ∧ a' ≤ r ∧ m.unacked.map Unacked.segment =
      numbered (serial (sender.endpoint.cfg.initialSeq + 1) a') (segs.drop a') := by
    cases hprep with
    | start | enqueue | idle => exact ⟨a, Nat.le_refl a, h.released, h.inFlight⟩
    | receive hin hhandle =>
      obtain ⟨hh, -⟩ := handle_frame [] hhandle
      rw [hh.unacked]
      exact release h.inFlight h.released hcount (h.received hcount hrelease hin)
  obtain ⟨a', haa, har, hflight⟩ := hm
  have hle : a' ≤ segs.length := har.trans h.tracks.bound
  refine ⟨new, a', haa, sending_called h.sending hcalled, ?_, ?_, har, ?_, ?_⟩
  · rw [hcalled.cfg]
    exact h.tracks.grow
  · rw [hcalled.pumped.unacked, hflight, hcalled.sendNext, h.sending.sendNext, hcalled.cfg,
      List.drop_append_of_le_length hle, numbered_append, List.length_drop, serial_add,
      Nat.add_sub_cancel' hle]
  · rw [hcalled.cfg]
    exact h.acks
  · rw [hcalled.cfg]
    exact h.learned

/-- What a receiver acknowledges once it has received `r` segments. -/
theorem acknowledges_sendable {side : Side} {segments : List (UInt32 × List UInt8)}
    {isn : UInt32} {dg : Datagram} (h : Sendable side.endpoint segments dg)
    (hnumbered : side.endpoint.havePeerSeq = true →
      side.endpoint.recvNext = serial (isn + 1) r)
    (hstate : side.endpoint.role = .server → side.endpoint.state ≠ .synSent)
    (hlearned : side.endpoint.state = .established → side.endpoint.havePeerSeq = true ∧
      side.endpoint.peerIsn = isn) : Acknowledges side isn r dg := by
  have hknown : side.endpoint.havePeerSeq = true →
      side.endpoint.ackNum.toUInt32 = serial isn r := by
    intro hhave
    simp only [RdpeudpState.ackNum, hhave, if_true, hnumbered hhave, serial_sub_one]
    rfl
  cases h with
  | syn hrole =>
    have hclient : side.endpoint.role = .client := by
      cases hside : side.endpoint.role with
      | client => rfl
      | server =>
        rw [hside] at hrole
        exact absurd (hrole.resolve_left (by decide)) (hstate hside)
    cases hhave : side.endpoint.havePeerSeq with
    | true => exact .inl ⟨r, Nat.le_refl r, hknown hhave⟩
    | false =>
      refine .inr ⟨hclient, rfl, ?_⟩
      show side.endpoint.ackNum = -1
      simp only [RdpeudpState.ackNum, hhave, Bool.false_eq_true, if_false]
  | synAck _ hest =>
    refine .inl ⟨0, Nat.zero_le r, ?_⟩
    rw [serial_zero, ← (hlearned hest).2]
    rfl
  | data hest | ack hest => exact .inl ⟨r, Nat.le_refl r, hknown (hlearned hest).1⟩

/-- A call of the receiver acknowledges only what it has received. -/
theorem held_receiver {receiver' : Side}
    {nowMs : UInt64} {c : Call} (h : Held sender receiver segs a r)
    (hcount : segs.length < 2 ^ 31) (hmode : receiver.endpoint.cfg.mode = .reliable)
    (hstate : receiver'.endpoint.role = .server → receiver'.endpoint.state ≠ .synSent)
    (hadopt : AdoptsFirst receiver sender c)
    (hcall : receiver.call sender nowMs c = some receiver') :
    ∃ r', r ≤ r' ∧ Held sender receiver' segs a r' := by
  obtain ⟨data, m, out, new, hprep, hcalled⟩ := call_spec hmode hcall
  obtain ⟨r', hr', htracks⟩ :=
    tracks_called hmode h.sending (by omega) h.tracks hadopt hprep hcalled
  have hsame := hcalled.pumped.same
  have hlearned : receiver'.endpoint.state = .established →
      receiver'.endpoint.havePeerSeq = true ∧
        receiver'.endpoint.peerIsn = sender.endpoint.cfg.initialSeq := by
    rw [hsame.state, hsame.havePeerSeq, hsame.peerIsn]
    intro hest
    cases hprep with
    | start => cases hest
    | enqueue | idle => exact h.learned hest
    | @receive dg _ _ hin hhandle =>
      obtain ⟨hh, -⟩ := handle_frame [] hhandle
      rw [hh.peerIsn]
      cases hsyn : dg.syn with
      | some syn =>
        exact ⟨hh.known (.inr (by rw [hsyn]; rfl)), (h.sending.carries_inbound hin).syn syn hsyn⟩
      | none =>
        obtain ⟨hhave, hisn⟩ := h.learned ((hh.opened hest).resolve_right (by simp [hsyn]))
        exact ⟨hh.known (.inl hhave), hisn⟩
  refine ⟨r', hr', h.sending, htracks, h.inFlight, h.released.trans hr', ?_, hlearned⟩
  obtain ⟨ds, hds, hall⟩ := hcalled.emitted
  intro bytes hmem dg hdecode
  rw [hds, List.mem_append] at hmem
  rcases hmem with hold | hnew
  · refine (h.acks bytes hold dg hdecode).imp ?_ ?_
    · rintro ⟨j, hj, hack⟩
      exact ⟨j, hj.trans hr', hack⟩
    · rw [hcalled.role]
      exact id
  · obtain ⟨d, hd, rfl⟩ := List.mem_map.mp hnew
    have hsendable := hall d hd
    rw [hsendable.decode] at hdecode
    cases hdecode
    exact acknowledges_sendable hsendable htracks.numbered hstate hlearned

/-- A sender whose segments are held or received. -/
def Holds (sender receiver : Side) : Prop := ∃ segs a r, Held sender receiver segs a r

/-- The client takes no data ahead of the SYN+ACK and of data before it, and the
server takes no SYN whose number `-1` covers segments that the client lacks. -/
def Orderly (net : Network) (a : NetAction) : Prop :=
  OpensInOrder net a ∧ (a.role = .server → ReleasesReceived net.server net.client a.call)

instance (net : Network) (a : NetAction) : Decidable (Orderly net a) :=
  inferInstanceAs (Decidable (_ ∧ (_ → _)))

/-- In one step the client releases segments and cuts further ones, or the server hands up
further ones. -/
theorem clientHeld_step {net net' : Network} {a : NetAction} {p : ℕ}
    (h : Connected net) (hheld : Held net.client net.server segs p r)
    (hcount : net.client.sentSegments < 2 ^ 31) (hstep : net.step a = some net') :
    ∃ new p' r', p ≤ p' ∧ r ≤ r' ∧ Held net'.client net'.server (segs ++ new) p' r' := by
  have hnext := connected_step h hstep
  rw [hheld.sending.sentSegments] at hcount
  obtain ⟨-, -, ⟨-, hcall, hkeep⟩ | ⟨-, hcall, hkeep⟩⟩ := step_some hstep
  · rw [hkeep]
    obtain ⟨new, p', hp', hheld'⟩ := held_sender hheld hcount
      (fun hrole => by rw [h.serverRole] at hrole; cases hrole) hcall
    exact ⟨new, p', r, hp', Nat.le_refl r, hheld'⟩
  · rw [hkeep]
    obtain ⟨r', hr', hheld'⟩ := held_receiver hheld hcount h.serverMode
      (fun _ => hnext.serverState) (h.adoptsFirst _) hcall
    refine ⟨[], p, r', Nat.le_refl p, hr', ?_⟩
    rw [List.append_nil]
    exact hheld'

/-- The client holds its segments in one step. -/
theorem clientHolds_step {net net' : Network} {a : NetAction} (h : Connected net)
    (hholds : Holds net.client net.server) (hcount : net.client.sentSegments < 2 ^ 31)
    (hstep : net.step a = some net') : Holds net'.client net'.server := by
  obtain ⟨segs, p, r, hheld⟩ := hholds
  obtain ⟨new, p', r', -, -, hheld'⟩ := clientHeld_step h hheld hcount hstep
  exact ⟨segs ++ new, p', r', hheld'⟩

/-- The server holds its segments in one orderly step. -/
theorem serverHolds_step {net net' : Network} {a : NetAction} (h : Connected net)
    (hholds : Holds net.server net.client) (hcount : net.server.sentSegments < 2 ^ 31)
    (horderly : Orderly net a) (hstep : net.step a = some net') :
    Holds net'.server net'.client := by
  have hnext := connected_step h hstep
  obtain ⟨segs, p, r, hheld⟩ := hholds
  rw [hheld.sending.sentSegments] at hcount
  obtain ⟨-, -, ⟨hrole, hcall, hkeep⟩ | ⟨hrole, hcall, hkeep⟩⟩ := step_some hstep
  · rw [hkeep]
    obtain ⟨r', -, hheld'⟩ := held_receiver hheld hcount h.clientMode
      (fun hserver => by rw [hnext.clientRole] at hserver; cases hserver)
      (horderly.1 hrole) hcall
    exact ⟨segs, p, r', hheld'⟩
  · rw [hkeep]
    obtain ⟨new, p', -, hheld'⟩ :=
      held_sender hheld hcount (fun _ => horderly.2 hrole) hcall
    exact ⟨segs ++ new, p', r, hheld'⟩

/-- No side releases a segment that its peer has not received, in a run whose
every step is orderly. -/
theorem nothing_lost {clientCfg serverCfg : Config} {acts : List NetAction} {net : Network}
    (hclient : clientCfg.mode = .reliable) (hserver : serverCfg.mode = .reliable)
    (horderly : Meets Network.step Orderly (.new clientCfg serverCfg) acts)
    (hrun : run Network.step (.new clientCfg serverCfg) acts = some net)
    (hclientCount : net.client.sentSegments < 2 ^ 31)
    (hserverCount : net.server.sentSegments < 2 ^ 31) :
    NoLoss net.client net.server ∧ NoLoss net.server net.client := by
  have hinv : Connected net ∧
      (net.client.sentSegments < 2 ^ 31 → Holds net.client net.server) ∧
      (net.server.sentSegments < 2 ^ 31 → Holds net.server net.client) := by
    refine run_invariant (fun n => Connected n ∧
      (n.client.sentSegments < 2 ^ 31 → Holds n.client n.server) ∧
      (n.server.sentSegments < 2 ^ 31 → Holds n.server n.client)) ?_ ?_ horderly hrun
    · rintro n a n' ⟨hconnected, hclientHolds, hserverHolds⟩ hmeets hstep
      obtain ⟨hleClient, hleServer⟩ := sentSegments_step hconnected hstep
      refine ⟨connected_step hconnected hstep, fun hcount => ?_, fun hcount => ?_⟩
      · have hbefore : n.client.sentSegments < 2 ^ 31 := by omega
        exact clientHolds_step hconnected (hclientHolds hbefore) hbefore hstep
      · have hbefore : n.server.sentSegments < 2 ^ 31 := by omega
        exact serverHolds_step hconnected (hserverHolds hbefore) hbefore hmeets hstep
    · exact ⟨connected_new hclient hserver, fun _ => ⟨[], 0, 0, held_new hclient⟩,
        fun _ => ⟨[], 0, 0, held_new hserver⟩⟩
  obtain ⟨segs, a, r, hheld⟩ := hinv.2.1 hclientCount
  obtain ⟨segs', a', r', hheld'⟩ := hinv.2.2 hserverCount
  exact ⟨hheld.noLoss, hheld'.noLoss⟩

/-- A late SYN that releases nothing: the server numbers from the first half of
the number space. -/
theorem nothing_lost_lateSyn :
    ∃ net, run Network.step (.new { initialSeq := 9 } { initialSeq := 7 })
        [⟨.client, 0, .start⟩, ⟨.server, 5, .receive 0⟩, ⟨.server, 5, .enqueue [42]⟩,
          ⟨.server, 10, .receive 0⟩, ⟨.client, 10, .receive 0⟩] = some net ∧
      net.server.endpoint.unacked.length = 1 ∧
      NoLoss net.client net.server ∧ NoLoss net.server net.client := by
  have hresult : (run Network.step (.new { initialSeq := 9 } { initialSeq := 7 })
      [⟨.client, 0, .start⟩, ⟨.server, 5, .receive 0⟩, ⟨.server, 5, .enqueue [42]⟩,
        ⟨.server, 10, .receive 0⟩, ⟨.client, 10, .receive 0⟩]).map
      (fun n => (n.server.endpoint.unacked.length, n.client.sentSegments,
        n.server.sentSegments)) = some (1, 0, 1) := by
    decide +kernel
  have horderly : meetsBool Network.step (fun n a => decide (Orderly n a))
      (.new { initialSeq := 9 } { initialSeq := 7 })
      [⟨.client, 0, .start⟩, ⟨.server, 5, .receive 0⟩, ⟨.server, 5, .enqueue [42]⟩,
        ⟨.server, 10, .receive 0⟩, ⟨.client, 10, .receive 0⟩] = true := by
    decide +kernel
  obtain ⟨net, hrun, hnet⟩ := Option.map_eq_some_iff.mp hresult
  simp only [Prod.mk.injEq] at hnet
  obtain ⟨hheld, hclient, hserver⟩ := hnet
  refine ⟨net, hrun, hheld, nothing_lost rfl rfl ?_ hrun (by omega) (by omega)⟩
  simpa only [decide_eq_true_eq] using meetsBool_iff.mp horderly

/-- A server that numbers from the second half of the number space: the late SYN
releases a segment of which the client has received nothing. -/
theorem not_nothing_lost_lateSyn :
    ∃ net, run Network.step (.new { initialSeq := 9 } { initialSeq := 0x80000000 })
        [⟨.client, 0, .start⟩, ⟨.server, 5, .receive 0⟩, ⟨.server, 5, .enqueue [42]⟩,
          ⟨.server, 10, .receive 0⟩] = some net ∧
      net.server.sentSegments < 2 ^ 31 ∧ net.server.enqueued = [42] ∧
      net.client.delivered = [] ∧ net.server.endpoint.unacked = [] ∧
      net.server.endpoint.outQueue = [] ∧ ¬ NoLoss net.server net.client := by
  have hresult : (run Network.step (.new { initialSeq := 9 } { initialSeq := 0x80000000 })
      [⟨.client, 0, .start⟩, ⟨.server, 5, .receive 0⟩, ⟨.server, 5, .enqueue [42]⟩,
        ⟨.server, 10, .receive 0⟩]).map
      (fun n => (n.server.sentSegments, n.server.enqueued, n.client.delivered,
        n.server.endpoint.unacked, n.server.endpoint.outQueue)) =
      some (1, [42], [], [], []) := by
    decide +kernel
  obtain ⟨net, hrun, hnet⟩ := Option.map_eq_some_iff.mp hresult
  simp only [Prod.mk.injEq] at hnet
  obtain ⟨hsent, henqueued, hdelivered, hunacked, hqueue⟩ := hnet
  refine ⟨net, hrun, by omega, henqueued, hdelivered, hunacked, hqueue, ?_⟩
  rintro ⟨released, hgiven, hreleased⟩
  rw [hdelivered, List.prefix_nil] at hreleased
  rw [henqueued, hunacked, hqueue, hreleased] at hgiven
  cases hgiven

end Macrdp.RdpeudpRelease
