import Macrdp.RdpeudpNetwork

/-!
# The streams between two endpoints

In each direction the sender cuts its bytes into segments that it numbers from
its initial sequence number on, and the receiver hands up the first of them.
From the client to the server this holds in every run; from the server to the
client, as long as data never fixes the numbering ahead of the segments before
it.
-/

namespace Macrdp.RdpeudpStream

open StepSystem RdpeudpDatagram RdpeudpEndpoint RdpeudpPump RdpeudpReceive RdpeudpNetwork
  SerialNumber

/-- A datagram of the stream of `segs` that is opened by the number `isn`. -/
structure Carries (isn : UInt32) (segs : List (List UInt8)) (dg : Datagram) : Prop where
  /-- A SYN carries the initial number. -/
  syn : ∀ syn, dg.syn = some syn → syn.initialSeq = isn
  /-- A source payload is a segment under its number. -/
  source : ∀ src, dg.source = some src →
    (src.header.snSourceStart, src.payload) ∈ numbered (isn + 1) segs

variable {segs : List (List UInt8)}
variable {dg : Datagram}

/-- What is sendable belongs to the stream of the segments in flight. -/
theorem Sendable.carries {s : RdpeudpState} {segments : List (UInt32 × List UInt8)}
    (h : Sendable s segments dg)
    (hflight : ∀ segment ∈ segments, segment ∈ numbered (s.cfg.initialSeq + 1) segs) :
    Carries s.cfg.initialSeq segs dg := by
  cases h with
  | syn | synAck =>
    refine ⟨?_, by rintro src ⟨⟩⟩
    rintro syn ⟨⟩
    rfl
  | data _ hmem _ =>
    refine ⟨by rintro syn ⟨⟩, ?_⟩
    rintro src ⟨⟩
    exact hflight _ hmem
  | ack => exact ⟨by rintro syn ⟨⟩, by rintro src ⟨⟩⟩

/-- Only an established endpoint sends source payloads. -/
theorem Sendable.established {s : RdpeudpState} {segments : List (UInt32 × List UInt8)}
    (h : Sendable s segments dg) (hsource : dg.source ≠ none) : s.state = .established := by
  cases h with
  | syn | synAck => exact absurd rfl hsource
  | data hstate | ack hstate => exact hstate

/-- A side has cut the bytes it was given into `segs`, numbered them from its
initial number on, and sends nothing else. -/
structure Sending (side : Side) (segs : List (List UInt8)) : Prop where
  mode : side.endpoint.cfg.mode = .reliable
  /-- What is not cut yet is queued. -/
  enqueued : side.enqueued = segs.flatten ++ side.endpoint.outQueue
  sendNext : side.endpoint.sendNext = serial (side.endpoint.cfg.initialSeq + 1) segs.length
  sentSegments : side.sentSegments = segs.length
  flight : ∀ segment ∈ side.endpoint.unacked.map Unacked.segment,
    segment ∈ numbered (side.endpoint.cfg.initialSeq + 1) segs
  log : ∀ bytes ∈ side.emitted, ∃ dg, Datagram.decode bytes = .ok dg ∧
    Carries side.endpoint.cfg.initialSeq segs dg

/-- A new reliable side has cut nothing. -/
theorem sending_new {role : Role} {cfg : Config} (hmode : cfg.mode = .reliable) :
    Sending (.new role cfg) [] := by
  constructor <;> simp [Side.new, RdpeudpState.new, hmode]

variable {side : Side} {c : Call}

/-- A datagram that was taken in is one of the stream. -/
theorem Sending.carries_inbound (h : Sending side segs) (hin : side.inbound c = some dg) :
    Carries side.endpoint.cfg.initialSeq segs dg := by
  obtain ⟨bytes, hmem, hdecode⟩ := Side.mem_of_inbound hin
  obtain ⟨dg', hdecode', hcarries⟩ := h.log bytes hmem
  rw [hdecode] at hdecode'
  cases hdecode'
  exact hcarries

variable {data : List UInt8} {m : RdpeudpState} {out : StepOutput}

/-- A call cuts further segments. -/
theorem sending_called {side' : Side} {new : List (List UInt8)} (h : Sending side segs)
    (hcall : Called side side' data m out new) : Sending side' (segs ++ new) := by
  have hnumbered : numbered (side.endpoint.cfg.initialSeq + 1) (segs ++ new) =
      numbered (side.endpoint.cfg.initialSeq + 1) segs ++ numbered m.sendNext new := by
    rw [numbered_append, hcall.sendNext, h.sendNext]
  have hflight : ∀ segment ∈ side'.endpoint.unacked.map Unacked.segment,
      segment ∈ numbered (side.endpoint.cfg.initialSeq + 1) (segs ++ new) := by
    intro segment hmem
    rw [hcall.pumped.unacked, List.mem_append] at hmem
    rw [hnumbered, List.mem_append]
    refine hmem.imp ?_ id
    intro hold
    obtain ⟨p, hp⟩ := hcall.unacked
    obtain ⟨u, hu, rfl⟩ := List.mem_map.mp hold
    rw [hp] at hu
    exact h.flight _ (List.mem_map_of_mem ((List.dropWhile_sublist p).mem hu))
  refine ⟨by rw [hcall.cfg]; exact h.mode, ?_, ?_, ?_, by rw [hcall.cfg]; exact hflight, ?_⟩
  · rw [hcall.enqueued, h.enqueued, List.append_assoc, ← hcall.outQueue, hcall.pumped.outQueue,
      List.flatten_append, List.append_assoc]
  · rw [hcall.pumped.sendNext, hcall.sendNext, h.sendNext, hcall.cfg, serial_add,
      List.length_append]
  · rw [hcall.sentSegments, h.sentSegments, List.length_append]
  · obtain ⟨ds, hds, hall⟩ := hcall.emitted
    intro bytes hmem
    rw [hds, List.mem_append] at hmem
    rw [hcall.cfg]
    rcases hmem with hold | hnew
    · obtain ⟨dg, hdecode, hcarries⟩ := h.log bytes hold
      refine ⟨dg, hdecode, hcarries.syn, fun src hsrc => ?_⟩
      rw [numbered_append]
      exact List.mem_append_left _ (hcarries.source src hsrc)
    · obtain ⟨dg, hdg, rfl⟩ := List.mem_map.mp hnew
      have hsendable := hall dg hdg
      refine ⟨dg, hsendable.decode, ?_⟩
      have hcarries : Carries side'.endpoint.cfg.initialSeq (segs ++ new) dg :=
        Sendable.carries hsendable (by rw [hcall.cfg]; exact hflight)
      rwa [hcall.cfg] at hcarries

/-- Data that a call takes in ahead of the SYN of its stream is the first
segment. -/
def AdoptsFirst (side peer : Side) (c : Call) : Prop :=
  side.endpoint.havePeerSeq = false → ∀ dg ∈ peer.inbound c, dg.syn = none →
    ∀ src ∈ dg.source, src.header.snSourceStart = peer.endpoint.cfg.initialSeq + 1

instance (side peer : Side) (c : Call) : Decidable (AdoptsFirst side peer c) :=
  inferInstanceAs (Decidable (_ → ∀ dg ∈ peer.inbound c, dg.syn = none →
    ∀ src ∈ dg.source, src.header.snSourceStart = peer.endpoint.cfg.initialSeq + 1))

/-- A call of the receiver hands up further segments of the stream. -/
theorem tracks_called {side' peer : Side} {new : List (List UInt8)} {r : ℕ}
    (hmode : side.endpoint.cfg.mode = .reliable) (hpeer : Sending peer segs)
    (hcount : segs.length < 2 ^ 32)
    (htracks : Tracks (peer.endpoint.cfg.initialSeq + 1) segs side.endpoint side.delivered r)
    (hadopt : AdoptsFirst side peer c) (hprep : Prepared side peer c data m out)
    (hcall : Called side side' data m out new) :
    ∃ r', r ≤ r' ∧
      Tracks (peer.endpoint.cfg.initialSeq + 1) segs side'.endpoint side'.delivered r' := by
  have hstart : Tracks (peer.endpoint.cfg.initialSeq + 1) segs side.endpoint
      (side.delivered ++ ({} : StepOutput).delivered.flatten) r := by simpa using htracks
  have hm : ∃ r', r ≤ r' ∧ Tracks (peer.endpoint.cfg.initialSeq + 1) segs m
      (side.delivered ++ out.delivered.flatten) r' := by
    cases hprep with
    | start hrole hpush =>
      rw [push_some hpush]
      exact ⟨r, Nat.le_refl r, hstart.congr rfl rfl rfl⟩
    | enqueue => exact ⟨r, Nat.le_refl r, hstart.congr rfl rfl rfl⟩
    | idle => exact ⟨r, Nat.le_refl r, hstart⟩
    | @receive dg _ _ hin hhandle =>
      have hcarries := hpeer.carries_inbound hin
      obtain ⟨r', hr', ht, -⟩ := handle_tracks hmode hcount hstart
        (fun syn hsyn => by rw [hcarries.syn syn hsyn])
        (fun src hsrc => ⟨hcarries.source src hsrc,
          fun hhave hsyn => hadopt hhave dg hin hsyn src hsrc⟩) hhandle
      exact ⟨r', hr', ht⟩
  obtain ⟨r', hr', ht⟩ := hm
  rw [hcall.delivered]
  have hsame := hcall.pumped.same
  exact ⟨r', hr', ht.congr hsame.recvNext hsame.reorder hsame.havePeerSeq⟩

/-- One direction of the connection: the sender's stream, of which the receiver
has handed up the first segments. -/
def Streams (sender receiver : Side) : Prop :=
  ∃ segs r, Sending sender segs ∧
    Tracks (sender.endpoint.cfg.initialSeq + 1) segs receiver.endpoint receiver.delivered r

variable {sender receiver : Side}

/-- What the receiver of a stream has handed up is a prefix of what its sender
was given. -/
theorem Streams.delivered_isPrefix (h : Streams sender receiver) :
    receiver.delivered <+: sender.enqueued := by
  obtain ⟨segs, r, hsending, htracks⟩ := h
  rw [htracks.delivered, hsending.enqueued]
  have hsplit : segs.flatten = (segs.take r).flatten ++ (segs.drop r).flatten := by
    rw [← List.flatten_append, List.take_append_drop]
  rw [hsplit, List.append_assoc]
  exact List.prefix_append _ _

/-- New sides stream nothing. -/
theorem streams_new {role role' : Role} {cfg cfg' : Config} (hmode : cfg.mode = .reliable) :
    Streams (.new role cfg) (.new role' cfg') := by
  refine ⟨[], 0, sending_new hmode, ?_⟩
  constructor <;> simp [Side.new, RdpeudpState.new]

variable {nowMs : UInt64}

/-- A call of the sender keeps the stream. -/
theorem streams_sender {sender' : Side}
    (h : Streams sender receiver) (hcall : sender.call receiver nowMs c = some sender') :
    Streams sender' receiver := by
  obtain ⟨segs, r, hsending, htracks⟩ := h
  obtain ⟨data, m, out, new, -, hcalled⟩ := call_spec hsending.mode hcall
  refine ⟨segs ++ new, r, sending_called hsending hcalled, ?_⟩
  rw [hcalled.cfg]
  exact htracks.grow

/-- A call of the receiver keeps the stream. -/
theorem streams_receiver {receiver' : Side}
    (h : Streams sender receiver) (hmode : receiver.endpoint.cfg.mode = .reliable)
    (hcount : sender.sentSegments < 2 ^ 31) (hadopt : AdoptsFirst receiver sender c)
    (hcall : receiver.call sender nowMs c = some receiver') : Streams sender receiver' := by
  obtain ⟨segs, r, hsending, htracks⟩ := h
  obtain ⟨data, m, out, new, hprep, hcalled⟩ := call_spec hmode hcall
  have hlen : segs.length < 2 ^ 32 := by
    rw [← hsending.sentSegments]
    omega
  obtain ⟨r', -, htracks'⟩ := tracks_called hmode hsending hlen htracks hadopt hprep hcalled
  exact ⟨segs, r', hsending, htracks'⟩

/-- How far the open has come on either side. -/
structure Connected (net : Network) : Prop where
  clientMode : net.client.endpoint.cfg.mode = .reliable
  serverMode : net.server.endpoint.cfg.mode = .reliable
  clientRole : net.client.endpoint.role = .client
  serverRole : net.server.endpoint.role = .server
  /-- A server awaits no SYN+ACK. -/
  serverState : net.server.endpoint.state ≠ .synSent
  /-- An established server knows the numbering of its peer, -/
  serverKnows : net.server.endpoint.state = .established →
    net.server.endpoint.havePeerSeq = true
  /-- and so does one that has sent anything. -/
  serverSent : net.server.emitted ≠ [] → net.server.endpoint.havePeerSeq = true
  /-- A client is established by a server that knows the client's numbering, -/
  clientEstablished : net.client.endpoint.state = .established →
    net.server.endpoint.havePeerSeq = true
  /-- and sends data to no other. -/
  clientSent : ∀ bytes ∈ net.client.emitted, ∀ dg, Datagram.decode bytes = .ok dg →
    dg.source ≠ none → net.server.endpoint.havePeerSeq = true

theorem connected_new {clientCfg serverCfg : Config} (hclient : clientCfg.mode = .reliable)
    (hserver : serverCfg.mode = .reliable) : Connected (.new clientCfg serverCfg) := by
  constructor <;> simp [Network.new, Side.new, RdpeudpState.new, hclient, hserver]

/-- What preparing a call does to the open of a side. -/
theorem prepared_open {peer : Side} (h : Prepared side peer c data m out) :
    (side.endpoint.havePeerSeq = true → m.havePeerSeq = true) ∧
      (m.state = side.endpoint.state ∨ m.state = .established ∨ side.endpoint.role = .client) ∧
      (m.state = .established → side.endpoint.state = .established ∨
        m.havePeerSeq = true ∧ peer.emitted ≠ []) := by
  cases h with
  | start hrole => exact ⟨id, .inr (.inr hrole), by rintro ⟨⟩⟩
  | enqueue | idle => exact ⟨id, .inl rfl, .inl⟩
  | receive hin hhandle =>
    obtain ⟨hh, -⟩ := handle_frame [] hhandle
    refine ⟨fun hhave => hh.known (.inl hhave), ?_, ?_⟩
    · exact hh.state.imp id .inl
    · intro hest
      obtain ⟨bytes, hmem, -⟩ := Side.mem_of_inbound hin
      exact (hh.opened hest).imp id fun hsyn => ⟨hh.known (.inr hsyn), List.ne_nil_of_mem hmem⟩

variable {net net' : Network}

/-- A call of the server keeps the open consistent. -/
theorem connected_server {server : Side} (clock : UInt64) (h : Connected net)
    (hcall : net.server.call net.client nowMs c = some server) :
    Connected { net with server := server, clock := clock } := by
  obtain ⟨data, m, out, segs, hprep, hcalled⟩ := call_spec h.serverMode hcall
  obtain ⟨hhave, hstate, hopened⟩ := prepared_open hprep
  have hsame := hcalled.pumped.same
  have hkeeps : net.server.endpoint.havePeerSeq = true → server.endpoint.havePeerSeq = true :=
    fun hknown => hsame.havePeerSeq ▸ hhave hknown
  have hnot : server.endpoint.state ≠ .synSent := by
    rw [hsame.state]
    rcases hstate with hstate | hstate | hrole
    · rw [hstate]
      exact h.serverState
    · simp [hstate]
    · simp [h.serverRole] at hrole
  have hknows : server.endpoint.state = .established → server.endpoint.havePeerSeq = true := by
    intro hest
    rcases hopened (hsame.state ▸ hest) with hold | ⟨hnew, -⟩
    · exact hkeeps (h.serverKnows hold)
    · exact hsame.havePeerSeq ▸ hnew
  refine ⟨h.clientMode, by rw [hcalled.cfg]; exact h.serverMode, h.clientRole,
    hcalled.role.trans h.serverRole, hnot, hknows, ?_,
    fun hest => hkeeps (h.clientEstablished hest),
    fun bytes hmem dg hdecode hsource => hkeeps (h.clientSent bytes hmem dg hdecode hsource)⟩
  obtain ⟨ds, hds, hall⟩ := hcalled.emitted
  intro hsent
  cases ds with
  | nil => exact hkeeps (h.serverSent (by simpa [hds] using hsent))
  | cons d ds =>
    apply hknows
    cases hall d List.mem_cons_self with
    | syn hrole =>
      rw [hcalled.role, h.serverRole] at hrole
      simp [hnot] at hrole
    | synAck _ hest | data hest | ack hest => exact hest

/-- A call of the client keeps the open consistent. -/
theorem connected_client {client : Side} (clock : UInt64) (h : Connected net)
    (hcall : net.client.call net.server nowMs c = some client) :
    Connected { net with client := client, clock := clock } := by
  obtain ⟨data, m, out, segs, hprep, hcalled⟩ := call_spec h.clientMode hcall
  obtain ⟨-, -, hopened⟩ := prepared_open hprep
  have hest : client.endpoint.state = .established →
      net.server.endpoint.havePeerSeq = true := by
    intro hest
    rcases hopened (hcalled.pumped.same.state ▸ hest) with hold | ⟨-, hsent⟩
    · exact h.clientEstablished hold
    · exact h.serverSent hsent
  refine ⟨by rw [hcalled.cfg]; exact h.clientMode, h.serverMode, hcalled.role.trans h.clientRole,
    h.serverRole, h.serverState, h.serverKnows, h.serverSent, hest, ?_⟩
  obtain ⟨ds, hds, hall⟩ := hcalled.emitted
  intro bytes hmem dg hdecode hsource
  rw [hds, List.mem_append] at hmem
  rcases hmem with hold | hnew
  · exact h.clientSent bytes hold dg hdecode hsource
  · obtain ⟨d, hd, rfl⟩ := List.mem_map.mp hnew
    have hsendable := hall d hd
    rw [hsendable.decode] at hdecode
    cases hdecode
    exact hest (Sendable.established hsendable hsource)

variable {a : NetAction}

/-- The open stays consistent in every step. -/
theorem connected_step (h : Connected net) (hstep : net.step a = some net') : Connected net' := by
  obtain ⟨-, -, ⟨-, hcall, hkeep⟩ | ⟨-, hcall, hkeep⟩⟩ := step_some hstep
  · have hnet := connected_client net'.clock h hcall
    rw [← hkeep] at hnet
    exact hnet
  · have hnet := connected_server net'.clock h hcall
    rw [← hkeep] at hnet
    exact hnet

/-- Sent segments are never forgotten. -/
theorem sentSegments_step (h : Connected net)
    (hstep : net.step a = some net') : net.client.sentSegments ≤ net'.client.sentSegments ∧
      net.server.sentSegments ≤ net'.server.sentSegments := by
  obtain ⟨-, -, ⟨-, hcall, hkeep⟩ | ⟨-, hcall, hkeep⟩⟩ := step_some hstep
  · obtain ⟨_, _, _, _, -, hcalled⟩ := call_spec h.clientMode hcall
    rw [hcalled.sentSegments, hkeep]
    exact ⟨Nat.le_add_right _ _, Nat.le_refl _⟩
  · obtain ⟨_, _, _, _, -, hcalled⟩ := call_spec h.serverMode hcall
    rw [hcalled.sentSegments, hkeep]
    exact ⟨Nat.le_refl _, Nat.le_add_right _ _⟩

/-- A server takes no data ahead of the client's SYN. -/
theorem Connected.adoptsFirst (h : Connected net) (c : Call) :
    AdoptsFirst net.server net.client c := by
  intro hhave dg hin _ src hsrc
  obtain ⟨bytes, hmem, hdecode⟩ := Side.mem_of_inbound hin
  have hknown := h.clientSent bytes hmem dg hdecode (by rw [hsrc]; simp)
  rw [hhave] at hknown
  cases hknown

/-- The client's stream in one step. -/
theorem clientStream_step (h : Connected net)
    (hstream : Streams net.client net.server) (hcount : net.client.sentSegments < 2 ^ 31)
    (hstep : net.step a = some net') : Streams net'.client net'.server := by
  obtain ⟨-, -, ⟨-, hcall, hkeep⟩ | ⟨-, hcall, hkeep⟩⟩ := step_some hstep
  · rw [hkeep]
    exact streams_sender hstream hcall
  · rw [hkeep]
    exact streams_receiver hstream h.serverMode hcount (h.adoptsFirst _) hcall

/-- Client-to-server stream safety: whatever is lost, duplicated, delayed or
reordered, the server hands up a prefix of what the client was given. -/
theorem server_delivers_prefix {clientCfg serverCfg : Config} {acts : List NetAction}
    {net : Network} (hclient : clientCfg.mode = .reliable) (hserver : serverCfg.mode = .reliable)
    (hrun : run Network.step (.new clientCfg serverCfg) acts = some net)
    (hcount : net.client.sentSegments < 2 ^ 31) :
    net.server.delivered <+: net.client.enqueued := by
  have hinv : Connected net ∧
      (net.client.sentSegments < 2 ^ 31 → Streams net.client net.server) := by
    refine run_invariant_of_step (fun n => Connected n ∧
      (n.client.sentSegments < 2 ^ 31 → Streams n.client n.server)) ?_ ?_ hrun
    · rintro n a n' ⟨hconnected, hstream⟩ hstep
      refine ⟨connected_step hconnected hstep, fun hcount' => ?_⟩
      have hle := (sentSegments_step hconnected hstep).1
      have hbefore : n.client.sentSegments < 2 ^ 31 := by omega
      exact clientStream_step hconnected (hstream hbefore) hbefore hstep
    · exact ⟨connected_new hclient hserver, fun _ => streams_new hclient⟩
  exact (hinv.2 hcount).delivered_isPrefix

/-- A client that numbers from the end of the number space, and whose data
reaches the server twice. -/
theorem server_delivers_prefix_duplicate :
    ∃ net, run Network.step (.new { initialSeq := 0xffffffff } { initialSeq := 7 })
        [⟨.client, 0, .start⟩, ⟨.server, 5, .receive 0⟩, ⟨.client, 10, .receive 0⟩,
          ⟨.client, 10, .enqueue [1, 2, 3]⟩, ⟨.server, 15, .receive 1⟩,
          ⟨.server, 20, .receive 1⟩] = some net ∧
      net.server.delivered = [1, 2, 3] ∧ net.server.delivered <+: net.client.enqueued := by
  have hresult : (run Network.step (.new { initialSeq := 0xffffffff } { initialSeq := 7 })
      [⟨.client, 0, .start⟩, ⟨.server, 5, .receive 0⟩, ⟨.client, 10, .receive 0⟩,
        ⟨.client, 10, .enqueue [1, 2, 3]⟩, ⟨.server, 15, .receive 1⟩,
        ⟨.server, 20, .receive 1⟩]).map
      (fun n => (n.server.delivered, n.client.sentSegments)) = some ([1, 2, 3], 1) := by
    decide +kernel
  obtain ⟨net, hrun, hnet⟩ := Option.map_eq_some_iff.mp hresult
  rw [Prod.mk.injEq] at hnet
  exact ⟨net, hrun, hnet.1, server_delivers_prefix rfl rfl hrun (by omega)⟩

/-- The client does not take data ahead of the SYN+ACK and of data before it. -/
def OpensInOrder (net : Network) (a : NetAction) : Prop :=
  a.role = .client → AdoptsFirst net.client net.server a.call

instance (net : Network) (a : NetAction) : Decidable (OpensInOrder net a) :=
  inferInstanceAs (Decidable (_ → AdoptsFirst net.client net.server a.call))

/-- The server's stream in one step that opens in order. -/
theorem serverStream_step (h : Connected net)
    (hstream : Streams net.server net.client) (hcount : net.server.sentSegments < 2 ^ 31)
    (hopens : OpensInOrder net a) (hstep : net.step a = some net') :
    Streams net'.server net'.client := by
  obtain ⟨-, -, ⟨hrole, hcall, hkeep⟩ | ⟨-, hcall, hkeep⟩⟩ := step_some hstep
  · rw [hkeep]
    exact streams_receiver hstream h.clientMode hcount (hopens hrole) hcall
  · rw [hkeep]
    exact streams_sender hstream hcall

/-- Server-to-client stream safety: in a run in which the client never fixes the
numbering by data that is not the first segment, it hands up a prefix of what the
server was given. -/
theorem client_delivers_prefix {clientCfg serverCfg : Config} {acts : List NetAction}
    {net : Network} (hclient : clientCfg.mode = .reliable) (hserver : serverCfg.mode = .reliable)
    (hopens : Meets Network.step OpensInOrder (.new clientCfg serverCfg) acts)
    (hrun : run Network.step (.new clientCfg serverCfg) acts = some net)
    (hcount : net.server.sentSegments < 2 ^ 31) :
    net.client.delivered <+: net.server.enqueued := by
  have hinv : Connected net ∧
      (net.server.sentSegments < 2 ^ 31 → Streams net.server net.client) := by
    refine run_invariant (fun n => Connected n ∧
      (n.server.sentSegments < 2 ^ 31 → Streams n.server n.client)) ?_ ?_ hopens hrun
    · rintro n a n' ⟨hconnected, hstream⟩ hmeets hstep
      refine ⟨connected_step hconnected hstep, fun hcount' => ?_⟩
      have hle := (sentSegments_step hconnected hstep).2
      have hbefore : n.server.sentSegments < 2 ^ 31 := by omega
      exact serverStream_step hconnected (hstream hbefore) hbefore hmeets hstep
    · exact ⟨connected_new hclient hserver, fun _ => streams_new hserver⟩
  exact (hinv.2 hcount).delivered_isPrefix

/-- The first segment overtakes the SYN+ACK. -/
theorem client_delivers_prefix_overtaken :
    ∃ net, run Network.step (.new { initialSeq := 9 } { initialSeq := 0xffffffff })
        [⟨.client, 0, .start⟩, ⟨.server, 5, .receive 0⟩, ⟨.server, 5, .enqueue [1]⟩,
          ⟨.server, 5, .enqueue [2]⟩, ⟨.client, 10, .receive 1⟩, ⟨.client, 10, .receive 0⟩,
          ⟨.client, 15, .receive 2⟩] = some net ∧
      net.client.delivered = [1, 2] ∧ net.client.delivered <+: net.server.enqueued := by
  have hresult : (run Network.step (.new { initialSeq := 9 } { initialSeq := 0xffffffff })
      [⟨.client, 0, .start⟩, ⟨.server, 5, .receive 0⟩, ⟨.server, 5, .enqueue [1]⟩,
        ⟨.server, 5, .enqueue [2]⟩, ⟨.client, 10, .receive 1⟩, ⟨.client, 10, .receive 0⟩,
        ⟨.client, 15, .receive 2⟩]).map
      (fun n => (n.client.delivered, n.server.sentSegments)) = some ([1, 2], 2) := by
    decide +kernel
  have hopens : meetsBool Network.step (fun n a => decide (OpensInOrder n a))
      (.new { initialSeq := 9 } { initialSeq := 0xffffffff })
      [⟨.client, 0, .start⟩, ⟨.server, 5, .receive 0⟩, ⟨.server, 5, .enqueue [1]⟩,
        ⟨.server, 5, .enqueue [2]⟩, ⟨.client, 10, .receive 1⟩, ⟨.client, 10, .receive 0⟩,
        ⟨.client, 15, .receive 2⟩] = true := by
    decide +kernel
  obtain ⟨net, hrun, hnet⟩ := Option.map_eq_some_iff.mp hresult
  rw [Prod.mk.injEq] at hnet
  refine ⟨net, hrun, hnet.1, client_delivers_prefix rfl rfl ?_ hrun (by omega)⟩
  simpa only [decide_eq_true_eq] using meetsBool_iff.mp hopens

/-- The second segment overtakes the SYN+ACK and the first segment, and is handed
up first. -/
theorem not_client_delivers_prefix_overtaken :
    ∃ net, run Network.step (.new { initialSeq := 9 } { initialSeq := 7 })
        [⟨.client, 0, .start⟩, ⟨.server, 5, .receive 0⟩, ⟨.server, 5, .enqueue [1]⟩,
          ⟨.server, 5, .enqueue [2]⟩, ⟨.client, 10, .receive 2⟩] = some net ∧
      net.server.sentSegments < 2 ^ 31 ∧ net.server.enqueued = [1, 2] ∧
      net.client.delivered = [2] ∧ ¬ net.client.delivered <+: net.server.enqueued := by
  have hresult : (run Network.step (.new { initialSeq := 9 } { initialSeq := 7 })
      [⟨.client, 0, .start⟩, ⟨.server, 5, .receive 0⟩, ⟨.server, 5, .enqueue [1]⟩,
        ⟨.server, 5, .enqueue [2]⟩, ⟨.client, 10, .receive 2⟩]).map
      (fun n => (n.server.sentSegments, n.server.enqueued, n.client.delivered)) =
      some (2, [1, 2], [2]) := by
    decide +kernel
  obtain ⟨net, hrun, hnet⟩ := Option.map_eq_some_iff.mp hresult
  simp only [Prod.mk.injEq] at hnet
  obtain ⟨hsent, henqueued, hdelivered⟩ := hnet
  refine ⟨net, hrun, by omega, henqueued, hdelivered, ?_⟩
  rw [hdelivered, henqueued]
  decide

end Macrdp.RdpeudpStream
