import Macrdp.Framing
import Macrdp.UdpListener

/-!
# Framing of tunnel messages

The messages of a tunnel arrive in whatever pieces the decryption of its flow gives. The
listener appends a piece to the buffer of the peer and parses the messages that are
complete; what it binds and forwards does not depend on the pieces.
-/

namespace Macrdp.EmtTunnel

open ByteCodec ByteCodec.Writer ByteCodec.Reader Framing

/-- What is read off the front of a buffer does not change with what follows. -/
theorem peekPduLen_append {buf : List UInt8} {total : ℕ} (more : List UInt8)
    (h : peekPduLen buf = some total) : peekPduLen (buf ++ more) = some total := by
  unfold peekPduLen at h
  split at h
  · exact h
  · cases h

/-- Tunnel messages tell their length in their header. -/
def tunnelFramer : Framer UInt8 where
  frameLen := peekPduLen
  pos := fun h => Nat.lt_of_lt_of_le (by decide) (fixedPartSize_le_peekPduLen h)
  stable := peekPduLen_append

/-- A header is its action and flags, the length of the payload, and its own length. -/
theorem TunnelHeader.emits_encode (h : TunnelHeader) :
    Emits h.encode
      ([(h.action &&& (0x0f : UInt8)) ||| ((h.flags &&& (0x0f : UInt8)) <<< (4 : UInt8))] ++
        ((bigEndian 2 h.payloadLength.toNat).reverse ++ [h.headerLength])) := by
  refine emits_ensureSize ?_ (by simp [fixedPartSize])
  exact emits_append (emits_writeU8 _)
    (emits_append (emits_writeSlice _) (emits_writeU8 h.headerLength))

/-- A data message has the simple header and the channel data. -/
theorem encodeTunnelData_eq {data : List UInt8} (h : data.length ≤ 65535) :
    encodeTunnelData data = 0x02 :: ((bigEndian 2 data.length).reverse ++ 0x04 :: data) := by
  have hlen : (UInt16.ofNat data.length).toNat = data.length := by
    rw [UInt16.toNat_ofNat']
    exact Nat.mod_eq_of_lt (by omega)
  have hbytes :
      (TunnelHeader.simple actionData (UInt16.ofNat data.length)).encode.toBytes
        (TunnelHeader.fixedPartSize + data.length) = .ok _ :=
    toBytes_ok (TunnelHeader.emits_encode _) (by simp [TunnelHeader.fixedPartSize])
  simp only [encodeTunnelData]
  rw [if_pos h, hbytes]
  simp only [TunnelHeader.simple, hlen, List.append_assoc, List.cons_append, List.nil_append]
  rfl

/-- Two bytes that spell a number that fits in them. -/
theorem ofBigEndian_two {n : ℕ} (h : n ≤ 65535) :
    ofBigEndian [UInt8.ofNat (n / 256), UInt8.ofNat n] = n := by
  have hspell := ofBigEndian_bigEndian 2 n
  rw [Nat.mod_eq_of_lt (show n < 256 ^ 2 by omega)] at hspell
  simpa [bigEndian] using hspell

/-- A data message tells its length. -/
theorem peekPduLen_encodeTunnelData {data : List UInt8} (h : data.length ≤ 65535) :
    peekPduLen (encodeTunnelData data) = some (encodeTunnelData data).length := by
  rw [encodeTunnelData_eq h]
  have hlen := ofBigEndian_two h
  simp only [bigEndian, List.reverse_cons, List.reverse_nil, List.nil_append, List.cons_append,
    peekPduLen, pow_one, pow_zero, Nat.div_one, List.length_cons, hlen]
  simp only [TunnelHeader.fixedPartSize, UInt8.reduceToNat]
  simp only [Nat.lt_irrefl, if_false, Option.some.injEq]
  omega

/-- A header without sub-headers is read as it was written. -/
theorem TunnelHeader.gets_decode_simple (byte : UInt8) (payloadLength : UInt16) :
    Gets TunnelHeader.decode
      ([byte] ++ ((bigEndian 2 payloadLength.toNat).reverse ++ ([0x04] ++ [])))
      ⟨byte &&& 0x0f, (byte >>> 4) &&& 0x0f, payloadLength, 0x04⟩ := by
  refine gets_ensureSize ?_ (by simp [fixedPartSize])
  refine gets_bind (gets_readU8 byte) (gets_bind (gets_readU16Le payloadLength) ?_)
  exact gets_bind (gets_readU8 0x04) fun rest => rfl

/-- The channel data of a data message is read as it was written. -/
theorem tunnelDataPayload_encodeTunnelData {data : List UInt8} (h : data.length ≤ 65535) :
    tunnelDataPayload (encodeTunnelData data) = .ok data := by
  have hlen : (UInt16.ofNat data.length).toNat = data.length := by
    rw [UInt16.toNat_ofNat']
    exact Nat.mod_eq_of_lt (by omega)
  have hheader := TunnelHeader.gets_decode_simple 0x02 (UInt16.ofNat data.length) data
  rw [hlen] at hheader
  have hsplit : encodeTunnelData data =
      [0x02] ++ ((bigEndian 2 data.length).reverse ++ ([0x04] ++ [])) ++ data := by
    rw [encodeTunnelData_eq h]
    simp
  have hdecode : TunnelHeader.decode.fromBytes (encodeTunnelData data) =
      .ok ⟨0x02, 0, UInt16.ofNat data.length, 0x04⟩ := by
    rw [hsplit, fromBytes, hheader]
    rfl
  have htotal : (encodeTunnelData data).length = 4 + data.length := by
    rw [encodeTunnelData_eq h]
    simp only [List.length_cons, List.length_append, List.length_reverse, length_bigEndian]
    omega
  have hfits : 4 + data.length ≤ (encodeTunnelData data).length := Nat.le_of_eq htotal.symm
  simp only [tunnelDataPayload, hdecode, bind, Except.bind, UInt8.reduceToNat, hlen]
  rw [if_pos hfits, List.take_of_length_le (Nat.le_of_eq htotal), hsplit]
  rfl

end Macrdp.EmtTunnel

namespace Macrdp.UdpListener

open CookieRegistry EmtTunnel Framing RdpeudpEndpoint

namespace EmtState

/-- The state with another buffer. -/
def withInbound (e : EmtState) (buf : List UInt8) : EmtState :=
  { e with peer := { e.peer with emtInbound := buf } }

/-- The state as if the parsing had begun with what was decided and forwarded before. -/
def after (e : EmtState) (outcome : EmtTunnelOutcome) (forwarded : List (ℕ × List UInt8)) :
    EmtState :=
  { e with
    outcome := if e.outcome = {} then outcome else e.outcome
    forwarded := forwarded ++ e.forwarded }

/-- When only one of two parsings decided something, both together decided that. -/
theorem toList_after {β : Type} {g : EmtTunnelOutcome → Option β} (hg : g {} = none)
    {e : EmtState} {outcome : EmtTunnelOutcome} (h : e.outcome = {} ∨ outcome = {})
    (forwarded : List (ℕ × List UInt8)) :
    (g outcome).toList ++ (g e.outcome).toList =
      (g (e.after outcome forwarded).outcome).toList := by
  rcases h with hnow | hbefore
  · simp only [after, hnow, hg, if_true, Option.toList_none, List.append_nil]
  · by_cases hnow : e.outcome = {}
    · simp only [after, hnow, hbefore, hg, if_true, Option.toList_none, List.append_nil]
    · simp only [after, hbefore, hg, if_neg hnow, Option.toList_none, List.nil_append]

/-- A request is answered, or changes nothing. -/
theorem createRequest_cases (cookieBinding : Bool) (e : EmtState) (bytes : List UInt8) :
    e.createRequest cookieBinding bytes = e ∨
    ∃ cookie, e.peer.tunnelCreated = false ∧
      (e.createRequest cookieBinding bytes).outcome =
        ⟨some cookie, some TunnelCreateResponse.ok.toVec⟩ ∧
      (e.createRequest cookieBinding bytes).peer.tunnelCreated = true ∧
      (cookieBinding = true → ∃ entry, e.registry.entries.lookup cookie = some entry ∧
        (e.createRequest cookieBinding bytes).peer.inboundSink = some entry.inbound) := by
  unfold createRequest
  split
  · exact Or.inl rfl
  · next req consumed hdecode =>
    split
    · exact Or.inl rfl
    · next hcreated =>
      have hfalse : e.peer.tunnelCreated = false := by simpa using hcreated
      split
      · split
        · exact Or.inl rfl
        · next sink flag registry htake =>
          obtain ⟨entry, hlookup, heq⟩ := Option.map_eq_some_iff.mp htake
          cases heq
          exact Or.inr ⟨req.securityCookie, hfalse, rfl, rfl, fun _ => ⟨entry, hlookup, rfl⟩⟩
      · next hsoft =>
        exact Or.inr ⟨req.securityCookie, hfalse, rfl, rfl, fun h => absurd h hsoft⟩

variable (cookieBinding : Bool) (e : EmtState) (bytes buf : List UInt8)

/-- A request is answered whatever is behind it. -/
theorem createRequest_withInbound :
    (e.withInbound buf).createRequest cookieBinding bytes =
      (e.createRequest cookieBinding bytes).withInbound buf := by
  simp only [createRequest, withInbound]
  cases TunnelCreateRequest.decode bytes with
  | error _ => rfl
  | ok result =>
    obtain ⟨peer, registry, decided, sent⟩ := e
    obtain ⟨sm, inbound, created, sink, flag, lastSeenMs, serial, opening⟩ := peer
    cases created with
    | true => rfl
    | false =>
      cases cookieBinding with
      | false => rfl
      | true =>
        dsimp only
        cases registry.take result.1.securityCookie <;> rfl

/-- A request is answered whatever was decided and forwarded before. -/
theorem createRequest_after (outcome : EmtTunnelOutcome) (forwarded : List (ℕ × List UInt8)) :
    (e.after outcome forwarded).createRequest cookieBinding bytes =
      (e.createRequest cookieBinding bytes).after outcome forwarded := by
  unfold createRequest
  cases TunnelCreateRequest.decode bytes with
  | error _ => rfl
  | ok result =>
    obtain ⟨peer, registry, decided, sent⟩ := e
    obtain ⟨sm, inbound, created, sink, flag, lastSeenMs, serial, opening⟩ := peer
    cases created with
    | true => rfl
    | false =>
      cases cookieBinding with
      | false => rfl
      | true =>
        cases htake : registry.take result.1.securityCookie <;> simp [after, htake]

/-- Data is forwarded whatever is behind it. -/
theorem data_withInbound : (e.withInbound buf).data bytes = (e.data bytes).withInbound buf := by
  unfold data
  obtain ⟨peer, registry, decided, sent⟩ := e
  obtain ⟨sm, inbound, created, sink, flag, lastSeenMs, serial, opening⟩ := peer
  cases tunnelDataPayload bytes with
  | error _ => rfl
  | ok higher => cases sink <;> rfl

/-- Data is forwarded whatever was decided and forwarded before. -/
theorem data_after (outcome : EmtTunnelOutcome) (forwarded : List (ℕ × List UInt8)) :
    (e.after outcome forwarded).data bytes = (e.data bytes).after outcome forwarded := by
  unfold data
  obtain ⟨peer, registry, decided, sent⟩ := e
  obtain ⟨sm, inbound, created, sink, flag, lastSeenMs, serial, opening⟩ := peer
  cases tunnelDataPayload bytes with
  | error _ => rfl
  | ok higher =>
    cases sink with
    | none => rfl
    | some sink => simp only [after, List.append_assoc]

/-- What commutes with requests and with data commutes with messages. -/
theorem pdu_comm {g : EmtState → EmtState}
    (hrequest : (g e).createRequest cookieBinding bytes = g (e.createRequest cookieBinding bytes))
    (hdata : (g e).data bytes = g (e.data bytes)) :
    (g e).pdu cookieBinding bytes = g (e.pdu cookieBinding bytes) := by
  simp only [pdu]
  cases peekAction bytes with
  | none => rfl
  | some action =>
    dsimp only
    by_cases hcreate : action = actionCreateRequest
    · rw [if_pos hcreate, if_pos hcreate, hrequest]
    · rw [if_neg hcreate, if_neg hcreate]
      by_cases hact : action = actionData
      · rw [if_pos hact, if_pos hact, hdata]
      · rw [if_neg hact, if_neg hact]

/-- A message is processed whatever is behind it. -/
theorem pdu_withInbound :
    (e.withInbound buf).pdu cookieBinding bytes = (e.pdu cookieBinding bytes).withInbound buf :=
  pdu_comm (g := fun e => e.withInbound buf) cookieBinding e bytes
    (createRequest_withInbound cookieBinding e bytes buf) (data_withInbound e bytes buf)

/-- A message is processed whatever was decided and forwarded before. -/
theorem pdu_after (outcome : EmtTunnelOutcome) (forwarded : List (ℕ × List UInt8)) :
    (e.after outcome forwarded).pdu cookieBinding bytes =
      (e.pdu cookieBinding bytes).after outcome forwarded :=
  pdu_comm (g := fun e => e.after outcome forwarded) cookieBinding e bytes
    (createRequest_after cookieBinding e bytes outcome forwarded)
    (data_after e bytes outcome forwarded)

/-- The messages in the buffer are its frames. -/
theorem messages_eq (fuel : ℕ) :
    messages cookieBinding fuel (e.withInbound buf) =
      (tunnelFramer.run (pdu cookieBinding) fuel e buf).1.withInbound
        (tunnelFramer.run (pdu cookieBinding) fuel e buf).2 := by
  induction fuel generalizing e buf with
  | zero => rfl
  | succ fuel ih =>
    rw [messages, Framer.run, Framer.cut]
    have hpeek : peekPduLen (e.withInbound buf).peer.emtInbound = tunnelFramer.frameLen buf := rfl
    rw [hpeek]
    cases tunnelFramer.frameLen buf with
    | none => rfl
    | some total =>
      dsimp only
      have hlen : (e.withInbound buf).peer.emtInbound.length = buf.length := rfl
      rw [hlen]
      by_cases hshort : buf.length < total
      · rw [if_pos hshort, if_pos hshort]
      · rw [if_neg hshort, if_neg hshort]
        dsimp only
        rw [← ih, ← pdu_withInbound]
        rfl

/-- A state came from another by messages of which at most one was an answered request. -/
inductive Settles (cookieBinding : Bool) (e e' : EmtState) : Prop where
  /-- Nothing was answered. -/
  | same (outcome : e'.outcome = e.outcome)
    (created : e'.peer.tunnelCreated = e.peer.tunnelCreated)
    (sink : e'.peer.inboundSink = e.peer.inboundSink) (registry : e'.registry = e.registry)
  /-- A request was answered, with a registry for its cookie. -/
  | answered (cookie : Cookie) (fresh : e.peer.tunnelCreated = false)
    (outcome : e'.outcome = ⟨some cookie, some TunnelCreateResponse.ok.toVec⟩)
    (created : e'.peer.tunnelCreated = true)
    (bound : cookieBinding = true → ∃ entry, e.registry.entries.lookup cookie = some entry ∧
      e'.peer.inboundSink = some entry.inbound)

theorem Settles.trans {cookieBinding : Bool} {e e' e'' : EmtState}
    (h : Settles cookieBinding e e') (h' : Settles cookieBinding e' e'') :
    Settles cookieBinding e e'' := by
  cases h with
  | same outcome created sink registry =>
    cases h' with
    | same outcome' created' sink' registry' =>
      exact .same (outcome'.trans outcome) (created'.trans created) (sink'.trans sink)
        (registry'.trans registry)
    | answered cookie fresh' outcome' created' bound' =>
      rw [registry] at bound'
      exact .answered cookie (created.symm.trans fresh') outcome' created' bound'
  | answered cookie fresh outcome created bound =>
    cases h' with
    | same outcome' created' sink' registry' =>
      refine .answered cookie fresh (outcome'.trans outcome) (created'.trans created) ?_
      rw [sink']
      exact bound
    | answered cookie' fresh' outcome' created' bound' =>
      rw [created] at fresh'
      cases fresh'

/-- A message answers at most one request. -/
theorem pdu_settles : Settles cookieBinding e (e.pdu cookieBinding bytes) := by
  have hsame : Settles cookieBinding e e := .same rfl rfl rfl rfl
  unfold pdu
  split
  · split
    · rcases createRequest_cases cookieBinding e bytes with heq | hanswer
      · rw [heq]
        exact hsame
      · obtain ⟨cookie, fresh, outcome, created, bound⟩ := hanswer
        exact .answered cookie fresh outcome created bound
    · split
      · unfold data
        split
        · exact .same rfl rfl rfl rfl
        · exact hsame
      · exact hsame
  · exact hsame

end EmtState

section Handle

variable (cookieBinding : Bool) (peer : Peer) (registry : Registry)

/-- Parsing processes the frames of the buffer. -/
theorem handleEmtTunnel_eq (buf : List UInt8) :
    handleEmtTunnel cookieBinding { peer with emtInbound := buf } registry =
      (tunnelFramer.consume (EmtState.pdu cookieBinding) ⟨peer, registry, {}, []⟩ buf).1.withInbound
        (tunnelFramer.consume (EmtState.pdu cookieBinding) ⟨peer, registry, {}, []⟩ buf).2 :=
  EmtState.messages_eq cookieBinding ⟨peer, registry, {}, []⟩ buf buf.length

/-- Parsing answers at most one request. -/
theorem handleEmtTunnel_settles (buf : List UInt8) :
    EmtState.Settles cookieBinding ⟨peer, registry, {}, []⟩
      (handleEmtTunnel cookieBinding { peer with emtInbound := buf } registry) := by
  have hconsume := tunnelFramer.consume_induction (EmtState.pdu cookieBinding)
    (P := EmtState.Settles cookieBinding ⟨peer, registry, {}, []⟩)
    (fun e frame he => he.trans (EmtState.pdu_settles cookieBinding e frame))
    (.same rfl rfl rfl rfl) buf
  rw [handleEmtTunnel_eq]
  exact hconsume.trans (.same rfl rfl rfl rfl)

/-- Bytes that come later are parsed as if they had been there at once. -/
theorem handleEmtTunnel_append (buf more : List UInt8) {first : EmtState}
    (hfirst : first = handleEmtTunnel cookieBinding { peer with emtInbound := buf } registry) :
    handleEmtTunnel cookieBinding { peer with emtInbound := buf ++ more } registry =
      (handleEmtTunnel cookieBinding
        { first.peer with emtInbound := first.peer.emtInbound ++ more }
        first.registry).after first.outcome first.forwarded := by
  rw [handleEmtTunnel_eq] at hfirst
  subst hfirst
  generalize hs : tunnelFramer.consume (EmtState.pdu cookieBinding) ⟨peer, registry, {}, []⟩ buf = s
  have hafter : s.1 =
      EmtState.after ⟨s.1.peer, s.1.registry, {}, []⟩ s.1.outcome s.1.forwarded := by
    simp [EmtState.after]
  have hmap := tunnelFramer.consume_map (EmtState.pdu cookieBinding)
    (EmtState.pdu cookieBinding) (fun e => e.after s.1.outcome s.1.forwarded)
    (fun e frame => (EmtState.pdu_after cookieBinding e frame _ _).symm)
    ⟨s.1.peer, s.1.registry, {}, []⟩ (s.2 ++ more)
  rw [← hafter] at hmap
  rw [handleEmtTunnel_eq, Framer.consume_append, hs, hmap]
  have hrest := handleEmtTunnel_eq cookieBinding s.1.peer s.1.registry (s.2 ++ more)
  exact (congrArg (fun e => e.after s.1.outcome s.1.forwarded) hrest).symm

end Handle

/-- What became of the pieces of a stream. -/
structure Received where
  peer : Peer
  registry : Registry
  /-- What each call decided. -/
  outcomes : List EmtTunnelOutcome
  /-- What was sent, to which sink. -/
  forwarded : List (ℕ × List UInt8)

namespace Received

/-- The cookies that were bound. -/
def boundCookies (r : Received) : List Cookie := r.outcomes.filterMap (·.boundCookie)

/-- The responses that were given. -/
def responses (r : Received) : List (List UInt8) := r.outcomes.filterMap (·.response)

/-- A piece is appended to the buffer and parsed. -/
def chunk (cookieBinding : Bool) (r : Received) (bytes : List UInt8) : Received :=
  let e := handleEmtTunnel cookieBinding
    { r.peer with emtInbound := r.peer.emtInbound ++ bytes } r.registry
  ⟨e.peer, e.registry, r.outcomes ++ [e.outcome], r.forwarded ++ e.forwarded⟩

/-- The calls together did what one call did. -/
structure Agrees (r : Received) (e : EmtState) : Prop where
  peer : r.peer = e.peer
  registry : r.registry = e.registry
  forwarded : r.forwarded = e.forwarded
  boundCookies : r.boundCookies = e.outcome.boundCookie.toList
  responses : r.responses = e.outcome.response.toList

end Received

/-- The pieces of a stream are appended and parsed one after the other. -/
def receive (cookieBinding : Bool) (peer : Peer) (registry : Registry)
    (chunks : List (List UInt8)) : Received :=
  chunks.foldl (Received.chunk cookieBinding) ⟨peer, registry, [], []⟩

section Receive

variable (cookieBinding : Bool) (peer : Peer) (registry : Registry)

/-- What is picked from one more. -/
theorem filterMap_concat {α β : Type} (g : α → Option β) (xs : List α) (x : α) :
    (xs ++ [x]).filterMap g = xs.filterMap g ++ (g x).toList := by
  rw [List.filterMap_append, List.filterMap_cons]
  cases g x <;> rfl

/-- One call agrees with itself. -/
theorem agrees_chunk (bytes : List UInt8) :
    (Received.chunk cookieBinding ⟨peer, registry, [], []⟩ bytes).Agrees
      (handleEmtTunnel cookieBinding { peer with emtInbound := peer.emtInbound ++ bytes }
        registry) where
  peer := rfl
  registry := rfl
  forwarded := List.nil_append _
  boundCookies := filterMap_concat _ [] _
  responses := filterMap_concat _ [] _

/-- One more piece keeps the agreement. -/
theorem Received.Agrees.chunk {r : Received} {buf : List UInt8}
    (h : r.Agrees (handleEmtTunnel cookieBinding { peer with emtInbound := buf } registry))
    (bytes : List UInt8) :
    (r.chunk cookieBinding bytes).Agrees
      (handleEmtTunnel cookieBinding { peer with emtInbound := buf ++ bytes } registry) := by
  have hbefore := handleEmtTunnel_settles cookieBinding peer registry buf
  generalize hfirst : handleEmtTunnel cookieBinding { peer with emtInbound := buf } registry = first
    at h hbefore
  rw [handleEmtTunnel_append cookieBinding peer registry buf bytes hfirst.symm]
  have hnow := handleEmtTunnel_settles cookieBinding first.peer first.registry
    (first.peer.emtInbound ++ bytes)
  generalize hnext : handleEmtTunnel cookieBinding
    { first.peer with emtInbound := first.peer.emtInbound ++ bytes } first.registry = next at hnow ⊢
  -- A peer that was answered is not answered again.
  have hone : next.outcome = {} ∨ first.outcome = {} := by
    cases hnow with
    | same outcome created sink registry => exact Or.inl outcome
    | answered cookie fresh outcome created bound =>
      cases hbefore with
      | same outcome' created' sink' registry' => exact Or.inr outcome'
      | answered cookie' fresh' outcome' created' bound' =>
        rw [created'] at fresh
        cases fresh
  have hchunk : r.chunk cookieBinding bytes =
      ⟨next.peer, next.registry, r.outcomes ++ [next.outcome], r.forwarded ++ next.forwarded⟩ := by
    rw [Received.chunk, h.peer, h.registry, hnext]
  rw [hchunk]
  exact
    { peer := rfl
      registry := rfl
      forwarded := congrArg (· ++ next.forwarded) h.forwarded
      boundCookies := by
        rw [← EmtState.toList_after (g := (·.boundCookie)) rfl hone, ← h.boundCookies]
        exact filterMap_concat _ _ _
      responses := by
        rw [← EmtState.toList_after (g := (·.response)) rfl hone, ← h.responses]
        exact filterMap_concat _ _ _ }

/-- More pieces keep the agreement. -/
theorem Received.Agrees.chunks {r : Received} {buf : List UInt8}
    (h : r.Agrees (handleEmtTunnel cookieBinding { peer with emtInbound := buf } registry))
    (chunks : List (List UInt8)) :
    (chunks.foldl (Received.chunk cookieBinding) r).Agrees
      (handleEmtTunnel cookieBinding { peer with emtInbound := buf ++ chunks.flatten }
        registry) := by
  induction chunks generalizing r buf with
  | nil =>
    rw [List.flatten_nil, List.append_nil]
    exact h
  | cons bytes chunks ih =>
    rw [List.foldl_cons, List.flatten_cons, ← List.append_assoc]
    exact ih (h.chunk cookieBinding peer registry bytes)

/-- All the pieces together do what one call on their concatenation does. -/
theorem receive_agrees (chunks : List (List UInt8)) (h : chunks = [] → peer.emtInbound = []) :
    (receive cookieBinding peer registry chunks).Agrees
      (handleEmtTunnel cookieBinding
        { peer with emtInbound := peer.emtInbound ++ chunks.flatten } registry) := by
  cases chunks with
  | nil =>
    have hempty : { peer with emtInbound := peer.emtInbound ++ [].flatten } = peer := by
      rw [List.flatten_nil, List.append_nil]
    rw [hempty]
    have hhandle : handleEmtTunnel cookieBinding peer registry = ⟨peer, registry, {}, []⟩ := by
      rw [handleEmtTunnel, h rfl]
      rfl
    rw [hhandle]
    exact ⟨rfl, rfl, rfl, rfl, rfl⟩
  | cons bytes chunks =>
    rw [receive, List.foldl_cons, List.flatten_cons, ← List.append_assoc]
    exact (agrees_chunk cookieBinding peer registry bytes).chunks cookieBinding peer registry chunks

/-- A data message is forwarded if there is a sink. -/
theorem pdu_encodeTunnelData {data : List UInt8} (h : data.length ≤ 65535) (e : EmtState) :
    e.pdu cookieBinding (encodeTunnelData data) =
      { e with forwarded := e.forwarded ++ e.peer.inboundSink.toList.map fun sink =>
          (sink, data) } := by
  have haction : peekAction (encodeTunnelData data) = some actionData := by
    rw [encodeTunnelData_eq h]
    rfl
  have hpayload := tunnelDataPayload_encodeTunnelData h
  rw [EmtState.pdu, haction]
  dsimp only
  rw [if_neg (by decide), if_pos rfl, EmtState.data, hpayload]
  cases hsink : e.peer.inboundSink with
  | none => simp
  | some sink => rfl

/-- Data messages are forwarded in order. -/
theorem foldl_pdu_data {payloads : List (List UInt8)} (h : ∀ p ∈ payloads, p.length ≤ 65535)
    (e : EmtState) :
    (payloads.map encodeTunnelData).foldl (EmtState.pdu cookieBinding) e =
      { e with forwarded := e.forwarded ++
          e.peer.inboundSink.toList.flatMap fun sink => payloads.map fun p => (sink, p) } := by
  induction payloads generalizing e with
  | nil =>
    cases e.peer.inboundSink <;> simp
  | cons p payloads ih =>
    rw [List.map_cons, List.foldl_cons, pdu_encodeTunnelData cookieBinding (h p List.mem_cons_self),
      ih fun q hq => h q (List.mem_cons_of_mem _ hq)]
    cases hsink : e.peer.inboundSink with
    | none | some sink => simp

/-- A stream of data messages is forwarded, and nothing is left in the buffer. -/
theorem handleEmtTunnel_data {payloads : List (List UInt8)}
    (h : ∀ p ∈ payloads, p.length ≤ 65535) :
    handleEmtTunnel cookieBinding
        { peer with emtInbound := (payloads.map encodeTunnelData).flatten } registry =
      ⟨{ peer with emtInbound := [] }, registry, {},
        peer.inboundSink.toList.flatMap fun sink => payloads.map fun p => (sink, p)⟩ := by
  have hframes : ∀ frame ∈ payloads.map encodeTunnelData,
      tunnelFramer.frameLen frame = some frame.length := by
    intro frame hframe
    obtain ⟨p, hp, rfl⟩ := List.mem_map.mp hframe
    exact peekPduLen_encodeTunnelData (h p hp)
  rw [handleEmtTunnel_eq, Framer.consume_flatten _ _ hframes, foldl_pdu_data cookieBinding h]
  rfl

/-- However the decrypted stream is divided into pieces, the same is bound, answered and
forwarded, at most one request is answered, and the same is left in the buffer; and once a
request is answered, channel data comes out as it was put in. -/
theorem receive_independent_of_chunks (chunks : List (List UInt8))
    (hchunks : chunks = [] → peer.emtInbound = []) :
    let parts := receive cookieBinding peer registry chunks
    let whole := receive cookieBinding peer registry [chunks.flatten]
    (parts.peer = whole.peer ∧ parts.registry = whole.registry ∧
      parts.forwarded = whole.forwarded ∧ parts.boundCookies = whole.boundCookies ∧
      parts.responses = whole.responses ∧ parts.responses.length ≤ 1) ∧
    (parts.responses ≠ [] →
      (cookieBinding = true → ∃ cookie entry, parts.boundCookies = [cookie] ∧
        registry.entries.lookup cookie = some entry ∧
        parts.peer.inboundSink = some entry.inbound) ∧
      (parts.peer.emtInbound = [] → ∀ payloads : List (List UInt8),
        (∀ p ∈ payloads, p.length ≤ 65535) → ∀ pieces : List (List UInt8),
        pieces.flatten = (payloads.map encodeTunnelData).flatten →
        (receive cookieBinding parts.peer parts.registry pieces).forwarded =
          (parts.peer.inboundSink.toList.flatMap fun sink => payloads.map fun p => (sink, p)) ∧
        (receive cookieBinding parts.peer parts.registry pieces).peer.emtInbound = [])) := by
  intro parts whole
  have hparts := receive_agrees cookieBinding peer registry chunks hchunks
  have hwhole := receive_agrees cookieBinding peer registry [chunks.flatten]
    (fun h => absurd h (List.cons_ne_nil _ _))
  rw [List.flatten_singleton] at hwhole
  have hsettles := handleEmtTunnel_settles cookieBinding peer registry
    (peer.emtInbound ++ chunks.flatten)
  constructor
  · refine ⟨hparts.peer.trans hwhole.peer.symm, hparts.registry.trans hwhole.registry.symm,
      hparts.forwarded.trans hwhole.forwarded.symm,
      hparts.boundCookies.trans hwhole.boundCookies.symm,
      hparts.responses.trans hwhole.responses.symm, ?_⟩
    rw [hparts.responses]
    exact Option.length_toList_le
  · intro hanswered
    constructor
    · intro hbinding
      cases hsettles with
      | same outcome created sink registry =>
        rw [hparts.responses, outcome] at hanswered
        exact absurd rfl hanswered
      | answered cookie fresh outcome created bound =>
        obtain ⟨entry, hlookup, hsink⟩ := bound hbinding
        refine ⟨cookie, entry, ?_, hlookup, ?_⟩
        · rw [hparts.boundCookies, outcome]
          rfl
        · rw [hparts.peer]
          exact hsink
    · intro hempty payloads hlen pieces hpieces
      have hdata := receive_agrees cookieBinding parts.peer parts.registry pieces
        fun _ => hempty
      rw [hempty, hpieces, List.nil_append,
        handleEmtTunnel_data cookieBinding parts.peer parts.registry hlen] at hdata
      exact ⟨hdata.forwarded, congrArg Peer.emtInbound hdata.peer⟩

/-- A request with the given cookie, and nothing behind it. -/
def requestBytes (cookie : Cookie) : List UInt8 :=
  [0, 24, 0, 4] ++ List.replicate 8 0 ++ cookie.1

/-- A request in two pieces binds its cookie, and a message in two pieces is forwarded. -/
theorem receive_independent_of_chunks_halves :
    let peer : Peer := ⟨RdpeudpState.new .server {}, [], false, none, none, 0, 0, []⟩
    let registry := (Registry.new.register (Cookie.replicate 9) 7).2
    let request := requestBytes (Cookie.replicate 9)
    let parts := receive true peer registry [request.take 5, request.drop 5]
    parts.boundCookies = [Cookie.replicate 9] ∧
      (receive true parts.peer parts.registry [[2, 3, 0], [4, 5, 6, 8]]).forwarded =
        [(7, [5, 6, 8])] := by
  intro peer registry request parts
  have hall := receive_independent_of_chunks true peer registry [request.take 5, request.drop 5]
    fun h => absurd h (List.cons_ne_nil _ _)
  have hcookies : parts.boundCookies = [Cookie.replicate 9] := by decide +kernel
  have hsink : parts.peer.inboundSink = some 7 := by decide +kernel
  have hdata := (hall.2 (by decide +kernel)).2 (by decide +kernel) [[5, 6, 8]] (by decide)
    [[2, 3, 0], [4, 5, 6, 8]] (by decide +kernel)
  refine ⟨hcookies, hdata.1.trans ?_⟩
  change (parts.peer.inboundSink.toList.flatMap fun sink => [[5, 6, 8]].map fun p => (sink, p)) = _
  rw [hsink]
  rfl

end Receive

end Macrdp.UdpListener
