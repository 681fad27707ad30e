import Macrdp.RdpeudpNetwork
import Macrdp.RdpeudpSizes

/-!
# One exchange of datagrams without a loss

The client ticks, the server takes in what the client sent, and the client what the server sent. A
call panics exactly if the acknowledgment vector does not fit the buffers of what is sent with it.
An endpoint whose oldest segment is due sends that first, and one that owes an acknowledgment sends
it with the first datagram.
-/

namespace Macrdp.RdpeudpExchange

open StepSystem RdpeudpPdu RdpeudpDatagram RdpeudpEndpoint RdpeudpEndpoint.RdpeudpState RdpeudpPump
  RdpeudpReceive RdpeudpNetwork RdpeudpSizes

/-! ## The exchange -/

/-- One side takes in what its peer sent since it had sent so many datagrams. -/
def receipts (role : Role) (nowMs : UInt64) (sent : ℕ) (peer : Side) : List NetAction :=
  (List.range' sent (peer.emitted.length - sent)).map fun i => ⟨role, nowMs, .receive i⟩

/-- The client ticks, the server takes in what the client sent, and the client what the server
sent in reply; `none` is a panic. -/
def exchange (net : Network) (nowMs : UInt64) : Option Network :=
  (net.step ⟨.client, nowMs, .tick⟩).bind fun sent =>
    (run Network.step sent
      (receipts .server nowMs net.client.emitted.length sent.client)).bind fun replied =>
        run Network.step replied
          (receipts .client nowMs net.server.emitted.length replied.server)

/-- The oldest segment is released, and its bytes are delivered behind all that were released
before it. -/
def Progressed (net net' : Network) (u : Unacked) : Prop :=
  (∀ v ∈ net'.client.endpoint.unacked, v.seq ≠ u.seq) ∧
    ∃ released, net.client.enqueued =
        released ++ ((net.client.endpoint.unacked.map Unacked.payload).flatten ++
          net.client.endpoint.outQueue) ∧
      released ++ u.payload <+: net'.server.delivered

/-- The vector of a side fits the buffers of what it sends in a call. -/
def sideEncodes (side peer : Side) (nowMs : UInt64) : Call → Bool
  | .start => (EndpointCall.start nowMs).encodes side.endpoint
  | .enqueue data => (EndpointCall.enqueue nowMs data).encodes side.endpoint
  | .tick => (EndpointCall.step nowMs none).encodes side.endpoint
  | .receive index => peer.emitted[index]?.all fun bytes =>
      (EndpointCall.step nowMs (some bytes)).encodes side.endpoint

/-- The vector of the side that is called fits. -/
def callEncodes (net : Network) (a : NetAction) : Bool :=
  match a.role with
  | .client => sideEncodes net.client net.server a.nowMs a.call
  | .server => sideEncodes net.server net.client a.nowMs a.call

/-- The vectors fit at every call of the exchange. -/
def exchangeEncodes (net : Network) (nowMs : UInt64) : Bool :=
  callEncodes net ⟨.client, nowMs, .tick⟩ &&
    (net.step ⟨.client, nowMs, .tick⟩).all fun sent =>
      let requests := receipts .server nowMs net.client.emitted.length sent.client
      meetsBool Network.step callEncodes sent requests &&
        (run Network.step sent requests).all fun replied =>
          meetsBool Network.step callEncodes replied
            (receipts .client nowMs net.server.emitted.length replied.server)

/-! ## When the exchange panics -/

variable {peer : Side} {nowMs : UInt64}

/-- A call of a side panics exactly if its vector does not fit. -/
theorem call_isSome_iff {side : Side} {c : Call}
    (hindex : ∀ index, c = .receive index → index < peer.emitted.length) :
    (side.call peer nowMs c).isSome = true ↔ sideEncodes side peer nowMs c = true := by
  cases c with
  | start =>
    rw [Side.call, Option.isSome_map]
    exact EndpointCall.apply_isSome_iff (c := .start nowMs)
  | enqueue data =>
    rw [Side.call, Option.isSome_map]
    exact EndpointCall.apply_isSome_iff (c := .enqueue nowMs data)
  | tick =>
    rw [Side.call, Option.isSome_map]
    exact EndpointCall.apply_isSome_iff (c := .step nowMs none)
  | receive index =>
    have hget := List.getElem?_eq_getElem (hindex index rfl)
    rw [Side.call, sideEncodes, hget, Option.bind_some, Option.isSome_map, Option.all_some]
    exact EndpointCall.apply_isSome_iff (c := .step nowMs (some _))

/-- The peer of a side. -/
def peerOf (net : Network) : Role → Side
  | .client => net.server
  | .server => net.client

variable {net : Network}

/-- A step leaves the peer of the side that is called alone. -/
theorem peerOf_step {net' : Network} {a : NetAction} (h : net.step a = some net') :
    peerOf net' a.role = peerOf net a.role := by
  obtain ⟨-, -, ⟨hrole, -, hkeep⟩ | ⟨hrole, -, hkeep⟩⟩ := step_some h
  · rw [hrole]
    exact hkeep
  · rw [hrole]
    exact hkeep

/-- A step that is not early panics exactly if the vector does not fit. -/
theorem step_isSome_iff {a : NetAction} (htime : net.clock ≤ a.nowMs)
    (hindex : ∀ index, a.call = .receive index → index < (peerOf net a.role).emitted.length) :
    (net.step a).isSome = true ↔ callEncodes net a = true := by
  rw [Network.step, if_neg (UInt64.not_lt.mpr htime), callEncodes]
  cases hrole : a.role with
  | client | server =>
    rw [hrole] at hindex
    simp only [Option.isSome_map]
    exact call_isSome_iff hindex

/-- A receipt is of a datagram that the peer sent. -/
theorem mem_receipts {role : Role} {sent : ℕ} {a : NetAction}
    (h : a ∈ receipts role nowMs sent peer) :
    ∃ index, a = ⟨role, nowMs, .receive index⟩ ∧ sent ≤ index ∧ index < peer.emitted.length := by
  obtain ⟨index, hindex, rfl⟩ := List.mem_map.mp h
  obtain ⟨hlow, hhigh⟩ := List.mem_range'_1.mp hindex
  exact ⟨index, rfl, hlow, by omega⟩

/-- A side takes in what its peer sent, unless a vector does not fit. -/
theorem receipts_isSome_iff (role : Role) (sent : ℕ) (htime : net.clock ≤ nowMs) :
    (run Network.step net (receipts role nowMs sent (peerOf net role))).isSome = true ↔
      meetsBool Network.step callEncodes net (receipts role nowMs sent (peerOf net role)) =
        true := by
  rw [meetsBool_iff]
  refine run_isSome_iff_meets (fun n => n.clock ≤ nowMs ∧ peerOf n role = peerOf net role) ?_ ?_
    ⟨htime, rfl⟩
  · rintro n a ha ⟨hclock, hkept⟩
    obtain ⟨index, rfl, -, hlt⟩ := mem_receipts ha
    refine step_isSome_iff hclock fun i hi => ?_
    cases hi
    rw [hkept]
    exact hlt
  · rintro n a ha n' ⟨-, hkept⟩ hstep
    obtain ⟨index, rfl, -, -⟩ := mem_receipts ha
    obtain ⟨-, hclock, -⟩ := step_some hstep
    exact ⟨Nat.le_of_eq (congrArg UInt64.toNat hclock), (peerOf_step hstep).trans hkept⟩

/-- The receipts of one side leave the time where it is. -/
theorem clock_receipts {role : Role} {sent : ℕ} {net' : Network} (htime : net.clock ≤ nowMs)
    (hrun : run Network.step net (receipts role nowMs sent peer) = some net') :
    net'.clock ≤ nowMs := by
  have hmeets : Meets Network.step (fun _ a => a.nowMs = nowMs) net
      (receipts role nowMs sent peer) := by
    refine meets_of_forall (fun a ha => ?_) net
    obtain ⟨index, rfl, -, -⟩ := mem_receipts ha
    rfl
  refine run_invariant (fun n => n.clock ≤ nowMs) (fun n a n' _ ha hstep => ?_) htime hmeets hrun
  obtain ⟨-, hclock, -⟩ := step_some hstep
  rw [hclock, ha]
  exact Nat.le_of_eq rfl

/-- The exchange panics exactly if a vector does not fit at one of its calls. -/
theorem exchange_isSome_iff (htime : net.clock ≤ nowMs) :
    (exchange net nowMs).isSome = true ↔ exchangeEncodes net nowMs = true := by
  have htick : (net.step ⟨.client, nowMs, .tick⟩).isSome = true ↔
      callEncodes net ⟨.client, nowMs, .tick⟩ = true :=
    step_isSome_iff htime fun i hi => by cases hi
  unfold exchange exchangeEncodes
  rw [Bool.and_eq_true, ← htick]
  cases hsent : net.step ⟨.client, nowMs, .tick⟩ with
  | none => simp
  | some sent =>
    obtain ⟨-, hclock, -⟩ := step_some hsent
    have htime₁ : sent.clock ≤ nowMs := Nat.le_of_eq (congrArg UInt64.toNat hclock)
    have hrequests := receipts_isSome_iff .server net.client.emitted.length htime₁
    simp only [peerOf] at hrequests
    simp only [Option.bind_some, Option.isSome_some, true_and, Option.all_some, Bool.and_eq_true]
    rw [← hrequests]
    cases hreplied : run Network.step sent
        (receipts .server nowMs net.client.emitted.length sent.client) with
    | none => simp
    | some replied =>
      simp only [Option.bind_some, Option.isSome_some, true_and, Option.all_some]
      exact receipts_isSome_iff .client _ (clock_receipts htime₁ hreplied)

/-! ## What a call sends -/

/-- The output grows by datagrams with the acknowledgment number of the endpoint, by some if the
flag was raised. -/
def Answers (s : RdpeudpState) (out out' : StepOutput) (sent sent' : Bool) : Prop :=
  ∃ ds : List Datagram, out'.toSend = out.toSend ++ ds.map Datagram.bytes ∧
    (∀ d ∈ ds, Datagram.decode d.bytes = .ok d ∧ d.fec.sndSourceAck = s.ackNum) ∧
    (sent' = true → sent = true ∨ ds ≠ [])

theorem Answers.refl (s : RdpeudpState) (out : StepOutput) (sent : Bool) :
    Answers s out out sent sent := ⟨[], by simp, by simp, .inl⟩

variable {s s' : RdpeudpState} {out out' : StepOutput}

theorem Answers.trans {out'' : StepOutput}
    {sent sent' sent'' : Bool} (hsame : s'.ackNum = s.ackNum) (h : Answers s out out' sent sent')
    (h' : Answers s' out' out'' sent' sent'') : Answers s out out'' sent sent'' := by
  obtain ⟨ds, hds, hall, hflag⟩ := h
  obtain ⟨ds', hds', hall', hflag'⟩ := h'
  refine ⟨ds ++ ds', ?_, ?_, ?_⟩
  · rw [hds', hds, List.map_append, List.append_assoc]
  · intro d hd
    rcases List.mem_append.mp hd with hfirst | hsecond
    · exact hall d hfirst
    · rw [← hsame]
      exact hall' d hsecond
  · intro htrue
    rcases hflag' htrue with hsent | hsome
    · rcases hflag hsent with hfirst | hsome
      · exact .inl hfirst
      · exact .inr (List.append_ne_nil_of_left_ne_nil hsome _)
    · exact .inr (List.append_ne_nil_of_right_ne_nil _ hsome)

/-- A datagram with that number is sent. -/
theorem answers_push {d : Datagram} (sent : Bool)
    (hdecode : Datagram.decode d.bytes = .ok d) (hack : d.fec.sndSourceAck = s.ackNum)
    (hpush : push out d = some out') : Answers s out out' sent true := by
  refine ⟨[d], by rw [push_some hpush]; rfl, fun e he => ?_, fun _ => .inr (List.cons_ne_nil _ _)⟩
  rw [List.mem_singleton.mp he]
  exact ⟨hdecode, hack⟩

/-- Segments are retransmitted with the acknowledgment number of the endpoint. -/
theorem retransmitData_answers {v : AckVectorHeader}
    {entries entries' : List Unacked} {sent sent' : Bool} (hv : WellFormed v)
    (h : s.retransmitData nowMs v entries out sent = some (entries', out', sent')) :
    Answers s out out' sent sent' := by
  induction entries generalizing out sent entries' with
  | nil =>
    cases h
    exact Answers.refl _ _ _
  | cons entry rest ih =>
    simp only [retransmitData] at h
    split at h
    · simp only [Option.bind_eq_bind, Option.bind_eq_some_iff, Option.pure_def,
        Option.some.injEq, Prod.mk.injEq] at h
      obtain ⟨pushed, hpush, ⟨rest', out₁, sent₁⟩, hloop, -, rfl, rfl⟩ := h
      have hpushed : Answers s out pushed sent true :=
        answers_push sent (Datagram.decode_ofData _ _ _ hv.1 hv.2) rfl hpush
      have hfirst : Answers s out { pushed with retransmits := pushed.retransmits + 1 } sent true :=
        hpushed
      exact hfirst.trans rfl (ih hloop)
    · simp only [Option.bind_eq_bind, Option.bind_eq_some_iff, Option.pure_def,
        Option.some.injEq, Prod.mk.injEq] at h
      obtain ⟨⟨rest', out₁, sent₁⟩, hloop, -, rfl, rfl⟩ := h
      exact ih hloop

/-- New segments are sent with the acknowledgment number of the endpoint. -/
theorem sendNew_answers {v : AckVectorHeader} {fuel : ℕ}
    {sent sent' : Bool} (hmode : s.cfg.mode = .reliable)
    (hv : WellFormed v) (h : sendNew nowMs v fuel s out sent = some (s', out', sent')) :
    Answers s out out' sent sent' ∧ s'.needAck = s.needAck := by
  induction fuel generalizing s out sent with
  | zero =>
    cases h
    exact ⟨Answers.refl _ _ _, rfl⟩
  | succ fuel ih =>
    simp only [sendNew] at h
    split at h
    · obtain ⟨⟨t, out₁⟩, hseg, hloop⟩ := Option.bind_eq_some_iff.mp h
      have hsame := sendSegment_frame hseg
      simp only [sendSegment, hmode, reduceCtorEq, false_and, if_false, Option.bind_eq_bind,
        Option.bind_some, Option.bind_eq_some_iff, Option.pure_def, Option.some.injEq,
        Prod.mk.injEq] at hseg
      obtain ⟨pushed, hpush, rfl, rfl⟩ := hseg
      have hfirst : Answers s out pushed sent true :=
        answers_push sent (Datagram.decode_ofData _ _ _ hv.1 hv.2) rfl hpush
      obtain ⟨hrest, hkept⟩ := ih (by exact hmode) hloop
      exact ⟨hfirst.trans hsame.ackNum hrest, hkept⟩
    · cases h
      exact ⟨Answers.refl _ _ _, rfl⟩

/-- An established endpoint that owes an acknowledgment sends one, with data or without. -/
theorem pump_answers
    (hmode : s.cfg.mode = .reliable) (hstate : s.state = .established) (howed : s.needAck = true)
    (h : s.pump nowMs out = some (s', out')) :
    ∃ d, d.bytes ∈ out'.toSend ∧ Datagram.decode d.bytes = .ok d ∧
      d.fec.sndSourceAck = s.ackNum := by
  have hopen : s.isEstablished = true := by rw [isEstablished, hstate]; rfl
  have hsyn : s.retransmitSyn nowMs out = some (s, out) := by
    rw [retransmitSyn, hstate, if_neg (by simp)]
  have hv := ackVector_wellFormed s
  simp only [pump, hsyn, hopen, Option.bind_eq_bind, Option.bind_some, if_true,
    Option.bind_eq_some_iff] at h
  obtain ⟨⟨entries, out₂, sent₂⟩, hdata, ⟨u, out₃, sent₃⟩, hnew, hack⟩ := h
  have hfirst := retransmitData_answers hv hdata
  obtain ⟨hsecond, hkept⟩ := sendNew_answers (s := { s with unacked := entries }) hmode hv hnew
  have hthird : Answers u out₃ out' sent₃ true := by
    have hneed : u.needAck = true := hkept.trans howed
    cases sent₃ with
    | true =>
      simp only [sendAck, Bool.not_true, Bool.and_false, Bool.false_eq_true, if_false,
        Option.bind_eq_bind, Option.bind_some, Option.pure_def, Option.some.injEq,
        Prod.mk.injEq] at hack
      rw [← hack.2]
      exact Answers.refl u out₃ true
    | false =>
      simp only [sendAck, hneed, Bool.not_false, Bool.and_self, if_true, Option.bind_eq_bind,
        Option.bind_eq_some_iff, Option.pure_def, Option.some.injEq, Prod.mk.injEq] at hack
      obtain ⟨pushed, hpush, -, rfl⟩ := hack
      exact answers_push false (Datagram.decode_ofAck _ _ hv.1 hv.2) rfl hpush
  have hsame : u.ackNum = s.ackNum := (sendNew_frame hnew).ackNum
  obtain ⟨ds, hds, hall, hflag⟩ := (hfirst.trans rfl hsecond).trans hsame hthird
  obtain ⟨d, rest, rfl⟩ :=
    List.exists_cons_of_ne_nil ((hflag rfl).resolve_left Bool.false_ne_true)
  obtain ⟨hdecode, hnumber⟩ := hall d List.mem_cons_self
  refine ⟨d, ?_, hdecode, hnumber⟩
  rw [hds, List.map_cons]
  exact List.mem_append_right _ List.mem_cons_self

/-- An established endpoint whose oldest segment is due sends that first. -/
theorem pump_front {u : Unacked}
    {rest : List Unacked} (hmode : s.cfg.mode = .reliable) (hstate : s.state = .established)
    (hfront : s.unacked = u :: rest) (hdue : s.cfg.rtoMs ≤ nowMs - u.lastSentMs)
    (h : s.pump nowMs out = some (s', out')) :
    ∃ more, out'.toSend =
      out.toSend ++ (s.dataDatagram u.seq u.payload s.ackVector).bytes :: more := by
  have hopen : s.isEstablished = true := by rw [isEstablished, hstate]; rfl
  have hsyn : s.retransmitSyn nowMs out = some (s, out) := by
    rw [retransmitSyn, hstate, if_neg (by simp)]
  have hv := ackVector_wellFormed s
  simp only [pump, hsyn, hopen, hfront, Option.bind_eq_bind, Option.bind_some, if_true,
    Option.bind_eq_some_iff] at h
  obtain ⟨⟨entries, out₂, sent₂⟩, hdata, ⟨t, out₃, sent₃⟩, hnew, hack⟩ := h
  simp only [retransmitData, if_pos hdue, Option.bind_eq_bind, Option.bind_eq_some_iff,
    Option.pure_def, Option.some.injEq, Prod.mk.injEq] at hdata
  obtain ⟨pushed, hpush, ⟨rest', out₁, sent₁⟩, hloop, rfl, rfl, rfl⟩ := hdata
  -- Everything behind the first datagram is appended.
  obtain ⟨ds₁, hds₁, -, -⟩ := retransmitData_answers hv hloop
  obtain ⟨⟨ds₂, hds₂, -, -⟩, -⟩ := sendNew_answers (by exact hmode) hv hnew
  have hopen' : t.state = .established := (sendNew_frame hnew).state.trans hstate
  obtain ⟨-, -, ds₃, hds₃, -⟩ := sendAck_spec [] hopen' hv hack
  refine ⟨ds₁.map Datagram.bytes ++ ds₂.map Datagram.bytes ++ ds₃.map Datagram.bytes, ?_⟩
  rw [hds₃, hds₂, hds₁, push_some hpush]
  simp only [List.append_assoc, List.cons_append, List.nil_append]

/-- Taking a source payload in leaves an acknowledgment owed. -/
theorem drainReorder_needAck {fuel : ℕ}
    (h : drainReorder fuel s out = (s', out')) : s'.needAck = s.needAck := by
  induction fuel generalizing s out with
  | zero =>
    cases h
    rfl
  | succ fuel ih =>
    simp only [drainReorder] at h
    split at h
    · cases h
      rfl
    · have hdrained := ih h
      exact hdrained

/-- A datagram with a source payload leaves an acknowledgment owed. -/
theorem handle_needAck {dg : Datagram}
    {src : SourcePacket} (hmode : s.cfg.mode = .reliable) (hsrc : dg.source = some src)
    (h : s.handle dg out = some (s', out')) : s'.needAck = true := by
  obtain ⟨m, o, hopen, hrecv⟩ := handle_some h
  have hmode' : ((m.processAck dg.fec.sndSourceAck).adoptSeq src.header.snSourceStart).cfg.mode =
      .reliable := by
    rw [adoptSeq]
    split <;> exact (congrArg Config.mode hopen.cfg).trans hmode
  simp only [recvSection, hsrc, recvSource, hmode', reduceCtorEq, if_false, placeSegment] at hrecv
  split at hrecv
  · exact drainReorder_needAck hrecv
  · split at hrecv
    · cases hrecv
      rfl
    · cases hrecv
      rfl

/-- What a call that takes in a datagram does. -/
theorem receive_some {side side' : Side} {index : ℕ} {dg : Datagram}
    (hin : peer.inbound (.receive index) = some dg)
    (h : side.call peer nowMs (.receive index) = some side') :
    ∃ m out s' out', side.endpoint.handle dg {} = some (m, out) ∧
      m.pump nowMs out = some (s', out') ∧ side' = side.absorb [] (s', out') := by
  obtain ⟨bytes, hget, hdecode⟩ := Option.bind_eq_some_iff.mp hin
  have hok : Datagram.decode bytes = .ok dg := by
    cases hd : Datagram.decode bytes with
    | error e =>
      rw [hd] at hdecode
      cases hdecode
    | ok d =>
      rw [hd] at hdecode
      cases hdecode
      rfl
  simp only [Side.call, hget, Option.bind_some, Option.map_eq_some_iff] at h
  obtain ⟨⟨s', out'⟩, hstep, rfl⟩ := h
  simp only [RdpeudpState.step, hok, Option.bind_eq_bind, Option.bind_eq_some_iff] at hstep
  obtain ⟨⟨m, out⟩, hhandle, hpump⟩ := hstep
  exact ⟨m, out, s', out', hhandle, hpump, rfl⟩

end Macrdp.RdpeudpExchange
