import Macrdp.ClientPdus

/-!
# What a reactivation leaves of the PDUs

The acceptor skips the data of static channels, and a client loop that ends for a
reactivation drops the PDU it has in hand and the response it writes. Nothing else is
lost while a connection lives.
-/

namespace Macrdp.ClientPdus

open StepSystem

variable {κ δ ρ : Type*} {cfg : Config κ δ ρ} {s s' : Connection κ δ ρ} {a : Action κ δ}

/-- Static channel data reaches its channel and is answered, as long as the connection
lives. -/
structure Delivered (cfg : Config κ δ ρ) (s : Connection κ δ ρ) : Prop where
  /-- What was received was given to its channel, in order, or is in hand. -/
  given : s.stage.isEnded = false → s.received = s.processed ++ s.inHand cfg
  /-- What the channels returned was written, or is being written. -/
  answered : s.stage.isEnded = false → s.responses = s.written ++ s.responding
  /-- What a client loop has in hand it can deal with. -/
  drains : ∀ handling, s.stage = .looping handling →
    ∃ acts t, run (Connection.step cfg) s acts = some t ∧ t.received = s.received ∧
      (t.stage.isEnded = true ∨ t.stage = .looping .reading)

/-- Static channel data comes in client loops alone, and a client loop ends for a
reactivation with nothing of a static channel in hand. -/
def NotCut (cfg : Config κ δ ρ) (s : Connection κ δ ρ) : Action κ δ → Prop
  | .pdu (.sendData channelId _) => channelId ∈ cfg.staticIds → s.isLooping = true
  | .resize => (s.inHand cfg).isEmpty = true ∧ s.responding.isEmpty = true
  | _ => True

instance (cfg : Config κ δ ρ) (s : Connection κ δ ρ) : ∀ a, Decidable (NotCut cfg s a)
  | .pdu (.sendData _ _) => inferInstanceAs (Decidable (_ → _))
  | .resize => inferInstanceAs (Decidable (_ ∧ _))
  | .pdu (.fastPath _) => .isTrue trivial
  | .pdu (.io _) => .isTrue trivial
  | .pdu (.disconnectProviderUltimatum _) => .isTrue trivial
  | .pdu .otherMcs => .isTrue trivial
  | .pdu .invalid => .isTrue trivial
  | .send => .isTrue trivial
  | .getResult => .isTrue trivial
  | .replay => .isTrue trivial
  | .clientLoop => .isTrue trivial
  | .dispatch => .isTrue trivial
  | .written _ => .isTrue trivial
  | .event _ => .isTrue trivial
  | .finish => .isTrue trivial

/-- The static channel data a step reads. -/
def arrived (cfg : Config κ δ ρ) : Action κ δ → List (UInt16 × δ)
  | .pdu pdu => pdu.staticData cfg
  | _ => []

/-- The static channel data a step loses. -/
def lost (cfg : Config κ δ ρ) (s : Connection κ δ ρ) : Action κ δ → List (UInt16 × δ)
  | .pdu pdu => if s.isLooping then [] else pdu.staticData cfg
  | .resize => s.inHand cfg
  | .finish => s.inHand cfg
  | _ => []

/-- The response a step loses. -/
def unsent (s : Connection κ δ ρ) : Action κ δ → List ρ
  | .written false => s.responding
  | .resize => s.responding
  | .finish => s.responding
  | _ => []

/-- What was received was given, is in hand, or is lost; what was returned was written, is
being written, or is lost. -/
structure Ledger (cfg : Config κ δ ρ) (s s' : Connection κ δ ρ) (a : Action κ δ) : Prop where
  received : s'.received = s.received ++ arrived cfg a
  given : s'.processed ++ s'.inHand cfg ++ lost cfg s a =
    s.processed ++ s.inHand cfg ++ arrived cfg a
  answered : ∃ returned, s'.responses = s.responses ++ returned ∧
    s'.written ++ s'.responding ++ unsent s a = s.written ++ s.responding ++ returned

/-- Nothing of a static channel is in hand or being written. -/
def Quiet (cfg : Config κ δ ρ) (s : Connection κ δ ρ) : Prop :=
  s.inHand cfg = [] ∧ s.responding = []

theorem quiet_acceptor {state : AcceptorState δ} (h : s.stage = .acceptor state) : Quiet cfg s := by
  simp [Quiet, Connection.inHand, Connection.responding, h]

theorem quiet_clientAccepted {inputEvents : List (ClientPdu δ)}
    (h : s.stage = .clientAccepted inputEvents) : Quiet cfg s := by
  simp [Quiet, Connection.inHand, Connection.responding, h]

theorem quiet_reading (h : s.stage = .looping .reading) : Quiet cfg s := by
  simp [Quiet, Connection.inHand, Connection.responding, h]

theorem quiet_ended (h : s.stage = .ended) : Quiet cfg s := by
  simp [Quiet, Connection.inHand, Connection.responding, h]

/-- A step that moves the connection and gives nothing to a channel. -/
theorem Ledger.of_move (hreceived : s'.received = s.received ++ arrived cfg a)
    (hprocessed : s'.processed = s.processed) (hresponses : s'.responses = s.responses)
    (hwritten : s'.written = s.written)
    (hgiven : s'.inHand cfg ++ lost cfg s a = s.inHand cfg ++ arrived cfg a)
    (hanswered : s'.responding ++ unsent s a = s.responding) : Ledger cfg s s' a where
  received := hreceived
  given := by rw [hprocessed, List.append_assoc, hgiven, List.append_assoc]
  answered := ⟨[], by simp [hresponses], by
    rw [hwritten, List.append_nil, List.append_assoc, hanswered]⟩

/-- A step between two states in which nothing is in hand. -/
theorem Ledger.of_quiet (hs : Quiet cfg s) (hs' : Quiet cfg s')
    (hreceived : s'.received = s.received ++ arrived cfg a)
    (hprocessed : s'.processed = s.processed) (hresponses : s'.responses = s.responses)
    (hwritten : s'.written = s.written) (hlost : lost cfg s a = arrived cfg a)
    (hunsent : unsent s a = []) : Ledger cfg s s' a := by
  refine .of_move hreceived hprocessed hresponses hwritten ?_ ?_
  · rw [hs.1, hs'.1, hlost]
  · rw [hs.2, hs'.2, hunsent]
    rfl

/-- What the acceptor reads of a static channel is lost. -/
theorem acceptorPdu_ledger {state : AcceptorState δ} {pdu : ClientPdu δ}
    (hstage : s.stage = .acceptor state) (h : s.acceptorPdu cfg state pdu = some s') :
    Ledger cfg s s' (.pdu pdu) := by
  have hs : Quiet cfg s := quiet_acceptor hstage
  have hlost : lost cfg s (.pdu pdu) = arrived cfg (.pdu pdu) := by
    simp [lost, arrived, Connection.isLooping, hstage]
  have haccept : ∀ next, Ledger cfg s ((s.receive cfg pdu).accept next) (.pdu pdu) := by
    intro next
    cases next with
    | none => exact .of_quiet hs (quiet_ended rfl) rfl rfl rfl rfl hlost rfl
    | some state => exact .of_quiet hs (quiet_acceptor rfl) rfl rfl rfl rfl hlost rfl
  have hunmatched : ∀ valid, pdu = .fastPath valid →
      Ledger cfg s (if cfg.skipsUnmatched then s else s.goto .ended) (.pdu pdu) := by
    rintro valid rfl
    have hnone : arrived cfg (.pdu (.fastPath valid)) = [] := rfl
    split
    · exact .of_quiet hs hs (by simp [hnone]) rfl rfl rfl hlost rfl
    · exact .of_quiet hs (quiet_ended rfl) (by simp [hnone, Connection.goto]) rfl rfl rfl hlost rfl
  cases hhint : state.nextPduHint with
  | none => simp [Connection.acceptorPdu, hhint] at h
  | some hint =>
    cases hint with
    | rdp =>
      simp only [Connection.acceptorPdu, hhint, Option.some.injEq] at h
      subst h
      exact haccept _
    | x224 =>
      cases pdu with
      | fastPath valid =>
        simp only [Connection.acceptorPdu, hhint, Option.some.injEq] at h
        subst h
        exact hunmatched valid rfl
      | io p | sendData channelId data | disconnectProviderUltimatum userRequested | otherMcs
        | invalid =>
        simp only [Connection.acceptorPdu, hhint, Option.some.injEq] at h
        subst h
        exact haccept _

/-- A dispatch gives static channel data to its channel, and nothing else. -/
theorem dispatchPdu_ledger {pdu : ClientPdu δ} (hstage : s.stage = .looping (.inHand pdu)) :
    Ledger cfg s (s.dispatchPdu cfg pdu) .dispatch := by
  have hhand : s.inHand cfg = pdu.staticData cfg := by simp [Connection.inHand, hstage]
  have hresponding : s.responding = [] := by simp [Connection.responding, hstage]
  have hgoto : pdu.staticData cfg = [] →
      Ledger cfg s (s.goto (.looping .reading)) .dispatch ∧
        Ledger cfg s (s.goto .ended) .dispatch := by
    intro hnone
    have hs : Quiet cfg s := ⟨hhand.trans hnone, hresponding⟩
    have hsame : s.received = s.received ++ arrived cfg Action.dispatch := by simp [arrived]
    exact ⟨.of_quiet hs (quiet_reading rfl) hsame rfl rfl rfl rfl rfl,
      .of_quiet hs (quiet_ended rfl) hsame rfl rfl rfl rfl rfl⟩
  cases pdu with
  | fastPath valid =>
    obtain ⟨hreading, hended⟩ := hgoto rfl
    cases valid with
    | true => exact hreading
    | false => exact hended
  | io p =>
    obtain ⟨hreading, hended⟩ := hgoto rfl
    simp only [Connection.dispatchPdu]
    split
    · exact hreading
    · exact hended
  | disconnectProviderUltimatum userRequested =>
    obtain ⟨hreading, hended⟩ := hgoto rfl
    cases userRequested with
    | true => exact hended
    | false => exact hreading
  | otherMcs => exact (hgoto rfl).1
  | invalid => exact (hgoto rfl).2
  | sendData channelId data =>
    simp only [Connection.dispatchPdu]
    split
    · rename_i hstatic
      have hdata : s.inHand cfg = [(channelId, data)] := by
        simp [hhand, ClientPdu.staticData, hstatic]
      split
      · refine ⟨by simp [arrived], ?_, [], by simp, ?_⟩
        · rw [hdata]
          simp [Connection.inHand, lost, arrived]
        · rw [hresponding]
          simp [Connection.responding, unsent]
      · rename_i channels response hprocess
        refine ⟨by simp [arrived], ?_, [response], rfl, ?_⟩
        · rw [hdata]
          simp [Connection.inHand, lost, arrived]
        · rw [hresponding]
          simp [Connection.responding, unsent]
    · rename_i hstatic
      exact (hgoto (by simp [ClientPdu.staticData, hstatic])).1

/-- Every step keeps the ledger. -/
theorem step_ledger (h : s.step cfg a = some s') : Ledger cfg s s' a := by
  have hsame : s.received = s.received ++ ([] : List (UInt16 × δ)) := by simp
  cases Connection.step_cases h with
  | send state next hstage =>
    exact .of_quiet (quiet_acceptor hstage) (quiet_acceptor rfl) hsame rfl rfl rfl rfl rfl
  | acceptor state pdu s' hstage h => exact acceptorPdu_ledger hstage h
  | read pdu hstage =>
    obtain ⟨hhand, hresponding⟩ := quiet_reading hstage
    refine .of_move rfl rfl rfl rfl ?_ ?_
    · rw [hhand]
      simp [Connection.inHand, Connection.goto, lost, arrived, Connection.isLooping, hstage]
    · rw [hresponding]
      rfl
  | getResult inputEvents hstage =>
    exact .of_quiet (quiet_acceptor hstage) (quiet_clientAccepted rfl) hsame rfl rfl rfl rfl rfl
  | replay pdu rest hstage =>
    have hs : Quiet cfg s := quiet_clientAccepted hstage
    cases pdu with
    | fastPath valid =>
      cases valid with
      | true => exact .of_quiet hs (quiet_clientAccepted rfl) hsame rfl rfl rfl rfl rfl
      | false => exact .of_quiet hs (quiet_ended rfl) hsame rfl rfl rfl rfl rfl
    | io p | sendData channelId data | disconnectProviderUltimatum userRequested | otherMcs
      | invalid => exact .of_quiet hs (quiet_clientAccepted rfl) hsame rfl rfl rfl rfl rfl
  | clientLoop hstage =>
    have hs : Quiet cfg s := quiet_clientAccepted hstage
    rw [Connection.clientLoop]
    split
    · exact .of_quiet hs (quiet_reading rfl) hsame rfl rfl rfl rfl rfl
    · split
      · exact .of_quiet hs (quiet_ended rfl) hsame rfl rfl rfl rfl rfl
      · exact .of_quiet hs (quiet_reading rfl) hsame rfl rfl rfl rfl rfl
  | dispatch pdu hstage => exact dispatchPdu_ledger hstage
  | written response hstage =>
    have hhand : s.inHand cfg = [] := by simp [Connection.inHand, hstage]
    have hresponding : s.responding = [response] := by simp [Connection.responding, hstage]
    refine ⟨hsame, ?_, [], by simp, ?_⟩
    · rw [hhand]
      simp [Connection.inHand, lost, arrived]
    · rw [hresponding]
      simp [Connection.responding, unsent]
  | failed response hstage =>
    have hhand : s.inHand cfg = [] := by simp [Connection.inHand, hstage]
    refine .of_move hsame rfl rfl rfl ?_ rfl
    rw [hhand]
    rfl
  | event channels hstage =>
    exact .of_move hsame rfl rfl rfl rfl (List.append_nil _)
  | resize handling hstage | finish halive
    => exact .of_move hsame rfl rfl rfl (List.append_nil _).symm rfl

/-- A connection that lives on loses what a reactivation cuts and what the acceptor reads,
and nothing else. -/
theorem step_alive (h : s.step cfg a = some s') (halive : s'.stage.isEnded = false) :
    s.stage.isEnded = false ∧ (NotCut cfg s a → lost cfg s a = [] ∧ unsent s a = []) := by
  cases Connection.step_cases h with
  | acceptor state pdu s' hstage h =>
    refine ⟨by rw [hstage]; rfl, fun hcond => ⟨?_, rfl⟩⟩
    cases pdu with
    | sendData channelId data =>
      have hother : channelId ∉ cfg.staticIds := fun hstatic => by
        simpa [Connection.isLooping, hstage] using hcond hstatic
      simp [lost, ClientPdu.staticData, hother]
    | fastPath valid | io p | disconnectProviderUltimatum userRequested | otherMcs | invalid =>
      simp [lost, ClientPdu.staticData]
  | read pdu hstage =>
    refine ⟨by rw [hstage]; rfl, fun _ => ⟨?_, rfl⟩⟩
    simp [lost, Connection.isLooping, hstage]
  | resize handling hstage =>
    exact ⟨by rw [hstage]; rfl,
      fun hcond => ⟨List.isEmpty_iff.mp hcond.1, List.isEmpty_iff.mp hcond.2⟩⟩
  | failed response hstage | finish hlives => cases halive
  | event channels hstage => exact ⟨halive, fun _ => ⟨rfl, rfl⟩⟩
  | send state next hstage | getResult inputEvents hstage
    | replay pdu rest hstage | clientLoop hstage | dispatch pdu hstage | written response hstage
    => exact ⟨by rw [hstage]; rfl, fun _ => ⟨rfl, rfl⟩⟩

/-- The acceptor skips data that is not on the I/O channel, and stays where it is. -/
theorem stepInput_sendData {state : AcceptorState δ} {hint : PduHint} {reactivation : Bool}
    {channelId : UInt16} {data : δ} (hhint : state.nextPduHint = some hint) :
    state.stepInput reactivation (.sendData channelId data) = some state := by
  cases state with
  | capabilitiesSendServer | monitorLayoutSend | accepted inputEvents =>
    simp [AcceptorState.nextPduHint] at hhint
  | capabilitiesWaitConfirm => rfl
  | connectionFinalization f =>
    obtain ⟨finalization, inputEvents⟩ := f
    cases finalization with
    | waitSynchronize | waitControlCooperate | waitRequestControl | waitFontList => rfl
    | sendSynchronizeConfirm | sendControlCooperateConfirm | sendGrantedControlConfirm
      | sendFontMap | finished =>
      simp [AcceptorState.nextPduHint, FinalizationSequence.nextPduHint] at hhint

/-- A reactivation, and the acceptor with static channel data, keep the connection alive. -/
theorem cut_alive (h : s.step cfg a = some s') (hcut : ¬NotCut cfg s a) :
    s'.stage.isEnded = false ∧ (lost cfg s a ≠ [] ∨ unsent s a ≠ []) := by
  cases Connection.step_cases h with
  | acceptor state pdu s' hstage h =>
    cases pdu with
    | sendData channelId data =>
      obtain ⟨hstatic, -⟩ := Classical.not_imp.mp hcut
      cases hhint : state.nextPduHint with
      | none => simp [Connection.acceptorPdu, hhint] at h
      | some hint =>
        have hs' : s' = (s.receive cfg (.sendData channelId data)).accept (some state) := by
          cases hint with
          | x224 | rdp =>
            simp only [Connection.acceptorPdu, hhint, Option.some.injEq] at h
            rw [← h, stepInput_sendData hhint]
        rw [hs']
        refine ⟨rfl, .inl ?_⟩
        simp [lost, Connection.isLooping, hstage, ClientPdu.staticData, hstatic]
    | fastPath valid | io p | disconnectProviderUltimatum userRequested | otherMcs | invalid =>
      exact absurd trivial hcut
  | read pdu hstage =>
    cases pdu with
    | sendData channelId data =>
      exact absurd (by simp [Connection.isLooping, hstage]) (Classical.not_imp.mp hcut).2
    | fastPath valid | io p | disconnectProviderUltimatum userRequested | otherMcs | invalid =>
      exact absurd trivial hcut
  | resize handling hstage =>
    refine ⟨rfl, ?_⟩
    by_contra hnone
    obtain ⟨hlost, hunsent⟩ := not_or.mp hnone
    exact hcut ⟨List.isEmpty_iff.mpr (not_not.mp hlost),
      List.isEmpty_iff.mpr (not_not.mp hunsent)⟩
  | send | getResult | replay | clientLoop | dispatch | written | failed | event | finish =>
    exact absurd trivial hcut

/-- A dispatch ends the connection, is done, or has a response to write. -/
theorem dispatchPdu_stage (pdu : ClientPdu δ) :
    (s.dispatchPdu cfg pdu).received = s.received ∧
      ((s.dispatchPdu cfg pdu).stage = .ended ∨
        (s.dispatchPdu cfg pdu).stage = .looping .reading ∨
        ∃ response, (s.dispatchPdu cfg pdu).stage = .looping (.responding response)) := by
  have hgoto : ∀ c : Prop, [Decidable c] → ∀ first second : Stage δ ρ,
      (first = .ended ∨ first = .looping .reading) →
      (second = .ended ∨ second = .looping .reading) →
      (s.goto (if c then first else second)).stage = .ended ∨
        (s.goto (if c then first else second)).stage = .looping .reading := by
    intro c _ first second hfirst hsecond
    by_cases hc : c
    · simpa [Connection.goto, hc] using hfirst
    · simpa [Connection.goto, hc] using hsecond
  cases pdu with
  | fastPath valid | io p => exact ⟨rfl, (hgoto _ _ _ (.inr rfl) (.inl rfl)).imp_right .inl⟩
  | disconnectProviderUltimatum userRequested =>
    exact ⟨rfl, (hgoto _ _ _ (.inl rfl) (.inr rfl)).imp_right .inl⟩
  | otherMcs => exact ⟨rfl, .inr (.inl rfl)⟩
  | invalid => exact ⟨rfl, .inl rfl⟩
  | sendData channelId data =>
    simp only [Connection.dispatchPdu]
    split
    · split
      · exact ⟨rfl, .inl rfl⟩
      · exact ⟨rfl, .inr (.inr ⟨_, rfl⟩)⟩
    · exact ⟨rfl, .inr (.inl rfl)⟩

/-- What a client loop has in hand it can deal with. -/
theorem loop_drains {handling : Handling δ ρ} (hstage : s.stage = .looping handling) :
    ∃ acts t, run (Connection.step cfg) s acts = some t ∧ t.received = s.received ∧
      (t.stage.isEnded = true ∨ t.stage = .looping .reading) := by
  have hrespond : ∀ (t : Connection κ δ ρ) (response : ρ),
      t.stage = .looping (.responding response) →
      ∃ u, t.step cfg (.written true) = some u ∧ u.received = t.received ∧
        u.stage = .looping .reading := by
    intro t response ht
    refine ⟨{ t with stage := .looping .reading, written := t.written ++ [response] }, ?_, rfl, rfl⟩
    simp [Connection.step, ht]
  cases handling with
  | reading => exact ⟨[], s, rfl, rfl, .inr hstage⟩
  | responding response =>
    obtain ⟨u, hu, hreceived, hreading⟩ := hrespond s response hstage
    exact ⟨[.written true], u, run_cons_some.mpr ⟨u, hu, rfl⟩, hreceived, .inr hreading⟩
  | inHand pdu =>
    have hdispatch : s.step cfg .dispatch = some (s.dispatchPdu cfg pdu) := by
      simp [Connection.step, hstage]
    obtain ⟨hreceived, hended | hreading | ⟨response, hresponding⟩⟩ :=
      dispatchPdu_stage pdu
    · refine ⟨[.dispatch], _, run_cons_some.mpr ⟨_, hdispatch, rfl⟩, hreceived, .inl ?_⟩
      rw [hended]
      rfl
    · exact ⟨[.dispatch], _, run_cons_some.mpr ⟨_, hdispatch, rfl⟩, hreceived, .inr hreading⟩
    · obtain ⟨u, hu, hsame, hdone⟩ := hrespond _ response hresponding
      have hrest : run (Connection.step cfg) (s.dispatchPdu cfg pdu) [.written true] = some u :=
        run_cons_some.mpr ⟨u, hu, rfl⟩
      exact ⟨[.dispatch, .written true], u, run_cons_some.mpr ⟨_, hdispatch, hrest⟩,
        hsame.trans hreceived, .inr hdone⟩

/-- What holds of a connection whatever it loses. -/
structure Accounted (cfg : Config κ δ ρ) (s : Connection κ δ ρ) : Prop where
  given : s.processed.length + (s.inHand cfg).length ≤ s.received.length
  answered : s.written.length + s.responding.length ≤ s.responses.length

theorem accounted_init (channels : κ) : Accounted cfg (.init channels : Connection κ δ ρ) := by
  constructor <;> simp [Connection.init, Connection.inHand, Connection.responding]

/-- Every step keeps the accounts. -/
theorem accounted_step (hs : Accounted cfg s) (h : s.step cfg a = some s') :
    Accounted cfg s' := by
  obtain ⟨hreceived, hgiven, returned, hresponses, hanswered⟩ := step_ledger h
  have hgiven' := congrArg List.length hgiven
  have hanswered' := congrArg List.length hanswered
  have hs₁ := hs.given
  have hs₂ := hs.answered
  simp only [List.length_append] at hgiven' hanswered'
  constructor
  · rw [hreceived, List.length_append]
    omega
  · rw [hresponses, List.length_append]
    omega

/-- Exactly the connections that get static channel data in their client loops, and whose
reactivations find none in hand, deliver it and its responses. -/
theorem pdus_survive (cfg : Config κ δ ρ) (channels : κ) (acts : List (Action κ δ))
    (s : Connection κ δ ρ) (hrun : run (Connection.step cfg) (.init channels) acts = some s) :
    (∀ before u, before <+: acts →
      run (Connection.step cfg) (.init channels) before = some u → Delivered cfg u) ↔
      Meets (Connection.step cfg) (NotCut cfg) (.init channels) acts := by
  have hinv : ∀ (s : Connection κ δ ρ) (a : Action κ δ) (s' : Connection κ δ ρ), Accounted cfg s →
      s.step cfg a = some s' → Accounted cfg s' := fun s a s' hs h => accounted_step hs h
  refine prefixes_iff_meets hinv ?_ ?_ (accounted_init channels) ?_ hrun
  · intro s a s' hs hgood hcond h
    obtain ⟨hreceived, hgiven, returned, hresponses, hanswered⟩ := step_ledger h
    refine ⟨fun halive => ?_, fun halive => ?_, fun handling hstage => loop_drains hstage⟩
    · obtain ⟨hlived, hkept⟩ := step_alive h halive
      rw [(hkept hcond).1, List.append_nil] at hgiven
      rw [hreceived, hgood.given hlived, hgiven]
    · obtain ⟨hlived, hkept⟩ := step_alive h halive
      rw [(hkept hcond).2, List.append_nil] at hanswered
      rw [hresponses, hgood.answered hlived, hanswered]
  · intro s a s' hs h hgood
    by_contra hcut
    obtain ⟨halive, hlosses⟩ := cut_alive h hcut
    obtain ⟨hreceived, hgiven, returned, hresponses, hanswered⟩ := step_ledger h
    have hgiven' := congrArg List.length hgiven
    have hanswered' := congrArg List.length hanswered
    have hreceived' := congrArg List.length ((hgood.given halive).symm.trans hreceived)
    have hresponses' := congrArg List.length ((hgood.answered halive).symm.trans hresponses)
    have hs₁ := hs.given
    have hs₂ := hs.answered
    simp only [List.length_append] at hgiven' hanswered' hreceived' hresponses'
    rcases hlosses with hlost | hunsent
    · have hpos := List.length_pos_of_ne_nil hlost
      omega
    · have hpos := List.length_pos_of_ne_nil hunsent
      omega
  · refine ⟨?_, ?_, ?_⟩ <;> simp [Connection.init, Connection.inHand, Connection.responding]

/-- One static channel, which counts what it was given. -/
def countingConfig : Config ℕ ℕ ℕ where
  staticIds := [1004]
  monitorLayout := false
  skipsUnmatched := true
  start := some
  process := fun given _ _ => some (given + 1, given)

/-- What a client sends to be activated, and what it is sent. -/
def activation : List (Action ℕ ℕ) :=
  [.send, .pdu (.io .confirmActive), .pdu (.io .shareControl), .pdu (.io .shareControl),
    .pdu (.io .shareControl), .pdu (.fastPath true), .pdu (.io .fontList), .send, .send, .send,
    .send, .getResult, .replay, .clientLoop]

/-- A client is activated twice, and sends data of its channel in both client loops. -/
def activatedTwice : List (Action ℕ ℕ) :=
  activation ++ [.pdu (.sendData 1004 5), .dispatch, .written true, .pdu (.io .shareControl),
    .resize] ++ activation ++ [.pdu (.sendData 1004 6), .dispatch, .written true]

theorem pdus_survive_twice :
    ∃ s, run (Connection.step countingConfig) (.init 0) activatedTwice = some s ∧
      s.processed = [(1004, 5), (1004, 6)] ∧ s.written = [0, 1] ∧ Delivered countingConfig s := by
  have hrun : (run (Connection.step countingConfig) (.init 0) activatedTwice).any (fun s =>
      decide (s.processed = [(1004, 5), (1004, 6)] ∧ s.written = [0, 1])) = true := by
    decide +kernel
  obtain ⟨s, hs, hend⟩ := (Option.any_eq_true _ _).mp hrun
  have hmeets : meetsBool (Connection.step countingConfig)
      (fun s a => decide (NotCut countingConfig s a)) (.init 0) activatedTwice = true := by
    decide +kernel
  have hcond := meetsBool_iff.mp hmeets
  simp only [decide_eq_true_eq] at hcond
  obtain ⟨hprocessed, hwritten⟩ := of_decide_eq_true hend
  exact ⟨s, hs, hprocessed, hwritten,
    (pdus_survive countingConfig 0 activatedTwice s hs).mpr hcond _ s (List.prefix_refl _) hs⟩

/-- Data that comes after Deactivate All and before the font list never gets to its
channel. -/
theorem not_delivered_reactivation :
    ¬∀ (cfg : Config ℕ ℕ ℕ) (channels : ℕ) (acts : List (Action ℕ ℕ)) (s : Connection ℕ ℕ ℕ),
      run (Connection.step cfg) (.init channels) acts = some s → Delivered cfg s := by
  intro h
  have hrun : (run (Connection.step countingConfig) (.init 0)
      (activation ++ [.resize, .send, .pdu (.sendData 1004 5)])).any
      (fun s => decide (s.stage.isEnded = false ∧
        s.received ≠ s.processed ++ s.inHand countingConfig)) = true := by
    decide +kernel
  obtain ⟨s, hs, hlost⟩ := (Option.any_eq_true _ _).mp hrun
  obtain ⟨halive, hreceived⟩ := of_decide_eq_true hlost
  exact hreceived ((h _ _ _ s hs).given halive)

end Macrdp.ClientPdus
