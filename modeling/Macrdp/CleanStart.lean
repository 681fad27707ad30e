import Macrdp.ConnectionState

/-!
# When connections start clean

Six fields are reset after every connection, and a step of a connection that stores into
a field marks it. What is left are the fields the resets skip, and whether a connection
can tell what came before it depends on those alone.
-/

namespace Macrdp.ConnectionState

open EmtTunnel SoftSync StepSystem

variable {cfg : ServerConfig} {s s' t t' : System} {r r' : State} {settings : Settings}

/-- The fields that are reset after every connection. -/
def Field.isReset : Field → Bool
  | .egfxOnUdp => true
  | .egfxOnUdpHandle => true
  | .egfxOnLossyHandle => true
  | .demigrateRequest => true
  | .lossyAudioBlockNo => true
  | .lossyAudioStreaming => true
  | _ => false

/-- A field is as it was initially, or was stored by the connection. -/
def Fine (s : System) (f : Field) : Prop := s.isInitial f = true ∨ s.own f = true

/-- What holds between any two steps of the server. -/
structure Inv (cfg : ServerConfig) (s : System) : Prop where
  reset : s.phase = .idle ∨ s.phase = .connecting true → ∀ f : Field, f.isReset = true →
    s.isInitial f = true
  fine : s.phase ≠ .idle → ∀ f, Fine s f ∨ f = .multitransportMigration ∧ s.phase = .connecting true
  detached : s.phase ≠ .looping → s.routing.attached = false
  noOffer : cfg.multitransport = false → s.routing.server.migration = none ∧
    s.routing.server.udpTunnelBound = none ∧ s.tunnelInboundRx = none ∧ s.offer = none
  noRegistry : cfg.multitransportCookies = false → s.routing.server.udpTunnelBound = none ∧
    s.tunnelInboundRx = none

theorem inv_init (cfg : ServerConfig) : Inv cfg (.init cfg) where
  reset := by
    intro _ f _
    cases f <;> rfl
  fine := by simp [System.init]
  detached := fun _ => rfl
  noOffer := fun _ => ⟨rfl, rfl, rfl, rfl⟩
  noRegistry := fun _ => ⟨rfl, rfl⟩

/-- A request is started in the routing alone. -/
theorem sendSoftSyncRequest_server (tunnel : TunnelType) (channelIds : List UInt32) :
    (r.sendSoftSyncRequest tunnel channelIds).server = r.server := by
  rw [State.sendSoftSyncRequest]
  split <;> rfl

theorem routeDvcOverUdp_server (channelId : UInt32) :
    (r.routeDvcOverUdp settings channelId).server = r.server := by
  rw [State.routeDvcOverUdp]
  split
  · split <;> rfl
  · rfl

/-- Routing keeps what it has of an offer, or has none. -/
structure KeepsOffer (old new : Server) : Prop where
  migration : old.migration = none → new.migration = none
  bound : new.udpTunnelBound.isNone = old.udpTunnelBound.isNone

theorem KeepsOffer.refl (server : Server) : KeepsOffer server server := ⟨id, rfl⟩

/-- Setting the guard makes no offer. -/
theorem softSyncSent_migration (h : r.server.migration = none) :
    r.softSyncSent.server.migration = none := by
  rw [State.softSyncSent, h]
  rfl

theorem maybeSoftSyncOnEgfx_keeps (r : State) :
    KeepsOffer r.server (r.maybeSoftSyncOnEgfx settings).server := by
  rw [State.maybeSoftSyncOnEgfx]
  split
  · split
    · split
      · exact .refl _
      · split
        · rw [sendSoftSyncRequest_server]
          exact ⟨softSyncSent_migration, rfl⟩
        · exact .refl _
    · split
      · dsimp only
        split
        · split
          · rw [sendSoftSyncRequest_server]
            exact ⟨softSyncSent_migration, rfl⟩
          · rw [sendSoftSyncRequest_server]
            exact ⟨softSyncSent_migration, rfl⟩
        · rw [sendSoftSyncRequest_server]
          exact ⟨softSyncSent_migration, rfl⟩
      · exact .refl _
  · exact .refl _

theorem response_keeps (requestId : UInt32) (success : Bool) :
    KeepsOffer r.server (r.maybeHandleMultitransportResponse requestId success).server := by
  rw [State.maybeHandleMultitransportResponse]
  split
  · split
    · split
      · rw [sendSoftSyncRequest_server]
        exact ⟨softSyncSent_migration, rfl⟩
      · exact .refl _
    · exact ⟨fun _ => rfl, rfl⟩
  · exact .refl _

/-- No routing step makes an offer or registers a flag. -/
theorem routing_keeps {a : SoftSync.Action} (h : r.step settings a = some r') :
    KeepsOffer r.server r'.server := by
  cases a with
  | egfx channelId =>
    obtain ⟨-, heq⟩ := Option.ite_none_right_eq_some.mp h
    cases heq
    rw [State.dispatchEgfx]
    split
    · split
      · exact ⟨id, rfl⟩
      · rw [routeDvcOverUdp_server]
        exact .refl _
    · exact .refl _
  | wave =>
    obtain ⟨-, heq⟩ := Option.ite_none_right_eq_some.mp h
    cases heq
    rw [State.dispatchWave]
    split
    · rw [State.routeLossyAudioWave, routeDvcOverUdp_server]
      exact ⟨id, rfl⟩
    · exact .refl _
  | tunnelBound value =>
    cases h
    exact ⟨id, Option.isNone_map⟩
  | handleMultitransportResponse requestId success =>
    obtain ⟨-, heq⟩ := Option.ite_none_right_eq_some.mp h
    cases heq
    rw [State.handleMultitransportResponse]
    split
    · exact ⟨fun _ => rfl, rfl⟩
    · exact .refl _
  | maybeHandleMultitransportResponse requestId success =>
    obtain ⟨-, heq⟩ := Option.ite_none_right_eq_some.mp h
    cases heq
    exact response_keeps requestId success
  | dvc pdu =>
    obtain ⟨-, hprocess⟩ := Option.ite_none_right_eq_some.mp h
    obtain ⟨d, -, rfl⟩ := Option.map_eq_some_iff.mp hprocess
    exact .refl _
  | trainingConfirm formatNo =>
    obtain ⟨-, heq⟩ := Option.ite_none_right_eq_some.mp h
    cases heq
    exact ⟨id, rfl⟩
  | demigrateRequest =>
    cases h
    exact ⟨id, rfl⟩
  | written =>
    cases hpending : r.pending with
    | none => simp [State.step, State.written, hpending] at h
    | some write =>
      cases write with simp only [State.step, State.written, hpending, Option.some.injEq] at h
      | frame channelId =>
        subst h
        exact maybeSoftSyncOnEgfx_keeps ({ r with pending := none }.log (.tcp channelId))
      | request tunnel channelIds =>
        subst h
        exact .refl _
  | deactivate =>
    obtain ⟨-, heq⟩ := Option.ite_none_right_eq_some.mp h
    cases heq
    exact .refl _
  | reactivated =>
    obtain ⟨-, heq⟩ := Option.ite_none_left_eq_some.mp h
    cases heq
    exact .refl _

/-- A routing step of the connection leaves each field fine: it changed it, or did not. -/
theorem fine_setRouting (h : KeepsOffer s.routing.server r.server) {f : Field} (hf : Fine s f) :
    Fine (s.setRouting r) f := by
  rcases hf with hinitial | hown
  · by_cases hchanged : System.changed s.routing.server r.server f = true
    · exact .inr (Bool.or_eq_true_iff.mpr (.inr hchanged))
    · refine .inl ?_
      cases f with
      | udpTunnelBound => exact h.bound.trans hinitial
      | tunnelInboundRx | displaySuppressed | autoReconnectSent => exact hinitial
      | egfxOnUdp | egfxOnUdpHandle | egfxOnLossyHandle | demigrateRequest | lossyAudioFormat
        | lossyAudioBlockNo | lossyAudioStreaming | multitransportMigration =>
        have hsame := not_not.mp (mt decide_eq_true hchanged)
        simpa [System.isInitial, System.setRouting, ← hsame] using hinitial
  · exact .inr (Bool.or_eq_true_iff.mpr (.inl hown))

variable {requestId : UInt32} {success : Bool}

/-- The handling of a response, with its static channel or without. -/
theorem response_detached {a : SoftSync.Action}
    (ha : a = .handleMultitransportResponse requestId success ∨
      a = .maybeHandleMultitransportResponse requestId success)
    (hdetached : r.attached = false) (h : r.step settings a = some r') :
    ∃ migration, r' = { r with server := { r.server with migration } } := by
  rcases ha with rfl | rfl
  · obtain ⟨-, heq⟩ := Option.ite_none_right_eq_some.mp h
    cases heq
    rw [State.handleMultitransportResponse]
    split
    · exact ⟨none, rfl⟩
    · exact ⟨r.server.migration, rfl⟩
  · obtain ⟨-, heq⟩ := Option.ite_none_right_eq_some.mp h
    cases heq
    rw [State.maybeHandleMultitransportResponse]
    split
    · split
      · split
        · rw [State.sendSoftSyncRequest, if_neg (by simp [State.softSyncSent, hdetached])]
          exact ⟨_, rfl⟩
        · exact ⟨r.server.migration, rfl⟩
      · exact ⟨none, rfl⟩
    · exact ⟨r.server.migration, rfl⟩

/-- A routing step of the served connection. -/
theorem Inv.setRouting (h : Inv cfg s) (hphase : s.phase ≠ .idle)
    (hkeeps : KeepsOffer s.routing.server r.server)
    (hdetached : s.phase ≠ .looping → r.attached = false)
    (hreset : s.phase = .connecting true → ∀ f : Field, f.isReset = true →
      (s.setRouting r).isInitial f = s.isInitial f) : Inv cfg (s.setRouting r) where
  reset := by
    rintro (hidle | hconnecting) f hf
    · exact absurd hidle hphase
    · rw [hreset hconnecting f hf]
      exact h.reset (.inr hconnecting) f hf
  fine := fun _ f => (h.fine hphase f).imp_left (fine_setRouting hkeeps)
  detached := hdetached
  noOffer := by
    intro hoff
    obtain ⟨hmigration, hbound, hrx, hoffer⟩ := h.noOffer hoff
    refine ⟨hkeeps.migration hmigration, ?_, hrx, hoffer⟩
    exact Option.isNone_iff_eq_none.mp (hkeeps.bound.trans (Option.isNone_iff_eq_none.mpr hbound))
  noRegistry := by
    intro hoff
    obtain ⟨hbound, hrx⟩ := h.noRegistry hoff
    refine ⟨?_, hrx⟩
    exact Option.isNone_iff_eq_none.mp (hkeeps.bound.trans (Option.isNone_iff_eq_none.mpr hbound))

/-- Whether a field that is reset is as it was initially depends on these six. -/
theorem reset_congr (hegfx : s'.routing.server.egfxOnUdp = s.routing.server.egfxOnUdp)
    (hhandle : s'.routing.server.egfxOnUdpHandle = s.routing.server.egfxOnUdpHandle)
    (hlossy : s'.routing.server.egfxOnLossyHandle = s.routing.server.egfxOnLossyHandle)
    (hdemigrate : s'.routing.server.demigrateRequest = s.routing.server.demigrateRequest)
    (hblock : s'.routing.server.lossyAudioBlockNo = s.routing.server.lossyAudioBlockNo)
    (hstreaming : s'.routing.server.lossyAudioStreaming = s.routing.server.lossyAudioStreaming)
    {f : Field} (hf : f.isReset = true) : s'.isInitial f = s.isInitial f := by
  cases f with
  | egfxOnUdp => simp only [System.isInitial, hegfx]
  | egfxOnUdpHandle => simp only [System.isInitial, hhandle]
  | egfxOnLossyHandle => simp only [System.isInitial, hlossy]
  | demigrateRequest => simp only [System.isInitial, hdemigrate]
  | lossyAudioBlockNo => simp only [System.isInitial, hblock]
  | lossyAudioStreaming => simp only [System.isInitial, hstreaming]
  | lossyAudioFormat | multitransportMigration | udpTunnelBound | tunnelInboundRx
    | displaySuppressed | autoReconnectSent => cases hf

/-- A response is handled in the client loop or from the backlog. -/
theorem Inv.response {a : SoftSync.Action}
    (ha : a = .handleMultitransportResponse requestId success ∨
      a = .maybeHandleMultitransportResponse requestId success)
    (h : Inv cfg s) (hphase : s.phase ≠ .idle)
    (hstep : (s.routing.step cfg.settings a).map s.setRouting = some s') : Inv cfg s' := by
  obtain ⟨r, hr, rfl⟩ := Option.map_eq_some_iff.mp hstep
  refine h.setRouting hphase (routing_keeps hr) ?_ ?_
  · intro hnot
    obtain ⟨migration, rfl⟩ := response_detached ha (h.detached hnot) hr
    exact h.detached hnot
  · intro hconnecting f hf
    obtain ⟨migration, rfl⟩ := response_detached ha (h.detached (by simp [hconnecting])) hr
    refine reset_congr ?_ ?_ ?_ ?_ ?_ ?_ hf
    all_goals rfl

/-- A field outside the routing is stored into. -/
theorem Inv.store (h : Inv cfg s) (hphase : s.phase ≠ .idle) {g : Field} (hg : g.isReset = false)
    (hrouting : s'.routing = s.routing) (hrx : s'.tunnelInboundRx = s.tunnelInboundRx)
    (hsame : ∀ f, f ≠ g → s'.isInitial f = s.isInitial f) (hp : s'.phase = s.phase)
    (hoffer : s'.offer = s.offer) (hown : s'.own = (s.mark g).own) : Inv cfg s' where
  reset := by
    rw [hp]
    rintro hcase f hf
    have hne : f ≠ g := by
      rintro rfl
      rw [hg] at hf
      cases hf
    rw [hsame f hne]
    exact h.reset hcase f hf
  fine := by
    rw [hp]
    intro _ f
    refine (h.fine hphase f).imp_left fun hf => ?_
    rcases eq_or_ne f g with rfl | hne
    · exact .inr (by rw [hown]; simp [System.mark])
    · rw [Fine, hsame f hne, hown]
      show s.isInitial f = true ∨ Function.update s.own g true f = true
      rw [Function.update_of_ne hne]
      exact hf
  detached := by
    rw [hp, hrouting]
    exact h.detached
  noOffer := by
    rw [hrouting, hrx, hoffer]
    exact h.noOffer
  noRegistry := by
    rw [hrouting, hrx]
    exact h.noRegistry

/-- What the client sends leaves everything fine. -/
theorem handlePdu_inv {pdu : ClientPdu} (h : Inv cfg s) (hphase : s.phase ≠ .idle)
    (hstep : s.handlePdu cfg pdu = some s') : Inv cfg s' := by
  cases pdu with
  | suppressOutput suppress | refreshRectangle =>
    cases hstep
    refine h.store hphase (g := .displaySuppressed) rfl rfl rfl ?_ rfl rfl rfl
    intro f hf
    cases f <;> first | rfl | exact absurd rfl hf
  | ioResponse requestId success => exact h.response (.inl rfl) hphase hstep
  | messageResponse requestId success => exact h.response (.inr rfl) hphase hstep

/-- A connection that starts has all fields fine but those an offer leaves. -/
theorem start_inv (h : Inv cfg s) (hidle : s.phase = .idle) (hdisplay : s.displaySuppressed = false)
    (hformat : s.routing.server.lossyAudioFormat = none)
    (hphase : s'.phase = .connecting true) (hdetached : s'.routing.attached = false)
    (hserver : ∃ migration udpTunnelBound,
      s'.routing.server = { s.routing.server with migration, udpTunnelBound })
    (hsame : s'.displaySuppressed = s.displaySuppressed) (hsent : s'.autoReconnectSent = false)
    (hbound : Fine s' .udpTunnelBound) (hrx : Fine s' .tunnelInboundRx)
    (hnoOffer : cfg.multitransport = false → s'.routing.server.migration = none ∧
      s'.routing.server.udpTunnelBound = none ∧ s'.tunnelInboundRx = none ∧ s'.offer = none)
    (hnoRegistry : cfg.multitransportCookies = false →
      s'.routing.server.udpTunnelBound = none ∧ s'.tunnelInboundRx = none) : Inv cfg s' := by
  obtain ⟨migration, udpTunnelBound, hserver⟩ := hserver
  have hreset : ∀ f : Field, f.isReset = true → s'.isInitial f = true := by
    intro f hf
    have hcongr : s'.isInitial f = s.isInitial f :=
      reset_congr (by rw [hserver]) (by rw [hserver]) (by rw [hserver]) (by rw [hserver])
        (by rw [hserver]) (by rw [hserver]) hf
    exact hcongr.trans (h.reset (.inl hidle) f hf)
  refine ⟨fun _ => hreset, fun _ f => ?_, fun _ => hdetached, hnoOffer, hnoRegistry⟩
  cases f with
  | egfxOnUdp | egfxOnUdpHandle | egfxOnLossyHandle | demigrateRequest | lossyAudioBlockNo
    | lossyAudioStreaming => exact .inl (.inl (hreset _ rfl))
  | lossyAudioFormat => exact .inl (.inl (by simp [System.isInitial, hserver, hformat]))
  | displaySuppressed => exact .inl (.inl (by simp [System.isInitial, hsame, hdisplay]))
  | autoReconnectSent => exact .inl (.inl (by simp [System.isInitial, hsent]))
  | multitransportMigration => exact .inr ⟨rfl, hphase⟩
  | udpTunnelBound => exact .inl hbound
  | tunnelInboundRx => exact .inl hrx

theorem runConnection_inv {withheld : Bool} {offer : Offer} {inboundRx : ℕ} (h : Inv cfg s)
    (hidle : s.phase = .idle)
    (hcond : NothingLeft s (.runConnection withheld offer inboundRx)) :
    Inv cfg (s.runConnection cfg withheld offer inboundRx) := by
  obtain ⟨hdisplay, hformat⟩ := hcond
  rw [System.runConnection]
  split
  · rename_i hoffers
    have hon : cfg.multitransport = false → False := fun hoff => by
      rw [hoffers] at hoff
      cases hoff
    split
    · exact start_inv h hidle hdisplay hformat rfl rfl ⟨none, none, rfl⟩ rfl rfl (.inl rfl)
        (.inl rfl) (fun hoff => (hon hoff).elim) fun _ => ⟨rfl, rfl⟩
    · rw [System.makeOffer]
      split
      · rename_i hregistry
        refine start_inv h hidle hdisplay hformat rfl rfl
          ⟨s.routing.server.migration, some false, rfl⟩ rfl rfl (.inr ?_) (.inr ?_)
          (fun hoff => (hon hoff).elim) fun hoff => ?_
        · simp [System.mark]
        · simp [System.mark]
        · rw [hregistry] at hoff
          cases hoff
      · rename_i hregistry
        obtain ⟨hbound, hrx⟩ := h.noRegistry (Bool.eq_false_iff.mpr hregistry)
        exact start_inv h hidle hdisplay hformat rfl rfl
          ⟨s.routing.server.migration, s.routing.server.udpTunnelBound, rfl⟩ rfl rfl
          (.inl (by simp [System.isInitial, System.start, hbound]))
          (.inl (by simp [System.isInitial, System.start, hrx])) (fun hoff => (hon hoff).elim)
          fun _ => ⟨hbound, hrx⟩
  · rename_i hoffers
    obtain ⟨hmigration, hbound, hrx, hoffer⟩ := h.noOffer (Bool.eq_false_iff.mpr hoffers)
    exact start_inv h hidle hdisplay hformat rfl rfl
      ⟨s.routing.server.migration, s.routing.server.udpTunnelBound, rfl⟩ rfl rfl
      (.inl (by simp [System.isInitial, System.start, hbound]))
      (.inl (by simp [System.isInitial, System.start, hrx]))
      (fun _ => ⟨hmigration, hbound, hrx, rfl⟩) fun _ => ⟨hbound, hrx⟩

theorem serveNegotiated_inv (h : Inv cfg s) (hidle : s.phase = .idle)
    (hcond : NothingLeft s .serveNegotiated) :
    Inv cfg (s.start (System.candidateChannels cfg)) := by
  obtain ⟨hdisplay, hformat, hmigration, hbound, hrx⟩ := hcond
  exact start_inv h hidle hdisplay hformat rfl rfl
    ⟨s.routing.server.migration, s.routing.server.udpTunnelBound, rfl⟩ rfl rfl
    (.inl (by simp [System.isInitial, System.start, hbound]))
    (.inl (by simp [System.isInitial, System.start, hrx]))
    (fun _ => ⟨hmigration, hbound, hrx, rfl⟩) fun _ => ⟨hbound, hrx⟩

/-- The client is accepted: an offer that was sent is on record, and no other. -/
theorem clientAccepted_inv {first offered : Bool} (h : Inv cfg s)
    (hphase : s.phase = .connecting first) (hoffer : ¬(offered = true ∧ s.offer = none))
    (hcond : NothingLeft s (.clientAccepted offered)) :
    Inv cfg { if first && offered then s.recordOffer else s with phase := .accepted first } := by
  have hnot : s.phase ≠ .idle := by simp [hphase]
  have hdetached : s.routing.attached = false := h.detached (by simp [hphase])
  by_cases hrecords : first = true ∧ offered = true
  · obtain ⟨rfl, rfl⟩ := hrecords
    obtain ⟨offer, hsome⟩ := Option.ne_none_iff_exists'.mp (not_and.mp hoffer rfl)
    simp only [Bool.and_self, if_true, System.recordOffer, hsome]
    refine ⟨by simp, fun _ f => .inl ?_, fun _ => hdetached, ?_, h.noRegistry⟩
    · rcases eq_or_ne f .multitransportMigration with rfl | hne
      · exact .inr (by simp [System.mark])
      · rcases h.fine hnot f with hf | ⟨rfl, -⟩
        · rcases hf with hinitial | hown
          · refine .inl ?_
            cases f <;> first | exact hinitial | exact absurd rfl hne
          · exact .inr (by simpa [System.mark, Function.update_of_ne hne] using hown)
        · exact absurd rfl hne
    · intro hoff
      rw [(h.noOffer hoff).2.2.2] at hsome
      cases hsome
  · have hsame : (first && offered) = false := by
      rw [Bool.eq_false_iff, Ne, Bool.and_eq_true]
      exact hrecords
    simp only [hsame, Bool.false_eq_true, if_false]
    refine ⟨by simp, fun _ f => .inl ?_, fun _ => hdetached, h.noOffer, h.noRegistry⟩
    rcases h.fine hnot f with hf | ⟨rfl, hconnecting⟩
    · exact hf.imp_left fun hinitial => by cases f <;> exact hinitial
    · have hfirst : first = true := by
        rw [hphase] at hconnecting
        cases hconnecting
        rfl
      have hunsent : offered = false := Bool.eq_false_iff.mpr fun ho => hrecords ⟨hfirst, ho⟩
      exact .inl (by simp [System.isInitial, hcond hconnecting hunsent])

/-- The connection ends: what is reset is as it was initially. -/
theorem disconnect_inv (h : Inv cfg s) : Inv cfg s.reset where
  reset := by
    intro _ f hf
    cases f with
    | egfxOnUdp | egfxOnUdpHandle | egfxOnLossyHandle | demigrateRequest | lossyAudioBlockNo
      | lossyAudioStreaming => rfl
    | lossyAudioFormat | multitransportMigration | udpTunnelBound | tunnelInboundRx
      | displaySuppressed | autoReconnectSent => cases hf
  fine := by simp [System.reset]
  detached := fun _ => rfl
  noOffer := by
    intro hoff
    obtain ⟨hmigration, hbound, hrx, hoffer⟩ := h.noOffer hoff
    exact ⟨hmigration, by simp [System.reset, hbound], hrx, hoffer⟩
  noRegistry := by
    intro hoff
    obtain ⟨hbound, hrx⟩ := h.noRegistry hoff
    exact ⟨by simp [System.reset, hbound], hrx⟩

/-- The flag is a cell of its own: what it holds is no field. -/
theorem tunnelBound_inv {value : Bool} (h : Inv cfg s) :
    Inv cfg { s with routing := { s.routing with server := { s.routing.server with
      udpTunnelBound := s.routing.server.udpTunnelBound.map fun _ => value } } } := by
  have hsame : ∀ f, System.isInitial { s with routing := { s.routing with server :=
      { s.routing.server with
        udpTunnelBound := s.routing.server.udpTunnelBound.map fun _ => value } } } f =
      s.isInitial f := by
    intro f
    cases f with
    | udpTunnelBound => exact Option.isNone_map
    | egfxOnUdp | egfxOnUdpHandle | egfxOnLossyHandle | demigrateRequest | lossyAudioBlockNo
      | lossyAudioStreaming | lossyAudioFormat | multitransportMigration | tunnelInboundRx
      | displaySuppressed | autoReconnectSent => rfl
  refine ⟨?_, ?_, h.detached, ?_, ?_⟩
  · intro hcase f hf
    rw [hsame]
    exact h.reset hcase f hf
  · intro hphase f
    rw [Fine, hsame]
    exact h.fine hphase f
  · intro hoff
    obtain ⟨hmigration, hbound, hrx, hoffer⟩ := h.noOffer hoff
    exact ⟨hmigration, by simp [hbound], hrx, hoffer⟩
  · intro hoff
    obtain ⟨hbound, hrx⟩ := h.noRegistry hoff
    exact ⟨by simp [hbound], hrx⟩

/-- The client loop starts, with what the tunnel brings in taken over. -/
theorem clientLoop_inv {first : Bool} (h : Inv cfg s) (hphase : s.phase = .accepted first) :
    Inv cfg { s with
      routing := { s.routing with attached := true }
      tunnelInboundRx := none
      phase := .looping } := by
  refine ⟨by simp, fun _ f => .inl ?_, by simp, ?_, ?_⟩
  · rcases h.fine (by simp [hphase]) f with hf | ⟨-, hconnecting⟩
    · refine hf.imp_left fun hinitial => ?_
      cases f with
      | tunnelInboundRx => rfl
      | egfxOnUdp | egfxOnUdpHandle | egfxOnLossyHandle | demigrateRequest | lossyAudioBlockNo
        | lossyAudioStreaming | lossyAudioFormat | multitransportMigration | udpTunnelBound
        | displaySuppressed | autoReconnectSent => exact hinitial
    · rw [hphase] at hconnecting
      cases hconnecting
  · intro hoff
    obtain ⟨hmigration, hbound, -, hoffer⟩ := h.noOffer hoff
    exact ⟨hmigration, hbound, rfl, hoffer⟩
  · intro hoff
    exact ⟨(h.noRegistry hoff).1, rfl⟩

/-- The client loop ends for a reactivation: no field is stored into. -/
theorem deactivate_inv (h : Inv cfg s) (hphase : s.phase = .looping)
    (hstep : s.routing.step cfg.settings .deactivate = some r) :
    Inv cfg { s with routing := r, phase := .connecting false } := by
  obtain ⟨-, heq⟩ := Option.ite_none_right_eq_some.mp hstep
  cases heq
  refine ⟨by simp, fun _ f => .inl ?_, fun _ => rfl, h.noOffer, h.noRegistry⟩
  rcases h.fine (by simp [hphase]) f with hf | ⟨-, hconnecting⟩
  · exact hf.imp_left fun hinitial => by cases f <;> exact hinitial
  · rw [hphase] at hconnecting
    cases hconnecting

variable {a : Action}

/-- One step keeps everything fine. -/
theorem step_inv (h : Inv cfg s) (hcond : NothingLeft s a)
    (hstep : s.step cfg a = some s') : Inv cfg s' := by
  cases a with
  | runConnection withheld offer inboundRx =>
    obtain ⟨hidle, heq⟩ := Option.ite_none_right_eq_some.mp hstep
    cases heq
    exact runConnection_inv h hidle hcond
  | serveNegotiated =>
    obtain ⟨hidle, heq⟩ := Option.ite_none_right_eq_some.mp hstep
    cases heq
    exact serveNegotiated_inv h hidle hcond
  | pdu pdu =>
    simp only [System.step] at hstep
    split at hstep
    · next hphase => exact handlePdu_inv h (by simp [hphase]) hstep
    · next hphase => exact handlePdu_inv h (by simp [hphase]) hstep
    · cases hstep
  | clientAccepted offered =>
    simp only [System.step] at hstep
    split at hstep
    · next first hphase =>
      obtain ⟨hoffer, heq⟩ := Option.ite_none_left_eq_some.mp hstep
      cases heq
      exact clientAccepted_inv h hphase hoffer hcond
    · cases hstep
  | autoReconnect =>
    simp only [System.step] at hstep
    split at hstep
    · next first hphase =>
      obtain ⟨-, heq⟩ := Option.ite_none_right_eq_some.mp hstep
      cases heq
      refine h.store (by simp [hphase]) (g := .autoReconnectSent) rfl rfl rfl ?_ rfl rfl rfl
      intro f hf
      cases f <;> first | rfl | exact absurd rfl hf
    · cases hstep
  | clientLoop =>
    simp only [System.step] at hstep
    split at hstep
    · next first hphase =>
      cases hstep
      exact clientLoop_inv h hphase
    · cases hstep
  | routing a =>
    obtain ⟨⟨hphase, -, -⟩, hrouting⟩ := Option.ite_none_right_eq_some.mp hstep
    obtain ⟨r, hr, rfl⟩ := Option.map_eq_some_iff.mp hrouting
    refine h.setRouting (by simp [hphase]) (routing_keeps hr) (fun hnot => absurd hphase hnot) ?_
    intro hconnecting
    rw [hphase] at hconnecting
    cases hconnecting
  | tunnelBound value =>
    simp only [System.step, State.step, Option.map_some, Option.some.injEq] at hstep
    subst hstep
    exact tunnelBound_inv h
  | deactivate =>
    obtain ⟨hphase, hrouting⟩ := Option.ite_none_right_eq_some.mp hstep
    obtain ⟨r, hr, rfl⟩ := Option.map_eq_some_iff.mp hrouting
    exact deactivate_inv h hphase hr
  | disconnect =>
    obtain ⟨-, heq⟩ := Option.ite_none_left_eq_some.mp hstep
    cases heq
    exact disconnect_inv h

/-- The server without the marks, which no step reads. -/
def System.bare (s : System) : System := { s with own := fun _ => false }

/-- The server with another offer on record. -/
def System.withMigration (s : System) (migration : Option MigrationState) : System :=
  { s with routing := { s.routing with server := { s.routing.server with migration } } }

/-- Two servers are the same but for an offer on record that a connection has yet to
replace, and for the marks. -/
inductive Agree (s t : System) : Prop where
  | same (h : s.bare = t.bare)
  | early (hphase : t.phase = .connecting true) (hdetached : t.routing.attached = false)
      (hnone : t.routing.server.migration = none) (migration : Option MigrationState)
      (h : s.bare = (t.withMigration migration).bare)

/-- A connection moves its graphics and ends; the next one suppresses output for a while. -/
def twoConnections : List Action :=
  [.runConnection false ⟨1, Cookie.replicate 7⟩ 0, .clientAccepted true, .autoReconnect,
    .clientLoop, .routing (.dvc .capabilities), .routing (.dvc (.create 3 0)), .tunnelBound true,
    .routing (.egfx 3), .routing .written, .routing .written, .routing (.egfx 3), .disconnect,
    .runConnection false ⟨2, Cookie.replicate 8⟩ 1, .clientAccepted true, .clientLoop,
    .pdu (.suppressOutput true), .deactivate, .clientAccepted true, .clientLoop]

end Macrdp.ConnectionState
