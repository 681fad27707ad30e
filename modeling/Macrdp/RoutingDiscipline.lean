import Mathlib.Data.List.Nodup
import Macrdp.SoftSync

/-!
# When routing keeps to its requests

A channel whose request was made has it on the wire or on its way there, graphics are on
the tunnel only with their request made and the offer in hand, and what the log says
about TCP and the tunnel follows.
-/

namespace Macrdp.SoftSync

open EmtTunnel StepSystem

variable {cfg : Settings} {s s' : State}

/-- An element of a list with one more at its end is that one, or was there before. -/
theorem split_concat {α : Type*} {l before after : List α} {x y : α}
    (h : l ++ [x] = before ++ y :: after) :
    before = l ∧ y = x ∧ after = [] ∨
      ∃ after', after = after' ++ [x] ∧ l = before ++ y :: after' := by
  rcases List.eq_nil_or_concat after with rfl | ⟨after', z, rfl⟩
  · obtain ⟨hl, hx⟩ := List.append_inj' h rfl
    exact .inl ⟨hl.symm, (List.singleton_inj.mp hx).symm, rfl⟩
  · rw [List.concat_eq_append, ← List.cons_append, ← List.append_assoc] at h
    obtain ⟨hl, hx⟩ := List.append_inj' h rfl
    refine .inr ⟨after', ?_, hl⟩
    rw [List.concat_eq_append, List.singleton_inj.mp hx]

/-- A request that names a channel was written. -/
def Named (sent : List Output) (channelId : UInt32) : Prop :=
  ∃ tunnel channelIds opened, .softSync tunnel channelIds opened ∈ sent ∧ channelId ∈ channelIds

/-- What was sent keeps to the requests. -/
structure LogOk (sent : List Output) : Prop where
  opened : ∀ tunnel channelIds opened, .softSync tunnel channelIds opened ∈ sent →
    channelIds ⊆ opened
  named : ∀ before channelId after, sent = before ++ .udp channelId :: after →
    Named before channelId
  moved : ∀ before tunnel channelIds opened between channelId after,
    sent = before ++ .softSync tunnel channelIds opened :: (between ++ .tcp channelId :: after) →
      channelId ∈ channelIds → .demigrated ∈ between
  kept : ∀ channelId, .discarded channelId .noMigrationCookie ∉ sent

theorem logOk_nil : LogOk [] where
  opened := by simp
  named := by simp
  moved := by simp
  kept := by simp

variable {sent : List Output}

/-- One more thing is sent. -/
theorem LogOk.push (h : LogOk sent) (x : Output)
    (hopened : ∀ tunnel channelIds opened, x = .softSync tunnel channelIds opened →
      channelIds ⊆ opened) (hnamed : ∀ channelId, x = .udp channelId → Named sent channelId)
    (hmoved : ∀ channelId before tunnel channelIds opened between, x = .tcp channelId →
      sent = before ++ .softSync tunnel channelIds opened :: between → channelId ∈ channelIds →
        .demigrated ∈ between)
    (hkept : ∀ channelId, x ≠ .discarded channelId .noMigrationCookie) : LogOk (sent ++ [x]) where
  opened := by
    intro tunnel channelIds opened hmem
    rcases List.mem_append.mp hmem with hmem | hmem
    · exact h.opened _ _ _ hmem
    · exact hopened _ _ _ (List.mem_singleton.mp hmem).symm
  named := by
    intro before channelId after heq
    rcases split_concat heq with ⟨rfl, hx, -⟩ | ⟨after', -, hold⟩
    · exact hnamed channelId hx.symm
    · exact h.named before channelId after' hold
  moved := by
    intro before tunnel channelIds opened between channelId after heq hmem
    rw [← List.cons_append, ← List.append_assoc] at heq
    rcases split_concat heq with ⟨hsent, hx, -⟩ | ⟨after', -, hold⟩
    · exact hmoved channelId before tunnel channelIds opened between hx.symm hsent.symm hmem
    · refine h.moved before tunnel channelIds opened between channelId after' ?_ hmem
      rw [hold, List.append_assoc, List.cons_append]
  kept := by
    intro channelId hmem
    rcases List.mem_append.mp hmem with hmem | hmem
    · exact h.kept channelId hmem
    · exact hkept channelId (List.mem_singleton.mp hmem).symm

/-- The number of requests that are being written. -/
def State.underway (s : State) : ℕ :=
  match s.pending with
  | some (.request _ _) => 1
  | _ => 0

/-- A number of the graphics channel. -/
def IsEgfx (cfg : Settings) (channelId : UInt32) : Prop :=
  (channelId, egfxDvcChannelName) ∈ cfg.channels

/-- How the guard, the requests and the route of graphics hang together. -/
structure Linked (cfg : Settings) (s : State) : Prop where
  table : ∀ c ∈ s.drdynvc, (c.channelId, c.channelName) ∈ cfg.channels
  attached : s.pending ≠ none → s.attached = true
  once : softSyncs s.sent + s.underway ≤ 1
  fresh : s.canSoftSync = true → softSyncs s.sent + s.underway = 0
  handle : s.server.egfxOnUdp = s.server.egfxOnUdpHandle
  pendingOpened : ∀ tunnel channelIds, s.pending = some (.request tunnel channelIds) →
    channelIds ⊆ s.drdynvc.openedChannels
  asked : ∀ channelId ∈ s.requested, Named s.sent channelId ∨
    ∃ tunnel channelIds, s.pending = some (.request tunnel channelIds) ∧ channelId ∈ channelIds
  onUdp : s.server.egfxOnUdp = true → ∀ channelId, IsEgfx cfg channelId → channelId ∈ s.requested
  migrated : s.server.egfxOnUdp = true → s.server.migration.isSome = true
  frame : ∀ channelId, s.pending = some (.frame channelId) →
    s.server.egfxOnUdp = false ∧ IsEgfx cfg channelId
  pendingMoved : ∀ tunnel channelIds, s.pending = some (.request tunnel channelIds) →
    ∀ channelId ∈ channelIds, IsEgfx cfg channelId → s.server.egfxOnUdp = true
  moved : ∀ before tunnel channelIds opened after,
    s.sent = before ++ .softSync tunnel channelIds opened :: after →
      ∀ channelId ∈ channelIds, IsEgfx cfg channelId →
        s.server.egfxOnUdp = true ∨ .demigrated ∈ after

/-- The graphics channel has one number. -/
theorem IsEgfx.unique {a b : UInt32} (ha : IsEgfx cfg a) (hb : IsEgfx cfg b) : a = b :=
  congrArg Prod.fst (List.inj_on_of_nodup_map cfg.names_nodup ha hb rfl)

/-- The audio channel is not the graphics channel. -/
theorem not_egfx_of_lossy {a : UInt32} (ha : (a, audioPlaybackLossyDvc) ∈ cfg.channels) :
    ¬IsEgfx cfg a := by
  intro hb
  have hsame := List.inj_on_of_nodup_map cfg.ids_nodup ha hb rfl
  have hname : audioPlaybackLossyDvc = egfxDvcChannelName := congrArg Prod.snd hsame
  exact absurd hname (by decide)

theorem linked_init (cfg : Settings) (migration : Option MigrationState)
    (udpTunnelBound : Option Bool) (lossyAudioFormat : Option UInt16) :
    Linked cfg (.init cfg migration udpTunnelBound lossyAudioFormat) where
  table := by
    intro c hc
    obtain ⟨x, hx, rfl⟩ := List.mem_map.mp hc
    exact hx
  attached := by simp [State.init]
  once := by simp [State.init, softSyncs, State.underway]
  fresh := by simp [State.init, softSyncs, State.underway]
  handle := rfl
  pendingOpened := by simp [State.init]
  asked := by simp [State.init]
  onUdp := by simp [State.init]
  migrated := by simp [State.init]
  frame := by simp [State.init]
  pendingMoved := by simp [State.init]
  moved := by simp [State.init]

/-- What a step does not touch does not matter. -/
theorem Linked.congr (h : Linked cfg s) (htable : s'.drdynvc = s.drdynvc)
    (hattached : s'.pending ≠ none → s'.attached = true) (hpending : s'.pending = s.pending)
    (hrequested : s'.requested = s.requested) (hsent : s'.sent = s.sent)
    (hmigration : s'.server.migration = s.server.migration)
    (hudp : s'.server.egfxOnUdp = s.server.egfxOnUdp)
    (hhandle : s'.server.egfxOnUdpHandle = s.server.egfxOnUdpHandle) : Linked cfg s' where
  table := htable ▸ h.table
  attached := hattached
  once := by
    rw [hsent, State.underway, hpending]
    exact h.once
  fresh := by
    rw [hsent, State.underway, hpending, State.canSoftSync, hmigration]
    exact h.fresh
  handle := by rw [hudp, hhandle, h.handle]
  pendingOpened := by
    rw [hpending, htable]
    exact h.pendingOpened
  asked := by
    rw [hrequested, hsent, hpending]
    exact h.asked
  onUdp := by
    rw [hudp, hrequested]
    exact h.onUdp
  migrated := by
    rw [hudp, hmigration]
    exact h.migrated
  frame := by
    rw [hpending, hudp]
    exact h.frame
  pendingMoved := by
    rw [hpending, hudp]
    exact h.pendingMoved
  moved := by
    rw [hsent, hudp]
    exact h.moved

/-- A thing that is not a request does not count. -/
theorem softSyncs_concat {x : Output}
    (hx : ∀ tunnel channelIds opened, x ≠ .softSync tunnel channelIds opened) :
    softSyncs (sent ++ [x]) = softSyncs sent := by
  cases x with
  | softSync tunnel channelIds opened => exact absurd rfl (hx tunnel channelIds opened)
  | tcp | udp | discarded | demigrated => simp [softSyncs, List.countP_append]

variable {channelId : UInt32}

theorem Named.concat {x : Output} (h : Named sent channelId) : Named (sent ++ [x]) channelId := by
  obtain ⟨tunnel, channelIds, opened, hmem, hid⟩ := h
  exact ⟨tunnel, channelIds, opened, List.mem_append_left _ hmem, hid⟩

/-- One more thing that is not a request is sent. -/
theorem Linked.log (h : Linked cfg s) {x : Output}
    (hx : ∀ tunnel channelIds opened, x ≠ .softSync tunnel channelIds opened) :
    Linked cfg (s.log x) where
  __ := h
  once := by
    show softSyncs (s.sent ++ [x]) + s.underway ≤ 1
    rw [softSyncs_concat hx]
    exact h.once
  fresh := by
    show s.canSoftSync = true → softSyncs (s.sent ++ [x]) + s.underway = 0
    rw [softSyncs_concat hx]
    exact h.fresh
  asked := fun channelId hid => (h.asked channelId hid).imp_left Named.concat
  moved := by
    intro before tunnel channelIds opened after heq channelId hid hegfx
    rcases split_concat heq with ⟨-, hy, -⟩ | ⟨after', rfl, hold⟩
    · exact absurd hy.symm (hx tunnel channelIds opened)
    · exact (h.moved _ _ _ _ _ hold channelId hid hegfx).imp_right (List.mem_append_left _)

/-- With nothing pending, a channel that was asked for has its request on the wire. -/
theorem Linked.on_wire (h : Linked cfg s) (hpending : s.pending = none)
    (hid : channelId ∈ s.requested) : Named s.sent channelId := by
  rcases h.asked channelId hid with hnamed | ⟨tunnel, channelIds, hsome, -⟩
  · exact hnamed
  · rw [hpending] at hsome
    cases hsome

/-- Data of a channel whose request was written is handed over, if the offer is there. -/
theorem route_ok (hlog : LogOk s.sent) (h : Linked cfg s)
    (hnamed : Named s.sent channelId) (hmigrated : s.server.migration.isSome = true) :
    LogOk (s.routeDvcOverUdp cfg channelId).sent ∧
      Linked cfg (s.routeDvcOverUdp cfg channelId) := by
  obtain ⟨m, hm⟩ := Option.isSome_iff_exists.mp hmigrated
  rw [State.routeDvcOverUdp]
  split
  · simp only [hm]
    refine ⟨hlog.push _ (by simp) ?_ (by simp) (by simp), h.log (by simp)⟩
    rintro other heq
    cases heq
    exact hnamed
  · exact ⟨hlog.push _ (by simp) (by simp) (by simp) (by simp), h.log (by simp)⟩

theorem softSyncSent_guarded : s.softSyncSent.canSoftSync = false := by
  simp only [State.softSyncSent, State.canSoftSync]
  cases s.server.migration <;> rfl

/-- The guard is set, and nothing is written for it. -/
theorem Linked.softSyncSent (h : Linked cfg s) : Linked cfg s.softSyncSent where
  __ := h
  fresh := by
    intro hcan
    rw [softSyncSent_guarded] at hcan
    cases hcan
  migrated := by
    show s.server.egfxOnUdp = true → (s.server.migration.map _).isSome = true
    rw [Option.isSome_map]
    exact h.migrated

/-- No request is in a log that counts none. -/
theorem not_mem_of_softSyncs (h : softSyncs sent = 0) {tunnel : TunnelType}
    {channelIds opened : List UInt32} : .softSync tunnel channelIds opened ∉ sent := by
  intro hmem
  exact absurd rfl (List.countP_eq_zero.mp h _ hmem)

/-- The request is started: graphics move with it, if it names them. -/
theorem Linked.request (h : Linked cfg s) (hcan : s.canSoftSync = true)
    (hattached : s.attached = true) {server : Server} {tunnel : TunnelType}
    {channelIds : List UInt32}
    (hmigration : server.migration = s.softSyncSent.server.migration)
    (hhandle : server.egfxOnUdp = server.egfxOnUdpHandle)
    (hopened : channelIds ⊆ s.drdynvc.openedChannels)
    (hegfx : ∀ channelId ∈ channelIds, IsEgfx cfg channelId → server.egfxOnUdp = true)
    (hudp : server.egfxOnUdp = true → s.server.egfxOnUdp = true ∨
      ∀ channelId, IsEgfx cfg channelId → channelId ∈ channelIds) :
    Linked cfg { s with
      server
      pending := some (.request tunnel channelIds)
      requested := channelIds ++ s.requested } where
  table := h.table
  attached := fun _ => hattached
  once := by
    show softSyncs s.sent + 1 ≤ 1
    have hnone := h.fresh hcan
    omega
  fresh := by
    intro hagain
    have hguard : s.softSyncSent.canSoftSync = false := softSyncSent_guarded
    rw [State.canSoftSync, ← hmigration] at hguard
    rw [State.canSoftSync, hguard] at hagain
    cases hagain
  handle := hhandle
  pendingOpened := by
    rintro other otherIds heq
    cases heq
    exact hopened
  asked := by
    intro channelId hid
    rcases List.mem_append.mp hid with hid | hid
    · exact .inr ⟨tunnel, channelIds, rfl, hid⟩
    · rcases h.asked channelId hid with hnamed | ⟨other, otherIds, hsome, -⟩
      · exact .inl hnamed
      · have hnone := h.fresh hcan
        simp [State.underway, hsome] at hnone
  onUdp := by
    intro hup channelId hid
    rcases hudp hup with hold | hall
    · exact List.mem_append_right _ (h.onUdp hold channelId hid)
    · exact List.mem_append_left _ (hall channelId hid)
  migrated := by
    intro _
    show server.migration.isSome = true
    obtain ⟨m, hm, -⟩ := (Option.any_eq_true _ _).mp hcan
    rw [hmigration, State.softSyncSent, hm]
    rfl
  frame := by
    intro channelId heq
    cases heq
  pendingMoved := by
    rintro other otherIds heq
    cases heq
    exact hegfx
  moved := by
    intro before other otherIds opened after heq
    have hnone := h.fresh hcan
    have hmem : .softSync other otherIds opened ∈ s.sent := heq ▸ by simp
    exact absurd hmem (not_mem_of_softSyncs (by omega))

/-- A channel that is found by name is registered. -/
theorem Linked.found (h : Linked cfg s) {name : String}
    (hfound : s.drdynvc.getChannelIdByName name = some channelId) :
    (channelId, name) ∈ cfg.channels := by
  obtain ⟨c, hc, rfl⟩ := Option.map_eq_some_iff.mp hfound
  have hname : c.channelName = name := by simpa using List.find?_some hc
  exact hname ▸ h.table c (List.mem_of_find?_eq_some hc)

/-- Graphics were written: the request is made, or nothing happens. -/
theorem maybeSoftSyncOnEgfx_ok (hlog : LogOk s.sent) (h : Linked cfg s)
    (hattached : s.attached = true) (hopened : s.dueChannels cfg ⊆ s.drdynvc.openedChannels) :
    LogOk (s.maybeSoftSyncOnEgfx cfg).sent ∧ Linked cfg (s.maybeSoftSyncOnEgfx cfg) := by
  have hattached' : s.softSyncSent.attached = true := hattached
  rw [State.maybeSoftSyncOnEgfx]
  split
  · rename_i hbound
    split
    · rename_i hlossy
      split
      · exact ⟨hlog, h⟩
      · rename_i audioId hfound
        split
        · rename_i hcan
          have hdue : s.dueChannels cfg = [audioId] := by
            simp [State.dueChannels, hbound, hcan, hlossy, hfound]
          rw [State.sendSoftSyncRequest, if_pos hattached']
          refine ⟨hlog, h.request hcan hattached rfl h.handle (hdue ▸ hopened) ?_ .inl⟩
          intro channelId hid hegfx
          rw [List.mem_singleton.mp hid] at hegfx
          exact absurd hegfx (not_egfx_of_lossy (h.found hfound))
        · exact ⟨hlog, h⟩
    · rename_i hlossy
      split
      · rename_i hcan
        have hempty : Linked cfg (s.softSyncSent.sendSoftSyncRequest
            (if cfg.migrateEgfxLossy then .udpfecl else .udpfecr) []) := by
          rw [State.sendSoftSyncRequest, if_pos hattached']
          exact h.request hcan hattached rfl h.handle (by simp) (by simp) .inl
        have hsent : (s.softSyncSent.sendSoftSyncRequest
            (if cfg.migrateEgfxLossy then .udpfecl else .udpfecr) []).sent = s.sent := by
          rw [State.sendSoftSyncRequest, if_pos hattached']
          rfl
        dsimp only
        split
        · rename_i hmigrate
          split
          · rename_i gfxId hfound
            have hdue : s.dueChannels cfg = [gfxId] := by
              simp [State.dueChannels, hbound, hcan, hlossy, hmigrate, hfound]
            rw [State.sendSoftSyncRequest, if_pos (show (s.softSyncSent.egfxOnto _).attached = true
              from hattached)]
            refine ⟨hlog, h.request hcan hattached rfl rfl (hdue ▸ hopened) (fun _ _ _ => rfl) ?_⟩
            intro _
            refine .inr fun channelId hegfx => ?_
            rw [IsEgfx.unique hegfx (h.found hfound)]
            exact List.mem_singleton_self _
          · exact ⟨hsent ▸ hlog, hempty⟩
        · exact ⟨hsent ▸ hlog, hempty⟩
      · exact ⟨hlog, h⟩
  · exact ⟨hlog, h⟩

/-- A write that is no request starts or ends, and cuts no request that names a channel. -/
theorem Linked.setPending (h : Linked cfg s) {attached : Bool} {pending : Option Pending}
    (hcut : s.channelsUnderway = []) (hattached : pending ≠ none → attached = true)
    (hnew : ∀ tunnel channelIds, pending ≠ some (.request tunnel channelIds))
    (hframe : ∀ channelId, pending = some (.frame channelId) →
      s.server.egfxOnUdp = false ∧ IsEgfx cfg channelId) :
    Linked cfg { s with attached, pending } := by
  have hnone : State.underway { s with attached, pending } = 0 := by
    rw [State.underway]
    split
    · rename_i tunnel channelIds hsome
      exact absurd hsome (hnew tunnel channelIds)
    · rfl
  refine ⟨h.table, hattached, ?_, ?_, h.handle, ?_, ?_, h.onUdp, h.migrated, hframe, ?_, h.moved⟩
  · rw [hnone]
    exact (Nat.le_add_right _ _).trans h.once
  · intro hcan
    have hfresh : softSyncs s.sent + s.underway = 0 := h.fresh hcan
    rw [hnone]
    show softSyncs s.sent + 0 = 0
    omega
  · exact fun tunnel channelIds hsome => absurd hsome (hnew tunnel channelIds)
  · intro channelId hid
    rcases h.asked channelId hid with hnamed | ⟨tunnel, channelIds, hsome, hmem⟩
    · exact .inl hnamed
    · rw [State.channelsUnderway, hsome] at hcut
      have hempty : channelIds = [] := hcut
      rw [hempty] at hmem
      cases hmem
  · exact fun tunnel channelIds hsome => absurd hsome (hnew tunnel channelIds)

/-- Graphics on TCP wait for their write. -/
theorem Linked.startFrame (h : Linked cfg s) (hattached : s.attached = true)
    (hpending : s.pending = none) (hudp : s.server.egfxOnUdp = false)
    (hegfx : IsEgfx cfg channelId) : Linked cfg { s with pending := some (.frame channelId) } := by
  refine h.setPending (by rw [State.channelsUnderway, hpending]) (fun _ => hattached) (by simp) ?_
  rintro other heq
  cases heq
  exact ⟨hudp, hegfx⟩

/-- The write that the lock was held for is done. -/
theorem written_ok (hlog : LogOk s.sent) (h : Linked cfg s) (hcond : InTurn cfg s .written)
    (hstep : s.written cfg = some s') : LogOk s'.sent ∧ Linked cfg s' := by
  cases hpending : s.pending with
  | none => simp [State.written, hpending] at hstep
  | some write =>
    cases write with simp only [State.written, hpending, Option.some.injEq] at hstep
    | frame channelId =>
      subst hstep
      obtain ⟨hudp, hegfx⟩ := h.frame channelId hpending
      have hidle : Linked cfg { s with pending := none } :=
        h.setPending (by rw [State.channelsUnderway, hpending]) (by simp) (by simp) (by simp)
      have hframe : LogOk (s.sent ++ [.tcp channelId]) := by
        refine hlog.push _ (by simp) (by simp) ?_ (by simp)
        rintro other before tunnel channelIds opened between heq hsplit hid
        cases heq
        rcases h.moved _ _ _ _ _ hsplit channelId hid hegfx with hup | hdown
        · rw [hudp] at hup
          cases hup
        · exact hdown
      exact maybeSoftSyncOnEgfx_ok hframe (hidle.log (by simp))
        (h.attached (by simp [hpending])) (hcond (by simp [State.writesFrame, hpending]))
    | request tunnel channelIds =>
      subst hstep
      have hopened := h.pendingOpened tunnel channelIds hpending
      have hcount : softSyncs (s.sent ++ [.softSync tunnel channelIds s.drdynvc.openedChannels]) =
          softSyncs s.sent + s.underway := by
        simp [softSyncs, List.countP_append, State.underway, hpending]
      refine ⟨hlog.push _ ?_ (by simp) (by simp) (by simp), h.table, by simp [State.log], ?_, ?_,
        h.handle, by simp [State.log], ?_, h.onUdp, h.migrated, by simp [State.log],
        by simp [State.log], ?_⟩
      · rintro other otherIds otherOpened heq
        cases heq
        exact hopened
      · show softSyncs (s.sent ++ _) + 0 ≤ 1
        rw [hcount]
        exact h.once
      · intro hcan
        show softSyncs (s.sent ++ _) + 0 = 0
        rw [hcount]
        exact h.fresh hcan
      · intro x hx
        rcases h.asked x hx with hnamed | ⟨other, otherIds, hsome, hid⟩
        · exact .inl hnamed.concat
        · rw [hpending] at hsome
          cases hsome
          exact .inl ⟨tunnel, channelIds, s.drdynvc.openedChannels, by simp [State.log], hid⟩
      · intro before other otherIds opened after heq x hx hegfx
        rcases split_concat heq with ⟨-, hsame, -⟩ | ⟨after', rfl, hold⟩
        · cases hsame
          exact .inl (h.pendingMoved tunnel channelIds hpending x hx hegfx)
        · exact (h.moved _ _ _ _ _ hold x hx hegfx).imp_right (List.mem_append_left _)

/-- Graphics leave the tunnel, and the log says so. -/
theorem Linked.demigrate (h : Linked cfg s) (hpending : s.pending = none) :
    Linked cfg (s.demigrate.log .demigrated) where
  __ := h
  once := by
    show softSyncs (s.sent ++ [.demigrated]) + s.underway ≤ 1
    rw [softSyncs_concat (by simp)]
    exact h.once
  fresh := by
    show s.canSoftSync = true → softSyncs (s.sent ++ [.demigrated]) + s.underway = 0
    rw [softSyncs_concat (by simp)]
    exact h.fresh
  handle := rfl
  asked := fun x hx => (h.asked x hx).imp_left Named.concat
  onUdp := by simp [State.demigrate, State.log]
  migrated := by simp [State.demigrate, State.log]
  frame := fun x hx => ⟨rfl, (h.frame x hx).2⟩
  pendingMoved := by simp [State.demigrate, State.log, hpending]
  moved := by
    intro before tunnel channelIds opened after heq x hx hegfx
    rcases split_concat heq with ⟨-, hy, -⟩ | ⟨after', rfl, hold⟩
    · cases hy
    · exact .inr (by simp)

theorem dispatchEgfx_ok (hlog : LogOk s.sent) (h : Linked cfg s)
    (hready : s.ready = true) (hegfx : IsEgfx cfg channelId) :
    LogOk (s.dispatchEgfx cfg channelId).sent ∧ Linked cfg (s.dispatchEgfx cfg channelId) := by
  obtain ⟨hattached, hidle⟩ := Bool.and_eq_true_iff.mp hready
  have hpending : s.pending = none := of_decide_eq_true hidle
  rw [State.dispatchEgfx]
  split
  · rename_i hup
    split
    · exact ⟨hlog.push _ (by simp) (by simp) (by simp) (by simp),
        (h.demigrate hpending).startFrame hattached hpending rfl hegfx⟩
    · exact route_ok hlog h (h.on_wire hpending (h.onUdp hup channelId hegfx)) (h.migrated hup)
  · rename_i hup
    exact ⟨hlog, h.startFrame hattached hpending (Bool.eq_false_iff.mpr hup) hegfx⟩

theorem dispatchWave_ok (hlog : LogOk s.sent) (h : Linked cfg s) (hready : s.ready = true)
    (hcond : InTurn cfg s .wave) :
    LogOk (s.dispatchWave cfg).sent ∧ Linked cfg (s.dispatchWave cfg) := by
  have hpending : s.pending = none := of_decide_eq_true (Bool.and_eq_true_iff.mp hready).2
  rw [State.dispatchWave]
  split
  · rename_i formatNo lossyId htarget
    have hnamed : Named s.sent lossyId := h.on_wire hpending (hcond _ htarget)
    obtain ⟨⟨-, -, hmigrated, -⟩, -⟩ := Option.ite_none_right_eq_some.mp htarget
    exact route_ok hlog (h.congr rfl h.attached rfl rfl rfl rfl rfl rfl) hnamed hmigrated
  · exact ⟨hlog, h⟩

/-- The offer is forgotten while graphics are on TCP. -/
theorem Linked.forgetMigration (h : Linked cfg s) (hudp : s.server.egfxOnUdp = false) :
    Linked cfg s.forgetMigration where
  __ := h
  fresh := by simp [State.forgetMigration, State.canSoftSync]
  migrated := by simp [State.forgetMigration, hudp]

theorem response_ok {requestId : UInt32} {success : Bool} (hlog : LogOk s.sent) (h : Linked cfg s)
    (hcond : InTurn cfg s (.maybeHandleMultitransportResponse requestId success)) :
    LogOk (s.maybeHandleMultitransportResponse requestId success).sent ∧
      Linked cfg (s.maybeHandleMultitransportResponse requestId success) := by
  rw [State.maybeHandleMultitransportResponse]
  split
  · rename_i hflight
    split
    · split
      · rename_i hcan
        rw [State.sendSoftSyncRequest]
        split
        · rename_i hattached
          exact ⟨hlog, h.request hcan hattached rfl h.handle (by simp) (by simp) .inl⟩
        · exact ⟨hlog, h.softSyncSent⟩
      · exact ⟨hlog, h⟩
    · rename_i hfailed
      refine ⟨hlog, h.forgetMigration ?_⟩
      by_contra hup
      rcases hcond (Bool.eq_true_of_not_eq_false hup) with hsuccess | hother
      · exact hfailed hsuccess
      · rw [hflight] at hother
        cases hother
  · exact ⟨hlog, h⟩

theorem ioResponse_ok {requestId : UInt32} {success : Bool} (hlog : LogOk s.sent)
    (h : Linked cfg s) (hcond : InTurn cfg s (.handleMultitransportResponse requestId success)) :
    LogOk (s.handleMultitransportResponse requestId).sent ∧
      Linked cfg (s.handleMultitransportResponse requestId) := by
  rw [State.handleMultitransportResponse]
  split
  · rename_i hflight
    refine ⟨hlog, h.forgetMigration ?_⟩
    by_contra hup
    have hother := hcond (Bool.eq_true_of_not_eq_false hup)
    rw [hflight] at hother
    cases hother
  · exact ⟨hlog, h⟩

/-- What the client says registers no channel. -/
theorem process_table {d d' : DrdynvcServer} {pdu : DrdynvcClientPdu}
    (h : d.process pdu = some d') :
    ∀ c ∈ d', ∃ c' ∈ d, c'.channelId = c.channelId ∧ c'.channelName = c.channelName := by
  cases pdu with
  | capabilities =>
    cases h
    intro c hc
    obtain ⟨c', hc', rfl⟩ := List.mem_map.mp hc
    refine ⟨c', hc', ?_⟩
    split <;> exact ⟨rfl, rfl⟩
  | create channelId creationStatus =>
    have hset : ∀ state, d' = d.setState channelId state →
        ∀ c ∈ d', ∃ c' ∈ d, c'.channelId = c.channelId ∧ c'.channelName = c.channelName := by
      rintro state rfl c hc
      obtain ⟨c', hc', rfl⟩ := List.mem_map.mp hc
      refine ⟨c', hc', ?_⟩
      split <;> exact ⟨rfl, rfl⟩
    obtain ⟨c, -, hc⟩ := Option.bind_eq_some_iff.mp h
    split at hc
    · cases hc
    · split at hc
      · exact hset _ (Option.some.inj hc).symm
      · exact hset _ (Option.some.inj hc).symm
  | close channelId =>
    cases h
    exact fun c hc => ⟨c, List.mem_of_mem_filter hc, rfl, rfl⟩

/-- One step keeps the routing in order. -/
theorem step_ok {a : Action} (hlog : LogOk s.sent) (h : Linked cfg s) (hcond : InTurn cfg s a)
    (hstep : s.step cfg a = some s') : LogOk s'.sent ∧ Linked cfg s' := by
  cases a with
  | egfx channelId =>
    obtain ⟨⟨hready, hegfx⟩, heq⟩ := Option.ite_none_right_eq_some.mp hstep
    cases heq
    exact dispatchEgfx_ok hlog h hready hegfx
  | wave =>
    obtain ⟨hready, heq⟩ := Option.ite_none_right_eq_some.mp hstep
    cases heq
    exact dispatchWave_ok hlog h hready hcond
  | tunnelBound value | demigrateRequest =>
    cases hstep
    exact ⟨hlog, h.congr rfl h.attached rfl rfl rfl rfl rfl rfl⟩
  | handleMultitransportResponse requestId success =>
    obtain ⟨-, heq⟩ := Option.ite_none_right_eq_some.mp hstep
    cases heq
    exact ioResponse_ok hlog h hcond
  | maybeHandleMultitransportResponse requestId success =>
    obtain ⟨-, heq⟩ := Option.ite_none_right_eq_some.mp hstep
    cases heq
    exact response_ok hlog h hcond
  | dvc pdu =>
    obtain ⟨hready, hprocess⟩ := Option.ite_none_right_eq_some.mp hstep
    obtain ⟨d, hd, rfl⟩ := Option.map_eq_some_iff.mp hprocess
    have hpending : s.pending = none := of_decide_eq_true (Bool.and_eq_true_iff.mp hready).2
    refine ⟨hlog, ?_, h.attached, h.once, h.fresh, h.handle, by simp [hpending], h.asked, h.onUdp,
      h.migrated, h.frame, h.pendingMoved, h.moved⟩
    intro c hc
    obtain ⟨c', hc', hid, hname⟩ := process_table hd c hc
    rw [← hid, ← hname]
    exact h.table c' hc'
  | trainingConfirm formatNo =>
    obtain ⟨-, heq⟩ := Option.ite_none_right_eq_some.mp hstep
    cases heq
    exact ⟨hlog, h.congr rfl h.attached rfl rfl rfl rfl rfl rfl⟩
  | written => exact written_ok hlog h hcond hstep
  | deactivate =>
    obtain ⟨-, heq⟩ := Option.ite_none_right_eq_some.mp hstep
    cases heq
    exact ⟨hlog, h.setPending hcond (by simp) (by simp) (by simp)⟩
  | reactivated =>
    obtain ⟨-, heq⟩ := Option.ite_none_left_eq_some.mp hstep
    cases heq
    exact ⟨hlog, h.congr rfl (fun _ => rfl) rfl rfl rfl rfl rfl rfl⟩

/-- The routing of a connection keeps to its requests in every run in which a request
names open channels and is not cut, no wave comes before the request for its channel,
and no response takes the offer from under graphics on the tunnel. -/
theorem routing_disciplined (cfg : Settings) (migration : Option MigrationState)
    (udpTunnelBound : Option Bool) (lossyAudioFormat : Option UInt16) (acts : List Action)
    (s : State)
    (hmeets : Meets (State.step cfg) (InTurn cfg)
      (.init cfg migration udpTunnelBound lossyAudioFormat) acts)
    (hrun : run (State.step cfg) (.init cfg migration udpTunnelBound lossyAudioFormat) acts =
      some s) : Disciplined s := by
  have h : LogOk s.sent ∧ Linked cfg s :=
    run_invariant (fun s => LogOk s.sent ∧ Linked cfg s)
      (fun _ _ _ hs hcond hstep => step_ok hs.1 hs.2 hcond hstep)
      ⟨logOk_nil, linked_init cfg migration udpTunnelBound lossyAudioFormat⟩ hmeets hrun
  exact ⟨(Nat.le_add_right _ _).trans h.2.once, h.1.opened, h.1.named, h.1.moved, h.1.kept,
    h.2.handle⟩

def sampleMigration : MigrationState := ⟨7, Cookie.replicate 7, false⟩

/-- Graphics may move. -/
def graphicsSettings : Settings where
  migrateEgfx := true
  migrateEgfxLossy := false
  lossyAudioFormats := false
  tunnelSender := true
  channels := [(2, "ECHO"), (3, egfxDvcChannelName)]
  ids_nodup := by decide
  names_nodup := by decide

/-- Audio may move. -/
def audioSettings : Settings where
  migrateEgfx := false
  migrateEgfxLossy := false
  lossyAudioFormats := true
  tunnelSender := true
  channels := [(3, egfxDvcChannelName), (4, "AUDIO_PLAYBACK_DVC"), (5, audioPlaybackLossyDvc)]
  ids_nodup := by decide
  names_nodup := by decide

/-- Graphics move onto the tunnel once it is bound, and back when it is wedged. -/
theorem routing_disciplined_graphics :
    ∃ s, run (State.step graphicsSettings)
        (.init graphicsSettings (some sampleMigration) (some false) none)
        [.dvc .capabilities, .dvc (.create 3 0), .egfx 3, .written, .tunnelBound true, .egfx 3,
          .written, .written, .egfx 3, .demigrateRequest, .egfx 3, .written] = some s ∧
      s.sent = [.tcp 3, .tcp 3, .softSync .udpfecr [3] [3], .udp 3, .demigrated, .tcp 3] ∧
      Disciplined s := by
  have hrun : (run (State.step graphicsSettings)
      (.init graphicsSettings (some sampleMigration) (some false) none)
      [.dvc .capabilities, .dvc (.create 3 0), .egfx 3, .written, .tunnelBound true, .egfx 3,
        .written, .written, .egfx 3, .demigrateRequest, .egfx 3, .written]).any
      (fun s => decide (s.sent =
        [.tcp 3, .tcp 3, .softSync .udpfecr [3] [3], .udp 3, .demigrated, .tcp 3])) = true := by
    decide +kernel
  obtain ⟨s, hs, hsent⟩ := (Option.any_eq_true _ _).mp hrun
  have hmeets : meetsBool (State.step graphicsSettings)
      (fun s a => decide (InTurn graphicsSettings s a))
      (.init graphicsSettings (some sampleMigration) (some false) none)
      [.dvc .capabilities, .dvc (.create 3 0), .egfx 3, .written, .tunnelBound true, .egfx 3,
        .written, .written, .egfx 3, .demigrateRequest, .egfx 3, .written] = true := by
    decide +kernel
  have hcond := meetsBool_iff.mp hmeets
  simp only [decide_eq_true_eq] at hcond
  exact ⟨s, hs, of_decide_eq_true hsent, routing_disciplined _ _ _ _ _ s hcond hs⟩

/-- The request names the audio channel although the client has not opened it. -/
theorem not_disciplined_unopened :
    ¬∀ (cfg : Settings) (migration : Option MigrationState) (udpTunnelBound : Option Bool)
      (lossyAudioFormat : Option UInt16) (acts : List Action) (s : State),
      run (State.step cfg) (.init cfg migration udpTunnelBound lossyAudioFormat) acts = some s →
        Disciplined s := by
  intro h
  have hrun : (run (State.step audioSettings)
      (.init audioSettings (some sampleMigration) (some true) none)
      [.dvc .capabilities, .dvc (.create 3 0), .egfx 3, .written, .written]).any
      (fun s => decide (s.sent = [.tcp 3, .softSync .udpfecl [5] [3]])) = true := by
    decide +kernel
  obtain ⟨s, hs, hsent⟩ := (Option.any_eq_true _ _).mp hrun
  have hmem : .softSync .udpfecl [5] [3] ∈ s.sent := by
    rw [of_decide_eq_true hsent]
    exact List.mem_cons_of_mem _ List.mem_cons_self
  exact absurd ((h _ _ _ _ _ s hs).opened _ _ _ hmem) (by decide)

end Macrdp.SoftSync
