import Macrdp.ServerEvents

/-!
# What a reactivation leaves of the events

A client loop that ends for a reactivation drops what it took and has not dispatched. A
connection whose reactivations all come when nothing waits dispatches every event once,
in the order of sending.
-/

namespace Macrdp.ServerEvents

open StepSystem

variable {s s' : Session} {a : Action}

/-- Every event is dispatched once and in order, as long as the connection lives. -/
structure Survives (s : Session) : Prop where
  /-- What was taken from the channel was dispatched, in the order of sending, or waits. -/
  exactlyOnce : s.phase ≠ .ended →
    s.sends = s.taken ++ s.channel ∧ s.taken = s.effects.map Prod.snd ++ s.waiting
  /-- What waits in a client loop is dispatched, unless the connection is to end. -/
  drains : s.phase = .looping →
    (∀ e ∈ s.waiting, e.kind ≠ .quit ∧ e.kind ≠ .evictedByOtherConnection) →
    ∃ acts t, run Session.step s acts = some t ∧ t.phase = .looping ∧ t.waiting = [] ∧
      t.effects.map Prod.snd = s.effects.map Prod.snd ++ s.waiting

/-- Nothing waits when the client loop ends for a reactivation. -/
def NoneWaiting (s : Session) (a : Action) : Prop := a = .resize → s.waiting = []

instance (s : Session) (a : Action) : Decidable (NoneWaiting s a) :=
  inferInstanceAs (Decidable (_ → _))

/-- Nothing is in the way of an event that does not end the connection. -/
theorem dispatch_complete {e : ServerEvent} (hquit : e.kind ≠ .quit)
    (hevicted : e.kind ≠ .evictedByOtherConnection) :
    s.dispatchServerEvent e .complete = s.done e := by
  obtain ⟨kind, producedFor, seq⟩ := e
  cases kind with
  | quit => exact absurd rfl hquit
  | evictedByOtherConnection => exact absurd rfl hevicted
  | clipboard | clipboardFileCopy | rdpsnd | rdpdr | urbdrc | camera | echo | setCredentials creds
    | getLocalAddr | egfx | autoDetectRttRequest => rfl

/-- What is left of a batch is dispatched. -/
theorem batch_drains (events : List ServerEvent) (hlooping : s.phase = .looping)
    (hdispatching : s.dispatching = none) (hevents : s.events = events)
    (hgo : ∀ e ∈ events, e.kind ≠ .quit ∧ e.kind ≠ .evictedByOtherConnection) :
    ∃ acts t, run Session.step s acts = some t ∧ t.phase = .looping ∧ t.waiting = [] ∧
      t.effects.map Prod.snd = s.effects.map Prod.snd ++ events := by
  induction events generalizing s with
  | nil => exact ⟨[], s, rfl, hlooping, by simp [Session.waiting, hevents, hdispatching], by simp⟩
  | cons e rest ih =>
    obtain ⟨hquit, hevicted⟩ := hgo e (by simp)
    have hstep : s.step (.dispatch .complete) = some ({ s with events := rest }.done e) := by
      simp [Session.step, hlooping, hdispatching, hevents, dispatch_complete hquit hevicted]
    obtain ⟨acts, t, hrun, hphase, hwaiting, heffects⟩ :=
      ih (s := { s with events := rest }.done e) (by simp [Session.done, hlooping])
        (by simp [Session.done, hdispatching]) (by simp [Session.done])
        fun x hx => hgo x (List.mem_cons_of_mem e hx)
    refine ⟨.dispatch .complete :: acts, t, run_cons_some.mpr ⟨_, hstep, hrun⟩, hphase, hwaiting,
      ?_⟩
    simp [heffects, Session.done]

/-- What waits is dispatched: the event at a write first, and then the batch. -/
theorem waiting_drains (hlooping : s.phase = .looping)
    (hgo : ∀ e ∈ s.waiting, e.kind ≠ .quit ∧ e.kind ≠ .evictedByOtherConnection) :
    ∃ acts t, run Session.step s acts = some t ∧ t.phase = .looping ∧ t.waiting = [] ∧
      t.effects.map Prod.snd = s.effects.map Prod.snd ++ s.waiting := by
  cases hdispatching : s.dispatching with
  | none =>
    have hwaiting : s.waiting = s.events := by simp [Session.waiting, hdispatching]
    rw [hwaiting] at hgo ⊢
    exact batch_drains s.events hlooping hdispatching rfl hgo
  | some e =>
    have hwaiting : s.waiting = e :: s.events := by simp [Session.waiting, hdispatching]
    rw [hwaiting] at hgo ⊢
    have hstep : s.step (.written true) = some ({ s with dispatching := none }.done e) := by
      simp [Session.step, hdispatching, Session.written, (hgo e (by simp)).2]
    obtain ⟨acts, t, hrun, hphase, hnone, heffects⟩ :=
      batch_drains (s := { s with dispatching := none }.done e) s.events
        (by simp [Session.done, hlooping]) (by simp [Session.done]) (by simp [Session.done])
        fun x hx => hgo x (List.mem_cons_of_mem e hx)
    refine ⟨.written true :: acts, t, run_cons_some.mpr ⟨_, hstep, hrun⟩, hphase, hnone, ?_⟩
    simp [heffects, Session.done]

/-- What holds of a connection whatever it drops. -/
structure Accounted (s : Session) : Prop where
  sends : s.sends = s.taken ++ s.channel
  taken : s.effects.length + s.waiting.length ≤ s.taken.length
  waiting : s.phase ≠ .looping → s.waiting = []

theorem accounted_start (connection : ℕ) (channel : List ServerEvent) (creds : Option Credentials) :
    Accounted (.start connection channel creds) := by
  refine ⟨?_, ?_, ?_⟩ <;> simp [Session.start, Session.waiting]

/-- Every step keeps the accounts. -/
theorem accounted_step (hs : Accounted s) (h : s.step a = some s') : Accounted s' := by
  have hledger := Session.step_ledger h
  refine ⟨?_, ?_, (Session.step_phase h hs.waiting).1⟩
  · rw [hledger.sends, hs.sends, hledger.taken, List.append_assoc, hledger.channel,
      List.append_assoc]
  · have hlengths := congrArg List.length hledger.handled
    have htaken := hs.taken
    simp only [List.length_append, List.length_map] at hlengths
    rw [hledger.taken, List.length_append]
    omega

/-- Exactly the connections whose reactivations come when nothing waits dispatch every
event once and in order. -/
theorem events_survive (connection : ℕ) (channel : List ServerEvent) (creds : Option Credentials)
    (acts : List Action) (s : Session)
    (hrun : run Session.step (.start connection channel creds) acts = some s) :
    (∀ before u, before <+: acts →
      run Session.step (.start connection channel creds) before = some u → Survives u) ↔
      Meets Session.step NoneWaiting (.start connection channel creds) acts := by
  have hinv : ∀ (s : Session) (a : Action) (s' : Session), Accounted s → s.step a = some s' →
      Accounted s' := fun s a s' hs h => accounted_step hs h
  refine prefixes_iff_meets hinv ?_ ?_ (accounted_start connection channel creds) ?_ hrun
  · intro s a s' hs hgood hcond h
    have hs' := accounted_step hs h
    refine ⟨fun hlives => ⟨hs'.sends, ?_⟩, fun hlooping hgo => waiting_drains hlooping hgo⟩
    obtain ⟨hlived, hkept⟩ := (Session.step_phase h hs.waiting).2 hlives
    have hdropped : s.dropped a = [] := by
      by_cases hresize : a = .resize
      · rw [hresize]
        exact hcond hresize
      · exact hkept hresize
    have hledger := Session.step_ledger h
    have hhandled := hledger.handled
    rw [hdropped, List.append_nil] at hhandled
    rw [hledger.taken, (hgood.exactlyOnce hlived).2, hhandled]
  · rintro s a s' hs h hgood rfl
    obtain ⟨-, heq⟩ := Option.ite_none_right_eq_some.mp h
    cases heq
    have hlengths := congrArg List.length (hgood.exactlyOnce (by simp [Session.endLoop])).2
    simp only [Session.endLoop, Session.waiting, Option.toList_none, List.append_nil,
      List.length_map] at hlengths
    have htaken := hs.taken
    exact List.length_eq_zero_iff.mp (by omega)
  · exact ⟨fun _ => by simp [Session.start, Session.waiting],
      fun hlooping => by simp [Session.start] at hlooping⟩

/-- Events before and between two resizes are dispatched before the next one. -/
def resizesBetween : List Action :=
  [.send .clipboard 1, .send .egfx 1, .clientLoop, .recvMany, .dispatch .complete,
    .dispatch .writing, .written true, .resize, .send .rdpdr 1, .clientLoop, .recvMany,
    .send .getLocalAddr 1, .dispatch .writing, .written true, .resize, .clientLoop, .recvMany,
    .dispatch .complete]

theorem events_survive_between :
    ∃ s, run Session.step (.start 1 [] none) resizesBetween = some s ∧ s.phase = .looping ∧
      s.effects.map (fun x => x.2.seq) = [0, 1, 2, 3] ∧ Survives s := by
  have hrun : (run Session.step (.start 1 [] none) resizesBetween).any (fun s =>
      decide (s.phase = .looping ∧ s.effects.map (fun x => x.2.seq) = [0, 1, 2, 3])) = true := by
    decide +kernel
  obtain ⟨s, hs, hend⟩ := (Option.any_eq_true _ _).mp hrun
  have hmeets : meetsBool Session.step (fun s a => decide (NoneWaiting s a)) (.start 1 [] none)
      resizesBetween = true := by decide +kernel
  have hcond := meetsBool_iff.mp hmeets
  simp only [decide_eq_true_eq] at hcond
  obtain ⟨hlooping, hseq⟩ := of_decide_eq_true hend
  exact ⟨s, hs, hlooping, hseq,
    (events_survive 1 [] none resizesBetween s hs).mpr hcond _ s (List.prefix_refl _) hs⟩

/-- A resize drops a device request and a request for the local address with the batch. -/
theorem not_survives_resize :
    ¬∀ (connection : ℕ) (channel : List ServerEvent) (creds : Option Credentials)
      (acts : List Action) (s : Session),
      run Session.step (.start connection channel creds) acts = some s → Survives s := by
  intro h
  have hrun : (run Session.step (.start 1 [] none)
      [.clientLoop, .send .rdpdr 1, .send .getLocalAddr 1, .recvMany, .resize, .clientLoop]).any
      (fun s => decide (s.phase = .looping ∧ s.taken ≠ s.effects.map Prod.snd ++ s.waiting)) =
      true := by
    decide +kernel
  obtain ⟨s, hs, hlost⟩ := (Option.any_eq_true _ _).mp hrun
  obtain ⟨hlooping, htaken⟩ := of_decide_eq_true hlost
  exact htaken ((h _ _ _ _ s hs).exactlyOnce (by simp [hlooping])).2

end Macrdp.ServerEvents
