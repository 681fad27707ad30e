import Macrdp.StepSystem

/-!
# The events of the server

Backends send events on one channel that outlives every connection. The client loop of a
connection drains the channel in batches and dispatches a batch one event at a time; it
runs next to the other tasks of the connection, and ends when the first of them does.
-/

namespace Macrdp.ServerEvents

structure Credentials where
  username : String
  password : String
  domain : Option String
  deriving DecidableEq

/-- What is asked of the server. -/
inductive EventKind where
  | quit
  | evictedByOtherConnection
  | clipboard
  | clipboardFileCopy
  | rdpsnd
  | rdpdr
  | urbdrc
  | camera
  | echo
  | setCredentials (creds : Credentials)
  | getLocalAddr
  | egfx
  | autoDetectRttRequest
  deriving DecidableEq

/-- The events that are produced for one connection. -/
def EventKind.ofConnection : EventKind → Bool
  | .clipboard => true
  | .clipboardFileCopy => true
  | .rdpdr => true
  | .urbdrc => true
  | .camera => true
  | .echo => true
  | .egfx => true
  | _ => false

/-- The events that are for the server. -/
def EventKind.isControl : EventKind → Bool
  | .quit => true
  | .setCredentials _ => true
  | .getLocalAddr => true
  | _ => false

/-- An event on the channel. -/
structure ServerEvent where
  kind : EventKind
  /-- The connection it was produced for. -/
  producedFor : ℕ
  /-- How many events were sent before it. -/
  seq : ℕ
  deriving DecidableEq

/-- Where a connection is. -/
inductive Phase where
  /-- A sequence of the acceptor: the first, or a reactivation. -/
  | accepting
  | looping
  | ended
  deriving DecidableEq

/-- How far the dispatch of an event gets at once. -/
inductive Outcome where
  /-- There is nothing to write: its channel is not there, or it was answered. -/
  | complete
  | writing
  /-- An error, which ends the client loop. -/
  | failed
  deriving DecidableEq

/-- One connection, and what it shares with the others. -/
structure Session where
  connection : ℕ
  phase : Phase
  channel : List ServerEvent
  /-- What is left of the batch the client loop drained. -/
  events : List ServerEvent
  /-- The event whose dispatch is at a write. -/
  dispatching : Option ServerEvent
  creds : Option Credentials
  /-- The requests for the local address that were answered. -/
  answered : List ServerEvent
  /-- All that was sent. -/
  sends : List ServerEvent
  /-- What was taken from the channel to be handled. -/
  taken : List ServerEvent
  /-- What was handled, and on which connection; on none by the accept loop. -/
  effects : List (Option ℕ × ServerEvent)
  deriving DecidableEq

/-- A step of the connection, or of a producer of events. -/
inductive Action where
  | send (kind : EventKind) (producedFor : ℕ)
  /-- The client is accepted. -/
  | clientLoop
  | recvMany
  /-- The first event of the batch is dispatched, under the lock of the server. -/
  | dispatch (outcome : Outcome)
  /-- The writes of the dispatch are done, or one failed. -/
  | written (ok : Bool)
  /-- The display is resized: the client loop ends for a reactivation. -/
  | resize
  /-- The connection ends by another task, in the acceptor, or because it is cancelled. -/
  | finish
  deriving DecidableEq

/-- The most events a batch has. -/
def maxEventBatch : ℕ := 100

/-- The credentials once what was handled has taken effect. -/
def credsAfter (creds : Option Credentials) (handled : List ServerEvent) : Option Credentials :=
  handled.foldl (fun creds e => match e.kind with
    | .setCredentials new => some new
    | _ => creds) creds

namespace Session

/-- A connection starts; what is on the channel was sent before. -/
def start (connection : ℕ) (channel : List ServerEvent) (creds : Option Credentials) : Session where
  connection
  phase := .accepting
  channel
  events := []
  dispatching := none
  creds
  answered := []
  sends := channel
  taken := []
  effects := []

/-- Put an event on the channel. -/
def send (s : Session) (kind : EventKind) (producedFor : ℕ) : Session :=
  { s with
    channel := s.channel ++ [⟨kind, producedFor, s.sends.length⟩]
    sends := s.sends ++ [⟨kind, producedFor, s.sends.length⟩] }

/-- The client loop is over; its batch is dropped, and so is the event at a write. -/
def endLoop (s : Session) (phase : Phase) : Session :=
  { s with events := [], dispatching := none, phase }

/-- What an event changes in the server. -/
def takeEffect (s : Session) (on : Option ℕ) (e : ServerEvent) : Session :=
  let s := { s with effects := s.effects ++ [(on, e)] }
  match e.kind with
  | .getLocalAddr => { s with answered := s.answered ++ [e] }
  | .setCredentials creds => { s with creds := some creds }
  | _ => s

/-- An event was dispatched by the client loop. -/
def done (s : Session) (e : ServerEvent) : Session := s.takeEffect (some s.connection) e

/-- Dispatch one event. -/
def dispatchServerEvent (s : Session) (e : ServerEvent) (outcome : Outcome) : Session :=
  match e.kind with
  | .quit => (s.done e).endLoop .ended
  | .evictedByOtherConnection =>
    -- The reason is written if it can be, and the connection ends either way.
    if outcome = .writing then { s with dispatching := some e } else (s.done e).endLoop .ended
  | .getLocalAddr => s.done e
  | .setCredentials _ => s.done e
  | _ =>
    match outcome with
    | .complete => s.done e
    | .writing => { s with dispatching := some e }
    | .failed => (s.done e).endLoop .ended

/-- Drain a batch from the channel. -/
def recvMany (s : Session) : Session :=
  { s with
    events := s.channel.take maxEventBatch
    channel := s.channel.drop maxEventBatch
    taken := s.taken ++ s.channel.take maxEventBatch }

/-- The writes of a dispatch are done. -/
def written (s : Session) (e : ServerEvent) (ok : Bool) : Session :=
  if ok ∧ e.kind ≠ .evictedByOtherConnection then { s with dispatching := none }.done e
  else (s.done e).endLoop .ended

/-- One step of the connection. -/
def step (s : Session) : Action → Option Session
  | .send kind producedFor =>
    -- Only the run loop evicts.
    if kind = .evictedByOtherConnection then none else some (s.send kind producedFor)
  | .clientLoop => if s.phase = .accepting then some { s with phase := .looping } else none
  | .recvMany =>
    if s.phase = .looping ∧ s.events = [] ∧ s.dispatching = none ∧ s.channel ≠ [] then
      some s.recvMany
    else none
  | .dispatch outcome =>
    if s.phase = .looping ∧ s.dispatching = none then
      match s.events with
      | [] => none
      | e :: rest => some ({ s with events := rest }.dispatchServerEvent e outcome)
    else none
  | .written ok => s.dispatching.map fun e => s.written e ok
  | .resize => if s.phase = .looping then some (s.endLoop .accepting) else none
  | .finish => if s.phase = .ended then none else some (s.endLoop .ended)

/-- What the connection took and has yet to dispatch. -/
def waiting (s : Session) : List ServerEvent := s.dispatching.toList ++ s.events

/-- The dispatch of the event ends the client loop at once. -/
def endsBy (e : ServerEvent) (outcome : Outcome) : Bool :=
  match e.kind with
  | .quit => true
  | .evictedByOtherConnection => decide (outcome ≠ .writing)
  | .getLocalAddr => false
  | .setCredentials _ => false
  | _ => decide (outcome = .failed)

/-- What a step drops with the client loop it ends. -/
def dropped (s : Session) : Action → List ServerEvent
  | .dispatch outcome =>
    match s.events with
    | [] => []
    | e :: rest => if endsBy e outcome then rest else []
  | .written ok =>
    if ok ∧ s.dispatching.all fun e => decide (e.kind ≠ .evictedByOtherConnection) then []
    else s.events
  | .resize => s.waiting
  | .finish => s.waiting
  | _ => []

/-- What a step takes from the channel. -/
def received (s : Session) : Action → List ServerEvent
  | .recvMany => s.channel.take maxEventBatch
  | _ => []

/-- What a step puts on the channel. -/
def posted (s : Session) : Action → List ServerEvent
  | .send kind producedFor => [⟨kind, producedFor, s.sends.length⟩]
  | _ => []

section TakeEffect

variable (s : Session) (on : Option ℕ) (e : ServerEvent)

@[simp] theorem takeEffect_effects : (s.takeEffect on e).effects = s.effects ++ [(on, e)] := by
  rw [takeEffect]
  split <;> rfl

@[simp] theorem takeEffect_channel : (s.takeEffect on e).channel = s.channel := by
  rw [takeEffect]
  split <;> rfl

@[simp] theorem takeEffect_sends : (s.takeEffect on e).sends = s.sends := by
  rw [takeEffect]
  split <;> rfl

@[simp] theorem takeEffect_taken : (s.takeEffect on e).taken = s.taken := by
  rw [takeEffect]
  split <;> rfl

@[simp] theorem takeEffect_events : (s.takeEffect on e).events = s.events := by
  rw [takeEffect]
  split <;> rfl

@[simp] theorem takeEffect_dispatching : (s.takeEffect on e).dispatching = s.dispatching := by
  rw [takeEffect]
  split <;> rfl

@[simp] theorem takeEffect_phase : (s.takeEffect on e).phase = s.phase := by
  rw [takeEffect]
  split <;> rfl

theorem takeEffect_answered : (s.takeEffect on e).answered =
    s.answered ++ [e].filter (fun x => decide (x.kind = .getLocalAddr)) := by
  obtain ⟨kind, producedFor, seq⟩ := e
  cases kind <;> simp [takeEffect]

theorem takeEffect_creds : (s.takeEffect on e).creds = credsAfter s.creds [e] := by
  obtain ⟨kind, producedFor, seq⟩ := e
  cases kind <;> rfl

@[simp] theorem takeEffect_connection : (s.takeEffect on e).connection = s.connection := by
  rw [takeEffect]
  split <;> rfl

end TakeEffect

/-- A dispatch ends the client loop, is complete, or is at a write. -/
theorem dispatchServerEvent_cases (s : Session) (e : ServerEvent) (outcome : Outcome) :
    (endsBy e outcome = true ∧ s.dispatchServerEvent e outcome = (s.done e).endLoop .ended) ∨
      (endsBy e outcome = false ∧ s.dispatchServerEvent e outcome = s.done e) ∨
      (endsBy e outcome = false ∧ e.kind.isControl = false ∧
        s.dispatchServerEvent e outcome = { s with dispatching := some e }) := by
  obtain ⟨kind, producedFor, seq⟩ := e
  cases kind <;> cases outcome <;> simp [dispatchServerEvent, endsBy, EventKind.isControl]

/-- The steps there are. -/
inductive StepCase (s : Session) : Action → Session → Prop
  | send (kind : EventKind) (producedFor : ℕ) (hkind : kind ≠ .evictedByOtherConnection) :
    StepCase s (.send kind producedFor) (s.send kind producedFor)
  | clientLoop (haccepting : s.phase = .accepting) :
    StepCase s .clientLoop { s with phase := .looping }
  | recvMany (hlooping : s.phase = .looping) (hwaiting : s.waiting = []) :
    StepCase s .recvMany s.recvMany
  /-- The dispatch is complete, and the client loop goes on. -/
  | dispatched (outcome : Outcome) (e : ServerEvent) (rest : List ServerEvent)
    (hlooping : s.phase = .looping) (hwaiting : s.waiting = e :: rest)
    (hdropped : s.dropped (.dispatch outcome) = []) :
    StepCase s (.dispatch outcome) ({ s with events := rest, dispatching := none }.done e)
  /-- The dispatch ends the client loop. -/
  | dispatchEnds (outcome : Outcome) (e : ServerEvent) (rest : List ServerEvent)
    (hwaiting : s.waiting = e :: rest) (hdropped : s.dropped (.dispatch outcome) = rest) :
    StepCase s (.dispatch outcome) ((s.done e).endLoop .ended)
  /-- The dispatch is at a write. -/
  | dispatching (outcome : Outcome) (e : ServerEvent) (rest : List ServerEvent)
    (hlooping : s.phase = .looping) (hwaiting : s.waiting = e :: rest)
    (hdropped : s.dropped (.dispatch outcome) = []) :
    StepCase s (.dispatch outcome) { s with events := rest, dispatching := some e }
  | written (e : ServerEvent) (rest : List ServerEvent) (hwaiting : s.waiting = e :: rest)
    (hdropped : s.dropped (.written true) = []) :
    StepCase s (.written true) ({ s with events := rest, dispatching := none }.done e)
  /-- A write has failed, or the client was told that it is evicted. -/
  | writtenEnds (ok : Bool) (e : ServerEvent) (rest : List ServerEvent)
    (hwaiting : s.waiting = e :: rest) (hdropped : s.dropped (.written ok) = rest) :
    StepCase s (.written ok) ((s.done e).endLoop .ended)
  | resize (hlooping : s.phase = .looping) : StepCase s .resize (s.endLoop .accepting)
  | finish (halive : s.phase ≠ .ended) : StepCase s .finish (s.endLoop .ended)

variable {s s' : Session} {a : Action}

/-- Every step is one of these. -/
theorem step_cases (h : s.step a = some s') : StepCase s a s' := by
  cases a with
  | send kind producedFor =>
    obtain ⟨hkind, heq⟩ := Option.ite_none_left_eq_some.mp h
    cases heq
    exact .send kind producedFor hkind
  | clientLoop =>
    obtain ⟨haccepting, heq⟩ := Option.ite_none_right_eq_some.mp h
    cases heq
    exact .clientLoop haccepting
  | recvMany =>
    obtain ⟨⟨hlooping, hevents, hdispatching, -⟩, heq⟩ := Option.ite_none_right_eq_some.mp h
    cases heq
    exact .recvMany hlooping (by simp [waiting, hevents, hdispatching])
  | dispatch outcome =>
    obtain ⟨⟨hlooping, hdispatching⟩, hevent⟩ := Option.ite_none_right_eq_some.mp h
    cases hevents : s.events with
    | nil => simp [hevents] at hevent
    | cons e rest =>
      simp only [hevents, Option.some.injEq] at hevent
      subst hevent
      have hwaiting : s.waiting = e :: rest := by simp [waiting, hevents, hdispatching]
      have hrest : { s with events := rest } = { s with events := rest, dispatching := none } := by
        rw [hdispatching]
      rcases dispatchServerEvent_cases { s with events := rest } e outcome with
        ⟨hends, heq⟩ | ⟨hends, heq⟩ | ⟨hends, -, heq⟩
      · have hsame : ({ s with events := rest }.done e).endLoop .ended =
            (s.done e).endLoop .ended := by
          simp only [done, takeEffect, endLoop]
          split <;> rfl
        rw [heq, hsame]
        exact .dispatchEnds outcome e rest hwaiting (by simp [dropped, hevents, hends])
      · rw [heq, hrest]
        exact .dispatched outcome e rest hlooping hwaiting (by simp [dropped, hevents, hends])
      · rw [heq]
        exact .dispatching outcome e rest hlooping hwaiting (by simp [dropped, hevents, hends])
  | written ok =>
    obtain ⟨e, hdispatching, rfl⟩ := Option.map_eq_some_iff.mp h
    have hwaiting : s.waiting = e :: s.events := by simp [waiting, hdispatching]
    rw [written]
    split
    · rename_i hok
      obtain ⟨rfl, hkind⟩ := hok
      exact .written e s.events hwaiting (by simp [dropped, hdispatching, hkind])
    · rename_i hok
      refine .writtenEnds ok e s.events hwaiting ?_
      rw [dropped, if_neg]
      simpa [hdispatching] using hok
  | resize =>
    obtain ⟨hlooping, heq⟩ := Option.ite_none_right_eq_some.mp h
    cases heq
    exact .resize hlooping
  | finish =>
    obtain ⟨halive, heq⟩ := Option.ite_none_left_eq_some.mp h
    cases heq
    exact .finish halive

/-- What was sent is on the channel or taken, and what was taken is handled, waits, or is
dropped. -/
structure Ledger (s s' : Session) (a : Action) : Prop where
  connection : s'.connection = s.connection
  sends : s'.sends = s.sends ++ s.posted a
  channel : s.channel ++ s.posted a = s.received a ++ s'.channel
  taken : s'.taken = s.taken ++ s.received a
  handled : s'.effects.map Prod.snd ++ s'.waiting ++ s.dropped a =
    s.effects.map Prod.snd ++ s.waiting ++ s.received a

/-- A step that leaves the channel alone. -/
theorem Ledger.of_same (hposted : s.posted a = [])
    (hreceived : s.received a = []) (hconnection : s'.connection = s.connection)
    (hsends : s'.sends = s.sends) (hchannel : s'.channel = s.channel) (htaken : s'.taken = s.taken)
    (hhandled : s'.effects.map Prod.snd ++ s'.waiting ++ s.dropped a =
      s.effects.map Prod.snd ++ s.waiting) : Ledger s s' a where
  connection := hconnection
  sends := by simp [hsends, hposted]
  channel := by simp [hchannel, hposted, hreceived]
  taken := by simp [htaken, hreceived]
  handled := by simp [hhandled, hreceived]

/-- Every step keeps the ledger. -/
theorem step_ledger (h : s.step a = some s') : Ledger s s' a := by
  cases step_cases h with
  | send kind producedFor hkind =>
    refine ⟨rfl, rfl, rfl, ?_, ?_⟩
    · simp [received, send]
    · simp [received, dropped, send, waiting]
  | clientLoop haccepting =>
    exact .of_same rfl rfl rfl rfl rfl rfl (by simp [dropped, waiting])
  | recvMany hlooping hwaiting =>
    refine ⟨rfl, ?_, ?_, rfl, ?_⟩
    · simp [posted, recvMany]
    · simp [posted, received, recvMany]
    · obtain ⟨hdispatching, hevents⟩ := List.append_eq_nil_iff.mp hwaiting
      simp [received, dropped, waiting, recvMany, hevents, Option.toList_eq_nil_iff.mp hdispatching]
  | dispatched outcome e rest hlooping hwaiting hdropped | written e rest hwaiting hdropped =>
    refine .of_same rfl rfl (by simp [done]) (by simp [done]) (by simp [done]) (by simp [done]) ?_
    rw [hwaiting, hdropped]
    simp [done, waiting]
  | dispatchEnds outcome e rest hwaiting hdropped | writtenEnds ok e rest hwaiting hdropped =>
    refine .of_same rfl rfl ?_ ?_ ?_ ?_ ?_
    · simp [done, endLoop]
    · simp [done, endLoop]
    · simp [done, endLoop]
    · simp [done, endLoop]
    · rw [hwaiting, hdropped]
      simp [done, endLoop, waiting]
  | dispatching outcome e rest hlooping hwaiting hdropped =>
    refine .of_same rfl rfl rfl rfl rfl rfl ?_
    rw [hwaiting, hdropped]
    simp [waiting]
  | resize hlooping | finish halive
    => exact .of_same rfl rfl rfl rfl rfl rfl (by simp [dropped, endLoop, waiting])

/-- A client loop that goes on drops nothing, and what waits is in a client loop. -/
theorem step_phase (h : s.step a = some s') (hwaiting : s.phase ≠ .looping → s.waiting = []) :
    (s'.phase ≠ .looping → s'.waiting = []) ∧
      (s'.phase ≠ .ended → s.phase ≠ .ended ∧ (a ≠ .resize → s.dropped a = [])) := by
  cases step_cases h with
  | send kind producedFor hkind => exact ⟨hwaiting, fun hlives => ⟨hlives, fun _ => rfl⟩⟩
  | clientLoop haccepting => exact ⟨by simp, fun _ => ⟨by simp [haccepting], fun _ => rfl⟩⟩
  | recvMany hlooping hnone =>
    exact ⟨fun hnot => absurd hlooping hnot, fun hlives => ⟨hlives, fun _ => rfl⟩⟩
  | dispatched outcome e rest hlooping hmem hdropped => simp [done, hlooping, hdropped]
  | dispatchEnds outcome e rest hmem hdropped => simp [endLoop, waiting]
  | dispatching outcome e rest hlooping hmem hdropped => simp [hlooping, hdropped]
  | written e rest hmem hdropped =>
    have hlooping : s.phase = .looping := by
      by_contra hnot
      simpa [hmem] using hwaiting hnot
    simp [done, hlooping, hdropped]
  | writtenEnds ok e rest hmem hdropped => simp [endLoop, waiting]
  | resize hlooping => simp [endLoop, waiting, hlooping]
  | finish halive => simp [endLoop, waiting]

/-- What a step handles waited, and it takes effect. -/
theorem step_effects (h : s.step a = some s') :
    ∃ handled : List ServerEvent, (∀ e ∈ handled, e ∈ s.waiting) ∧
      s'.effects = s.effects ++ handled.map (fun e => (some s.connection, e)) ∧
      s'.answered = s.answered ++ handled.filter (fun e => decide (e.kind = .getLocalAddr)) ∧
      s'.creds = credsAfter s.creds handled := by
  have hdone : ∀ (t : Session) (e : ServerEvent) (rest : List ServerEvent),
      s.waiting = e :: rest → t.effects = s.effects →
      t.connection = s.connection → t.answered = s.answered → t.creds = s.creds →
      ∃ handled : List ServerEvent, (∀ x ∈ handled, x ∈ s.waiting) ∧
        (t.done e).effects = s.effects ++ handled.map (fun x => (some s.connection, x)) ∧
        (t.done e).answered =
          s.answered ++ handled.filter (fun x => decide (x.kind = .getLocalAddr)) ∧
        (t.done e).creds = credsAfter s.creds handled := by
    intro t e rest hwaiting heffects hconnection hanswered hcreds
    refine ⟨[e], by simp [hwaiting], ?_, ?_, ?_⟩
    · simp [done, heffects, hconnection]
    · rw [done, takeEffect_answered, hanswered]
    · rw [done, takeEffect_creds, hcreds]
  have hsame : ∀ t : Session, t.effects = s.effects → t.answered = s.answered →
      t.creds = s.creds →
      ∃ handled : List ServerEvent, (∀ x ∈ handled, x ∈ s.waiting) ∧
        t.effects = s.effects ++ handled.map (fun x => (some s.connection, x)) ∧
        t.answered = s.answered ++ handled.filter (fun x => decide (x.kind = .getLocalAddr)) ∧
        t.creds = credsAfter s.creds handled := by
    intro t heffects hanswered hcreds
    exact ⟨[], by simp, by simp [heffects], by simp [hanswered], by simp [hcreds, credsAfter]⟩
  cases step_cases h with
  | send kind producedFor hkind | clientLoop haccepting => exact hsame _ rfl rfl rfl
  | recvMany hlooping hwaiting => exact hsame _ rfl rfl rfl
  | dispatched outcome e rest hlooping hwaiting hdropped =>
    exact hdone _ e rest hwaiting rfl rfl rfl rfl
  | dispatchEnds outcome e rest hwaiting hdropped | writtenEnds ok e rest hwaiting hdropped
    => exact hdone s e rest hwaiting rfl rfl rfl rfl
  | dispatching outcome e rest hlooping hwaiting hdropped => exact hsame _ rfl rfl rfl
  | written e rest hwaiting hdropped => exact hdone _ e rest hwaiting rfl rfl rfl rfl
  | resize hlooping | finish halive => exact hsame _ rfl rfl rfl

end Session

end Macrdp.ServerEvents
