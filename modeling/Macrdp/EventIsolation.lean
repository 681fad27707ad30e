import Macrdp.EventReaders

/-!
# When events stay with their connections

What is on the channel while a connection is served was produced for it, if nothing stale
was there when it started; and the filter, whose two passes are not one step, leaves the
order alone if no producer sends between them.
-/

namespace Macrdp.ServerEvents

open StepSystem

variable {creds : Option Credentials} {s s' : Server}

namespace Server

theorem queued_of_ne (h : s.stage ≠ .resending) : s.queued = s.keep ++ s.session.channel := by
  rw [queued]
  split
  · exact absurd ‹_› h
  · rfl

theorem queued_of_eq (h : s.stage = .resending) : s.queued = s.session.channel ++ s.keep := by
  rw [queued, h]

/-- Everything that was sent and is not lost, in the order it was handled or will be. -/
def ledger (s : Server) : List ServerEvent :=
  s.session.effects.map Prod.snd ++ s.session.waiting ++ s.queued

end Server

/-- The event is for one connection, to work for it or to end it. -/
def ServerEvent.IsPersonal (e : ServerEvent) : Prop :=
  e.kind.ofConnection = true ∨ e.kind = .evictedByOtherConnection

/-- What holds between any two steps of the server. -/
structure Orderly (creds : Option Credentials) (s : Server) : Prop where
  own : ∀ n e, (some n, e) ∈ s.session.effects → e.IsPersonal → e.producedFor = n
  waiting : ∀ e ∈ s.session.waiting, e.IsPersonal → e.producedFor = s.session.connection
  served : s.stage = .serving → ∀ e ∈ s.queued, e.kind.ofConnection = true →
    e.producedFor = s.session.connection
  evictions : ∀ e ∈ s.queued, e.kind = .evictedByOtherConnection →
    s.stage = .collecting ∨ s.stage = .stopped ∨
      (s.stage = .serving ∧ s.pending = true ∧ e.producedFor = s.session.connection)
  kept : ∀ e ∈ s.keep, e.kind ≠ .evictedByOtherConnection
  keepEmpty : s.stage ≠ .collecting → s.stage ≠ .resending → s.keep = []
  loop : s.session.phase ≠ .looping → s.session.waiting = []
  idle : s.stage ≠ .serving → s.session.phase = .ended
  controls : (s.session.taken.filter fun e => e.kind.isControl) =
    ((s.session.effects.map Prod.snd ++ s.session.waiting).filter fun e => e.kind.isControl)
  answered : s.session.answered =
    (s.session.effects.map Prod.snd).filter fun e => decide (e.kind = .getLocalAddr)
  creds : s.session.creds = credsAfter creds (s.session.effects.map Prod.snd)
  order : s.session.sends.filter ServerEvent.isOther =
    s.session.taken.filter ServerEvent.isOther ++ s.queued.filter ServerEvent.isOther
  distinct : s.ledger.Nodup
  fresh : ∀ e ∈ s.ledger, e.seq < s.session.sends.length

theorem orderly_init (creds : Option Credentials) : Orderly creds (.init creds) := by
  constructor <;> simp [Server.init, Session.start, Session.waiting, Server.queued, Server.ledger,
    credsAfter]

/-- Orderly states are what events are isolated in. -/
theorem Orderly.isolated (h : Orderly creds s) : Isolated creds s where
  __ := h
  dispatching := by
    intro e he
    exact h.waiting e (by simp [Session.waiting, Option.mem_toList.mpr he])
  once := by
    have hdistinct := h.distinct
    rw [Server.ledger, List.append_assoc] at hdistinct
    exact (List.nodup_append.mp hdistinct).1

/-- The run loop moves on between connections, or moves events on the way to the next. -/
theorem Orderly.move (h : Orderly creds s) (hended : s.session.phase = .ended)
    (hstage : s'.stage ≠ .serving)
    (hsession : s'.session = { s.session with channel := s'.session.channel })
    (hqueued : s'.queued.Sublist s.queued)
    (hother : s'.queued.filter ServerEvent.isOther = s.queued.filter ServerEvent.isOther)
    (hevictions : ∀ e ∈ s'.queued, e.kind = .evictedByOtherConnection →
      s'.stage = .collecting ∨ s'.stage = .stopped)
    (hkept : ∀ e ∈ s'.keep, e.kind ≠ .evictedByOtherConnection)
    (hkeepEmpty : s'.stage ≠ .collecting → s'.stage ≠ .resending → s'.keep = []) :
    Orderly creds s' := by
  have hledger : s'.ledger.Sublist s.ledger := by
    rw [Server.ledger, hsession]
    exact (List.Sublist.refl _).append hqueued
  refine ⟨?_, ?_, fun hserving => absurd hserving hstage, ?_, hkept, hkeepEmpty, ?_, ?_, ?_, ?_, ?_,
    ?_, h.distinct.sublist hledger, fun e he => ?_⟩
  · rw [hsession]
    exact h.own
  · rw [hsession]
    exact h.waiting
  · exact fun e he hkind => (hevictions e he hkind).imp_right .inl
  · rw [hsession]
    exact h.loop
  · rw [hsession]
    exact fun _ => hended
  · rw [hsession]
    exact h.controls
  · rw [hsession]
    exact h.answered
  · rw [hsession]
    exact h.creds
  · rw [hother, hsession]
    exact h.order
  · rw [hsession]
    exact h.fresh e (hledger.subset he)

/-- A connection is served when nothing on the channel is another's. -/
theorem serve_orderly (h : Orderly creds s) (haccepting : s.stage = .accepting)
    (hstale : s.NothingStale) : Orderly creds s.serve := by
  have hkeep : s.keep = [] := h.keepEmpty (by simp [haccepting]) (by simp [haccepting])
  have hended : s.session.phase = .ended := h.idle (by simp [haccepting])
  have hwaiting : s.session.waiting = [] := h.loop (by simp [hended])
  have hnone : s.serve.session.waiting = [] := by simp [Server.serve, Session.waiting]
  have hqueued : s.serve.queued = s.queued := by
    have hne : s.stage ≠ .resending := by simp [haccepting]
    have hne' : s.serve.stage ≠ .resending := by simp [Server.serve]
    rw [Server.queued_of_ne hne, Server.queued_of_ne hne']
    rfl
  have hledger : s.serve.ledger = s.ledger := by
    rw [Server.ledger, Server.ledger, hqueued, hnone, hwaiting]
    rfl
  refine ⟨h.own, by simp [hnone], ?_, ?_, h.kept, fun _ _ => hkeep, fun _ => hnone, ?_, ?_,
    h.answered, h.creds, ?_, ?_, ?_⟩
  · rw [hqueued]
    exact fun _ => hstale
  · rw [hqueued]
    intro e he hkind
    rcases h.evictions e he hkind with hstage | hstage | ⟨hstage, -⟩ <;>
      simp [haccepting] at hstage
  · simp [Server.serve]
  · have hcontrols := h.controls
    rw [hwaiting] at hcontrols
    rw [hnone]
    exact hcontrols
  · rw [hqueued]
    exact h.order
  · rw [hledger]
    exact h.distinct
  · rw [hledger]
    exact h.fresh

/-- What is sent next is new. -/
theorem Orderly.append (h : Orderly creds s) (kind : EventKind) (producedFor : ℕ) :
    (s.ledger ++ [(⟨kind, producedFor, s.session.sends.length⟩ : ServerEvent)]).Nodup ∧
      ∀ e ∈ s.ledger ++ [(⟨kind, producedFor, s.session.sends.length⟩ : ServerEvent)],
        e.seq < s.session.sends.length + 1 := by
  constructor
  · refine List.nodup_append.mpr ⟨h.distinct, by simp, ?_⟩
    rintro x hx y hy rfl
    have hseq := h.fresh x hx
    rw [List.mem_singleton.mp hy] at hseq
    exact absurd hseq (Nat.lt_irrefl _)
  · intro e he
    rcases List.mem_append.mp he with he | he
    · exact Nat.lt_succ_of_lt (h.fresh e he)
    · rw [List.mem_singleton.mp he]
      exact Nat.lt_succ_self _

/-- An event is sent: for the connection that is served, and an eviction only to it. -/
theorem Orderly.send {kind : EventKind} {producedFor : ℕ} {pending : Bool} (h : Orderly creds s)
    (hresending : s.stage ≠ .resending)
    (hserved : s.stage = .serving → kind.ofConnection = true → producedFor = s.session.connection)
    (hevicts : kind = .evictedByOtherConnection →
      s.stage = .serving ∧ pending = true ∧ producedFor = s.session.connection)
    (hpending : s.pending = true → pending = true) :
    Orderly creds { s with session := s.session.send kind producedFor, pending } := by
  have hqueued : Server.queued { s with session := s.session.send kind producedFor, pending } =
      s.queued ++ [⟨kind, producedFor, s.session.sends.length⟩] := by
    rw [Server.queued_of_ne hresending, List.append_assoc]
    exact Server.queued_of_ne hresending
  have hledger : Server.ledger { s with session := s.session.send kind producedFor, pending } =
      s.ledger ++ [⟨kind, producedFor, s.session.sends.length⟩] := by
    rw [Server.ledger, Server.ledger, hqueued, ← List.append_assoc]
    rfl
  have hlength : (s.session.send kind producedFor).sends.length = s.session.sends.length + 1 := by
    simp [Session.send]
  obtain ⟨hdistinct, hfresh⟩ := h.append kind producedFor
  refine ⟨h.own, h.waiting, ?_, ?_, h.kept, h.keepEmpty, h.loop, h.idle, h.controls, h.answered,
    h.creds, ?_, ?_, ?_⟩
  · rw [hqueued]
    intro hserving e he hconn
    rcases List.mem_append.mp he with he | he
    · exact h.served hserving e he hconn
    · cases List.mem_singleton.mp he
      exact hserved hserving hconn
  · rw [hqueued]
    intro e he hevicted
    rcases List.mem_append.mp he with he | he
    · rcases h.evictions e he hevicted with hstage | hstage | ⟨hserving, hwon, hown⟩
      · exact .inl hstage
      · exact .inr (.inl hstage)
      · exact .inr (.inr ⟨hserving, hpending hwon, hown⟩)
    · cases List.mem_singleton.mp he
      exact .inr (.inr (hevicts hevicted))
  · rw [hqueued]
    simp only [Session.send, List.filter_append, h.order, List.append_assoc]
  · rw [hledger]
    exact hdistinct
  · rw [hledger, hlength]
    exact hfresh

/-- A producer sends while no connection is served. -/
theorem send_orderly {kind : EventKind} {producedFor : ℕ} (h : Orderly creds s)
    (hserving : s.stage ≠ .serving) (hresending : s.stage ≠ .resending)
    (hkind : kind ≠ .evictedByOtherConnection) :
    Orderly creds { s with session := s.session.send kind producedFor } :=
  h.send hresending (fun hstage => absurd hstage hserving) (fun hevicts => absurd hevicts hkind) id

/-- A candidate wins: the connection is told, and nobody else. -/
theorem evict_orderly (h : Orderly creds s) (hserving : s.stage = .serving) :
    Orderly creds { s with
      session := s.session.send .evictedByOtherConnection s.session.connection
      pending := true } :=
  h.send (by simp [hserving]) (fun _ _ => rfl) (fun _ => ⟨hserving, rfl, rfl⟩) fun _ => rfl

/-- The accept loop has an effect on events for the server, and drops the others. -/
theorem handleEvent_cases (s : Server) (e : ServerEvent) :
    (∃ stage, (stage = s.stage ∨ stage = .stopped) ∧
      s.handleEvent e = { s with session := s.session.takeEffect none e, stage }) ∨
      (e.kind.isControl = false ∧ s.handleEvent e = s) := by
  obtain ⟨kind, producedFor, seq⟩ := e
  cases kind with
  | quit => exact .inl ⟨.stopped, .inr rfl, rfl⟩
  | getLocalAddr | setCredentials creds => exact .inl ⟨s.stage, .inl rfl, rfl⟩
  | evictedByOtherConnection | clipboard | clipboardFileCopy | rdpsnd | rdpdr | urbdrc | camera
    | echo | egfx | autoDetectRttRequest => exact .inr ⟨rfl, rfl⟩

/-- The accept loop takes an event. -/
theorem acceptEvent_orderly {e : ServerEvent} {rest : List ServerEvent} (h : Orderly creds s)
    (haccepting : s.stage = .accepting) (hchannel : s.session.channel = e :: rest) :
    Orderly creds ((s.take e rest).handleEvent e) := by
  have hkeep : s.keep = [] := h.keepEmpty (by simp [haccepting]) (by simp [haccepting])
  have hended : s.session.phase = .ended := h.idle (by simp [haccepting])
  have hwaiting : s.session.waiting = [] := h.loop (by simp [hended])
  have hne : s.stage ≠ .resending := by simp [haccepting]
  have hqueued : s.queued = e :: rest := by
    rw [Server.queued_of_ne hne, hkeep, hchannel]
    rfl
  have hevictions : ∀ x ∈ rest, x.kind ≠ .evictedByOtherConnection := by
    intro x hx hevicted
    have hmem : x ∈ s.queued := by
      rw [hqueued]
      exact List.mem_cons_of_mem e hx
    rcases h.evictions x hmem hevicted with hstage | hstage | ⟨hstage, -⟩ <;>
      simp [haccepting] at hstage
  have hcontrols := h.controls
  have horder := h.order
  have hdistinct := h.distinct
  have hfresh := h.fresh
  rw [hwaiting, List.append_nil] at hcontrols
  rw [hqueued, ← List.singleton_append, List.filter_append] at horder
  rw [Server.ledger, hwaiting, hqueued, List.append_nil] at hdistinct hfresh
  rcases handleEvent_cases (s.take e rest) e with ⟨stage, hstage, heq⟩ | ⟨hother, heq⟩
  · rw [heq]
    have hserving : stage ≠ .serving := by
      rcases hstage with rfl | rfl <;> simp [Server.take, haccepting]
    have hresending : stage ≠ .resending := by
      rcases hstage with rfl | rfl <;> simp [Server.take, haccepting]
    have hqueued' : Server.queued { s.take e rest with
        session := (s.take e rest).session.takeEffect none e, stage } = rest := by
      rw [Server.queued_of_ne hresending]
      simp [Server.take, hkeep]
    have hwaiting' : ((s.take e rest).session.takeEffect none e).waiting = [] := by
      simpa [Session.waiting, Server.take] using hwaiting
    refine ⟨?_, by simp [hwaiting'], fun hs => absurd hs hserving, ?_, h.kept, fun _ _ => hkeep,
      fun _ => hwaiting', fun _ => by simpa [Server.take] using hended, ?_, ?_, ?_, ?_, ?_, ?_⟩
    · intro n x hx
      simp only [Session.takeEffect_effects, Server.take, List.mem_append, List.mem_singleton,
        Prod.mk.injEq, reduceCtorEq, false_and, or_false] at hx
      exact h.own n x hx
    · rw [hqueued']
      exact fun x hx hevicted => absurd hevicted (hevictions x hx)
    · rw [hwaiting']
      simp [Server.take, hcontrols]
    · simp [Session.takeEffect_answered, Server.take, h.answered]
    · simp [Session.takeEffect_creds, Server.take, h.creds, credsAfter]
    · rw [hqueued']
      simpa [Server.take] using horder
    · rw [Server.ledger, hqueued', hwaiting']
      simpa [Server.take] using hdistinct
    · rw [Server.ledger, hqueued', hwaiting']
      simpa [Server.take] using hfresh
  · rw [heq]
    have hqueued' : (s.take e rest).queued = rest := by
      have hall : (s.take e rest).queued = s.keep ++ rest := Server.queued_of_ne hne
      rw [hall, hkeep]
      rfl
    have hledger : (s.take e rest).ledger = s.session.effects.map Prod.snd ++ rest := by
      have hnone : (s.take e rest).session.waiting = [] := hwaiting
      rw [Server.ledger, hqueued', hnone, List.append_nil]
      rfl
    have hsub : (s.session.effects.map Prod.snd ++ rest).Sublist
        (s.session.effects.map Prod.snd ++ e :: rest) :=
      (List.Sublist.refl _).append (List.sublist_cons_self e rest)
    refine ⟨h.own, h.waiting, fun hs => absurd (haccepting.symm.trans hs) (by simp), ?_, h.kept,
      fun _ _ => hkeep, h.loop, h.idle, ?_, h.answered, h.creds, ?_, ?_, ?_⟩
    · rw [hqueued']
      exact fun x hx hevicted => absurd hevicted (hevictions x hx)
    · have hwaiting' : (s.take e rest).session.waiting = [] := hwaiting
      rw [hwaiting']
      simp [Server.take, hcontrols, hother]
    · rw [hqueued']
      simpa [Server.take] using horder
    · rw [hledger]
      exact hdistinct.sublist hsub
    · rw [hledger]
      exact fun x hx => hfresh x (hsub.subset hx)

/-- What a connection sends is no eviction. -/
theorem posted_other {t t' : Session} {a : Action} (h : t.step a = some t') :
    ∀ e ∈ t.posted a, e.kind ≠ .evictedByOtherConnection := by
  cases a with
  | send kind producedFor =>
    obtain ⟨hkind, -⟩ := Option.ite_none_left_eq_some.mp h
    simpa [Session.posted] using hkind
  | clientLoop | recvMany | dispatch outcome | written ok | resize | finish =>
    simp [Session.posted]

/-- What a step sends is one event at most, and it is new. -/
theorem posted_seq {t : Session} {a : Action} :
    t.posted a = [] ∨ ∃ kind producedFor, t.posted a = [⟨kind, producedFor, t.sends.length⟩] := by
  cases a with
  | send kind producedFor => exact .inr ⟨kind, producedFor, rfl⟩
  | clientLoop | recvMany | dispatch outcome | written ok | resize | finish => exact .inl rfl

/-- A step of the connection that is served. -/
theorem session_orderly {a : Action} {t : Session} (h : Orderly creds s)
    (hserving : s.stage = .serving) (hstep : s.session.step a = some t)
    (hcond : InOrder s (.session a)) : Orderly creds { s with session := t } := by
  obtain ⟨hdropped, hposted⟩ := hcond
  have hkeep : s.keep = [] := h.keepEmpty (by simp [hserving]) (by simp [hserving])
  have hne : s.stage ≠ .resending := by simp [hserving]
  have hqueued : s.queued = s.session.channel := by
    rw [Server.queued_of_ne hne, hkeep]
    rfl
  have hqueued' : Server.queued { s with session := t } = t.channel := by
    have hall : Server.queued { s with session := t } = s.keep ++ t.channel :=
      Server.queued_of_ne hne
    rw [hall, hkeep]
    rfl
  have hledger := Session.step_ledger hstep
  obtain ⟨handled, hhandled, heffects, hanswered, hcreds⟩ := Session.step_effects hstep
  have hmap : t.effects.map Prod.snd = s.session.effects.map Prod.snd ++ handled := by
    rw [heffects, List.map_append, List.map_map]
    exact congrArg _ (List.map_id handled)
  have hsplit : handled ++ t.waiting ++ s.session.dropped a =
      s.session.waiting ++ s.session.received a := by
    have hall := hledger.handled
    rw [hmap] at hall
    simpa only [List.append_assoc, List.append_cancel_left_eq] using hall
  have hcame : ∀ e ∈ s.session.channel ++ s.session.posted a,
      (e.kind.ofConnection = true → e.producedFor = s.session.connection) ∧
        (e.kind = .evictedByOtherConnection →
          s.pending = true ∧ e.producedFor = s.session.connection) := by
    intro e he
    rcases List.mem_append.mp he with he | he
    · rw [← hqueued] at he
      refine ⟨h.served hserving e he, fun hevicted => ?_⟩
      rcases h.evictions e he hevicted with hstage | hstage | ⟨-, hwon, hown⟩
      · simp [hserving] at hstage
      · simp [hserving] at hstage
      · exact ⟨hwon, hown⟩
    · exact ⟨hposted e he, fun hevicted => absurd hevicted (posted_other hstep e he)⟩
  have hsub : (Server.ledger { s with session := t }).Sublist
      (s.ledger ++ s.session.posted a) := by
    have hall : s.ledger ++ s.session.posted a =
        t.effects.map Prod.snd ++ t.waiting ++ s.session.dropped a ++ t.channel := by
      rw [hledger.handled, List.append_assoc _ _ t.channel, ← hledger.channel, Server.ledger,
        hqueued, List.append_assoc _ s.session.channel]
    rw [hall, Server.ledger, hqueued']
    exact (List.sublist_append_left _ _).append (List.Sublist.refl _)
  have hnew : (s.ledger ++ s.session.posted a).Nodup ∧
      ∀ e ∈ s.ledger ++ s.session.posted a,
        e.seq < s.session.sends.length + (s.session.posted a).length := by
    rcases posted_seq (t := s.session) (a := a) with hnone | ⟨kind, producedFor, hone⟩
    · rw [hnone, List.append_nil]
      exact ⟨h.distinct, h.fresh⟩
    · rw [hone]
      exact h.append kind producedFor
  refine ⟨?_, ?_, ?_, ?_, h.kept, fun _ _ => hkeep, (Session.step_phase hstep h.loop).1,
    fun hstage => absurd hserving hstage, ?_, ?_, ?_, ?_, hnew.1.sublist hsub, ?_⟩
  · intro n e he
    simp only [heffects, List.mem_append, List.mem_map, Prod.mk.injEq, Option.some.injEq] at he
    rcases he with he | ⟨x, hx, rfl, rfl⟩
    · exact h.own n e he
    · exact h.waiting x (hhandled x hx)
  · intro e he hpersonal
    simp only [hledger.connection]
    have hmem : e ∈ s.session.waiting ++ s.session.received a := by
      rw [← hsplit]
      exact List.mem_append_left _ (List.mem_append_right _ he)
    rcases List.mem_append.mp hmem with hmem | hmem
    · exact h.waiting e hmem hpersonal
    · have hin : e ∈ s.session.channel ++ s.session.posted a := by
        rw [hledger.channel]
        exact List.mem_append_left _ hmem
      rcases hpersonal with hconn | hevicted
      · exact (hcame e hin).1 hconn
      · exact ((hcame e hin).2 hevicted).2
  · intro _ e he hconn
    rw [hqueued'] at he
    simp only [hledger.connection]
    refine (hcame e ?_).1 hconn
    rw [hledger.channel]
    exact List.mem_append_right _ he
  · intro e he hevicted
    rw [hqueued'] at he
    simp only [hledger.connection]
    refine .inr (.inr ⟨hserving, (hcame e ?_).2 hevicted⟩)
    rw [hledger.channel]
    exact List.mem_append_right _ he
  · have hfilter : (s.session.dropped a).filter (fun e => e.kind.isControl) = [] :=
      List.filter_eq_nil_iff.mpr fun e he => by simp [hdropped e he]
    have hall := congrArg (List.filter fun e : ServerEvent => e.kind.isControl) hledger.handled
    rw [List.filter_append, hfilter, List.append_nil, List.filter_append (_ ++ _) _, ← h.controls,
      ← List.filter_append, ← hledger.taken] at hall
    exact hall.symm
  · simp only [hanswered, hmap, h.answered, List.filter_append]
  · simp only [hcreds, hmap, h.creds, credsAfter, List.foldl_append]
  · rw [hqueued']
    have horder := h.order
    rw [hqueued] at horder
    simp only [hledger.sends, hledger.taken, List.filter_append, horder, List.append_assoc]
    rw [← List.filter_append, hledger.channel, List.filter_append]
  · intro e he
    simp only [hledger.sends, List.length_append]
    exact hnew.2 e (hsub.subset he)

/-- The connection has ended, and nobody was evicted from it unless a candidate waits. -/
theorem disconnected_orderly {handoff stop : Bool} (h : Orderly creds s)
    (hserving : s.stage = .serving) (hended : s.session.phase = .ended) :
    Orderly creds { s with
      stage := if stop then .stopped
        else if s.pending || handoff then .collecting else .accepting } := by
  have hkeep : s.keep = [] := h.keepEmpty (by simp [hserving]) (by simp [hserving])
  have hne : s.stage ≠ .resending := by simp [hserving]
  have hstages : ∀ stage : Stage, (stage = .stopped ∨ stage = .collecting ∨
      (stage = .accepting ∧ s.pending = false)) → Orderly creds { s with stage } := by
    intro stage hstage
    have hne' : stage ≠ .resending := by rcases hstage with rfl | rfl | ⟨rfl, -⟩ <;> simp
    have hqueued : Server.queued { s with stage } = s.queued := by
      rw [Server.queued_of_ne hne]
      exact Server.queued_of_ne hne'
    refine h.move hended ?_ rfl ?_ ?_ ?_ h.kept fun _ _ => hkeep
    · rcases hstage with rfl | rfl | ⟨rfl, -⟩ <;> simp
    · rw [hqueued]
    · rw [hqueued]
    · rw [hqueued]
      intro e he hevicted
      rcases hstage with rfl | rfl | ⟨rfl, hnot⟩
      · exact .inr rfl
      · exact .inl rfl
      · rcases h.evictions e he hevicted with hstage | hstage | ⟨-, hwon, -⟩
        · simp [hserving] at hstage
        · simp [hserving] at hstage
        · simp [hnot] at hwon
  refine hstages _ ?_
  cases stop with
  | true => exact .inl rfl
  | false =>
    cases hwon : s.pending with
    | true => exact .inr (.inl rfl)
    | false =>
      cases handoff with
      | true => exact .inr (.inl rfl)
      | false => exact .inr (.inr ⟨rfl, rfl⟩)

/-- The filter takes an event and keeps it, unless it is an eviction. -/
theorem collect_orderly (h : Orderly creds s) (hcollecting : s.stage = .collecting) :
    Orderly creds s.collect := by
  have hended : s.session.phase = .ended := h.idle (by simp [hcollecting])
  have hne : s.stage ≠ .resending := by simp [hcollecting]
  have hqueued : s.queued = s.keep ++ s.session.channel := Server.queued_of_ne hne
  cases hchannel : s.session.channel with
  | nil =>
    rw [hchannel, List.append_nil] at hqueued
    by_cases hkeep : s.keep = []
    · have hcollect : s.collect = Server.serve { s with stage := .accepting } := by
        simp [Server.collect, hchannel, hkeep, Server.serve]
      have hnone : Server.queued { s with stage := .accepting } = [] := by
        simp [Server.queued, hkeep, hchannel]
      rw [hcollect]
      refine serve_orderly (h.move hended ?_ rfl ?_ ?_ ?_ h.kept fun _ _ => hkeep) rfl ?_
      · simp
      · simp [hnone]
      · rw [hnone, hqueued, hkeep]
      · simp [hnone]
      · simp [Server.NothingStale, hnone]
    · have hcollect : s.collect = { s with stage := .resending } := by
        simp [Server.collect, hchannel, hkeep]
      have hsame : Server.queued { s with stage := .resending } = s.keep := by
        simp [Server.queued, hchannel]
      rw [hcollect]
      refine h.move hended ?_ rfl ?_ ?_ ?_ h.kept fun _ hnot => absurd rfl hnot
      · simp
      · rw [hsame, hqueued]
      · rw [hsame, hqueued]
      · rw [hsame]
        exact fun e he hevicted => absurd hevicted (h.kept e he)
  | cons e rest =>
    rw [hchannel] at hqueued
    by_cases hevicted : e.kind = .evictedByOtherConnection
    · have hcollect : s.collect = { s with session := { s.session with channel := rest } } := by
        simp [Server.collect, hchannel, hevicted]
      have hrest : Server.queued { s with session := { s.session with channel := rest } } =
          s.keep ++ rest := Server.queued_of_ne hne
      have hother : e.isOther = false := by simp [ServerEvent.isOther, hevicted]
      rw [hcollect]
      refine h.move hended (by simp [hcollecting]) rfl ?_ ?_ ?_ h.kept h.keepEmpty
      · rw [hrest, hqueued]
        exact (List.Sublist.refl _).append (List.sublist_cons_self e rest)
      · simp [hrest, hqueued, List.filter_append, hother]
      · exact fun _ _ _ => .inl hcollecting
    · have hcollect : s.collect = { s with
          session := { s.session with channel := rest }
          keep := s.keep ++ [e] } := by
        simp [Server.collect, hchannel, hevicted]
      have hrest : Server.queued { s with
          session := { s.session with channel := rest }
          keep := s.keep ++ [e] } = s.queued := by
        rw [hqueued, List.append_cons s.keep e rest]
        exact Server.queued_of_ne hne
      rw [hcollect]
      refine h.move hended (by simp [hcollecting]) rfl ?_ ?_ ?_ ?_ ?_
      · rw [hrest]
      · rw [hrest]
      · exact fun _ _ _ => .inl hcollecting
      · intro x hx
        rcases List.mem_append.mp hx with hx | hx
        · exact h.kept x hx
        · rw [List.mem_singleton.mp hx]
          exact hevicted
      · exact fun hnot _ => absurd hcollecting hnot

/-- The filter sends an event back to the end of the channel. -/
theorem resend_orderly {e : ServerEvent} {rest : List ServerEvent} (h : Orderly creds s)
    (hresending : s.stage = .resending) (hkeep : s.keep = e :: rest)
    (hcond : s.keep.length = 1 → s.NothingStale) : Orderly creds (s.resend e rest) := by
  have hended : s.session.phase = .ended := h.idle (by simp [hresending])
  have hqueued : s.queued = s.session.channel ++ e :: rest := by
    rw [Server.queued_of_eq hresending, hkeep]
  have hkept : ∀ x ∈ rest, x.kind ≠ .evictedByOtherConnection := by
    intro x hx
    refine h.kept x ?_
    rw [hkeep]
    exact List.mem_cons_of_mem e hx
  have hnone : ∀ x ∈ s.queued, x.kind ≠ .evictedByOtherConnection := by
    intro x hx hevicted
    rcases h.evictions x hx hevicted with hstage | hstage | ⟨hstage, -⟩ <;>
      simp [hresending] at hstage
  by_cases hrest : rest = []
  · subst hrest
    have hresend : s.resend e [] = Server.serve { s with
        session := { s.session with channel := s.session.channel ++ [e] }
        keep := []
        stage := .accepting } := by
      simp [Server.resend, Server.serve]
    have hsame : Server.queued { s with
        session := { s.session with channel := s.session.channel ++ [e] }
        keep := []
        stage := .accepting } = s.queued := by
      rw [hqueued]
      rfl
    rw [hresend]
    refine serve_orderly (h.move hended ?_ rfl ?_ ?_ ?_ ?_ ?_) rfl ?_
    · simp
    · rw [hsame]
    · rw [hsame]
    · rw [hsame]
      exact fun x hx hevicted => absurd hevicted (hnone x hx)
    · simp
    · simp
    · rw [Server.NothingStale, hsame]
      exact hcond (by simp [hkeep])
  · have hresend : s.resend e rest = { s with
        session := { s.session with channel := s.session.channel ++ [e] }
        keep := rest } := by
      simp [Server.resend, hrest]
    have hsame : Server.queued { s with
        session := { s.session with channel := s.session.channel ++ [e] }
        keep := rest } = s.queued := by
      rw [hqueued, List.append_cons s.session.channel e rest]
      exact Server.queued_of_eq hresending
    rw [hresend]
    refine h.move hended (by simp [hresending]) rfl ?_ ?_ ?_ hkept ?_
    · rw [hsame]
    · rw [hsame]
    · rw [hsame]
      exact fun x hx hevicted => absurd hevicted (hnone x hx)
    · exact fun _ hnot => absurd hresending hnot

/-- One step keeps everything in order. -/
theorem orderly_step {a : ServerAction} (h : Orderly creds s) (hcond : InOrder s a)
    (hstep : s.step a = some s') : Orderly creds s' := by
  cases a with
  | send kind producedFor =>
    obtain ⟨hnot, heq⟩ := Option.ite_none_left_eq_some.mp hstep
    cases heq
    obtain ⟨hserving, hkind⟩ := not_or.mp hnot
    exact send_orderly h hserving hcond hkind
  | acceptEvent =>
    obtain ⟨haccepting, htake⟩ := Option.ite_none_right_eq_some.mp hstep
    cases hchannel : s.session.channel with
    | nil => simp [hchannel] at htake
    | cons e rest =>
      simp only [hchannel, Option.some.injEq] at htake
      subst htake
      exact acceptEvent_orderly h haccepting hchannel
  | runConnection =>
    obtain ⟨haccepting, heq⟩ := Option.ite_none_right_eq_some.mp hstep
    cases heq
    exact serve_orderly h haccepting hcond
  | session a =>
    obtain ⟨hserving, hsession⟩ := Option.ite_none_right_eq_some.mp hstep
    obtain ⟨t, ht, rfl⟩ := Option.map_eq_some_iff.mp hsession
    exact session_orderly h hserving ht hcond
  | evict =>
    obtain ⟨⟨hserving, -, -⟩, heq⟩ := Option.ite_none_right_eq_some.mp hstep
    cases heq
    exact evict_orderly h hserving
  | disconnected handoff stop =>
    obtain ⟨⟨hserving, hended⟩, heq⟩ := Option.ite_none_right_eq_some.mp hstep
    cases heq
    exact disconnected_orderly h hserving hended
  | collect =>
    obtain ⟨hcollecting, heq⟩ := Option.ite_none_right_eq_some.mp hstep
    cases heq
    exact collect_orderly h hcollecting
  | resend =>
    obtain ⟨hresending, hsend⟩ := Option.ite_none_right_eq_some.mp hstep
    cases hkeep : s.keep with
    | nil => simp [hkeep] at hsend
    | cons e rest =>
      simp only [hkeep, Option.some.injEq] at hsend
      subst hsend
      exact resend_orderly h hresending hkeep hcond

/-- While everything comes in order, events stay with their connections, those for the
server take effect once, evictions reach whom they were sent for, and the filter keeps
the order of the others. -/
theorem events_isolated (creds : Option Credentials) (acts : List ServerAction) (s : Server)
    (hmeets : Meets Server.step InOrder (.init creds) acts)
    (hrun : run Server.step (.init creds) acts = some s) : Isolated creds s := by
  have hstep : ∀ (t : Server) (a : ServerAction) (t' : Server), Orderly creds t → InOrder t a →
      t.step a = some t' → Orderly creds t' := fun t a t' h hcond ht => orderly_step h hcond ht
  exact (run_invariant (Orderly creds) hstep (orderly_init creds) hmeets hrun).isolated

/-- A connection is preempted while credentials are on the channel, which its successor
sets. -/
def preemptedInOrder : List ServerAction :=
  [.send .getLocalAddr 0, .acceptEvent, .runConnection, .session (.send .clipboard 1),
    .session .clientLoop, .session .recvMany, .session (.dispatch .writing),
    .session (.written true), .evict, .session (.send (.setCredentials ⟨"u", "p", none⟩) 0),
    .session .finish, .disconnected false false, .collect, .collect, .collect, .resend,
    .session (.send .egfx 2), .session .clientLoop, .session .recvMany,
    .session (.dispatch .complete), .session (.dispatch .complete)]

theorem events_isolated_preempted :
    ∃ s, run Server.step (.init none) preemptedInOrder = some s ∧
      s.session.effects.map (fun x => (x.1, x.2.seq)) =
        [(none, 0), (some 1, 1), (some 2, 3), (some 2, 4)] ∧
      Isolated none s := by
  have hrun : (run Server.step (.init none) preemptedInOrder).any (fun s =>
      decide (s.session.effects.map (fun x => (x.1, x.2.seq)) =
        [(none, 0), (some 1, 1), (some 2, 3), (some 2, 4)])) = true := by
    decide +kernel
  obtain ⟨s, hs, heffects⟩ := (Option.any_eq_true _ _).mp hrun
  have hmeets : meetsBool Server.step (fun s a => decide (InOrder s a)) (.init none)
      preemptedInOrder = true := by decide +kernel
  have hcond := meetsBool_iff.mp hmeets
  simp only [decide_eq_true_eq] at hcond
  exact ⟨s, hs, of_decide_eq_true heffects, events_isolated none preemptedInOrder s hcond hs⟩

/-- A device request that a connection leaves is dispatched on the next one. -/
theorem not_isolated_leftover :
    ¬∀ (creds : Option Credentials) (acts : List ServerAction) (s : Server),
      run Server.step (.init creds) acts = some s → Isolated creds s := by
  intro h
  have hrun : (run Server.step (.init none)
      [.runConnection, .session .clientLoop, .session (.send .rdpdr 1), .session .finish,
        .disconnected false false, .runConnection, .session .clientLoop, .session .recvMany,
        .session (.dispatch .writing), .session (.written true)]).any
      (fun s => decide ((some 2, ⟨.rdpdr, 1, 0⟩) ∈ s.session.effects)) = true := by
    decide +kernel
  obtain ⟨s, hs, hstale⟩ := (Option.any_eq_true _ _).mp hrun
  have hown : (1 : ℕ) = 2 := (h _ _ s hs).own 2 _ (of_decide_eq_true hstale) (.inl rfl)
  cases hown

end Macrdp.ServerEvents
