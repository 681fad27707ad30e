import Macrdp.SmartcardReader

/-!
# The driver and the bridge stay in step

While a call is running its request is on its way to the session, or the reply to it is on its
way to the driver; what each side still reads or writes spells exactly that request or that
reply, however the bytes are cut. Between calls nothing is under way. An error drops the
connection, and a later call has one of its own.
-/

namespace Macrdp.SmartcardReader

open StepSystem ByteProcess ByteProcess.Proc SmartcardProtocol

/-- No byte is left between calls, and the session is between two rounds. -/
structure Link.Quiet (l : Link) : Prop where
  up : l.up = []
  down : l.down = []
  round : l.ended = false → l.bridge.proc = .done true ∧ l.bridge.got = []

/-- The request of a call is on its way: what is not sent yet follows what is under way. -/
structure Asking (call : Running) (l : Link) (more : List UInt8) : Prop where
  served : call.served = []
  consumed : call.consumed = []
  down : l.down = []
  writes : Writes call.driver.proc more (readReply call.request)
  got : call.driver.got = []
  reads : l.ended = false →
    Reads l.resume.proc (l.resume.got ++ l.up ++ more) (respond call.request)

/-- The reply to a call is on its way: what is not sent yet follows what is under way. -/
structure Answering (call : Running) (l : Link) (o : Outcome) (more : List UInt8) : Prop where
  served : call.served = [(call.request, o)]
  up : l.up = []
  reads : Reads call.driver.proc (call.driver.got ++ l.down ++ more)
    (.done (answerOf call.request o))
  consumed : call.consumed ++ l.down ++ more = replyBytes call.request o
  writes : l.ended = false → Writes l.bridge.proc more (.done true) ∧ l.bridge.got = []

/-- A call is at one of the two. -/
def Underway (call : Running) (l : Link) : Prop :=
  (∃ more, Asking call l more) ∨ ∃ o more, Answering call l o more

/-- What a call that returned has to do with the bridge. With a reply, its own request was
performed once, with its arguments, and the reply was consumed to the byte; without one, what was
consumed is a part of its own reply. -/
def Entry.InStep (e : Entry) : Prop :=
  match e.call.request, e.answer with
  | none, _ => e.served = [] ∧ e.consumed = []
  | some r, some answer =>
    ∃ o, e.served = [(r, o)] ∧ e.consumed = replyBytes r o ∧ answer = answerOf r o
  | some r, none =>
    e.served = [] ∧ e.consumed = [] ∨ ∃ o, e.served = [(r, o)] ∧ e.consumed <+: replyBytes r o

/-- A call whose exchange ended in an error. -/
def Entry.Failed (e : Entry) : Prop := e.conn.isSome ∧ e.answer = none

/-- What holds of two calls in their order: the later one does not share a connection on which
the earlier one failed. -/
def Entry.Apart (e f : Entry) : Prop :=
  e.Failed → ∀ n ∈ e.conn, ∀ m ∈ f.conn, n < m

/-- What the driver reads begins with a read. -/
theorem readReply_eq (r : Request) : ∃ n next, readReply r = .read (n + 1) next := by
  cases r with
  | presence | powerOn | powerOff | transmit apdu recvLen => exact ⟨0, _, rfl⟩

/-- So there is nothing to settle. -/
theorem settle_readReply (r : Request) : (readReply r).settle = readReply r := by
  obtain ⟨n, next, h⟩ := readReply_eq r
  rw [h]
  rfl

variable {l : Link}
variable {bytes : List UInt8}

/-- A session that reads on towards an operation has not finished its round. -/
theorem Link.resume_of_reads {r : Request}
    (h : Reads l.bridge.proc bytes (respond r)) : l.resume = l.bridge := by
  refine if_neg fun hdone => ?_
  rw [eq_done_of_result hdone] at h
  cases (h.eq_nil nofun).2

/-- A session that has not finished its round goes on with it. -/
theorem Link.resume_of_ne (h : l.bridge.proc ≠ .done true) : l.resume = l.bridge :=
  if_neg fun hdone => h (eq_done_of_result hdone)

/-- A new round is settled. -/
theorem Link.settled_resume (h : l.bridge.Settled) : l.resume.Settled := by
  unfold Link.resume
  split
  · exact Endpoint.settled_start _
  · exact h

/-- A connection that was just made is quiet. -/
theorem Link.quiet_dial (n : ℕ) : (Link.dial n).Quiet := ⟨rfl, rfl, fun _ => ⟨rfl, rfl⟩⟩

variable {call : Running} {more : List UInt8}

/-- A session that writes is not on its way to an operation. -/
theorem Asking.not_write
    {next : Proc UInt8 Request Outcome Bool} (h : Asking call l more) (hlive : l.ended = false) :
    l.bridge.proc ≠ .write bytes next := by
  intro hwrite
  have hreads := h.reads hlive
  rw [Link.resume_of_ne (by rw [hwrite]; exact nofun), hwrite] at hreads
  cases (hreads.eq_nil nofun).2

variable {o : Outcome}

/-- A driver that reads its reply does not write. -/
theorem Answering.not_write {next : Proc UInt8 Empty Empty Answer} (h : Answering call l o more) :
    call.driver.proc ≠ .write bytes next := by
  intro hwrite
  have hreads := h.reads
  rw [hwrite] at hreads
  cases (hreads.eq_nil nofun).2

variable {k : ℕ}

/-- The driver sends a piece of its request. -/
theorem Asking.driverWrite {up : List UInt8}
    {driver : Endpoint UInt8 Empty Empty Answer} (h : Asking call l more)
    (hsend : call.driver.send k l.up = some (driver, up)) :
    Underway { call with driver := driver } { l with up := up } := by
  obtain ⟨n, next, hreply⟩ := readReply_eq call.request
  obtain ⟨piece, rest, -, htotal, hup, hwrites⟩ := Endpoint.send_writes hsend h.writes
    (settle_readReply _) (fun _ _ hne => by rw [hreply] at hne; cases hne)
  refine .inl ⟨rest, h.served, h.consumed, h.down, hwrites, (Endpoint.send_eq hsend).2, ?_⟩
  intro hlive
  have hreads := h.reads hlive
  rw [htotal, ← List.append_assoc, List.append_assoc l.resume.got, ← hup] at hreads
  exact hreads

variable {bridge : Endpoint UInt8 Request Outcome Bool}

/-- The session reads a piece of the request. -/
theorem Asking.bridgeRead {up : List UInt8} (h : Asking call l more)
    (hlive : l.ended = false) (hreceive : l.resume.receive k l.up = some (bridge, up)) :
    Underway call { l with bridge := bridge, up := up } := by
  have hreads : Reads bridge.proc (bridge.got ++ up ++ more) (respond call.request) :=
    Endpoint.receive_reads hreceive (h.reads hlive) rfl nofun
  have hresume : Link.resume { l with bridge := bridge, up := up } = bridge :=
    Link.resume_of_reads hreads
  refine .inl ⟨more, h.served, h.consumed, h.down, h.writes, h.got, fun _ => ?_⟩
  rw [hresume]
  exact hreads

/-- The session performs the request once it was read in full. -/
theorem Asking.perform {r : Request} (h : Asking call l more)
    (hlive : l.ended = false) (hdriver : call.driver.Settled)
    (hanswer : l.bridge.answer o = some (r, bridge)) :
    Underway { call with served := call.served ++ [(r, o)] } { l with bridge := bridge } := by
  obtain ⟨next, hproc, rfl⟩ := Endpoint.answer_eq hanswer
  have hreads := h.reads hlive
  rw [Link.resume_of_ne (by rw [hproc]; exact nofun), hproc] at hreads
  obtain ⟨hbytes, hperform⟩ := hreads.eq_nil nofun
  obtain ⟨rfl, rfl⟩ := Proc.perform.inj hperform
  obtain ⟨hfront, hmore⟩ := List.append_eq_nil_iff.mp hbytes
  have hup : l.up = [] := (List.append_eq_nil_iff.mp hfront).2
  have hwrites := h.writes
  rw [hmore] at hwrites
  have hreply : call.driver.proc = readReply call.request := hwrites.eq_of_nil hdriver.1
  refine .inr ⟨o, replyBytes call.request o, ?_, hup, ?_, ?_, fun _ => ⟨?_, rfl⟩⟩
  · change call.served ++ [(call.request, o)] = _
    rw [h.served]
    rfl
  · change Reads call.driver.proc (call.driver.got ++ l.down ++ _) _
    rw [h.got, h.down, hreply]
    exact readReply_reads _ o
  · change call.consumed ++ l.down ++ _ = _
    rw [h.consumed, h.down]
    rfl
  · exact (writeReply_writes call.request o).settle rfl

/-- The session sends a piece of the reply. -/
theorem Answering.bridgeWrite {down : List UInt8} (h : Answering call l o more)
    (hlive : l.ended = false) (hsend : l.bridge.send k l.down = some (bridge, down)) :
    Underway call { l with bridge := bridge, down := down } := by
  obtain ⟨piece, rest, -, htotal, hdown, hwrites⟩ := Endpoint.send_writes hsend
    (h.writes hlive).1 rfl nofun
  have hreads := h.reads
  have hconsumed := h.consumed
  rw [htotal, ← List.append_assoc, List.append_assoc call.driver.got, ← hdown] at hreads
  rw [htotal, ← List.append_assoc, List.append_assoc call.consumed, ← hdown] at hconsumed
  exact .inr ⟨o, rest, h.served, h.up, hreads, hconsumed,
    fun _ => ⟨hwrites, (Endpoint.send_eq hsend).2⟩⟩

/-- The driver reads a piece of the reply. -/
theorem Answering.driverRead {down : List UInt8}
    {driver : Endpoint UInt8 Empty Empty Answer} (h : Answering call l o more)
    (hreceive : call.driver.receive k l.down = some (driver, down)) :
    Underway { call with driver := driver, consumed := call.consumed ++ l.down.take k }
      { l with down := down } := by
  have hreads := Endpoint.receive_reads hreceive h.reads rfl nofun
  refine .inr ⟨o, more, h.served, h.up, hreads, ?_, h.writes⟩
  change call.consumed ++ l.down.take k ++ down ++ more = _
  rw [(Endpoint.receive_input hreceive).2.2, List.append_assoc call.consumed,
    List.take_append_drop]
  exact h.consumed

/-- A call that has its answer consumed its reply, and left nothing. -/
theorem Answering.finish
    {answer : Answer} (h : Answering call l o more) (hbridge : l.bridge.Settled)
    (hdone : call.driver.proc.result = some answer) :
    answer = answerOf call.request o ∧ call.consumed = replyBytes call.request o ∧ l.Quiet := by
  have hreads := h.reads
  rw [eq_done_of_result hdone] at hreads
  obtain ⟨hbytes, hanswer⟩ := hreads.eq_nil nofun
  obtain ⟨hfront, hmore⟩ := List.append_eq_nil_iff.mp hbytes
  have hdown : l.down = [] := (List.append_eq_nil_iff.mp hfront).2
  have hconsumed := h.consumed
  rw [hdown, hmore, List.append_nil, List.append_nil] at hconsumed
  refine ⟨Proc.done.inj hanswer, hconsumed, h.up, hdown, fun hlive => ?_⟩
  obtain ⟨hwrites, hgot⟩ := h.writes hlive
  rw [hmore] at hwrites
  exact ⟨hwrites.eq_of_nil hbridge.1, hgot⟩

/-- A call that is still asking has no answer. -/
theorem Asking.no_answer (h : Asking call l more) : call.driver.proc.result = none := by
  cases hresult : call.driver.proc.result with
  | none => rfl
  | some answer =>
    have hwrites := h.writes
    rw [eq_done_of_result hresult] at hwrites
    obtain ⟨n, next, hreply⟩ := readReply_eq call.request
    have hdone := (hwrites.eq_nil nofun).2
    rw [hreply] at hdone
    cases hdone

namespace State

/-- What is known whether or not a call is running. -/
structure Kept (s : State) : Prop where
  strays : s.strays = []
  settled : ∀ l ∈ s.link, l.bridge.Settled
  log : ∀ e ∈ s.log, e.InStep
  apart : s.log.Pairwise Entry.Apart
  dialled : ∀ l ∈ s.link, l.number < s.dials
  past : ∀ e ∈ s.log, ∀ n ∈ e.conn, n < s.dials ∧ (e.Failed → ∀ l ∈ s.link, n < l.number)

/-- What is known of the driver and the bridge. -/
structure Inv (s : State) : Prop extends Kept s where
  idle : s.running = none → ∀ l ∈ s.link, l.Quiet
  running : ∀ call ∈ s.running, call.call.request = some call.request ∧ call.driver.Settled ∧
    ∃ l, s.link = some l ∧ l.number = call.conn ∧ Underway call l

/-- Both ends are in step: nothing was performed between calls, between calls nothing is left
unread, every call had its own reply, and none shares a connection with an earlier failure. While
a call is running on a live session, one of the two sides can move. -/
structure Lockstep (s : State) : Prop where
  strays : s.strays = []
  idle : s.running = none → ∀ l ∈ s.link, l.Quiet
  log : ∀ e ∈ s.log, e.InStep
  apart : s.log.Pairwise Entry.Apart
  moves : ∀ call ∈ s.running, ∀ l ∈ s.link, l.ended = false →
    ∃ a : Action, a.Moves ∧ (s.step a).isSome

/-- Nothing is under way at the start. -/
theorem Inv.new : State.new.Inv where
  strays := rfl
  settled := fun _ hl => absurd hl (Option.not_mem_none _)
  log := fun _ he => absurd he List.not_mem_nil
  apart := List.Pairwise.nil
  dialled := fun _ hl => absurd hl (Option.not_mem_none _)
  past := fun _ he => absurd he List.not_mem_nil
  idle := fun _ _ hl => absurd hl (Option.not_mem_none _)
  running := fun _ hcall => absurd hcall (Option.not_mem_none _)

variable {s : State} {l : Link}

/-- Bytes and pieces of work move on a connection, and nothing else changes. -/
theorem Kept.move {m : Link} (h : s.Kept) (hl : s.link = some l)
    (hnumber : m.number = l.number) (hbridge : m.bridge.Settled) (running : Option Running) :
    Kept { s with link := some m, running := running } where
  __ := h
  settled := fun x hx => by
    cases hx
    exact hbridge
  dialled := fun x hx => by
    cases hx
    rw [hnumber]
    exact h.dialled l hl
  past := fun e he n hn => by
    refine ⟨(h.past e he n hn).1, fun hfailed x hx => ?_⟩
    cases hx
    rw [hnumber]
    exact (h.past e he n hn).2 hfailed l hl

variable {call : Running}

/-- A call that is underway stays so while bytes move. -/
theorem Inv.move {m : Link} {moved : Running} (h : s.Inv)
    (hl : s.link = some l) (hrunning : s.running = some call) (hnumber : m.number = l.number)
    (hbridge : m.bridge.Settled) (hcall : moved.call = call.call)
    (hrequest : moved.request = call.request) (hconn : moved.conn = call.conn)
    (hdriver : moved.driver.Settled) (hunderway : Underway moved m) :
    Inv { s with link := some m, running := some moved } where
  toKept := h.toKept.move hl hnumber hbridge _
  idle := nofun
  running := fun other hother => by
    cases hother
    obtain ⟨hown, -, x, hx, hlink, -⟩ := h.running call hrunning
    cases hl.symm.trans hx
    rw [hcall, hrequest, hconn]
    exact ⟨hown, hdriver, m, rfl, hnumber.trans hlink, hunderway⟩

/-- Dialling keeps what is known. -/
theorem Inv.connect (h : s.Inv) (hidle : s.running = none) (reachable : Bool) :
    (s.connect reachable).Inv ∧ (s.connect reachable).running = none := by
  unfold State.connect
  split
  · exact ⟨h, hidle⟩
  · next hnone =>
    by_cases hreach : reachable = true
    · rw [if_pos hreach]
      refine ⟨⟨⟨h.strays, ?_, h.log, h.apart, ?_, ?_⟩, ?_, ?_⟩, hidle⟩
      · intro l hl
        cases hl
        exact Endpoint.settled_start _
      · intro l hl
        cases hl
        exact Nat.lt_succ_self _
      · intro e he n hn
        have hlt := (h.past e he n hn).1
        refine ⟨Nat.lt_succ_of_lt hlt, fun _ l hl => ?_⟩
        cases hl
        exact hlt
      · intro _ l hl
        cases hl
        exact Link.quiet_dial _
      · intro call hcall
        change s.running = some call at hcall
        rw [hidle] at hcall
        cases hcall
    · rw [if_neg hreach]
      exact ⟨h, hidle⟩

/-- A call returns, and leaves a quiet connection or none. -/
theorem Kept.conclude {c : Call} {conn : Option ℕ} {consumed : List UInt8}
    {served : List (Request × Outcome)} {answer : Option Answer} (h : s.Kept)
    (hquiet : ∀ l ∈ s.link, l.Quiet)
    (hentry : ∀ returned, Entry.InStep ⟨c, conn, consumed, served, answer, returned⟩)
    (hconn : ∀ n ∈ conn, n < s.dials ∧ (answer = none → ∀ l ∈ s.link, n < l.number))
    (hlater : ∀ e ∈ s.log, e.Failed → ∀ n ∈ e.conn, ∀ m ∈ conn, n < m) :
    (s.conclude c conn consumed served answer).Inv := by
  have hlink : ∀ l ∈ (s.conclude c conn consumed served answer).link, l ∈ s.link := by
    intro l hl
    change l ∈ (if c.resets then none else s.link) at hl
    split at hl
    · exact absurd hl (Option.not_mem_none _)
    · exact hl
  have hlog : ∀ e ∈ (s.conclude c conn consumed served answer).log,
      e ∈ s.log ∨ ∃ returned, e = ⟨c, conn, consumed, served, answer, returned⟩ := by
    intro e he
    rcases List.mem_append.mp he with hold | hnew
    · exact .inl hold
    · exact .inr ⟨_, List.mem_singleton.mp hnew⟩
  refine ⟨⟨h.strays, ?_, ?_, ?_, ?_, ?_⟩, ?_, ?_⟩
  · intro l hl
    exact h.settled l (hlink l hl)
  · intro e he
    rcases hlog e he with hold | ⟨returned, rfl⟩
    · exact h.log e hold
    · exact hentry returned
  · refine List.pairwise_append.mpr ⟨h.apart, List.pairwise_singleton .., ?_⟩
    intro e he f hf hfailed n hn m hm
    rw [List.mem_singleton] at hf
    rw [hf] at hm
    exact hlater e he hfailed n hn m hm
  · intro l hl
    exact h.dialled l (hlink l hl)
  · intro e he n hn
    rcases hlog e he with hold | ⟨returned, rfl⟩
    · have hpast := h.past e hold n hn
      exact ⟨hpast.1, fun hfailed l hl => hpast.2 hfailed l (hlink l hl)⟩
    · have hown := hconn n hn
      exact ⟨hown.1, fun hfailed l hl => hown.2 hfailed.2 l (hlink l hl)⟩
  · intro _ l hl
    exact hquiet l (hlink l hl)
  · intro call hcall
    cases hcall

/-- A call that makes no exchange keeps what is known. -/
theorem Inv.conclude_none (h : s.Inv) (hidle : s.running = none) (c : Call) :
    (s.conclude c none [] [] none).Inv := by
  refine h.toKept.conclude (h.idle hidle) (fun returned => ?_) ?_ ?_
  · unfold Entry.InStep
    cases c.request with
    | none => exact ⟨rfl, rfl⟩
    | some r => exact .inl ⟨rfl, rfl⟩
  · exact fun _ hn => absurd hn (Option.not_mem_none _)
  · exact fun _ _ _ _ _ _ hm => absurd hm (Option.not_mem_none _)

/-- A call that begins keeps what is known. -/
theorem Inv.begin (h : s.Inv) (hidle : s.running = none) {c : Call} (hc : c.Fits)
    (reachable : Bool) : (s.begin c reachable).Inv := by
  unfold State.begin
  split
  · exact h.conclude_none hidle c
  · next r hr =>
    obtain ⟨hconnect, hidle'⟩ := h.connect hidle reachable
    split
    · exact h.conclude_none hidle c
    · next l hl =>
      have hquiet := hconnect.idle hidle' l hl
      have hwrites : Writes (Endpoint.start (exchange r)).proc r.bytes (readReply r) :=
        (Writes.last r.bytes (readReply r)).settle (settle_readReply r)
      refine ⟨{ __ := hconnect }, fun hnone => ?_, ?_⟩
      · cases hnone
      · intro call hcall
        cases hcall
        refine ⟨hr, Endpoint.settled_start _, l, hl, rfl, .inl ⟨r.bytes, rfl, rfl, hquiet.down,
          hwrites, rfl, fun hlive => ?_⟩⟩
        have hresume : l.resume = .start serve := by
          refine if_pos ?_
          rw [(hquiet.round hlive).1]
          rfl
        rw [hresume, hquiet.up]
        exact (serve_reads (hc r hr)).settle rfl

/-- The connection of a running call. -/
theorem Inv.link_eq (h : s.Inv) (hrunning : s.running = some call) (hl : s.link = some l) :
    l.number = call.conn ∧ Underway call l := by
  obtain ⟨-, -, m, hm, hnumber, hunderway⟩ := h.running call hrunning
  cases hl.symm.trans hm
  exact ⟨hnumber, hunderway⟩

/-- A call that has its answer keeps what is known. -/
theorem Inv.finish (h : s.Inv) {answer : Answer}
    (hrunning : s.running = some call) (hdone : call.driver.proc.result = some answer) :
    (s.conclude call.call (some call.conn) call.consumed call.served (some answer)).Inv := by
  obtain ⟨hrequest, -, l, hl, hnumber, hunderway⟩ := h.running call hrunning
  rcases hunderway with ⟨more, hasking⟩ | ⟨o, more, hanswering⟩
  · rw [hasking.no_answer] at hdone
    cases hdone
  · obtain ⟨hown, hconsumed, hquiet⟩ := hanswering.finish (h.settled l hl) hdone
    refine h.toKept.conclude (fun m hm => ?_) (fun returned => ?_) (fun n hn => ?_) ?_
    · cases hl.symm.trans hm
      exact hquiet
    · unfold Entry.InStep
      rw [hrequest]
      exact ⟨o, hanswering.served, hconsumed, hown⟩
    · cases hn
      rw [← hnumber]
      exact ⟨h.dialled l hl, nofun⟩
    · intro e he hfailed n hn m hm
      cases hm
      rw [← hnumber]
      exact (h.past e he n hn).2 hfailed l hl

/-- A call that fails drops its connection and keeps what is known. -/
theorem Inv.fail (h : s.Inv) (hrunning : s.running = some call) :
    (s.reset.conclude call.call (some call.conn) call.consumed call.served none).Inv := by
  obtain ⟨hrequest, -, l, hl, hnumber, hunderway⟩ := h.running call hrunning
  have hkept : s.reset.Kept := ⟨h.strays, fun _ hm => absurd hm (Option.not_mem_none _), h.log,
    h.apart, fun _ hm => absurd hm (Option.not_mem_none _), fun e he n hn =>
      ⟨(h.past e he n hn).1, fun _ _ hm => absurd hm (Option.not_mem_none _)⟩⟩
  refine hkept.conclude (fun _ hm => absurd hm (Option.not_mem_none _)) (fun returned => ?_)
    (fun n hn => ?_) ?_
  · unfold Entry.InStep
    rw [hrequest]
    rcases hunderway with ⟨more, hasking⟩ | ⟨o, more, hanswering⟩
    · exact .inl ⟨hasking.served, hasking.consumed⟩
    · have hconsumed := hanswering.consumed
      rw [List.append_assoc] at hconsumed
      exact .inr ⟨o, hanswering.served, ⟨l.down ++ more, hconsumed⟩⟩
  · cases hn
    rw [← hnumber]
    exact ⟨h.dialled l hl, fun _ _ hm => absurd hm (Option.not_mem_none _)⟩
  · intro e he hfailed n hn m hm
    cases hm
    rw [← hnumber]
    exact (h.past e he n hn).2 hfailed l hl

/-- Between calls the session has nothing to read, to write or to perform. -/
theorem Inv.idle_bridge (h : s.Inv) (hidle : s.running = none)
    (hl : s.link = some l) (hlive : l.ended = false) : l.up = [] ∧ l.bridge.proc = .done true :=
  ⟨(h.idle hidle l hl).up, ((h.idle hidle l hl).round hlive).1⟩

variable {bridge : Endpoint UInt8 Request Outcome Bool}

/-- A piece that the session reads keeps what is known. -/
theorem Inv.bridgeRead (h : s.Inv) {up : List UInt8} (hl : s.link = some l)
    (hlive : l.ended = false) (hreceive : l.resume.receive k l.up = some (bridge, up)) :
    Inv { s with link := some { l with bridge := bridge, up := up } } := by
  obtain ⟨hpos, hlen, -⟩ := Endpoint.receive_input hreceive
  have hsettled : bridge.Settled :=
    Endpoint.settled_receive hreceive (Link.settled_resume (h.settled l hl))
  have hne : l.up ≠ [] := fun hnil => by
    rw [hnil, List.length_nil] at hlen
    omega
  cases hrunning : s.running with
  | none => exact absurd (h.idle_bridge hrunning hl hlive).1 hne
  | some call =>
    obtain ⟨hnumber, hunderway⟩ := h.link_eq hrunning hl
    rcases hunderway with ⟨more, hasking⟩ | ⟨o, more, hanswering⟩
    · have hmoved := h.move (m := { l with bridge := bridge, up := up }) hl hrunning rfl hsettled
        rfl rfl rfl (h.running call hrunning).2.1 (hasking.bridgeRead hlive hreceive)
      exact hmoved
    · exact absurd hanswering.up hne

/-- A piece that the session writes keeps what is known. -/
theorem Inv.bridgeWrite (h : s.Inv) {down : List UInt8} (hl : s.link = some l)
    (hlive : l.ended = false) (hsend : l.bridge.send k l.down = some (bridge, down)) :
    Inv { s with link := some { l with bridge := bridge, down := down } } := by
  obtain ⟨⟨bytes, next, hproc⟩, -⟩ := Endpoint.send_eq hsend
  cases hrunning : s.running with
  | none =>
    have hdone := (h.idle_bridge hrunning hl hlive).2
    rw [hproc] at hdone
    cases hdone
  | some call =>
    obtain ⟨hnumber, hunderway⟩ := h.link_eq hrunning hl
    rcases hunderway with ⟨more, hasking⟩ | ⟨o, more, hanswering⟩
    · exact absurd hproc (hasking.not_write hlive)
    · have hmoved := h.move (m := { l with bridge := bridge, down := down }) hl hrunning rfl
        (Endpoint.settled_send hsend) rfl rfl rfl (h.running call hrunning).2.1
        (hanswering.bridgeWrite hlive hsend)
      exact hmoved

/-- An operation that the session performs keeps what is known, and is the running call's. -/
theorem Inv.perform (h : s.Inv) {r : Request} (hl : s.link = some l)
    (hlive : l.ended = false) (hanswer : l.bridge.answer o = some (r, bridge)) :
    (State.record r o { s with link := some { l with bridge := bridge } }).Inv := by
  obtain ⟨next, hproc, hstart⟩ := Endpoint.answer_eq hanswer
  have hsettled : bridge.Settled := by
    rw [hstart]
    exact Endpoint.settled_start _
  cases hrunning : s.running with
  | none =>
    have hdone := (h.idle_bridge hrunning hl hlive).2
    rw [hproc] at hdone
    cases hdone
  | some call =>
    obtain ⟨hnumber, hunderway⟩ := h.link_eq hrunning hl
    rcases hunderway with ⟨more, hasking⟩ | ⟨p, more, hanswering⟩
    · exact h.move hl hrunning rfl hsettled rfl rfl rfl (h.running call hrunning).2.1
        (hasking.perform hlive (h.running call hrunning).2.1 hanswer)
    · have hwrites := (hanswering.writes hlive).1
      rw [hproc] at hwrites
      cases (hwrites.eq_nil nofun).2

/-- A session that goes away takes nothing back. -/
theorem Inv.endSession (h : s.Inv) (hl : s.link = some l) :
    Inv { s with link := some { l with ended := true } } := by
  have hended : ∀ {p : Prop}, (true = false) → p := nofun
  cases hrunning : s.running with
  | none =>
    have hkept := h.toKept.move (m := { l with ended := true }) hl rfl (h.settled l hl) none
    refine ⟨hkept, fun _ m hm => ?_, fun call hcall => ?_⟩
    · cases hm
      have hquiet := h.idle hrunning l hl
      exact ⟨hquiet.up, hquiet.down, hended⟩
    · cases hcall
  | some call =>
    obtain ⟨hnumber, hunderway⟩ := h.link_eq hrunning hl
    have hended' : Underway call { l with ended := true } := by
      rcases hunderway with ⟨more, hasking⟩ | ⟨o, more, hanswering⟩
      · exact .inl ⟨more, hasking.served, hasking.consumed, hasking.down, hasking.writes,
          hasking.got, hended⟩
      · exact .inr ⟨o, more, hanswering.served, hanswering.up, hanswering.reads,
          hanswering.consumed, hended⟩
    have hmoved := h.move (m := { l with ended := true }) hl hrunning rfl (h.settled l hl)
      rfl rfl rfl (h.running call hrunning).2.1 hended'
    exact hmoved

/-- An action whose call the bridge takes. -/
def Allowed : Action → Prop
  | .call c _ => c.Fits
  | _ => True

instance : DecidablePred Allowed := fun a => by
  cases a <;> unfold Allowed <;> infer_instance

/-- Every step keeps what is known. -/
theorem Inv.step {s' : State} {a : Action} (h : s.Inv) (ha : Allowed a)
    (hstep : s.step a = some s') : s'.Inv := by
  cases a with
  | call c reachable =>
    rw [State.step] at hstep
    split at hstep
    · cases hstep
    · next hidle =>
      cases hstep
      exact h.begin (Option.not_isSome_iff_eq_none.mp hidle) ha reachable
  | driverWrite k =>
    rw [State.step] at hstep
    split at hstep
    case h_2 => cases hstep
    case h_1 call l hrunning hl =>
      obtain ⟨⟨driver, up⟩, hsend, rfl⟩ := Option.map_eq_some_iff.mp hstep
      obtain ⟨hnumber, hunderway⟩ := h.link_eq hrunning hl
      obtain ⟨⟨bytes, next, hproc⟩, -⟩ := Endpoint.send_eq hsend
      rcases hunderway with ⟨more, hasking⟩ | ⟨o, more, hanswering⟩
      · exact h.move hl hrunning rfl (h.settled l hl) rfl rfl rfl (Endpoint.settled_send hsend)
          (hasking.driverWrite hsend)
      · exact absurd hproc hanswering.not_write
  | driverRead k =>
    rw [State.step] at hstep
    split at hstep
    case h_2 => cases hstep
    case h_1 call l hrunning hl =>
      obtain ⟨⟨driver, down⟩, hreceive, rfl⟩ := Option.map_eq_some_iff.mp hstep
      obtain ⟨hnumber, hunderway⟩ := h.link_eq hrunning hl
      obtain ⟨hpos, hlen, -⟩ := Endpoint.receive_input hreceive
      rcases hunderway with ⟨more, hasking⟩ | ⟨o, more, hanswering⟩
      · rw [hasking.down, List.length_nil] at hlen
        omega
      · exact h.move hl hrunning rfl (h.settled l hl) rfl rfl rfl
          (Endpoint.settled_receive hreceive (h.running call hrunning).2.1)
          (hanswering.driverRead hreceive)
  | bridgeRead k =>
    rw [State.step] at hstep
    split at hstep
    case h_2 => cases hstep
    case h_1 l hl =>
      split at hstep
      · cases hstep
      · next hlive =>
        obtain ⟨⟨bridge, up⟩, hreceive, rfl⟩ := Option.map_eq_some_iff.mp hstep
        exact h.bridgeRead hl (Bool.eq_false_iff.mpr hlive) hreceive
  | bridgeWrite k =>
    rw [State.step] at hstep
    split at hstep
    case h_2 => cases hstep
    case h_1 l hl =>
      split at hstep
      · cases hstep
      · next hlive =>
        obtain ⟨⟨bridge, down⟩, hsend, rfl⟩ := Option.map_eq_some_iff.mp hstep
        exact h.bridgeWrite hl (Bool.eq_false_iff.mpr hlive) hsend
  | perform o =>
    rw [State.step] at hstep
    split at hstep
    case h_2 => cases hstep
    case h_1 l hl =>
      split at hstep
      · cases hstep
      · next hlive =>
        obtain ⟨⟨r, bridge⟩, hanswer, rfl⟩ := Option.map_eq_some_iff.mp hstep
        exact h.perform hl (Bool.eq_false_iff.mpr hlive) hanswer
  | finish =>
    rw [State.step] at hstep
    split at hstep
    · next call hrunning =>
      obtain ⟨answer, hdone, rfl⟩ := Option.map_eq_some_iff.mp hstep
      exact h.finish hrunning hdone
    · cases hstep
  | fail =>
    obtain ⟨call, hrunning, rfl⟩ := Option.map_eq_some_iff.mp hstep
    exact h.fail hrunning
  | endSession =>
    obtain ⟨l, hl, hend⟩ := Option.bind_eq_some_iff.mp hstep
    split at hend
    · cases hend
    · cases hend
      exact h.endSession hl

/-- While a call is running on a live session, one of the two sides can move. -/
theorem Inv.moves (h : s.Inv)
    (hrunning : s.running = some call) (hl : s.link = some l) (hlive : l.ended = false) :
    ∃ a : Action, a.Moves ∧ (s.step a).isSome := by
  obtain ⟨-, hdriver, -⟩ := h.running call hrunning
  have hbridge := h.settled l hl
  obtain ⟨-, hunderway⟩ := h.link_eq hrunning hl
  rcases hunderway with ⟨more, hasking⟩ | ⟨o, more, hanswering⟩
  · by_cases hmore : more = []
    · have hreads := hasking.reads hlive
      rw [hmore, List.append_nil] at hreads
      by_cases hup : l.up = []
      · -- The request was read in full: its operation is next.
        rw [hup, List.append_nil] at hreads
        have hproc := Endpoint.eq_of_reads_got (Link.settled_resume hbridge) hreads
          nofun
        have hresume : l.resume = l.bridge := by
          refine Link.resume_of_ne fun hdone => ?_
          have hserve : l.resume = .start serve := if_pos (by rw [hdone]; rfl)
          rw [hserve] at hproc
          cases hproc
        refine ⟨.perform ⟨none, none, none⟩, trivial, ?_⟩
        rw [hresume] at hproc
        rw [State.step, hl]
        simp only [hlive, Bool.false_eq_true, if_false, Option.isSome_map, Endpoint.answer, hproc,
          respond, Option.isSome_some]
      · obtain ⟨n, next, hproc⟩ := hreads.exists_read
          (fun hnil => hup (List.append_eq_nil_iff.mp hnil).2)
        have hready := Endpoint.receive_ready (Link.settled_resume hbridge) hproc hup
        refine ⟨.bridgeRead 1, trivial, ?_⟩
        rw [State.step, hl]
        simp only [hlive, Bool.false_eq_true, if_false, Option.isSome_map, hready]
    · obtain ⟨bytes, next, hproc⟩ := hasking.writes.exists_write hmore
      have hready := Endpoint.send_ready hdriver hproc l.up
      refine ⟨.driverWrite 1, trivial, ?_⟩
      rw [State.step, hrunning, hl]
      simp only [Option.isSome_map, hready]
  · by_cases hmore : more = []
    · have hreads := hanswering.reads
      rw [hmore, List.append_nil] at hreads
      by_cases hdown : l.down = []
      · rw [hdown, List.append_nil] at hreads
        have hproc := Endpoint.eq_of_reads_got hdriver hreads nofun
        refine ⟨.finish, trivial, ?_⟩
        rw [State.step, hrunning]
        simp only [Option.isSome_map, hproc, Proc.result, Option.isSome_some]
      · obtain ⟨n, next, hproc⟩ := hreads.exists_read
          (fun hnil => hdown (List.append_eq_nil_iff.mp hnil).2)
        have hready := Endpoint.receive_ready hdriver hproc hdown
        refine ⟨.driverRead 1, trivial, ?_⟩
        rw [State.step, hrunning, hl]
        simp only [Option.isSome_map, hready]
    · obtain ⟨bytes, next, hproc⟩ := (hanswering.writes hlive).1.exists_write hmore
      have hready := Endpoint.send_ready hbridge hproc l.down
      refine ⟨.bridgeWrite 1, trivial, ?_⟩
      rw [State.step, hl]
      simp only [hlive, Bool.false_eq_true, if_false, Option.isSome_map, hready]

/-- What is known keeps both ends in step. -/
theorem Inv.lockstep (h : s.Inv) : s.Lockstep :=
  ⟨h.strays, h.idle, h.log, h.apart, fun _ hcall _ hl hlive => h.moves hcall hl hlive⟩

/-- Whatever is called, however the bytes of either direction are cut, whatever the operations of
the bridge come to and whichever calls fail, the driver and the bridge stay in step, as long as
the bridge takes the commands. -/
theorem stays_in_step {acts : List Action} {t : State} (hallowed : ∀ a ∈ acts, Allowed a)
    (hrun : run State.step State.new acts = some t) : t.Lockstep := by
  have hmeets : Meets State.step (fun _ a => Allowed a) State.new acts :=
    meets_of_forall hallowed State.new
  exact (run_invariant State.Inv (fun _ _ _ hinv ha hstep => hinv.step ha hstep) Inv.new hmeets
    hrun).lockstep

/-- A power-up in pieces, a command that times out halfway through its reply, a poll. -/
def pollAfterTimeout : List Action :=
  [.call (.powerIcc ifdPowerUp true true) true, .driverWrite 1, .bridgeRead 1,
    .perform ⟨none, some [0x3B, 0x02], none⟩, .bridgeWrite 1, .bridgeWrite 1, .driverRead 1,
    .bridgeWrite 1, .driverRead 1, .driverRead 1, .bridgeWrite 1, .driverRead 1, .finish,
    .call (.transmitToIcc (some [0x00, 0xA4]) true (some 2)) true, .driverWrite 3, .bridgeRead 1,
    .bridgeRead 2, .driverWrite 8, .bridgeRead 2, .bridgeRead 2, .bridgeRead 4,
    .perform ⟨none, none, some [0x90, 0x00]⟩, .bridgeWrite 1, .bridgeWrite 4, .driverRead 1, .fail,
    .call .iccPresence true, .driverWrite 1, .bridgeRead 1, .perform ⟨some true, none, none⟩,
    .bridgeWrite 1, .driverRead 1, .finish]

/-- The poll is answered on a connection of its own. -/
theorem stays_in_step_pollAfterTimeout :
    ∃ t, run State.step State.new pollAfterTimeout = some t ∧
      t.log.map (fun e => (e.conn, e.consumed, e.returned.code)) =
        [(some 0, [0, 2, 0x3B, 0x02], ifdSuccess), (some 0, [0], ifdCommunicationError),
          (some 1, [1], ifdIccPresent)] ∧
      t.Lockstep := by
  have hrun : (run State.step State.new pollAfterTimeout).map (fun t =>
      t.log.map fun e => (e.conn, e.consumed, e.returned.code)) =
      some [(some 0, [0, 2, 0x3B, 0x02], ifdSuccess), (some 0, [0], ifdCommunicationError),
        (some 1, [1], ifdIccPresent)] := by
    decide +kernel
  obtain ⟨t, ht, hlog⟩ := Option.map_eq_some_iff.mp hrun
  exact ⟨t, ht, hlog, stays_in_step (by decide) ht⟩

end State

end Macrdp.SmartcardReader
