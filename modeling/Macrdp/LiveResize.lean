import Macrdp.StepSystem
import Macrdp.SessionSize

/-!
# Live resizes of a session

The client asks for a new size with a monitor layout, once for every step of a window drag. The
handler of these publishes the size and then the time of the request; the capture loop takes a
request whose time is long enough past, reads the size, and makes it the desktop size, against which
the handler compares the next request. Each access of a shared cell is a step, and the two sides
interleave in any order.
-/

namespace Macrdp.LiveResize

open StepSystem SessionSize

/-- How long a request has to rest, in milliseconds. -/
def resizeDebounce : ℕ := 400

/-! ## The handler of the layouts -/

/-- A monitor of a layout. -/
structure Monitor where
  isPrimary : Bool
  width : UInt32
  height : UInt32
  deriving DecidableEq, Repr

/-- A width or height, if it fits. -/
def tryFrom (v : UInt32) : Option UInt16 := if v ≤ 0xFFFF then some v.toUInt16 else none

/-- The size that a layout asks for, within the operator's bound: that of the primary monitor, or
else of the first. -/
def layoutSize (maxClientSize : Option DesktopSize) (monitors : List Monitor) :
    Option DesktopSize := do
  let monitor ← (monitors.find? Monitor.isPrimary).or monitors.head?
  let width ← tryFrom monitor.width
  let height ← tryFrom monitor.height
  match maxClientSize with
  | some bound => some ⟨min width bound.width, min height bound.height⟩
  | none => some ⟨width, height⟩

/-- The size that a layout requests, if it is legal and not the current one. -/
def requestLayout (resizable : Bool) (maxClientSize : Option DesktopSize) (current : DesktopSize)
    (monitors : List Monitor) : Option DesktopSize :=
  if resizable = true then
    (layoutSize maxClientSize monitors).bind fun size => adoptClientSize resizable current size
  else none

/-- The legal size that a layout asks for. -/
def inBandSize (maxClientSize : Option DesktopSize) (monitors : List Monitor) :
    Option DesktopSize :=
  (layoutSize maxClientSize monitors).filter fun size => InBand size

/-- A layout requests the legal size that it asks for, unless it is the current one. -/
theorem requestLayout_eq (maxClientSize : Option DesktopSize) (current : DesktopSize)
    (monitors : List Monitor) :
    requestLayout true maxClientSize current monitors =
      (inBandSize maxClientSize monitors).filter fun size => size ≠ current := by
  rw [requestLayout, if_pos rfl, inBandSize]
  cases layoutSize maxClientSize monitors with
  | none => rfl
  | some size =>
    simp only [Option.bind_some, adoptClientSize, true_and]
    by_cases hband : InBand size
    · by_cases hsame : size = current
      · subst hsame
        simp [hband, Option.filter_some]
      · simp [hband, hsame, Option.filter_some]
    · simp [hband, Option.filter_some]

/-! ## The two sides -/

/-- Where the handler of a layout is. -/
inductive Handler where
  | idle
  /-- It has compared the size with the desktop and will publish it. -/
  | checked (size : DesktopSize)
  /-- It has stored the size. -/
  | stored
  deriving DecidableEq, Repr

/-- Where the capture loop is. -/
inductive Loop where
  | idle
  /-- It has loaded the time of a request. -/
  | loaded (lastMs : ℕ)
  /-- The request is old enough. -/
  | settled (lastMs : ℕ)
  /-- It has taken the request. -/
  | consumed
  /-- It has read the size. -/
  | taken (size : DesktopSize)
  deriving DecidableEq, Repr

/-- What happened so far, as the property tells it. -/
structure History where
  /-- Last legal size that the client asked for. -/
  asked : DesktopSize
  /-- Last size that was requested of the loop. -/
  requested : DesktopSize
  /-- When its store began. -/
  requestedAt : ℕ
  /-- How many bursts of requests there were. -/
  burst : ℕ
  /-- The burst of the last resize. -/
  resizedBurst : ℕ
  /-- Time of the last step of a layout. -/
  handledAt : ℕ
  /-- The present poll began once no layout had come for longer than the debounce. -/
  late : Bool
  /-- Such a poll has ended, and no layout came since. -/
  polled : Bool
  deriving DecidableEq

/-- The shared cells, the two sides and the clock. -/
structure Session where
  /-- Packed size of the last request. -/
  size : UInt32
  /-- Time of the last request, `0` if none is pending. -/
  lastUpdateMs : ℕ
  /-- Packed desktop size. -/
  desktop : UInt32
  handler : Handler
  loop : Loop
  nowMs : ℕ
  history : History
  deriving DecidableEq

/-- A step of one side, or of the clock. -/
inductive Action where
  | tick (nowMs : ℕ)
  /-- A layout arrives, and its size is compared with the desktop. -/
  | layout (monitors : List Monitor)
  | storeSize
  | storeTime
  /-- The loop loads the time of the last request. -/
  | loadTime
  | checkAge
  | exchange
  | loadSize
  | storeDesktop
  deriving DecidableEq, Repr

namespace History

/-- A step of the handler. -/
def handled (h : History) (nowMs : ℕ) : History :=
  { h with handledAt := nowMs, late := false, polled := false }

/-- The client asks for a size. -/
def ask (h : History) (size : Option DesktopSize) : History :=
  { h with asked := size.getD h.asked }

/-- A request begins; it continues a burst if the last one is more recent than the debounce. -/
def request (h : History) (size : DesktopSize) (nowMs : ℕ) : History :=
  { h with
    requested := size
    requestedAt := nowMs
    burst := if h.burst = 0 ∨ h.requestedAt + resizeDebounce ≤ nowMs then h.burst + 1
      else h.burst }

/-- A poll ends. -/
def endPoll (h : History) : History := { h with polled := h.late }

end History

namespace Session

/-- The poll ends without a resize. -/
def endPoll (s : Session) : Session := { s with loop := .idle, history := s.history.endPoll }

/-- One step; `none` if it cannot happen. -/
def step (maxClientSize : Option DesktopSize) (s : Session) : Action → Option Session
  | .tick nowMs => if s.nowMs ≤ nowMs then some { s with nowMs := nowMs } else none
  | .layout monitors =>
    if s.handler = .idle then
      let history := (s.history.handled s.nowMs).ask (inBandSize maxClientSize monitors)
      match requestLayout true maxClientSize (unpackSize s.desktop) monitors with
      | some adopted => some { s with handler := .checked adopted, history := history }
      | none => some { s with history := history }
    else none
  | .storeSize =>
    match s.handler with
    | .checked size => some { s with
        size := packSize size.width size.height
        handler := .stored
        history := (s.history.handled s.nowMs).request size s.nowMs }
    | _ => none
  | .storeTime =>
    if s.handler = .stored then
      some { s with
        lastUpdateMs := max s.nowMs 1
        handler := .idle
        history := s.history.handled s.nowMs }
    else none
  | .loadTime =>
    if s.loop = .idle then
      let history := { s.history with
        late := decide (s.handler = .idle ∧ s.history.handledAt + resizeDebounce < s.nowMs) }
      if s.lastUpdateMs = 0 then some { s with history := history.endPoll }
      else some { s with loop := .loaded s.lastUpdateMs, history := history }
    else none
  | .checkAge =>
    match s.loop with
    | .loaded lastMs =>
      if s.nowMs - lastMs < resizeDebounce then some s.endPoll
      else some { s with loop := .settled lastMs }
    | _ => none
  | .exchange =>
    match s.loop with
    | .settled lastMs =>
      if s.lastUpdateMs = lastMs then some { s with lastUpdateMs := 0, loop := .consumed }
      else some s.endPoll
    | _ => none
  | .loadSize =>
    if s.loop = .consumed then
      some { s with
        loop := .taken (unpackSize s.size)
        history := { s.history with resizedBurst := s.history.burst } }
    else none
  | .storeDesktop =>
    match s.loop with
    | .taken size => some { s with
        desktop := packSize size.width size.height
        loop := .idle
        history := s.history.endPoll }
    | _ => none

/-- A session at a size, before any layout. -/
def start (desktop : DesktopSize) : Session where
  size := 0
  lastUpdateMs := 0
  desktop := packSize desktop.width desktop.height
  handler := .idle
  loop := .idle
  nowMs := 0
  history := ⟨desktop, desktop, 0, 0, 0, 0, false, false⟩

/-- The size that the session comes to if no more layouts arrive. -/
def target (s : Session) : DesktopSize :=
  if s.lastUpdateMs ≠ 0 then unpackSize s.size
  else
    match s.loop with
    | .consumed => unpackSize s.size
    | .taken size => size
    | _ => unpackSize s.desktop

/-- A layout that asks for the current size does so while the session stays at it, and the loop
takes no request whose size was stored after its time. -/
def orderly (maxClientSize : Option DesktopSize) (s : Session) : Action → Bool
  | .layout monitors =>
    match inBandSize maxClientSize monitors with
    | some size => size ≠ unpackSize s.desktop || s.target = size
    | none => true
  | .exchange => s.handler ≠ .stored || s.loop ≠ .settled s.lastUpdateMs
  | .storeSize => s.loop ≠ .consumed
  | _ => true

/-- What the loop takes is the last request, has rested, and is the first of its burst; it is what
the client asked for last, unless a further layout is being handled. -/
def TakesLast (s : Session) (a : Action) : Prop :=
  a = .loadSize → s.loop = .consumed →
    unpackSize s.size = s.history.requested ∧
    s.history.requestedAt + resizeDebounce ≤ s.nowMs ∧
    s.history.resizedBurst < s.history.burst ∧
    (s.handler = .idle → unpackSize s.size = s.history.asked)

/-- Once no layout has come for longer than the debounce and the loop has polled, the desktop has
the size that the client asked for last. -/
def Converged (s : Session) : Prop :=
  s.history.polled = true → unpackSize s.desktop = s.history.asked

/-- What ties the cells, the two sides and the history together in an orderly run. -/
structure Coherent (s : Session) : Prop where
  /-- Without a layout in hand the session comes to what the client asked for. -/
  askedIdle : s.handler = .idle → s.target = s.history.asked
  askedChecked : ∀ size, s.handler = .checked size → size = s.history.asked
  askedStored : s.handler = .stored → unpackSize s.size = s.history.asked
  /-- The size is that of the last request, if there was one. -/
  requested : s.history.burst ≠ 0 → unpackSize s.size = s.history.requested
  requestedPast : s.history.requestedAt ≤ s.nowMs
  handledPast : s.history.handledAt ≤ s.nowMs
  stamped : s.lastUpdateMs ≤ max s.history.handledAt 1
  /-- A request that is published in full is not older than its time says. -/
  published : s.handler ≠ .stored → s.lastUpdateMs ≠ 0 → s.history.requestedAt ≤ s.lastUpdateMs
  resizedLe : s.history.resizedBurst ≤ s.history.burst
  /-- A burst that was resized for has come to rest. -/
  rested : s.history.resizedBurst = s.history.burst →
    s.history.burst = 0 ∨ s.history.requestedAt + resizeDebounce ≤ s.nowMs
  /-- A request that is pending, or that is being published, is of a new burst. -/
  pending : s.lastUpdateMs ≠ 0 ∨ s.handler = .stored →
    s.history.resizedBurst < s.history.burst
  loaded : ∀ lastMs, s.loop = .loaded lastMs → lastMs ≠ 0
  settled : ∀ lastMs, s.loop = .settled lastMs →
    lastMs ≠ 0 ∧ lastMs + resizeDebounce ≤ s.nowMs
  consumed : s.loop = .consumed → s.lastUpdateMs = 0 ∧ s.handler ≠ .stored ∧
    s.history.requestedAt + resizeDebounce ≤ s.nowMs ∧ s.history.resizedBurst < s.history.burst
  /-- A late poll sees no layout. -/
  late : s.history.late = true → s.handler = .idle ∧
    s.history.handledAt + resizeDebounce < s.nowMs ∧
    (∀ lastMs, s.loop = .loaded lastMs ∨ s.loop = .settled lastMs → s.lastUpdateMs = lastMs) ∧
    (∀ size, s.loop = .taken size → s.lastUpdateMs = 0)
  polled : s.history.polled = true → s.handler = .idle ∧ s.lastUpdateMs = 0 ∧ s.loop = .idle

/-- A new session is coherent. -/
theorem coherent_start (desktop : DesktopSize) : Coherent (start desktop) := by
  constructor <;> simp [start, target]

variable {s s' : Session}

/-- A poll that ends without a resize. -/
theorem coherent_endPoll (h : Coherent s)
    (hloop : s.lastUpdateMs = 0 → s.loop ≠ .consumed ∧ ∀ size, s.loop ≠ .taken size)
    (hlate : s.history.late = true → s.lastUpdateMs = 0 ∧ s.loop = .idle) : Coherent s.endPoll := by
  have htarget : s.endPoll.target = s.target := by
    by_cases hnone : s.lastUpdateMs = 0
    · obtain ⟨hconsumed, htaken⟩ := hloop hnone
      cases hat : s.loop with
      | consumed => exact absurd hat hconsumed
      | taken size => exact absurd hat (htaken size)
      | _ => simp [target, endPoll, hnone, hat]
    · simp only [target, endPoll, ne_eq, hnone, not_false_eq_true, if_true]
  exact { h with
    askedIdle := fun hidle => htarget.trans (h.askedIdle hidle)
    loaded := nofun
    settled := nofun
    consumed := nofun
    late := fun hlate' => by
      obtain ⟨hidle, hhandled, -, -⟩ := h.late hlate'
      refine ⟨hidle, hhandled, fun _ hat => ?_, fun _ hat => ?_⟩
      · rcases hat with hat | hat <;> cases hat
      · cases hat
    polled := fun hpolled => ⟨(h.late hpolled).1, (hlate hpolled).1, rfl⟩ }

/-- The clock. -/
theorem coherent_tick (h : Coherent s) {nowMs : ℕ} (hle : s.nowMs ≤ nowMs) :
    Coherent { s with nowMs := nowMs } :=
  { h with
    requestedPast := h.requestedPast.trans hle
    handledPast := h.handledPast.trans hle
    rested := fun heq => (h.rested heq).imp_right fun hrest => hrest.trans hle
    settled := fun lastMs hat => ⟨(h.settled lastMs hat).1, (h.settled lastMs hat).2.trans hle⟩
    consumed := fun hat => by
      obtain ⟨hnone, hstored, hrest, hburst⟩ := h.consumed hat
      exact ⟨hnone, hstored, hrest.trans hle, hburst⟩
    late := fun hlate => by
      obtain ⟨hidle, hhandled, hsame, htaken⟩ := h.late hlate
      exact ⟨hidle, hhandled.trans_le hle, hsame, htaken⟩ }

variable {maxClientSize : Option DesktopSize}

/-- A layout that asks for the current size is ignored; in an orderly run the session stays at it
anyway. -/
theorem coherent_layout {monitors : List Monitor} (h : Coherent s)
    (ha : orderly maxClientSize s (.layout monitors) = true)
    (hstep : step maxClientSize s (.layout monitors) = some s') : Coherent s' := by
  obtain ⟨hidle, heq⟩ := Option.ite_none_right_eq_some.mp hstep
  have hstamped : s.lastUpdateMs ≤ max s.nowMs 1 := by
    have hpast := h.handledPast
    have hstamp := h.stamped
    omega
  rw [requestLayout_eq] at heq
  cases hsize : inBandSize maxClientSize monitors with
  | none =>
    -- the client asked for nothing, and the session still comes to what it asked for before
    simp only [hsize, Option.filter_none, Option.some.injEq] at heq
    subst heq
    exact { h with
      handledPast := Nat.le_refl s.nowMs
      stamped := hstamped
      late := nofun
      polled := nofun }
  | some size =>
    by_cases hsame : size = unpackSize s.desktop
    · have htarget : s.target = size := by simpa [orderly, hsize, hsame] using ha
      simp only [hsize, Option.filter_some, ← hsame, ne_eq, not_true_eq_false, decide_false,
        Bool.false_eq_true, if_false, Option.some.injEq] at heq
      subst heq
      exact { h with
        askedIdle := fun _ => htarget
        askedChecked := fun _ hchecked => by
          rw [hidle] at hchecked
          cases hchecked
        askedStored := fun hstored => by
          rw [hidle] at hstored
          cases hstored
        handledPast := Nat.le_refl s.nowMs
        stamped := hstamped
        late := nofun
        polled := nofun }
    · simp only [hsize, Option.filter_some, hsame, ne_eq, not_false_eq_true, decide_true,
        if_true, Option.some.injEq] at heq
      subst heq
      have hstored : s.handler ≠ .stored := by simp [hidle]
      exact { h with
        askedIdle := nofun
        askedChecked := fun _ hchecked => by cases hchecked; rfl
        askedStored := nofun
        handledPast := Nat.le_refl s.nowMs
        stamped := hstamped
        published := fun _ => h.published hstored
        pending := fun hpending => h.pending (hpending.imp_right nofun)
        consumed := fun hat => by
          obtain ⟨hnone, -, hrest⟩ := h.consumed hat
          exact ⟨hnone, nofun, hrest⟩
        late := nofun
        polled := nofun }

/-- The size of a new request: it is of a new burst if the last one came to rest. -/
theorem coherent_storeSize (h : Coherent s) (ha : orderly maxClientSize s .storeSize = true)
    (hstep : step maxClientSize s .storeSize = some s') : Coherent s' := by
  have hloop : s.loop ≠ .consumed := by simpa [orderly] using ha
  simp only [step] at hstep
  split at hstep
  · next size hchecked =>
    cases hstep
    have hasked := h.askedChecked size hchecked
    have hunpacked : unpackSize (packSize size.width size.height) = size :=
      unpackSize_packSize size.width size.height
    have hpast := h.handledPast
    have hstamp := h.stamped
    have hle := h.resizedLe
    have hburst : s.history.resizedBurst <
        if s.history.burst = 0 ∨ s.history.requestedAt + resizeDebounce ≤ s.nowMs then
          s.history.burst + 1
        else s.history.burst := by
      split
      · omega
      · next hrecent =>
        have hne : s.history.resizedBurst ≠ s.history.burst := fun heq =>
          hrecent (h.rested heq)
        omega
    exact { h with
      askedIdle := nofun
      askedChecked := nofun
      askedStored := fun _ => hunpacked.trans hasked
      requested := fun _ => hunpacked
      requestedPast := Nat.le_refl s.nowMs
      handledPast := Nat.le_refl s.nowMs
      stamped := by
        change s.lastUpdateMs ≤ max s.nowMs 1
        omega
      published := fun hstored => absurd rfl hstored
      resizedLe := Nat.le_of_lt hburst
      rested := fun heq => absurd heq (Nat.ne_of_lt hburst)
      pending := fun _ => hburst
      consumed := fun hat => absurd hat hloop
      late := nofun
      polled := nofun }
  · cases hstep

/-- The time of a request, which publishes it. -/
theorem coherent_storeTime
    (h : Coherent s) (hstep : step maxClientSize s .storeTime = some s') : Coherent s' := by
  obtain ⟨hstored, heq⟩ := Option.ite_none_right_eq_some.mp hstep
  cases heq
  have htime : max s.nowMs 1 ≠ 0 := by omega
  have hsize := h.askedStored hstored
  have hrequested := h.requestedPast
  exact { h with
    askedIdle := fun _ => by
      rw [target, if_pos htime]
      exact hsize
    askedChecked := nofun
    askedStored := nofun
    handledPast := Nat.le_refl s.nowMs
    stamped := Nat.le_refl _
    published := fun _ _ => by
      change s.history.requestedAt ≤ max s.nowMs 1
      omega
    pending := fun _ => h.pending (Or.inr hstored)
    consumed := fun hat => absurd hstored (h.consumed hat).2.1
    late := nofun
    polled := nofun }

/-- The beginning of a poll. -/
theorem coherent_loadTime
    (h : Coherent s) (hstep : step maxClientSize s .loadTime = some s') : Coherent s' := by
  obtain ⟨hloop, heq⟩ := Option.ite_none_right_eq_some.mp hstep
  split at heq
  · next hnone =>
    cases heq
    exact { h with
      late := fun hlate => by
        obtain ⟨hidle, hhandled⟩ := of_decide_eq_true hlate
        refine ⟨hidle, hhandled, fun _ hat => ?_, fun _ hat => ?_⟩
        · rcases hat with hat | hat <;> cases hloop.symm.trans hat
        · cases hloop.symm.trans hat
      polled := fun hpolled => ⟨(of_decide_eq_true hpolled).1, hnone, hloop⟩ }
  · next hsome =>
    cases heq
    have htarget : s.target = unpackSize s.size := by rw [target, if_pos hsome]
    exact { h with
      askedIdle := fun hidle => by
        rw [target, if_pos hsome, ← htarget]
        exact h.askedIdle hidle
      loaded := fun _ hat => by cases hat; exact hsome
      settled := nofun
      consumed := nofun
      late := fun hlate => by
        obtain ⟨hidle, hhandled⟩ := of_decide_eq_true hlate
        refine ⟨hidle, hhandled, fun _ hat => ?_, fun _ hat => ?_⟩
        · rcases hat with hat | hat <;> cases hat
          rfl
        · cases hat
      polled := fun hpolled => absurd (h.polled hpolled).2.1 hsome }

/-- A late poll does not find the request too young, as it was stored no later than the last step
of a layout. -/
theorem coherent_checkAge
    (h : Coherent s) (hstep : step maxClientSize s .checkAge = some s') : Coherent s' := by
  simp only [step] at hstep
  split at hstep
  · next lastMs hloaded =>
    have hsome := h.loaded lastMs hloaded
    have hnotTaken : s.loop ≠ .consumed ∧ ∀ size, s.loop ≠ .taken size := by simp [hloaded]
    split at hstep
    · next hyoung =>
      cases hstep
      refine coherent_endPoll h (fun _ => hnotTaken) fun hlate => ?_
      obtain ⟨-, hhandled, hsame, -⟩ := h.late hlate
      have hstamp := h.stamped
      rw [hsame lastMs (Or.inl hloaded)] at hstamp
      omega
    · next hold =>
      cases hstep
      have hpositive : 0 < resizeDebounce := by decide
      have hrest : lastMs + resizeDebounce ≤ s.nowMs := by omega
      have htarget : { s with loop := .settled lastMs }.target = s.target := by
        simp only [target, hloaded]
      exact { h with
        askedIdle := fun hidle => htarget.trans (h.askedIdle hidle)
        loaded := nofun
        settled := fun _ hat => by
          cases hat
          exact ⟨hsome, hrest⟩
        consumed := nofun
        late := fun hlate => by
          obtain ⟨hidle, hhandled, hsame, -⟩ := h.late hlate
          refine ⟨hidle, hhandled, fun _ hat => ?_, fun _ hat => ?_⟩
          · rcases hat with hat | hat <;> cases hat
            exact hsame lastMs (Or.inl hloaded)
          · cases hat
        polled := fun hpolled => by cases hloaded.symm.trans (h.polled hpolled).2.2 }
  · cases hstep

/-- The request that the loop takes is published in full, so it is as old as its time says. -/
theorem coherent_exchange (h : Coherent s) (ha : orderly maxClientSize s .exchange = true)
    (hstep : step maxClientSize s .exchange = some s') : Coherent s' := by
  simp only [step] at hstep
  split at hstep
  · next lastMs hsettled =>
    obtain ⟨hsome, hage⟩ := h.settled lastMs hsettled
    split at hstep
    · next hsame =>
      cases hstep
      have hne : s.lastUpdateMs ≠ 0 := hsame ▸ hsome
      have hstored : s.handler ≠ .stored := by simpa [orderly, hsettled, hsame] using ha
      have hpublished := h.published hstored hne
      have hpending := h.pending (Or.inl hne)
      have hrest : s.history.requestedAt + resizeDebounce ≤ s.nowMs := by omega
      have htarget : s.target = unpackSize s.size := by rw [target, if_pos hne]
      exact { h with
        askedIdle := fun hidle => by
          have hasked := h.askedIdle hidle
          rw [htarget] at hasked
          rw [target, if_neg (fun hzero => hzero rfl)]
          exact hasked
        stamped := Nat.zero_le _
        published := fun _ hzero => absurd rfl hzero
        pending := fun hat => hat.elim (fun hzero => absurd rfl hzero) fun hat => absurd hat hstored
        loaded := nofun
        settled := nofun
        consumed := fun _ => ⟨rfl, hstored, hrest, hpending⟩
        late := fun hlate => by
          obtain ⟨hidle, hhandled, -, -⟩ := h.late hlate
          refine ⟨hidle, hhandled, fun _ hat => ?_, fun _ _ => rfl⟩
          rcases hat with hat | hat <;> cases hat
        polled := fun hpolled => absurd (h.polled hpolled).2.1 hne }
    · next hother =>
      cases hstep
      refine coherent_endPoll h (fun _ => by simp [hsettled]) fun hlate => ?_
      obtain ⟨-, -, hsame, -⟩ := h.late hlate
      exact absurd (hsame lastMs (Or.inr hsettled)) hother
  · cases hstep

/-- The size of the request that the loop takes. -/
theorem coherent_loadSize
    (h : Coherent s) (hstep : step maxClientSize s .loadSize = some s') : Coherent s' := by
  obtain ⟨hconsumed, heq⟩ := Option.ite_none_right_eq_some.mp hstep
  cases heq
  obtain ⟨hnone, hstored, hrest, -⟩ := h.consumed hconsumed
  have htarget : s.target = unpackSize s.size := by simp [target, hnone, hconsumed]
  exact { h with
    askedIdle := fun hidle => by
      have hasked := h.askedIdle hidle
      rw [htarget] at hasked
      rw [target, if_neg (fun hsome => hsome hnone)]
      exact hasked
    resizedLe := Nat.le_refl _
    rested := fun _ => Or.inr hrest
    pending := fun hat => hat.elim (fun hsome => absurd hnone hsome) fun hat => absurd hat hstored
    loaded := nofun
    settled := nofun
    consumed := nofun
    late := fun hlate => by
      obtain ⟨hidle, hhandled, -, -⟩ := h.late hlate
      refine ⟨hidle, hhandled, fun _ hat => ?_, fun _ _ => hnone⟩
      rcases hat with hat | hat <;> cases hat
    polled := fun hpolled => by cases hconsumed.symm.trans (h.polled hpolled).2.2 }

/-- The desktop size of the request that the loop took. -/
theorem coherent_storeDesktop
    (h : Coherent s) (hstep : step maxClientSize s .storeDesktop = some s') : Coherent s' := by
  simp only [step] at hstep
  split at hstep
  · next size htaken =>
    cases hstep
    have hunpacked : unpackSize (packSize size.width size.height) = size :=
      unpackSize_packSize size.width size.height
    have htarget : Session.target { s with
        desktop := packSize size.width size.height
        loop := .idle
        history := s.history.endPoll } = s.target := by
      by_cases hnone : s.lastUpdateMs = 0
      · simp only [target, hnone, htaken, ne_eq, not_true_eq_false, if_false]
        exact hunpacked
      · simp only [target, ne_eq, hnone, not_false_eq_true, if_true]
    exact { h with
      askedIdle := fun hidle => htarget.trans (h.askedIdle hidle)
      loaded := nofun
      settled := nofun
      consumed := nofun
      late := fun hlate => by
        obtain ⟨hidle, hhandled, -, -⟩ := h.late hlate
        refine ⟨hidle, hhandled, fun _ hat => ?_, fun _ hat => ?_⟩
        · rcases hat with hat | hat <;> cases hat
        · cases hat
      polled := fun hpolled => by
        obtain ⟨hidle, -, -, hnone⟩ := h.late hpolled
        exact ⟨hidle, hnone size htaken, rfl⟩ }
  · cases hstep

/-- An orderly step keeps a session coherent. -/
theorem coherent_step {a : Action} (h : Coherent s) (ha : orderly maxClientSize s a = true)
    (hstep : step maxClientSize s a = some s') : Coherent s' := by
  cases a with
  | tick nowMs =>
    obtain ⟨hle, heq⟩ := Option.ite_none_right_eq_some.mp hstep
    cases heq
    exact coherent_tick h hle
  | layout monitors => exact coherent_layout h ha hstep
  | storeSize => exact coherent_storeSize h ha hstep
  | storeTime => exact coherent_storeTime h hstep
  | loadTime => exact coherent_loadTime h hstep
  | checkAge => exact coherent_checkAge h hstep
  | exchange => exact coherent_exchange h ha hstep
  | loadSize => exact coherent_loadSize h hstep
  | storeDesktop => exact coherent_storeDesktop h hstep

/-- What the loop of a coherent session takes is the last request. -/
theorem takesLast_of_coherent (h : Coherent s) (a : Action) : TakesLast s a := by
  intro _ hloop
  obtain ⟨hnone, _, hage, hburst⟩ := h.consumed hloop
  have hne : s.history.burst ≠ 0 := by omega
  have htarget : s.target = unpackSize s.size := by simp [target, hnone, hloop]
  exact ⟨h.requested hne, hage, hburst, fun hidle => htarget ▸ h.askedIdle hidle⟩

/-- A coherent session has converged once a late poll has ended. -/
theorem converged_of_coherent (h : Coherent s) : Converged s := by
  intro hpolled
  obtain ⟨hidle, hnone, hloop⟩ := h.polled hpolled
  have htarget : s.target = unpackSize s.desktop := by simp [target, hnone, hloop]
  exact htarget ▸ h.askedIdle hidle

/-- In every run whose layouts ask for the current size only while the session stays at it, and
whose requests are published undivided, the loop takes the last request, rested and once for a
burst, and the session converges to what the client asked for last. -/
theorem resize_converges (maxClientSize : Option DesktopSize) (desktop : DesktopSize)
    (acts : List Action)
    (horderly : Meets (step maxClientSize) (fun s a => orderly maxClientSize s a = true)
      (start desktop) acts) :
    Meets (step maxClientSize) (fun s a => TakesLast s a ∧ Converged s) (start desktop) acts ∧
      ∀ s, run (step maxClientSize) (start desktop) acts = some s → Converged s := by
  have hstart := coherent_start desktop
  constructor
  · exact horderly.of_invariant Coherent
      (fun _ _ _ hcoherent ha hstep => coherent_step hcoherent ha hstep)
      (fun _ _ hcoherent _ =>
        ⟨takesLast_of_coherent hcoherent _, converged_of_coherent hcoherent⟩) hstart
  · intro s hrun
    exact converged_of_coherent (run_invariant Coherent
      (fun _ _ _ hcoherent ha hstep => coherent_step hcoherent ha hstep) hstart horderly hrun)

/-- A window is dragged out in two steps, and the last of them is taken. -/
theorem resize_converges_drag :
    ∃ s, run (step none) (start ⟨1024, 768⟩)
        [.layout [⟨true, 1100, 800⟩], .storeSize, .storeTime, .tick 90, .loadTime, .checkAge,
          .layout [⟨true, 1200, 900⟩], .storeSize, .storeTime, .tick 500, .loadTime, .checkAge,
          .exchange, .loadSize, .storeDesktop] = some s ∧
      s.history.polled = true ∧ unpackSize s.desktop = s.history.asked := by
  have hresult : (run (step none) (start ⟨1024, 768⟩)
      [.layout [⟨true, 1100, 800⟩], .storeSize, .storeTime, .tick 90, .loadTime, .checkAge,
        .layout [⟨true, 1200, 900⟩], .storeSize, .storeTime, .tick 500, .loadTime, .checkAge,
        .exchange, .loadSize, .storeDesktop]).any (fun s => s.history.polled) = true := by
    decide +kernel
  obtain ⟨s, hrun, hpolled⟩ := (Option.any_eq_true _ _).mp hresult
  have hconverged := (resize_converges none ⟨1024, 768⟩ _
    (meetsBool_iff.mp (by decide +kernel))).2 s hrun
  exact ⟨s, hrun, hpolled, hconverged hpolled⟩

/-- A window is dragged out and back at once: the way back asks for the size that the session still
has and is ignored, so the session goes to the size of the way out and stays there. -/
theorem not_resize_converges_back :
    ¬∀ (maxClientSize : Option DesktopSize) (desktop : DesktopSize) (acts : List Action),
      Meets (step maxClientSize) (fun s a => TakesLast s a ∧ Converged s) (start desktop) acts ∧
        ∀ s, run (step maxClientSize) (start desktop) acts = some s → Converged s := by
  intro h
  have hresult : (run (step none) (start ⟨1024, 768⟩)
      [.layout [⟨true, 1100, 800⟩], .storeSize, .storeTime, .tick 90,
        .layout [⟨true, 1024, 768⟩], .tick 500, .loadTime, .checkAge, .exchange, .loadSize,
        .storeDesktop]).any (fun s => s.history.polled ∧
          unpackSize s.desktop ≠ s.history.asked) = true := by
    decide +kernel
  obtain ⟨s, hrun, hfacts⟩ := (Option.any_eq_true _ _).mp hresult
  obtain ⟨hpolled, hother⟩ := of_decide_eq_true hfacts
  exact hother ((h none ⟨1024, 768⟩ _).2 s hrun hpolled)

end Session

end Macrdp.LiveResize
