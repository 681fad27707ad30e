import Macrdp.SocketWriter

/-!
# What reaches the wire

Whoever writes heads the line of the mutex, and the flag is up exactly while an audio
wave is in line. So one buffer is on its way at a time, and only a step that ends
the stream, or one that completes its buffer, takes it away.
-/

namespace Macrdp.SocketWriter

open StepSystem

variable {w w' : SharedWriter} {s s' : System} {t : Task} {buf : List UInt8}

/-- How the tasks, the line of the mutex and the flag hang together. -/
structure Coherent (w : SharedWriter) : Prop where
  nodup : w.line.Nodup
  mem_line : ∀ t, t ∈ w.line ↔ (w.tasks t).inLine = true
  head : ∀ t c, (w.tasks t).current? = some c → w.line.head? = some t
  flag : w.audioWaiting = w.audioWaits
  audio : ∀ buf, w.tasks .audio ≠ .yielding buf

theorem coherent_new : Coherent .new where
  nodup := by simp [SharedWriter.new]
  mem_line := by simp [SharedWriter.new, WriteState.inLine]
  head := by simp [SharedWriter.new, WriteState.current?]
  flag := rfl
  audio := by simp [SharedWriter.new]

/-- Writes that are dropped leave the flag down. -/
theorem Coherent.drop (h : Coherent w) : Coherent w.drop where
  nodup := List.nodup_nil
  mem_line := by simp [SharedWriter.drop, WriteState.inLine]
  head := by simp [SharedWriter.drop, WriteState.current?]
  flag := by
    simp only [SharedWriter.drop, h.flag]
    cases w.audioWaits <;> rfl
  audio := by simp [SharedWriter.drop]

/-- Audio waits exactly if it was given a buffer and is not writing. -/
theorem audioWaits_iff : w.audioWaits = true ↔ ∃ buf, w.tasks .audio = .locking buf := by
  simp only [SharedWriter.audioWaits]
  split <;> simp_all

/-- Nothing but the state of the audio task decides whether audio waits. -/
theorem audioWaits_congr (h : w'.tasks .audio = w.tasks .audio) : w'.audioWaits = w.audioWaits := by
  simp only [SharedWriter.audioWaits, h]

/-- A task whose state decides whether audio waits is the audio task. -/
theorem audioWaits_set (h : t ≠ .audio) (state : WriteState) :
    (w.set t state).audioWaits = w.audioWaits :=
  audioWaits_congr (by rw [SharedWriter.set_tasks, if_neg (Ne.symm h)])

variable {state : WriteState}

/-- One task moves, and the line and the flag follow it. -/
theorem Coherent.of_set (h : Coherent w) {line : List Task} {flag : Bool}
    (hnodup : line.Nodup) (hself : t ∈ line ↔ state.inLine = true)
    (hother : ∀ x, x ≠ t → (x ∈ line ↔ x ∈ w.line))
    (hwrites : ∀ c, state.current? = some c → line.head? = some t)
    (hholder : ∀ x, x ≠ t → w.line.head? = some x → line.head? = some x)
    (hflag : flag = (w.set t state).audioWaits)
    (haudio : t = .audio → ∀ buf, state ≠ .yielding buf) :
    Coherent { w.set t state with line, audioWaiting := flag } where
  nodup := hnodup
  mem_line := by
    intro x
    show x ∈ line ↔ ((w.set t state).tasks x).inLine = true
    rw [SharedWriter.set_tasks]
    split
    · rename_i heq
      rw [heq]
      exact hself
    · rename_i hne
      exact (hother x hne).trans (h.mem_line x)
  head := by
    intro x c hx
    change ((w.set t state).tasks x).current? = some c at hx
    rw [SharedWriter.set_tasks] at hx
    split at hx
    · rename_i heq
      rw [heq]
      exact hwrites c hx
    · rename_i hne
      exact hholder x hne (h.head x c hx)
  flag := hflag
  audio := by
    intro buf
    show (w.set t state).tasks .audio ≠ _
    rw [SharedWriter.set_tasks]
    split
    · rename_i heq
      exact haudio heq.symm buf
    · exact h.audio buf

/-- The task at the head of the line leaves it. -/
theorem Coherent.leaveLine (h : Coherent w) (hhead : w.line.head? = some t)
    (hout : state.inLine = false) (haudio : t = .audio → state = .idle ∧ w.audioWaits = false) :
    Coherent (w.release.set t state) := by
  obtain ⟨rest, hline⟩ := List.head?_eq_some_iff.mp hhead
  have hnodup : (t :: rest).Nodup := hline ▸ h.nodup
  have htail : w.line.tail = rest := by rw [hline, List.tail_cons]
  have hset : Coherent { w.set t state with line := rest, audioWaiting := w.audioWaiting } := by
    refine h.of_set (List.nodup_cons.mp hnodup).2 ?_ ?_ ?_ ?_ ?_ ?_
    · simp [(List.nodup_cons.mp hnodup).1, hout]
    · intro x hne
      simp [hline, hne]
    · intro c hc
      cases state <;> simp_all [WriteState.inLine, WriteState.current?]
    · exact fun x hne hx => absurd (Option.some.inj (hx.symm.trans hhead)) hne
    · rw [h.flag]
      by_cases ht : t = .audio
      · obtain ⟨rfl, hwaits⟩ := haudio ht
        subst ht
        simpa [SharedWriter.audioWaits] using hwaits
      · exact (audioWaits_set ht state).symm
    · intro ht buf
      rw [(haudio ht).1]
      simp
  rwa [← htail] at hset

/-- A task joins the line, and writes at once only if nobody is before it. -/
theorem Coherent.join (h : Coherent w) (hout : t ∉ w.line)
    (hin : state.inLine = true) (hfirst : ∀ c, state.current? = some c → w.line = [])
    {flag : Bool} (hflag : flag = (w.set t state).audioWaits) :
    Coherent { w.set t state with line := w.line ++ [t], audioWaiting := flag } := by
  refine h.of_set ?_ (by simp [hin]) (fun x hne => by simp [hne]) ?_ ?_ hflag ?_
  · rw [List.nodup_append]
    refine ⟨h.nodup, by simp, ?_⟩
    rintro x hx y hy rfl
    exact hout (List.mem_singleton.mp hy ▸ hx)
  · intro c hc
    rw [hfirst c hc]
    rfl
  · intro x hne hx
    rw [List.head?_append, hx]
    rfl
  · rintro - buf rfl
    simp [WriteState.inLine] at hin

/-- The task at the head of the line writes, audio with its reservation cleared. -/
theorem Coherent.write (h : Coherent w) (hhead : w.line.head? = some t) (c : Current) :
    Coherent { w.set t (.writing c) with
      audioWaiting := if t = .audio then false else w.audioWaiting } := by
  refine h.of_set h.nodup ?_ (fun _ _ => Iff.rfl) (fun _ _ => hhead) (fun _ _ hx => hx) ?_ ?_
  · exact ⟨fun _ => rfl, fun _ => List.mem_of_mem_head? hhead⟩
  · split
    · rename_i heq
      simp [heq, SharedWriter.audioWaits]
    · rename_i hne
      rw [audioWaits_set hne, h.flag]
  · simp

/-- A task that is not in line yields again. -/
theorem Coherent.stay (h : Coherent w) (hout : t ∉ w.line) (hbulk : t ≠ .audio) :
    Coherent (w.set t (.yielding buf)) :=
  h.of_set h.nodup (by simp [hout, WriteState.inLine]) (fun _ _ => Iff.rfl)
    (by simp [WriteState.current?]) (fun _ _ hx => hx) (by rw [audioWaits_set hbulk, h.flag])
    (fun ht => absurd ht hbulk)

/-- What happens when a task that was given a buffer runs. -/
inductive Move (w : SharedWriter) (t : Task) (buf : List UInt8) : SharedWriter → Prop
  | stay (hout : t ∉ w.line) (hbulk : t ≠ .audio) (hflag : w.audioWaiting = true) :
    Move w t buf (w.set t (.yielding buf))
  | take (hfree : w.line = []) (hturn : t = .audio ∨ w.audioWaiting = false) :
    Move w t buf { w.set t (.writing ⟨buf, buf⟩) with line := [t], audioWaiting := false }
  | wait (hout : t ∉ w.line) (hbusy : w.line ≠ []) (hturn : t = .audio ∨ w.audioWaiting = false) :
    Move w t buf { w.set t (.locking buf) with
      line := w.line ++ [t], audioWaiting := decide (t = .audio) }
  | start (hhead : w.line.head? = some t) (hbuf : w.tasks t = .locking buf)
    (hturn : t = .audio ∨ w.audioWaiting = false) :
    Move w t buf { w.set t (.writing ⟨buf, buf⟩) with audioWaiting := false }
  | giveWay (hhead : w.line.head? = some t) (hbuf : w.tasks t = .locking buf) (hbulk : t ≠ .audio)
    (hflag : w.audioWaiting = true) :
    Move w t buf (w.release.set t (.yielding buf))

/-- A task that is not audio asks for the mutex once the flag is down. -/
theorem yieldToAudio_move (hout : t ∉ w.line) (hbulk : t ≠ .audio) :
    Move w t buf (w.yieldToAudio t buf) := by
  simp only [SharedWriter.yieldToAudio, SharedWriter.lock, SharedWriter.locked, if_neg hbulk]
  split
  · rename_i hflag
    exact .stay hout hbulk hflag
  · rename_i hflag
    have hdown : w.audioWaiting = false := Bool.eq_false_iff.mpr hflag
    split
    · rename_i hfree
      have htake : Move w t buf _ := .take hfree (.inr hdown)
      simpa [SharedWriter.set, hdown] using htake
    · rename_i hbusy
      have hwait : Move w t buf _ := .wait hout hbusy (.inr hdown)
      simpa [SharedWriter.set, hdown, hbulk] using hwait

theorem writeClass_move (h : Coherent w) (hidle : w.tasks t = .idle) :
    Move w t buf (w.writeClass t buf) := by
  have hout : t ∉ w.line := fun hmem => by
    simpa [hidle, WriteState.inLine] using (h.mem_line t).mp hmem
  by_cases ht : t = .audio
  · subst ht
    simp only [SharedWriter.writeClass, SharedWriter.lock, SharedWriter.locked, if_pos]
    split
    · rename_i hfree
      have htake : Move w .audio buf _ := .take hfree (.inl rfl)
      simpa [SharedWriter.set] using htake
    · rename_i hbusy
      have hwait : Move w .audio buf _ := .wait hout hbusy (.inl rfl)
      simpa [SharedWriter.set] using hwait
  · rw [SharedWriter.writeClass, if_neg ht]
    exact yieldToAudio_move hout ht

theorem poll_move (h : Coherent w) (hpoll : w.poll t = some w') :
    ∃ buf, (w.tasks t).buf? = some buf ∧ Move w t buf w' := by
  cases hstate : w.tasks t with
  | idle | writing c => simp [SharedWriter.poll, hstate] at hpoll
  | yielding buf =>
    have hout : t ∉ w.line := fun hmem => by
      simpa [hstate, WriteState.inLine] using (h.mem_line t).mp hmem
    have hbulk : t ≠ .audio := fun ht => h.audio buf (ht ▸ hstate)
    simp only [SharedWriter.poll, hstate, Option.some.injEq] at hpoll
    exact ⟨buf, rfl, hpoll ▸ yieldToAudio_move hout hbulk⟩
  | locking buf =>
    simp only [SharedWriter.poll, hstate] at hpoll
    obtain ⟨hhead, hlocked⟩ := Option.ite_none_right_eq_some.mp hpoll
    refine ⟨buf, rfl, ?_⟩
    rw [← Option.some.inj hlocked, SharedWriter.locked]
    split
    · rename_i ht
      exact .start hhead hstate (.inl ht)
    · rename_i hbulk
      split
      · rename_i hflag
        exact .giveWay hhead hstate hbulk hflag
      · rename_i hflag
        have hdown : w.audioWaiting = false := Bool.eq_false_iff.mpr hflag
        have hstart : Move w t buf _ := .start hhead hstate (.inr hdown)
        simpa [SharedWriter.set, hdown] using hstart

/-- The flag is down and audio does not wait, so it will not once another task moved. -/
theorem Coherent.quiet_set (h : Coherent w) (hturn : t = .audio ∨ w.audioWaiting = false)
    (hstate : t = .audio → ∀ buf, state ≠ .locking buf) : (w.set t state).audioWaits = false := by
  by_cases ht : t = .audio
  · subst ht
    rw [Bool.eq_false_iff, Ne, audioWaits_iff, SharedWriter.set_tasks_self]
    rintro ⟨buf, hbuf⟩
    exact hstate rfl buf hbuf
  · rw [audioWaits_set ht, ← h.flag]
    exact hturn.resolve_left ht

theorem Coherent.move (h : Coherent w) (hmove : Move w t buf w') : Coherent w' := by
  cases hmove with
  | stay hout hbulk hflag => exact h.stay hout hbulk
  | take hfree hturn =>
    have hquiet : (w.set t (.writing ⟨buf, buf⟩)).audioWaits = false :=
      h.quiet_set hturn (by simp)
    have hjoin : Coherent { w.set t (.writing ⟨buf, buf⟩) with
        line := w.line ++ [t], audioWaiting := false } :=
      h.join (by simp [hfree]) rfl (fun _ _ => hfree) hquiet.symm
    simpa [hfree] using hjoin
  | wait hout hbusy hturn =>
    refine h.join hout rfl (by simp [WriteState.current?]) ?_
    by_cases ht : t = .audio
    · simp [ht, SharedWriter.audioWaits]
    · rw [audioWaits_set ht, ← h.flag, hturn.resolve_left ht]
      simp [ht]
  | start hhead hbuf hturn =>
    have hwrite := h.write hhead ⟨buf, buf⟩
    have hflag : (if t = .audio then false else w.audioWaiting) = false := by
      split
      · rfl
      · rename_i ht
        exact hturn.resolve_left ht
    rwa [hflag] at hwrite
  | giveWay hhead hbuf hbulk hflag => exact h.leaveLine hhead rfl fun ht => absurd ht hbulk

/-- The write that is in progress. -/
def SharedWriter.current? (w : SharedWriter) : Option Current :=
  w.line.head?.bind fun t => (w.tasks t).current?

variable {c : Current}

/-- Whoever writes is the holder. -/
theorem Coherent.current_eq (h : Coherent w) :
    w.current? = some c ↔ ∃ t, (w.tasks t).current? = some c := by
  constructor
  · intro hc
    obtain ⟨t, -, ht⟩ := Option.bind_eq_some_iff.mp hc
    exact ⟨t, ht⟩
  · rintro ⟨t, ht⟩
    exact Option.bind_eq_some_iff.mpr ⟨t, h.head t c ht, ht⟩

/-- The same tasks write. -/
theorem Coherent.current_congr (h : Coherent w) (h' : Coherent w')
    (hsame : ∀ x, (w'.tasks x).current? = (w.tasks x).current?) : w'.current? = w.current? := by
  apply Option.ext
  intro c
  rw [h'.current_eq, h.current_eq]
  exact exists_congr fun x => by rw [hsame]

/-- Nobody writes. -/
theorem Coherent.current_none (h : Coherent w) (hnone : ∀ x, (w.tasks x).current? = none) :
    w.current? = none := by
  apply Option.eq_none_iff_forall_ne_some.mpr
  intro c hc
  obtain ⟨x, hx⟩ := h.current_eq.mp hc
  rw [hnone x] at hx
  cases hx

/-- A task that is not in line does not write. -/
theorem Coherent.current_out (h : Coherent w) (hout : t ∉ w.line) :
    (w.tasks t).current? = none := by
  cases hc : (w.tasks t).current? with
  | none => rfl
  | some c => exact absurd (List.mem_of_mem_head? (h.head t c hc)) hout

variable {x : Task}

/-- Only the holder writes. -/
theorem Coherent.current_other (h : Coherent w) (hhead : w.line.head? = some t)
    (hne : x ≠ t) : (w.tasks x).current? = none := by
  cases hc : (w.tasks x).current? with
  | none => rfl
  | some c => exact absurd (Option.some.inj ((h.head x c hc).symm.trans hhead)) hne

/-- A task that neither wrote nor writes. -/
theorem current_set (hold : (w.tasks t).current? = none) (hnew : state.current? = none) (x : Task) :
    ((w.set t state).tasks x).current? = (w.tasks x).current? := by
  rw [SharedWriter.set_tasks]
  split
  · rename_i heq
    rw [heq, hold, hnew]
  · rfl

/-- A task that runs goes on waiting, or starts its write when it is its turn. -/
theorem Coherent.move_current (h : Coherent w) (hmove : Move w t buf w') :
    (∀ x, (w'.tasks x).current? = (w.tasks x).current?) ∨
      w.current? = none ∧ w'.tasks t = .writing ⟨buf, buf⟩ ∧
        (∀ x, x ≠ t → w'.tasks x = w.tasks x) ∧ (t = .audio ∨ w.audioWaiting = false) := by
  have hother : ∀ c x, x ≠ t → (w.set t (.writing c)).tasks x = w.tasks x := fun c x hne => by
    rw [SharedWriter.set_tasks, if_neg hne]
  cases hmove with
  | stay hout hbulk hflag | wait hout hbusy hturn
    => exact .inl (current_set (h.current_out hout) rfl)
  | take hfree hturn =>
    exact .inr ⟨by simp [SharedWriter.current?, hfree], SharedWriter.set_tasks_self _ _ _,
      hother _, hturn⟩
  | start hhead hbuf hturn =>
    refine .inr ⟨?_, SharedWriter.set_tasks_self _ _ _, hother _, hturn⟩
    simp [SharedWriter.current?, hhead, hbuf, WriteState.current?]
  | giveWay hhead hbuf hbulk hflag =>
    have hnone : (w.tasks t).current? = none := by rw [hbuf]; rfl
    exact .inl (current_set (w := w.release) hnone rfl)

/-- No other buffer comes in. -/
theorem Move.given (hmove : Move w t buf w') {b : List UInt8}
    (hx : (w'.tasks x).buf? = some b) : b = buf ∨ (w.tasks x).buf? = some b := by
  have hset : ∀ state : WriteState, state.buf? = some buf →
      ((w.set t state).tasks x).buf? = some b → b = buf ∨ (w.tasks x).buf? = some b := by
    intro state hstate hb
    rw [SharedWriter.set_tasks] at hb
    split at hb
    · exact .inl (Option.some.inj (hb.symm.trans hstate))
    · exact .inr hb
  cases hmove with
  | stay | take | wait | start | giveWay => exact hset _ rfl hx

/-- The write that is in progress on the connection. -/
def System.current? (s : System) : Option Current :=
  match s.phase with
  | .direct => s.directWrite
  | .looping => s.writer.current?
  | .over => none

/-- Nothing is written any more. -/
def System.ended (s : System) : Prop := s.failed = true ∨ s.phase = .over

/-- An audio wave is waiting for its turn. -/
def System.audioWaits (s : System) : Bool := decide (s.phase = .looping) && s.writer.audioWaits

/-- What holds of the connection and its writer. -/
structure Sane (s : System) : Prop where
  coherent : Coherent s.writer
  idle : s.phase ≠ .looping → ∀ t, s.writer.tasks t = .idle
  direct : s.phase = .looping → s.directWrite = none
  passed : ∀ t buf, (s.writer.tasks t).buf? = some buf → buf ∈ s.passed
  passedDirect : ∀ c, s.directWrite = some c → c.buf ∈ s.passed

theorem sane_init : Sane .init where
  coherent := coherent_new
  idle := fun _ _ => rfl
  direct := fun _ => rfl
  passed := by simp [System.init, SharedWriter.new, WriteState.buf?]
  passedDirect := by simp [System.init]

/-- What a step does to the wire and to the write in progress. -/
inductive Effect (s s' : System) : Prop
  | quiet (hwire : s'.wire = s.wire)
    (hcurrent : s'.current? = s.current? ∨ s'.current? = none ∧ s'.ended)
  | begins (buf : List UInt8) (hbuf : buf ∈ s'.passed) (hwire : s'.wire = s.wire)
    (hnone : s.current? = none) (hcurrent : s'.current? = some ⟨buf, buf⟩)
    (hturn : s.audioWaits = true → s'.audioWaits = false)
  | accepts (c : Current) (count : ℕ) (hlive : ¬s.ended) (hsome : s.current? = some c)
    (hwire : s'.wire = s.wire ++ c.rest.take count)
    (hcurrent : s'.current? = some { c with rest := c.rest.drop count })
  | finishes (c : Current) (hsome : s.current? = some c) (hrest : c.rest = [])
    (hwire : s'.wire = s.wire) (hcurrent : s'.current? = none)

/-- A step of a connection keeps its buffers and does not bring it back. -/
structure Keeps (s s' : System) : Prop where
  passed : s.passed ⊆ s'.passed
  ended : s.ended → s'.ended

theorem push_eq {c' : Current} {count : ℕ} (h : s.push c count = some (s', c')) :
    s.failed = false ∧ s' = { s with wire := s.wire ++ c.rest.take count } ∧
      c' = { c with rest := c.rest.drop count } := by
  obtain ⟨⟨hfailed, -⟩, heq⟩ := Option.ite_none_right_eq_some.mp h
  cases heq
  exact ⟨hfailed, rfl, rfl⟩

/-- What one step brings about. -/
structure Advances (s s' : System) : Prop where
  sane : Sane s'
  effect : Effect s s'
  keeps : Keeps s s'

theorem directBegin_advances (h : Sane s) (hstep : s.step (.directBegin buf) = some s') :
    Advances s s' := by
  obtain ⟨⟨hphase, hfree⟩, heq⟩ := Option.ite_none_right_eq_some.mp hstep
  cases heq
  refine ⟨⟨h.coherent, h.idle, ?_, ?_, ?_⟩, .begins buf (by simp) rfl ?_ ?_ ?_, ⟨by simp, id⟩⟩
  · intro hloop
    exact absurd (hphase.symm.trans hloop) (by simp)
  · exact fun t b hb => List.mem_cons_of_mem _ (h.passed t b hb)
  · rintro c hc
    cases hc
    exact List.mem_cons_self
  · simp [System.current?, hphase, hfree]
  · simp [System.current?, hphase]
  · simp [System.audioWaits, hphase]

theorem writeDirect_eq : s.writeDirect = some c ↔ s.phase = .direct ∧ s.directWrite = some c := by
  rw [System.writeDirect, Option.ite_none_right_eq_some]

theorem directAccept_advances {count : ℕ} (h : Sane s)
    (hstep : s.step (.directAccept count) = some s') : Advances s s' := by
  obtain ⟨c, hwrite, hpush⟩ := Option.bind_eq_some_iff.mp hstep
  obtain ⟨hphase, hc⟩ := writeDirect_eq.mp hwrite
  obtain ⟨⟨s₁, c'⟩, hpushed, rfl⟩ := Option.map_eq_some_iff.mp hpush
  obtain ⟨hfailed, rfl, rfl⟩ := push_eq hpushed
  refine ⟨⟨h.coherent, h.idle, ?_, h.passed, ?_⟩, .accepts c count ?_ ?_ rfl ?_, ⟨by simp, id⟩⟩
  · intro hloop
    exact absurd (hphase.symm.trans hloop) (by simp)
  · rintro d hd
    cases hd
    exact h.passedDirect c hc
  · simp [System.ended, hfailed, hphase]
  · simp [System.current?, hphase, hc]
  · simp [System.current?, hphase]

theorem directFinish_advances (h : Sane s) (hstep : s.step .directFinish = some s') :
    Advances s s' := by
  obtain ⟨c, hwrite, hdone⟩ := Option.bind_eq_some_iff.mp hstep
  obtain ⟨hphase, hc⟩ := writeDirect_eq.mp hwrite
  obtain ⟨hrest, heq⟩ := Option.ite_none_right_eq_some.mp hdone
  cases heq
  refine ⟨⟨h.coherent, h.idle, fun _ => rfl, h.passed, by simp⟩, .finishes c ?_ hrest rfl ?_,
    ⟨by simp, id⟩⟩
  · simp [System.current?, hphase, hc]
  · simp [System.current?, hphase]

theorem directFail_advances (h : Sane s) (hstep : s.step .directFail = some s') :
    Advances s s' := by
  obtain ⟨c, hwrite, rfl⟩ := Option.map_eq_some_iff.mp hstep
  obtain ⟨hphase, hc⟩ := writeDirect_eq.mp hwrite
  refine ⟨⟨h.coherent, h.idle, fun _ => rfl, h.passed, by simp⟩, .quiet rfl (.inr ⟨?_, .inl rfl⟩),
    ⟨by simp, fun _ => .inl rfl⟩⟩
  simp [System.current?, hphase]

theorem clientLoop_advances (h : Sane s) (hstep : s.step .clientLoop = some s') :
    Advances s s' := by
  obtain ⟨⟨hphase, hfree⟩, heq⟩ := Option.ite_none_right_eq_some.mp hstep
  cases heq
  refine ⟨⟨coherent_new, by simp, fun _ => hfree, ?_, h.passedDirect⟩, .quiet rfl (.inl ?_),
    ⟨by simp, ?_⟩⟩
  · simp [SharedWriter.new, WriteState.buf?]
  · simp [System.current?, hphase, hfree, SharedWriter.current?, SharedWriter.new]
  · simp [System.ended, hphase]

/-- A task that was given a buffer runs, in a client loop. -/
theorem move_advances {resizing : Bool} {passed : List (List UInt8)} (h : Sane s)
    (hphase : s.phase = .looping) (hkept : s.passed ⊆ passed) (hbuf : buf ∈ passed)
    (hmove : Move s.writer t buf w') :
    Advances s { s with writer := w', passed, resizing } := by
  have hcoherent := h.coherent.move hmove
  refine ⟨⟨hcoherent, fun hne => absurd hphase hne, h.direct, ?_, ?_⟩, ?_, ⟨hkept, id⟩⟩
  · intro x b hx
    rcases hmove.given hx with rfl | hold
    · exact hbuf
    · exact hkept (h.passed x b hold)
  · exact fun c hc => hkept (h.passedDirect c hc)
  · rcases h.coherent.move_current hmove with hsame | ⟨hnone, hstate, hother, hturn⟩
    · refine .quiet rfl (.inl ?_)
      simp only [System.current?, hphase]
      exact h.coherent.current_congr hcoherent hsame
    · refine .begins buf hbuf rfl ?_ ?_ ?_
      · simpa only [System.current?, hphase] using hnone
      · simp only [System.current?, hphase]
        exact hcoherent.current_eq.mpr ⟨t, by rw [hstate]; rfl⟩
      · intro hwaits
        have haudio : s.writer.audioWaits = true := (Bool.and_eq_true_iff.mp hwaits).2
        have ht : t = .audio := hturn.resolve_right (by simp [h.coherent.flag, haudio])
        subst ht
        simp [System.audioWaits, SharedWriter.audioWaits, hstate]

theorem canBegin_eq (h : s.canBegin t = true) :
    s.phase = .looping ∧ s.writer.tasks t = .idle := by
  simp only [System.canBegin, Bool.and_eq_true, decide_eq_true_eq] at h
  exact h.1.1

theorem begin_advances (h : Sane s) (hstep : s.step (.begin t buf) = some s') :
    Advances s s' := by
  obtain ⟨hcan, heq⟩ := Option.ite_none_right_eq_some.mp hstep
  cases heq
  obtain ⟨hphase, hidle⟩ := canBegin_eq hcan
  exact move_advances h hphase (List.subset_cons_self _ _) List.mem_cons_self
    (writeClass_move h.coherent hidle)

theorem resize_advances (h : Sane s) (hstep : s.step (.resize buf) = some s') :
    Advances s s' := by
  obtain ⟨hcan, heq⟩ := Option.ite_none_right_eq_some.mp hstep
  cases heq
  obtain ⟨hphase, hidle⟩ := canBegin_eq hcan
  exact move_advances h hphase (List.subset_cons_self _ _) List.mem_cons_self
    (writeClass_move h.coherent hidle)

theorem poll_advances (h : Sane s) (hstep : s.step (.poll t) = some s') : Advances s s' := by
  obtain ⟨hphase, hpoll⟩ := Option.ite_none_right_eq_some.mp hstep
  obtain ⟨w', hw, rfl⟩ := Option.map_eq_some_iff.mp hpoll
  obtain ⟨buf, hbuf, hmove⟩ := poll_move h.coherent hw
  exact move_advances h hphase (List.Subset.refl _) (h.passed t buf hbuf) hmove

theorem current?_eq_some : state.current? = some c ↔ state = .writing c := by
  cases state <;> simp [WriteState.current?]

/-- The write of a task is the write in progress. -/
theorem writeOf_eq (h : Sane s) (hwrite : s.writeOf t = some c) :
    s.phase = .looping ∧ s.writer.tasks t = .writing c ∧ s.writer.line.head? = some t ∧
      s.current? = some c := by
  obtain ⟨hphase, hc⟩ := Option.ite_none_right_eq_some.mp hwrite
  refine ⟨hphase, current?_eq_some.mp hc, h.coherent.head t c hc, ?_⟩
  simp only [System.current?, hphase]
  exact h.coherent.current_eq.mpr ⟨t, hc⟩

theorem accept_advances {count : ℕ} (h : Sane s) (hstep : s.step (.accept t count) = some s') :
    Advances s s' := by
  obtain ⟨c, hwrite, hpush⟩ := Option.bind_eq_some_iff.mp hstep
  obtain ⟨hphase, hstate, hhead, hcurrent⟩ := writeOf_eq h hwrite
  obtain ⟨⟨s₁, c'⟩, hpushed, rfl⟩ := Option.map_eq_some_iff.mp hpush
  obtain ⟨hfailed, rfl, rfl⟩ := push_eq hpushed
  have hcoherent : Coherent (s.writer.set t (.writing { c with rest := c.rest.drop count })) := by
    have hwrites := h.coherent.write hhead { c with rest := c.rest.drop count }
    have hflag : (if t = .audio then false else s.writer.audioWaiting) =
        s.writer.audioWaiting := by
      split
      · rename_i ht
        rw [h.coherent.flag, SharedWriter.audioWaits, ← ht, hstate]
      · rfl
    rwa [hflag] at hwrites
  refine ⟨⟨hcoherent, fun hne => absurd hphase hne, h.direct, ?_, h.passedDirect⟩,
    .accepts c count ?_ hcurrent rfl ?_, ⟨by simp, id⟩⟩
  · intro x b hx
    change ((s.writer.set t _).tasks x).buf? = some b at hx
    rw [SharedWriter.set_tasks] at hx
    split at hx
    · exact h.passed t b (hstate ▸ hx)
    · exact h.passed x b hx
  · simp [System.ended, hfailed, hphase]
  · simp only [System.current?, hphase]
    exact hcoherent.current_eq.mpr ⟨t, by rw [SharedWriter.set_tasks_self]; rfl⟩

/-- The write of the holder is over, and nobody writes. -/
theorem done_coherent (h : Coherent w) (hstate : w.tasks t = .writing c)
    (hhead : w.line.head? = some t) : Coherent (w.done t) ∧ (w.done t).current? = none := by
  have hcoherent : Coherent (w.done t) := by
    refine h.leaveLine hhead rfl fun ht => ⟨rfl, ?_⟩
    rw [SharedWriter.audioWaits, ← ht, hstate]
  refine ⟨hcoherent, hcoherent.current_none fun x => ?_⟩
  simp only [SharedWriter.done, SharedWriter.set_tasks]
  split
  · rfl
  · rename_i hne
    exact h.current_other hhead hne

/-- What remains of a writer once a write is over. -/
theorem done_buf {b : List UInt8} (hx : ((w.done t).tasks x).buf? = some b) :
    (w.tasks x).buf? = some b := by
  simp only [SharedWriter.done, SharedWriter.set_tasks] at hx
  split at hx
  · cases hx
  · exact hx

theorem drop_sane {phase : Phase} (h : Sane s)
    (hdirect : phase = .looping → s.directWrite = none) : Sane (s.leave phase) where
  coherent := h.coherent.drop
  idle := fun _ _ => rfl
  direct := hdirect
  passed := by simp [System.leave, SharedWriter.drop, WriteState.buf?]
  passedDirect := h.passedDirect

theorem finish_advances (h : Sane s) (hstep : s.step (.finish t) = some s') : Advances s s' := by
  obtain ⟨c, hwrite, hdone⟩ := Option.bind_eq_some_iff.mp hstep
  obtain ⟨hphase, hstate, hhead, hcurrent⟩ := writeOf_eq h hwrite
  obtain ⟨hrest, heq⟩ := Option.ite_none_right_eq_some.mp hdone
  split at heq
  · cases heq
    refine ⟨drop_sane h (by simp), .finishes c hcurrent hrest rfl ?_, ⟨?_, ?_⟩⟩
    · simp [System.current?, System.leave, h.direct hphase]
    · simp [System.leave]
    · simp [System.ended, System.leave, hphase]
  · cases heq
    obtain ⟨hcoherent, hnone⟩ := done_coherent h.coherent hstate hhead
    refine ⟨⟨hcoherent, fun hne => absurd hphase hne, h.direct, ?_, h.passedDirect⟩,
      .finishes c hcurrent hrest rfl ?_, ⟨by simp, id⟩⟩
    · exact fun x b hx => h.passed x b (done_buf hx)
    · simpa only [System.current?, hphase] using hnone

theorem fail_advances (h : Sane s) (hstep : s.step (.fail t) = some s') : Advances s s' := by
  obtain ⟨c, hwrite, rfl⟩ := Option.map_eq_some_iff.mp hstep
  obtain ⟨hphase, hstate, hhead, hcurrent⟩ := writeOf_eq h hwrite
  obtain ⟨hcoherent, hnone⟩ := done_coherent h.coherent hstate hhead
  refine ⟨⟨hcoherent, fun hne => absurd hphase hne, h.direct, ?_, h.passedDirect⟩,
    .quiet rfl (.inr ⟨?_, .inl rfl⟩), ⟨by simp, fun _ => .inl rfl⟩⟩
  · exact fun x b hx => h.passed x b (done_buf hx)
  · simpa only [System.current?, hphase] using hnone

theorem close_advances (h : Sane s) (hstep : s.step .close = some s') : Advances s s' := by
  obtain ⟨-, heq⟩ := Option.ite_none_left_eq_some.mp hstep
  cases heq
  exact ⟨drop_sane h (by simp), .quiet rfl (.inr ⟨rfl, .inr rfl⟩),
    ⟨by simp [System.leave], fun _ => .inr rfl⟩⟩

/-- What every step brings about. -/
theorem step_advances {a : Action} (h : Sane s) (hstep : s.step a = some s') : Advances s s' := by
  cases a with
  | directBegin buf => exact directBegin_advances h hstep
  | directAccept count => exact directAccept_advances h hstep
  | directFinish => exact directFinish_advances h hstep
  | directFail => exact directFail_advances h hstep
  | clientLoop => exact clientLoop_advances h hstep
  | begin t buf => exact begin_advances h hstep
  | resize buf => exact resize_advances h hstep
  | poll t => exact poll_advances h hstep
  | accept t count => exact accept_advances h hstep
  | finish t => exact finish_advances h hstep
  | fail t => exact fail_advances h hstep
  | close => exact close_advances h hstep

/-- The bytes of the wire: whole buffers, and of one more what the write in progress
got across, or what a dead write did. -/
def Tracked (s : System) : Prop :=
  ∃ whole part, s.wire = List.flatten whole ++ part ∧ (∀ b ∈ whole, b ∈ s.passed) ∧
    (part = [] ∨ ∃ b ∈ s.passed, part <+: b) ∧
    (¬s.ended → match s.current? with
      | some c => part ++ c.rest = c.buf ∧ c.buf ∈ s.passed
      | none => part = [])

theorem tracked_init : Tracked .init :=
  ⟨[], [], rfl, by simp, .inl rfl, fun _ => rfl⟩

/-- One step keeps the wire in order. -/
theorem Tracked.step (h : Tracked s) (heffect : Effect s s') (hkeeps : Keeps s s') :
    Tracked s' := by
  obtain ⟨whole, part, hwire, hwhole, hpart, hcurrent⟩ := h
  have hwhole' : ∀ b ∈ whole, b ∈ s'.passed := fun b hb => hkeeps.passed (hwhole b hb)
  have hpart' : part = [] ∨ ∃ b ∈ s'.passed, part <+: b :=
    hpart.imp_right fun ⟨b, hb, hpre⟩ => ⟨b, hkeeps.passed hb, hpre⟩
  have hlive : ¬s'.ended → ¬s.ended := fun hne hend => hne (hkeeps.ended hend)
  cases heffect with
  | quiet hsame hcur =>
    refine ⟨whole, part, hsame.trans hwire, hwhole', hpart', fun hne => ?_⟩
    rcases hcur with heq | ⟨-, hend⟩
    · have hold := hcurrent (hlive hne)
      rw [heq]
      split
      · rename_i c hc
        rw [hc] at hold
        exact ⟨hold.1, hkeeps.passed hold.2⟩
      · rename_i hc
        rwa [hc] at hold
    · exact absurd hend hne
  | begins buf hbuf hsame hnone hcur hturn =>
    refine ⟨whole, part, hsame.trans hwire, hwhole', hpart', fun hne => ?_⟩
    have hold := hcurrent (hlive hne)
    rw [hnone] at hold
    rw [hcur]
    exact ⟨by rw [hold]; rfl, hbuf⟩
  | accepts c count hne hsome hmore hcur =>
    have hold := hcurrent hne
    rw [hsome] at hold
    have hrest : (part ++ c.rest.take count) ++ c.rest.drop count = c.buf := by
      rw [List.append_assoc, List.take_append_drop, hold.1]
    refine ⟨whole, part ++ c.rest.take count, ?_, hwhole', ?_, fun _ => ?_⟩
    · rw [hmore, hwire, List.append_assoc]
    · exact .inr ⟨c.buf, hkeeps.passed hold.2, ⟨_, hrest⟩⟩
    · rw [hcur]
      exact ⟨hrest, hkeeps.passed hold.2⟩
  | finishes c hsome hrest hsame hcur =>
    by_cases hend : s.ended
    · exact ⟨whole, part, hsame.trans hwire, hwhole', hpart', fun hne => absurd hend (hlive hne)⟩
    · have hold := hcurrent hend
      rw [hsome] at hold
      obtain ⟨hjoin, hmem⟩ := hold
      rw [hrest, List.append_nil] at hjoin
      refine ⟨whole ++ [part], [], ?_, ?_, .inl rfl, fun _ => by rw [hcur]⟩
      · rw [hsame, hwire, List.flatten_append, List.flatten_singleton, List.append_nil]
      · intro b hb
        rcases List.mem_append.mp hb with hb | hb
        · exact hwhole' b hb
        · rw [List.mem_singleton.mp hb, hjoin]
          exact hkeeps.passed hmem

/-- Nothing reaches the wire once the stream is dead. -/
theorem Effect.frozen (h : Effect s s') (hend : s.ended) : s'.wire = s.wire := by
  cases h with
  | quiet hwire | begins _ _ hwire => exact hwire
  | accepts _ _ hlive => exact absurd hend hlive
  | finishes _ _ _ hwire => exact hwire

/-- The wire with the rest of the write in progress. -/
def System.budget (s : System) : List UInt8 := s.wire ++ (s.current?.elim [] Current.rest)

/-- While audio waits, nothing but the write in progress reaches the wire. -/
theorem Effect.budget (h : Effect s s') (hwaits : s.audioWaits = true) :
    s'.wire <+: s.budget ∧ (s'.audioWaits = true → s'.budget <+: s.budget) := by
  cases h with
  | quiet hwire hcurrent =>
    refine ⟨⟨_, by rw [hwire, System.budget]⟩, fun _ => ?_⟩
    rcases hcurrent with heq | ⟨hnone, -⟩
    · have hsame : s'.budget = s.budget := by rw [System.budget, System.budget, hwire, heq]
      exact ⟨[], by rw [List.append_nil, hsame]⟩
    · rw [System.budget, System.budget, hwire, hnone, Option.elim_none, List.append_nil]
      exact List.prefix_append _ _
  | begins buf hbuf hwire hnone hcurrent hturn =>
    refine ⟨⟨_, by rw [hwire, System.budget]⟩, fun hstill => ?_⟩
    rw [hturn hwaits] at hstill
    cases hstill
  | accepts c count hlive hsome hwire hcurrent =>
    have heq : s'.budget = s.budget := by
      rw [System.budget, System.budget, hwire, hsome, hcurrent, Option.elim_some, Option.elim_some,
        List.append_assoc, List.take_append_drop]
    refine ⟨?_, fun _ => heq ▸ List.prefix_rfl⟩
    rw [← heq]
    exact List.prefix_append _ _
  | finishes c hsome hrest hwire hcurrent =>
    refine ⟨⟨_, by rw [hwire, System.budget]⟩, fun _ => ?_⟩
    rw [System.budget, System.budget, hwire, hcurrent, Option.elim_none, List.append_nil]
    exact List.prefix_append _ _

/-- A task that goes on as it did does not write if it did not. -/
theorem writeOf_none (hnone : s.writeOf t = none) (hphase : s'.phase = s.phase)
    (htask : (s'.writer.tasks t).current? = (s.writer.tasks t).current?) :
    s'.writeOf t = none := by
  rw [System.writeOf, hphase, htask]
  exact hnone

/-- A task other than audio that moves starts its write only if audio does not wait. -/
theorem move_turn {resizing : Bool} {passed : List (List UInt8)} (h : Sane s)
    (hmove : Move s.writer x buf w') (hbulk : t ≠ .audio) (hnone : s.writeOf t = none)
    (hsome : { s with writer := w', passed, resizing }.writeOf t ≠ none) :
    s.audioWaits = false := by
  rcases h.coherent.move_current hmove with hsame | ⟨-, -, hother, hturn⟩
  · exact (hsome (writeOf_none hnone rfl (hsame t))).elim
  · rcases eq_or_ne t x with rfl | hne
    · have hdown : s.writer.audioWaits = false := h.coherent.flag ▸ hturn.resolve_left hbulk
      rw [System.audioWaits, hdown, Bool.and_false]
    · have hsame := congrArg WriteState.current? (hother t hne)
      exact (hsome (writeOf_none hnone rfl hsame)).elim

/-- A task that does not write after the write of another one is over did not before. -/
theorem done_turn (hnone : s.writeOf t = none) (hphase : s'.phase = s.phase)
    (hwriter : s'.writer = s.writer.done x) : s'.writeOf t = none := by
  rcases eq_or_ne t x with rfl | hne
  · rw [System.writeOf, hwriter, SharedWriter.done, SharedWriter.set_tasks_self]
    exact ite_self _
  · refine writeOf_none hnone hphase ?_
    rw [hwriter, SharedWriter.done, SharedWriter.set_tasks, if_neg hne]
    rfl

/-- No write but that of audio starts while audio waits. -/
theorem step_turn {a : Action} (h : Sane s) (hstep : s.step a = some s') (hbulk : t ≠ .audio)
    (hnone : s.writeOf t = none) (hsome : s'.writeOf t ≠ none) : s.audioWaits = false := by
  cases a with
  | directBegin buf | clientLoop =>
    obtain ⟨⟨hphase, -⟩, -⟩ := Option.ite_none_right_eq_some.mp hstep
    simp [System.audioWaits, hphase]
  | directAccept count | directFinish =>
    obtain ⟨c, hwrite, -⟩ := Option.bind_eq_some_iff.mp hstep
    simp [System.audioWaits, (writeDirect_eq.mp hwrite).1]
  | directFail =>
    obtain ⟨c, hwrite, -⟩ := Option.map_eq_some_iff.mp hstep
    simp [System.audioWaits, (writeDirect_eq.mp hwrite).1]
  | begin x buf | resize buf =>
    obtain ⟨hcan, heq⟩ := Option.ite_none_right_eq_some.mp hstep
    cases heq
    exact move_turn h (writeClass_move h.coherent (canBegin_eq hcan).2) hbulk hnone hsome
  | poll x =>
    obtain ⟨-, hpoll⟩ := Option.ite_none_right_eq_some.mp hstep
    obtain ⟨w', hw, rfl⟩ := Option.map_eq_some_iff.mp hpoll
    obtain ⟨buf, -, hmove⟩ := poll_move h.coherent hw
    exact move_turn h hmove hbulk hnone hsome
  | accept x count =>
    obtain ⟨c, hwrite, hpush⟩ := Option.bind_eq_some_iff.mp hstep
    obtain ⟨⟨s₁, c'⟩, hpushed, rfl⟩ := Option.map_eq_some_iff.mp hpush
    obtain ⟨-, rfl, rfl⟩ := push_eq hpushed
    rcases eq_or_ne t x with rfl | hne
    · rw [hwrite] at hnone
      cases hnone
    · refine (hsome (writeOf_none hnone rfl ?_)).elim
      show ((s.writer.set x _).tasks t).current? = _
      rw [SharedWriter.set_tasks, if_neg hne]
  | finish x =>
    obtain ⟨c, -, hdone⟩ := Option.bind_eq_some_iff.mp hstep
    obtain ⟨-, heq⟩ := Option.ite_none_right_eq_some.mp hdone
    split at heq
    · cases heq
      exact (hsome rfl).elim
    · cases heq
      exact (hsome (done_turn hnone rfl rfl)).elim
  | fail x =>
    obtain ⟨c, -, rfl⟩ := Option.map_eq_some_iff.mp hstep
    exact (hsome (done_turn hnone rfl rfl)).elim
  | close =>
    obtain ⟨-, heq⟩ := Option.ite_none_left_eq_some.mp hstep
    cases heq
    exact (hsome rfl).elim

/-- With nobody writing, everyone before audio in line gives way, and audio starts. -/
theorem audio_reaches {before after : List Task} (h : Sane s) (hlive : s.failed = false)
    (hwaits : s.audioWaits = true) (hnone : s.current? = none)
    (hline : s.writer.line = before ++ .audio :: after) :
    ∃ acts s', Meets System.step (fun s _ => s.audioWaits = true) s acts ∧
      run System.step s acts = some s' ∧ s'.writeOf .audio ≠ none ∧ s'.wire = s.wire := by
  have hphase : s.phase = .looping := of_decide_eq_true (Bool.and_eq_true_iff.mp hwaits).1
  have haudio : s.writer.audioWaits = true := (Bool.and_eq_true_iff.mp hwaits).2
  induction before generalizing s with
  | nil =>
    obtain ⟨buf, hbuf⟩ := audioWaits_iff.mp haudio
    have hpoll : s.writer.poll .audio = some { s.writer.set .audio (.writing ⟨buf, buf⟩) with
        audioWaiting := false } := by
      simp [SharedWriter.poll, hbuf, hline, SharedWriter.locked]
    have hstep : s.step (.poll .audio) = some { s with writer :=
        { s.writer.set .audio (.writing ⟨buf, buf⟩) with audioWaiting := false } } := by
      simp only [System.step, if_pos hphase, hpoll, Option.map_some]
    refine ⟨[.poll .audio], _, ⟨hwaits, fun _ _ => trivial⟩,
      run_cons_some.mpr ⟨_, hstep, rfl⟩, ?_, rfl⟩
    simp [System.writeOf, hphase, SharedWriter.set, WriteState.current?]
  | cons t before ih =>
    have hhead : s.writer.line.head? = some t := by rw [hline]; rfl
    have hnodup : (t :: (before ++ .audio :: after)).Nodup := by
      rw [← List.cons_append, ← hline]
      exact h.coherent.nodup
    have hbulk : t ≠ .audio := fun ht =>
      (List.nodup_cons.mp hnodup).1 (List.mem_append_right _ (ht ▸ List.mem_cons_self))
    have hflag : s.writer.audioWaiting = true := h.coherent.flag.trans haudio
    obtain ⟨buf, hbuf⟩ : ∃ buf, s.writer.tasks t = .locking buf := by
      have hin := (h.coherent.mem_line t).mp (List.mem_of_mem_head? hhead)
      cases hstate : s.writer.tasks t with
      | idle | yielding buf => simp [hstate, WriteState.inLine] at hin
      | locking buf => exact ⟨buf, rfl⟩
      | writing c => simp [System.current?, hphase, SharedWriter.current?, hhead, hstate,
          WriteState.current?] at hnone
    have hpoll : s.writer.poll t = some (s.writer.release.set t (.yielding buf)) := by
      simp [SharedWriter.poll, hbuf, hhead, SharedWriter.locked, hbulk, hflag]
    have hstep : s.step (.poll t) = some
        { s with writer := s.writer.release.set t (.yielding buf) } := by
      simp only [System.step, if_pos hphase, hpoll, Option.map_some]
    have hwaits' : (s.writer.release.set t (.yielding buf)).audioWaits = true :=
      (audioWaits_set hbulk _).trans haudio
    have hsane := (poll_advances h hstep).sane
    have hnone' : (s.writer.release.set t (.yielding buf)).current? = none := by
      refine hsane.coherent.current_none fun x => ?_
      rw [current_set (w := s.writer.release) (by rw [SharedWriter.release, hbuf]; rfl) rfl]
      rcases eq_or_ne x t with rfl | hne
      · show (s.writer.tasks x).current? = none
        rw [hbuf]
        rfl
      · exact h.coherent.current_other hhead hne
    obtain ⟨acts, s', hmeets, hrun, hwrites, hwire⟩ := ih hsane hlive
      (by simp [System.audioWaits, hphase, hwaits'])
      (by simpa [System.current?, hphase] using hnone') (by simp [SharedWriter.release, hline])
      hphase hwaits'
    refine ⟨.poll t :: acts, s', ⟨hwaits, ?_⟩, run_cons_some.mpr ⟨_, hstep, hrun⟩, hwrites, hwire⟩
    intro s₁ hs₁
    rw [hstep, Option.some.injEq] at hs₁
    exact hs₁ ▸ hmeets

/-- The socket can accept all that is left of a write. -/
theorem accept_rest (hfailed : s.failed = false) (hwrite : s.writeOf t = some c) :
    s.step (.accept t c.rest.length) = some
      { s with
        wire := s.wire ++ c.rest
        writer := s.writer.set t (.writing { c with rest := [] }) } := by
  simp [System.step, hwrite, System.push, hfailed]

/-- A complete write that is not the announcement of a reactivation makes room. -/
theorem finish_rest (hwrite : s.writeOf t = some c) (hrest : c.rest = [])
    (hstays : ¬(t = .display ∧ s.resizing = true)) :
    s.step (.finish t) = some { s with writer := s.writer.done t } := by
  simp only [System.step, hwrite, Option.bind_some, if_pos hrest, if_neg hstays]

/-- The write in progress completes first. -/
theorem audio_starts (h : Sane s) (hlive : ¬s.ended) (hwaits : s.audioWaits = true)
    (hstays : s.resizing = true → s.writeOf .display = none) :
    ∃ acts s', Meets System.step (fun s _ => s.audioWaits = true) s acts ∧
      run System.step s acts = some s' ∧ s'.writeOf .audio ≠ none ∧ s'.wire = s.budget := by
  have hphase : s.phase = .looping := of_decide_eq_true (Bool.and_eq_true_iff.mp hwaits).1
  have haudio : s.writer.audioWaits = true := (Bool.and_eq_true_iff.mp hwaits).2
  have hfailed : s.failed = false := Bool.eq_false_iff.mpr fun hf => hlive (.inl hf)
  obtain ⟨buf, hbuf⟩ := audioWaits_iff.mp haudio
  have hmem : .audio ∈ s.writer.line := (h.coherent.mem_line .audio).mpr (by rw [hbuf]; rfl)
  obtain ⟨before, after, hline⟩ := List.append_of_mem hmem
  cases hcurrent : s.current? with
  | none =>
    obtain ⟨acts, s', hmeets, hrun, hwrites, hwire⟩ := audio_reaches h hfailed hwaits hcurrent hline
    exact ⟨acts, s', hmeets, hrun, hwrites, by simp [hwire, System.budget, hcurrent]⟩
  | some c =>
    simp only [System.current?, hphase] at hcurrent
    obtain ⟨t, htask⟩ := h.coherent.current_eq.mp hcurrent
    have hwrite : s.writeOf t = some c := by rw [System.writeOf, if_pos hphase, htask]
    have hne : Task.audio ≠ t := by
      rintro rfl
      rw [hbuf] at htask
      cases htask
    have hstay : ¬(t = .display ∧ s.resizing = true) := by
      rintro ⟨rfl, hresizing⟩
      rw [hstays hresizing] at hwrite
      cases hwrite
    have hhead : s.writer.line.head? = some t := h.coherent.head t c htask
    obtain ⟨before, rfl⟩ : ∃ rest, before = t :: rest := by
      cases before with
      | nil =>
        rw [hline] at hhead
        exact absurd (Option.some.inj hhead) hne
      | cons x rest =>
        rw [hline] at hhead
        exact ⟨rest, by rw [Option.some.inj hhead]⟩
    have haccept := accept_rest hfailed hwrite
    have hsane₁ := (accept_advances h haccept).sane
    have hwrite₁ : { s with
        wire := s.wire ++ c.rest
        writer := s.writer.set t (.writing { c with rest := [] }) }.writeOf t =
          some { c with rest := [] } := by
      simp [System.writeOf, hphase, WriteState.current?]
    have hfinish := finish_rest hwrite₁ rfl hstay
    have hsane₂ := (finish_advances hsane₁ hfinish).sane
    have hwaits₁ : (s.writer.set t (.writing { c with rest := [] })).audioWaits = true :=
      (audioWaits_set hne.symm _).trans haudio
    have hwaits₂ : ((s.writer.set t (.writing { c with rest := [] })).done t).audioWaits = true :=
      (audioWaits_set hne.symm _).trans hwaits₁
    have hnone₂ := (done_coherent hsane₁.coherent (SharedWriter.set_tasks_self _ _ _) hhead).2
    obtain ⟨acts, s', hmeets, hrun, hwrites, hwire⟩ := audio_reaches hsane₂ hfailed
      (by simp [System.audioWaits, hphase, hwaits₂])
      (by simpa [System.current?, hphase] using hnone₂)
      (by simp [SharedWriter.done, SharedWriter.release, hline] : _ = before ++ .audio :: after)
    refine ⟨.accept t c.rest.length :: .finish t :: acts, s', ⟨hwaits, ?_⟩,
      run_cons_some.mpr ⟨_, haccept, run_cons_some.mpr ⟨_, hfinish, hrun⟩⟩, hwrites, ?_⟩
    · intro s₁ hs₁
      rw [haccept, Option.some.injEq] at hs₁
      subst hs₁
      refine ⟨by simp [System.audioWaits, hphase, hwaits₁], fun s₂ hs₂ => ?_⟩
      rw [hfinish, Option.some.injEq] at hs₂
      exact hs₂ ▸ hmeets
    · rw [hwire, System.budget]
      simp only [System.current?, hphase, hcurrent, Option.elim_some]

/-- The wire, the flag and the turns of a connection are in order. -/
structure Sound (s : System) : Prop where
  /-- Whole buffers, and the beginning of one more only if the rest of it is being
  written or nothing is written any more. -/
  wire : ∃ whole part, s.wire = List.flatten whole ++ part ∧ (∀ b ∈ whole, b ∈ s.passed) ∧
    (part = [] ∨ ∃ b ∈ s.passed, part <+: b ∧
      (s.ended ∨ ∃ rest, part ++ rest = b ∧ s.current? = some ⟨b, rest⟩))
  frozen : s.ended → ∀ acts s', run System.step s acts = some s' → s'.wire = s.wire
  /-- The flag is up exactly while an audio write waits. -/
  flag : s.writer.audioWaiting = s.audioWaits
  /-- No other write starts while an audio write waits. -/
  turn : ∀ a s' t, s.step a = some s' → t ≠ .audio → s.writeOf t = none → s'.writeOf t ≠ none →
    s.audioWaits = false
  /-- Before a waiting audio write starts, only the buffer in progress goes on. -/
  next : s.audioWaits = true → ∀ acts s',
    Meets System.step (fun s _ => s.audioWaits = true) s acts →
    run System.step s acts = some s' → s'.wire <+: s.budget
  /-- And once that is complete it can start, unless it announced a reactivation. -/
  starts : s.audioWaits = true → ¬s.ended → (s.resizing = true → s.writeOf .display = none) →
    ∃ acts s', Meets System.step (fun s _ => s.audioWaits = true) s acts ∧
      run System.step s acts = some s' ∧ s'.writeOf .audio ≠ none ∧ s'.wire = s.budget

/-- Nothing is written once the stream is dead. -/
theorem run_frozen {acts : List Action} (h : Sane s) (hend : s.ended)
    (hrun : run System.step s acts = some s') : s'.wire = s.wire := by
  have hinv : Sane s' ∧ s'.ended ∧ s'.wire = s.wire :=
    run_invariant_of_step (fun x => Sane x ∧ x.ended ∧ x.wire = s.wire)
      (fun x a y hx hstep => by
        have hadv := step_advances hx.1 hstep
        exact ⟨hadv.sane, hadv.keeps.ended hx.2.1,
          (hadv.effect.frozen hx.2.1).trans hx.2.2⟩)
      ⟨h, hend, rfl⟩ hrun
  exact hinv.2.2

/-- While audio waits, a run writes no more than the rest of the write in progress. -/
theorem run_budget {acts : List Action} (h : Sane s)
    (hmeets : Meets System.step (fun s _ => s.audioWaits = true) s acts)
    (hrun : run System.step s acts = some s') : s'.wire <+: s.budget := by
  have hinv : Sane s' ∧ s'.wire <+: s.budget ∧ (s'.audioWaits = true → s'.budget <+: s.budget) :=
    run_invariant (fun x => Sane x ∧ x.wire <+: s.budget ∧
        (x.audioWaits = true → x.budget <+: s.budget))
      (fun x a y hx hcond hstep => by
        have hadv := step_advances hx.1 hstep
        have hbudget := hadv.effect.budget hcond
        have hpre := hx.2.2 hcond
        exact ⟨hadv.sane, hbudget.1.trans hpre, fun hy => (hbudget.2 hy).trans hpre⟩)
      ⟨h, List.prefix_append _ _, fun _ => List.prefix_rfl⟩ hmeets hrun
  exact hinv.2.1

/-- In every reachable state the wire, the flag and the turns are in order. -/
theorem wire_sound (acts : List Action) (s : System)
    (hrun : run System.step .init acts = some s) : Sound s := by
  have hinv : Sane s ∧ Tracked s :=
    run_invariant_of_step (fun s => Sane s ∧ Tracked s)
      (fun _ _ _ hs hstep =>
        have hadv := step_advances hs.1 hstep
        ⟨hadv.sane, hs.2.step hadv.effect hadv.keeps⟩)
      ⟨sane_init, tracked_init⟩ hrun
  obtain ⟨h, whole, part, hwire, hwhole, hpart, hcurrent⟩ := hinv
  refine ⟨⟨whole, part, hwire, hwhole, ?_⟩, fun hend _ _ => run_frozen h hend, ?_,
    fun _ _ _ hstep hbulk => step_turn h hstep hbulk, fun _ _ _ => run_budget h,
    fun hwaits hlive => audio_starts h hlive hwaits⟩
  · by_cases hend : s.ended
    · exact hpart.imp_right fun ⟨b, hb, hpre⟩ => ⟨b, hb, hpre, .inl hend⟩
    · have hlive := hcurrent hend
      cases hc : s.current? with
      | none => exact .inl (by simpa [hc] using hlive)
      | some c =>
        rw [hc] at hlive
        exact .inr ⟨c.buf, hlive.2, ⟨c.rest, hlive.1⟩, .inr ⟨c.rest, hlive.1, rfl⟩⟩
  · rw [h.coherent.flag, System.audioWaits]
    by_cases hphase : s.phase = .looping
    · simp [hphase]
    · simp [hphase, SharedWriter.audioWaits, h.idle hphase]

/-- An event is on its way when an audio wave and a resize come up: the wave goes first,
and the stream is used on after the reactivation. -/
theorem wire_sound_reactivated :
    ∃ s, run System.step .init
        [.directBegin [1], .directAccept 1, .directFinish, .clientLoop, .begin .events [2, 3],
          .accept .events 1, .begin .audio [4], .resize [5], .accept .events 1, .finish .events,
          .poll .audio, .accept .audio 1, .finish .audio, .poll .display, .begin .pdu [9],
          .accept .display 1, .finish .display, .directBegin [6], .directAccept 1] = some s ∧
      s.wire = [1, 2, 3, 4, 5, 6] ∧ Sound s := by
  have hrun : (run System.step .init
      [.directBegin [1], .directAccept 1, .directFinish, .clientLoop, .begin .events [2, 3],
        .accept .events 1, .begin .audio [4], .resize [5], .accept .events 1, .finish .events,
        .poll .audio, .accept .audio 1, .finish .audio, .poll .display, .begin .pdu [9],
        .accept .display 1, .finish .display, .directBegin [6], .directAccept 1]).any
      (fun s => decide (s.wire = [1, 2, 3, 4, 5, 6])) = true := by decide +kernel
  obtain ⟨s, hs, hwire⟩ := (Option.any_eq_true _ _).mp hrun
  exact ⟨s, hs, of_decide_eq_true hwire, wire_sound _ s hs⟩

end Macrdp.SocketWriter
