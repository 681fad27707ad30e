import Macrdp.StepSystem
import Macrdp.SessionSize

/-!
# The size that a client echoes

Every activation of a connection, the first one and each reactivation, ends in a Confirm Active
whose bitmap capability names a size. In the first one it is the size that the client asked for; in
a reactivation, which the capture loop triggers, it is an echo that is to be ignored. One flag of
the process tells them apart: the capture loop sets it, and the next bitmap capability clears it.
-/

namespace Macrdp.SizeEcho

open StepSystem SessionSize

/-! ## The display -/

/-- What the display keeps from one connection to the next. -/
structure CaptureDisplay where
  /-- Whether a client's size is adopted. -/
  autoSize : Bool
  /-- Size of the session. -/
  desktopSize : DesktopSize
  /-- Whether the next bitmap capability is an echo. -/
  suppressNextAdopt : Bool
  /-- Mode of the virtual display, if there is one. -/
  virtualDisplay : Option DesktopSize
  /-- Packed size of a reactivation that was requested, `0` if none was. -/
  reactivateRequest : UInt32
  deriving DecidableEq

namespace CaptureDisplay

/-- Take a client's size; the second part is the size that is served. -/
def requestInitialSize (d : CaptureDisplay) (client : DesktopSize) :
    CaptureDisplay × DesktopSize :=
  if d.suppressNextAdopt = true then
    ({ d with suppressNextAdopt := false }, d.desktopSize)
  else
    match adoptClientSize d.autoSize d.desktopSize client with
    | some adopted => ({ d with desktopSize := adopted }, adopted)
    | none => (d, d.desktopSize)

/-- Bring the virtual display to the size of the session, or the size to the display if that
fails. -/
def syncVirtualDisplay (d : CaptureDisplay) (remoded : Bool) : CaptureDisplay :=
  match d.virtualDisplay with
  | none => d
  | some mode =>
    if mode = d.desktopSize then d
    else if remoded = true then { d with virtualDisplay := some d.desktopSize }
    else { d with desktopSize := mode }

/-- Request a reactivation at the size of the surface. -/
def performBlankReactivate (d : CaptureDisplay) (dims : DesktopSize) : CaptureDisplay :=
  { d with reactivateRequest := packSize dims.width dims.height }

/-- Take a requested reactivation. -/
def takeReactivateRequest (d : CaptureDisplay) : Option DesktopSize :=
  if d.reactivateRequest = 0 then none else some (unpackSize d.reactivateRequest)

/-- Trigger a requested reactivation. -/
def armReactivation (d : CaptureDisplay) : CaptureDisplay :=
  { d with reactivateRequest := 0, suppressNextAdopt := true }

/-- Apply a resize that has settled. -/
def armResize (d : CaptureDisplay) (size : DesktopSize) : CaptureDisplay :=
  { d with desktopSize := size, suppressNextAdopt := true }

/-- An echo is ignored, and the flag is spent. -/
theorem requestInitialSize_armed {d : CaptureDisplay} (h : d.suppressNextAdopt = true)
    (client : DesktopSize) :
    d.requestInitialSize client = ({ d with suppressNextAdopt := false }, d.desktopSize) := by
  rw [requestInitialSize, if_pos h]

/-- Without the flag a client's size is adopted if it may be. -/
theorem requestInitialSize_unarmed {d : CaptureDisplay} (h : d.suppressNextAdopt = false)
    (client : DesktopSize) :
    d.requestInitialSize client =
      ({ d with desktopSize := (adoptClientSize d.autoSize d.desktopSize client).getD d.desktopSize },
        (adoptClientSize d.autoSize d.desktopSize client).getD d.desktopSize) := by
  rw [requestInitialSize, if_neg (by rw [h]; exact Bool.false_ne_true)]
  cases adoptClientSize d.autoSize d.desktopSize client with
  | some adopted | none => rfl

end CaptureDisplay

/-! ## A Confirm Active -/

/-- A capability set of a client, with what the server reads of it. -/
inductive CapabilitySet where
  /-- Whether fast-path output is supported. -/
  | general (fastpath : Bool)
  /-- Whether the client can resize its desktop, and its size. -/
  | bitmap (desktopResizeFlag : Bool) (size : DesktopSize)
  | other
  deriving DecidableEq, Repr

/-- What taking in a Confirm Active did. -/
structure Accepted where
  /-- The display after it. -/
  display : CaptureDisplay
  /-- The sizes of the client and the sizes that were served for them. -/
  served : List (DesktopSize × DesktopSize)
  /-- Whether the connection goes on. -/
  ok : Bool
  deriving DecidableEq

/-- Take in the capability sets of a client, until one of them is refused. -/
def clientAccepted (d : CaptureDisplay) : List CapabilitySet → Accepted
  | [] => ⟨d, [], true⟩
  | .general fastpath :: rest => if fastpath = true then clientAccepted d rest else ⟨d, [], false⟩
  | .bitmap desktopResizeFlag size :: rest =>
    if desktopResizeFlag = true then
      let result := d.requestInitialSize size
      let accepted := clientAccepted result.1 rest
      { accepted with served := (size, result.2) :: accepted.served }
    else clientAccepted d rest
  | .other :: rest => clientAccepted d rest

/-- The sizes that a Confirm Active presents. -/
def presented : List CapabilitySet → List DesktopSize
  | [] => []
  | .general fastpath :: rest => if fastpath = true then presented rest else []
  | .bitmap desktopResizeFlag size :: rest =>
    if desktopResizeFlag = true then size :: presented rest else presented rest
  | .other :: rest => presented rest

/-- Whether a capability set ends the connection. -/
def refused (capabilities : List CapabilitySet) : Bool :=
  capabilities.any fun capability => capability = .general false

/-- The connection goes on unless it is refused. -/
theorem clientAccepted_ok (d : CaptureDisplay) (capabilities : List CapabilitySet) :
    (clientAccepted d capabilities).ok = !refused capabilities := by
  induction capabilities generalizing d with
  | nil => rfl
  | cons capability rest ih =>
    cases capability with
    | general fastpath =>
      cases fastpath with
      | true => exact ih d
      | false => rfl
    | bitmap desktopResizeFlag size =>
      cases desktopResizeFlag with
      | true => exact ih _
      | false => exact ih d
    | other => exact ih d

/-- Serve some sizes one after the other. -/
def serveAll (d : CaptureDisplay) :
    List DesktopSize → CaptureDisplay × List (DesktopSize × DesktopSize)
  | [] => (d, [])
  | client :: rest =>
    let result := d.requestInitialSize client
    ((serveAll result.1 rest).1, (client, result.2) :: (serveAll result.1 rest).2)

/-- A Confirm Active serves the sizes that it presents. -/
theorem clientAccepted_eq (d : CaptureDisplay) (capabilities : List CapabilitySet) :
    (clientAccepted d capabilities).display = (serveAll d (presented capabilities)).1 ∧
      (clientAccepted d capabilities).served = (serveAll d (presented capabilities)).2 := by
  induction capabilities generalizing d with
  | nil => exact ⟨rfl, rfl⟩
  | cons capability rest ih =>
    cases capability with
    | general fastpath =>
      cases fastpath with
      | true => exact ih d
      | false => exact ⟨rfl, rfl⟩
    | bitmap desktopResizeFlag size =>
      cases desktopResizeFlag with
      | true =>
        obtain ⟨hdisplay, hserved⟩ := ih (d.requestInitialSize size).1
        exact ⟨hdisplay, congrArg ((size, (d.requestInitialSize size).2) :: ·) hserved⟩
      | false => exact ih d
    | other => exact ih d

variable {d : CaptureDisplay}

/-- Sizes that are served without the flag are served right, and leave it cleared. -/
theorem serveAll_unarmed (h : d.suppressNextAdopt = false) (sizes : List DesktopSize) :
    (serveAll d sizes).1.suppressNextAdopt = false ∧
      ∀ served ∈ (serveAll d sizes).2, d.autoSize = true → InBand served.1 →
        served.2 = served.1 := by
  induction sizes generalizing d with
  | nil => exact ⟨h, fun served hserved => by cases hserved⟩
  | cons client rest ih =>
    have hfirst := CaptureDisplay.requestInitialSize_unarmed h client
    have hflag : (d.requestInitialSize client).1.suppressNextAdopt = false := by
      rw [hfirst]
      exact h
    obtain ⟨hcleared, hrest⟩ := ih hflag
    refine ⟨hcleared, fun served hserved hauto hband => ?_⟩
    rcases List.mem_cons.mp hserved with rfl | hlater
    · rw [hfirst, hauto]
      exact getD_adoptClientSize hband
    · refine hrest served hlater ?_ hband
      rw [hfirst]
      exact hauto

/-- Without the flag the size of the session is served throughout exactly if no other size is
adopted. -/
theorem serveAll_kept (h : d.suppressNextAdopt = false) (sizes : List DesktopSize) :
    (∀ served ∈ (serveAll d sizes).2, served.2 = d.desktopSize) ↔
      ∀ client ∈ sizes, adoptClientSize d.autoSize d.desktopSize client = none := by
  induction sizes generalizing d with
  | nil =>
    exact ⟨fun _ client hclient => absurd hclient List.not_mem_nil,
      fun _ served hserved => absurd hserved List.not_mem_nil⟩
  | cons client rest ih =>
    have hfirst := CaptureDisplay.requestInitialSize_unarmed h client
    have hsplit : (∀ served ∈ (serveAll d (client :: rest)).2, served.2 = d.desktopSize) ↔
        (adoptClientSize d.autoSize d.desktopSize client).getD d.desktopSize = d.desktopSize ∧
          ∀ served ∈ (serveAll (d.requestInitialSize client).1 rest).2,
            served.2 = d.desktopSize := by
      have hcons := List.forall_mem_cons (a := (client, (d.requestInitialSize client).2))
        (l := (serveAll (d.requestInitialSize client).1 rest).2)
        (p := fun served => served.2 = d.desktopSize)
      rw [hfirst] at hcons
      rw [serveAll, hfirst]
      exact hcons
    rw [hsplit, List.forall_mem_cons]
    cases hadopt : adoptClientSize d.autoSize d.desktopSize client with
    | some adopted =>
      obtain ⟨rfl, -, hne, -⟩ := adoptClientSize_some hadopt
      exact ⟨fun hall => absurd hall.1 hne, fun hall => by cases hall.1⟩
    | none =>
      have hsame : (d.requestInitialSize client).1 = d := by
        rw [hfirst, hadopt]
        rfl
      rw [hsame]
      exact and_congr (iff_of_true rfl rfl) (ih h)

/-! ## Connections -/

/-- Where the server is with its connection. -/
inductive Phase where
  /-- There is no connection. -/
  | idle
  /-- Awaiting the Confirm Active, of a reactivation at a size or of the first activation. -/
  | activating (reactivation : Option DesktopSize)
  /-- Updates are served. -/
  | serving
  /-- The capture loop has triggered a reactivation at a size. -/
  | resizing (size : DesktopSize)
  deriving DecidableEq, Repr

/-- The display and the connection. -/
structure Server where
  display : CaptureDisplay
  phase : Phase
  deriving DecidableEq

/-- What happens to the server. -/
inductive Action where
  /-- A client connects. -/
  | connect
  /-- A Confirm Active arrives; the flag says whether a virtual display follows a new size. -/
  | confirm (capabilities : List CapabilitySet) (remoded : Bool)
  /-- The blank recovery requests a reactivation at the size of its surface. -/
  | blank (dims : DesktopSize)
  /-- The capture loop takes that request. -/
  | reactivate
  /-- The capture loop takes a resize that has settled. -/
  | resize (size : DesktopSize)
  /-- The client is deactivated. -/
  | deactivated
  /-- The connection ends. -/
  | lost
  deriving DecidableEq, Repr

/-- One step; `none` if it cannot happen. -/
def step (s : Server) : Action → Option Server
  | .connect => if s.phase = .idle then some { s with phase := .activating none } else none
  | .confirm capabilities remoded =>
    match s.phase with
    | .activating _ =>
      let accepted := clientAccepted s.display capabilities
      if accepted.ok = true then
        some ⟨accepted.display.syncVirtualDisplay remoded, .serving⟩
      else some ⟨accepted.display, .idle⟩
    | _ => none
  | .blank dims =>
    if s.phase = .serving then
      some { s with display := s.display.performBlankReactivate dims }
    else none
  | .reactivate =>
    if s.phase = .serving then
      s.display.takeReactivateRequest.map fun size => ⟨s.display.armReactivation, .resizing size⟩
    else none
  | .resize size =>
    if s.phase = .serving then some ⟨s.display.armResize size, .resizing size⟩ else none
  | .deactivated =>
    match s.phase with
    | .resizing size => some { s with phase := .activating (some size) }
    | _ => none
  | .lost => if s.phase = .idle then none else some { s with phase := .idle }

/-- The server before its first connection. -/
def start (autoSize : Bool) (desktopSize : DesktopSize) (virtualDisplay : Option DesktopSize) :
    Server := ⟨⟨autoSize, desktopSize, false, virtualDisplay, 0⟩, .idle⟩

/-- A size that is served is the size of the reactivation, and in the first activation the size of
the client if it may be adopted. -/
def servedRight (autoSize : Bool) (reactivation : Option DesktopSize)
    (served : DesktopSize × DesktopSize) : Bool :=
  match reactivation with
  | some size => served.2 = size
  | none => !autoSize || !decide (InBand served.1) || served.2 = served.1

/-- Every size that a step serves is right, and the flag does not outlive the connection that it
was set in. -/
def Proper (s : Server) (a : Action) : Prop :=
  (∀ reactivation capabilities remoded, s.phase = .activating reactivation →
    a = .confirm capabilities remoded →
    ∀ served ∈ (clientAccepted s.display capabilities).served,
      servedRight s.display.autoSize reactivation served = true) ∧
  ∀ s', step s a = some s' → s'.phase = .idle → s'.display.suppressNextAdopt = false

/-- The connection does not end while the flag is set. In a reactivation the size of the session is
the size announced to the client, only one size is presented that may be adopted, and one is
presented before the connection is refused. -/
def orderly (s : Server) : Action → Bool
  | .confirm capabilities _ =>
    match s.phase with
    | .activating (some size) =>
      match presented capabilities with
      | [] => !refused capabilities
      | _ :: rest => s.display.desktopSize = size &&
        rest.all fun client => adoptClientSize s.display.autoSize size client = none
    | _ => true
  | .lost => !s.display.suppressNextAdopt
  | _ => true

/-- Only a Confirm Active and a triggered reactivation of the capture loop touch the flag, and it is
set while a reactivation is under way. -/
def Armed (s : Server) : Prop :=
  match s.phase with
  | .idle => s.display.suppressNextAdopt = false
  | .activating none => s.display.suppressNextAdopt = false
  | .activating (some _) => s.display.suppressNextAdopt = true
  | .serving => True
  | .resizing _ => s.display.suppressNextAdopt = true

/-- In the first activation every size is right. -/
theorem first_right (h : d.suppressNextAdopt = false) (capabilities : List CapabilitySet) :
    (∀ served ∈ (clientAccepted d capabilities).served,
      servedRight d.autoSize none served = true) ∧
      (clientAccepted d capabilities).display.suppressNextAdopt = false := by
  obtain ⟨hdisplay, hserved⟩ := clientAccepted_eq d capabilities
  obtain ⟨hflag, hall⟩ := serveAll_unarmed h (presented capabilities)
  rw [hdisplay, hserved]
  refine ⟨fun served hmem => ?_, hflag⟩
  have hright := hall served hmem
  simp only [servedRight, Bool.or_eq_true, Bool.not_eq_true', decide_eq_false_iff_not,
    decide_eq_true_eq]
  by_cases hauto : d.autoSize = true
  · by_cases hband : InBand served.1
    · exact .inr (hright hauto hband)
    · exact .inl (.inr hband)
  · exact .inl (.inl (Bool.eq_false_iff.mpr hauto))

/-- In a reactivation every size is right exactly if the size of the session is the announced one
and no echo behind the first is adopted. -/
theorem echo_right (h : d.suppressNextAdopt = true) (size client : DesktopSize)
    (rest : List DesktopSize) :
    (∀ served ∈ (serveAll d (client :: rest)).2, servedRight d.autoSize (some size) served = true) ↔
      d.desktopSize = size ∧
        ∀ echo ∈ rest, adoptClientSize d.autoSize size echo = none := by
  have hfirst := CaptureDisplay.requestInitialSize_armed h client
  have hcons := List.forall_mem_cons (a := (client, (d.requestInitialSize client).2))
    (l := (serveAll (d.requestInitialSize client).1 rest).2)
    (p := fun served => servedRight d.autoSize (some size) served = true)
  have hsplit : (∀ served ∈ (serveAll d (client :: rest)).2,
      servedRight d.autoSize (some size) served = true) ↔ d.desktopSize = size ∧
        ∀ served ∈ (serveAll { d with suppressNextAdopt := false } rest).2, served.2 = size := by
    rw [hfirst] at hcons
    simp only [servedRight, decide_eq_true_eq] at hcons ⊢
    rw [serveAll, hfirst]
    exact hcons
  rw [hsplit]
  refine and_congr_right fun hsize => ?_
  rw [← hsize]
  exact serveAll_kept (d := { d with suppressNextAdopt := false }) rfl rest

/-- A reactivation that presents a size clears the flag. -/
theorem echo_cleared (h : d.suppressNextAdopt = true)
    {capabilities : List CapabilitySet} (hsome : presented capabilities ≠ []) :
    (clientAccepted d capabilities).display.suppressNextAdopt = false := by
  rw [(clientAccepted_eq d capabilities).1]
  cases hsizes : presented capabilities with
  | nil => exact absurd hsizes hsome
  | cons client rest =>
    rw [serveAll, CaptureDisplay.requestInitialSize_armed h]
    exact (serveAll_unarmed rfl rest).1

variable {s : Server}

/-- What a Confirm Active does to the connection. -/
theorem confirm_some {s' : Server} {reactivation : Option DesktopSize}
    {capabilities : List CapabilitySet} {remoded : Bool} (hphase : s.phase = .activating reactivation)
    (hstep : step s (.confirm capabilities remoded) = some s') :
    ((clientAccepted s.display capabilities).ok = true ∧ s'.phase = .serving) ∨
      ((clientAccepted s.display capabilities).ok = false ∧ s'.phase = .idle ∧
        s'.display = (clientAccepted s.display capabilities).display) := by
  simp only [step, hphase] at hstep
  cases hok : (clientAccepted s.display capabilities).ok with
  | true =>
    rw [hok, if_pos rfl, Option.some.injEq] at hstep
    exact .inl ⟨rfl, by rw [← hstep]⟩
  | false =>
    rw [hok, if_neg Bool.false_ne_true, Option.some.injEq] at hstep
    exact .inr ⟨rfl, by rw [← hstep], by rw [← hstep]⟩

/-- A Confirm Active is proper exactly if it is orderly. -/
theorem proper_confirm_iff (h : Armed s) (capabilities : List CapabilitySet) (remoded : Bool) :
    Proper s (.confirm capabilities remoded) ↔ orderly s (.confirm capabilities remoded) = true := by
  cases hphase : s.phase with
  | activating reactivation =>
    rw [Armed, hphase] at h
    cases reactivation with
    | none =>
      obtain ⟨hright, hflag⟩ := first_right h capabilities
      refine iff_of_true ⟨?_, ?_⟩ (by rw [orderly, hphase])
      · intro reactivation' capabilities' remoded' hphase' ha
        rw [hphase] at hphase'
        cases hphase'
        cases ha
        exact hright
      · intro s' hstep hidle
        rcases confirm_some hphase hstep with ⟨-, hserving⟩ | ⟨-, -, hdisplay⟩
        · rw [hserving] at hidle
          cases hidle
        · rw [hdisplay]
          exact hflag
    | some size =>
      have hserved := (clientAccepted_eq s.display capabilities).2
      cases hsizes : presented capabilities with
      | nil =>
        have hnone : (clientAccepted s.display capabilities).served = [] := by
          rw [hserved, hsizes]
          rfl
        have hdisplay : (clientAccepted s.display capabilities).display = s.display := by
          rw [(clientAccepted_eq s.display capabilities).1, hsizes]
          rfl
        simp only [orderly, hphase, hsizes]
        rw [← clientAccepted_ok s.display]
        constructor
        · rintro ⟨-, hends⟩
          by_contra hok
          have hfalse := Bool.eq_false_iff.mpr hok
          have hstep : step s (.confirm capabilities remoded) =
              some ⟨(clientAccepted s.display capabilities).display, .idle⟩ := by
            simp only [step, hphase, hfalse, if_neg Bool.false_ne_true]
          have hcleared := hends _ hstep rfl
          rw [hdisplay, h] at hcleared
          cases hcleared
        · intro hok
          refine ⟨?_, ?_⟩
          · intro reactivation' capabilities' remoded' hphase' ha
            cases ha
            rw [hnone]
            exact fun served hmem => absurd hmem List.not_mem_nil
          · intro s' hstep hidle
            rcases confirm_some hphase hstep with ⟨-, hserving⟩ | ⟨hfalse, -⟩
            · rw [hserving] at hidle
              cases hidle
            · rw [hok] at hfalse
              cases hfalse
      | cons client rest =>
        have hpresented : presented capabilities ≠ [] := by
          rw [hsizes]
          exact List.cons_ne_nil _ _
        have hcleared := echo_cleared h hpresented
        have hecho := echo_right h size client rest
        rw [← hsizes, ← hserved] at hecho
        simp only [orderly, hphase, hsizes, Bool.and_eq_true, decide_eq_true_eq, List.all_eq_true]
        rw [← hecho]
        constructor
        · rintro ⟨hall, -⟩
          exact hall (some size) capabilities remoded hphase rfl
        · intro hall
          refine ⟨?_, ?_⟩
          · intro reactivation' capabilities' remoded' hphase' ha
            rw [hphase] at hphase'
            cases hphase'
            cases ha
            exact hall
          · intro s' hstep hidle
            rcases confirm_some hphase hstep with ⟨-, hserving⟩ | ⟨-, -, hdisplay⟩
            · rw [hserving] at hidle
              cases hidle
            · rw [hdisplay]
              exact hcleared
  | _ =>
    refine iff_of_true ⟨?_, ?_⟩ (by rw [orderly, hphase])
    · intro reactivation' capabilities' remoded' hphase'
      rw [hphase] at hphase'
      cases hphase'
    · intro s' hstep
      simp only [step, hphase] at hstep
      cases hstep

/-- A step after which the connection is up is proper. -/
theorem proper_of_up {a : Action} (hconfirm : ∀ caps remoded, a ≠ .confirm caps remoded)
    (hup : ∀ s', step s a = some s' → s'.phase ≠ .idle) : Proper s a :=
  ⟨fun _ caps remoded _ ha => absurd ha (hconfirm caps remoded),
    fun s' hstep hidle => absurd hidle (hup s' hstep)⟩

/-- A step is proper exactly if it is orderly. -/
theorem proper_iff (h : Armed s) (a : Action) : Proper s a ↔ orderly s a = true := by
  cases a with
  | confirm capabilities remoded => exact proper_confirm_iff h capabilities remoded
  | connect | resize size =>
    refine iff_of_true (proper_of_up nofun fun s' hstep => ?_) rfl
    rw [step, Option.ite_none_right_eq_some] at hstep
    rw [← Option.some.inj hstep.2]
    exact nofun
  | blank dims =>
    refine iff_of_true (proper_of_up nofun fun s' hstep => ?_) rfl
    rw [step, Option.ite_none_right_eq_some] at hstep
    rw [← Option.some.inj hstep.2]
    exact fun hidle => by rw [hstep.1] at hidle; cases hidle
  | reactivate =>
    refine iff_of_true (proper_of_up nofun fun s' hstep => ?_) rfl
    rw [step, Option.ite_none_right_eq_some] at hstep
    obtain ⟨size, -, rfl⟩ := Option.map_eq_some_iff.mp hstep.2
    exact nofun
  | deactivated =>
    refine iff_of_true (proper_of_up nofun fun s' hstep => ?_) rfl
    rw [step] at hstep
    split at hstep
    · rw [← Option.some.inj hstep]
      exact nofun
    · cases hstep
  | lost =>
    rw [orderly, Bool.not_eq_true']
    refine ⟨fun hproper => ?_, fun hflag => ?_⟩
    · by_cases hidle : s.phase = .idle
      · rw [Armed, hidle] at h
        exact h
      · exact hproper.2 { s with phase := .idle } (by rw [step, if_neg hidle]) rfl
    · refine ⟨nofun, fun s' hstep _ => ?_⟩
      rw [step, Option.ite_none_left_eq_some] at hstep
      rw [← Option.some.inj hstep.2]
      exact hflag

/-- An orderly step keeps the flag in step with the reactivations. -/
theorem armed_step {s' : Server} {a : Action} (h : Armed s) (ha : orderly s a = true)
    (hstep : step s a = some s') : Armed s' := by
  have hends := ((proper_iff h a).mpr ha).2 s' hstep
  cases a with
  | connect =>
    rw [step, Option.ite_none_right_eq_some] at hstep
    rw [Armed, hstep.1] at h
    rw [← Option.some.inj hstep.2]
    exact h
  | confirm capabilities remoded =>
    cases hphase : s.phase with
    | activating reactivation =>
      rcases confirm_some hphase hstep with ⟨-, hserving⟩ | ⟨-, hidle, -⟩
      · rw [Armed, hserving]
        trivial
      · rw [Armed, hidle]
        exact hends hidle
    | _ =>
      simp only [step, hphase] at hstep
      cases hstep
  | blank dims =>
    rw [step, Option.ite_none_right_eq_some] at hstep
    rw [← Option.some.inj hstep.2, Armed, hstep.1]
    trivial
  | reactivate =>
    rw [step, Option.ite_none_right_eq_some] at hstep
    obtain ⟨size, -, rfl⟩ := Option.map_eq_some_iff.mp hstep.2
    rfl
  | resize size =>
    rw [step, Option.ite_none_right_eq_some] at hstep
    rw [← Option.some.inj hstep.2]
    rfl
  | deactivated =>
    cases hphase : s.phase with
    | resizing size =>
      rw [Armed, hphase] at h
      simp only [step, hphase, Option.some.injEq] at hstep
      rw [← hstep]
      exact h
    | _ =>
      simp only [step, hphase] at hstep
      cases hstep
  | lost =>
    rw [step, Option.ite_none_left_eq_some] at hstep
    have hidle : s'.phase = .idle := by rw [← Option.some.inj hstep.2]
    rw [Armed, hidle]
    exact hends hidle

/-- The echo of a size is ignored exactly in reactivations, and the flag does not survive into a
later activation, exactly in the runs whose every step is orderly. -/
theorem echo_ignored_iff (autoSize : Bool) (desktopSize : DesktopSize)
    (virtualDisplay : Option DesktopSize) (acts : List Action) :
    Meets step Proper (start autoSize desktopSize virtualDisplay) acts ↔
      Meets step (fun s a => orderly s a = true) (start autoSize desktopSize virtualDisplay) acts :=
  meets_congr Armed (fun _ a h => proper_iff h a) (fun _ _ _ h ha hstep => armed_step h ha hstep)
    rfl

/-- A size of a phone. -/
def small : DesktopSize := ⟨1280, 720⟩

/-- A size of a desktop. -/
def large : DesktopSize := ⟨1920, 1080⟩

/-- A resize is applied, and the connection ends before the reactivation it was applied for; the
next client asks for its own size. -/
def lostResize : List Action :=
  [.connect, .confirm [.bitmap true large] false, .resize ⟨1600, 900⟩, .lost, .connect,
    .confirm [.bitmap true small] false]

/-- The next client is served the size of the last one. -/
theorem not_echo_ignored_lost :
    ¬∀ (autoSize : Bool) (desktopSize : DesktopSize) (virtualDisplay : Option DesktopSize)
      (acts : List Action), Meets step Proper (start autoSize desktopSize virtualDisplay) acts := by
  intro h
  obtain ⟨-, hlast⟩ := (meets_append (lostResize.take 5) (lostResize.drop 5) _).mp
    (h true large none lostResize)
  have hrun : run step (start true large none) (lostResize.take 5) =
      some ⟨⟨true, ⟨1600, 900⟩, true, none, 0⟩, .activating none⟩ := by decide
  have hserved := (hlast _ hrun).1.1 none [.bitmap true small] false rfl rfl
    (small, ⟨1600, 900⟩) (by decide)
  revert hserved
  decide

end Macrdp.SizeEcho
