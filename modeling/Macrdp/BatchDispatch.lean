import Mathlib.Data.List.Basic
import Mathlib.Algebra.Order.Ring.Nat

/-!
# Dispatching a batch of server events

The client loop collects a batch of events and dispatches it. The dispatch puts what it is
given in order: clipboard events ahead of the video they would wait behind, bulk drive
requests after it, and the messages of neighbouring video events together. The client loop
hands it one event at a time.
-/

namespace Macrdp.BatchDispatch

/-- An event for the client loop, with the payload of its channel. -/
inductive ServerEvent (β μ : Type) where
  | quit
  | evictedByOtherConnection
  | clipboard (message : β)
  | clipboardFileCopy (files : β)
  | rdpsnd (message : β)
  | rdpdr (messages : β)
  | urbdrc (message : β)
  | camera (message : β)
  | echo (message : β)
  | setCredentials (creds : β)
  | getLocalAddr
  /-- Encoded messages of the graphics channel. -/
  | egfx (messages : List μ)
  | autoDetectRttRequest
  deriving DecidableEq

/-- What is written to the socket at once. -/
inductive Item (β μ : Type) where
  /-- What the arm of an event writes. -/
  | event (e : ServerEvent β μ)
  /-- A message of the graphics channel. -/
  | dvc (message : μ)
  deriving DecidableEq

/-- Whether the client loop goes on. -/
inductive RunState where
  | continue
  | disconnect
  deriving DecidableEq

/-- What the connection has to offer its events. -/
structure Server (β μ : Type) where
  /-- The arm of the event gets to its write: its channel is there and takes the message. -/
  writes : ServerEvent β μ → Bool
  /-- Graphics messages go to the socket, not to a tunnel. -/
  egfxOnTcp : Bool

variable {β μ : Type}

namespace ServerEvent

def isEgfx : ServerEvent β μ → Bool
  | .egfx _ => true
  | _ => false

def isClipboard : ServerEvent β μ → Bool
  | .clipboard _ => true
  | .clipboardFileCopy _ => true
  | _ => false

def isRdpdr : ServerEvent β μ → Bool
  | .rdpdr _ => true
  | _ => false

/-- The arm of the event ends the client loop. -/
def stops : ServerEvent β μ → Bool
  | .quit => true
  | .evictedByOtherConnection => true
  | _ => false

/-- The place of the event in a batch, the first being zero. -/
def tier (e : ServerEvent β μ) : ℕ := if e.isClipboard then 0 else if e.isRdpdr then 2 else 1

end ServerEvent

open ServerEvent

/-- What the arm of an event writes. -/
def items (srv : Server β μ) : ServerEvent β μ → List (Item β μ)
  | .quit => []
  | .setCredentials _ => []
  | .getLocalAddr => []
  | .egfx messages => if srv.egfxOnTcp then messages.map .dvc else []
  | e => if srv.writes e then [.event e] else []

/-- The arms run one after the other. -/
def runArms (srv : Server β μ) : List (ServerEvent β μ) → List (Item β μ) × RunState
  | [] => ([], .continue)
  | e :: rest =>
    if e.stops then (items srv e, .disconnect)
    else (items srv e ++ (runArms srv rest).1, (runArms srv rest).2)

/-- Add an event to the merged ones, its messages to those of a graphics event at the end. -/
def mergeEgfx (acc : List (ServerEvent β μ) × ℕ) (e : ServerEvent β μ) :
    List (ServerEvent β μ) × ℕ :=
  match e with
  | .egfx messages =>
    match acc.1.getLast? with
    | some (.egfx previous) =>
      (acc.1.dropLast ++ [.egfx (previous ++ messages)], acc.2 + messages.length)
    | _ => (acc.1 ++ [.egfx messages], acc.2)
  | other => (acc.1 ++ [other], acc.2)

/-- Two graphics events are neighbours. -/
def hasAdjacentEgfx : List (ServerEvent β μ) → Bool
  | e :: f :: rest => (e.isEgfx && f.isEgfx) || hasAdjacentEgfx (f :: rest)
  | _ => false

/-- Merge neighbouring graphics events; gives the events and how many messages moved. -/
def coalesceAdjacentEgfx (events : List (ServerEvent β μ)) : List (ServerEvent β μ) × ℕ :=
  if events.length < 2 then (events, 0)
  else if !hasAdjacentEgfx events then (events, 0)
  else events.foldl mergeEgfx ([], 0)

/-- Clipboard events first and drive requests last. -/
def reorder (events : List (ServerEvent β μ)) : List (ServerEvent β μ) :=
  if events.any isEgfx && events.any fun e => e.isClipboard || e.isRdpdr then
    events.filter isClipboard ++ events.filter (fun e => !e.isClipboard && !e.isRdpdr) ++
      events.filter isRdpdr
  else events

/-- Dispatch events. -/
def dispatchServerEvents (srv : Server β μ) (events : List (ServerEvent β μ)) :
    List (Item β μ) × RunState :=
  runArms srv (coalesceAdjacentEgfx (reorder events)).1

/-- The client loop dispatches the batch that it collected, one event at a time. -/
def dispatchEvents (srv : Server β μ) : List (ServerEvent β μ) → List (Item β μ) × RunState
  | [] => ([], .continue)
  | e :: rest =>
    match dispatchServerEvents srv [e] with
    | (written, .continue) =>
      (written ++ (dispatchEvents srv rest).1, (dispatchEvents srv rest).2)
    | (written, .disconnect) => (written, .disconnect)

/-- What a batch is to write: clipboard events, then graphics and all others, then drive
requests, each in the order of arrival, until one ends the loop. -/
def promised (srv : Server β μ) (batch : List (ServerEvent β μ)) : List (Item β μ) :=
  (runArms srv (batch.filter (fun e => e.tier = 0) ++ batch.filter (fun e => e.tier = 1) ++
    batch.filter (fun e => e.tier = 2))).1

/-- The event writes nothing and the loop goes on. -/
def Silent (srv : Server β μ) (e : ServerEvent β μ) : Prop := items srv e = [] ∧ e.stops = false

instance [DecidableEq β] [DecidableEq μ] (srv : Server β μ) (e : ServerEvent β μ) :
    Decidable (Silent srv e) := inferInstanceAs (Decidable (_ ∧ _))

/-- The batch arrived in order: up to the event that ends the loop, none has an event of an
earlier tier behind it. -/
def Orderly (srv : Server β μ) : List (ServerEvent β μ) → Prop
  | [] => True
  | e :: rest =>
    (Silent srv e ∨ ∀ f ∈ rest, Silent srv f ∨ e.tier ≤ f.tier) ∧
      (e.stops = true ∨ Orderly srv rest)

/-! ## The arms -/

/-- Arms in a row write what the first ones do, and the others unless one ends the loop. -/
theorem runArms_append (srv : Server β μ) (front back : List (ServerEvent β μ)) :
    (runArms srv (front ++ back)).1 =
      (runArms srv front).1 ++ if front.any stops then [] else (runArms srv back).1 := by
  induction front with
  | nil => rfl
  | cons e front ih =>
    rw [List.cons_append, runArms, runArms, List.any_cons]
    cases hstops : e.stops with
    | true => simp
    | false => simp [ih]

variable {srv : Server β μ}

/-- What is written was written by one of the arms. -/
theorem exists_of_mem_runArms {events : List (ServerEvent β μ)}
    {x : Item β μ} (h : x ∈ (runArms srv events).1) : ∃ e ∈ events, x ∈ items srv e := by
  induction events with
  | nil => exact absurd h List.not_mem_nil
  | cons e rest ih =>
    rw [runArms] at h
    split at h
    · exact ⟨e, List.mem_cons_self, h⟩
    · rcases List.mem_append.mp h with hhead | htail
      · exact ⟨e, List.mem_cons_self, hhead⟩
      · obtain ⟨f, hf, hx⟩ := ih htail
        exact ⟨f, List.mem_cons_of_mem _ hf, hx⟩

/-- Arms that write nothing and end nothing make no difference. -/
theorem runArms_silent_append {front : List (ServerEvent β μ)}
    (h : ∀ e ∈ front, Silent srv e) (back : List (ServerEvent β μ)) :
    (runArms srv (front ++ back)).1 = (runArms srv back).1 := by
  induction front with
  | nil => rfl
  | cons e front ih =>
    obtain ⟨hitems, hstops⟩ := h e List.mem_cons_self
    rw [List.cons_append, runArms, hitems, hstops]
    simpa using ih fun f hf => h f (List.mem_cons_of_mem _ hf)

/-- Arms that end nothing and together write nothing each write nothing. -/
theorem silent_of_runArms_eq_nil {events : List (ServerEvent β μ)}
    (hstops : ∀ e ∈ events, e.stops = false) (h : (runArms srv events).1 = []) :
    ∀ e ∈ events, Silent srv e := by
  induction events with
  | nil => exact fun e he => absurd he List.not_mem_nil
  | cons e rest ih =>
    have hhead := hstops e List.mem_cons_self
    rw [runArms, hhead] at h
    obtain ⟨hitems, hrest⟩ := List.append_eq_nil_iff.mp h
    intro f hf
    rcases List.mem_cons.mp hf with rfl | hmem
    · exact ⟨hitems, hhead⟩
    · exact ih (fun g hg => hstops g (List.mem_cons_of_mem _ hg)) hrest f hmem

/-! ## The dispatch of a whole batch -/

/-- The events of a batch by their tier. -/
def byTier (batch : List (ServerEvent β μ)) : List (ServerEvent β μ) :=
  batch.filter (fun e => e.tier = 0) ++ batch.filter (fun e => e.tier = 1) ++
    batch.filter (fun e => e.tier = 2)

/-- Adding an event to the merged ones writes what it writes. -/
theorem runArms_mergeEgfx (srv : Server β μ) (acc : List (ServerEvent β μ) × ℕ)
    (e : ServerEvent β μ) (rest : List (ServerEvent β μ)) :
    (runArms srv ((mergeEgfx acc e).1 ++ rest)).1 = (runArms srv (acc.1 ++ e :: rest)).1 := by
  have happend : (runArms srv (acc.1 ++ [e] ++ rest)).1 = (runArms srv (acc.1 ++ e :: rest)).1 := by
    rw [List.append_assoc]
    rfl
  unfold mergeEgfx
  split
  · next messages =>
    split
    · next previous hlast =>
      have hsplit : acc.1 = acc.1.dropLast ++ [.egfx previous] := by
        exact (List.dropLast_append_getLast? _ hlast).symm
      rw [hsplit]
      simp only [List.dropLast_concat, List.append_assoc, List.singleton_append]
      rw [runArms_append, runArms_append srv acc.1.dropLast]
      congr 2
      simp only [runArms, stops, items]
      cases srv.egfxOnTcp <;> simp
    · exact happend
  · exact happend

/-- Merging neighbours changes nothing that is written. -/
theorem runArms_coalesceAdjacentEgfx (srv : Server β μ) (events : List (ServerEvent β μ)) :
    (runArms srv (coalesceAdjacentEgfx events).1).1 = (runArms srv events).1 := by
  have hfold : ∀ (acc : List (ServerEvent β μ) × ℕ),
      (runArms srv (events.foldl mergeEgfx acc).1).1 = (runArms srv (acc.1 ++ events)).1 := by
    induction events with
    | nil =>
      intro acc
      rw [List.foldl_nil, List.append_nil]
    | cons e rest ih =>
      intro acc
      rw [List.foldl_cons, ih, runArms_mergeEgfx]
  unfold coalesceAdjacentEgfx
  split
  · rfl
  · split
    · rfl
    · exact hfold ([], 0)

/-- The tiers are the three groups. -/
theorem byTier_eq (batch : List (ServerEvent β μ)) :
    byTier batch = batch.filter isClipboard ++
      batch.filter (fun e => !e.isClipboard && !e.isRdpdr) ++ batch.filter isRdpdr := by
  have hclipboard : ∀ e : ServerEvent β μ, decide (e.tier = 0) = e.isClipboard := by
    intro e
    cases e <;> rfl
  have hmiddle : ∀ e : ServerEvent β μ,
      decide (e.tier = 1) = (!e.isClipboard && !e.isRdpdr) := by
    intro e
    cases e <;> rfl
  have hrdpdr : ∀ e : ServerEvent β μ, decide (e.tier = 2) = e.isRdpdr := by
    intro e
    cases e <;> rfl
  simp only [byTier, hclipboard, hmiddle, hrdpdr]

/-- Handed a whole batch with video in it, the dispatch writes what is promised. -/
theorem dispatchServerEvents_batch (srv : Server β μ) {batch : List (ServerEvent β μ)}
    (h : batch.any isEgfx = true) : (dispatchServerEvents srv batch).1 = promised srv batch := by
  rw [dispatchServerEvents, runArms_coalesceAdjacentEgfx]
  change _ = (runArms srv (byTier batch)).1
  rw [reorder, h, byTier_eq, Bool.true_and]
  split
  · rfl
  · next hnone =>
    have hmiddle : ∀ e ∈ batch, e.isClipboard = false ∧ e.isRdpdr = false := by
      simpa using hnone
    have hclipboard : batch.filter isClipboard = [] :=
      List.filter_eq_nil_iff.mpr fun e he => by simp [hmiddle e he]
    have hrdpdr : batch.filter isRdpdr = [] :=
      List.filter_eq_nil_iff.mpr fun e he => by simp [hmiddle e he]
    have hall : batch.filter (fun e => !e.isClipboard && !e.isRdpdr) = batch :=
      List.filter_eq_self.mpr fun e he => by simp [hmiddle e he]
    rw [hclipboard, hrdpdr, hall, List.nil_append, List.append_nil]

/-- A clipboard event goes before the graphics that came first, and those are merged. -/
theorem dispatchServerEvents_batch_clipboard :
    (dispatchServerEvents (⟨fun _ => true, true⟩ : Server ℕ ℕ)
        [.egfx [1], .egfx [3], .clipboardFileCopy 2]).1 =
      promised ⟨fun _ => true, true⟩ [.egfx [1], .egfx [3], .clipboardFileCopy 2] :=
  dispatchServerEvents_batch _ rfl

/-! ## The dispatch of single events -/

/-- A single event is neither moved nor merged. -/
theorem dispatchServerEvents_singleton (srv : Server β μ) (e : ServerEvent β μ) :
    dispatchServerEvents srv [e] = runArms srv [e] := by
  cases e <;> rfl

/-- The client loop runs the arms in the order of arrival. -/
theorem dispatchEvents_eq (srv : Server β μ) (batch : List (ServerEvent β μ)) :
    dispatchEvents srv batch = runArms srv batch := by
  induction batch with
  | nil => rfl
  | cons e rest ih =>
    rw [dispatchEvents, dispatchServerEvents_singleton, runArms, runArms, runArms, ih]
    cases e.stops with
    | true => rfl
    | false => simp

/-! ## The order of a batch -/

/-- The tier of the event that wrote an item. -/
def Item.tier : Item β μ → ℕ
  | .event e => e.tier
  | .dvc _ => 1

theorem tier_of_mem_items {e : ServerEvent β μ} {x : Item β μ}
    (h : x ∈ items srv e) : x.tier = e.tier := by
  unfold items at h
  split at h
  · cases h
  · cases h
  · cases h
  · split at h
    · obtain ⟨m, -, rfl⟩ := List.mem_map.mp h
      rfl
    · cases h
  · split at h
    · rw [List.mem_singleton.mp h]
      rfl
    · cases h

/-- An event that ends the loop is neither a clipboard event nor a drive request. -/
theorem tier_of_stops {e : ServerEvent β μ} (h : e.stops = true) : e.tier = 1 := by
  cases e <;> first | rfl | cases h

/-- There are three tiers. -/
theorem tier_cases (e : ServerEvent β μ) : e.tier = 0 ∨ e.tier = 1 ∨ e.tier = 2 := by
  unfold tier
  split
  · exact Or.inl rfl
  · split
    · exact Or.inr (Or.inr rfl)
    · exact Or.inr (Or.inl rfl)

/-- The first event of a batch goes behind those of earlier tiers. -/
theorem byTier_cons (e : ServerEvent β μ) (rest : List (ServerEvent β μ)) :
    ∃ front back : List (ServerEvent β μ), byTier (e :: rest) = front ++ e :: back ∧
      byTier rest = front ++ back ∧ ∀ f, f ∈ front ↔ f ∈ rest ∧ f.tier < e.tier := by
  rcases tier_cases e with htier | htier | htier
  · refine ⟨[], byTier rest, ?_, rfl, ?_⟩
    · simp [byTier, htier]
    · intro f
      simp [htier]
  · refine ⟨rest.filter (fun f => f.tier = 0),
      rest.filter (fun f => f.tier = 1) ++ rest.filter (fun f => f.tier = 2), ?_, ?_, ?_⟩
    · simp [byTier, htier]
    · simp [byTier]
    · intro f
      rw [List.mem_filter, decide_eq_true_eq, htier, Nat.lt_one_iff]
  · refine ⟨rest.filter (fun f => f.tier = 0) ++ rest.filter (fun f => f.tier = 1),
      rest.filter (fun f => f.tier = 2), ?_, rfl, ?_⟩
    · simp [byTier, htier]
    · intro f
      rw [List.mem_append, List.mem_filter, List.mem_filter, decide_eq_true_eq,
        decide_eq_true_eq, htier, ← and_or_left]
      refine and_congr_right fun _ => ?_
      omega

/-- If what an event writes, or that it ends the loop, comes first, then the events in front
of it write nothing and end nothing. -/
theorem silent_of_first {e : ServerEvent β μ}
    {front back : List (ServerEvent β μ)} {written : List (Item β μ)} (he : ¬ Silent srv e)
    (hfront : ∀ f ∈ front, f.tier < e.tier)
    (h : items srv e ++ written = (runArms srv (front ++ e :: back)).1)
    (hlast : e.stops = true → written = []) : ∀ f ∈ front, Silent srv f := by
  rw [runArms_append] at h
  -- The events in front write items of earlier tiers.
  have hearlier : ∀ x ∈ (runArms srv front).1, x.tier < e.tier := by
    intro x hx
    obtain ⟨f, hf, hitem⟩ := exists_of_mem_runArms hx
    rw [tier_of_mem_items hitem]
    exact hfront f hf
  cases hitems : items srv e with
  | nil =>
    have hstops : e.stops = true := by
      by_contra hgoes
      exact he ⟨hitems, by simpa using hgoes⟩
    rw [hitems, hlast hstops] at h
    have hnone := (List.append_eq_nil_iff.mp h.symm).1
    refine silent_of_runArms_eq_nil (fun f hf => ?_) hnone
    by_contra hf'
    have hlt := hfront f hf
    have hftier := tier_of_stops (e := f) (by simpa using hf')
    have hetier := tier_of_stops hstops
    omega
  | cons x xs =>
    have hmem : x ∈ items srv e := by
      rw [hitems]
      exact List.mem_cons_self
    have hx : x.tier = e.tier := tier_of_mem_items hmem
    rw [hitems, List.cons_append] at h
    have hnone : (runArms srv front).1 = [] := by
      cases hwritten : (runArms srv front).1 with
      | nil => rfl
      | cons y ys =>
        rw [hwritten, List.cons_append] at h
        have hxy : x = y := (List.cons.inj h).1
        have hlt := hearlier y (by rw [hwritten]; exact List.mem_cons_self)
        rw [← hxy, hx] at hlt
        exact absurd hlt (Nat.lt_irrefl _)
    refine silent_of_runArms_eq_nil (fun f hf => ?_) hnone
    by_contra hf'
    have hany : front.any stops = true := List.any_eq_true.mpr ⟨f, hf, by simpa using hf'⟩
    rw [hnone, hany, if_pos rfl] at h
    cases h

/-- The client loop writes a batch in the promised order exactly if it arrived in order. -/
theorem dispatchEvents_promised_iff (srv : Server β μ) (batch : List (ServerEvent β μ)) :
    (dispatchEvents srv batch).1 = promised srv batch ↔ Orderly srv batch := by
  rw [dispatchEvents_eq]
  change (runArms srv batch).1 = (runArms srv (byTier batch)).1 ↔ _
  induction batch with
  | nil => exact iff_of_true rfl trivial
  | cons e rest ih =>
    obtain ⟨front, back, hcons, hrest, hfront⟩ := byTier_cons e rest
    rw [hrest] at ih
    rw [hcons, Orderly]
    by_cases hsilent : Silent srv e
    · -- The event is not noticed on either side.
      have hskip : ∀ later, (runArms srv ([e] ++ later)).1 = (runArms srv later).1 :=
        runArms_silent_append fun f hf => List.mem_singleton.mp hf ▸ hsilent
      have hleft : (runArms srv (e :: rest)).1 = (runArms srv rest).1 := hskip rest
      have hright : (runArms srv (front ++ e :: back)).1 = (runArms srv (front ++ back)).1 := by
        rw [runArms_append, runArms_append srv front back]
        congr 2
        exact hskip back
      rw [hleft, hright, ih]
      simp [hsilent, hsilent.2]
    · have hahead : (∀ f ∈ rest, Silent srv f ∨ e.tier ≤ f.tier) ↔ ∀ f ∈ front, Silent srv f := by
        constructor
        · intro h f hf
          obtain ⟨hmem, hlt⟩ := (hfront f).mp hf
          exact (h f hmem).resolve_right (by omega)
        · intro h f hf
          by_cases hlt : f.tier < e.tier
          · exact Or.inl (h f ((hfront f).mpr ⟨hf, hlt⟩))
          · exact Or.inr (by omega)
      rw [hahead]
      cases hstops : e.stops with
      | true =>
        have hleft : (runArms srv (e :: rest)).1 = items srv e := by
          simp [runArms, hstops]
        rw [hleft]
        constructor
        · intro h
          refine ⟨Or.inr ?_, Or.inl rfl⟩
          have hfirst : items srv e ++ [] = (runArms srv (front ++ e :: back)).1 := by
            rw [List.append_nil, h]
          exact silent_of_first hsilent (fun f hf => ((hfront f).mp hf).2) hfirst fun _ => rfl
        · rintro ⟨hfirst, -⟩
          rw [runArms_silent_append (hfirst.resolve_left hsilent)]
          simp [runArms, hstops]
      | false =>
        have hleft : (runArms srv (e :: rest)).1 = items srv e ++ (runArms srv rest).1 := by
          simp [runArms, hstops]
        have hright : (∀ f ∈ front, Silent srv f) → ((runArms srv (e :: rest)).1 =
            (runArms srv (front ++ e :: back)).1 ↔ Orderly srv rest) := by
          intro hall
          rw [hleft, runArms_silent_append hall]
          rw [runArms_silent_append hall] at ih
          rw [← ih, runArms, hstops]
          simp
        constructor
        · intro h
          have hall := silent_of_first hsilent (fun f hf => ((hfront f).mp hf).2)
            (hleft.symm.trans h) (by simp [hstops])
          exact ⟨Or.inr hall, Or.inr ((hright hall).mp h)⟩
        · rintro ⟨hfirst, hlater⟩
          exact (hright (hfirst.resolve_left hsilent)).mpr (by simpa using hlater)

/-- A clipboard event that arrives behind video is written behind it. -/
theorem not_promised_clipboard_behind_egfx :
    ¬ ∀ (srv : Server ℕ ℕ) (batch : List (ServerEvent ℕ ℕ)), batch.any isEgfx = true →
      batch.length ≤ 100 → (dispatchEvents srv batch).1 = promised srv batch := by
  intro h
  have hbatch := h ⟨fun _ => true, true⟩ [.egfx [1], .clipboardFileCopy 2] rfl (by decide)
  revert hbatch
  decide +kernel

end Macrdp.BatchDispatch
