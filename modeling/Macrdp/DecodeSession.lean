import Macrdp.AnnexB
import Macrdp.StepSystem

/-!
# The session of the decoder

The decoder keeps the parameter sets as they come and builds its session once, at the end of the
first access unit by which both have come. What is expected is that each slice is decoded with the
parameter sets that came last in front of it.
-/

namespace Macrdp.DecodeSession

open AnnexB StepSystem

/-! ## Streams of access units -/

/-- The sequence parameter sets among units. -/
def IsSps (nal : List UInt8) : Prop := nal ≠ [] ∧ nalType nal = 7

/-- The picture parameter sets among units. -/
def IsPps (nal : List UInt8) : Prop := nal ≠ [] ∧ nalType nal = 8

instance : DecidablePred IsSps := fun nal =>
  inferInstanceAs (Decidable (nal ≠ [] ∧ nalType nal = 7))

instance : DecidablePred IsPps := fun nal =>
  inferInstanceAs (Decidable (nal ≠ [] ∧ nalType nal = 8))

/-- The units of an access unit. -/
def unitsOf (annexb : List UInt8) : List (List UInt8) := (nals annexb).getD []

/-- The units of access units in turn. -/
def streamUnits (aus : List (List UInt8)) : List (List UInt8) := aus.flatMap unitsOf

/-- The last parameter sets among units. -/
def lastSets (units : List (List UInt8)) : Option (List UInt8) × Option (List UInt8) :=
  ((units.filter fun nal => IsSps nal).getLast?, (units.filter fun nal => IsPps nal).getLast?)

/-- Both parameter sets, if both are known. -/
def both (sets : Option (List UInt8) × Option (List UInt8)) :
    Option (List UInt8 × List UInt8) :=
  sets.1.bind fun sps => sets.2.map fun pps => (sps, pps)

/-- The parameter sets that are known at the end of the first access unit by which both have
come. -/
def firstPair (aus : List (List UInt8)) : Option (List UInt8 × List UInt8) :=
  aus.inits.findSome? fun before => both (lastSets (streamUnits before))

/-- The decoder takes an access unit; sessions are created when they are asked for. -/
def step (d : H264Decoder) (au : List UInt8) : Option H264Decoder :=
  (d.decode (fun _ => true) au).map Prod.fst

/-- What is passed on of each access unit are its slices, to a session that was built from the
parameter sets that come last in front of each of them. -/
def Current (aus : List (List UInt8)) : Prop :=
  ∀ before au, before ++ [au] <+: aus →
    ∀ d d' sets avcc, run step .new before = some d →
      d.decode (fun _ => true) au = some (d', some (sets, avcc)) →
        avcc = lengthPrefixed ((unitsOf au).filter fun nal => IsSlice nal) ∧
          ∀ front nal, front ++ [nal] <+: unitsOf au → IsSlice nal →
            lastSets (streamUnits before ++ front) = (some sets.1, some sets.2)

/-- From the access unit on by whose end both parameter sets have come, every slice is under those
that this access unit ends with. -/
def Steady (aus : List (List UInt8)) : Prop :=
  ∀ before au, before ++ [au] <+: aus → ∀ sets, firstPair (before ++ [au]) = some sets →
    ∀ front nal, front ++ [nal] <+: unitsOf au → IsSlice nal →
      lastSets (streamUnits before ++ front) = (some sets.1, some sets.2)

/-! ## What the decoder keeps -/

/-- Every access unit has its units. -/
theorem nals_eq (annexb : List UInt8) : nals annexb = some (unitsOf annexb) := by
  obtain ⟨rs, hrs, hin, -⟩ :=
    @AnnexBNals.ranges_total (annexb.length + 1) ⟨annexb, 0⟩ (Nat.lt_succ_self _)
  have hslices : ∀ rs : List (ℕ × ℕ), (∀ r ∈ rs, r.1 ≤ r.2 ∧ r.2 ≤ annexb.length) →
      ∃ units, rs.mapM (slice annexb) = some units := by
    intro rs
    induction rs with
    | nil => exact fun _ => ⟨[], rfl⟩
    | cons r rest ih =>
      intro h
      obtain ⟨units, hunits⟩ := ih fun q hq => h q (List.mem_cons_of_mem _ hq)
      refine ⟨(annexb.take r.2).drop r.1 :: units, ?_⟩
      rw [List.mapM_cons, slice, if_pos (h r List.mem_cons_self), hunits]
      rfl
  obtain ⟨units, hunits⟩ := hslices rs fun r hr => (hin r hr).2
  have hnals : nals annexb = some units := by
    rw [nals, hrs]
    exact hunits
  rw [unitsOf, hnals]
  rfl

theorem streamUnits_concat (aus : List (List UInt8)) (au : List UInt8) :
    streamUnits (aus ++ [au]) = streamUnits aus ++ unitsOf au := by
  rw [streamUnits, List.flatMap_append, List.flatMap_singleton]
  rfl

/-- One more unit replaces the parameter set of its type. -/
theorem lastSets_concat (past : List (List UInt8)) (nal : List UInt8) :
    lastSets (past ++ [nal]) =
      (if IsSps nal then some nal else (lastSets past).1,
        if IsPps nal then some nal else (lastSets past).2) := by
  have hlast : ∀ p : List UInt8 → Prop, [DecidablePred p] →
      ((past ++ [nal]).filter fun n => p n).getLast? =
        if p nal then some nal else (past.filter fun n => p n).getLast? := by
    intro p hp
    rw [List.filter_append]
    by_cases h : p nal
    · rw [if_pos h, List.filter_cons_of_pos (by simpa using h), List.filter_nil,
        List.getLast?_concat]
    · rw [if_neg h, List.filter_cons_of_neg (by simpa using h), List.filter_nil, List.append_nil]
  rw [lastSets, hlast IsSps, hlast IsPps]
  rfl

/-- One more access unit may complete the first pair. -/
theorem firstPair_concat (aus : List (List UInt8)) (au : List UInt8) :
    firstPair (aus ++ [au]) =
      (firstPair aus).or (both (lastSets (streamUnits aus ++ unitsOf au))) := by
  rw [firstPair, List.inits_append, List.findSome?_append, ← streamUnits_concat]
  change (firstPair aus).or (List.findSome? _ [aus ++ [au]]) = _
  rw [List.findSome?_singleton]

variable {past : List (List UInt8)} {d : H264Decoder}

/-- The decoder keeps the last parameter sets. -/
theorem feed_sets
    (h : (d.sps, d.pps) = lastSets past) (units : List (List UInt8)) (avcc : List UInt8) :
    ((units.foldl H264Decoder.feed (d, avcc)).1.sps,
      (units.foldl H264Decoder.feed (d, avcc)).1.pps) = lastSets (past ++ units) ∧
      (units.foldl H264Decoder.feed (d, avcc)).1.session = d.session := by
  induction units generalizing past d avcc with
  | nil =>
    rw [List.append_nil]
    exact ⟨h, rfl⟩
  | cons nal rest ih =>
    have hone : ((H264Decoder.feed (d, avcc) nal).1.sps, (H264Decoder.feed (d, avcc) nal).1.pps) =
        lastSets (past ++ [nal]) ∧ (H264Decoder.feed (d, avcc) nal).1.session = d.session := by
      rw [lastSets_concat, ← h]
      unfold H264Decoder.feed
      by_cases hempty : nal = []
      · have hsps : ¬ IsSps nal := fun hs => hs.1 hempty
        have hpps : ¬ IsPps nal := fun hp => hp.1 hempty
        rw [if_pos (by simpa using hempty), if_neg hsps, if_neg hpps]
        exact ⟨rfl, rfl⟩
      · rw [if_neg (by simpa using hempty)]
        by_cases hseven : nalType nal = 7
        · have hsps : IsSps nal := ⟨hempty, hseven⟩
          have hpps : ¬ IsPps nal := fun hp => absurd (hseven.symm.trans hp.2) (by decide)
          rw [if_pos hseven, if_pos hsps, if_neg hpps]
          exact ⟨rfl, rfl⟩
        · have hsps : ¬ IsSps nal := fun hs => hseven hs.2
          rw [if_neg hseven, if_neg hsps]
          by_cases height : nalType nal = 8
          · have hpps : IsPps nal := ⟨hempty, height⟩
            rw [if_pos height, if_pos hpps]
            exact ⟨rfl, rfl⟩
          · have hpps : ¬ IsPps nal := fun hp => height hp.2
            rw [if_neg height, if_neg hpps]
            split
            · exact ⟨rfl, rfl⟩
            · exact ⟨rfl, rfl⟩
    have hrest := ih hone.1 (H264Decoder.feed (d, avcc) nal).2
    rw [List.append_assoc] at hrest
    exact ⟨hrest.1, hrest.2.trans hone.2⟩

/-- What the decoder keeps of the access units so far. -/
structure Kept (past : List (List UInt8)) (d : H264Decoder) : Prop where
  sets : (d.sps, d.pps) = lastSets (streamUnits past)
  session : d.session = firstPair past

theorem Kept.new : Kept [] .new := ⟨rfl, rfl⟩

/-- A session is there when both parameter sets have come, whatever was there before. -/
theorem withSession_eq (d : H264Decoder) :
    d.withSession (fun _ => true) =
      ({ d with session := d.session.or (both (d.sps, d.pps)) },
        (d.session.or (both (d.sps, d.pps))).isSome) := by
  obtain ⟨sps, pps, session, warned⟩ := d
  cases session with
  | some sets => rfl
  | none =>
    cases sps with
    | none => rfl
    | some sps =>
      cases pps with
      | none | some pps => rfl

/-- The decoder passes the slices of an access unit on when there is a session, which is of the
first pair. -/
theorem Kept.decode (h : Kept past d) (au : List UInt8) :
    ∃ d', Kept (past ++ [au]) d' ∧
      d.decode (fun _ => true) au = some (d',
        if (firstPair (past ++ [au])).isSome ∧
            lengthPrefixed ((unitsOf au).filter fun nal => IsSlice nal) ≠ [] then
          (firstPair (past ++ [au])).map
            (·, lengthPrefixed ((unitsOf au).filter fun nal => IsSlice nal))
        else none) := by
  have hfed := feed_sets h.sets (unitsOf au) []
  have hslices := feed_slices (unitsOf au) (d, [])
  rw [List.nil_append] at hslices
  generalize hout : (unitsOf au).foldl H264Decoder.feed (d, []) = fed at hfed hslices
  have hsession : fed.1.session.or (both (fed.1.sps, fed.1.pps)) = firstPair (past ++ [au]) := by
    rw [hfed.1, hfed.2, h.session, firstPair_concat]
  refine ⟨{ fed.1 with session := firstPair (past ++ [au]) }, ⟨?_, rfl⟩, ?_⟩
  · rw [streamUnits_concat]
    exact hfed.1
  · rw [H264Decoder.decode, H264Decoder.collect, nals_eq, Option.map_some, hout]
    simp only [Option.bind_eq_bind, Option.bind_some, withSession_eq, hsession, hslices]
    split
    · rfl
    · rfl

/-- The decoder takes every access unit. -/
theorem Kept.step (h : Kept past d)
    (au : List UInt8) : ∃ d', DecodeSession.step d au = some d' ∧ Kept (past ++ [au]) d' := by
  obtain ⟨d', hkept, hdecode⟩ := h.decode au
  refine ⟨d', ?_, hkept⟩
  rw [DecodeSession.step, hdecode]
  rfl

theorem Kept.run {aus : List (List UInt8)}
    (hrun : StepSystem.run DecodeSession.step .new aus = some d) : Kept aus d := by
  refine run_history Kept ?_ Kept.new hrun
  intro past s au s' hkept hs
  obtain ⟨d', hd', hkept'⟩ := hkept.step au
  rw [hs, Option.some.injEq] at hd'
  exact hd' ▸ hkept'

/-- The decoder takes a whole stream. -/
theorem exists_run (aus : List (List UInt8)) :
    ∃ d, StepSystem.run DecodeSession.step .new aus = some d := by
  have hstep : ∀ d, ∀ au ∈ aus, (∃ past, Kept past d) →
      ∃ d', DecodeSession.step d au = some d' ∧ ∃ past, Kept past d' := by
    intro d au _ h
    obtain ⟨past, hkept⟩ := h
    obtain ⟨d', hd', hkept'⟩ := hkept.step au
    exact ⟨d', hd', _, hkept'⟩
  obtain ⟨d, hrun, -⟩ := run_progress _ aus hstep ⟨[], Kept.new⟩
  exact ⟨d, hrun⟩

/-! ## Current parameter sets -/

/-- A slice among the units of an access unit is among those that are passed on. -/
theorem lengthPrefixed_ne_nil {units front : List (List UInt8)} {nal : List UInt8}
    (hpre : front ++ [nal] <+: units) (hslice : IsSlice nal) :
    lengthPrefixed (units.filter fun n => IsSlice n) ≠ [] := by
  intro hnil
  have hmem : nal ∈ units.filter fun n => IsSlice n :=
    List.mem_filter.mpr ⟨hpre.subset (by simp), by simpa using hslice⟩
  have hlen := length_le_lengthPrefixed (units.filter fun n => IsSlice n)
  rw [hnil] at hlen
  exact absurd (List.length_pos_of_mem hmem) (Nat.not_lt.mpr hlen)

/-- Every slice is decoded with the parameter sets that come last in front of it exactly in a
steady stream. -/
theorem current_iff_steady (aus : List (List UInt8)) : Current aus ↔ Steady aus := by
  constructor
  · intro h before au hpre sets hpair front nal hfront hslice
    obtain ⟨d, hrun⟩ := exists_run before
    obtain ⟨d', -, hdecode⟩ := (Kept.run hrun).decode au
    have hne := lengthPrefixed_ne_nil hfront hslice
    rw [hpair, if_pos ⟨rfl, hne⟩] at hdecode
    exact (h before au hpre d d' sets _ hrun hdecode).2 front nal hfront hslice
  · intro h before au hpre d d' sets avcc hrun hdecode
    obtain ⟨d'', -, hpassed⟩ := (Kept.run hrun).decode au
    rw [hdecode, Option.some.injEq, Prod.mk.injEq] at hpassed
    obtain ⟨-, hout⟩ := hpassed
    obtain ⟨-, hmap⟩ := Option.ite_none_right_eq_some.mp hout.symm
    obtain ⟨pair, hpair, heq⟩ := Option.map_eq_some_iff.mp hmap
    cases heq
    exact ⟨rfl, h before au hpre sets hpair⟩

/-- A first access unit with both parameter sets and a slice. -/
def opening : List UInt8 := [0, 0, 1, 0x67, 1, 0, 0, 1, 0x68, 1, 0, 0, 1, 0x65, 1]

/-- An access unit with another sequence parameter set and a slice. -/
def changed : List UInt8 := [0, 0, 1, 0x67, 2, 0, 0, 1, 0x65, 1]

/-- The slice behind a changed parameter set is decoded with the old one. -/
theorem not_current_changed : ¬ ∀ aus, Current aus := by
  intro h
  have hslice := (h [opening, changed] [opening] changed List.prefix_rfl _ _ _ _ rfl rfl).2
    [[0x67, 2]] [0x65, 1] (by decide) (by decide)
  exact absurd hslice (by decide)

end Macrdp.DecodeSession
