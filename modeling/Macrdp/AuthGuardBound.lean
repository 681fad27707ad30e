import Macrdp.AuthGuardHistory

/-!
# How many addresses the guard tracks

An attempt makes room before it tracks its address. An outcome tracks its address without that,
so the cap holds as long as no outcome of an address that is not tracked comes in at the cap.
-/

namespace Macrdp.AuthGuardBound

open StepSystem KeyedMap NetAddress PlatformTime AuthGuard AuthGuardHistory

/-- The number of tracked addresses. -/
def tracked (core : AuthGuardCore) : ℕ := core.ips.entries.length

/-- The cap is kept. -/
def Bounded (core : AuthGuardCore) : Prop := tracked core ≤ maxTrackedIps

/-- An attempt, or an outcome of a tracked address or below the cap. -/
def orderly (core : AuthGuardCore) (e : GuardEvent) : Bool :=
  match e.call with
  | .attempt => true
  | .outcome _ =>
    (canonicalIp e.ip).isLoopback || (core.ips.lookup (canonicalIp e.ip)).isSome ||
      decide (tracked core < maxTrackedIps)

/-- Eviction goes below the cap. -/
theorem tracked_evictStale {core : AuthGuardCore} (h : Bounded core) (now : Instant) :
    tracked (core.evictStale now) < maxTrackedIps := by
  unfold AuthGuardCore.evictStale tracked
  simp only
  generalize hips : retain (fun _ entry => if (entry.prune (now.checkedSub core.cfg.window)).isIdle
    now then none else some (entry.prune (now.checkedSub core.cfg.window))) core.ips = ips
  have hle : ips.entries.length ≤ maxTrackedIps :=
    (hips ▸ length_retain_le _ core.ips : ips.entries.length ≤ core.ips.entries.length).trans h
  split
  · next hfull =>
    -- At least the entry that was touched first goes.
    generalize hage : ips.entries.mergeSort (fun e e' => decide (e.2.lastTouch ≤ e'.2.lastTouch)) =
      byAge
    have hperm : byAge.Perm ips.entries := hage ▸ List.mergeSort_perm ips.entries _
    cases byAge with
    | nil =>
      have hempty := hperm.length_eq
      rw [List.length_nil] at hempty
      rw [← hempty] at hfull
      cases hfull
    | cons oldest rest =>
      have hmem : oldest.1 ∈ ips :=
        AList.mem_keys.mpr (List.mem_map_of_mem (hperm.mem_iff.mp List.mem_cons_self))
      have hpos : 0 < ips.entries.length := by
        rw [← hperm.length_eq]
        exact Nat.succ_pos _
      have hrest := length_foldl_erase_le ((rest.take (ips.entries.length / 10)).map Sigma.fst)
        (ips.erase oldest.1)
      rw [length_erase, if_pos hmem, List.foldl_map] at hrest
      rw [List.take_succ_cons, List.foldl_cons]
      exact Nat.lt_of_le_of_lt hrest (by omega)
  · next hroom => exact Nat.lt_of_not_le hroom

/-- An attempt keeps the cap. -/
theorem bounded_decide {core : AuthGuardCore} (h : Bounded core) (now : Instant) (ip : IpAddr) :
    Bounded (core.decide now ip).2 := by
  have hevict := tracked_evictStale h now
  unfold AuthGuardCore.decide Bounded
  simp only
  split
  · exact h
  · change ((core.evictStale now).ips.insert _ _).entries.length ≤ _
    rw [length_insert]
    change (core.evictStale now).ips.entries.length < _ at hevict
    split <;> omega

/-- After an outcome there is one address more, if its own was not tracked. -/
theorem tracked_recordOutcome {core core' : AuthGuardCore} {now : Instant} {ip : IpAddr}
    {outcome : Outcome} (h : core.recordOutcome now ip outcome = some core') :
    tracked core' =
      if (canonicalIp ip).isLoopback || (core.ips.lookup (canonicalIp ip)).isSome then tracked core
      else tracked core + 1 := by
  unfold AuthGuardCore.recordOutcome at h
  simp only at h
  split at h
  · next hloopback =>
    cases h
    rw [hloopback, Bool.true_or, if_pos rfl]
  · next hloopback =>
    obtain ⟨entry, -, rfl⟩ := Option.map_eq_some_iff.mp h
    rw [(Bool.not_eq_true _).mp hloopback, Bool.false_or]
    exact length_insert core.ips _ entry

/-- An orderly call keeps the cap. -/
theorem bounded_step {core core' : AuthGuardCore} {e : GuardEvent} (h : Bounded core)
    (horderly : orderly core e = true) (hstep : step core e = some core') : Bounded core' := by
  obtain ⟨ip, now, call⟩ := e
  cases call with
  | attempt =>
    cases hstep
    exact bounded_decide h now ip
  | outcome outcome =>
    have htracked := tracked_recordOutcome hstep
    unfold Bounded at h ⊢
    rw [htracked]
    split
    · exact h
    · next hnew =>
      simp only [orderly, (Bool.not_eq_true _).mp hnew, Bool.false_or, decide_eq_true_eq]
        at horderly
      omega

/-- A call after which the cap is kept was an orderly one. -/
theorem orderly_of_bounded {core core' : AuthGuardCore} {e : GuardEvent}
    (hstep : step core e = some core') (h : Bounded core') : orderly core e = true := by
  obtain ⟨ip, now, call⟩ := e
  cases call with
  | attempt => rfl
  | outcome outcome =>
    have htracked := tracked_recordOutcome hstep
    unfold Bounded at h
    rw [htracked] at h
    simp only [orderly, Bool.or_eq_true, decide_eq_true_eq]
    split at h
    · next hold => exact .inl (Bool.or_eq_true _ _ ▸ hold)
    · exact .inr (by omega)

/-- The cap is kept throughout a run exactly if no outcome of an address that is not tracked comes
in at the cap. -/
theorem bounded_iff_orderly {cfg : GuardConfig} {events : List GuardEvent} {core : AuthGuardCore}
    (hrun : run step (AuthGuardCore.withConfig cfg) events = some core) :
    (∀ before core', before <+: events →
        run step (AuthGuardCore.withConfig cfg) before = some core' → Bounded core') ↔
      Meets step (fun core e => orderly core e = true) (AuthGuardCore.withConfig cfg) events :=
  prefixes_iff_meets (fun _ _ _ _ _ => trivial) (fun _ _ _ _ h => bounded_step h)
    (fun _ _ _ _ => orderly_of_bounded) trivial (Nat.zero_le _) hrun

/-- Thresholds under which a success is never refused. -/
def floodConfig : GuardConfig :=
  ⟨.fromSecs 60, 30, 10, .fromSecs 2, .fromSecs 30, .fromSecs 3600⟩

/-- Connections of two addresses, each with its outcome. -/
def twoAddresses : List GuardEvent :=
  [⟨.v4 ⟨203, 0, 113, 7⟩, .fromSecs 0, .attempt⟩, ⟨.v4 ⟨198, 51, 100, 1⟩, .fromSecs 1, .attempt⟩,
    ⟨.v4 ⟨203, 0, 113, 7⟩, .fromSecs 2, .outcome .success⟩,
    ⟨.v4 ⟨198, 51, 100, 1⟩, .fromSecs 3, .outcome .failure⟩]

/-- The outcomes are those of tracked addresses, and the cap is kept. -/
theorem bounded_iff_orderly_twoAddresses :
    ∃ core, run step (AuthGuardCore.withConfig floodConfig) twoAddresses = some core ∧
      ∀ before core', before <+: twoAddresses →
        run step (AuthGuardCore.withConfig floodConfig) before = some core' → Bounded core' := by
  have hsome : (run step (AuthGuardCore.withConfig floodConfig) twoAddresses).isSome = true := by
    decide +kernel
  obtain ⟨core, hrun⟩ := Option.isSome_iff_exists.mp hsome
  exact ⟨core, hrun, (bounded_iff_orderly hrun).mpr (meetsBool_iff.mp (by decide +kernel))⟩

/-- Outcomes of new addresses track all of them. -/
theorem run_outcomes (now : Instant) (ips : List IpAddr) (core : AuthGuardCore)
    (hnodup : ips.Nodup) (hips : ∀ ip ∈ ips, canonicalIp ip = ip ∧ ip.isLoopback = false)
    (hnew : ∀ ip ∈ ips, core.ips.lookup ip = none) :
    ∃ core', run step core (ips.map fun ip => ⟨ip, now, .outcome .success⟩) = some core' ∧
      tracked core' = tracked core + ips.length := by
  induction ips generalizing core with
  | nil => exact ⟨core, rfl, rfl⟩
  | cons ip rest ih =>
    obtain ⟨hcanonical, hloopback⟩ := hips ip List.mem_cons_self
    obtain ⟨hnotin, hrest⟩ := List.nodup_cons.mp hnodup
    obtain ⟨entry, hstep⟩ : ∃ entry, step core ⟨ip, now, .outcome .success⟩ =
        some { core with ips := core.ips.insert ip entry } := by
      refine ⟨{ core.entry now ip with consecutiveFailures := 0, cooldownUntil := none }, ?_⟩
      change core.recordOutcome now ip .success = _
      unfold AuthGuardCore.recordOutcome
      rw [hcanonical]
      simp only [hloopback]
      rfl
    have htracked := tracked_recordOutcome hstep
    rw [hcanonical, hloopback, hnew ip List.mem_cons_self] at htracked
    obtain ⟨last, hrun, hlast⟩ := ih { core with ips := core.ips.insert ip entry } hrest
      (fun a ha => hips a (List.mem_cons_of_mem ip ha)) fun a ha => by
        have hne : a ≠ ip := fun heq => hnotin (heq ▸ ha)
        rw [AList.lookup_insert_ne hne]
        exact hnew a (List.mem_cons_of_mem ip ha)
    refine ⟨last, ?_, ?_⟩
    · rw [List.map_cons, run, hstep]
      exact hrun
    · rw [hlast, htracked, List.length_cons]
      change tracked core + 1 + rest.length = _
      omega

/-- An address of a flood. -/
def floodIp (n : ℕ) : IpAddr :=
  .v4 ⟨10, UInt8.ofNat (n / 65536), UInt8.ofNat (n / 256), UInt8.ofNat n⟩

/-- One address more than the cap. -/
def flood : List IpAddr := (List.range (maxTrackedIps + 1)).map floodIp

/-- The outcomes of a flood of connections go over the cap. -/
theorem not_bounded_flood :
    ¬∀ (cfg : GuardConfig) (events : List GuardEvent) (core : AuthGuardCore),
      run step (AuthGuardCore.withConfig cfg) events = some core → Bounded core := by
  intro h
  have hnodup : flood.Nodup := by
    refine List.Nodup.map_on (fun m hm n hn heq => ?_) List.nodup_range
    have hm' : m < 50001 := List.mem_range.mp hm
    have hn' : n < 50001 := List.mem_range.mp hn
    injection heq with heq
    injection heq with _ _ hc hd
    have hc' := congrArg UInt8.toNat hc
    have hd' := congrArg UInt8.toNat hd
    rw [UInt8.toNat_ofNat', UInt8.toNat_ofNat'] at hc' hd'
    omega
  obtain ⟨core, hrun, htracked⟩ := run_outcomes (.fromSecs 0) flood
    (AuthGuardCore.withConfig floodConfig) hnodup
    (fun ip hip => by obtain ⟨n, -, rfl⟩ := List.mem_map.mp hip; exact ⟨rfl, rfl⟩)
    (fun ip _ => AList.lookup_empty ip)
  have hbounded := h floodConfig _ core hrun
  have hlength : flood.length = maxTrackedIps + 1 := by
    rw [flood, List.length_map, List.length_range]
  rw [Bounded, htracked, hlength] at hbounded
  omega

end Macrdp.AuthGuardBound
