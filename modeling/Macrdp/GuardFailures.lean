import Macrdp.AuthGuardHistory

/-!
# The failures an address has

What the operations of the guard do to the count of consecutive failures of an
address, and how long a lockout stays once the threshold is reached.
-/

namespace Macrdp.GuardFailures

open AuthGuard AuthGuardHistory NetAddress PlatformTime

/-- The consecutive failures of an address. -/
def failuresOf (core : AuthGuardCore) (a : IpAddr) : UInt32 :=
  (core.ips.lookup a).elim 0 PerIp.consecutiveFailures

/-- The failures after an outcome. -/
def failuresAfter (outcome : Outcome) (failures : UInt32) : UInt32 :=
  match outcome with
  | .success => 0
  | .failure => saturatingSucc failures

/-- Dropping stale entries drops no failures. -/
def KeepsFailures (core : AuthGuardCore) (now : Instant) : Prop :=
  ∀ a ∈ core.ips.keys, failuresOf (core.evictStale now) a = failuresOf core a

instance (core : AuthGuardCore) (now : Instant) : Decidable (KeepsFailures core now) :=
  inferInstanceAs (Decidable (∀ a ∈ core.ips.keys,
    failuresOf (core.evictStale now) a = failuresOf core a))

variable {cfg : GuardConfig} {core core' : AuthGuardCore} {now : Instant}

/-- Pruning concerns the attempts only. -/
theorem prune_rest (entry : PerIp) (cutoff : Option Instant) :
    (entry.prune cutoff).consecutiveFailures = entry.consecutiveFailures ∧
      (entry.prune cutoff).cooldownUntil = entry.cooldownUntil := by
  cases cutoff <;> exact ⟨rfl, rfl⟩

/-- Erased addresses are not found, and the others as before. -/
theorem lookup_foldl_erase (dropped : List ((_ : IpAddr) × PerIp))
    (ips : AList fun _ : IpAddr => PerIp) (a : IpAddr) (entry : PerIp)
    (h : (dropped.foldl (fun kept e => kept.erase e.1) ips).lookup a = some entry) :
    ips.lookup a = some entry := by
  induction dropped generalizing ips with
  | nil => exact h
  | cons e dropped ih =>
    have herased := ih (ips.erase e.1) h
    by_cases hne : a = e.1
    · rw [hne, AList.lookup_erase] at herased
      cases herased
    · rwa [AList.lookup_erase_ne hne] at herased

variable {a ip : IpAddr}

/-- An address that eviction keeps has its entry, pruned. -/
theorem lookup_evictStale {entry : PerIp} (h : (core.evictStale now).ips.lookup a = some entry) :
    ∃ e, core.ips.lookup a = some e ∧
      entry.consecutiveFailures = e.consecutiveFailures ∧
      entry.cooldownUntil = e.cooldownUntil := by
  have hretained : (KeyedMap.retain (fun _ e =>
      if (e.prune (now.checkedSub core.cfg.window)).isIdle now then none
      else some (e.prune (now.checkedSub core.cfg.window))) core.ips).lookup a = some entry := by
    simp only [AuthGuardCore.evictStale] at h
    split at h
    · exact lookup_foldl_erase _ _ _ _ h
    · exact h
  rw [KeyedMap.lookup_retain, Option.bind_eq_some_iff] at hretained
  obtain ⟨e, he, hkept⟩ := hretained
  split at hkept
  · cases hkept
  · cases hkept
    obtain ⟨hfailures, hcooldown⟩ := prune_rest e (now.checkedSub core.cfg.window)
    exact ⟨e, he, hfailures, hcooldown⟩

/-- Eviction adds no failures. -/
theorem failuresOf_evictStale (a : IpAddr) :
    failuresOf (core.evictStale now) a = failuresOf core a ∨
      failuresOf (core.evictStale now) a = 0 := by
  cases h : (core.evictStale now).ips.lookup a with
  | none =>
    refine .inr ?_
    rw [failuresOf, h]
    rfl
  | some entry =>
    obtain ⟨e, he, hfailures, -⟩ := lookup_evictStale h
    refine .inl ?_
    rw [failuresOf, failuresOf, h, he]
    exact hfailures

/-- An address without an entry has no failures. -/
theorem failuresOf_eq_zero (h : a ∉ core.ips.keys) : failuresOf core a = 0 := by
  rw [failuresOf, AList.lookup_eq_none.mpr (fun hmem => h (AList.mem_keys.mp hmem))]
  rfl

/-- Eviction that drops no failures keeps those of every address. -/
theorem KeepsFailures.eq (h : KeepsFailures core now) (a : IpAddr) :
    failuresOf (core.evictStale now) a = failuresOf core a := by
  by_cases ha : a ∈ core.ips.keys
  · exact h a ha
  · rcases (failuresOf_evictStale a : failuresOf (core.evictStale now) a = failuresOf core a ∨ _)
      with heq | heq
    · exact heq
    · rw [heq, failuresOf_eq_zero ha]

/-- Judging an attempt counts no failure. -/
theorem judge_failures (entry : PerIp) :
    (entry.judge cfg now).2.consecutiveFailures = entry.consecutiveFailures := by
  have hrate : ∀ e : PerIp, (e.rateLimit cfg now).2.consecutiveFailures =
      e.consecutiveFailures := by
    intro e
    simp only [PerIp.rateLimit]
    split <;> rfl
  simp only [PerIp.judge]
  split
  · split
    · rfl
    · rw [hrate]
  · exact hrate entry

/-- Deciding on an attempt changes the failures as eviction does. -/
theorem failuresOf_decide (ip a : IpAddr) (hip : (canonicalIp ip).isLoopback = false) :
    failuresOf (core.decide now ip).2 a = failuresOf (core.evictStale now) a := by
  simp only [AuthGuardCore.decide, hip, Bool.false_eq_true, if_false]
  by_cases hne : a = canonicalIp ip
  · rw [failuresOf, failuresOf, hne, AList.lookup_insert, Option.elim_some, judge_failures,
      (prune_rest _ _).1, AuthGuardCore.entry]
    cases (core.evictStale now).ips.lookup (canonicalIp ip) <;> rfl
  · rw [failuresOf, failuresOf, AList.lookup_insert_ne hne]

variable {outcome : Outcome}

/-- An outcome changes the failures of its address only. -/
theorem failuresOf_recordOutcome (h : core.recordOutcome now ip outcome = some core')
    (hip : (canonicalIp ip).isLoopback = false) (a : IpAddr) :
    failuresOf core' a =
      if a = canonicalIp ip then failuresAfter outcome (failuresOf core a)
      else failuresOf core a := by
  simp only [AuthGuardCore.recordOutcome, hip, Bool.false_eq_true, if_false,
    Option.map_eq_some_iff] at h
  obtain ⟨entry, hentry, rfl⟩ := h
  split
  · next heq =>
    have hfound : failuresOf core a = (core.entry now (canonicalIp ip)).consecutiveFailures := by
      rw [failuresOf, heq, AuthGuardCore.entry]
      cases core.ips.lookup (canonicalIp ip) <;> rfl
    rw [hfound, failuresOf, heq, AList.lookup_insert, Option.elim_some]
    cases outcome with
    | success =>
      cases hentry
      rfl
    | failure =>
      simp only [PerIp.recordOutcome] at hentry
      split at hentry
      · obtain ⟨expiry, -, rfl⟩ := Option.map_eq_some_iff.mp hentry
        rfl
      · cases hentry
        rfl
  · next hne => rw [failuresOf, AList.lookup_insert_ne hne, failuresOf]

/-- Outcomes of a loopback address are not recorded. -/
theorem recordOutcome_loopback (h : core.recordOutcome now ip outcome = some core')
    (hip : (canonicalIp ip).isLoopback = true) : core' = core := by
  simp only [AuthGuardCore.recordOutcome, hip, if_true, Option.some.injEq] at h
  exact h.symm

/-- Being asked changes no failures, unless eviction drops some. -/
theorem failuresOf_asked
    (hkeeps : (canonicalIp ip).isLoopback = false → KeepsFailures core now) (a : IpAddr) :
    failuresOf (core.decide now ip).2 a = failuresOf core a := by
  cases hip : (canonicalIp ip).isLoopback with
  | true => simp only [AuthGuardCore.decide, hip, if_true]
  | false => rw [failuresOf_decide ip a hip, (hkeeps hip).eq]

theorem le_saturatingSucc (n : UInt32) : n ≤ saturatingSucc n := by
  have hlt := n.toNat_lt
  rw [UInt32.le_iff_toNat_le, saturatingSucc_toNat, saturated]
  omega

/-- A base cooldown, within its cap, is the least a lockout lasts. -/
theorem base_le_cooldown (cfg : GuardConfig) (n : ℕ) :
    min cfg.baseCooldown.nanos cfg.maxCooldown.nanos ≤ cooldown cfg n := by
  have hpos : 1 ≤ min (2 ^ (n - cfg.failureThreshold.toNat)) (2 ^ 32 - 1) := by
    have hpow := Nat.one_le_two_pow (n := n - cfg.failureThreshold.toNat)
    omega
  have hle : cfg.baseCooldown.nanos ≤
      cfg.baseCooldown.nanos * min (2 ^ (n - cfg.failureThreshold.toNat)) (2 ^ 32 - 1) :=
    Nat.le_mul_of_pos_right _ hpos
  simp only [cooldown]
  omega

theorem cfg_evictStale (core : AuthGuardCore) (now : Instant) :
    (core.evictStale now).cfg = core.cfg := by
  simp only [AuthGuardCore.evictStale]
  split <;> rfl

theorem cfg_decide (core : AuthGuardCore) (now : Instant) (ip : IpAddr) :
    (core.decide now ip).2.cfg = core.cfg := by
  simp only [AuthGuardCore.decide]
  split
  · rfl
  · exact cfg_evictStale core now

theorem cfg_recordOutcome
    (h : core.recordOutcome now ip outcome = some core') : core'.cfg = core.cfg := by
  simp only [AuthGuardCore.recordOutcome] at h
  split at h
  · cases h
    rfl
  · obtain ⟨entry, -, rfl⟩ := Option.map_eq_some_iff.mp h
    rfl

/-- An address with failures keeps its entry through an eviction that keeps them. -/
theorem KeepsFailures.lookup {entry : PerIp} {expiry : Instant}
    (h : KeepsFailures core now) (hentry : core.ips.lookup a = some entry)
    (hexpiry : entry.cooldownUntil = some expiry) (hpos : failuresOf core a ≠ 0) :
    ∃ kept, (core.evictStale now).ips.lookup a = some kept ∧
      kept.cooldownUntil = some expiry := by
  cases hkept : (core.evictStale now).ips.lookup a with
  | none =>
    have hzero : failuresOf (core.evictStale now) a = 0 := by
      rw [failuresOf, hkept]
      rfl
    exact absurd (h.eq a ▸ hzero) hpos
  | some kept =>
    obtain ⟨e, he, -, hcooldown⟩ := lookup_evictStale hkept
    rw [hentry, Option.some.injEq] at he
    subst he
    exact ⟨kept, rfl, hcooldown.trans hexpiry⟩

/-- During a lockout an attempt of the address is told so, and the lockout of every
address with failures stays. -/
theorem decide_locked {entry : PerIp} {expiry : Instant}
    (hkeeps : (canonicalIp ip).isLoopback = false → KeepsFailures core now)
    (hthreshold : 0 < core.cfg.failureThreshold) (hentry : core.ips.lookup a = some entry)
    (hexpiry : entry.cooldownUntil = some expiry) (hpos : failuresOf core a ≠ 0)
    (hlt : now < expiry) :
    (∃ kept, (core.decide now ip).2.ips.lookup a = some kept ∧
        kept.cooldownUntil = some expiry) ∧
      ((canonicalIp ip).isLoopback = false → a = canonicalIp ip →
        ∃ retryAfter, (core.decide now ip).1 = .rejectCooldown retryAfter) := by
  cases hip : (canonicalIp ip).isLoopback with
  | true =>
    simp only [AuthGuardCore.decide, hip, if_true]
    exact ⟨⟨entry, hentry, hexpiry⟩, fun h => by cases h⟩
  | false =>
    obtain ⟨kept, hkept, hkeptExpiry⟩ := (hkeeps hip).lookup hentry hexpiry hpos
    simp only [AuthGuardCore.decide, hip, Bool.false_eq_true, if_false, cfg_evictStale]
    by_cases hne : a = canonicalIp ip
    · subst hne
      have hjudge : ∀ e : PerIp, e.cooldownUntil = some expiry → e.judge core.cfg now =
          (.rejectCooldown (expiry.saturatingDurationSince now), e) := by
        intro e he
        have henabled : core.cfg.lockoutEnabled = true := decide_eq_true hthreshold
        simp only [PerIp.judge, henabled, he, if_pos hlt]
      have hfound : (((core.evictStale now).entry now (canonicalIp ip)).prune
          (now.checkedSub core.cfg.window)).cooldownUntil = some expiry := by
        rw [(prune_rest _ _).2, AuthGuardCore.entry, hkept]
        exact hkeptExpiry
      rw [hjudge _ hfound]
      exact ⟨⟨_, AList.lookup_insert _, hfound⟩, fun _ _ => ⟨_, rfl⟩⟩
    · refine ⟨⟨kept, ?_, hkeptExpiry⟩, fun _ h => absurd h hne⟩
      rw [AList.lookup_insert_ne hne]
      exact hkept

/-- A failure that reaches the threshold locks its address out for the base cooldown
at least. -/
theorem recordOutcome_locked (h : core.recordOutcome now ip .failure = some core')
    (hip : (canonicalIp ip).isLoopback = false) (hthreshold : 0 < core.cfg.failureThreshold)
    (hreached : core.cfg.failureThreshold ≤
      saturatingSucc (failuresOf core (canonicalIp ip))) :
    ∃ entry, core'.ips.lookup (canonicalIp ip) = some entry ∧ ∃ expiry,
      entry.cooldownUntil = some expiry ∧
      now.nanos + min core.cfg.baseCooldown.nanos core.cfg.maxCooldown.nanos ≤ expiry.nanos := by
  simp only [AuthGuardCore.recordOutcome, hip, Bool.false_eq_true, if_false,
    Option.map_eq_some_iff] at h
  obtain ⟨entry, hentry, rfl⟩ := h
  refine ⟨entry, AList.lookup_insert _, ?_⟩
  have hfound : failuresOf core (canonicalIp ip) =
      (core.entry now (canonicalIp ip)).consecutiveFailures := by
    rw [failuresOf, AuthGuardCore.entry]
    cases core.ips.lookup (canonicalIp ip) <;> rfl
  rw [hfound] at hreached
  have hlocked : (core.cfg.lockoutEnabled && decide (core.cfg.failureThreshold ≤
      saturatingSucc (core.entry now (canonicalIp ip)).consecutiveFailures)) = true := by
    simp [GuardConfig.lockoutEnabled, hthreshold, hreached]
  simp only [PerIp.recordOutcome, if_pos hlocked] at hentry
  obtain ⟨expiry, hadd, rfl⟩ := Option.map_eq_some_iff.mp hentry
  refine ⟨expiry, rfl, ?_⟩
  have hbase := base_le_cooldown core.cfg
    (saturatingSucc (core.entry now (canonicalIp ip)).consecutiveFailures).toNat
  rw [Instant.add_some hadd, escalatedCooldown_nanos]
  omega

/-- Entries of other addresses are left alone by an outcome. -/
theorem lookup_recordOutcome_ne
    (h : core.recordOutcome now ip outcome = some core') (hne : a ≠ canonicalIp ip) :
    core'.ips.lookup a = core.ips.lookup a := by
  simp only [AuthGuardCore.recordOutcome] at h
  split at h
  · cases h
    rfl
  · obtain ⟨entry, -, rfl⟩ := Option.map_eq_some_iff.mp h
    exact AList.lookup_insert_ne hne

end Macrdp.GuardFailures
