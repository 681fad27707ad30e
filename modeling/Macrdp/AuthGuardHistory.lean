import Mathlib.Data.List.Induction
import Macrdp.StepSystem
import Macrdp.AuthGuard

/-!
# The connection guard against the plain history

What the guard decides on an attempt is a function of the earlier events of the
same address: the failures since its last success and the attempts of it that
were accepted. The entries of the guard are what pruning and eviction leave of
that history, and what they leave out no longer matters.
-/

namespace Macrdp.AuthGuardHistory

open StepSystem KeyedMap NetAddress PlatformTime AuthGuard

/-- A call of the guard. -/
inductive GuardCall where
  | attempt
  | outcome (outcome : Outcome)
  deriving DecidableEq, Repr

/-- A call for an address at a time. -/
structure GuardEvent where
  /-- The address. -/
  ip : IpAddr
  /-- When the call is made. -/
  now : Instant
  /-- The call. -/
  call : GuardCall

/-- Carry out one call; `none` is a panic. -/
def step (core : AuthGuardCore) (e : GuardEvent) : Option AuthGuardCore :=
  match e.call with
  | .attempt => some (core.decide e.now e.ip).2
  | .outcome outcome => core.recordOutcome e.now e.ip outcome

/-- The calls for one address, newest first. -/
def history (a : IpAddr) (events : List GuardEvent) : List (Instant × GuardCall) :=
  ((events.filter fun e => decide (canonicalIp e.ip = a)).map fun e => (e.now, e.call)).reverse

/-- When the failures since the last success were recorded, newest first. -/
def failures : List (Instant × GuardCall) → List Instant
  | [] => []
  | (_, .attempt) :: older => failures older
  | (t, .outcome .failure) :: older => t :: failures older
  | (_, .outcome .success) :: _ => []

/-- Length of the lockout after `n` failures. -/
def cooldown (cfg : GuardConfig) (n : ℕ) : ℕ :=
  min (cfg.baseCooldown.nanos * min (2 ^ (n - cfg.failureThreshold.toNat)) (2 ^ 32 - 1))
    cfg.maxCooldown.nanos

/-- End of the lockout that a history calls for. `counted` is how far the guard
counts failures. -/
def lockoutEnd (counted : ℕ → ℕ) (cfg : GuardConfig) (past : List (Instant × GuardCall)) :
    Option ℤ :=
  match failures past with
  | [] => none
  | last :: earlier =>
    let n := counted (earlier.length + 1)
    if 0 < cfg.failureThreshold ∧ cfg.failureThreshold.toNat ≤ n then
      some (last.nanos + cooldown cfg n)
    else none

/-- What is decided on an attempt. -/
inductive Verdict where
  | accept
  /-- The number of accepted attempts in the window. -/
  | rateLimit (attempts : ℕ)
  /-- The remaining time of the lockout. -/
  | cooldown (remaining : ℤ)
  deriving DecidableEq, Repr

/-- A decision of the guard as a verdict. -/
def Verdict.ofDecision : Decision → Verdict
  | .accept => .accept
  | .rejectRateLimit windowAttempts => .rateLimit windowAttempts
  | .rejectCooldown retryAfter => .cooldown retryAfter.nanos

/-- The accepted attempts in the window before `now`. -/
def inWindow (cfg : GuardConfig) (now : Instant) (accepted : List Instant) : List Instant :=
  accepted.filter fun t =>
    decide (now.nanos - cfg.window.nanos ≤ t.nanos ∧ t.nanos ≤ now.nanos)

/-- The verdict from the end of the lockout and the accepted attempts. -/
def judge (cfg : GuardConfig) (now : Instant) (lockout : Option ℤ) (accepted : List Instant) :
    Verdict :=
  match lockout.filter fun expiry => decide (now.nanos < expiry) with
  | some expiry => .cooldown (expiry - now.nanos)
  | none =>
    if 0 < cfg.maxAttempts ∧ cfg.maxAttempts ≤ (inWindow cfg now accepted).length then
      .rateLimit (inWindow cfg now accepted).length
    else .accept

/-- The attempts of a history that are accepted, newest first. -/
def accepted (counted : ℕ → ℕ) (cfg : GuardConfig) : List (Instant × GuardCall) → List Instant
  | [] => []
  | (_, .outcome _) :: older => accepted counted cfg older
  | (t, .attempt) :: older =>
    if judge cfg t (lockoutEnd counted cfg older) (accepted counted cfg older) = .accept then
      t :: accepted counted cfg older
    else accepted counted cfg older

/-- The verdict on an attempt from the history of its address. -/
def verdict (counted : ℕ → ℕ) (cfg : GuardConfig) (past : List (Instant × GuardCall))
    (now : Instant) : Verdict :=
  judge cfg now (lockoutEnd counted cfg past) (accepted counted cfg past)

/-- The guard counts failures in a word. -/
def saturated (n : ℕ) : ℕ := min n (2 ^ 32 - 1)

/-- A lockout takes as many failures as the threshold. -/
theorem lockoutEnd_some {counted : ℕ → ℕ} {cfg : GuardConfig}
    {past : List (Instant × GuardCall)} {expiry : ℤ}
    (h : lockoutEnd counted cfg past = some expiry) :
    0 < cfg.failureThreshold ∧ cfg.failureThreshold.toNat ≤ counted (failures past).length := by
  simp only [lockoutEnd] at h
  split at h
  · cases h
  · next last earlier hfailures =>
    rw [hfailures]
    split at h
    · next hlocked => exact hlocked
    · cases h

variable {cfg : GuardConfig} {past : List (Instant × GuardCall)} {entry : PerIp} {now : Instant}

/-- A factor within the range of a word. -/
theorem min_toUInt32 (x : UInt64) :
    (min x 0xffffffff).toUInt32.toNat = min x.toNat (2 ^ 32 - 1) := by
  have hmin : min x 0xffffffff = if x ≤ 0xffffffff then x else 0xffffffff := rfl
  rw [hmin, UInt64.toNat_toUInt32]
  split
  · next hle =>
    rw [UInt64.le_iff_toNat_le] at hle
    have hbound : x.toNat ≤ 4294967295 := hle
    omega
  · next hlt =>
    rw [UInt64.le_iff_toNat_le] at hlt
    have hbound : ¬ x.toNat ≤ 4294967295 := hlt
    have hvalue : (0xffffffff : UInt64).toNat = 4294967295 := rfl
    omega

/-- A power of two within the range of a double word. -/
theorem checkedShl_toNat (steps : ℕ) :
    (if steps < 64 then 1 <<< UInt64.ofNat steps else 0xffffffffffffffff : UInt64).toNat =
      min (2 ^ steps) (2 ^ 64 - 1) := by
  split
  · next hlt =>
    have hpow : 2 ^ steps < 2 ^ 64 := Nat.pow_lt_pow_right (by decide) hlt
    have hone : (1 : UInt64).toNat = 1 := rfl
    rw [UInt64.toNat_shiftLeft, UInt64.toNat_ofNat', Nat.mod_eq_of_lt (by omega : steps < 2 ^ 64),
      Nat.mod_eq_of_lt hlt, Nat.shiftLeft_eq, hone]
    omega
  · next hge =>
    have hpow : 2 ^ 64 ≤ 2 ^ steps := Nat.pow_le_pow_right (by decide) (by omega)
    have hvalue : (0xffffffffffffffff : UInt64).toNat = 2 ^ 64 - 1 := rfl
    omega

/-- The escalated lockout is the doubled base, within both caps. -/
theorem escalatedCooldown_nanos (cfg : GuardConfig) (n : UInt32) :
    (escalatedCooldown n cfg.failureThreshold cfg.baseCooldown cfg.maxCooldown).nanos =
      cooldown cfg n.toNat := by
  have hcap : ∀ power : ℕ, min (min power (2 ^ 64 - 1)) (2 ^ 32 - 1) = min power (2 ^ 32 - 1) := by
    intro power
    omega
  simp only [escalatedCooldown, cooldown, Duration.min_checkedMul, min_toUInt32,
    checkedShl_toNat, hcap]

/-- What an entry keeps of the history of its address at a time no earlier than
its last event. -/
structure Matches (cfg : GuardConfig) (clock : ℤ) (past : List (Instant × GuardCall))
    (entry : PerIp) : Prop where
  /-- Attempts are dropped only once they are out of the window. -/
  attempts : ∃ c, c ≤ clock - cfg.window.nanos ∧
    entry.attempts = (accepted saturated cfg past).reverse.filter fun t => decide (c ≤ t.nanos)
  sorted : (accepted saturated cfg past).Pairwise fun t u => u ≤ t
  before : ∀ t ∈ accepted saturated cfg past, t.nanos ≤ clock
  count : entry.consecutiveFailures.toNat = saturated (failures past).length
  lockout : ∀ expiry, entry.cooldownUntil = some expiry →
    lockoutEnd saturated cfg past = some expiry.nanos
  /-- A lockout is cleared only once it has expired. -/
  expired : entry.cooldownUntil = none →
    ∀ expiry, lockoutEnd saturated cfg past = some expiry → expiry ≤ clock

/-- An address without history needs no entry. -/
theorem matches_new (cfg : GuardConfig) (clock : ℤ) (t : Instant) :
    Matches cfg clock [] (PerIp.new t) where
  attempts := ⟨clock - cfg.window.nanos, Int.le_refl _, rfl⟩
  sorted := .nil
  before := by simp [accepted]
  count := rfl
  lockout := by rintro expiry ⟨⟩
  expired := by rintro - expiry ⟨⟩

variable {clock : ℤ}

/-- Time passes. -/
theorem Matches.later {clock' : ℤ} (h : Matches cfg clock past entry)
    (hle : clock ≤ clock') : Matches cfg clock' past entry where
  __ := h
  attempts := by
    obtain ⟨c, hc, heq⟩ := h.attempts
    exact ⟨c, by omega, heq⟩
  before t ht := (h.before t ht).trans hle
  expired hnone expiry he := (h.expired hnone expiry he).trans hle

/-- When the entry was touched is no part of the history. -/
theorem Matches.touch (h : Matches cfg clock past entry) (t : Instant) :
    Matches cfg clock past { entry with lastTouch := t } :=
  { __ := h }

/-- Dropping the front of an ordered list up to a cutoff. -/
theorem dropWhile_eq_filter {c : ℤ} {ts : List Instant} (hsorted : ts.Pairwise (· ≤ ·)) :
    (ts.dropWhile fun t => decide (t.nanos < c)) = ts.filter fun t => decide (c ≤ t.nanos) := by
  induction ts with
  | nil => rfl
  | cons t ts ih =>
    rw [List.pairwise_cons] at hsorted
    by_cases hlt : t.nanos < c
    · rw [List.dropWhile_cons_of_pos (by simpa using hlt),
        List.filter_cons_of_neg (by simpa using hlt), ih hsorted.2]
    · rw [List.dropWhile_cons_of_neg (by simpa using hlt), eq_comm, List.filter_eq_self]
      intro u hu
      rw [decide_eq_true_eq]
      rcases List.mem_cons.mp hu with rfl | hu
      · omega
      · have hle := Instant.le_iff.mp (hsorted.1 u hu)
        omega

/-- Pruning leaves exactly the accepted attempts in the window. -/
theorem Matches.prune_attempts (h : Matches cfg now.nanos past entry) :
    (entry.prune (now.checkedSub cfg.window)).attempts =
      (inWindow cfg now (accepted saturated cfg past)).reverse := by
  obtain ⟨c, hc, heq⟩ := h.attempts
  have hdrop : (entry.prune (now.checkedSub cfg.window)).attempts =
      entry.attempts.dropWhile fun t => decide (t.nanos < now.nanos - cfg.window.nanos) := by
    simp only [← Instant.checkedSub_lt_iff, PerIp.prune]
    split
    · next c' hc' => simp [hc']
    · next hnone =>
      simp only [hnone, reduceCtorEq, false_and, exists_false, decide_false]
      cases entry.attempts <;> rfl
  have hsorted : entry.attempts.Pairwise (· ≤ ·) := by
    rw [heq]
    exact (List.pairwise_reverse.mpr h.sorted).filter _
  rw [hdrop, dropWhile_eq_filter hsorted, heq, List.filter_filter, inWindow, List.filter_reverse]
  congr 1
  refine List.filter_congr fun t ht => ?_
  have hbefore := h.before t ht
  rw [← Bool.decide_and, decide_eq_decide]
  omega

/-- Pruning drops nothing that still matters. -/
theorem Matches.prune (h : Matches cfg now.nanos past entry) :
    Matches cfg now.nanos past (entry.prune (now.checkedSub cfg.window)) := by
  have hattempts := h.prune_attempts
  have hrest : ∀ cutoff, (entry.prune cutoff).consecutiveFailures = entry.consecutiveFailures ∧
      (entry.prune cutoff).cooldownUntil = entry.cooldownUntil := by
    intro cutoff
    cases cutoff <;> exact ⟨rfl, rfl⟩
  obtain ⟨hfailures, hcooldown⟩ := hrest (now.checkedSub cfg.window)
  refine ⟨⟨now.nanos - cfg.window.nanos, Int.le_refl _, ?_⟩, h.sorted, h.before,
    by rw [hfailures]; exact h.count, by rw [hcooldown]; exact h.lockout,
    by rw [hcooldown]; exact h.expired⟩
  rw [hattempts, inWindow, ← List.filter_reverse]
  refine List.filter_congr fun t ht => ?_
  have hbefore := h.before t (List.mem_reverse.mp ht)
  rw [decide_eq_decide]
  omega

/-- An idle entry carries nothing that still matters. -/
theorem Matches.idle (h : Matches cfg now.nanos past entry) (hidle : entry.isIdle now = true)
    (t : Instant) : Matches cfg now.nanos past (PerIp.new t) := by
  simp only [PerIp.isIdle, Bool.and_eq_true, List.isEmpty_iff, beq_iff_eq] at hidle
  obtain ⟨⟨hattempts, hfailures⟩, hcooldown⟩ := hidle
  obtain ⟨c, hc, heq⟩ := h.attempts
  refine ⟨⟨c, hc, by rw [← heq, hattempts]; rfl⟩, h.sorted, h.before, ?_, by rintro expiry ⟨⟩, ?_⟩
  · rw [← h.count, hfailures]
    rfl
  · intro _ expiry he
    cases hu : entry.cooldownUntil with
    | none => exact h.expired hu expiry he
    | some u =>
      rw [hu, Option.all_some, decide_eq_true_eq, Instant.le_iff] at hcooldown
      rw [h.lockout u hu, Option.some.injEq] at he
      omega

/-- A rejected attempt is not counted. -/
theorem Matches.reject (h : Matches cfg now.nanos past entry)
    (hverdict : verdict saturated cfg past now ≠ .accept) :
    Matches cfg now.nanos ((now, .attempt) :: past) entry := by
  have haccepted : accepted saturated cfg ((now, .attempt) :: past) =
      accepted saturated cfg past := if_neg hverdict
  exact ⟨by rw [haccepted]; exact h.attempts, by rw [haccepted]; exact h.sorted,
    by rw [haccepted]; exact h.before, h.count, h.lockout, h.expired⟩

/-- An accepted attempt is counted. -/
theorem Matches.accept (h : Matches cfg now.nanos past entry)
    (hverdict : verdict saturated cfg past now = .accept) :
    Matches cfg now.nanos ((now, .attempt) :: past)
      { entry with attempts := entry.attempts ++ [now] } := by
  have haccepted : accepted saturated cfg ((now, .attempt) :: past) =
      now :: accepted saturated cfg past := if_pos hverdict
  obtain ⟨c, hc, heq⟩ := h.attempts
  refine ⟨⟨c, hc, ?_⟩, ?_, ?_, h.count, h.lockout, h.expired⟩
  · have hnow : c ≤ now.nanos := by omega
    rw [haccepted, List.reverse_cons, List.filter_append, ← heq]
    simp [hnow]
  · rw [haccepted, List.pairwise_cons]
    exact ⟨fun t ht => Instant.le_iff.mpr (h.before t ht), h.sorted⟩
  · rw [haccepted]
    intro t ht
    rcases List.mem_cons.mp ht with rfl | ht
    · exact Int.le_refl _
    · exact h.before t ht

/-- Outside a lockout the pruned entry limits the rate as the history does. -/
theorem Matches.rateLimit (h : Matches cfg now.nanos past entry)
    (hattempts : entry.attempts = (inWindow cfg now (accepted saturated cfg past)).reverse)
    (hopen : ∀ expiry, lockoutEnd saturated cfg past = some expiry → expiry ≤ now.nanos) :
    Verdict.ofDecision (entry.rateLimit cfg now).1 = verdict saturated cfg past now ∧
      Matches cfg now.nanos ((now, .attempt) :: past) (entry.rateLimit cfg now).2 := by
  have hlockout : ((lockoutEnd saturated cfg past).filter fun expiry =>
      decide (now.nanos < expiry)) = none := by
    rw [Option.filter_eq_none_iff]
    intro expiry he
    have hle := hopen expiry he
    simp only [decide_eq_true_eq]
    omega
  have hlength : (inWindow cfg now (accepted saturated cfg past)).length =
      entry.attempts.length := by rw [hattempts, List.length_reverse]
  have hverdict : verdict saturated cfg past now =
      if 0 < cfg.maxAttempts ∧ cfg.maxAttempts ≤ entry.attempts.length then
        .rateLimit entry.attempts.length else .accept := by
    rw [verdict, AuthGuardHistory.judge, hlockout, hlength]
  by_cases hfull : 0 < cfg.maxAttempts ∧ cfg.maxAttempts ≤ entry.attempts.length
  · have hresult : entry.rateLimit cfg now = (.rejectRateLimit entry.attempts.length, entry) := by
      simp [PerIp.rateLimit, GuardConfig.rateLimitEnabled, hfull.1, hfull.2]
    rw [if_pos hfull] at hverdict
    rw [hresult, hverdict]
    exact ⟨rfl, h.reject (by rw [hverdict]; simp)⟩
  · have hresult : entry.rateLimit cfg now =
        (.accept, { entry with attempts := entry.attempts ++ [now] }) := by
      simpa [PerIp.rateLimit, GuardConfig.rateLimitEnabled] using hfull
    rw [if_neg hfull] at hverdict
    rw [hresult, hverdict]
    exact ⟨rfl, h.accept hverdict⟩

/-- The verdict of a pruned entry is that of the history. -/
theorem Matches.judge (h : Matches cfg now.nanos past entry)
    (hattempts : entry.attempts = (inWindow cfg now (accepted saturated cfg past)).reverse) :
    Verdict.ofDecision (entry.judge cfg now).1 = verdict saturated cfg past now ∧
      Matches cfg now.nanos ((now, .attempt) :: past) (entry.judge cfg now).2 := by
  cases hlocked : entry.cooldownUntil with
  | none =>
    have hresult : entry.judge cfg now = entry.rateLimit cfg now := by
      simp only [PerIp.judge, hlocked]
      cases cfg.lockoutEnabled <;> rfl
    rw [hresult]
    exact h.rateLimit hattempts (h.expired hlocked)
  | some expiry =>
    have hend := h.lockout expiry hlocked
    have henabled : cfg.lockoutEnabled = true := decide_eq_true (lockoutEnd_some hend).1
    by_cases hlt : now < expiry
    · have hresult : entry.judge cfg now =
          (.rejectCooldown (expiry.saturatingDurationSince now), entry) := by
        simp only [PerIp.judge, henabled, hlocked, if_pos hlt]
      have hverdict : verdict saturated cfg past now = .cooldown (expiry.nanos - now.nanos) := by
        rw [Instant.lt_iff] at hlt
        simp only [verdict, AuthGuardHistory.judge, hend, Option.filter_some, hlt, decide_true,
          if_true]
      rw [hresult, hverdict]
      refine ⟨?_, h.reject (by rw [hverdict]; simp)⟩
      rw [Instant.lt_iff] at hlt
      simp only [Verdict.ofDecision, Instant.saturatingDurationSince, Verdict.cooldown.injEq]
      omega
    · have hresult : entry.judge cfg now =
          { entry with cooldownUntil := none }.rateLimit cfg now := by
        simp only [PerIp.judge, henabled, hlocked, if_neg hlt]
      have hcleared : ∀ e, lockoutEnd saturated cfg past = some e → e ≤ now.nanos := by
        intro e he
        rw [hend, Option.some.injEq] at he
        rw [Instant.lt_iff] at hlt
        omega
      rw [hresult]
      refine Matches.rateLimit ?_ hattempts hcleared
      exact ⟨h.attempts, h.sorted, h.before, h.count, by rintro e ⟨⟩, fun _ => hcleared⟩

theorem saturatingSucc_toNat (n : UInt32) : (saturatingSucc n).toNat = saturated (n.toNat + 1) := by
  have hlt := n.toNat_lt
  simp only [saturatingSucc, saturated]
  split
  · next hmax =>
    rw [hmax]
    rfl
  · next hmax =>
    have hne : n.toNat ≠ 2 ^ 32 - 1 := fun heq => hmax (UInt32.toNat.inj heq)
    rw [UInt32.toNat_add, UInt32.toNat_one]
    omega

/-- An outcome is accounted for as in the history. -/
theorem Matches.recordOutcome {entry' : PerIp} {outcome : Outcome}
    (h : Matches cfg now.nanos past entry)
    (hrecord : entry.recordOutcome cfg now outcome = some entry') :
    Matches cfg now.nanos ((now, .outcome outcome) :: past) entry' := by
  cases outcome with
  | success =>
    cases hrecord
    exact ⟨h.attempts, h.sorted, h.before, rfl, by rintro expiry ⟨⟩, by rintro - expiry ⟨⟩⟩
  | failure =>
    have hcount : (saturatingSucc entry.consecutiveFailures).toNat =
        saturated ((failures past).length + 1) := by
      rw [saturatingSucc_toNat, h.count]
      simp only [saturated]
      omega
    simp only [PerIp.recordOutcome] at hrecord
    generalize saturatingSucc entry.consecutiveFailures = n at hcount hrecord
    have hend : lockoutEnd saturated cfg ((now, .outcome .failure) :: past) =
        if 0 < cfg.failureThreshold ∧ cfg.failureThreshold ≤ n then
          some (now.nanos + cooldown cfg n.toNat) else none := by
      simp only [lockoutEnd, failures, ← hcount, UInt32.le_iff_toNat_le]
    simp only [GuardConfig.lockoutEnabled, ← Bool.decide_and, decide_eq_true_eq] at hrecord
    split at hrecord
    · next hlocked =>
      obtain ⟨expiry, hadd, rfl⟩ := Option.map_eq_some_iff.mp hrecord
      refine ⟨h.attempts, h.sorted, h.before, hcount, ?_, by rintro ⟨⟩⟩
      rintro _ ⟨⟩
      rw [hend, if_pos hlocked, Instant.add_some hadd, escalatedCooldown_nanos]
    · next hopen =>
      cases hrecord
      rw [if_neg hopen] at hend
      refine ⟨h.attempts, h.sorted, h.before, hcount, ?_, ?_⟩
      · intro expiry hexpiry
        obtain ⟨henabled, hle⟩ := lockoutEnd_some (h.lockout expiry hexpiry)
        refine absurd ⟨henabled, UInt32.le_iff_toNat_le.mpr ?_⟩ hopen
        rw [hcount]
        simp only [saturated] at hle ⊢
        omega
      · intro _ expiry he
        rw [hend] at he
        cases he

/-- The history of an address grows by the calls for it. -/
theorem history_append (a : IpAddr) (events : List GuardEvent) (e : GuardEvent) :
    history a (events ++ [e]) =
      if canonicalIp e.ip = a then (e.now, e.call) :: history a events else history a events := by
  simp only [history, List.filter_append, List.map_append, List.reverse_append]
  by_cases ha : canonicalIp e.ip = a <;> simp [ha]

/-- The guard tracks no loopback address and keeps of every other what matters of
its history. -/
structure Refines (cfg : GuardConfig) (events : List GuardEvent) (clock : ℤ)
    (core : AuthGuardCore) : Prop where
  config : core.cfg = cfg
  loopback : ∀ a : IpAddr, a.isLoopback = true → core.ips.lookup a = none
  /-- An address that is not tracked is one whose history no longer matters. -/
  entries : ∀ a : IpAddr, a.isLoopback = false → ∀ t,
    Matches cfg clock (history a events) ((core.ips.lookup a).getD (PerIp.new t))

/-- A new guard has no history. -/
theorem refines_new (cfg : GuardConfig) (clock : ℤ) :
    Refines cfg [] clock (AuthGuardCore.withConfig cfg) where
  config := rfl
  loopback _ _ := AList.lookup_empty _
  entries _ _ t := matches_new cfg clock t

variable {events : List GuardEvent} {core : AuthGuardCore}

theorem Refines.later {clock' : ℤ} (h : Refines cfg events clock core) (hle : clock ≤ clock') :
    Refines cfg events clock' core where
  __ := h
  entries a ha t := (h.entries a ha t).later hle

/-- Eviction below the cap drops nothing that still matters. -/
theorem Refines.evictStale
    (h : Refines cfg events now.nanos core) (hcap : core.ips.entries.length < maxTrackedIps) :
    Refines cfg events now.nanos (core.evictStale now) := by
  have hbelow : ∀ f : IpAddr → PerIp → Option PerIp,
      ¬ maxTrackedIps ≤ (retain f core.ips).entries.length := fun f =>
    Nat.not_le_of_lt ((length_retain_le f core.ips).trans_lt hcap)
  simp only [AuthGuardCore.evictStale, if_neg (hbelow _), h.config]
  refine ⟨rfl, ?_, ?_⟩
  · intro a ha
    rw [lookup_retain, h.loopback a ha, Option.bind_none]
  · intro a ha t
    have hentry := h.entries a ha t
    rw [lookup_retain]
    cases hlookup : core.ips.lookup a with
    | none =>
      rw [hlookup] at hentry
      exact hentry
    | some entry =>
      rw [hlookup, Option.getD_some] at hentry
      rw [Option.bind_some]
      split
      · next hidle => exact hentry.prune.idle hidle t
      · exact hentry.prune

/-- Writing one entry and its history. -/
theorem Refines.insert {call : GuardCall} {ip : IpAddr} (h : Refines cfg events now.nanos core)
    (hip : (canonicalIp ip).isLoopback = false)
    (hentry : Matches cfg now.nanos ((now, call) :: history (canonicalIp ip) events) entry) :
    Refines cfg (events ++ [⟨ip, now, call⟩]) now.nanos
      { core with ips := core.ips.insert (canonicalIp ip) entry } := by
  refine ⟨h.config, ?_, ?_⟩
  · intro a ha
    have hne : a ≠ canonicalIp ip := by
      rintro rfl
      rw [hip] at ha
      cases ha
    show (core.ips.insert (canonicalIp ip) entry).lookup a = none
    rw [AList.lookup_insert_ne hne]
    exact h.loopback a ha
  · intro a ha t
    show Matches cfg now.nanos _ (((core.ips.insert (canonicalIp ip) entry).lookup a).getD _)
    rw [history_append]
    by_cases hne : canonicalIp ip = a
    · subst hne
      rw [if_pos rfl, AList.lookup_insert]
      exact hentry
    · rw [if_neg hne, AList.lookup_insert_ne (Ne.symm hne)]
      exact h.entries a ha t

/-- Calls for a loopback address are no part of any history. -/
theorem Refines.skip {e : GuardEvent} (h : Refines cfg events clock core)
    (hip : (canonicalIp e.ip).isLoopback = true) : Refines cfg (events ++ [e]) clock core := by
  refine ⟨h.config, h.loopback, fun a ha t => ?_⟩
  have hne : canonicalIp e.ip ≠ a := by
    rintro rfl
    rw [hip] at ha
    cases ha
  rw [history_append, if_neg hne]
  exact h.entries a ha t

/-- The decision on an attempt is the verdict of the history. -/
theorem Refines.decide {ip : IpAddr}
    (h : Refines cfg events now.nanos core) (hcap : core.ips.entries.length < maxTrackedIps)
    (hip : (canonicalIp ip).isLoopback = false) :
    Verdict.ofDecision (core.decide now ip).1 =
        verdict saturated cfg (history (canonicalIp ip) events) now ∧
      Refines cfg (events ++ [⟨ip, now, .attempt⟩]) now.nanos (core.decide now ip).2 := by
  have hevicted := h.evictStale hcap
  have hentry := (hevicted.entries _ hip now).touch now
  obtain ⟨hverdict, hmatches⟩ := hentry.prune.judge hentry.prune_attempts
  have hresult : core.decide now ip =
      ((((core.evictStale now).entry now (canonicalIp ip)).prune
          (now.checkedSub cfg.window)).judge cfg now).map id fun entry =>
        { core.evictStale now with
          ips := (core.evictStale now).ips.insert (canonicalIp ip) entry } := by
    simp only [AuthGuardCore.decide, hip, Bool.false_eq_true, if_false, hevicted.config]
    rfl
  rw [hresult]
  exact ⟨hverdict, hevicted.insert hip hmatches⟩

/-- One call keeps the refinement. -/
theorem refines_step {core' : AuthGuardCore} {e : GuardEvent}
    (h : Refines cfg events e.now.nanos core) (hcap : core.ips.entries.length < maxTrackedIps)
    (hstep : step core e = some core') : Refines cfg (events ++ [e]) e.now.nanos core' := by
  obtain ⟨ip, now, call⟩ := e
  cases hip : (canonicalIp ip).isLoopback with
  | true =>
    have hkept : core' = core := by
      cases call with
      | attempt =>
        simp only [step, AuthGuardCore.decide, hip, if_true, Option.some.injEq] at hstep
        exact hstep.symm
      | outcome outcome =>
        simp only [step, AuthGuardCore.recordOutcome, hip, if_true, Option.some.injEq] at hstep
        exact hstep.symm
    rw [hkept]
    exact h.skip hip
  | false =>
    cases call with
    | attempt =>
      cases hstep
      exact (h.decide hcap hip).2
    | outcome outcome =>
      simp only [step, AuthGuardCore.recordOutcome, hip, Bool.false_eq_true, if_false,
        Option.map_eq_some_iff] at hstep
      obtain ⟨entry, hentry, rfl⟩ := hstep
      rw [h.config] at hentry
      exact h.insert hip (((h.entries _ hip now).touch now).recordOutcome hentry)

/-- The guard refines the history after every run of calls at times that do not
run backwards, with fewer addresses tracked than the cap before each call. -/
theorem refines_run (hsorted : events.Pairwise fun e e' => e.now ≤ e'.now)
    (htracked : Meets step (fun core _ => core.ips.entries.length < maxTrackedIps)
      (AuthGuardCore.withConfig cfg) events)
    (hrun : run step (AuthGuardCore.withConfig cfg) events = some core) :
    ∀ now : Instant, (∀ e ∈ events, e.now ≤ now) → Refines cfg events now.nanos core := by
  induction events using List.reverseRecOn generalizing core with
  | nil =>
    cases hrun
    exact fun now _ => refines_new cfg now.nanos
  | append_singleton events e ih =>
    rw [List.pairwise_append] at hsorted
    obtain ⟨hbefore, -, hlast⟩ := hsorted
    rw [meets_append] at htracked
    rw [run_append, Option.bind_eq_some_iff] at hrun
    obtain ⟨mid, hmid, hstep⟩ := hrun
    obtain ⟨_, hstep, ⟨⟩⟩ := run_cons_some.mp hstep
    intro now hnow
    have hrefines := ih hbefore htracked.1 hmid e.now fun e' he' => hlast e' he' e (by simp)
    have hcap := (htracked.2 mid hmid).1
    exact (refines_step hrefines hcap hstep).later (Instant.le_iff.mp (hnow e (by simp)))

/-- The guard decides on an attempt as the history of its address says: locked out
for the exact remaining time, limited by the accepted attempts in the window, or
accepted. Loopback addresses are accepted and not tracked, and IPv4-mapped
addresses are their IPv4 form. -/
theorem decide_refines_history {events : List GuardEvent} {core : AuthGuardCore} {ip : IpAddr}
    (hsorted : events.Pairwise fun e e' => e.now ≤ e'.now) (hnow : ∀ e ∈ events, e.now ≤ now)
    (htracked : Meets step (fun core _ => core.ips.entries.length < maxTrackedIps)
      (AuthGuardCore.withConfig cfg) events)
    (hcap : core.ips.entries.length < maxTrackedIps)
    (hrun : run step (AuthGuardCore.withConfig cfg) events = some core) :
    ((canonicalIp ip).isLoopback = false → Verdict.ofDecision (core.decide now ip).1 =
        verdict saturated cfg (history (canonicalIp ip) events) now) ∧
      ((canonicalIp ip).isLoopback = true → core.decide now ip = (.accept, core)) ∧
      (∀ a : IpAddr, a.isLoopback = true → a ∉ core.ips) ∧
      ∀ v4 : Ipv4Addr, canonicalIp (.v6 v4.toIpv6Mapped) = canonicalIp (.v4 v4) := by
  have hrefines := refines_run hsorted htracked hrun now hnow
  refine ⟨fun hip => (hrefines.decide hcap hip).1, ?_, ?_, ?_⟩
  · intro hip
    simp only [AuthGuardCore.decide, hip, if_true]
  · intro a ha
    exact AList.lookup_eq_none.mp (hrefines.loopback a ha)
  · intro v4
    simp only [canonicalIp, toIpv4Mapped_toIpv6Mapped]

/-- Two failures of one address, in both of its forms, while another connects. -/
theorem decide_refines_history_lockout :
    ∃ core, run step (AuthGuardCore.withConfig ⟨.fromSecs 60, 10, 2, .fromSecs 3, .fromSecs 30,
        .fromSecs 900⟩)
        [⟨.v4 ⟨203, 0, 113, 7⟩, .fromSecs 0, .attempt⟩,
          ⟨.v4 ⟨203, 0, 113, 7⟩, .fromSecs 1, .outcome .failure⟩,
          ⟨.v4 ⟨198, 51, 100, 1⟩, .fromSecs 1, .attempt⟩,
          ⟨.v6 (Ipv4Addr.toIpv6Mapped ⟨203, 0, 113, 7⟩), .fromSecs 2, .outcome .failure⟩] =
        some core ∧
      Verdict.ofDecision (core.decide (.fromSecs 4) (.v4 ⟨203, 0, 113, 7⟩)).1 =
        .cooldown 28000000000 := by
  have hrun : (run step (AuthGuardCore.withConfig ⟨.fromSecs 60, 10, 2, .fromSecs 3, .fromSecs 30,
      .fromSecs 900⟩)
      [⟨.v4 ⟨203, 0, 113, 7⟩, .fromSecs 0, .attempt⟩,
        ⟨.v4 ⟨203, 0, 113, 7⟩, .fromSecs 1, .outcome .failure⟩,
        ⟨.v4 ⟨198, 51, 100, 1⟩, .fromSecs 1, .attempt⟩,
        ⟨.v6 (Ipv4Addr.toIpv6Mapped ⟨203, 0, 113, 7⟩), .fromSecs 2, .outcome .failure⟩]).map
      (fun core => decide (core.ips.entries.length < maxTrackedIps)) = some true := by
    decide +kernel
  obtain ⟨core, hcore, hcap⟩ := Option.map_eq_some_iff.mp hrun
  have hmeets : meetsBool step (fun core _ => decide (core.ips.entries.length < maxTrackedIps))
      (AuthGuardCore.withConfig ⟨.fromSecs 60, 10, 2, .fromSecs 3, .fromSecs 30, .fromSecs 900⟩)
      [⟨.v4 ⟨203, 0, 113, 7⟩, .fromSecs 0, .attempt⟩,
        ⟨.v4 ⟨203, 0, 113, 7⟩, .fromSecs 1, .outcome .failure⟩,
        ⟨.v4 ⟨198, 51, 100, 1⟩, .fromSecs 1, .attempt⟩,
        ⟨.v6 (Ipv4Addr.toIpv6Mapped ⟨203, 0, 113, 7⟩), .fromSecs 2, .outcome .failure⟩] = true := by
    decide +kernel
  refine ⟨core, hcore, Eq.trans ((decide_refines_history (by decide +kernel) (by decide +kernel)
    ?_ (of_decide_eq_true hcap) hcore).1 (by decide)) (by decide +kernel)⟩
  simpa only [decide_eq_true_eq] using meetsBool_iff.mp hmeets

/-- An outcome is recorded if the longest lockout fits behind it. -/
theorem recordOutcome_some (ip : IpAddr) (outcome : Outcome)
    (hroom : now.nanos + core.cfg.maxCooldown.nanos < 2 ^ 63 * nanosPerSec) :
    ∃ entry, core.recordOutcome now ip outcome = some
      (if (canonicalIp ip).isLoopback then core
        else { core with ips := core.ips.insert (canonicalIp ip) entry }) := by
  cases hip : (canonicalIp ip).isLoopback with
  | true => exact ⟨PerIp.new now, by simp [AuthGuardCore.recordOutcome, hip]⟩
  | false =>
    have hadd : ∀ n, ∃ expiry, now.add (escalatedCooldown n core.cfg.failureThreshold
        core.cfg.baseCooldown core.cfg.maxCooldown) = some expiry := by
      intro n
      have hle : cooldown core.cfg n.toNat ≤ core.cfg.maxCooldown.nanos := Nat.min_le_right _ _
      simp only [Instant.add, escalatedCooldown_nanos]
      rw [dif_pos (by omega)]
      exact ⟨_, rfl⟩
    have hrecord : ∃ entry, (core.entry now (canonicalIp ip)).recordOutcome core.cfg now outcome =
        some entry := by
      cases outcome with
      | success => exact ⟨_, rfl⟩
      | failure =>
        simp only [PerIp.recordOutcome]
        split
        · obtain ⟨expiry, he⟩ := hadd _
          exact ⟨_, by rw [he, Option.map_some]⟩
        · exact ⟨_, rfl⟩
    obtain ⟨entry, hentry⟩ := hrecord
    exact ⟨entry, by simp [AuthGuardCore.recordOutcome, hip, hentry]⟩

/-- The history of one call made over and over. -/
theorem history_replicate (n : ℕ) (e : GuardEvent) :
    history (canonicalIp e.ip) (List.replicate n e) = List.replicate n (e.now, e.call) := by
  simp [history]

theorem failures_replicate (n : ℕ) (t : Instant) :
    failures (List.replicate n (t, .outcome .failure)) = List.replicate n t := by
  induction n with
  | zero => rfl
  | succ n ih => rw [List.replicate_succ, failures, ih, List.replicate_succ]

theorem accepted_replicate (counted : ℕ → ℕ) (cfg : GuardConfig) (n : ℕ) (t : Instant)
    (outcome : Outcome) :
    accepted counted cfg (List.replicate n (t, .outcome outcome)) = [] := by
  induction n with
  | zero => rfl
  | succ n ih => rw [List.replicate_succ, accepted, ih]

/-- The verdict after `n` failures at one time. -/
theorem verdict_replicate (counted : ℕ → ℕ) (cfg : GuardConfig) {n : ℕ} (hn : 0 < n)
    (t now : Instant) :
    verdict counted cfg (List.replicate n (t, .outcome .failure)) now =
      judge cfg now (if 0 < cfg.failureThreshold ∧ cfg.failureThreshold.toNat ≤ counted n then
        some (t.nanos + cooldown cfg (counted n)) else none) [] := by
  obtain ⟨n, rfl⟩ := Nat.exists_eq_succ_of_ne_zero hn.ne'
  rw [verdict, lockoutEnd, failures_replicate, accepted_replicate]
  simp only [List.replicate_succ, List.length_replicate]

/-- Outcomes of one address leave one address tracked. -/
theorem run_replicate (cfg : GuardConfig) (ip : IpAddr) (now : Instant) (outcome : Outcome)
    (hroom : now.nanos + cfg.maxCooldown.nanos < 2 ^ 63 * nanosPerSec) (n : ℕ) :
    ∃ core, run step (AuthGuardCore.withConfig cfg)
        (List.replicate n ⟨ip, now, .outcome outcome⟩) = some core ∧
      core.ips.entries.length < maxTrackedIps ∧
      Meets step (fun core _ => core.ips.entries.length < maxTrackedIps)
        (AuthGuardCore.withConfig cfg) (List.replicate n ⟨ip, now, .outcome outcome⟩) := by
  have hlength : ∀ core : AuthGuardCore,
      (core.cfg = cfg ∧ ∀ a ∈ core.ips.keys, a = canonicalIp ip) →
        core.ips.entries.length < maxTrackedIps := by
    rintro core ⟨-, hkeys⟩
    have hsub : core.ips.keys ⊆ [canonicalIp ip] := fun a ha =>
      List.mem_singleton.mpr (hkeys a ha)
    have hle := (List.subperm_of_subset core.ips.keys_nodup hsub).length_le
    rw [AList.keys, List.keys, List.length_map, List.length_singleton] at hle
    exact hle.trans_lt (by decide)
  have hstep : ∀ core : AuthGuardCore, ∀ e ∈ List.replicate n ⟨ip, now, .outcome outcome⟩,
      (core.cfg = cfg ∧ ∀ a ∈ core.ips.keys, a = canonicalIp ip) →
        ∃ core', step core e = some core' ∧
          (core'.cfg = cfg ∧ ∀ a ∈ core'.ips.keys, a = canonicalIp ip) := by
    rintro core e he ⟨rfl, hkeys⟩
    rw [List.eq_of_mem_replicate he]
    obtain ⟨entry, hrecord⟩ := recordOutcome_some ip outcome hroom
    refine ⟨_, hrecord, ?_⟩
    split
    · exact ⟨rfl, hkeys⟩
    · refine ⟨rfl, fun a ha => ?_⟩
      rcases (AList.mem_insert _).mp (AList.mem_keys.mpr ha) with heq | hmem
      · exact heq
      · exact hkeys a (AList.mem_keys.mp hmem)
  have hinit : (AuthGuardCore.withConfig cfg).cfg = cfg ∧
      ∀ a ∈ (AuthGuardCore.withConfig cfg).ips.keys, a = canonicalIp ip :=
    ⟨rfl, by simp [AuthGuardCore.withConfig]⟩
  obtain ⟨core, hrun, hinv, hmeets⟩ := run_progress _ _ hstep hinit
  exact ⟨core, hrun, hlength core hinv, hmeets.mono fun core _ => hlength core⟩

/-- A counter that stops at its greatest value: after `2 ^ 32` failures under the
greatest threshold the lockout is the base and not twice the base. And a lockout
beyond the range of the clock, which is never recorded. -/
theorem not_decide_refines_history_uncapped :
    (∃ core, run step (AuthGuardCore.withConfig ⟨.fromSecs 60, 10, 0xffffffff, .fromSecs 3,
          .fromSecs 1, .fromSecs 10⟩) (List.replicate (2 ^ 32)
          ⟨.v4 ⟨203, 0, 113, 7⟩, .fromSecs 0, .outcome .failure⟩) = some core ∧
      Meets step (fun core _ => core.ips.entries.length < maxTrackedIps)
        (AuthGuardCore.withConfig ⟨.fromSecs 60, 10, 0xffffffff, .fromSecs 3, .fromSecs 1,
          .fromSecs 10⟩) (List.replicate (2 ^ 32)
          ⟨.v4 ⟨203, 0, 113, 7⟩, .fromSecs 0, .outcome .failure⟩) ∧
      Verdict.ofDecision (core.decide (.fromSecs 1) (.v4 ⟨203, 0, 113, 7⟩)).1 = .accept ∧
      verdict id ⟨.fromSecs 60, 10, 0xffffffff, .fromSecs 3, .fromSecs 1, .fromSecs 10⟩
        (history (.v4 ⟨203, 0, 113, 7⟩) (List.replicate (2 ^ 32)
          ⟨.v4 ⟨203, 0, 113, 7⟩, .fromSecs 0, .outcome .failure⟩)) (.fromSecs 1) =
        .cooldown 1000000000) ∧
    run step (AuthGuardCore.withConfig ⟨.fromSecs 60, 10, 1, .fromSecs 3, .maxValue, .maxValue⟩)
      [⟨.v4 ⟨203, 0, 113, 7⟩, .fromSecs 0, .outcome .failure⟩] = none := by
  refine ⟨?_, by decide +kernel⟩
  have hip : (canonicalIp (.v4 ⟨203, 0, 113, 7⟩)).isLoopback = false := by decide
  obtain ⟨core, hrun, hcap, hmeets⟩ := run_replicate
    ⟨.fromSecs 60, 10, 0xffffffff, .fromSecs 3, .fromSecs 1, .fromSecs 10⟩
    (.v4 ⟨203, 0, 113, 7⟩) (.fromSecs 0) .failure (by decide +kernel) (2 ^ 32)
  have hhistory : history (canonicalIp (.v4 ⟨203, 0, 113, 7⟩)) (List.replicate (2 ^ 32)
      ⟨.v4 ⟨203, 0, 113, 7⟩, .fromSecs 0, .outcome .failure⟩) =
      List.replicate (2 ^ 32) (.fromSecs 0, .outcome .failure) :=
    history_replicate (2 ^ 32) ⟨.v4 ⟨203, 0, 113, 7⟩, .fromSecs 0, .outcome .failure⟩
  have hnow : ∀ e ∈ List.replicate (2 ^ 32) (⟨.v4 ⟨203, 0, 113, 7⟩, .fromSecs 0,
      .outcome .failure⟩ : GuardEvent), e.now ≤ .fromSecs 1 := by
    intro e he
    rw [List.eq_of_mem_replicate he]
    decide +kernel
  have hrefines := refines_run (List.pairwise_replicate.mpr (.inr (le_refl _))) hmeets hrun _ hnow
  have hdecide := (hrefines.decide hcap hip).1
  rw [hhistory, verdict_replicate _ _ (by decide)] at hdecide
  refine ⟨core, hrun, hmeets, ?_, ?_⟩
  · rw [hdecide]
    decide +kernel
  · rw [show history (.v4 ⟨203, 0, 113, 7⟩) _ = _ from hhistory, verdict_replicate _ _ (by decide)]
    decide +kernel

end Macrdp.AuthGuardHistory
