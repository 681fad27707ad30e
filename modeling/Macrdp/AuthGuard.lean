import Macrdp.KeyedMap
import Macrdp.NetAddress
import Macrdp.PlatformTime

/-!
# The connection guard

Per-address rate limiting and lockout after failed attempts. Each address has an
entry with the attempts in the sliding window, the failures since the last
success and the end of a lockout; entries that carry nothing are dropped.
-/

namespace Macrdp.AuthGuard

open KeyedMap NetAddress PlatformTime

/-- Fold an IPv4-mapped address down to its IPv4 form. -/
def canonicalIp : IpAddr → IpAddr
  | .v6 v6 =>
    match v6.toIpv4Mapped with
    | some v4 => .v4 v4
    | none => .v6 v6
  | .v4 v4 => .v4 v4

/-- Hard cap on tracked addresses. -/
def maxTrackedIps : ℕ := 50000

/-- Resolved thresholds. -/
structure GuardConfig where
  /-- Sliding window over which attempts are counted. -/
  window : Duration
  /-- Attempts per window and address; `0` disables rate limiting. -/
  maxAttempts : ℕ
  /-- Consecutive failures before the first lockout; `0` disables lockout. -/
  failureThreshold : UInt32
  /-- How soon an errored connection ends that counts as a failure. -/
  failfastWindow : Duration
  /-- First lockout; doubles per failure past the threshold. -/
  baseCooldown : Duration
  /-- Cap on the escalated lockout. -/
  maxCooldown : Duration

namespace GuardConfig

def rateLimitEnabled (cfg : GuardConfig) : Bool := decide (0 < cfg.maxAttempts)

def lockoutEnabled (cfg : GuardConfig) : Bool := decide (0 < cfg.failureThreshold)

end GuardConfig

/-- Tracking state of one address. -/
structure PerIp where
  /-- Attempts within the window, oldest first. -/
  attempts : List Instant
  /-- Consecutive failures. -/
  consecutiveFailures : UInt32
  /-- End of the lockout, if any. -/
  cooldownUntil : Option Instant
  /-- Last time the entry was touched. -/
  lastTouch : Instant

/-- The decision on an attempt. -/
inductive Decision where
  | accept
  /-- Too many attempts within the window. -/
  | rejectRateLimit (windowAttempts : ℕ)
  /-- The address is locked out. -/
  | rejectCooldown (retryAfter : Duration)
  deriving DecidableEq

/-- The classified result of a finished connection. -/
inductive Outcome where
  | success
  | failure
  deriving DecidableEq, Repr

/-- A connection that errored within the window never got past the handshake;
every other one counts as a success. -/
def classifyOutcome (errored : Bool) (duration failfastWindow : Duration) : Outcome :=
  if errored ∧ duration < failfastWindow then .failure else .success

/-- `base << (n - threshold)`, saturating, capped at `limit`. -/
def escalatedCooldown (n threshold : UInt32) (base limit : Duration) : Duration :=
  let steps := n.toNat - threshold.toNat
  let factor : UInt64 := if steps < 64 then 1 <<< UInt64.ofNat steps else 0xffffffffffffffff
  let scaled := (base.checkedMul (min factor 0xffffffff).toUInt32).getD limit
  min scaled limit

/-- One more, saturating. -/
def saturatingSucc (n : UInt32) : UInt32 := if n = 0xffffffff then 0xffffffff else n + 1

namespace PerIp

/-- A new entry. -/
def new (now : Instant) : PerIp := ⟨[], 0, none, now⟩

/-- The entry carries no useful state. -/
def isIdle (entry : PerIp) (now : Instant) : Bool :=
  entry.attempts.isEmpty && entry.consecutiveFailures == 0 &&
    entry.cooldownUntil.all fun expiry => decide (expiry ≤ now)

/-- Drop the attempts that have aged out of the window. -/
def prune (entry : PerIp) (cutoff : Option Instant) : PerIp :=
  match cutoff with
  | some c => { entry with attempts := entry.attempts.dropWhile fun front => decide (front < c) }
  | none => entry

/-- Count an attempt if the window has room; a rejected one is not counted. -/
def rateLimit (cfg : GuardConfig) (now : Instant) (entry : PerIp) : Decision × PerIp :=
  if cfg.rateLimitEnabled && decide (cfg.maxAttempts ≤ entry.attempts.length) then
    (.rejectRateLimit entry.attempts.length, entry)
  else
    (.accept, { entry with attempts := entry.attempts ++ [now] })

/-- Reject during a lockout, clear one that has expired, then limit the rate. -/
def judge (cfg : GuardConfig) (now : Instant) (entry : PerIp) : Decision × PerIp :=
  match cfg.lockoutEnabled, entry.cooldownUntil with
  | true, some expiry =>
    if now < expiry then (.rejectCooldown (expiry.saturatingDurationSince now), entry)
    else { entry with cooldownUntil := none }.rateLimit cfg now
  | _, _ => entry.rateLimit cfg now

/-- Account for an outcome; `none` is the panic of a lockout that ends out of the
range of the clock. -/
def recordOutcome (cfg : GuardConfig) (now : Instant) (entry : PerIp) : Outcome → Option PerIp
  | .success => some { entry with consecutiveFailures := 0, cooldownUntil := none }
  | .failure =>
    let failures := saturatingSucc entry.consecutiveFailures
    let entry := { entry with consecutiveFailures := failures }
    if cfg.lockoutEnabled && decide (cfg.failureThreshold ≤ failures) then
      (now.add (escalatedCooldown failures cfg.failureThreshold cfg.baseCooldown
        cfg.maxCooldown)).map fun expiry => { entry with cooldownUntil := some expiry }
    else some entry

end PerIp

/-- The decision core. -/
structure AuthGuardCore where
  /-- The tracked addresses. -/
  ips : AList fun _ : IpAddr => PerIp
  /-- The thresholds. -/
  cfg : GuardConfig

namespace AuthGuardCore

def withConfig (cfg : GuardConfig) : AuthGuardCore := ⟨∅, cfg⟩

/-- Drop idle entries, and at the cap the tenth that was touched first. The order
of the entries stands for the iteration order of the map, which decides between
entries touched at one time. -/
def evictStale (core : AuthGuardCore) (now : Instant) : AuthGuardCore :=
  let cutoff := now.checkedSub core.cfg.window
  let ips := retain
    (fun _ entry => if (entry.prune cutoff).isIdle now then none else some (entry.prune cutoff))
    core.ips
  if maxTrackedIps ≤ ips.entries.length then
    let toDrop := ips.entries.length / 10 + 1
    let byAge := ips.entries.mergeSort fun e e' => decide (e.2.lastTouch ≤ e'.2.lastTouch)
    { core with ips := (byAge.take toDrop).foldl (fun kept e => kept.erase e.1) ips }
  else
    { core with ips := ips }

/-- The entry of an address, new if it is not tracked. -/
def entry (core : AuthGuardCore) (now : Instant) (ip : IpAddr) : PerIp :=
  { (core.ips.lookup ip).getD (PerIp.new now) with lastTouch := now }

/-- Decide whether to accept a fresh attempt. -/
def decide (core : AuthGuardCore) (now : Instant) (ip : IpAddr) : Decision × AuthGuardCore :=
  let ip := canonicalIp ip
  if ip.isLoopback then (.accept, core)
  else
    let core := core.evictStale now
    let entry := (core.entry now ip).prune (now.checkedSub core.cfg.window)
    let (decision, entry) := entry.judge core.cfg now
    (decision, { core with ips := core.ips.insert ip entry })

/-- Record the outcome of a finished connection. -/
def recordOutcome (core : AuthGuardCore) (now : Instant) (ip : IpAddr) (outcome : Outcome) :
    Option AuthGuardCore :=
  let ip := canonicalIp ip
  if ip.isLoopback then some core
  else
    ((core.entry now ip).recordOutcome core.cfg now outcome).map fun entry =>
      { core with ips := core.ips.insert ip entry }

end AuthGuardCore
end Macrdp.AuthGuard
