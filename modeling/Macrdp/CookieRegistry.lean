import Mathlib.Data.List.AList
import Macrdp.EmtTunnel
import Macrdp.PlatformTime

/-!
# The cookie registry

The cookies that were issued and not consumed, each with the tunnel-bound flag
and the inbound sink of its connection. The flags are shared cells, known by
their number in the order of their allocation; sinks are known by a number of
their own.
-/

namespace Macrdp.CookieRegistry

open EmtTunnel PlatformTime

/-- The entry of a cookie. -/
structure CookieEntry where
  /-- The tunnel-bound flag. -/
  bound : ℕ
  /-- Where the data of the client goes. -/
  inbound : ℕ
  deriving DecidableEq

/-- The registry with the shared flags. -/
structure Registry where
  /-- The issued cookies. -/
  entries : AList fun _ : Cookie => CookieEntry
  /-- Until when no offers are made. -/
  suppressedUntil : Option Instant
  /-- The values of the flags. -/
  flags : ℕ → Bool
  /-- The number of the next flag. -/
  nextFlag : ℕ

namespace Registry

def new : Registry := ⟨∅, none, fun _ => false, 0⟩

/-- Register a cookie; gives its tunnel-bound flag. -/
def register (reg : Registry) (cookie : Cookie) (inbound : ℕ) : ℕ × Registry :=
  (reg.nextFlag, { reg with
    entries := reg.entries.insert cookie ⟨reg.nextFlag, inbound⟩
    flags := Function.update reg.flags reg.nextFlag false
    nextFlag := reg.nextFlag + 1 })

/-- Drop a cookie. -/
def remove (reg : Registry) (cookie : Cookie) : Registry :=
  { reg with entries := reg.entries.erase cookie }

/-- Store into a flag. -/
def store (reg : Registry) (flag : ℕ) (value : Bool) : Registry :=
  { reg with flags := Function.update reg.flags flag value }

/-- Check and consume a cookie: raise its flag and give its sink and its flag. -/
def take (reg : Registry) (cookie : Cookie) : Option ((ℕ × ℕ) × Registry) :=
  (reg.entries.lookup cookie).map fun entry =>
    ((entry.inbound, entry.bound), (reg.remove cookie).store entry.bound true)

/-- Suppress offers for a cooldown, extending a suppression; `none` is the panic
of a deadline out of the range of the clock. -/
def suppressMultitransport (reg : Registry) (now : Instant) (cooldown : Duration) :
    Option Registry :=
  (now.add cooldown).map fun newUntil =>
    { reg with suppressedUntil := some (reg.suppressedUntil.elim newUntil (max newUntil)) }

/-- Offers are suppressed. -/
def multitransportSuppressed (reg : Registry) (now : Instant) : Bool :=
  reg.suppressedUntil.any fun deadline => decide (now < deadline)

/-- A cookie found after a removal is another one. -/
theorem lookup_remove {reg : Registry} {cookie c : Cookie} {e : CookieEntry}
    (h : (reg.remove cookie).entries.lookup c = some e) :
    c ≠ cookie ∧ reg.entries.lookup c = some e := by
  change (reg.entries.erase cookie).lookup c = some e at h
  have hc : c ≠ cookie := by
    rintro rfl
    rw [AList.lookup_erase] at h
    cases h
  exact ⟨hc, by rwa [AList.lookup_erase_ne hc] at h⟩

/-- Storing `false` raises no flag. -/
theorem flags_store_false {reg : Registry} {flag f : ℕ}
    (h : (reg.store flag false).flags f = true) : reg.flags f = true := by
  simp only [store, Function.update_apply] at h
  split at h
  · cases h
  · exact h

end Registry
end Macrdp.CookieRegistry
