import Mathlib.Data.Nat.Bitwise
import Mathlib.Tactic.Linarith

/-!
# Network addresses

Addresses of both versions with the embedding of one in the other, and the
endpoints of flows.
-/

namespace Macrdp.NetAddress

/-- An IPv4 address by its octets. -/
structure Ipv4Addr where
  a : UInt8
  b : UInt8
  c : UInt8
  d : UInt8
  deriving DecidableEq, Repr

/-- An IPv6 address by its segments. -/
structure Ipv6Addr where
  s0 : UInt16
  s1 : UInt16
  s2 : UInt16
  s3 : UInt16
  s4 : UInt16
  s5 : UInt16
  s6 : UInt16
  s7 : UInt16
  deriving DecidableEq, Repr

/-- An address of either version. -/
inductive IpAddr where
  | v4 (ip : Ipv4Addr)
  | v6 (ip : Ipv6Addr)
  deriving DecidableEq, Repr

/-- The IPv6 form `::ffff:a.b.c.d` of an IPv4 address. -/
def Ipv4Addr.toIpv6Mapped (ip : Ipv4Addr) : Ipv6Addr :=
  ⟨0, 0, 0, 0, 0, 0xffff, ip.a.toUInt16 <<< 8 ||| ip.b.toUInt16,
    ip.c.toUInt16 <<< 8 ||| ip.d.toUInt16⟩

/-- The IPv4 address of an IPv4-mapped one. -/
def Ipv6Addr.toIpv4Mapped (ip : Ipv6Addr) : Option Ipv4Addr :=
  if ip.s0 = 0 ∧ ip.s1 = 0 ∧ ip.s2 = 0 ∧ ip.s3 = 0 ∧ ip.s4 = 0 ∧ ip.s5 = 0xffff then
    some ⟨(ip.s6 >>> 8).toUInt8, ip.s6.toUInt8, (ip.s7 >>> 8).toUInt8, ip.s7.toUInt8⟩
  else none

/-- `127.0.0.0/8` or `::1`. -/
def IpAddr.isLoopback : IpAddr → Bool
  | .v4 ip => ip.a == 127
  | .v6 ip => ip == ⟨0, 0, 0, 0, 0, 0, 0, 1⟩

/-- The octets of an IPv4 address survive the IPv6 form. -/
theorem toIpv4Mapped_toIpv6Mapped (ip : Ipv4Addr) : ip.toIpv6Mapped.toIpv4Mapped = some ip := by
  have hsegment : ∀ hi lo : UInt8, ((hi.toUInt16 <<< 8 ||| lo.toUInt16) >>> 8).toUInt8 = hi ∧
      (hi.toUInt16 <<< 8 ||| lo.toUInt16).toUInt8 = lo := by
    intro hi lo
    have hhi := hi.toNat_lt
    have hlo := lo.toNat_lt
    have hvalue : (hi.toUInt16 <<< 8 ||| lo.toUInt16).toNat = hi.toNat * 256 + lo.toNat := by
      have hor := Nat.shiftLeft_add_eq_or_of_lt hlo hi.toNat
      have hshift : (hi.toUInt16 <<< 8).toNat = hi.toNat <<< 8 := by
        rw [UInt16.toNat_shiftLeft, Nat.shiftLeft_eq, Nat.shiftLeft_eq]
        exact Nat.mod_eq_of_lt (by simp; omega)
      rw [UInt16.toNat_or, hshift, UInt8.toNat_toUInt16, ← hor, Nat.shiftLeft_eq]
    constructor
    · apply UInt8.toNat.inj
      rw [UInt16.toNat_toUInt8, UInt16.toNat_shiftRight, hvalue, Nat.shiftRight_eq_div_pow]
      simp
      omega
    · apply UInt8.toNat.inj
      rw [UInt16.toNat_toUInt8, hvalue]
      omega
  simp [Ipv4Addr.toIpv6Mapped, Ipv6Addr.toIpv4Mapped, hsegment]

/-- An address with a port. -/
structure SocketAddr where
  ip : IpAddr
  port : UInt16
  deriving DecidableEq, Repr

end Macrdp.NetAddress
