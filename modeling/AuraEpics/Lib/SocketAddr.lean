import Mathlib.Data.List.GetD
import Mathlib.Data.Vector.Basic

/-!
# Internet addresses

The addresses of the standard library of Rust (`std::net`) with the two conversions between the
families: an IPv4 address is mapped into the IPv6 ones under a prefix of 12 bytes, and an IPv6
address with that prefix is mapped back. Nothing here depends on a particular program.

* `toIpv4Mapped_eq_some_iff`, the second conversion undoes the first and does nothing else.
-/

namespace Net

/-- `[u8; N]`. -/
abbrev Octets (n : ℕ) := List.Vector UInt8 n

/-- An array of `n` zeros after `copy_from_slice` of bytes that are as many. -/
def Octets.ofSlice (n : ℕ) (bytes : List UInt8) : Octets n :=
  List.Vector.ofFn fun i => bytes.getD i 0

theorem Octets.ofSlice_toList {n : ℕ} (octets : Octets n) :
    Octets.ofSlice n octets.toList = octets := by
  refine List.Vector.ext fun i => ?_
  rw [Octets.ofSlice, List.Vector.get_ofFn, List.Vector.get_eq_get_toList,
    List.getD_eq_getElem _ _ (by rw [octets.toList_length]; exact i.isLt)]
  rfl

/-- `Ipv4Addr`. -/
structure Ipv4Addr where
  octets : Octets 4
  deriving DecidableEq

/-- `Ipv6Addr`. -/
structure Ipv6Addr where
  octets : Octets 16
  deriving DecidableEq

/-- The first bytes of the IPv4-mapped addresses, `::ffff:0:0/96`. -/
def mappedPrefix : List UInt8 := List.replicate 10 0 ++ [0xFF, 0xFF]

/-- `Ipv4Addr::to_ipv6_mapped`. -/
def Ipv4Addr.toIpv6Mapped (addr : Ipv4Addr) : Ipv6Addr where
  octets := ⟨mappedPrefix ++ addr.octets.toList, by
    rw [List.length_append, addr.octets.toList_length]
    rfl⟩

/-- `Ipv6Addr::to_ipv4_mapped`. -/
def Ipv6Addr.toIpv4Mapped (addr : Ipv6Addr) : Option Ipv4Addr :=
  if addr.octets.toList.take 12 = mappedPrefix then
    some ⟨addr.octets.toList.drop 12, by rw [List.length_drop, addr.octets.toList_length]⟩
  else none

/-- The IPv6 address stands for an IPv4 one. -/
def Ipv6Addr.IsMapped (addr : Ipv6Addr) : Prop := ∃ v4 : Ipv4Addr, addr = v4.toIpv6Mapped

theorem toIpv4Mapped_eq_some_iff {addr : Ipv6Addr} {v4 : Ipv4Addr} :
    addr.toIpv4Mapped = some v4 ↔ addr = v4.toIpv6Mapped := by
  unfold Ipv6Addr.toIpv4Mapped
  constructor
  · intro h
    split_ifs at h with hmapped
    · cases h
      cases addr with
      | mk octets =>
        refine congrArg Ipv6Addr.mk (Subtype.ext ?_)
        have hsplit := List.take_append_drop 12 octets.toList
        rw [hmapped] at hsplit
        exact hsplit.symm
  · rintro rfl
    have htake : v4.toIpv6Mapped.octets.toList.take 12 = mappedPrefix := List.take_left' rfl
    rw [if_pos htake]
    refine congrArg some ?_
    cases v4 with
    | mk octets => exact congrArg Ipv4Addr.mk (Subtype.ext (List.drop_left' rfl))

theorem toIpv4Mapped_toIpv6Mapped (addr : Ipv4Addr) :
    addr.toIpv6Mapped.toIpv4Mapped = some addr :=
  toIpv4Mapped_eq_some_iff.2 rfl

theorem toIpv4Mapped_eq_none {addr : Ipv6Addr} (h : ¬addr.IsMapped) : addr.toIpv4Mapped = none := by
  rw [Option.eq_none_iff_forall_ne_some]
  intro v4 hv4
  exact h ⟨v4, toIpv4Mapped_eq_some_iff.1 hv4⟩

/-- `IpAddr`. -/
inductive IpAddr where
  | v4 (addr : Ipv4Addr)
  | v6 (addr : Ipv6Addr)
  deriving DecidableEq

/-- `SocketAddr`. -/
inductive SocketAddr where
  | v4 (ip : Ipv4Addr) (port : UInt16)
  | v6 (ip : Ipv6Addr) (port : UInt16) (flowinfo scopeId : UInt32)
  deriving DecidableEq

namespace SocketAddr

/-- `SocketAddr::new`: an IPv6 address gets no flow information and no scope. -/
def new (ip : IpAddr) (port : UInt16) : SocketAddr :=
  match ip with
  | .v4 ip => .v4 ip port
  | .v6 ip => .v6 ip port 0 0

/-- `SocketAddr::ip`. -/
def ip : SocketAddr → IpAddr
  | v4 ip _ => .v4 ip
  | v6 ip _ _ _ => .v6 ip

/-- `SocketAddr::port`. -/
def port : SocketAddr → UInt16
  | v4 _ port => port
  | v6 _ port _ _ => port

/-- The address is IPv4, or IPv6 that is not an IPv4-mapped one and has no flow information and
    no scope. -/
def IsPlain : SocketAddr → Prop
  | v4 _ _ => True
  | v6 ip _ flowinfo scopeId => ¬ip.IsMapped ∧ flowinfo = 0 ∧ scopeId = 0

end SocketAddr

end Net
