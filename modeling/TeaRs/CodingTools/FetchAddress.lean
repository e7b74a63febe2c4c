import TeaRs.Lib.AddressBlock
import TeaRs.Lib.Sorting

/-!
# The addresses that a fetch may reach

Every answer of the resolver is checked before a connection is made
(`tea-coding-tools/src/web_fetch/address_policy.rs`). One forbidden address refuses the whole answer.

## Main definitions

* `IpAddr`, `FetchAddressPolicy.allows`, `FetchAddressPolicy.validate`.
* `AddressRange`: the ranges of special addresses, by their first and last address.
* `IpAddr.IsPublic`: an address outside all of them.

## Main results

* `isPublic_of_allows`: the policy for public networks allows public addresses only.
* `of_validate`: what passes the policy is the answer, and all of it is allowed.
-/

namespace TeaRs

/-- `IpAddr`. -/
inductive IpAddr where
  | v4 (value : BitVec 32)
  | v6 (value : BitVec 128)
  deriving DecidableEq

/-- The order of addresses: by version, then by value. -/
instance : Ord IpAddr where
  compare
    | .v4 a, .v4 b => compare a.toNat b.toNat
    | .v4 _, .v6 _ => .lt
    | .v6 _, .v4 _ => .gt
    | .v6 a, .v6 b => compare a.toNat b.toNat

/-- `Ipv4Addr::new`. -/
def ipv4 (a b c d : Nat) : BitVec 32 :=
  BitVec.ofNat 32 (((a * 256 + b) * 256 + c) * 256 + d)

/-- `Ipv6Addr::new`, with zeros after the first four segments. -/
def ipv6 (a b c d : Nat) : BitVec 128 :=
  BitVec.ofNat 128 ((((a * 65536 + b) * 65536 + c) * 65536 + d) * 2 ^ 64)

/-- `Ipv4Addr::is_loopback`. -/
def isLoopbackV4 (address : BitVec 32) : Bool := address.toNat / 2 ^ 24 == 127

/-- `Ipv6Addr::is_loopback`. -/
def isLoopbackV6 (address : BitVec 128) : Bool := address.toNat == 1

/-- `Ipv6Addr::to_ipv4_mapped`. -/
def toIpv4Mapped (address : BitVec 128) : Option (BitVec 32) :=
  if address.toNat / 2 ^ 32 = 0xffff then some (address.setWidth 32) else none

/-- `IPV4_FORBIDDEN`. -/
def ipv4Forbidden : List (BitVec 32 × Nat) :=
  [(ipv4 0 0 0 0, 8), (ipv4 10 0 0 0, 8), (ipv4 100 64 0 0, 10), (ipv4 169 254 0 0, 16),
    (ipv4 172 16 0 0, 12), (ipv4 192 0 0 0, 24), (ipv4 192 0 2 0, 24), (ipv4 192 31 196 0, 24),
    (ipv4 192 52 193 0, 24), (ipv4 192 88 99 0, 24), (ipv4 192 168 0 0, 16),
    (ipv4 192 175 48 0, 24), (ipv4 198 18 0 0, 15), (ipv4 198 51 100 0, 24),
    (ipv4 203 0 113 0, 24), (ipv4 224 0 0 0, 4), (ipv4 240 0 0 0, 4)]

/-- `IPV6_FORBIDDEN`. -/
def ipv6Forbidden : List (BitVec 128 × Nat) :=
  [(ipv6 0 0 0 0, 96), (ipv6 0x64 0xff9b 0 0, 96), (ipv6 0x64 0xff9b 1 0, 48),
    (ipv6 0x100 0 0 0, 64), (ipv6 0x2001 0 0 0, 32), (ipv6 0x2001 2 0 0, 48),
    (ipv6 0x2001 0x10 0 0, 28), (ipv6 0x2001 0x20 0 0, 28), (ipv6 0x2001 0x0db8 0 0, 32),
    (ipv6 0x2002 0 0 0, 16), (ipv6 0x3fff 0 0 0, 20), (ipv6 0xfc00 0 0 0, 7),
    (ipv6 0xfe80 0 0 0, 10), (ipv6 0xfec0 0 0 0, 10), (ipv6 0xff00 0 0 0, 8)]

/-- `FetchAddressPolicy`. -/
structure FetchAddressPolicy where
  allowLoopback : Bool
  deriving DecidableEq

/-- `FetchAddressPolicyError`. -/
inductive FetchAddressPolicyError where
  | empty | forbidden
  deriving DecidableEq, Repr

namespace FetchAddressPolicy

/-- `FetchAddressPolicy::public_network`. -/
def publicNetwork : FetchAddressPolicy := ⟨false⟩

/-- `allows_v4`. -/
def allowsV4 (policy : FetchAddressPolicy) (address : BitVec 32) : Bool :=
  if isLoopbackV4 address then policy.allowLoopback
  else !ipv4Forbidden.any fun block => inBlock address block.1 block.2

/-- `allows_v6`. -/
def allowsV6 (policy : FetchAddressPolicy) (address : BitVec 128) : Bool :=
  if isLoopbackV6 address then policy.allowLoopback
  else
    match toIpv4Mapped address with
    | some mapped => policy.allowsV4 mapped
    | none => !ipv6Forbidden.any fun block => inBlock address block.1 block.2

/-- `FetchAddressPolicy::allows`. -/
def allows (policy : FetchAddressPolicy) : IpAddr → Bool
  | .v4 address => policy.allowsV4 address
  | .v6 address => policy.allowsV6 address

/-- `FetchAddressPolicy::validate`. -/
def validate (policy : FetchAddressPolicy) (addresses : List IpAddr) :
    Except FetchAddressPolicyError (List IpAddr) :=
  let addresses := sortDedup addresses
  if addresses.isEmpty then .error .empty
  else if addresses.any fun address => !policy.allows address then .error .forbidden
  else .ok addresses

end FetchAddressPolicy

open FetchAddressPolicy

/-! ### Special addresses -/

/-- The ranges of addresses that are not reached over the public network. -/
inductive AddressRange where
  | thisNetwork | loopback | privateUse | carrierShared | linkLocal | uniqueLocal | siteLocal
  | multicast | reserved | documentation | benchmarking | nat64 | sixToFour | teredo
  deriving DecidableEq, Repr

namespace AddressRange

/-- The first and the last addresses of a range in version 4. -/
def v4 : AddressRange → List (Nat × Nat)
  | thisNetwork => [(0x00000000, 0x00ffffff)]
  | loopback => [(0x7f000000, 0x7fffffff)]
  | privateUse => [(0x0a000000, 0x0affffff), (0xac100000, 0xac1fffff), (0xc0a80000, 0xc0a8ffff)]
  | carrierShared => [(0x64400000, 0x647fffff)]
  | linkLocal => [(0xa9fe0000, 0xa9feffff)]
  | multicast => [(0xe0000000, 0xefffffff)]
  | reserved => [(0xf0000000, 0xffffffff)]
  | documentation =>
    [(0xc0000200, 0xc00002ff), (0xc6336400, 0xc63364ff), (0xcb007100, 0xcb0071ff)]
  | benchmarking => [(0xc6120000, 0xc613ffff)]
  | sixToFour => [(0xc0586300, 0xc05863ff)]
  | uniqueLocal | siteLocal | nat64 | teredo => []

/-- The first and the last addresses of a range in version 6. -/
def v6 : AddressRange → List (Nat × Nat)
  | loopback => [(1, 1)]
  | linkLocal => [(0xfe80 * 2 ^ 112, 0xfec0 * 2 ^ 112 - 1)]
  | uniqueLocal => [(0xfc00 * 2 ^ 112, 0xfe00 * 2 ^ 112 - 1)]
  | siteLocal => [(0xfec0 * 2 ^ 112, 0xff00 * 2 ^ 112 - 1)]
  | multicast => [(0xff00 * 2 ^ 112, 2 ^ 128 - 1)]
  | documentation => [(0x20010db8 * 2 ^ 96, 0x20010db9 * 2 ^ 96 - 1),
      (0x3fff0000 * 2 ^ 96, 0x3fff1000 * 2 ^ 96 - 1)]
  | benchmarking => [(0x200100020000 * 2 ^ 80, 0x200100020001 * 2 ^ 80 - 1)]
  | nat64 => [(0x0064ff9b * 2 ^ 96, 0x0064ff9b * 2 ^ 96 + 2 ^ 32 - 1),
      (0x0064ff9b0001 * 2 ^ 80, 0x0064ff9b0002 * 2 ^ 80 - 1)]
  | sixToFour => [(0x2002 * 2 ^ 112, 0x2003 * 2 ^ 112 - 1)]
  | teredo => [(0x20010000 * 2 ^ 96, 0x20010001 * 2 ^ 96 - 1)]
  | thisNetwork | privateUse | carrierShared | reserved => []

end AddressRange

/-- An address of a range. An address of version 6 that maps one of version 4 is judged by it. -/
def IpAddr.InRange (range : AddressRange) : IpAddr → Prop
  | .v4 address => Holds range.v4 address.toNat
  | .v6 address =>
    if address.toNat / 2 ^ 32 = 0xffff then Holds range.v4 (address.toNat % 2 ^ 32)
    else Holds range.v6 address.toNat

/-- An address that lies in none of the special ranges. -/
def IpAddr.IsPublic (address : IpAddr) : Prop :=
  ∀ range, ¬ address.InRange range

theorem covers_v4 (range : AddressRange) :
    Covers ((ipv4 127 0 0 0, 8) :: ipv4Forbidden) range.v4 := by
  cases range <;> decide +kernel

theorem covers_v6 (range : AddressRange) :
    Covers ((BitVec.ofNat 128 1, 128) :: ipv6Forbidden) range.v6 := by
  cases range <;> decide +kernel

theorem inBlock_loopbackV4 (address : BitVec 32) :
    inBlock address (ipv4 127 0 0 0) 8 = isLoopbackV4 address := by
  rw [Bool.eq_iff_iff, inBlock_iff, isLoopbackV4, beq_iff_eq]
  rfl

theorem inBlock_loopbackV6 (address : BitVec 128) :
    inBlock address (BitVec.ofNat 128 1) 128 = isLoopbackV6 address := by
  rw [Bool.eq_iff_iff, inBlock_iff, isLoopbackV6, beq_iff_eq]
  simp

theorem not_holds_of_allowsV4 {address : BitVec 32}
    (allowed : publicNetwork.allowsV4 address = true) (range : AddressRange) :
    ¬ Holds range.v4 address.toNat := by
  refine (covers_v4 range).not_holds (List.forall_mem_cons.mpr ?_)
  rw [allowsV4] at allowed
  split at allowed
  · cases allowed
  · rename_i loopback
    refine ⟨?_, by simpa using allowed⟩
    rw [inBlock_loopbackV4]
    simpa using loopback

/-- The policy for public networks allows public addresses only. -/
theorem isPublic_of_allows {address : IpAddr}
    (allowed : publicNetwork.allows address = true) : address.IsPublic := by
  intro range
  cases address with
  | v4 address => exact not_holds_of_allowsV4 allowed range
  | v6 address =>
    rw [allows, allowsV6] at allowed
    split at allowed
    · cases allowed
    · rename_i loopback
      rw [IpAddr.InRange]
      split_ifs with mapped
      · rw [toIpv4Mapped, if_pos mapped] at allowed
        have outside := not_holds_of_allowsV4 allowed range
        rwa [BitVec.toNat_setWidth] at outside
      · rw [toIpv4Mapped, if_neg mapped] at allowed
        refine (covers_v6 range).not_holds (List.forall_mem_cons.mpr ⟨?_, by simpa using allowed⟩)
        rw [inBlock_loopbackV6]
        simpa using loopback

/-- What passes the policy are the addresses of the answer, and all of them are allowed. -/
theorem of_validate {policy : FetchAddressPolicy} {answer addresses : List IpAddr}
    (ok : policy.validate answer = .ok addresses) :
    (∀ address, address ∈ addresses ↔ address ∈ answer) ∧
      ∀ address ∈ answer, policy.allows address = true := by
  rw [validate] at ok
  split_ifs at ok with empty forbidden
  cases ok
  refine ⟨fun address => mem_sortDedup, fun address mem => ?_⟩
  simp only [List.any_eq_true, not_exists, not_and, Bool.not_eq_true', Bool.not_eq_false] at forbidden
  exact forbidden address (mem_sortDedup.mpr mem)

end TeaRs
