import LabProbe.Py.IpText

/-!
# `ipaddress.ip_network` and `ipaddress.ip_interface`

A network is read off an address and a prefix length or, for IPv4, a mask.
Without `strict` the bits of the host are cleared; an IPv6 network without
such bits keeps the scope its address was written with.
-/

namespace Py

def splitPrefix (cs : List Char) : Option (List Char × Option (List Char)) :=
  match splitOn '/' cs with
  | [address] => some (address, none)
  | [address, mask] => some (address, some mask)
  | _ => none

/-- `_prefix_from_prefix_string`; `int` reads at most so many digits. -/
def parsePrefix (width : Nat) (cs : List Char) : Option Nat :=
  if cs.isEmpty || !cs.all Char.isDigit || maxDigits < cs.length then none
  else if width < decimalValue cs then none
  else some (decimalValue cs)

/-- `_prefix_from_ip_int`: the length of a mask of ones before zeros. -/
def prefixOfMask (mask : Nat) : Option Nat :=
  (List.range 33).find? fun length => mask == 2 ^ 32 - 2 ^ (32 - length)

def parseMask (cs : List Char) : Option Nat := do
  let mask ← parseIpv4 cs
  (prefixOfMask mask).or (prefixOfMask (2 ^ 32 - 1 - mask))

def makeNetmask4 : Option (List Char) → Option Nat
  | none => some 32
  | some cs => (parsePrefix 32 cs).or (parseMask cs)

def makeNetmask6 : Option (List Char) → Option Nat
  | none => some 128
  | some cs => parsePrefix 128 cs

def masked (width prefixlen value : Nat) : Nat :=
  value / 2 ^ (width - prefixlen) * 2 ^ (width - prefixlen)

structure IpPrefix where
  address : IpAddress
  scope : List Char
  prefixlen : Nat
  deriving DecidableEq

/-- `str` of a network or an interface. -/
def IpPrefix.text (p : IpPrefix) : String :=
  let address := match p.address with
    | .v4 value => ipv4Text value
    | .v6 value => ipv6Text value ++ p.scope
  String.ofList (address ++ '/' :: Nat.toDigits 10 p.prefixlen)

def ipInterface (s : String) : Option IpPrefix := do
  let (address, mask) ← splitPrefix s.toList
  let four : Option IpPrefix := do some ⟨.v4 (← parseIpv4 address), [], ← makeNetmask4 mask⟩
  let six : Option IpPrefix := do
    some ⟨.v6 (← parseIpv6 address), address.dropWhile (· != '%'), ← makeNetmask6 mask⟩
  four.or six

def IpPrefix.network (p : IpPrefix) : IpPrefix :=
  match p.address with
  | .v4 value => { p with address := .v4 (masked 32 p.prefixlen value) }
  | .v6 value =>
    { p with address := .v6 (masked 128 p.prefixlen value)
             scope := if masked 128 p.prefixlen value = value then p.scope else [] }

def ipNetwork (s : String) : Option IpPrefix := (ipInterface s).map IpPrefix.network

/-- `address in network`. -/
def IpPrefix.contains (network : IpPrefix) : IpAddress → Bool
  | .v4 value => network.address == .v4 (masked 32 network.prefixlen value)
  | .v6 value => network.address == .v6 (masked 128 network.prefixlen value)

-- ---------------------------------------------------------------------------
-- Bounds
-- ---------------------------------------------------------------------------

theorem parseIpv4_lt {cs : List Char} {value : Nat} (h : parseIpv4 cs = some value) :
    value < 2 ^ 32 := by
  have hoctet : ∀ {part n}, parseOctet part = some n → n < 256 := by
    intro part n hpart
    simp only [parseOctet, Option.ite_none_left_eq_some, Option.some.injEq] at hpart
    omega
  unfold parseIpv4 at h
  split at h
  · simp only [Option.bind_eq_bind, Option.bind_eq_some_iff, Option.some.injEq] at h
    obtain ⟨a, ha, b, hb, c, hc, d, hd, rfl⟩ := h
    have := hoctet ha
    have := hoctet hb
    have := hoctet hc
    have := hoctet hd
    omega
  · cases h

theorem parsePrefix_le {width length : Nat} {cs : List Char}
    (h : parsePrefix width cs = some length) : length ≤ width := by
  simp only [parsePrefix, Option.ite_none_left_eq_some, Option.some.injEq] at h
  omega

theorem prefixOfMask_le {mask length : Nat} (h : prefixOfMask mask = some length) :
    length ≤ 32 := by
  have hmem := List.mem_of_find?_eq_some h
  rw [List.mem_range] at hmem
  omega

theorem makeNetmask4_le {mask : Option (List Char)} {length : Nat}
    (h : makeNetmask4 mask = some length) : length ≤ 32 := by
  cases mask with
  | none =>
    cases h
    exact Nat.le_refl 32
  | some cs =>
    rcases Option.or_eq_some_iff.mp h with hlength | ⟨-, hmask⟩
    · exact parsePrefix_le hlength
    · obtain ⟨mask, -, hor⟩ := Option.bind_eq_some_iff.mp hmask
      rcases Option.or_eq_some_iff.mp hor with hlength | ⟨-, hlength⟩
      · exact prefixOfMask_le hlength
      · exact prefixOfMask_le hlength

theorem makeNetmask6_le {mask : Option (List Char)} {length : Nat}
    (h : makeNetmask6 mask = some length) : length ≤ 128 := by
  cases mask with
  | none =>
    cases h
    exact Nat.le_refl 128
  | some cs => exact parsePrefix_le h

def IpPrefix.Bounded (p : IpPrefix) : Prop :=
  match p.address with
  | .v4 value => value < 2 ^ 32 ∧ p.prefixlen ≤ 32
  | .v6 value => value < 2 ^ 128 ∧ p.prefixlen ≤ 128

theorem ipInterface_bounded {s : String} {p : IpPrefix} (h : ipInterface s = some p) :
    p.Bounded := by
  obtain ⟨⟨address, mask⟩, -, h⟩ := Option.bind_eq_some_iff.mp h
  rcases Option.or_eq_some_iff.mp h with h | ⟨-, h⟩
  · simp only [Option.bind_eq_bind, Option.bind_eq_some_iff, Option.some.injEq] at h
    obtain ⟨value, hvalue, length, hlength, rfl⟩ := h
    exact ⟨parseIpv4_lt hvalue, makeNetmask4_le hlength⟩
  · simp only [Option.bind_eq_bind, Option.bind_eq_some_iff, Option.some.injEq] at h
    obtain ⟨value, hvalue, length, hlength, rfl⟩ := h
    obtain ⟨cs, -, hint⟩ := Option.bind_eq_some_iff.mp hvalue
    exact ⟨parseIpv6Int_lt hint, makeNetmask6_le hlength⟩

theorem masked_le (width prefixlen value : Nat) : masked width prefixlen value ≤ value :=
  Nat.div_mul_le_self _ _

theorem IpPrefix.Bounded.network {p : IpPrefix} (h : p.Bounded) : p.network.Bounded := by
  obtain ⟨address, scope, prefixlen⟩ := p
  cases address with
  | v4 value => exact ⟨(masked_le _ _ _).trans_lt h.1, h.2⟩
  | v6 value => exact ⟨(masked_le _ _ _).trans_lt h.1, h.2⟩

/-- Three spellings of one network, the last mask that of the hosts. -/
example : (ipNetwork "10.0.7.9/16").map IpPrefix.text = some "10.0.0.0/16" ∧
    (ipNetwork "10.0.7.9/255.255.0.0").map IpPrefix.text = some "10.0.0.0/16" ∧
    (ipNetwork "10.0.7.9/0.0.255.255").map IpPrefix.text = some "10.0.0.0/16" := by
  decide +kernel

/-- A scope stays where the address has no bits of a host. -/
example : (ipNetwork "fe80::%eth0/64").map IpPrefix.text = some "fe80::%eth0/64" ∧
    (ipNetwork "fe80::1%eth0/64").map IpPrefix.text = some "fe80::/64" := by
  decide +kernel

end Py
