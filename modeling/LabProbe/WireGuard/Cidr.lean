import LabProbe.Hub.AddressText
import LabProbe.WireGuard.Desired

/-!
# Networks on both sides

The Hub writes an address with a prefix length as the standard library does;
the agent reads it back, unless a scope stands behind the address.
-/

namespace LabProbe.WireGuard

open Py Py.Json Hub Check
open Relay (readOctet readIpv4 readIpv6 parseIpv6Addr)

-- ---------------------------------------------------------------------------
-- Numbers in texts
-- ---------------------------------------------------------------------------

theorem parseU8_toDigits : ∀ n < 256, parseU8 (Nat.toDigits 10 n) = some n := by
  decide +kernel

theorem readOctet_toDigits {n : Nat} (hn : n < 256) {rest : List Char}
    (hrest : ∀ c ∈ rest.head?, c.isDigit = false) :
    readOctet (Nat.toDigits 10 n ++ rest) = some (n, rest) :=
  Relay.readOctet_parseOctet (parseOctet_toDigits n hn) hrest

theorem readIpv4_ipv4Text {value : Nat} (h : value < 2 ^ 32) :
    readIpv4 (ipv4Text value) = some (value, []) := by
  have hdot : ∀ rest : List Char, ∀ c ∈ ('.' :: rest).head?, c.isDigit = false := by
    intro rest c hc
    cases hc
    decide
  have hlast := readOctet_toDigits (n := value % 256) (by omega)
    (by simp : ∀ c ∈ ([] : List Char).head?, c.isDigit = false)
  rw [List.append_nil] at hlast
  have hvalue : ipv4 (value / 16777216 % 256) (value / 65536 % 256) (value / 256 % 256)
      (value % 256) = value := by
    rw [ipv4]
    omega
  simp only [ipv4Text, List.map_cons, List.map_nil, joinWith_cons, List.flatMap_cons,
    List.flatMap_nil, List.append_nil, List.cons_append]
  simp [readIpv4, readOctet_toDigits (Nat.mod_lt _ (by decide)) (hdot _), Relay.readChar, hlast,
    hvalue]

-- ---------------------------------------------------------------------------
-- Characters of an address
-- ---------------------------------------------------------------------------

theorem slash_notMem_ipv4Text (value : Nat) : '/' ∉ ipv4Text value := by
  intro h
  rcases mem_joinWith h with h | ⟨part, hpart, h⟩
  · cases h
  · obtain ⟨n, -, rfl⟩ := List.mem_map.mp hpart
    exact absurd (isDigit_toDigits _ h) (by decide)

-- ---------------------------------------------------------------------------
-- Scopes
-- ---------------------------------------------------------------------------

/-- A scope starts with a percent sign and holds no slash. -/
structure Scoped (p : IpPrefix) : Prop where
  slash : '/' ∉ p.scope
  percent : p.scope ≠ [] → '%' ∈ p.scope
  four : ∀ value, p.address = .v4 value → p.scope = []

theorem ipInterface_scoped {s : String} {p : IpPrefix} (h : ipInterface s = some p) : Scoped p := by
  obtain ⟨⟨address, mask⟩, hsplit, h⟩ := Option.bind_eq_some_iff.mp h
  have haddress : '/' ∉ address := by
    unfold splitPrefix at hsplit
    split at hsplit
    · rename_i part hparts
      cases hsplit
      exact notMem_splitOn (hparts ▸ List.mem_singleton_self _)
    · rename_i part mask' hparts
      cases hsplit
      exact notMem_splitOn (hparts ▸ List.mem_cons_self)
    · cases hsplit
  rcases Option.or_eq_some_iff.mp h with h | ⟨-, h⟩
  · simp only [Option.bind_eq_bind, Option.bind_eq_some_iff, Option.some.injEq] at h
    obtain ⟨value, -, length, -, rfl⟩ := h
    exact ⟨List.not_mem_nil, fun hne => absurd rfl hne, fun _ _ => rfl⟩
  · simp only [Option.bind_eq_bind, Option.bind_eq_some_iff, Option.some.injEq] at h
    obtain ⟨value, -, length, -, rfl⟩ := h
    refine ⟨fun hmem => haddress ((List.dropWhile_suffix _).subset hmem), fun hne => ?_, nofun⟩
    have hhead := List.head_dropWhile_not (fun c => c != '%') (l := address) hne
    have heq : (address.dropWhile (· != '%')).head hne = '%' := by simpa using hhead
    have hmem : (address.dropWhile (· != '%')).head hne ∈ address.dropWhile (· != '%') :=
      List.head_mem hne
    rwa [heq] at hmem

theorem Scoped.network {p : IpPrefix} (h : Scoped p) : Scoped p.network := by
  obtain ⟨address, scope, prefixlen⟩ := p
  cases address with
  | v4 value => exact ⟨h.slash, h.percent, fun _ _ => h.four value rfl⟩
  | v6 value =>
    unfold IpPrefix.network
    dsimp only
    split
    · exact ⟨h.slash, h.percent, nofun⟩
    · exact ⟨List.not_mem_nil, fun hne => absurd rfl hne, nofun⟩

-- ---------------------------------------------------------------------------
-- Reading a network
-- ---------------------------------------------------------------------------

theorem parseIpAddr_scope {cs : List Char} (h : '%' ∈ cs) :
    parseIpAddr (String.ofList cs) = none := by
  have hsix := Relay.parseIpv6Addr_scope (s := String.ofList cs) (by rwa [String.toList_ofList])
  unfold parseIpAddr
  split
  · rename_i value rest hread
    rw [String.toList_ofList] at hread
    have hrest : '%' ∈ rest := Relay.passes_readIpv4 hread h
    rw [if_neg (by simpa using List.ne_nil_of_mem hrest)]
  · rw [hsix, Option.map_none]

theorem parseIpAddr_v6 {value : Nat} (h : value < 2 ^ 128) :
    parseIpAddr (String.ofList (ipv6Text value)) = some (.v6 value) := by
  have hfour := Relay.readIpv4_none (notMem_ipv6Text (c := '.') (by decide) value)
  rw [parseIpAddr, String.toList_ofList, hfour, Relay.parseIpv6Addr_ipv6Text h]
  rfl

theorem parseCidr_eq {address : List Char} {n : Nat} (hslash : '/' ∉ address) (hn : n < 256) :
    parseCidr (String.ofList (address ++ '/' :: Nat.toDigits 10 n)) =
      match parseIpAddr (String.ofList address) with
      | none => .error "invalid IP address"
      | some ip => (require (n ≤ if ip.version = 4 then 32 else 128)
          "CIDR prefix out of range").map fun _ => (ip, n) := by
  have hclear : ∀ c ∈ address, (c != '/') = true := by
    intro c hc
    rw [bne_iff_ne]
    rintro rfl
    exact hslash hc
  have hbefore : (address ++ '/' :: Nat.toDigits 10 n).takeWhile (· != '/') = address := by
    rw [List.takeWhile_append_of_pos hclear]
    simp
  have hafter : ((address ++ '/' :: Nat.toDigits 10 n).dropWhile (· != '/')).tail =
      Nat.toDigits 10 n := by
    rw [List.dropWhile_append_of_pos hclear]
    simp
  have hslashed : (address ++ '/' :: Nat.toDigits 10 n).contains '/' = true := by simp
  rw [parseCidr, String.toList_ofList, hslashed, hbefore, hafter, parseU8_toDigits n hn]
  cases parseIpAddr (String.ofList address) <;> rfl

theorem parseCidr_text {p : IpPrefix} (hbounded : p.Bounded) (hscoped : Scoped p) :
    parseCidr p.text = if p.scope = [] then .ok (p.address, p.prefixlen)
      else .error "invalid IP address" := by
  obtain ⟨address, scope, prefixlen⟩ := p
  cases address with
  | v4 value =>
    obtain ⟨hvalue, hlength⟩ := hbounded
    dsimp only at hvalue hlength
    obtain rfl : scope = [] := hscoped.four value rfl
    have hread : parseIpAddr (String.ofList (ipv4Text value)) = some (.v4 value) := by
      rw [parseIpAddr, String.toList_ofList, readIpv4_ipv4Text hvalue]
      rfl
    rw [IpPrefix.text, parseCidr_eq (slash_notMem_ipv4Text value)
      (Nat.lt_of_le_of_lt hlength (by decide)), hread, if_pos rfl]
    simp [require, IpAddress.version, hlength, Except.map]
  | v6 value =>
    obtain ⟨hvalue, hlength⟩ := hbounded
    dsimp only at hvalue hlength
    have hslash : '/' ∉ ipv6Text value ++ scope := by
      rw [List.mem_append, not_or]
      exact ⟨notMem_ipv6Text (by decide) value, hscoped.slash⟩
    rw [IpPrefix.text, parseCidr_eq hslash (Nat.lt_of_le_of_lt hlength (by decide))]
    by_cases hscope : scope = []
    · subst hscope
      rw [List.append_nil, parseIpAddr_v6 hvalue, if_pos rfl]
      simp [require, IpAddress.version, hlength, Except.map]
    · rw [parseIpAddr_scope (List.mem_append_right _ (hscoped.percent hscope)), if_neg hscope]

theorem parseCidr_network {s : String} {p : IpPrefix} (h : ipNetwork s = some p) :
    (parseCidr p.text).isOk = true ↔ p.scope = [] := by
  obtain ⟨interface, hinterface, rfl⟩ := Option.map_eq_some_iff.mp h
  rw [parseCidr_text (ipInterface_bounded hinterface).network (ipInterface_scoped hinterface).network]
  split
  · rename_i hscope
    exact ⟨fun _ => hscope, fun _ => rfl⟩
  · rename_i hscope
    exact ⟨nofun, fun hnone => absurd hnone hscope⟩

theorem parseCidr_address {address stored : String} (h : checkAddress address = .ok stored) :
    ∃ value n, parseCidr stored = .ok (.v4 value, n) := by
  unfold checkAddress at h
  split at h
  · cases h
  · rename_i interface hinterface
    split at h
    · rename_i value haddress
      obtain ⟨-, -, h⟩ := bind_eq_ok.mp h
      cases h
      have hscoped := ipInterface_scoped hinterface
      rw [parseCidr_text (ipInterface_bounded hinterface) hscoped, if_pos (hscoped.four value haddress)]
      exact ⟨value, interface.prefixlen, by rw [haddress]⟩
    · cases h

end LabProbe.WireGuard
