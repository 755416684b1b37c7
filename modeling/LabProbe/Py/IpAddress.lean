import LabProbe.Py.Text

/-!
# `ipaddress.ip_address`

The parser of the standard library, returning the address as a number. The
scope of an IPv6 address is checked and left out of the number.
-/

namespace Py

inductive IpAddress where
  | v4 (value : Nat)
  | v6 (value : Nat)
  deriving DecidableEq, Repr

def IpAddress.version : IpAddress → Nat
  | .v4 _ => 4
  | .v6 _ => 6

-- ---------------------------------------------------------------------------
-- IPv4
-- ---------------------------------------------------------------------------

def decimalValue (cs : List Char) : Nat := cs.foldl (fun n c => n * 10 + (c.toNat - 48)) 0

/-- One octet: one to three ASCII digits, no leading zero, at most 255. -/
def parseOctet (cs : List Char) : Option Nat :=
  if cs.isEmpty || !cs.all Char.isDigit || 3 < cs.length then none
  else if cs ≠ ['0'] && cs.head? = some '0' then none
  else if 255 < decimalValue cs then none
  else some (decimalValue cs)

def parseIpv4 (cs : List Char) : Option Nat :=
  match splitOn '.' cs with
  | [a, b, c, d] => do
    let a ← parseOctet a
    let b ← parseOctet b
    let c ← parseOctet c
    let d ← parseOctet d
    some (((a * 256 + b) * 256 + c) * 256 + d)
  | _ => none

-- ---------------------------------------------------------------------------
-- IPv6
-- ---------------------------------------------------------------------------

def hexDigit? (c : Char) : Option Nat :=
  if c.isDigit then some (c.toNat - 48)
  else if 97 ≤ c.toNat && c.toNat ≤ 102 then some (c.toNat - 87)
  else if 65 ≤ c.toNat && c.toNat ≤ 70 then some (c.toNat - 55)
  else none

def hexValue (acc : Nat) : List Char → Option Nat
  | [] => some acc
  | c :: cs => do hexValue (acc * 16 + (← hexDigit? c)) cs

def parseHextet (cs : List Char) : Option Nat :=
  if cs.isEmpty || 4 < cs.length then none else hexValue 0 cs

def hexDigitChar (n : Nat) : Char := Char.ofNat (if n < 10 then 48 + n else 87 + n)

/-- `'%x' % n` for a number of at most 16 bits. -/
def hexText (n : Nat) : List Char :=
  let digits := [n / 4096 % 16, n / 256 % 16, n / 16 % 16].dropWhile (· == 0)
  (digits ++ [n % 16]).map hexDigitChar

def expandIpv4Tail (parts : List (List Char)) : Option (List (List Char)) :=
  match parts.getLast? with
  | some tail =>
    if tail.contains '.' then do
      let value ← parseIpv4 tail
      some (parts.dropLast ++ [hexText (value / 65536), hexText (value % 65536)])
    else some parts
  | none => some parts

def emptyInner (parts : List (List Char)) : List Nat :=
  (List.range parts.length).filter fun i =>
    0 < i && i + 1 < parts.length && (parts.getD i []).isEmpty

def hextets (acc : Nat) : List (List Char) → Option Nat
  | [] => some acc
  | part :: parts => do hextets (acc * 65536 + (← parseHextet part)) parts

/-- The number of hextets before or after `::`, an empty end counting as
part of it; `none` where a single colon leads or trails. -/
def sideCount (count : Nat) (outer : List Char) : Option Nat :=
  if outer.isEmpty then if count = 1 then some 0 else none else some count

def parseIpv6Int (cs : List Char) : Option Nat := do
  let parts ← expandIpv4Tail (splitOn ':' cs)
  -- the two-colon minimum is read before the tail is expanded
  if (splitOn ':' cs).length < 3 || 9 < parts.length then none else
  match emptyInner parts with
  | [] =>
    if parts.length ≠ 8 || (parts.headD []).isEmpty || (parts.getLastD []).isEmpty then none
    else hextets 0 parts
  | [skip] => do
    let hi ← sideCount skip (parts.headD [])
    let lo ← sideCount (parts.length - skip - 1) (parts.getLastD [])
    if 8 ≤ hi + lo then none else
    let high ← hextets 0 (parts.take hi)
    hextets (high * 65536 ^ (8 - (hi + lo))) (parts.drop (parts.length - lo))
  | _ => none

def splitScope (cs : List Char) : Option (List Char) :=
  match splitOn '%' cs with
  | [address] => some address
  | [address, scope] => if scope.isEmpty then none else some address
  | _ => none

def parseIpv6 (cs : List Char) : Option Nat := do parseIpv6Int (← splitScope cs)

def ipAddress (s : String) : Option IpAddress :=
  let cs := s.toList
  if cs.contains '/' then none
  else match parseIpv4 cs with
    | some value => some (.v4 value)
    | none => (parseIpv6 cs).map .v6

-- ---------------------------------------------------------------------------
-- Characters
-- ---------------------------------------------------------------------------

def isAddressChar (c : Char) : Bool := (hexDigit? c).isSome || c == ':' || c == '.'

theorem hexDigit?_of_isDigit {c : Char} (h : c.isDigit = true) : (hexDigit? c).isSome = true := by
  rw [hexDigit?, if_pos h, Option.isSome_some]

theorem parseInt_decimalValue {cs : List Char} {n : Int} (hcs : ∀ c ∈ cs, c.isDigit = true)
    (h : parseInt (String.ofList cs) = some n) : n = decimalValue cs := by
  have hlength : cs.length ≤ maxDigits := by
    by_contra hlong
    rw [parseInt, String.toList_ofList, digitCount_digits hcs, if_pos (Nat.lt_of_not_le hlong)] at h
    cases h
  have hne : cs ≠ [] := by
    rintro rfl
    have hnone : parseInt (String.ofList []) = none := by decide
    rw [hnone] at h
    cases h
  have hvalue : decimalValue cs = Nat.ofDigitChars 10 cs 0 := by
    rw [decimalValue, Nat.ofDigitChars_eq_foldl]
    simp only [Nat.mul_comm]
    rfl
  rw [parseInt_digits hcs hne hlength] at h
  rw [hvalue]
  exact (Option.some.inj h).symm

theorem isDigit_of_parseOctet {cs : List Char} {value : Nat} (h : parseOctet cs = some value) :
    ∀ c ∈ cs, c.isDigit = true := by
  simp only [parseOctet, Option.ite_none_left_eq_some, Bool.or_eq_true, Bool.not_eq_true', not_or,
    Bool.not_eq_false, List.all_eq_true] at h
  exact h.1.1.2

theorem mem_of_parseIpv4 {cs : List Char} {value : Nat} (h : parseIpv4 cs = some value) :
    ∀ c ∈ cs, c.isDigit = true ∨ c = '.' := by
  intro c hc
  unfold parseIpv4 at h
  split at h
  · rename_i p q r s hsplit
    simp only [Option.bind_eq_bind, Option.bind_eq_some_iff] at h
    obtain ⟨a, ha, b, hb, d, hd, e, he, -⟩ := h
    rcases mem_splitOn '.' hc with rfl | ⟨word, hword, hmem⟩
    · exact .inr rfl
    · rw [hsplit] at hword
      simp only [List.mem_cons, List.not_mem_nil, or_false] at hword
      refine .inl ?_
      rcases hword with rfl | rfl | rfl | rfl
      · exact isDigit_of_parseOctet ha c hmem
      · exact isDigit_of_parseOctet hb c hmem
      · exact isDigit_of_parseOctet hd c hmem
      · exact isDigit_of_parseOctet he c hmem
  · cases h

theorem isAddressChar_of_parseIpv4 {cs : List Char} {value : Nat} (h : parseIpv4 cs = some value) :
    cs.all isAddressChar = true := by
  rw [List.all_eq_true]
  intro c hc
  rcases mem_of_parseIpv4 h c hc with hdigit | rfl
  · rw [isAddressChar, hexDigit?_of_isDigit hdigit, Bool.true_or, Bool.true_or]
  · decide

theorem hexDigits_of_hexValue {cs : List Char} {acc value : Nat} (h : hexValue acc cs = some value) :
    ∀ c ∈ cs, (hexDigit? c).isSome = true := by
  induction cs generalizing acc with
  | nil => simp
  | cons c cs ih =>
    obtain ⟨d, hd, h⟩ := Option.bind_eq_some_iff.mp h
    exact List.forall_mem_cons.mpr ⟨Option.isSome_of_eq_some hd, ih h⟩

theorem isAddressChar_of_parseHextet {cs : List Char} {value : Nat}
    (h : parseHextet cs = some value) : cs.all isAddressChar = true := by
  rw [parseHextet, Option.ite_none_left_eq_some] at h
  rw [List.all_eq_true]
  intro c hc
  rw [isAddressChar, hexDigits_of_hexValue h.2 c hc, Bool.true_or, Bool.true_or]

theorem isAddressChar_of_hextets {parts : List (List Char)} {acc value : Nat}
    (h : hextets acc parts = some value) : ∀ part ∈ parts, part.all isAddressChar = true := by
  induction parts generalizing acc with
  | nil => simp
  | cons part parts ih =>
    obtain ⟨n, hn, h⟩ := Option.bind_eq_some_iff.mp h
    exact List.forall_mem_cons.mpr ⟨isAddressChar_of_parseHextet hn, ih h⟩

theorem isAddressChar_of_expand {raw parts : List (List Char)} (h : expandIpv4Tail raw = some parts)
    (hparts : ∀ part ∈ parts, part.all isAddressChar = true) :
    ∀ part ∈ raw, part.all isAddressChar = true := by
  unfold expandIpv4Tail at h
  split at h
  · rename_i tail htail
    split at h
    · obtain ⟨value, hvalue, h⟩ := Option.bind_eq_some_iff.mp h
      cases h
      have hraw := List.dropLast_append_getLast? tail htail
      intro part hpart
      rw [← hraw, List.mem_append, List.mem_singleton] at hpart
      rcases hpart with hpart | rfl
      · exact hparts part (List.mem_append_left _ hpart)
      · exact isAddressChar_of_parseIpv4 hvalue
    · cases h
      exact hparts
  · cases h
    exact hparts

theorem sideCount_eq_some {count side : Nat} {outer : List Char}
    (h : sideCount count outer = some side) : side = count ∨ (count = 1 ∧ outer = []) := by
  unfold sideCount at h
  split at h
  · rename_i hempty
    split at h
    · exact .inr ⟨‹_›, by simpa using hempty⟩
    · cases h
  · cases h
    exact .inl rfl

theorem mem_of_splitScope {cs address : List Char} {c : Char} (h : splitScope cs = some address)
    (hc : c ∈ address) : c ∈ cs := by
  unfold splitScope at h
  split at h
  · rename_i hsplit
    cases h
    exact mem_of_mem_splitOn (hsplit ▸ List.mem_cons_self) hc
  · rename_i hsplit
    split at h
    · cases h
    · cases h
      exact mem_of_mem_splitOn (hsplit ▸ List.mem_cons_self) hc
  · cases h

/-- Of an address with `::`, a part is before it, after it, or empty. -/
theorem part_of_emptyInner {parts : List (List Char)} {skip hi lo i : Nat}
    (hskip : skip ∈ emptyInner parts) (hhi : sideCount skip (parts.headD []) = some hi)
    (hlo : sideCount (parts.length - skip - 1) (parts.getLastD []) = some lo)
    (hlt : i < parts.length) : i < hi ∨ parts.length - lo ≤ i ∨ parts[i] = [] := by
  simp only [emptyInner, List.mem_filter, List.mem_range, Bool.and_eq_true, decide_eq_true_eq,
    List.isEmpty_iff] at hskip
  obtain ⟨-, ⟨hpos, hend⟩, hempty⟩ := hskip
  rcases Nat.lt_trichotomy i skip with hbefore | rfl | hafter
  · rcases sideCount_eq_some hhi with rfl | ⟨hone, houter⟩
    · exact .inl hbefore
    · obtain rfl : i = 0 := by omega
      rw [List.headD_eq_head?_getD, List.head?_eq_getElem?, List.getElem?_eq_getElem hlt] at houter
      exact .inr (.inr houter)
  · rw [List.getD_eq_getElem?_getD, List.getElem?_eq_getElem hlt] at hempty
    exact .inr (.inr hempty)
  · rcases sideCount_eq_some hlo with rfl | ⟨hone, houter⟩
    · exact .inr (.inl (by omega))
    · obtain rfl : i = parts.length - 1 := by omega
      rw [List.getLastD_eq_getLast?, List.getLast?_eq_getElem?,
        List.getElem?_eq_getElem hlt] at houter
      exact .inr (.inr houter)

theorem isAddressChar_of_parseIpv6Int {cs : List Char} {value : Nat}
    (h : parseIpv6Int cs = some value) : ':' ∈ cs ∧ cs.all isAddressChar = true := by
  simp only [parseIpv6Int, Option.bind_eq_bind, Option.bind_eq_some_iff,
    Option.ite_none_left_eq_some, Bool.or_eq_true, decide_eq_true_eq, not_or, Nat.not_lt] at h
  obtain ⟨parts, hexpand, ⟨hcolons, -⟩, h⟩ := h
  have hcolon : ':' ∈ cs := by
    by_contra hno
    rw [splitOn_of_notMem hno] at hcolons
    simp at hcolons
  refine ⟨hcolon, ?_⟩
  have hparts : ∀ part ∈ parts, part.all isAddressChar = true := by
    split at h
    · rw [Option.ite_none_left_eq_some] at h
      exact isAddressChar_of_hextets h.2
    · rename_i skip hskip
      simp only [Option.bind_eq_some_iff, Option.ite_none_left_eq_some] at h
      obtain ⟨hi, hhi, lo, hlo, -, high, hhigh, h⟩ := h
      intro part hpart
      obtain ⟨i, hlt, rfl⟩ := List.mem_iff_getElem.mp hpart
      have hinner : skip ∈ emptyInner parts := by simp [hskip]
      rcases part_of_emptyInner hinner hhi hlo hlt with hfirst | hlast | hnone
      · refine isAddressChar_of_hextets hhigh _ ?_
        exact List.mem_iff_getElem.mpr ⟨i, by simp; omega, by simp⟩
      · refine isAddressChar_of_hextets h _ ?_
        refine List.mem_iff_getElem.mpr ⟨i - (parts.length - lo), by simp; omega, ?_⟩
        simp only [List.getElem_drop]
        congr 1
        omega
      · rw [hnone, List.all_nil]
    · cases h
  rw [List.all_eq_true]
  intro c hc
  rcases mem_splitOn ':' hc with rfl | ⟨part, hpart, hmem⟩
  · decide
  · exact List.all_eq_true.mp (isAddressChar_of_expand hexpand hparts part hpart) c hmem

-- ---------------------------------------------------------------------------
-- Bounds
-- ---------------------------------------------------------------------------

theorem hexDigit?_lt {c : Char} {d : Nat} (h : hexDigit? c = some d) : d < 16 := by
  unfold hexDigit? at h
  split at h
  · rename_i hc
    have hrange : 48 ≤ c.toNat ∧ c.toNat ≤ 57 := Char.isDigit_iff_toNat.mp hc
    cases h
    omega
  · split at h
    · rename_i hc
      simp only [Bool.and_eq_true, decide_eq_true_eq] at hc
      cases h
      omega
    · split at h
      · rename_i hc
        simp only [Bool.and_eq_true, decide_eq_true_eq] at hc
        cases h
        omega
      · cases h

theorem hexValue_lt {cs : List Char} {acc k value : Nat} (hacc : acc < 16 ^ k)
    (h : hexValue acc cs = some value) : value < 16 ^ (k + cs.length) := by
  induction cs generalizing acc k with
  | nil =>
    cases h
    exact hacc
  | cons c cs ih =>
    obtain ⟨d, hd, h⟩ := Option.bind_eq_some_iff.mp h
    have hnext : acc * 16 + d < 16 ^ (k + 1) := by
      have := hexDigit?_lt hd
      rw [Nat.pow_succ]
      omega
    have hvalue := ih hnext h
    rwa [Nat.add_assoc, Nat.add_comm 1] at hvalue

theorem parseHextet_lt {cs : List Char} {value : Nat} (h : parseHextet cs = some value) :
    value < 65536 := by
  simp only [parseHextet, Option.ite_none_left_eq_some, Bool.or_eq_true, decide_eq_true_eq,
    not_or] at h
  obtain ⟨⟨-, hlen⟩, h⟩ := h
  have hvalue : value < 16 ^ (0 + cs.length) := hexValue_lt (by decide) h
  have hpow : 16 ^ (0 + cs.length) ≤ 16 ^ 4 := Nat.pow_le_pow_right (by decide) (by omega)
  omega

theorem hextets_lt {parts : List (List Char)} {acc k value : Nat} (hacc : acc < 65536 ^ k)
    (h : hextets acc parts = some value) : value < 65536 ^ (k + parts.length) := by
  induction parts generalizing acc k with
  | nil =>
    cases h
    exact hacc
  | cons part parts ih =>
    obtain ⟨n, hn, h⟩ := Option.bind_eq_some_iff.mp h
    have hnext : acc * 65536 + n < 65536 ^ (k + 1) := by
      have := parseHextet_lt hn
      rw [Nat.pow_succ]
      omega
    have hvalue := ih hnext h
    rwa [Nat.add_assoc, Nat.add_comm 1] at hvalue

theorem parseIpv6Int_lt {cs : List Char} {value : Nat} (h : parseIpv6Int cs = some value) :
    value < 2 ^ 128 := by
  have hwidth : (65536 : Nat) ^ 8 = 2 ^ 128 := by decide
  simp only [parseIpv6Int, Option.bind_eq_bind, Option.bind_eq_some_iff,
    Option.ite_none_left_eq_some] at h
  obtain ⟨parts, -, -, h⟩ := h
  split at h
  · simp only [Option.ite_none_left_eq_some, Bool.or_eq_true, decide_eq_true_eq, not_or,
      Decidable.not_not] at h
    obtain ⟨⟨⟨hlen, -⟩, -⟩, h⟩ := h
    have hvalue : value < 65536 ^ (0 + parts.length) := hextets_lt (by decide) h
    rwa [hlen, Nat.zero_add, hwidth] at hvalue
  · simp only [Option.bind_eq_some_iff, Option.ite_none_left_eq_some] at h
    obtain ⟨hi, -, lo, -, hroom, high, hhigh, h⟩ := h
    have hfirst : high < 65536 ^ (0 + (parts.take hi).length) := hextets_lt (by decide) hhigh
    have hfront : high * 65536 ^ (8 - (hi + lo)) < 65536 ^ (hi + (8 - (hi + lo))) := by
      rw [Nat.pow_add]
      refine Nat.mul_lt_mul_of_pos_right (Nat.lt_of_lt_of_le hfirst ?_) (Nat.pow_pos (by decide))
      refine Nat.pow_le_pow_right (by decide) ?_
      rw [Nat.zero_add]
      exact List.length_take_le hi parts
    have hvalue := hextets_lt hfront h
    rw [← hwidth]
    refine Nat.lt_of_lt_of_le hvalue (Nat.pow_le_pow_right (by decide) ?_)
    rw [List.length_drop]
    omega
  · cases h

theorem ipAddress_v6_lt {s : String} {value : Nat} (h : ipAddress s = some (.v6 value)) :
    value < 2 ^ 128 := by
  simp only [ipAddress] at h
  split at h
  · cases h
  · split at h
    · cases h
    · obtain ⟨v, hv, heq⟩ := Option.map_eq_some_iff.mp h
      cases heq
      obtain ⟨address, -, hparse⟩ := Option.bind_eq_some_iff.mp hv
      exact parseIpv6Int_lt hparse

example : ipAddress "192.168.1.20" = some (.v4 3232235796) ∧ ipAddress "01.2.3.4" = none := by
  decide

example : ipAddress "2001:db8::1" = some (.v6 0x20010db8000000000000000000000001) ∧
    ipAddress "::ffff:1.2.3.4" = some (.v6 0xffff01020304) ∧ ipAddress "1:2:3:4:5:6:7::" =
      some (.v6 0x00010002000300040005000600070000) ∧ ipAddress ":1:2:3:4:5:6:7" = none ∧
    ipAddress "fe80::1%eth0" = some (.v6 0xfe800000000000000000000000000001) := by
  decide

end Py
