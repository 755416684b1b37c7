import LabProbe.Py.IpAddress

/-!
# Classes and texts of an address

The tests and `str` of the standard library's addresses. Newer releases read
the class of an IPv4-mapped address off the IPv4 address; here it is read off
the IPv6 address itself, which lets more addresses pass.
-/

namespace Py

-- ---------------------------------------------------------------------------
-- Classes
-- ---------------------------------------------------------------------------

def ipv4 (a b c d : Nat) : Nat := ((a * 256 + b) * 256 + c) * 256 + d

/-- Whether a number of `width` bits starts like `base`, for `size` bits. -/
def inNetwork (width base size value : Nat) : Bool :=
  value / 2 ^ (width - size) == base / 2 ^ (width - size)

def privateNetworks : List (Nat × Nat) :=
  [(ipv4 0 0 0 0, 8), (ipv4 10 0 0 0, 8), (ipv4 127 0 0 0, 8), (ipv4 169 254 0 0, 16),
   (ipv4 172 16 0 0, 12), (ipv4 192 0 0 0, 24), (ipv4 192 0 0 170, 31), (ipv4 192 0 2 0, 24),
   (ipv4 192 168 0 0, 16), (ipv4 198 18 0 0, 15), (ipv4 198 51 100 0, 24),
   (ipv4 203 0 113 0, 24), (ipv4 240 0 0 0, 4), (ipv4 255 255 255 255, 32)]

def privateExceptions : List (Nat × Nat) := [(ipv4 192 0 0 9, 32), (ipv4 192 0 0 10, 32)]

/-- `IPv4Address.is_private`. -/
def isPrivate4 (value : Nat) : Bool :=
  privateNetworks.any (fun n => inNetwork 32 n.1 n.2 value) &&
    !privateExceptions.any fun n => inNetwork 32 n.1 n.2 value

def IpAddress.isLoopback : IpAddress → Bool
  | .v4 value => inNetwork 32 (ipv4 127 0 0 0) 8 value
  | .v6 value => value == 1

def IpAddress.isLinkLocal : IpAddress → Bool
  | .v4 value => inNetwork 32 (ipv4 169 254 0 0) 16 value
  | .v6 value => inNetwork 128 (0xfe80 * 65536 ^ 7) 10 value

def IpAddress.isMulticast : IpAddress → Bool
  | .v4 value => inNetwork 32 (ipv4 224 0 0 0) 4 value
  | .v6 value => inNetwork 128 (0xff00 * 65536 ^ 7) 8 value

def IpAddress.isUnspecified : IpAddress → Bool
  | .v4 value | .v6 value => value == 0

def privateNetworks6 : List (Nat × Nat) :=
  [(1, 128), (0, 128), (0xffff * 65536 ^ 2, 96), (0x64ff9b0001 * 65536 ^ 5, 48),
   (0x100 * 65536 ^ 7, 64), (0x2001 * 65536 ^ 7, 23), (0x20010db8 * 65536 ^ 6, 32),
   (0x2002 * 65536 ^ 7, 16), (0x3fff * 65536 ^ 7, 20), (0xfc00 * 65536 ^ 7, 7),
   (0xfe80 * 65536 ^ 7, 10)]

def privateExceptions6 : List (Nat × Nat) :=
  [(0x20010001 * 65536 ^ 6 + 1, 128), (0x20010001 * 65536 ^ 6 + 2, 128),
   (0x20010003 * 65536 ^ 6, 32), (0x200100040112 * 65536 ^ 5, 48),
   (0x20010020 * 65536 ^ 6, 28), (0x20010030 * 65536 ^ 6, 28)]

def isPrivate6 (value : Nat) : Bool :=
  privateNetworks6.any (fun n => inNetwork 128 n.1 n.2 value) &&
    !privateExceptions6.any fun n => inNetwork 128 n.1 n.2 value

-- ---------------------------------------------------------------------------
-- Texts
-- ---------------------------------------------------------------------------

def ipv4Text (value : Nat) : List Char :=
  joinWith '.' ([value / 16777216, value / 65536, value / 256, value].map fun n =>
    Nat.toDigits 10 (n % 256))

def hextetsOf (value : Nat) : List Nat :=
  [value / 65536 ^ 7, value / 65536 ^ 6, value / 65536 ^ 5, value / 65536 ^ 4, value / 65536 ^ 3,
   value / 65536 ^ 2, value / 65536, value].map (· % 65536)

/-- The loop of `_compress_hextets`: the start and the length of the first
longest run of zeros, with the run the loop is in. -/
def longestZeros (index start length bestStart bestLength : Nat) :
    List (List Char) → Nat × Nat
  | [] => (bestStart, bestLength)
  | hextet :: rest =>
    if hextet = ['0'] then
      let start := if length = 0 then index else start
      if bestLength < length + 1 then
        longestZeros (index + 1) start (length + 1) start (length + 1) rest
      else longestZeros (index + 1) start (length + 1) bestStart bestLength rest
    else longestZeros (index + 1) 0 0 bestStart bestLength rest

def compressHextets (hextets : List (List Char)) : List (List Char) :=
  let (start, length) := longestZeros 0 0 0 0 0 hextets
  if length ≤ 1 then hextets
  else
    let atEnd := if start + length = hextets.length then [[]] else []
    let parts := hextets.take start ++ [] :: (hextets.drop (start + length) ++ atEnd)
    if start = 0 then [] :: parts else parts

def ipv6Text (value : Nat) : List Char :=
  joinWith ':' (compressHextets ((hextetsOf value).map hexText))

/-- `ip_address(s).scope_id` with its separator, empty without a scope. -/
def scopeText (s : String) : List Char :=
  match ipAddress s with
  | some (.v6 _) => s.toList.dropWhile (· != '%')
  | _ => []

/-- `str(ip_address(s))`, for the address read off `s`. -/
def ipText (s : String) : IpAddress → String
  | .v4 value => String.ofList (ipv4Text value)
  | .v6 value => String.ofList (ipv6Text value ++ scopeText s)

-- ---------------------------------------------------------------------------
-- What is compressed
-- ---------------------------------------------------------------------------

attribute [local grind =] longestZeros

variable {hextets rest : List (List Char)} {index start length bestStart bestLength : Nat}

theorem longestZeros_zero (hrest : hextets.drop index = rest)
    (hrun : length ≤ index ∧ ∀ i, index - length ≤ i → i < index → hextets[i]? = some ['0'])
    (hstart : length ≠ 0 → start = index - length)
    (hbest : ∀ i, bestStart ≤ i → i < bestStart + bestLength → hextets[i]? = some ['0']) :
    ∀ i, (longestZeros index start length bestStart bestLength rest).1 ≤ i →
      i < (longestZeros index start length bestStart bestLength rest).1 +
        (longestZeros index start length bestStart bestLength rest).2 →
      hextets[i]? = some ['0'] := by
  induction rest generalizing index start length bestStart bestLength with
  | nil => exact hbest
  | cons hextet rest ih =>
    obtain ⟨hle, hrun⟩ := hrun
    have hget : hextets[index]? = some hextet := by
      rw [← List.head?_drop, hrest, List.head?_cons]
    have htail : hextets.drop (index + 1) = rest := by
      rw [← List.drop_drop, hrest, List.drop_one, List.tail_cons]
    unfold longestZeros
    split
    · rename_i hzero
      have hnow : length + 1 ≤ index + 1 ∧ ∀ i, index + 1 - (length + 1) ≤ i → i < index + 1 →
          hextets[i]? = some ['0'] := by
        refine ⟨by omega, fun i hlow hhigh => ?_⟩
        rcases Nat.lt_succ_iff_lt_or_eq.mp hhigh with hlt | rfl
        · exact hrun i (by omega) hlt
        · rw [hget, hzero]
      have hfirst : (if length = 0 then index else start) = index + 1 - (length + 1) := by
        split
        · omega
        · rename_i hne
          rw [hstart hne]
          omega
      simp only
      split
      · refine ih htail hnow (fun _ => hfirst) fun i hlow hhigh => hnow.2 i ?_ ?_ <;> omega
      · exact ih htail hnow (fun _ => hfirst) hbest
    · exact ih htail ⟨Nat.zero_le _, fun i hlow hhigh => by omega⟩ (fun h => absurd rfl h) hbest

theorem le_longestZeros : bestLength ≤
    (longestZeros index start length bestStart bestLength rest).2 := by
  induction rest generalizing index start length bestStart bestLength with
  | nil => exact Nat.le_refl _
  | cons hextet rest ih =>
    unfold longestZeros
    simp only
    split
    · split
      · exact Nat.le_trans (by omega) ih
      · exact ih
    · exact ih

theorem length_le_longestZeros (k : Nat) (h : length ≤ bestLength) :
    length + k ≤ (longestZeros index start length bestStart bestLength
      (List.replicate k ['0'] ++ rest)).2 := by
  induction k generalizing index start length bestStart bestLength with
  | zero => exact Nat.le_trans h le_longestZeros
  | succ k ih =>
    rw [List.replicate_succ, List.cons_append]
    unfold longestZeros
    simp only [if_true]
    rw [Nat.add_comm k, ← Nat.add_assoc]
    split
    · exact ih (Nat.le_refl _)
    · exact ih (by omega)

theorem compressHextets_cases (hextets : List (List Char)) :
    ((longestZeros 0 0 0 0 0 hextets).2 ≤ 1 ∧ compressHextets hextets = hextets) ∨
      ∃ head k tail, 2 ≤ k ∧ hextets = head ++ List.replicate k ['0'] ++ tail ∧
      joinWith ':' (compressHextets hextets) = joinWith ':' head ++ ':' :: ':' :: joinWith ':' tail := by
  have hzero : ∀ i, (longestZeros 0 0 0 0 0 hextets).1 ≤ i →
      i < (longestZeros 0 0 0 0 0 hextets).1 + (longestZeros 0 0 0 0 0 hextets).2 →
      hextets[i]? = some ['0'] :=
    longestZeros_zero List.drop_zero ⟨Nat.le_refl _, fun i _ hi => by omega⟩
      (fun h => absurd rfl h) (fun i _ hi => by omega)
  unfold compressHextets
  generalize longestZeros 0 0 0 0 0 hextets = run at hzero
  obtain ⟨start, k⟩ := run
  dsimp only at hzero ⊢
  split
  · rename_i hk
    exact .inl ⟨hk, rfl⟩
  · rename_i hk
    right
    have hbound : start + k ≤ hextets.length := by
      have hlast := hzero (start + k - 1) (by omega) (by omega)
      have := (List.getElem?_eq_some_iff.mp hlast).1
      omega
    have hslice : (hextets.drop start).take k = List.replicate k ['0'] := by
      refine List.ext_getElem? fun i => ?_
      rw [List.getElem?_take, List.getElem?_drop, List.getElem?_replicate]
      split
      · exact hzero (start + i) (by omega) (by omega)
      · rfl
    refine ⟨hextets.take start, k, hextets.drop (start + k), by omega, ?_, ?_⟩
    · rw [← hslice, List.append_assoc, ← List.drop_drop, List.take_append_drop,
        List.take_append_drop]
    · -- an empty part stands for the run, and one more for an end it reaches
      have hend : ∃ parts, parts ≠ [] ∧ joinWith ':' parts = joinWith ':' (hextets.drop (start + k)) ∧
          hextets.drop (start + k) ++ (if start + k = hextets.length then [[]] else []) = parts := by
        split
        · rename_i hfull
          exact ⟨[[]], by simp, by simp [hfull, joinWith], by simp [hfull]⟩
        · have hne : hextets.drop (start + k) ≠ [] := by
            rw [Ne, List.drop_eq_nil_iff]
            omega
          exact ⟨_, hne, rfl, by simp⟩
      obtain ⟨parts, hne, hjoin, hparts⟩ := hend
      have hempty : joinWith ':' ([] :: parts) = ':' :: joinWith ':' parts := by
        rw [← List.singleton_append, joinWith_append (by simp) hne]
        simp [joinWith]
      rw [hparts, ← hjoin]
      split
      · rename_i hstart
        subst hstart
        rw [List.take_zero, List.nil_append, ← List.singleton_append,
          joinWith_append (by simp) (by simp), hempty]
        simp [joinWith]
      · have hhead : hextets.take start ≠ [] := by
          rw [Ne, List.take_eq_nil_iff, not_or]
          refine ⟨by omega, fun hnil => ?_⟩
          simp [hnil] at hbound
          omega
        rw [joinWith_append hhead (by simp), hempty]

example : [1, 0xfe80 * 65536 ^ 7, 0x20010db8 * 65536 ^ 6 + 0x10000, 0, 65536 ^ 7].map
    (fun n => String.ofList (ipv6Text n)) = ["::1", "fe80::", "2001:db8::1:0", "::", "1::"] := by
  decide +kernel

end Py
