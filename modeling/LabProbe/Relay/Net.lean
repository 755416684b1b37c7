import LabProbe.Py.IpText

/-!
# Texts and addresses on the agent

The string operations and the address parsers of the Rust standard library
that the agent uses. `Ipv6Addr::from_str` reads groups from the left, then a
double colon, then groups again, and must have read the whole text. It reads
every text the Hub writes for an address without a scope, as that address.
-/

namespace LabProbe.Relay

open Py

-- ---------------------------------------------------------------------------
-- Texts
-- ---------------------------------------------------------------------------

/-- `char::is_whitespace`. -/
def isWhitespace (c : Char) : Bool := isSpace c && !(28 ≤ c.toNat && c.toNat ≤ 31)

/-- `str::trim_matches`. -/
def trimMatches (p : Char → Bool) (s : String) : String :=
  String.ofList (List.rdropWhile p (s.toList.dropWhile p))

/-- `str::trim`. -/
def trim (s : String) : String := trimMatches isWhitespace s

/-- `str::trim_start_matches`. -/
def trimStartMatches (c : Char) (s : String) : String := String.ofList (s.toList.dropWhile (· == c))

/-- `str::trim_end_matches`. -/
def trimEndMatches (c : Char) (s : String) : String :=
  String.ofList (List.rdropWhile (· == c) s.toList)

def toAsciiLowercase (s : String) : String := asciiLower s

def toAsciiUppercase (s : String) : String := asciiUpper s

-- ---------------------------------------------------------------------------
-- IPv4
-- ---------------------------------------------------------------------------

/-- `read_number(10, Some(3), false)` of an octet. -/
def readOctet (cs : List Char) : Option (Nat × List Char) :=
  let digits := cs.takeWhile Char.isDigit
  if digits.isEmpty || 3 < digits.length || (digits.head? = some '0' && 1 < digits.length) ||
      255 < decimalValue digits then none
  else some (decimalValue digits, cs.dropWhile Char.isDigit)

def readChar (c : Char) : List Char → Option (List Char)
  | [] => none
  | c' :: cs => if c' = c then some cs else none

/-- `read_ipv4_addr`. -/
def readIpv4 (cs : List Char) : Option (Nat × List Char) := do
  let (a, cs) ← readOctet cs
  let cs ← readChar '.' cs
  let (b, cs) ← readOctet cs
  let cs ← readChar '.' cs
  let (c, cs) ← readOctet cs
  let cs ← readChar '.' cs
  let (d, cs) ← readOctet cs
  some (ipv4 a b c d, cs)

/-- `Ipv4Addr::from_str`. -/
def parseIpv4Addr (s : String) : Option Nat :=
  if 15 < s.utf8ByteSize then none
  else match readIpv4 s.toList with
    | some (value, []) => some value
    | _ => none

-- ---------------------------------------------------------------------------
-- IPv6
-- ---------------------------------------------------------------------------

def isHex (c : Char) : Bool := (hexDigit? c).isSome

def hexNumber (cs : List Char) : Nat := cs.foldl (fun n c => n * 16 + (hexDigit? c).getD 0) 0

/-- `read_number(16, Some(4), true)` of a group. -/
def readHextet (cs : List Char) : Option (Nat × List Char) :=
  let digits := cs.takeWhile isHex
  if digits.isEmpty || 4 < digits.length then none
  else some (hexNumber digits, cs.dropWhile isHex)

/-- `read_separator(':', index, …)`: a colon before every group but the first. -/
def readSeparator (index : Nat) (cs : List Char) : Option (List Char) :=
  if index = 0 then some cs else readChar ':' cs

/-- `read_groups` with room for `limit` more groups: the groups, whether they
end with an IPv4 address, and the rest of the text. -/
def readGroups : Nat → Nat → List Char → List Nat × Bool × List Char
  | 0, _, cs => ([], false, cs)
  | limit + 1, index, cs =>
    match if 0 < limit then (readSeparator index cs).bind readIpv4 else none with
    | some (value, rest) => ([value / 65536, value % 65536], true, rest)
    | none =>
      match (readSeparator index cs).bind readHextet with
      | some (group, rest) =>
        (group :: (readGroups limit (index + 1) rest).1, (readGroups limit (index + 1) rest).2)
      | none => ([], false, cs)

def groupsValue (groups : List Nat) : Nat := groups.foldl (fun n g => n * 65536 + g) 0

/-- `read_ipv6_addr`. -/
def readIpv6 (cs : List Char) : Option (Nat × List Char) :=
  let (head, ipv4, rest) := readGroups 8 0 cs
  if head.length = 8 then some (groupsValue head, rest)
  else if ipv4 then none
  else match rest with
    | ':' :: ':' :: rest =>
      let (tail, _, rest) := readGroups (7 - head.length) 0 rest
      some (groupsValue (head ++ List.replicate (8 - head.length - tail.length) 0 ++ tail), rest)
    | _ => none

/-- `Ipv6Addr::from_str`. -/
def parseIpv6Addr (s : String) : Option Nat :=
  match readIpv6 s.toList with
  | some (value, []) => some value
  | _ => none

attribute [local grind =] readGroups

-- ---------------------------------------------------------------------------
-- Groups in hexadecimal
-- ---------------------------------------------------------------------------

theorem hexDigit?_hexDigitChar : ∀ d < 16, hexDigit? (hexDigitChar d) = some d := by decide

/-- The digits of a group, without leading zeros but the last. -/
def hexDigitsOf (n : Nat) : List Nat :=
  [n / 4096 % 16, n / 256 % 16, n / 16 % 16].dropWhile (· == 0) ++ [n % 16]

theorem hexDigitsOf_lt {n d : Nat} (h : d ∈ hexDigitsOf n) : d < 16 := by
  rcases List.mem_append.mp h with h | h
  · have hmem := (List.dropWhile_sublist _).subset h
    simp only [List.mem_cons, List.not_mem_nil, or_false] at hmem
    omega
  · have hlast := List.mem_singleton.mp h
    omega

theorem hexText_eq (n : Nat) : hexText n = (hexDigitsOf n).map hexDigitChar := rfl

theorem isHex_hexText {n : Nat} {c : Char} (h : c ∈ hexText n) : isHex c = true := by
  rw [hexText_eq] at h
  obtain ⟨d, hd, rfl⟩ := List.mem_map.mp h
  rw [isHex, hexDigit?_hexDigitChar d (hexDigitsOf_lt hd)]
  rfl

theorem hexText_ne_nil (n : Nat) : hexText n ≠ [] := by simp [hexText_eq, hexDigitsOf]

theorem length_hexText (n : Nat) : (hexText n).length ≤ 4 := by
  rw [hexText_eq, List.length_map, hexDigitsOf, List.length_append]
  have hlen := (List.dropWhile_sublist (· == 0) (l := [n / 4096 % 16, n / 256 % 16, n / 16 % 16])).length_le
  simp only [List.length_cons, List.length_nil] at hlen ⊢
  omega

theorem hexNumber_map {ds : List Nat} (hds : ∀ d ∈ ds, d < 16) :
    hexNumber (ds.map hexDigitChar) = ds.foldl (fun n d => n * 16 + d) 0 := by
  unfold hexNumber
  rw [List.foldl_map]
  refine List.foldl_ext _ _ _ fun n d hd => ?_
  rw [hexDigit?_hexDigitChar d (hds d hd), Option.getD_some]

theorem foldl_dropWhile_zero (ds : List Nat) (d : Nat) :
    (ds.dropWhile (· == 0) ++ [d]).foldl (fun n d => n * 16 + d) 0 =
      (ds ++ [d]).foldl (fun n d => n * 16 + d) 0 := by
  induction ds with
  | nil => rfl
  | cons e ds ih =>
    by_cases he : e = 0
    · subst he
      simpa using ih
    · rw [List.dropWhile_cons_of_neg (by simpa using he)]

theorem hexNumber_hexText {n : Nat} (hn : n < 65536) : hexNumber (hexText n) = n := by
  rw [hexText_eq, hexNumber_map fun d hd => hexDigitsOf_lt hd, hexDigitsOf, foldl_dropWhile_zero]
  simp only [List.cons_append, List.nil_append, List.foldl_cons, List.foldl_nil]
  omega

theorem hexText_eq_zero {n : Nat} (hn : n < 65536) : hexText n = ['0'] ↔ n = 0 := by
  constructor
  · intro h
    have hvalue := hexNumber_hexText hn
    rw [h] at hvalue
    simpa [hexNumber, hexDigit?] using hvalue.symm
  · rintro rfl
    decide

theorem dot_notMem_hexText (n : Nat) : '.' ∉ hexText n := by
  intro h
  exact absurd (isHex_hexText h) (by decide)

theorem readHextet_hexText {n : Nat} (hn : n < 65536) {rest : List Char}
    (hrest : ∀ c ∈ rest.head?, isHex c = false) :
    readHextet (hexText n ++ rest) = some (n, rest) := by
  have hall : ∀ c ∈ hexText n, isHex c = true := fun c hc => isHex_hexText hc
  have htake : (hexText n ++ rest).takeWhile isHex = hexText n := by
    rw [List.takeWhile_append_of_pos hall]
    cases rest with
    | nil => simp
    | cons c rest => simp [hrest c rfl]
  have hdrop : (hexText n ++ rest).dropWhile isHex = rest := by
    rw [List.dropWhile_append_of_pos hall]
    cases rest with
    | nil => rfl
    | cons c rest => simp [hrest c rfl]
  have hlen := length_hexText n
  simp only [readHextet, htake, hdrop, hexNumber_hexText hn, List.isEmpty_eq_false_iff.mpr
    (hexText_ne_nil n), Bool.false_or, decide_eq_true_eq]
  rw [if_neg (by omega)]

-- ---------------------------------------------------------------------------
-- Groups from a text
-- ---------------------------------------------------------------------------

theorem readIpv4_none {cs : List Char} (h : '.' ∉ cs) : readIpv4 cs = none := by
  rw [Option.eq_none_iff_forall_ne_some]
  intro result hresult
  obtain ⟨⟨a, rest⟩, hoctet, hresult⟩ := Option.bind_eq_some_iff.mp hresult
  obtain ⟨rest', hdot, -⟩ := Option.bind_eq_some_iff.mp hresult
  have hmem : '.' ∈ rest := by
    cases rest with
    | nil => simp [readChar] at hdot
    | cons c rest =>
      simp only [readChar, Option.ite_none_right_eq_some] at hdot
      exact hdot.1 ▸ List.mem_cons_self
  simp only [readOctet, Option.ite_none_left_eq_some, Option.some.injEq, Prod.mk.injEq] at hoctet
  obtain ⟨-, -, rfl⟩ := hoctet
  exact h ((List.dropWhile_sublist _).subset hmem)

/-- What ends a list of groups: the end of the text, or a double colon. -/
def Ends (rest : List Char) : Prop := rest = [] ∨ ∃ tail, rest = ':' :: ':' :: tail

theorem Ends.clear {rest : List Char} (h : Ends rest) : ∀ c ∈ rest.head?, isHex c = false := by
  rcases h with rfl | ⟨tail, rfl⟩
  · simp
  · simp only [List.head?_cons, Option.mem_some_iff, forall_eq']
    decide

theorem readGroups_end {rest : List Char} (h : Ends rest) (hdot : '.' ∉ rest) (limit index : Nat) :
    readGroups limit index rest = ([], false, rest) := by
  cases limit with
  | zero => rfl
  | succ limit =>
    have hnone : ∀ cs, readSeparator index rest = some cs → readHextet cs = none ∧ '.' ∉ cs := by
      intro cs hcs
      unfold readSeparator at hcs
      rcases h with rfl | ⟨tail, rfl⟩
      · split at hcs
        · cases hcs
          exact ⟨rfl, hdot⟩
        · simp [readChar] at hcs
      · split at hcs
        · cases hcs
          exact ⟨by simp [readHextet, isHex, hexDigit?], hdot⟩
        · obtain rfl : ':' :: tail = cs := by simpa [readChar] using hcs
          exact ⟨by simp [readHextet, isHex, hexDigit?], fun hm => hdot (List.mem_cons_of_mem _ hm)⟩
    unfold readGroups
    cases hsep : readSeparator index rest with
    | none => simp
    | some cs =>
      obtain ⟨hhex, hcs⟩ := hnone cs hsep
      simp [hhex, readIpv4_none hcs]

def separated (groups : List Nat) : List Char := groups.flatMap fun g => ':' :: hexText g

theorem dot_notMem_separated (groups : List Nat) : '.' ∉ separated groups := by
  simp [separated, dot_notMem_hexText]

variable {groups : List Nat} {rest : List Char} {limit index : Nat}

theorem separated_clear (h : Ends rest) :
    ∀ c ∈ (separated groups ++ rest).head?, isHex c = false := by
  cases groups with
  | nil => exact h.clear
  | cons g groups =>
    simp only [separated, List.flatMap_cons, List.cons_append, List.head?_cons,
      Option.mem_some_iff, forall_eq']
    decide

theorem readGroups_group {g : Nat} {cs : List Char} (hg : g < 65536)
    (hsep : readSeparator index cs = some (hexText g ++ rest)) (hdot : '.' ∉ rest)
    (hclear : ∀ c ∈ rest.head?, isHex c = false) :
    readGroups (limit + 1) index cs = (g :: (readGroups limit (index + 1) rest).1,
      (readGroups limit (index + 1) rest).2) := by
  have hnot : '.' ∉ hexText g ++ rest := by
    rw [List.mem_append, not_or]
    exact ⟨dot_notMem_hexText g, hdot⟩
  rw [readGroups]
  simp only [hsep, Option.bind_some, readIpv4_none hnot, ite_self, readHextet_hexText hg hclear]

theorem readGroups_separated (hgroups : ∀ g ∈ groups, g < 65536) (hlen : groups.length ≤ limit)
    (hend : Ends rest) (hdot : '.' ∉ rest) :
    readGroups limit (index + 1) (separated groups ++ rest) = (groups, false, rest) := by
  induction groups generalizing limit index with
  | nil => exact readGroups_end hend hdot _ _
  | cons g groups ih =>
    obtain ⟨hg, hgroups⟩ := List.forall_mem_cons.mp hgroups
    obtain ⟨limit, rfl⟩ : ∃ l, limit = l + 1 := ⟨limit - 1, by simp at hlen; omega⟩
    have hsep : readSeparator (index + 1) (separated (g :: groups) ++ rest) =
        some (hexText g ++ (separated groups ++ rest)) := by
      simp [readSeparator, separated, readChar]
    have hnot : '.' ∉ separated groups ++ rest := by
      rw [List.mem_append, not_or]
      exact ⟨dot_notMem_separated groups, hdot⟩
    rw [readGroups_group hg hsep hnot (separated_clear hend), ih hgroups (by simpa using hlen)]

theorem joinWith_groups (g : Nat) (groups : List Nat) :
    joinWith ':' ((g :: groups).map hexText) = hexText g ++ separated groups := by
  rw [List.map_cons, joinWith_cons, List.flatMap_map]
  rfl

theorem readGroups_join (hgroups : ∀ g ∈ groups, g < 65536) (hlen : groups.length ≤ limit)
    (hend : Ends rest) (hdot : '.' ∉ rest) :
    readGroups limit 0 (joinWith ':' (groups.map hexText) ++ rest) = (groups, false, rest) := by
  cases groups with
  | nil => exact readGroups_end hend hdot _ _
  | cons g groups =>
    obtain ⟨hg, hgroups⟩ := List.forall_mem_cons.mp hgroups
    obtain ⟨limit, rfl⟩ : ∃ l, limit = l + 1 := ⟨limit - 1, by simp at hlen; omega⟩
    have hnot : '.' ∉ separated groups ++ rest := by
      rw [List.mem_append, not_or]
      exact ⟨dot_notMem_separated groups, hdot⟩
    rw [joinWith_groups, List.append_assoc,
      readGroups_group hg rfl hnot (separated_clear hend),
      readGroups_separated hgroups (by simpa using hlen) hend hdot]

-- ---------------------------------------------------------------------------
-- The texts the Hub writes
-- ---------------------------------------------------------------------------

theorem hextetsOf_lt {value g : Nat} (h : g ∈ hextetsOf value) : g < 65536 := by
  obtain ⟨n, -, rfl⟩ := List.mem_map.mp h
  exact Nat.mod_lt _ (by decide)

theorem groupsValue_hextetsOf {value : Nat} (h : value < 2 ^ 128) :
    groupsValue (hextetsOf value) = value := by
  have hpow : ∀ k, value / 65536 ^ (k + 1) = value / 65536 ^ k / 65536 := fun k => by
    rw [Nat.pow_succ, Nat.div_div_eq_div_mul]
  simp only [groupsValue, hextetsOf, List.map_cons, List.map_nil, List.foldl_cons, List.foldl_nil,
    hpow, Nat.pow_zero, Nat.div_one]
  omega

theorem hextets_split {groups : List Nat} {head tail : List (List Char)} {k : Nat}
    (hgroups : ∀ g ∈ groups, g < 65536)
    (h : groups.map hexText = head ++ List.replicate k ['0'] ++ tail) :
    ∃ gs hs, gs.map hexText = head ∧ hs.map hexText = tail ∧
      groups = gs ++ List.replicate k 0 ++ hs := by
  obtain ⟨front, hs, rfl, hfront, htail⟩ := List.map_eq_append_iff.mp h
  obtain ⟨gs, zeros, rfl, hhead, hzeros⟩ := List.map_eq_append_iff.mp hfront
  refine ⟨gs, hs, hhead, htail, ?_⟩
  have hrep : zeros = List.replicate k 0 := by
    have hlen : zeros.length = k := by simpa using congrArg List.length hzeros
    refine List.eq_replicate_iff.mpr ⟨hlen, fun g hg => ?_⟩
    have htext : hexText g ∈ List.replicate k ['0'] := hzeros ▸ List.mem_map_of_mem hg
    exact (hexText_eq_zero (hgroups g (by simp [hg]))).mp (List.eq_of_mem_replicate htext)
  rw [hrep]

theorem dot_notMem_join (groups : List Nat) : '.' ∉ joinWith ':' (groups.map hexText) := by
  cases groups with
  | nil => simp [joinWith]
  | cons g groups =>
    rw [joinWith_groups, List.mem_append, not_or]
    exact ⟨dot_notMem_hexText g, dot_notMem_separated groups⟩

theorem readIpv6_ipv6Text {value : Nat} (h : value < 2 ^ 128) :
    readIpv6 (ipv6Text value) = some (value, []) := by
  have hlt : ∀ g ∈ hextetsOf value, g < 65536 := fun g hg => hextetsOf_lt hg
  have hlen : (hextetsOf value).length = 8 := rfl
  unfold ipv6Text
  rcases compressHextets_cases ((hextetsOf value).map hexText) with ⟨-, hfull⟩ |
    ⟨head, k, tail, hk, hsplit, hjoin⟩
  · have hread : readGroups 8 0 (joinWith ':' ((hextetsOf value).map hexText) ++ []) = _ :=
      readGroups_join hlt (Nat.le_of_eq hlen) (.inl rfl) (by simp)
    rw [List.append_nil] at hread
    rw [hfull, readIpv6, hread]
    simp only [hlen, if_true, groupsValue_hextetsOf h]
  · obtain ⟨gs, hs, rfl, rfl, hgroups⟩ := hextets_split hlt hsplit
    have hsum : gs.length + (k + hs.length) = 8 := by simpa [hgroups] using hlen
    have hgs : ∀ g ∈ gs, g < 65536 := fun g hg => hlt g (by simp [hgroups, hg])
    have hhs : ∀ g ∈ hs, g < 65536 := fun g hg => hlt g (by simp [hgroups, hg])
    have hdot : '.' ∉ ':' :: ':' :: joinWith ':' (hs.map hexText) := by
      simp [dot_notMem_join hs]
    have hhead : readGroups 8 0 (joinWith ':' (gs.map hexText) ++ _) = _ :=
      readGroups_join hgs (by omega) (.inr ⟨_, rfl⟩) hdot
    have htail : readGroups (7 - gs.length) 0 (joinWith ':' (hs.map hexText) ++ []) = _ :=
      readGroups_join hhs (by omega) (.inl rfl) (by simp)
    rw [List.append_nil] at htail
    have hzeros : 8 - gs.length - hs.length = k := by omega
    rw [hjoin, readIpv6, hhead]
    simp only [htail, hzeros, ← hgroups, groupsValue_hextetsOf h, Bool.false_eq_true, if_false]
    rw [if_neg (by omega)]

theorem parseIpv6Addr_ipv6Text {value : Nat} (h : value < 2 ^ 128) :
    parseIpv6Addr (String.ofList (ipv6Text value)) = some value := by
  rw [parseIpv6Addr, String.toList_ofList, readIpv6_ipv6Text h]

end LabProbe.Relay
