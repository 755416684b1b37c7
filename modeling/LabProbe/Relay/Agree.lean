import LabProbe.Hub.Values
import LabProbe.Relay.Rule

/-!
# Texts that the Hub and the agent read alike

What the Hub has stripped, the agent does not trim any further. Small
letters, digits and a few marks are what both leave as they are; identifiers
are made of them, and so are the addresses the Hub writes. An IPv4 address
is read by both as the same number.
-/

namespace LabProbe.Relay

open Py Hub

-- ---------------------------------------------------------------------------
-- White space and case
-- ---------------------------------------------------------------------------

/-- Trimming keeps the texts that neither start nor end with such a character. -/
theorem trimMatches_eq_self_iff {p : Char → Bool} {s : String} :
    trimMatches p s = s ↔
      (∀ c ∈ s.toList.head?, p c = false) ∧ ∀ c ∈ s.toList.getLast?, p c = false := by
  have htext : trimMatches p s = s ↔ List.rdropWhile p (s.toList.dropWhile p) = s.toList := by
    rw [trimMatches, ← String.toList_inj, String.toList_ofList]
  have hhead : s.toList.dropWhile p = s.toList ↔ ∀ c ∈ s.toList.head?, p c = false := by
    rw [List.dropWhile_eq_self_iff]
    cases s.toList <;> simp
  have hlast : List.rdropWhile p s.toList = s.toList ↔ ∀ c ∈ s.toList.getLast?, p c = false := by
    rw [List.rdropWhile_eq_self_iff]
    cases s.toList <;> simp [List.getLast?_eq_some_getLast]
  rw [htext, ← hhead, ← hlast]
  constructor
  · intro h
    have hsuffix := List.dropWhile_suffix p (l := s.toList)
    have hprefix := List.rdropWhile_prefix p (l := s.toList.dropWhile p)
    have hlen := hprefix.length_le
    rw [h] at hlen
    have hfront := hsuffix.eq_of_length (Nat.le_antisymm hsuffix.length_le hlen)
    rw [hfront] at h
    exact ⟨hfront, h⟩
  · rintro ⟨hfront, hend⟩
    rw [hfront, hend]

theorem strip_eq_trimMatches (s : String) : strip s = trimMatches isSpace s := rfl

theorem isWhitespace_isSpace {c : Char} (h : isSpace c = false) : isWhitespace c = false := by
  simp [isWhitespace, h]

theorem trim_of_strip {s : String} (h : strip s = s) : trim s = s := by
  rw [strip_eq_trimMatches, trimMatches_eq_self_iff] at h
  rw [trim, trimMatches_eq_self_iff]
  exact ⟨fun c hc => isWhitespace_isSpace (h.1 c hc), fun c hc => isWhitespace_isSpace (h.2 c hc)⟩

theorem trim_ne_empty {s : String} (hne : s ≠ "") (h : ∀ c ∈ s.toList.head?, isSpace c = false) :
    trim s ≠ "" := by
  intro hempty
  have hlist := congrArg String.toList hempty
  rw [trim, trimMatches, String.toList_ofList] at hlist
  cases hs : s.toList with
  | nil => exact hne (String.toList_inj.mp hs)
  | cons c cs =>
    have hc : isWhitespace c = false := isWhitespace_isSpace (h c (by simp [hs]))
    rw [hs, List.dropWhile_cons_of_neg (by simp [hc]), String.toList_empty,
      List.rdropWhile_eq_nil_iff] at hlist
    exact absurd (hlist c List.mem_cons_self) (by simp [hc])

theorem toLower_eq_self_iff {c : Char} : c.toLower = c ↔ c.isUpper = false := by
  rw [isUpper_eq]
  delta Char.toLower
  split
  · rename_i h
    constructor
    · intro heq
      have hval := congrArg Char.val heq
      simp at hval
    · grind
  · grind

theorem isUpper_toLower (c : Char) : c.toLower.isUpper = false := by
  rw [isUpper_eq]
  delta Char.toLower
  split <;> grind [UInt32.toNat_add, Char.toNat_val]

theorem isUpper_toAsciiLowercase {s : String} {c : Char} (h : c ∈ (toAsciiLowercase s).toList) :
    c.isUpper = false := by
  rw [toAsciiLowercase, asciiLower, String.toList_ofList] at h
  obtain ⟨d, -, rfl⟩ := List.mem_map.mp h
  exact isUpper_toLower d

theorem toAsciiLowercase_eq_self_iff {s : String} :
    toAsciiLowercase s = s ↔ ∀ c ∈ s.toList, c.toLower = c := by
  rw [toAsciiLowercase, asciiLower, ← String.toList_inj, String.toList_ofList]
  have hmap := List.map_inj_left (l := s.toList) (f := Char.toLower) (g := id)
  simpa using hmap

-- ---------------------------------------------------------------------------
-- Plain characters
-- ---------------------------------------------------------------------------

def isPlain (c : Char) : Bool := c.isLower || c.isDigit || c == '-' || c == '_' || c == ':'

theorem isSpace_of_isPlain {c : Char} (h : isPlain c = true) : isSpace c = false := by
  simp only [isPlain, Bool.or_eq_true, beq_iff_eq] at h
  rcases h with (((h | h) | rfl) | rfl) | rfl
  · have hrange : 97 ≤ c.toNat ∧ c.toNat ≤ 122 := by
      simpa [isLower_eq, UInt32.le_iff_toNat_le, ← Char.toNat_val] using h
    simp only [isSpace, Bool.and_eq_false_iff, Bool.or_eq_false_iff, decide_eq_false_iff_not,
      beq_eq_false_iff_ne]
    omega
  · exact isSpace_of_isDigit h
  · decide
  · decide
  · decide

theorem isUpper_of_isPlain {c : Char} (h : isPlain c = true) : c.isUpper = false := by
  simp only [isPlain, Bool.or_eq_true, beq_iff_eq] at h
  rcases h with (((h | h) | rfl) | rfl) | rfl
  · simp only [isLower_eq, isUpper_eq] at h ⊢
    grind
  · simp only [Char.isDigit, isUpper_eq] at h ⊢
    grind
  · decide
  · decide
  · decide

theorem ne_of_isPlain {c d : Char} (h : isPlain c = true) (hd : isPlain d = false) : c ≠ d := by
  rintro rfl
  rw [h] at hd
  cases hd

theorem trimMatches_of_plain {p : Char → Bool} {s : String}
    (hp : ∀ c, isPlain c = true → p c = false) (h : ∀ c ∈ s.toList, isPlain c = true) :
    trimMatches p s = s := by
  rw [trimMatches_eq_self_iff]
  exact ⟨fun c hc => hp c (h c (List.mem_of_mem_head? hc)),
    fun c hc => hp c (h c (List.mem_of_getLast? hc))⟩

theorem strip_of_plain {s : String} (h : ∀ c ∈ s.toList, isPlain c = true) : strip s = s :=
  trimMatches_of_plain (fun _ => isSpace_of_isPlain) h

theorem toAsciiLowercase_of_plain {s : String} (h : ∀ c ∈ s.toList, isPlain c = true) :
    toAsciiLowercase s = s := by
  rw [toAsciiLowercase_eq_self_iff]
  exact fun c hc => toLower_eq_self_iff.mpr (isUpper_of_isPlain (h c hc))

-- ---------------------------------------------------------------------------
-- Identifiers
-- ---------------------------------------------------------------------------

def isKeptIdChar (c : Char) : Bool := c.isLower || c.isDigit || c == '-' || c == '_'

theorem isPlain_of_isKeptIdChar {c : Char} (h : isKeptIdChar c = true) : isPlain c = true := by
  rw [isKeptIdChar] at h
  rw [isPlain, h, Bool.true_or]

theorem isKeptIdChar_iff (c : Char) :
    isKeptIdChar c = true ↔ isIdChar c = true ∧ c.isUpper = false := by
  have hplain : isKeptIdChar c = true → c.isUpper = false := fun h =>
    isUpper_of_isPlain (isPlain_of_isKeptIdChar h)
  simp only [isKeptIdChar, isIdChar, Char.isAlphanum, isAlpha_eq, Bool.or_eq_true,
    beq_iff_eq] at hplain ⊢
  grind

theorem kept_id_iff (id : String) :
    (∀ c ∈ (toAsciiLowercase (trim id)).toList, isIdChar c = true) ∧
        toAsciiLowercase (trim id) = id ↔
      ∀ c ∈ id.toList, isKeptIdChar c = true := by
  constructor
  · rintro ⟨hchars, hid⟩ c hc
    rw [← hid] at hc
    exact (isKeptIdChar_iff c).mpr ⟨hchars c hc, isUpper_toAsciiLowercase hc⟩
  · intro hchars
    have hplain : ∀ c ∈ id.toList, isPlain c = true := fun c hc =>
      isPlain_of_isKeptIdChar (hchars c hc)
    rw [trim_of_strip (strip_of_plain hplain), toAsciiLowercase_of_plain hplain]
    exact ⟨fun c hc => ((isKeptIdChar_iff c).mp (hchars c hc)).1, rfl⟩

-- ---------------------------------------------------------------------------
-- IPv4 addresses
-- ---------------------------------------------------------------------------

theorem readOctet_parseOctet {part rest : List Char} {n : Nat} (h : parseOctet part = some n)
    (hrest : ∀ c ∈ rest.head?, c.isDigit = false) :
    readOctet (part ++ rest) = some (n, rest) := by
  simp only [parseOctet, Option.ite_none_left_eq_some, Option.some.injEq, Bool.or_eq_true,
    List.isEmpty_iff, Bool.not_eq_true', decide_eq_true_eq, not_or, Bool.not_eq_false,
    List.all_eq_true] at h
  obtain ⟨⟨⟨hne, hdigits⟩, hlen⟩, hzero, hvalue, rfl⟩ := h
  have htake : (part ++ rest).takeWhile Char.isDigit = part := by
    rw [List.takeWhile_append_of_pos hdigits]
    cases rest with
    | nil => simp
    | cons c rest => simp [hrest c rfl]
  have hdrop : (part ++ rest).dropWhile Char.isDigit = rest := by
    rw [List.dropWhile_append_of_pos hdigits]
    cases rest with
    | nil => rfl
    | cons c rest => simp [hrest c rfl]
  have hlead : ¬ (part.head? = some '0' ∧ 1 < part.length) := by
    rintro ⟨hhead, hlong⟩
    have hlong' : part ≠ ['0'] := by
      rintro rfl
      exact absurd hlong (by decide)
    simp [hlong', hhead] at hzero
  simp only [readOctet, htake, hdrop]
  rw [if_neg (by simp only [Bool.or_eq_true, Bool.and_eq_true, List.isEmpty_iff, decide_eq_true_eq]; tauto)]

theorem parseOctet_clear {part : List Char} {n : Nat} (h : parseOctet part = some n) :
    part.length ≤ 3 ∧ ∀ c ∈ part, c.utf8Size = 1 := by
  simp only [parseOctet, Option.ite_none_left_eq_some, Option.some.injEq, Bool.or_eq_true,
    List.isEmpty_iff, Bool.not_eq_true', decide_eq_true_eq, not_or, Bool.not_eq_false,
    List.all_eq_true] at h
  obtain ⟨⟨⟨-, hdigits⟩, hlen⟩, -⟩ := h
  refine ⟨by omega, fun c hc => ?_⟩
  have hrange := Char.isDigit_iff_toNat.mp (hdigits c hc)
  have hnine : '9'.toNat = 57 := rfl
  rw [Char.utf8Size_eq_one_iff, UInt32.le_iff_toNat_le]
  change c.toNat ≤ 127
  omega

theorem utf8ByteSize_ofList_ascii {cs : List Char} (h : ∀ c ∈ cs, c.utf8Size = 1) :
    (String.ofList cs).utf8ByteSize = cs.length := by
  induction cs with
  | nil => rfl
  | cons c cs ih =>
    obtain ⟨hc, hcs⟩ := List.forall_mem_cons.mp h
    rw [String.ofList_cons, String.utf8ByteSize_append, String.utf8ByteSize_singleton, hc, ih hcs,
      List.length_cons, Nat.add_comm]

theorem parseIpv4Addr_of_ipAddress {s : String} {value : Nat}
    (h : ipAddress s = some (.v4 value)) : parseIpv4Addr s = some value := by
  have hparse : parseIpv4 s.toList = some value := by
    simp only [ipAddress] at h
    split at h
    · cases h
    · split at h
      · rename_i v hv
        cases h
        exact hv
      · simp at h
  have hjoin := joinWith_splitOn '.' s.toList
  unfold parseIpv4 at hparse
  split at hparse
  · rename_i a b c d hsplit
    simp only [Option.bind_eq_bind, Option.bind_eq_some_iff, Option.some.injEq] at hparse
    obtain ⟨na, ha, nb, hb, nc, hc, nd, hd, rfl⟩ := hparse
    obtain ⟨hla, hca⟩ := parseOctet_clear ha
    obtain ⟨hlb, hcb⟩ := parseOctet_clear hb
    obtain ⟨hlc, hcc⟩ := parseOctet_clear hc
    obtain ⟨hld, hcd⟩ := parseOctet_clear hd
    rw [hsplit] at hjoin
    simp only [joinWith_cons, List.flatMap_cons, List.flatMap_nil, List.append_nil] at hjoin
    have hsize : s.utf8ByteSize ≤ 15 := by
      rw [← String.ofList_toList (s := s), utf8ByteSize_ofList_ascii]
      · rw [← hjoin]
        simp only [List.length_append, List.length_cons]
        omega
      · rw [← hjoin]
        simp only [List.mem_append, List.mem_cons]
        rintro ch (hch | (rfl | hch) | (rfl | hch) | rfl | hch)
        all_goals first | exact hca _ hch | exact hcb _ hch | exact hcc _ hch | exact hcd _ hch | rfl
    have hdot : ∀ rest : List Char, ∀ ch ∈ ('.' :: rest).head?, ch.isDigit = false := by
      intro rest ch hch
      cases hch
      decide
    have hread : readIpv4 s.toList = some (ipv4 na nb nc nd, []) := by
      have hlast := readOctet_parseOctet hd (by simp : ∀ ch ∈ ([] : List Char).head?, ch.isDigit = false)
      rw [List.append_nil] at hlast
      rw [← hjoin]
      simp [readIpv4, readOctet_parseOctet ha (hdot _), readOctet_parseOctet hb (hdot _),
        readOctet_parseOctet hc (hdot _), hlast, readChar]
    rw [parseIpv4Addr, if_neg (by omega), hread]
    rfl
  · cases hparse

-- ---------------------------------------------------------------------------
-- IPv6 addresses
-- ---------------------------------------------------------------------------

theorem mem_compressHextets {part : List Char} {hextets : List (List Char)}
    (h : part ∈ compressHextets hextets) : part = [] ∨ part ∈ hextets := by
  unfold compressHextets at h
  dsimp only at h
  generalize longestZeros 0 0 0 0 0 hextets = run at h
  have hparts : ∀ parts : List (List Char), part ∈ (if run.1 = 0 then [] :: parts else parts) →
      part = [] ∨ part ∈ parts := by
    intro parts hmem
    split at hmem
    · exact List.mem_cons.mp hmem
    · exact .inr hmem
  split at h
  · exact .inr h
  · rcases hparts _ h with h | h
    · exact .inl h
    · rcases List.mem_append.mp h with h | h
      · exact .inr (List.mem_of_mem_take h)
      · rcases List.mem_cons.mp h with h | h
        · exact .inl h
        · rcases List.mem_append.mp h with h | h
          · exact .inr (List.mem_of_mem_drop h)
          · split at h
            · exact .inl (List.mem_singleton.mp h)
            · cases h

theorem isPlain_hexText {n : Nat} {c : Char} (h : c ∈ hexText n) : isPlain c = true := by
  have hall : ∀ d < 16, isPlain (hexDigitChar d) = true := by decide
  rw [hexText_eq] at h
  obtain ⟨d, hd, rfl⟩ := List.mem_map.mp h
  exact hall d (hexDigitsOf_lt hd)

theorem isPlain_ipv6Text {value : Nat} {c : Char} (h : c ∈ ipv6Text value) : isPlain c = true := by
  rcases mem_joinWith h with rfl | ⟨part, hpart, hc⟩
  · decide
  · rcases mem_compressHextets hpart with rfl | hpart
    · cases hc
    · obtain ⟨n, -, rfl⟩ := List.mem_map.mp hpart
      exact isPlain_hexText hc

theorem contains_append (needle pre post : List Char) :
    contains needle (pre ++ (needle ++ post)) = true := by
  induction pre with
  | nil =>
    rw [List.nil_append]
    cases h : needle ++ post with
    | nil =>
      rw [(List.append_eq_nil_iff.mp h).1]
      rfl
    | cons c cs =>
      have hprefix : needle <+: c :: cs := h ▸ List.prefix_append needle post
      rw [contains, List.isPrefixOf_iff_prefix.mpr hprefix, Bool.true_or]
  | cons c pre ih => rw [List.cons_append, contains, ih, Bool.or_true]

/-- A number of 64 bits is written with a double colon for the groups before it. -/
theorem contains_ipv6Text {value : Nat} (h : value < 2 ^ 64) :
    contains [':', ':'] (ipv6Text value) = true := by
  have hzeros : ∃ rest, (hextetsOf value).map hexText = List.replicate 4 ['0'] ++ rest := by
    have hhigh : value / 65536 ^ 7 = 0 ∧ value / 65536 ^ 6 = 0 ∧ value / 65536 ^ 5 = 0 ∧
        value / 65536 ^ 4 = 0 := by
      refine ⟨?_, ?_, ?_, ?_⟩ <;> exact Nat.div_eq_of_lt (by omega)
    obtain ⟨h7, h6, h5, h4⟩ := hhigh
    have hzero : hexText 0 = ['0'] := rfl
    refine ⟨([value / 65536 ^ 3, value / 65536 ^ 2, value / 65536, value].map (· % 65536)).map
      hexText, ?_⟩
    simp only [hextetsOf, List.map_cons, List.map_nil, h7, h6, h5, h4, Nat.zero_mod, hzero,
      List.replicate, List.cons_append, List.nil_append]
  obtain ⟨rest, hrest⟩ := hzeros
  unfold ipv6Text
  rcases compressHextets_cases ((hextetsOf value).map hexText) with
    ⟨hshort, -⟩ | ⟨head, k, tail, -, -, hjoin⟩
  · have hlong : 0 + 4 ≤ (longestZeros 0 0 0 0 0 (List.replicate 4 ['0'] ++ rest)).2 :=
      length_le_longestZeros 4 (Nat.le_refl 0)
    rw [hrest] at hshort
    omega
  · rw [hjoin]
    exact contains_append [':', ':'] _ _

-- ---------------------------------------------------------------------------
-- Scopes
-- ---------------------------------------------------------------------------

/-- A reader has left `rest` of a text and passed over no percent sign. -/
def Passes (cs rest : List Char) : Prop := '%' ∈ cs → '%' ∈ rest

theorem passes_dropWhile {p : Char → Bool} (hp : p '%' = false) (cs : List Char) :
    Passes cs (cs.dropWhile p) := by
  intro h
  rw [← List.takeWhile_append_dropWhile (p := p) (l := cs), List.mem_append] at h
  refine h.resolve_left fun htake => ?_
  have hpos := List.mem_takeWhile_imp htake
  rw [hp] at hpos
  cases hpos

theorem passes_rdropWhile {p : Char → Bool} (hp : p '%' = false) (cs : List Char) :
    Passes cs (cs.rdropWhile p) := by
  intro h
  have hpass := passes_dropWhile hp cs.reverse (List.mem_reverse.mpr h)
  rwa [← List.mem_reverse, List.rdropWhile, List.reverse_reverse]

theorem passes_stripBrackets (s : String) : Passes s.toList (stripBrackets s).toList := by
  intro h
  simp only [stripBrackets, trimEndMatches, trimStartMatches, trim, trimMatches,
    String.toList_ofList]
  refine passes_rdropWhile (by decide) _ (passes_dropWhile (by decide) _ ?_)
  exact passes_rdropWhile (by decide) _ (passes_dropWhile (by decide) _ h)

theorem passes_readChar {c : Char} {cs rest : List Char} (hc : c ≠ '%')
    (h : readChar c cs = some rest) : Passes cs rest := by
  cases cs with
  | nil => cases h
  | cons d cs =>
    simp only [readChar, Option.ite_none_right_eq_some, Option.some.injEq] at h
    obtain ⟨rfl, rfl⟩ := h
    exact fun hm => (List.mem_cons.mp hm).resolve_left hc.symm

theorem passes_readOctet {cs rest : List Char} {n : Nat} (h : readOctet cs = some (n, rest)) :
    Passes cs rest := by
  simp only [readOctet, Option.ite_none_left_eq_some, Option.some.injEq, Prod.mk.injEq] at h
  obtain ⟨-, -, rfl⟩ := h
  exact passes_dropWhile (by decide) cs

theorem passes_readIpv4 {cs rest : List Char} {value : Nat}
    (h : readIpv4 cs = some (value, rest)) : Passes cs rest := by
  simp only [readIpv4, Option.bind_eq_bind, Option.bind_eq_some_iff, Prod.exists,
    Option.some.injEq, Prod.mk.injEq] at h
  obtain ⟨_, _, ha, _, hdot, _, _, hb, _, hdot', _, _, hc, _, hdot'', _, _, hd, -, rfl⟩ := h
  intro hm
  have hne : '.' ≠ '%' := by decide
  have h1 := passes_readChar hne hdot (passes_readOctet ha hm)
  have h2 := passes_readChar hne hdot' (passes_readOctet hb h1)
  have h3 := passes_readChar hne hdot'' (passes_readOctet hc h2)
  exact passes_readOctet hd h3

theorem passes_readHextet {cs rest : List Char} {n : Nat} (h : readHextet cs = some (n, rest)) :
    Passes cs rest := by
  simp only [readHextet, Option.ite_none_left_eq_some, Option.some.injEq, Prod.mk.injEq] at h
  obtain ⟨-, -, rfl⟩ := h
  exact passes_dropWhile (by decide) cs

theorem passes_readSeparator {index : Nat} {cs rest : List Char}
    (h : readSeparator index cs = some rest) : Passes cs rest := by
  unfold readSeparator at h
  split at h
  · cases h
    exact id
  · exact passes_readChar (by decide) h

theorem passes_readGroups (limit index : Nat) (cs : List Char) :
    Passes cs (readGroups limit index cs).2.2 := by
  induction limit generalizing index cs with
  | zero => exact id
  | succ limit ih =>
    unfold readGroups
    split
    · rename_i value rest hipv4
      split at hipv4
      · obtain ⟨between, hsep, hread⟩ := Option.bind_eq_some_iff.mp hipv4
        exact fun hm => passes_readIpv4 hread (passes_readSeparator hsep hm)
      · cases hipv4
    · split
      · rename_i group rest hgroup
        obtain ⟨between, hsep, hread⟩ := Option.bind_eq_some_iff.mp hgroup
        exact fun hm => ih _ _ (passes_readHextet hread (passes_readSeparator hsep hm))
      · exact id

theorem parseIpv6Addr_scope {s : String} (h : '%' ∈ s.toList) : parseIpv6Addr s = none := by
  have hpass : ∀ value rest, readIpv6 s.toList = some (value, rest) → '%' ∈ rest := by
    intro value rest hread
    have hhead := passes_readGroups 8 0 s.toList h
    simp only [readIpv6] at hread
    generalize readGroups 8 0 s.toList = read at hhead hread
    obtain ⟨head, ipv4, left⟩ := read
    dsimp only at hhead hread
    split at hread
    · cases hread
      exact hhead
    · split at hread
      · cases hread
      · split at hread
        · rename_i tail
          have htail : '%' ∈ tail := by simpa using hhead
          have hend := passes_readGroups (7 - head.length) 0 tail htail
          cases hread
          exact hend
        · cases hread
  unfold parseIpv6Addr
  split
  · rename_i value hread
    exact absurd (hpass value [] hread) (by simp)
  · rfl

end LabProbe.Relay
