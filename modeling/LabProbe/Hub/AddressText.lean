import LabProbe.Py.IpNetwork
import LabProbe.Relay.Agree

/-!
# Addresses written and read back

`ip_address(str(a)) == a`, with what the text of an address is made of.
-/

namespace LabProbe.Hub

open Py
open Relay (hexText_eq hexDigitsOf_lt hexDigit?_hexDigitChar isHex isHex_hexText hexText_ne_nil
  length_hexText foldl_dropWhile_zero hextets_split hextetsOf_lt groupsValue groupsValue_hextetsOf)

variable {sep : Char} {cs : List Char} {gs hs : List Nat}

-- ---------------------------------------------------------------------------
-- IPv4
-- ---------------------------------------------------------------------------

theorem parseOctet_toDigits : ∀ n < 256, parseOctet (Nat.toDigits 10 n) = some n := by
  decide +kernel

theorem notMem_toDigits {c : Char} (h : c.isDigit = false) (n : Nat) : c ∉ Nat.toDigits 10 n :=
  fun hc => absurd (isDigit_toDigits c hc) (by simp [h])

theorem parseIpv4_ipv4Text {value : Nat} (h : value < 2 ^ 32) :
    parseIpv4 (ipv4Text value) = some value := by
  have hparts : ∀ part ∈ [value / 16777216, value / 65536, value / 256, value].map fun n =>
      Nat.toDigits 10 (n % 256), '.' ∉ part := by
    intro part hpart
    obtain ⟨n, -, rfl⟩ := List.mem_map.mp hpart
    exact notMem_toDigits rfl _
  have hoctet : ∀ n, parseOctet (Nat.toDigits 10 (n % 256)) = some (n % 256) := fun n =>
    parseOctet_toDigits _ (Nat.mod_lt _ (by decide))
  rw [parseIpv4, ipv4Text, splitOn_joinWith (by simp) hparts]
  simp only [List.map_cons, List.map_nil, hoctet, Option.bind_eq_bind, Option.bind_some]
  congr 1
  omega

-- ---------------------------------------------------------------------------
-- IPv6
-- ---------------------------------------------------------------------------

theorem parseHextet_hexText {n : Nat} (h : n < 65536) : parseHextet (hexText n) = some n := by
  have hvalue : ∀ (ds : List Nat) (acc : Nat), (∀ d ∈ ds, d < 16) →
      hexValue acc (ds.map hexDigitChar) = some (ds.foldl (fun n d => n * 16 + d) acc) := by
    intro ds
    induction ds with
    | nil => exact fun acc _ => rfl
    | cons d ds ih =>
      intro acc hds
      obtain ⟨hd, hds⟩ := List.forall_mem_cons.mp hds
      simp only [List.map_cons, hexValue, hexDigit?_hexDigitChar d hd, Option.bind_eq_bind,
        Option.bind_some, ih _ hds, List.foldl_cons]
  have hlen := length_hexText n
  have hne := hexText_ne_nil n
  have hshort : ((hexText n).isEmpty || decide (4 < (hexText n).length)) = false := by
    simpa using ⟨hne, hlen⟩
  rw [parseHextet, hshort, if_neg (by simp), hexText_eq, hvalue _ 0 fun d hd => hexDigitsOf_lt hd,
    Relay.hexDigitsOf, foldl_dropWhile_zero]
  simp only [List.cons_append, List.nil_append, List.foldl_cons, List.foldl_nil]
  congr 1
  omega

theorem hextets_hexText (h : ∀ g ∈ gs, g < 65536) (acc : Nat) :
    hextets acc (gs.map hexText) = some (gs.foldl (fun n g => n * 65536 + g) acc) := by
  induction gs generalizing acc with
  | nil => rfl
  | cons g gs ih =>
    obtain ⟨hg, hgs⟩ := List.forall_mem_cons.mp h
    simp only [List.map_cons, hextets, parseHextet_hexText hg, Option.bind_eq_bind,
      Option.bind_some, ih hgs, List.foldl_cons]

def side (gs : List Nat) : List (List Char) := if gs = [] then [[]] else gs.map hexText

theorem colon_notMem_hexText (n : Nat) : ':' ∉ hexText n := fun h =>
  absurd (isHex_hexText h) (by decide)

theorem splitOn_groups (gs : List Nat) :
    splitOn ':' (joinWith ':' (gs.map hexText)) = side gs := by
  unfold side
  split
  · rename_i h
    subst h
    rfl
  · rename_i h
    refine splitOn_joinWith (by simpa using h) fun part hpart => ?_
    obtain ⟨n, -, rfl⟩ := List.mem_map.mp hpart
    exact colon_notMem_hexText n

theorem length_side (gs : List Nat) : (side gs).length = max 1 gs.length := by
  unfold side
  split
  · rename_i h
    simp [h]
  · rename_i h
    have hpos := List.length_pos_iff.mpr h
    rw [List.length_map]
    omega

theorem side_length_pos (gs : List Nat) : 0 < (side gs).length := by
  rw [length_side]
  omega

theorem side_isEmpty {i : Nat} (h : i < (side gs).length) :
    ((side gs).getD i []).isEmpty = true ↔ gs = [] := by
  unfold side at h ⊢
  split at h
  · rename_i hnil
    rw [if_pos hnil]
    obtain rfl : i = 0 := by simpa using h
    simp [hnil]
  · rename_i hnil
    rw [List.length_map] at h
    have hget : (gs.map hexText).getD i [] = hexText gs[i] := by
      rw [List.getD_eq_getElem?_getD, List.getElem?_map, List.getElem?_eq_getElem h,
        Option.map_some, Option.getD_some]
    rw [if_neg hnil, hget, List.isEmpty_iff]
    exact iff_of_false (hexText_ne_nil _) hnil

theorem sideCount_side {outer : List Char} (h : outer.isEmpty = true ↔ gs = []) :
    sideCount (side gs).length outer = some gs.length := by
  unfold sideCount
  split
  · rename_i hempty
    have hnil := h.mp hempty
    subst hnil
    rfl
  · rename_i hempty
    have hnil := fun hnil => hempty (h.mpr hnil)
    rw [side, if_neg hnil, List.length_map]

theorem emptyInner_sides (gs hs : List Nat) :
    emptyInner (side gs ++ [] :: side hs) = [(side gs).length] := by
  have hgs := side_length_pos gs
  have hhs := side_length_pos hs
  have hcongr : ∀ i ∈ List.range (side gs ++ [] :: side hs).length,
      (decide (0 < i) && decide (i + 1 < (side gs ++ [] :: side hs).length) &&
        ((side gs ++ [] :: side hs).getD i []).isEmpty) = (i == (side gs).length) := by
    intro i hi
    have hlen : i < (side gs).length + (1 + (side hs).length) := by
      simpa [Nat.add_comm] using List.mem_range.mp hi
    simp only [List.length_append, List.length_cons, List.getD_eq_getElem?_getD]
    rcases lt_trichotomy i (side gs).length with hlt | rfl | hgt
    · have hpart := side_isEmpty hlt
      rw [List.getD_eq_getElem?_getD] at hpart
      rw [List.getElem?_append_left hlt]
      have hne : (i == (side gs).length) = false := by simpa using Nat.ne_of_lt hlt
      rw [hne]
      by_cases hnil : gs = []
      · subst hnil
        have hzero : i = 0 := by simpa [side] using hlt
        simp [hzero]
      · simp [mt hpart.mp hnil]
    · rw [List.getElem?_append_right (Nat.le_refl _)]
      simp
      omega
    · obtain ⟨j, rfl⟩ : ∃ j, i = (side gs).length + 1 + j := ⟨_, (Nat.add_sub_of_le hgt).symm⟩
      have hj : j < (side hs).length := by omega
      have hpart := side_isEmpty hj
      rw [List.getD_eq_getElem?_getD] at hpart
      have hne : ((side gs).length + 1 + j == (side gs).length) = false := by simp; omega
      have hget : (side gs ++ [] :: side hs)[(side gs).length + 1 + j]? = (side hs)[j]? := by
        rw [List.getElem?_append_right (by omega)]
        have : (side gs).length + 1 + j - (side gs).length = j + 1 := by omega
        rw [this, List.getElem?_cons_succ]
      rw [hget, hne]
      by_cases hnil : hs = []
      · subst hnil
        have hzero : j = 0 := by simpa [side] using hj
        simp [hzero, side]
      · simp [mt hpart.mp hnil]
  rw [emptyInner, List.filter_congr hcongr, List.filter_beq, List.count_range, if_pos (by simp)]
  rfl

theorem sides_ends (gs hs : List Nat) :
    (((side gs ++ [] :: side hs).headD []).isEmpty = true ↔ gs = []) ∧
      (((side gs ++ [] :: side hs).getLastD []).isEmpty = true ↔ hs = []) := by
  have hgs := side_length_pos gs
  have hhs := side_length_pos hs
  have hhead := side_isEmpty hgs
  have hlast := side_isEmpty (Nat.sub_one_lt (Nat.ne_of_gt hhs))
  rw [List.getD_eq_getElem?_getD] at hhead hlast
  constructor
  · rw [List.headD_eq_head?_getD, List.head?_append_of_ne_nil _ (List.length_pos_iff.mp hgs),
      List.head?_eq_getElem?, hhead]
  · rw [List.getLastD_eq_getLast?, List.getLast?_append_of_ne_nil _ (by simp),
      List.getLast?_cons_of_ne_nil (List.length_pos_iff.mp hhs), List.getLast?_eq_getElem?, hlast]

theorem take_sides (gs hs : List Nat) :
    (side gs ++ [] :: side hs).take gs.length = gs.map hexText := by
  by_cases h : gs = []
  · subst h
    rfl
  · rw [side, if_neg h]
    simp

theorem drop_sides (gs hs : List Nat) :
    (side gs ++ [] :: side hs).drop ((side gs ++ [] :: side hs).length - hs.length) =
      hs.map hexText := by
  by_cases h : hs = []
  · subst h
    simp
  · have hside : side hs = hs.map hexText := if_neg h
    have hlen : (side gs ++ [] :: side hs).length - hs.length = (side gs ++ [[]]).length := by
      simp [hside]
      omega
    have hsplit : side gs ++ [] :: side hs = (side gs ++ [[]]) ++ side hs := List.append_cons _ _ _
    rw [hlen, hsplit, List.drop_left, hside]

theorem expandIpv4Tail_of_notMem {cs : List Char} (h : '.' ∉ cs) :
    expandIpv4Tail (splitOn ':' cs) = some (splitOn ':' cs) := by
  have hmem : ∀ part ∈ splitOn ':' cs, '.' ∉ part := by
    induction cs with
    | nil => simp [splitOn]
    | cons c cs ih =>
      obtain ⟨hc, hcs⟩ := not_or.mp (mt List.mem_cons.mpr h)
      have hparts := ih hcs
      unfold splitOn
      split
      · simpa using hparts
      · cases hsplit : splitOn ':' cs with
        | nil => exact absurd hsplit (splitOn_ne_nil ':' cs)
        | cons word words =>
          rw [hsplit] at hparts
          obtain ⟨hword, hwords⟩ := List.forall_mem_cons.mp hparts
          exact List.forall_mem_cons.mpr ⟨List.not_mem_cons_of_ne_of_not_mem hc hword, hwords⟩
  unfold expandIpv4Tail
  cases hlast : (splitOn ':' cs).getLast? with
  | none => rfl
  | some tail =>
    have htail : tail.contains '.' = false := by
      simpa using hmem tail (List.mem_of_getLast? hlast)
    simp only [htail, Bool.false_eq_true, if_false]

theorem parseIpv6Int_ipv6Text {value : Nat} (h : value < 2 ^ 128) :
    parseIpv6Int (ipv6Text value) = some value := by
  have hlt : ∀ g ∈ hextetsOf value, g < 65536 := fun g hg => hextetsOf_lt hg
  have hlen : (hextetsOf value).length = 8 := rfl
  have hvalue : (hextetsOf value).foldl (fun n g => n * 65536 + g) 0 = value :=
    groupsValue_hextetsOf h
  have hdot : '.' ∉ ipv6Text value := fun hc =>
    absurd (Relay.isPlain_ipv6Text hc) (by decide)
  rw [parseIpv6Int, expandIpv4Tail_of_notMem hdot]
  rcases compressHextets_cases ((hextetsOf value).map hexText) with ⟨-, hfull⟩ |
    ⟨head, k, tail, hk, hsplit, hjoin⟩
  · have hparts : splitOn ':' (ipv6Text value) = (hextetsOf value).map hexText := by
      rw [ipv6Text, hfull, splitOn_groups]
      rfl
    have hpart : ∀ i < 8, (((hextetsOf value).map hexText).getD i []).isEmpty = false := by
      intro i hi
      rw [List.getD_eq_getElem?_getD, List.getElem?_map, List.getElem?_eq_getElem (hlen ▸ hi)]
      simpa using hexText_ne_nil _
    have hinner : emptyInner ((hextetsOf value).map hexText) = [] := by
      refine List.filter_eq_nil_iff.mpr fun i hi => ?_
      rw [List.length_map, hlen, List.mem_range] at hi
      rw [hpart i hi, Bool.and_false]
      exact Bool.false_ne_true
    rw [hparts]
    simp only [Option.bind_eq_bind, Option.bind_some, hinner, List.length_map, hlen]
    rw [hextets_hexText hlt, hvalue]
    have hhead := hpart 0 (by decide)
    have hlast := hpart 7 (by decide)
    simp only [hextetsOf, List.map_cons, List.map_nil] at hhead hlast ⊢
    simp at hhead hlast
    simp [hhead, hlast]
  · obtain ⟨gs, hs, rfl, rfl, hgroups⟩ := hextets_split hlt hsplit
    have hsum : gs.length + (k + hs.length) = 8 := by simpa [hgroups] using hlen
    have hgs : ∀ g ∈ gs, g < 65536 := fun g hg => hlt g (by simp [hgroups, hg])
    have hhs : ∀ g ∈ hs, g < 65536 := fun g hg => hlt g (by simp [hgroups, hg])
    have hparts : splitOn ':' (ipv6Text value) = side gs ++ [] :: side hs := by
      rw [ipv6Text, hjoin, splitOn_append, splitOn_groups]
      rw [← List.nil_append (':' :: joinWith ':' _), splitOn_append, splitOn_groups]
      rfl
    obtain ⟨hhead, hlast⟩ := sides_ends gs hs
    have hcount : (side gs ++ [] :: side hs).length - (side gs).length - 1 = (side hs).length := by
      simp
    rw [hparts]
    simp only [Option.bind_eq_bind, Option.bind_some, emptyInner_sides, hcount,
      sideCount_side hhead, sideCount_side hlast]
    have hlength : (side gs ++ [] :: side hs).length =
        max 1 gs.length + (1 + max 1 hs.length) := by
      simp [length_side, Nat.add_comm]
    have hbounds : (decide ((side gs ++ [] :: side hs).length < 3) ||
        decide (9 < (side gs ++ [] :: side hs).length)) = false := by
      rw [hlength]
      simp
      omega
    have hpower : 8 - (gs.length + hs.length) = k := by omega
    have hzeros : ∀ acc, (List.replicate k 0).foldl (fun n g => n * 65536 + g) acc =
        acc * 65536 ^ k := by
      clear hk hsum hsplit hgroups hpower
      induction k with
      | zero => simp
      | succ k ih =>
        intro acc
        rw [List.replicate_succ, List.foldl_cons, ih, Nat.add_zero, Nat.mul_assoc, Nat.pow_succ']
    rw [hbounds, if_neg (by simp), if_neg (by omega), take_sides, drop_sides, hextets_hexText hgs,
      Option.bind_some, hpower, hextets_hexText hhs, ← hzeros, ← List.foldl_append,
      ← List.foldl_append, ← List.append_assoc, ← hgroups, hvalue]

-- ---------------------------------------------------------------------------
-- `ip_address`
-- ---------------------------------------------------------------------------

theorem mem_ipv4Text {value : Nat} {c : Char} (h : c ∈ ipv4Text value) :
    c = '.' ∨ c.isDigit = true := by
  rcases mem_joinWith h with rfl | ⟨part, hpart, hc⟩
  · exact .inl rfl
  · obtain ⟨n, -, rfl⟩ := List.mem_map.mp hpart
    exact .inr (isDigit_toDigits c hc)

theorem notMem_ipv6Text {c : Char} (h : Relay.isPlain c = false) (value : Nat) : c ∉ ipv6Text value :=
  fun hm => by
    rw [Relay.isPlain_ipv6Text hm] at h
    cases h

theorem ipAddress_ipv4Text {value : Nat} (h : value < 2 ^ 32) :
    ipAddress (String.ofList (ipv4Text value)) = some (.v4 value) := by
  have hslash : (ipv4Text value).contains '/' = false := by
    simpa using fun hc => (mem_ipv4Text hc).elim (by decide) (by decide)
  simp only [ipAddress, String.toList_ofList, hslash, parseIpv4_ipv4Text h, Bool.false_eq_true,
    if_false]

theorem ipAddress_ipv6Text {value : Nat} (h : value < 2 ^ 128) :
    ipAddress (String.ofList (ipv6Text value)) = some (.v6 value) := by
  have hslash : (ipv6Text value).contains '/' = false := by
    simpa using notMem_ipv6Text (by decide) value
  have hdots : splitOn '.' (ipv6Text value) = [ipv6Text value] :=
    splitOn_of_notMem (notMem_ipv6Text (by decide) value)
  have hscope : splitOn '%' (ipv6Text value) = [ipv6Text value] :=
    splitOn_of_notMem (notMem_ipv6Text (by decide) value)
  simp only [ipAddress, String.toList_ofList, hslash, parseIpv4, hdots, parseIpv6, splitScope,
    hscope, Option.bind_eq_bind, Option.bind_some, parseIpv6Int_ipv6Text h, Option.map_some,
    Bool.false_eq_true, if_false]

-- ---------------------------------------------------------------------------
-- Scopes
-- ---------------------------------------------------------------------------

theorem ipAddress_scoped {value : Nat} {scope : List Char} (h : value < 2 ^ 128)
    (hpercent : '%' ∉ scope) (hslash : '/' ∉ scope) :
    ipAddress (String.ofList (ipv6Text value ++ '%' :: scope)) =
      if scope.isEmpty then none else some (.v6 value) := by
  have hcontains : (ipv6Text value ++ '%' :: scope).contains '/' = false := by
    simp [notMem_ipv6Text (c := '/') (by decide), hslash]
  have hfour : parseIpv4 (ipv6Text value ++ '%' :: scope) = none := by
    cases hparse : parseIpv4 (ipv6Text value ++ '%' :: scope) with
    | none => rfl
    | some n =>
      have hpart : '%'.isDigit = true ∨ '%' = '.' := mem_of_parseIpv4 hparse '%' (by simp)
      exact absurd hpart (by decide)
  have hscope : splitScope (ipv6Text value ++ '%' :: scope) =
      if scope.isEmpty then none else some (ipv6Text value) := by
    rw [splitScope, splitOn_append, splitOn_of_notMem (notMem_ipv6Text (by decide) value),
      splitOn_of_notMem hpercent]
    rfl
  simp only [ipAddress, String.toList_ofList, hcontains, Bool.false_eq_true, if_false, hfour,
    parseIpv6, hscope]
  split
  · rfl
  · simp only [Option.bind_eq_bind, Option.bind_some, parseIpv6Int_ipv6Text h, Option.map_some]

theorem ipText_cases {s : String} {value : Nat} (h : ipAddress s = some (.v6 value)) :
    ipText s (.v6 value) = String.ofList (ipv6Text value) ∨
      ∃ scope, scope ≠ [] ∧ '%' ∉ scope ∧ '/' ∉ scope ∧
        ipText s (.v6 value) = String.ofList (ipv6Text value ++ '%' :: scope) := by
  have htext : ipText s (.v6 value) =
      String.ofList (ipv6Text value ++ s.toList.dropWhile (· != '%')) := by
    rw [ipText, scopeText, h]
  have hjoin := joinWith_splitOn '%' s.toList
  have hdrop : ∀ address : List Char, '%' ∉ address → ∀ rest : List Char,
      (address ++ rest).dropWhile (· != '%') = rest.dropWhile (· != '%') := by
    intro address haddress rest
    refine List.dropWhile_append_of_pos fun c hc => bne_iff_ne.mpr ?_
    rintro rfl
    exact haddress hc
  simp only [ipAddress] at h
  split at h
  · cases h
  · rename_i hslash
    split at h
    · cases h
    · simp only [Option.map_eq_some_iff, parseIpv6, Option.bind_eq_bind, Option.bind_eq_some_iff] at h
      obtain ⟨n, ⟨address, haddress, -⟩, -⟩ := h
      unfold splitScope at haddress
      split at haddress
      · rename_i before hsplit
        have hbefore : '%' ∉ before := notMem_splitOn (hsplit ▸ List.mem_singleton_self before)
        rw [hsplit, joinWith, List.intercalate_singleton] at hjoin
        rw [← hjoin, ← List.append_nil before, hdrop before hbefore] at htext
        exact .inl (htext.trans (by rw [List.dropWhile_nil, List.append_nil]))
      · rename_i before scope hsplit
        have hparts : ∀ part ∈ [before, scope], '%' ∉ part :=
          fun part hpart => notMem_splitOn (hsplit ▸ hpart)
        rw [hsplit, joinWith_cons, List.flatMap_singleton] at hjoin
        split at haddress
        · cases haddress
        · rename_i hscope
          rw [← hjoin, hdrop before (hparts before (by simp))] at htext
          refine .inr ⟨scope, by simpa using hscope, hparts scope (by simp), ?_, ?_⟩
          · intro hm
            rw [← hjoin] at hslash
            simp [hm] at hslash
          · rw [htext]
            simp
      · cases haddress

theorem ipAddress_ipText {s : String} {value : Nat} (h : ipAddress s = some (.v6 value)) :
    ipAddress (ipText s (.v6 value)) = some (.v6 value) := by
  have hlt := ipAddress_v6_lt h
  rcases ipText_cases h with htext | ⟨scope, hne, hpercent, hslash, htext⟩
  · rw [htext, ipAddress_ipv6Text hlt]
  · rw [htext, ipAddress_scoped hlt hpercent hslash, if_neg (by simpa using hne)]

/-- White space at the end of an address is white space at the end of its scope. -/
theorem strip_scoped (value : Nat) (scope : List Char) :
    strip (String.ofList (ipv6Text value ++ '%' :: scope)) =
      String.ofList (ipv6Text value ++ '%' :: scope.rdropWhile isSpace) := by
  have hplain : ∀ c ∈ ipv6Text value, isSpace c = false := fun c hc =>
    Relay.isSpace_of_isPlain (Relay.isPlain_ipv6Text hc)
  have hpercent : isSpace '%' = false := by decide
  have hfront : (ipv6Text value ++ '%' :: scope).dropWhile isSpace =
      ipv6Text value ++ '%' :: scope := by
    cases htext : ipv6Text value with
    | nil => exact List.dropWhile_cons_of_neg (by simp [hpercent])
    | cons c cs =>
      exact List.dropWhile_cons_of_neg (by simp [hplain c (htext ▸ List.mem_cons_self)])
  rw [strip, String.toList_ofList, hfront, List.rdropWhile, List.rdropWhile, List.reverse_append,
    List.reverse_cons, List.append_assoc, List.dropWhile_append]
  have hstop : ([('%' : Char)] ++ (ipv6Text value).reverse).dropWhile isSpace =
      '%' :: (ipv6Text value).reverse := List.dropWhile_cons_of_neg (by simp [hpercent])
  split
  · rename_i hempty
    rw [hstop, List.isEmpty_iff.mp hempty]
    simp
  · simp

theorem ipAddress_clean [Unicode] {s : String} {value : Nat} {a : IpAddress}
    (h : ipAddress s = some (.v6 value))
    (hclean : ipAddress (cleanSavedValue (.str (ipText s (.v6 value)))) = some a) :
    a = .v6 value := by
  have hlt := ipAddress_v6_lt h
  have hstrip : ipAddress (strip (ipText s (.v6 value))) = some a := by
    unfold cleanSavedValue at hclean
    dsimp only at hclean
    split at hclean
    · have hnone : ipAddress "" = none := by decide
      rw [hnone] at hclean
      cases hclean
    · exact hclean
  rcases ipText_cases h with htext | ⟨scope, hne, hpercent, hslash, htext⟩
  · have hplain : ∀ c ∈ (String.ofList (ipv6Text value)).toList, isSpace c = false := fun c hc =>
      Relay.isSpace_of_isPlain (Relay.isPlain_ipv6Text (by rwa [String.toList_ofList] at hc))
    rw [htext, strip_of_noSpace hplain, ipAddress_ipv6Text hlt] at hstrip
    exact (Option.some.inj hstrip).symm
  · have hsub : ∀ c, c ∉ scope → c ∉ scope.rdropWhile isSpace := fun c hc hm =>
      hc ((List.rdropWhile_prefix isSpace scope).subset hm)
    rw [htext, strip_scoped, ipAddress_scoped hlt (hsub _ hpercent) (hsub _ hslash)] at hstrip
    split at hstrip
    · cases hstrip
    · exact (Option.some.inj hstrip).symm

end LabProbe.Hub
