import LabProbe.PortMap.Clean
import LabProbe.Relay.Agree

/-!
# What the agent makes of a port-map rule

Identifiers, MAC addresses and suffixes are normalised by the Hub into texts
that the agent takes as they are, and it reads a suffix as the identifier
the Hub read. The agent counts a name in bytes, has fewer private networks,
reads no scope, and holds an expiry in 64 bits. It accepts a rule exactly
when the request stays within these.
-/

namespace LabProbe.PortMap

open Py Py.Json Hub Check

section
variable [Unicode]

-- ---------------------------------------------------------------------------
-- The property and the condition
-- ---------------------------------------------------------------------------

/-- The field of a request, over that of the edited rule. -/
def requested (payload old : Entries) (key : String) : Json := (merged old payload key).getD .null

def denotedSuffix (value : Json) : Option Nat :=
  match ipAddress (suffixCandidate
    (stripChars ['[', ']'] (Unicode.lower (cleanSavedValue value)))) with
  | some (.v6 address) => some (address % 2 ^ 64)
  | _ => none

def requestedSuffix (payload old : Entries) : Json :=
  .str (Unicode.lower (cleanSavedValue (requested payload old "targetIpv6Suffix")))

/-- The agent accepts the rule and reads its suffix as the Hub did. -/
def Agrees (payload old : Entries) (rule : Rule) : Prop :=
  ∃ applied, Relay.acceptRule rule.toJson = some applied ∧
    (rule.targetMode = "ipv6_suffix" → ∃ iid,
      denotedSuffix (requestedSuffix payload old) = some iid ∧
        Relay.suffixBytes applied.targetIpv6Suffix = .ok iid)

/-- What the agent asks of a request beyond the checks of the Hub. -/
structure AgentReady (payload old : Entries) : Prop where
  name : (Relay.trim (takeChars 64 (cleanSavedValue (requested payload old "name")))).utf8ByteSize
    ≤ 64
  expiresAt : ∀ n, portmapEpoch (requested payload old "expiresAt") = some n → n < 2 ^ 64
  ipv4 : requestedMode (requested payload old) = "6to4" →
    ∀ value, ipAddress (cleanSavedValue (requested payload old "targetIpv4")) = some (.v4 value) →
      Relay.isLan value = true
  ipv6 : requestedMode (requested payload old) = "6to6" →
    Unicode.lower (cleanSavedValue (requested payload old "targetMode")) = "ipv6_full" →
      '%' ∉ (stripChars ['[', ']'] (cleanSavedValue (requested payload old "targetIpv6"))).toList

-- ---------------------------------------------------------------------------
-- Identifiers
-- ---------------------------------------------------------------------------

omit [Unicode] in
theorem slugChar_of_mem_hyphenate {inside : Bool} {cs : List Char} {c : Char}
    (h : c ∈ hyphenate inside cs) : slugChar c = true := by
  induction cs generalizing inside with
  | nil => cases h
  | cons d cs ih =>
    simp only [hyphenate] at h
    split at h
    · rename_i hd
      rcases List.mem_cons.mp h with rfl | h
      · exact hd
      · exact ih h
    · split at h
      · exact ih h
      · rcases List.mem_cons.mp h with rfl | h
        · decide
        · exact ih h

omit [Unicode] in
theorem mem_stripChars {chars : List Char} {s : String} {c : Char}
    (h : c ∈ (stripChars chars s).toList) : c ∈ s.toList := by
  rw [stripChars, String.toList_ofList] at h
  exact (List.dropWhile_sublist _).subset ((List.rdropWhile_prefix _ (l := _)).subset h)

omit [Unicode] in
theorem mem_takeChars {n : Nat} {s : String} {c : Char} (h : c ∈ (takeChars n s).toList) :
    c ∈ s.toList := by
  rw [takeChars, String.toList_ofList] at h
  exact List.mem_of_mem_take h

omit [Unicode] in
theorem slugChar_ascii {c : Char} (h : slugChar c = true) : c.toNat < 128 := by
  simp only [slugChar, Char.isAlphanum, isAlpha_eq, Bool.or_eq_true, beq_iff_eq] at h
  rcases h with ((((h | h) | h) | rfl) | rfl)
  · have hrange : 65 ≤ c.toNat ∧ c.toNat ≤ 90 := by
      simpa [isUpper_eq, UInt32.le_iff_toNat_le, ← Char.toNat_val] using h
    omega
  · have hrange : 97 ≤ c.toNat ∧ c.toNat ≤ 122 := by
      simpa [isLower_eq, UInt32.le_iff_toNat_le, ← Char.toNat_val] using h
    omega
  · have hrange : 48 ≤ c.toNat ∧ c.toNat ≤ 57 := Char.isDigit_iff_toNat.mp h
    omega
  · decide
  · decide

omit [Unicode] in
theorem isKeptIdChar_toLower {c : Char} (h : slugChar c = true) :
    Relay.isKeptIdChar c.toLower = true := by
  have hall : ∀ n < 128, slugChar (Char.ofNat n) = true →
      Relay.isKeptIdChar (Char.ofNat n).toLower = true := by decide +kernel
  have hc := hall c.toNat (slugChar_ascii h)
  rw [Char.ofNat_toNat] at hc
  exact hc h

theorem isKeptIdChar_slug {s : String} {c : Char} (h : c ∈ (slug s).toList) :
    Relay.isKeptIdChar c = true := by
  have hkept : ∀ d ∈ (stripChars ['-'] (String.ofList (hyphenate false (strip s).toList))).toList,
      slugChar d = true := by
    intro d hd
    have hmem := mem_stripChars hd
    rw [String.toList_ofList] at hmem
    exact slugChar_of_mem_hyphenate hmem
  have hmem := mem_takeChars h
  rw [Unicode.lower_ascii _ (List.all_eq_true.mpr fun d hd => by
    simpa using slugChar_ascii (hkept d hd)), asciiLower, String.toList_ofList] at hmem
  obtain ⟨d, hd, rfl⟩ := List.mem_map.mp hmem
  exact isKeptIdChar_toLower (hkept d hd)

omit [Unicode] in
theorem isKeptIdChar_toDigits {n : Nat} {c : Char} (h : c ∈ Nat.toDigits 16 n) :
    Relay.isKeptIdChar c = true := by
  have hdigit : ∀ m < 16, Relay.isKeptIdChar (Nat.digitChar m) = true := by decide
  have hcore : ∀ fuel m cs, (∀ d ∈ cs, Relay.isKeptIdChar d = true) →
      ∀ d ∈ Nat.toDigitsCore 16 fuel m cs, Relay.isKeptIdChar d = true := by
    intro fuel
    induction fuel with
    | zero => exact fun m cs hcs => hcs
    | succ fuel ih =>
      intro m cs hcs
      have hcons : ∀ d ∈ (m % 16).digitChar :: cs, Relay.isKeptIdChar d = true :=
        List.forall_mem_cons.mpr ⟨hdigit _ (Nat.mod_lt _ (by decide)), hcs⟩
      rw [Nat.toDigitsCore]
      split
      · exact hcons
      · exact ih _ _ hcons
  exact hcore _ _ _ (by simp) c h

omit [Unicode] in
theorem isKeptIdChar_freshId (r : Readings) {c : Char} (h : c ∈ r.freshId.toList) :
    Relay.isKeptIdChar c = true := by
  have hepoch : (toString r.epoch).toList = Nat.toDigits 10 r.epoch := Nat.toList_repr
  simp only [Readings.freshId, hexDigits, String.toList_append, hepoch, String.toList_ofList,
    List.mem_append] at h
  have hmarks : ∀ d ∈ "pm-".toList ++ "-".toList, Relay.isKeptIdChar d = true :=
    List.all_eq_true.mp (by decide)
  rcases h with ((h | h) | h) | h
  · exact hmarks c (List.mem_append_left _ h)
  · have hdigit := isDigit_toDigits c h
    simp [Relay.isKeptIdChar, hdigit]
  · exact hmarks c (List.mem_append_right _ h)
  · rcases h with h | h
    · rw [List.eq_of_mem_replicate h]
      decide
    · exact isKeptIdChar_toDigits h

theorem portmapRuleId_kept (value : Json) (r : Readings) :
    portmapRuleId value r.freshId ≠ "" ∧
      ∀ c ∈ (portmapRuleId value r.freshId).toList, Relay.isKeptIdChar c = true := by
  rw [portmapRuleId]
  split
  · refine ⟨fun hempty => ?_, fun c hc => isKeptIdChar_freshId r hc⟩
    have hlist := congrArg String.toList hempty
    simp only [Readings.freshId, String.toList_append] at hlist
    exact absurd hlist (by simp)
  · rename_i hne
    exact ⟨hne, fun c hc => isKeptIdChar_slug hc⟩

-- ---------------------------------------------------------------------------
-- Addresses
-- ---------------------------------------------------------------------------

omit [Unicode] in
theorem isMac_chars {part : List Char} {c : Char}
    (hpart : (part.all fun c => c.isDigit || ('a' ≤ c && c ≤ 'f')) = true) (hc : c ∈ part) :
    Relay.isPlain c = true ∧ Relay.isHex c = true ∧ c.utf8Size = 1 := by
  have hall : ∀ n < 128, ((Char.ofNat n).isDigit || ('a' ≤ Char.ofNat n && Char.ofNat n ≤ 'f')) →
      Relay.isPlain (Char.ofNat n) = true ∧ Relay.isHex (Char.ofNat n) = true ∧
        (Char.ofNat n).utf8Size = 1 := by decide +kernel
  have hchar := List.all_eq_true.mp hpart c hc
  have hlt : c.toNat < 128 := by
    simp only [Bool.or_eq_true, Bool.and_eq_true, decide_eq_true_eq] at hchar
    rcases hchar with hd | ⟨-, hf⟩
    · have hrange : 48 ≤ c.toNat ∧ c.toNat ≤ 57 := Char.isDigit_iff_toNat.mp hd
      omega
    · have hle : c.toNat ≤ 102 := UInt32.le_iff_toNat_le.mp hf
      omega
  have hclass := hall c.toNat hlt
  rw [Char.ofNat_toNat] at hclass
  exact hclass hchar

omit [Unicode] in
theorem isMac_agent {s : String} (h : isMac s = true) :
    Relay.normalizeMac s = s ∧ Relay.isMacText s = true := by
  simp only [isMac, Bool.and_eq_true, beq_iff_eq, List.all_eq_true] at h
  obtain ⟨hlen, hparts⟩ := h
  have hchars : ∀ part ∈ splitOn ':' s.toList, ∀ c ∈ part,
      Relay.isPlain c = true ∧ Relay.isHex c = true ∧ c.utf8Size = 1 := fun part hpart c hc =>
    isMac_chars (List.all_eq_true.mpr (hparts part hpart).2) hc
  have hplain : ∀ c ∈ s.toList, Relay.isPlain c = true ∧ c ≠ '-' := by
    intro c hc
    rw [← joinWith_splitOn ':' s.toList] at hc
    rcases mem_joinWith hc with rfl | ⟨part, hpart, hc⟩
    · decide
    · obtain ⟨hp, hhex, -⟩ := hchars part hpart c hc
      refine ⟨hp, ?_⟩
      rintro rfl
      exact absurd hhex (by decide)
  have htexts : ∀ c ∈ s.toList, Relay.isPlain c = true := fun c hc => (hplain c hc).1
  constructor
  · rw [Relay.normalizeMac, Relay.trim_of_strip (Relay.strip_of_plain htexts),
      replaceAll_of_notMem fun hdash => (hplain _ hdash).2 rfl, String.ofList_toList,
      Relay.toAsciiLowercase_of_plain htexts]
  · simp only [Relay.isMacText, hlen, beq_self_eq_true, Bool.true_and, List.all_eq_true,
      Bool.and_eq_true, beq_iff_eq]
    intro part hpart
    refine ⟨?_, fun c hc => (hchars part hpart c hc).2.1⟩
    rw [Relay.utf8ByteSize_ofList_ascii fun c hc => (hchars part hpart c hc).2.2]
    exact (hparts part hpart).1

omit [Unicode] in
theorem stripBrackets_of_plain {s : String} (h : ∀ c ∈ s.toList, Relay.isPlain c = true) :
    Relay.stripBrackets s = s := by
  have hbracket : ∀ d, Relay.isPlain d = false → ∀ c ∈ s.toList, (c == d) = false := fun d hd c hc =>
    beq_eq_false_iff_ne.mpr (Relay.ne_of_isPlain (h c hc) hd)
  rw [Relay.stripBrackets, Relay.trim_of_strip (Relay.strip_of_plain h), Relay.trimStartMatches,
    Relay.trimEndMatches, String.toList_ofList]
  have hleft : s.toList.dropWhile (· == '[') = s.toList := by
    rw [List.dropWhile_eq_self_iff]
    exact fun hlen => by simp [hbracket '[' (by decide) _ (List.getElem_mem hlen)]
  have hright : s.toList.rdropWhile (· == ']') = s.toList := by
    rw [List.rdropWhile_eq_self_iff]
    exact fun hne => by simp [hbracket ']' (by decide) _ (List.getLast_mem hne)]
  rw [hleft, hright, String.ofList_toList]

omit [Unicode] in
theorem isPlain_ofList_ipv6Text (value : Nat) :
    ∀ c ∈ (String.ofList (ipv6Text value)).toList, Relay.isPlain c = true := by
  rw [String.toList_ofList]
  exact fun c hc => Relay.isPlain_ipv6Text hc

omit [Unicode] in
theorem isGlobalScope_eq (value : Nat) : Relay.isGlobalScope value = isTargetIpv6 (.v6 value) := by
  have hlink : (0xfe80 * 65536 ^ 7 : Nat) / 2 ^ (128 - 10) = 0x3fa := by decide
  have hmulticast : (0xff00 * 65536 ^ 7 : Nat) / 2 ^ (128 - 8) = 0xff := by decide
  simp only [Relay.isGlobalScope, isTargetIpv6, IpAddress.version, IpAddress.isLinkLocal,
    IpAddress.isMulticast, IpAddress.isLoopback, IpAddress.isUnspecified, inNetwork, hlink,
    hmulticast, beq_self_eq_true, Bool.true_and]
  grind

omit [Unicode] in
theorem validateIpv6_iff {given : String} {value : Nat} (h : ipAddress given = some (.v6 value))
    (htarget : isTargetIpv6 (.v6 value) = true) :
    Relay.validateIpv6 (Relay.stripBrackets (String.ofList (ipv6Text value ++ scopeText given))) =
      .ok () ↔ '%' ∉ given.toList := by
  have hscope : scopeText given = given.toList.dropWhile (· != '%') := by rw [scopeText, h]
  by_cases hmem : '%' ∈ given.toList
  · have htext : '%' ∈ ipv6Text value ++ scopeText given := by
      rw [hscope]
      exact List.mem_append_right _ (Relay.passes_dropWhile (by decide) _ hmem)
    generalize ipv6Text value ++ scopeText given = text at htext
    have hpass : '%' ∈ (Relay.stripBrackets (Relay.stripBrackets (String.ofList text))).toList := by
      refine Relay.passes_stripBrackets _ (Relay.passes_stripBrackets _ ?_)
      rwa [String.toList_ofList]
    refine iff_of_false (fun hok => ?_) (not_not_intro hmem)
    obtain ⟨address, haddress, -⟩ := Relay.validateIpv6_eq_ok.mp hok
    rw [Relay.parseIpv6Addr_scope hpass] at haddress
    cases haddress
  · have hnone : scopeText given = [] := by
      rw [hscope, List.dropWhile_eq_nil_iff]
      exact fun c hc => bne_iff_ne.mpr fun heq => hmem (heq ▸ hc)
    have hsame := stripBrackets_of_plain (isPlain_ofList_ipv6Text value)
    rw [hnone, List.append_nil, hsame, Relay.validateIpv6_eq_ok, hsame]
    refine iff_of_true ⟨value, Relay.parseIpv6Addr_ipv6Text (ipAddress_v6_lt h), ?_⟩ hmem
    rw [isGlobalScope_eq, htarget]

omit [Unicode] in
theorem suffixBytes_ipv6Text {iid : Nat} (hlt : iid < 2 ^ 64) (hne : iid ≠ 0) :
    Relay.suffixBytes (String.ofList (ipv6Text iid)) = .ok iid := by
  have hplain := isPlain_ofList_ipv6Text iid
  have htrim : Relay.trimMatches (['[', ']'].contains ·)
      (Relay.trim (String.ofList (ipv6Text iid))) = String.ofList (ipv6Text iid) := by
    rw [Relay.trim_of_strip (Relay.strip_of_plain hplain)]
    refine Relay.trimMatches_of_plain (fun c hc => ?_) hplain
    simp [Relay.ne_of_isPlain hc (show Relay.isPlain '[' = false by decide),
      Relay.ne_of_isPlain hc (show Relay.isPlain ']' = false by decide)]
  have hcolons : contains [':', ':'] (String.ofList (ipv6Text iid)).toList = true := by
    rw [String.toList_ofList]
    exact Relay.contains_ipv6Text hlt
  have hmod : iid % 2 ^ 64 = iid := Nat.mod_eq_of_lt hlt
  have hread := Relay.parseIpv6Addr_ipv6Text (Nat.lt_trans hlt (by decide : 2 ^ 64 < 2 ^ 128))
  have hbytes := Relay.suffixBytes_eq_ok htrim hcolons hread (by rwa [hmod])
  rwa [hmod] at hbytes

-- ---------------------------------------------------------------------------
-- The target
-- ---------------------------------------------------------------------------

inductive Aims (src : String → Json) : String → Target → Prop where
  | ipv4 (value : Nat) (h : ipAddress (cleanSavedValue (src "targetIpv4")) = some (.v4 value)) :
    Aims src "6to4" { mode := "ipv4", ipv4 := cleanSavedValue (src "targetIpv4") }
  | full (value : Nat) (target : Target)
    (hmode : Unicode.lower (cleanSavedValue (src "targetMode")) = "ipv6_full")
    (h : ipAddress (stripChars ['[', ']'] (cleanSavedValue (src "targetIpv6"))) = some (.v6 value))
    (hscope : isTargetIpv6 (.v6 value) = true)
    (htarget : target.mode = "ipv6_full" ∧ target.ipv4 = "" ∧ target.suffix = "" ∧
      target.ipv6 = String.ofList (ipv6Text value ++
        scopeText (stripChars ['[', ']'] (cleanSavedValue (src "targetIpv6"))))) :
    Aims src "6to6" target
  | suffix (iid : Nat) (target : Target)
    (hmode : Unicode.lower (cleanSavedValue (src "targetMode")) ≠ "ipv6_full")
    (h : denotedSuffix (.str (Unicode.lower (cleanSavedValue (src "targetIpv6Suffix")))) = some iid)
    (hiid : iid < 2 ^ 64 ∧ iid ≠ 0)
    (htarget : target.mode = "ipv6_suffix" ∧ target.ipv4 = "" ∧ target.ipv6 = "" ∧
      target.suffix = String.ofList (ipv6Text iid)) :
    Aims src "6to6" target

theorem cleanTarget_ok {src : String → Json} {mode : String} {target : Target}
    (hmode : mode = "6to4" ∨ mode = "6to6") (h : cleanTarget mode src = .ok target) :
    Aims src mode target := by
  rcases hmode with rfl | rfl
  · obtain ⟨⟨value, hvalue⟩, rfl⟩ := target6to4_ok h
    exact .ipv4 value hvalue
  · rw [cleanTarget, if_neg (by decide)] at h
    split at h
    · rename_i hfull
      obtain ⟨value, hvalue, hscope, htarget, hipv4, hsuffix, hipv6⟩ := targetFull_ok h
      exact .full value target hfull hvalue hscope ⟨htarget, hipv4, hsuffix, hipv6⟩
    · rename_i hfull
      obtain ⟨hsuffix, hne, htarget, hipv4, hipv6⟩ := targetSuffix_ok h
      obtain ⟨address, haddress, hzero, htext⟩ := normalizeIpv6Suffix_ok hsuffix hne
      refine .suffix (address % 2 ^ 64) target hfull ?_ ⟨Nat.mod_lt _ (by decide), hzero⟩
        ⟨htarget, hipv4, hipv6, htext⟩
      delta denotedSuffix
      rw [haddress]

-- ---------------------------------------------------------------------------
-- The rule on the agent
-- ---------------------------------------------------------------------------

variable {r : Readings} {payload old : Entries} {target : Target} {rule : Rule}

omit [Unicode] in
def Rule.onAgent (rule : Rule) (expiresAt : Option Nat) : Relay.Rule :=
  { id := rule.id, name := rule.name, enabled := rule.enabled, mode := rule.mode
    listenPort := rule.listenPort.toNat, targetMode := rule.targetMode
    targetIpv4 := rule.targetIpv4, targetIpv6 := rule.targetIpv6
    targetIpv6Suffix := rule.targetIpv6Suffix, targetMac := rule.targetMac
    targetPort := rule.targetPort.toNat, transportProtocol := rule.transportProtocol
    serviceType := rule.serviceType, preferCurrentPrefix := rule.preferCurrentPrefix
    expiresAt := expiresAt, maxConnections := rule.maxConnections.toNat
    idleTimeoutSec := rule.idleTimeoutSec.toNat }

omit [Unicode] in
def agentExpiry : Option Int → Option (Option Nat)
  | none => some none
  | some n => (Relay.readUnsigned 64 (.int n)).map some

theorem portmapEpoch_pos {value : Json} {n : Int} (h : portmapEpoch value = some n) : 0 < n := by
  simp only [portmapEpoch, Option.ite_none_left_eq_some, Option.bind_eq_bind,
    Option.bind_eq_some_iff, Option.ite_none_right_eq_some, Option.some.injEq] at h
  obtain ⟨-, _, -, hpos, rfl⟩ := h
  exact hpos

omit [Unicode] in
theorem agentExpiry_isSome_iff {expiresAt : Option Int} (hpos : ∀ n, expiresAt = some n → 0 < n) :
    (∃ e, agentExpiry expiresAt = some e) ↔ ∀ n, expiresAt = some n → n < 2 ^ 64 := by
  cases expiresAt with
  | none => simp [agentExpiry]
  | some n =>
    have hn := hpos n rfl
    simp only [agentExpiry, Relay.readUnsigned, Option.map_eq_some_iff,
      Option.ite_none_right_eq_some, Option.some.injEq, forall_eq']
    exact ⟨fun ⟨_, _, ⟨⟨_, hlt⟩, _⟩, _⟩ => hlt, fun hlt => ⟨_, _, ⟨⟨by omega, hlt⟩, rfl⟩, rfl⟩⟩

omit [Unicode] in
theorem readRule_numbers (rule : Rule) :
    Relay.readRule rule.toJson =
      (Relay.readUnsigned 16 (.int rule.listenPort)).bind fun listenPort =>
        (Relay.readUnsigned 16 (.int rule.targetPort)).bind fun targetPort =>
          (agentExpiry rule.expiresAt).bind fun expiresAt =>
            (Relay.readUnsigned 32 (.int rule.maxConnections)).bind fun maxConnections =>
              (Relay.readUnsigned 64 (.int rule.idleTimeoutSec)).bind fun idleTimeoutSec =>
                some { rule.onAgent expiresAt with
                  listenPort := listenPort, targetPort := targetPort
                  maxConnections := maxConnections, idleTimeoutSec := idleTimeoutSec } := by
  cases hexpiry : rule.expiresAt with
  | none =>
    have hjson : rule = { rule with expiresAt := none } := by rw [← hexpiry]
    rw [hjson]
    rfl
  | some n =>
    have hjson : rule = { rule with expiresAt := some n } := by rw [← hexpiry]
    rw [hjson]
    rfl

theorem readRule_toJson (h : Cleaned r payload old target rule) :
    Relay.readRule rule.toJson = (agentExpiry rule.expiresAt).map rule.onAgent := by
  obtain ⟨hport, hport'⟩ := h.listenPort
  obtain ⟨htarget, htarget'⟩ := h.targetPort
  obtain ⟨hmax, hmax'⟩ := h.maxConnections
  obtain ⟨hidle, hidle'⟩ := h.idleTimeoutSec
  have hlisten : Relay.readUnsigned 16 (.int rule.listenPort) = some rule.listenPort.toNat :=
    if_pos ⟨by omega, by omega⟩
  have htargets : Relay.readUnsigned 16 (.int rule.targetPort) = some rule.targetPort.toNat :=
    if_pos ⟨by omega, by omega⟩
  have hconnections : Relay.readUnsigned 32 (.int rule.maxConnections) =
      some rule.maxConnections.toNat := if_pos ⟨by omega, by omega⟩
  have htimeout : Relay.readUnsigned 64 (.int rule.idleTimeoutSec) =
      some rule.idleTimeoutSec.toNat := if_pos ⟨by omega, by omega⟩
  rw [readRule_numbers, hlisten, htargets, hconnections, htimeout]
  cases agentExpiry rule.expiresAt <;> rfl

theorem normalizeRule_onAgent (h : Cleaned r payload old target rule) (e : Option Nat) :
    Relay.normalizeRule (rule.onAgent e) =
      { rule.onAgent e with
        name := Relay.trim rule.name
        targetIpv6 := Relay.stripBrackets rule.targetIpv6
        serviceType := Relay.trim rule.serviceType } := by
  have hkind : Relay.toAsciiLowercase (Relay.trim "portmap") = "portmap" := by decide
  have hforward : Relay.toAsciiLowercase (Relay.trim "relay_proxy") = "relay_proxy" := by decide
  have hserver : Relay.trim Relay.defaultTcpStunServer = Relay.defaultTcpStunServer := by decide
  have hempty : Relay.trim "" = "" ∧ Relay.normalizeMac "" = "" ∧
      Relay.toAsciiLowercase "" = "" := by decide
  obtain ⟨htrim, hemptyMac, hlower⟩ := hempty
  have hid : Relay.toAsciiLowercase (Relay.trim rule.id) = rule.id := by
    rw [h.id]
    exact ((Relay.kept_id_iff _).mpr (portmapRuleId_kept _ r).2).2
  have hmode : Relay.toAsciiLowercase (Relay.trim rule.mode) = rule.mode := by
    rcases h.modes with hm | hm <;> rw [hm] <;> decide
  have hprotocol : Relay.toAsciiUppercase (Relay.trim rule.transportProtocol) =
      rule.transportProtocol ∧ rule.transportProtocol ≠ "" := by
    rcases h.protocol with hp | hp <;> rw [hp] <;> decide
  have hmac : Relay.normalizeMac rule.targetMac = rule.targetMac := by
    rcases h.mac with hm | hm
    · rw [hm, hemptyMac]
    · exact (isMac_agent hm).1
  obtain ⟨ht, hi4, -, -, hs⟩ := h.target
  have htarget : Relay.toAsciiLowercase (Relay.trim rule.targetMode) = rule.targetMode ∧
      Relay.trim rule.targetIpv4 = rule.targetIpv4 ∧
        Relay.toAsciiLowercase (Relay.trim rule.targetIpv6Suffix) = rule.targetIpv6Suffix := by
    rw [ht, hi4, hs]
    have haims := cleanTarget_ok h.modes h.cleaned
    generalize rule.mode = mode at haims
    cases haims with
    | ipv4 value hv =>
      dsimp only
      refine ⟨by decide, Relay.trim_of_strip (strip_cleanSavedValue _), ?_⟩
      rw [htrim, hlower]
    | full value _ _ _ _ hfields =>
      obtain ⟨hm, hv4, hsuffix, -⟩ := hfields
      rw [hm, hv4, hsuffix]
      decide
    | suffix iid _ _ _ _ hfields =>
      obtain ⟨hm, hv4, -, hsuffix⟩ := hfields
      have hplain := isPlain_ofList_ipv6Text iid
      rw [hm, hv4, hsuffix, Relay.trim_of_strip (Relay.strip_of_plain hplain),
        Relay.toAsciiLowercase_of_plain hplain]
      exact ⟨by decide, htrim, rfl⟩
  have htexts : Relay.normalizeTexts (rule.onAgent e) =
      { rule.onAgent e with
        name := Relay.trim rule.name
        targetIpv6 := Relay.stripBrackets rule.targetIpv6
        serviceType := Relay.trim rule.serviceType } := by
    simp only [Relay.normalizeTexts, Rule.onAgent, hkind, hid, hmode, htarget.1, htarget.2.1,
      htarget.2.2, hmac, hprotocol.1, hforward, hserver, String.reduceEq, reduceIte]
  obtain ⟨hmax, hmax'⟩ := h.maxConnections
  obtain ⟨hidle, hidle'⟩ := h.idleTimeoutSec
  have hconnections : max 1 (min 256 rule.maxConnections.toNat) = rule.maxConnections.toNat := by
    omega
  have htimeout : max 30 (min 3600 rule.idleTimeoutSec.toNat) = rule.idleTimeoutSec.toNat := by
    omega
  simp only [Relay.normalizeRule, htexts]
  simp only [Rule.onAgent, hprotocol.2, hconnections, htimeout, String.reduceEq, reduceIte]

-- ---------------------------------------------------------------------------
-- Agreement
-- ---------------------------------------------------------------------------

theorem validateTarget_iff (h : Cleaned r payload old target rule) (e : Option Nat) :
    Relay.validateTarget (Relay.normalizeRule (rule.onAgent e)) = .ok () ↔
      (requestedMode (requested payload old) = "6to4" →
        ∀ value, ipAddress (cleanSavedValue (requested payload old "targetIpv4")) =
          some (.v4 value) → Relay.isLan value = true) ∧
      (requestedMode (requested payload old) = "6to6" →
        Unicode.lower (cleanSavedValue (requested payload old "targetMode")) = "ipv6_full" →
        '%' ∉ (stripChars ['[', ']'] (cleanSavedValue (requested payload old "targetIpv6"))).toList) :=
    by
  have hrequested : requestedMode (requested payload old) = rule.mode := h.mode.symm
  obtain ⟨ht, hi4, hi6, -, hs⟩ := h.target
  have hfields := normalizeRule_onAgent h e
  generalize Relay.normalizeRule (rule.onAgent e) = applied at hfields ⊢
  have hmode : applied.mode = rule.mode := congrArg Relay.Rule.mode hfields
  have htarget : applied.targetMode = target.mode :=
    (congrArg Relay.Rule.targetMode hfields).trans ht
  have hipv4 : applied.targetIpv4 = target.ipv4 := (congrArg Relay.Rule.targetIpv4 hfields).trans hi4
  have hipv6 : applied.targetIpv6 = Relay.stripBrackets target.ipv6 :=
    (congrArg Relay.Rule.targetIpv6 hfields).trans (congrArg Relay.stripBrackets hi6)
  have hsuffix : applied.targetIpv6Suffix = target.suffix :=
    (congrArg Relay.Rule.targetIpv6Suffix hfields).trans hs
  clear hfields
  rw [hrequested]
  have haims := cleanTarget_ok h.modes h.cleaned
  generalize rule.mode = mode at hmode haims
  cases haims with
  | ipv4 value hv =>
    simp only [Relay.validateTarget, hmode, true_or, if_true, hipv4]
    rw [Relay.validateIpv4, Relay.parseIpv4Addr_of_ipAddress hv, require_eq_ok]
    have hv' : ipAddress (cleanSavedValue (requested payload old "targetIpv4")) =
        some (.v4 value) := hv
    simp [hv']
  | full value _ hfull hv hscope hfields =>
    obtain ⟨hm, -, -, htext⟩ := hfields
    rw [hm] at htarget
    rw [htext] at hipv6
    have hfull' : Unicode.lower (cleanSavedValue (requested payload old "targetMode")) =
        "ipv6_full" := hfull
    simp only [Relay.validateTarget, hmode, htarget, hipv6, String.reduceEq, or_self, if_false,
      if_true, hfull']
    rw [validateIpv6_iff hv hscope]
    simp [requested]
  | suffix iid _ hfull hd hiid hfields =>
    obtain ⟨hm, -, -, htext⟩ := hfields
    rw [hm] at htarget
    rw [htext] at hsuffix
    have hfull' : Unicode.lower (cleanSavedValue (requested payload old "targetMode")) ≠
        "ipv6_full" := hfull
    simp only [Relay.validateTarget, hmode, htarget, hsuffix, String.reduceEq, or_self, if_false,
      if_true, suffixBytes_ipv6Text hiid.1 hiid.2, Except.map]
    simp [hfull']

/-- The rule passes the checks of the agent when the request stays within
what the agent has names and targets for. -/
theorem validateRule_onAgent (h : Cleaned r payload old target rule) (e : Option Nat) :
    Relay.validateRule (Relay.normalizeRule (rule.onAgent e)) 20000 20020 = .ok () ↔
      (Relay.trim rule.name).utf8ByteSize ≤ 64 ∧
        Relay.validateTarget (Relay.normalizeRule (rule.onAgent e)) = .ok () := by
  have hid : rule.id ≠ "" ∧ ∀ c ∈ rule.id.toList, Relay.isIdChar c = true := by
    rw [h.id]
    obtain ⟨hne, hkept⟩ := portmapRuleId_kept
      (((merged old payload "id").getD .null).or (get old "id")) r
    exact ⟨hne, fun c hc => ((Relay.isKeptIdChar_iff c).mp (hkept c hc)).1⟩
  have hname : Relay.trim rule.name ≠ "" := by
    refine Relay.trim_ne_empty h.named fun c hc => ?_
    have hstrip := strip_cleanSavedValue (requested payload old "name")
    rw [Relay.strip_eq_trimMatches, Relay.trimMatches_eq_self_iff] at hstrip
    refine hstrip.1 c ?_
    rw [h.name, takeChars, String.toList_ofList, List.head?_take, if_neg (by decide)] at hc
    exact hc
  have hmac : rule.targetMac = "" ∨ Relay.isMacText rule.targetMac = true :=
    h.mac.imp_right fun hm => (isMac_agent hm).2
  have hlisten : 20000 ≤ rule.listenPort.toNat ∧ rule.listenPort.toNat ≤ 20020 := by
    have := h.listenPort
    omega
  have htarget : rule.targetPort.toNat ≠ 0 := by
    have := h.targetPort
    omega
  rw [Relay.validateRule_eq_ok, normalizeRule_onAgent h]
  simp only [Rule.onAgent]
  constructor
  · rintro ⟨-, hnames, -, -, -, -, -, -, -, hvalid⟩
    exact ⟨hnames.2, hvalid⟩
  · rintro ⟨hnames, hvalid⟩
    exact ⟨hid, ⟨hname, hnames⟩, hmac, hlisten, htarget, h.protocol, .inl trivial,
      .inl (by decide), .inr trivial, hvalid⟩

/-- A rule that the Hub has accepted is accepted by the agent, with the
suffix it denotes, exactly when the request meets the agent's conditions. -/
theorem agrees_iff (h : cleanPortmapRule r payload old = .ok rule) :
    Agrees payload old rule ↔ AgentReady payload old := by
  obtain ⟨target, hcleaned⟩ := cleanPortmapRule_ok h
  have hexpiry : (∃ e, agentExpiry rule.expiresAt = some e) ↔
      ∀ n, portmapEpoch (requested payload old "expiresAt") = some n → n < 2 ^ 64 := by
    rw [hcleaned.expiresAt]
    exact agentExpiry_isSome_iff fun n => portmapEpoch_pos
  have hvalid : ∀ e, Relay.validateRule (Relay.normalizeRule (rule.onAgent e)) 20000 20020 =
      .ok () ↔ _ := fun e => by
    rw [validateRule_onAgent hcleaned e, validateTarget_iff hcleaned]
  rw [hcleaned.name] at hvalid
  constructor
  · rintro ⟨applied, haccept, -⟩
    obtain ⟨given, hread, rfl, hchecked⟩ := Relay.acceptRule_eq_some.mp haccept
    rw [readRule_toJson hcleaned, Option.map_eq_some_iff] at hread
    obtain ⟨e, he, rfl⟩ := hread
    obtain ⟨hname, hipv4, hipv6⟩ := (hvalid e).mp hchecked
    exact ⟨hname, hexpiry.mp ⟨e, he⟩, hipv4, hipv6⟩
  · rintro ⟨hname, hepoch, hipv4, hipv6⟩
    obtain ⟨e, he⟩ := hexpiry.mpr hepoch
    have hread : Relay.readRule rule.toJson = some (rule.onAgent e) := by
      rw [readRule_toJson hcleaned, he, Option.map_some]
    refine ⟨_, Relay.acceptRule_eq_some.mpr
      ⟨_, hread, rfl, (hvalid e).mpr ⟨hname, hipv4, hipv6⟩⟩, fun hsuffix => ?_⟩
    obtain ⟨ht, -, -, -, hs⟩ := hcleaned.target
    rw [ht] at hsuffix
    have haims := cleanTarget_ok hcleaned.modes hcleaned.cleaned
    have htext : (Relay.normalizeRule (rule.onAgent e)).targetIpv6Suffix = target.suffix := by
      rw [normalizeRule_onAgent hcleaned]
      exact hs
    rw [htext]
    generalize rule.mode = mode at haims
    cases haims with
    | ipv4 =>
      dsimp only at hsuffix
      exact absurd hsuffix (by decide)
    | full _ _ _ _ _ hfields => exact absurd (hfields.1.symm.trans hsuffix) (by decide)
    | suffix iid _ _ hd hiid hfields =>
      refine ⟨iid, hd, ?_⟩
      rw [hfields.2.2.2]
      exact suffixBytes_ipv6Text hiid.1 hiid.2

end

section
local instance asciiPortMapAccepted : Unicode := .ascii

def acceptedReadings : Readings := { now := "", epoch := 0, token := 0, timeEpoch := fun _ => none }

def namedBody (name : String) : Entries :=
  [("name", .str name), ("listenPort", .int 20000), ("targetPort", .int 80),
    ("targetIpv4", .str "192.168.1.2")]

theorem agrees_iff_nas : ∃ rule, cleanPortmapRule acceptedReadings (namedBody "nas") [] = .ok rule ∧
    (Agrees (namedBody "nas") [] rule ↔ AgentReady (namedBody "nas") []) := by
  have haccepted : (cleanPortmapRule acceptedReadings (namedBody "nas") []).toBool = true := by
    decide +kernel
  cases hclean : cleanPortmapRule acceptedReadings (namedBody "nas") [] with
  | ok rule => exact ⟨rule, rfl, agrees_iff hclean⟩
  | error e =>
    rw [hclean] at haccepted
    cases haccepted

def longName : String := "家里书房的网络存储服务器远程桌面管理入口映射"

/-- Twenty-two characters are within the limit of the Hub, and sixty-six
bytes beyond that of the agent. -/
theorem long_name_disagrees : ∃ rule,
    cleanPortmapRule acceptedReadings (namedBody longName) [] = .ok rule ∧
      ¬ Agrees (namedBody longName) [] rule := by
  have hrefused : (match cleanPortmapRule acceptedReadings (namedBody longName) [] with
    | .ok rule => (Relay.acceptRule rule.toJson).isNone
    | .error _ => false) = true := by decide +kernel
  cases hclean : cleanPortmapRule acceptedReadings (namedBody longName) [] with
  | ok rule =>
    rw [hclean] at hrefused
    refine ⟨rule, rfl, ?_⟩
    rintro ⟨applied, haccept, -⟩
    have hnone : (Relay.acceptRule rule.toJson).isNone = true := hrefused
    rw [haccept] at hnone
    cases hnone
  | error e =>
    rw [hclean] at hrefused
    cases hrefused

end

end LabProbe.PortMap
