import LabProbe.Hub.Values
import LabProbe.Py.IpAddress
import LabProbe.Router.CredentialRefresh
import LabProbe.Router.Rpc

/-!
# The IPv6 settings of the router

`map_config` reads the settings out of a `network6` configuration, and
`merge_config` writes the requested ones into it. Both look at the first row of
`wan6` and of `lan` that is an object; a row may also stand without a list
around it.
-/

namespace LabProbe.Router.Ipv6

open Py Py.Json Credentials

-- ---------------------------------------------------------------------------
-- Reading values
-- ---------------------------------------------------------------------------

def trueValues : List String := ["1", "true", "on", "yes", "enabled", "server", "relay"]

def falseValues : List String := ["0", "false", "off", "no", "disabled", "none", ""]

def manualTypes : List String := ["manual", "admin", "static"]

def firstMapping : Json → Entries
  | .dict d => d
  | .list xs => (xs.findSome? dict?).getD []
  | _ => []

def isDnsSeparator (c : Char) : Bool := c = ',' || c = ';' || isSpace c

section
variable [Unicode]

def lowerText (value : Json) : String := Unicode.lower (Hub.text value)

def integer? (value : Json) : Option Int := parseInt (strip value.toStr)

def integer (value : Json) (default : Int) : Int := (integer? value).getD default

def flag? : Json → Option Bool
  | .bool b => some b
  | value =>
    if trueValues.contains (lowerText value) then some true
    else if falseValues.contains (lowerText value) then some false
    else none

def flag (value : Json) (default : Bool) : Bool := (flag? value).getD default

def dnsCandidates : Json → List Json
  | .list xs => xs
  | value => ((Hub.text value).toList.splitOnP isDnsSeparator).map fun cs => .str (String.ofList cs)

def addAddress (result : List String) (candidate : Json) : List String :=
  let address := Hub.text candidate
  if address ≠ "" ∧ address ∉ result then result ++ [address] else result

def splitDns (value : Json) : List String := (dnsCandidates value).foldl addAddress []

-- ---------------------------------------------------------------------------
-- `map_config`
-- ---------------------------------------------------------------------------

structure WanIpv6Config where
  proto : String
  ifname : String
  dns : List String
  dnsType : String
  relay : Bool
  deriving DecidableEq

structure LanIpv6Config where
  prefixLength : Int
  dhcpv6Server : Bool
  slaac : Bool
  dhcpv6Type : String
  ra : Bool
  raManagement : String
  leaseMinutes : Int
  relay : Bool
  deriving DecidableEq

structure Ipv6Config where
  wan : WanIpv6Config
  lan : LanIpv6Config
  deriving DecidableEq

omit [Unicode] in
/-- `text or default`. -/
def orDefault (text default : String) : String := if text = "" then default else text

def hasSlaac (value : Json) : Bool := contains "slaac".toList (lowerText value).toList

def isServer (value : Json) : Bool := lowerText value == "server" || flag value false

def mapWan (wan : Entries) : WanIpv6Config where
  proto := orDefault (Hub.text (get wan "proto")) "dhcpv6"
  ifname := orDefault (Hub.text (get wan "ifname")) "@wan"
  dns := splitDns (get wan "dns")
  dnsType := if manualTypes.contains (lowerText (get wan "dnsType")) then "manual" else "auto"
  relay := flag (get wan "relay") false

def mapLan (lan : Entries) : LanIpv6Config where
  prefixLength := integer (get lan "ip6assign") 64
  dhcpv6Server := isServer (get lan "dhcpv6")
  slaac := hasSlaac (get lan "dhcpv6Type")
  dhcpv6Type := orDefault (Hub.text (get lan "dhcpv6Type")) "DHCPv6+SLAAC"
  ra := isServer (get lan "ra")
  raManagement := orDefault (Hub.text (get lan "ra_management")) "0"
  leaseMinutes := integer (get lan "leasetime6") 120
  relay := flag (get lan "relay") false

def mapConfig (raw : Json) : Ipv6Config where
  wan := mapWan (firstMapping (get raw.asDict "wan6"))
  lan := mapLan (firstMapping (get raw.asDict "lan"))

-- ---------------------------------------------------------------------------
-- `merge_config`
-- ---------------------------------------------------------------------------

omit [Unicode] in
def requireMapping (root : Entries) (key : String) : Except String Entries :=
  match get root key with
  | .dict d => .ok d
  | _ => .error s!"缺少 {key} IPv6 配置"

omit [Unicode] in
def isIpv6Address (address : String) : Bool :=
  !address.toList.contains '/' && (parseIpv6 address.toList).isSome

def validateDns (value : Json) (manual : Bool) : Except String (List String) := do
  let addresses := splitDns value
  Check.require (!(manual && addresses.isEmpty)) "手动 DNS 至少需要填写一个 IPv6 地址"
  Check.require (addresses.length ≤ 4) "IPv6 DNS 最多填写 4 个地址"
  match addresses.find? fun address => !isIpv6Address address with
  | some address => .error s!"IPv6 DNS 地址无效：{address}"
  | none => .ok addresses

omit [Unicode] in
def joinDns (addresses : List String) : String :=
  String.ofList (joinWith ',' (addresses.map (·.toList)))

omit [Unicode] in
def dhcpv6Type (server slaac : Bool) : String :=
  if server && slaac then "DHCPv6+SLAAC"
  else if server then "DHCPv6"
  else if slaac then "SLAAC"
  else "disabled"

def protoOf (request current : Entries) : String :=
  lowerText ((get request "proto").or (get current "proto"))

def dnsTypeOf (request current : Entries) : String :=
  lowerText ((get request "dnsType").or (get current "dnsType"))

def isManual (request current : Entries) : Bool := manualTypes.contains (dnsTypeOf request current)

def wanFields (request current : Entries) : Except String (List (String × String)) := do
  let proto := protoOf request current
  Check.require (["dhcpv6", "relay"].contains proto) "WAN IPv6 模式仅支持 DHCPv6 或 IPv6 中继"
  let dnsType := dnsTypeOf request current
  let manual := isManual request current
  Check.require (["auto", "manual", "admin", "static"].contains dnsType) "IPv6 DNS 模式无效"
  let dns ← validateDns (getD request "dns" (get current "dns")) manual
  let relay := proto == "relay" || flag (get request "relay") false
  return [("proto", proto), ("dnsType", if manual then "admin" else "auto"),
    ("dns", if manual then joinDns dns else ""), ("relay", if relay then "1" else "0")]

def lanFields (request current : Entries) : Except String (List (String × String)) := do
  let prefixLength := integer (get request "ip6assign") (integer (get current "ip6assign") 64)
  Check.require (1 ≤ prefixLength ∧ prefixLength ≤ 128) "IPv6 Prefix 长度必须在 1 到 128 之间"
  let leaseMinutes := integer (get request "leasetime6") (integer (get current "leasetime6") 120)
  Check.require (1 ≤ leaseMinutes ∧ leaseMinutes ≤ 10080) "DHCPv6 租期必须在 1 到 10080 分钟之间"
  let server := flag (getD request "dhcpv6Server" (get request "dhcpv6"))
    (flag (get current "dhcpv6") false)
  let slaac := flag (get request "slaac") (hasSlaac (get current "dhcpv6Type"))
  let ra := flag (get request "ra") (flag (get current "ra") false)
  return [("ip6assign", toString prefixLength),
    ("dhcpv6", if server then "server" else "disabled"),
    ("dhcpv6Type", dhcpv6Type server slaac),
    ("ra", if ra then "server" else "disabled"),
    ("ra_management",
      orDefault (Hub.text (get request "ra_management")) (if server then "1" else "0")),
    ("leasetime6", toString leaseMinutes)]

omit [Unicode] in
def setFields (row : Entries) (fields : List (String × String)) : Entries :=
  Dict.update row (fields.map fun e => (e.1, .str e.2))

omit [Unicode] in
/-- The row is put at the head of the table, whichever row it was read from. -/
def setFirst (root : Entries) (key : String) (row : Entries) : Entries :=
  match get root key with
  | .list (_ :: xs) => Dict.set root key (.list (.dict row :: xs))
  | _ => Dict.set root key (.list [.dict row])

def mergeConfig (current requested : Json) : Except String Json :=
  match current, requested with
  | .dict merged, .dict requested => do
    let wanRequest ← requireMapping requested "wan"
    let lanRequest ← requireMapping requested "lan"
    let wanCurrent := firstMapping (get merged "wan6")
    let lanCurrent := firstMapping (get merged "lan")
    Check.require (!wanCurrent.isEmpty && !lanCurrent.isEmpty) "路由器 network6 缺少 WAN 或 LAN 配置"
    let wan := setFields wanCurrent (← wanFields wanRequest wanCurrent)
    let lan := setFields lanCurrent (← lanFields lanRequest lanCurrent)
    return withoutRuntimeFields (.dict (setFirst (setFirst merged "wan6" wan) "lan" lan))
  | .dict _, _ => .error "IPv6 配置请求格式无效"
  | _, _ => .error "路由器未返回完整 network6 配置"

-- ---------------------------------------------------------------------------
-- Reading back what was written
-- ---------------------------------------------------------------------------

theorem lowerText_word {s : String} (hascii : s.toList.all (fun c => c.toNat < 128))
    (hstrip : strip s = s) : lowerText (.str s) = asciiLower s := by
  rw [lowerText, Hub.text_str, hstrip, Unicode.lower_ascii s hascii]

theorem flag?_word {s : String} (hascii : s.toList.all (fun c => c.toNat < 128))
    (hstrip : strip s = s) : flag? (.str s) =
      if trueValues.contains (asciiLower s) then some true
      else if falseValues.contains (asciiLower s) then some false
      else none := by
  rw [flag?, lowerText_word hascii hstrip]
  simp

theorem flag?_null : flag? .null = some false := by
  have htext : lowerText .null = "" := by
    have hnull : Hub.text .null = "" := strip_empty
    rw [lowerText, hnull, Unicode.lower_ascii "" rfl]
    rfl
  simp [flag?, htext, trueValues, falseValues]

theorem isServer_eq (value : Json) : isServer value = flag value false := by
  unfold isServer
  by_cases h : lowerText value = "server"
  · cases value with
    | bool b =>
      cases b with
      | true => simp [flag, flag?]
      | false =>
        have htext : lowerText (.bool false) = asciiLower "" := by
          have hfalse : Hub.text (.bool false) = "" := strip_empty
          rw [lowerText, hfalse, Unicode.lower_ascii "" rfl]
        rw [htext] at h
        exact absurd h (by decide)
    | _ => simp [h, flag, flag?, trueValues]
  · simp [h]

theorem isServer_word (on : Bool) :
    isServer (.str (if on then "server" else "disabled")) = on := by
  rw [isServer_eq, flag]
  cases on
  · rw [flag?_word (by decide) (by decide)]
    decide
  · rw [flag?_word (by decide) (by decide)]
    decide

theorem flag_bit (on : Bool) : flag (.str (if on then "1" else "0")) false = on := by
  rw [flag]
  cases on
  · rw [flag?_word (by decide) (by decide)]
    decide
  · rw [flag?_word (by decide) (by decide)]
    decide

theorem hasSlaac_type (server slaac : Bool) : hasSlaac (.str (dhcpv6Type server slaac)) = slaac := by
  rw [hasSlaac]
  cases server <;> cases slaac <;>
    (rw [lowerText_word (by decide) (by decide)]; decide)

theorem integer?_toString {n : Int} (hn : 0 ≤ n) (hsmall : n < 10 ^ 5) :
    integer? (.str (toString n)) = some n := by
  obtain ⟨m, rfl⟩ := Int.eq_ofNat_of_zero_le hn
  have hdigits : (toString (m : Int)).toList = Nat.toDigits 10 m := Nat.toList_repr
  have hstrip : strip (toString (m : Int)) = toString (m : Int) :=
    strip_of_noSpace fun c hc => isSpace_of_isDigit (isDigit_toDigits c (hdigits ▸ hc))
  have htext : toStr (.str (toString (m : Int))) = toString (m : Int) := rfl
  rw [integer?, htext, hstrip]
  exact parseInt_toString (natAbs_lt_limit (by omega))

-- ---------------------------------------------------------------------------
-- The list of DNS servers
-- ---------------------------------------------------------------------------

/-- The address holds no separator, so it stays one when it is written in a list. -/
def Clean (address : String) : Prop := ∀ c ∈ address.toList, isDnsSeparator c = false

omit [Unicode] in
theorem strip_clean {address : String} (h : Clean address) : strip address = address :=
  strip_of_noSpace fun c hc => by
    have hsep := h c hc
    simp only [isDnsSeparator, Bool.or_eq_false_iff] at hsep
    exact hsep.2

omit [Unicode] in
theorem splitOnP_clean {p : Char → Bool} {cs word : List Char} (h : word ∈ cs.splitOnP p) :
    ∀ c ∈ word, p c = false := by
  induction cs generalizing word with
  | nil => simp_all
  | cons c cs ih =>
    rw [List.splitOnP_cons_eq_if_modifyHead] at h
    split at h
    · rcases List.mem_cons.mp h with rfl | h
      · simp
      · exact ih h
    · rename_i hc
      obtain ⟨first, rest, hsplit⟩ := List.exists_cons_of_ne_nil (List.splitOnP_ne_nil p cs)
      rw [hsplit, List.modifyHead_cons] at h
      rcases List.mem_cons.mp h with rfl | h
      · rw [List.forall_mem_cons]
        exact ⟨by simpa using hc, ih (hsplit ▸ List.mem_cons_self)⟩
      · exact ih (hsplit ▸ List.mem_cons_of_mem _ h)

omit [Unicode] in
theorem splitOnP_joinWith {p : Char → Bool} {sep : Char} (hsep : p sep = true)
    {words : List (List Char)} (hne : words ≠ []) (h : ∀ word ∈ words, ∀ c ∈ word, p c = false) :
    (joinWith sep words).splitOnP p = words := by
  induction words with
  | nil => exact absurd rfl hne
  | cons word words ih =>
    obtain ⟨hword, hwords⟩ := List.forall_mem_cons.mp h
    have hone : joinWith sep [word] = word := by simp [joinWith]
    by_cases hnil : words = []
    · rw [hnil, hone, List.splitOnP_eq_singleton hword]
    · rw [← List.singleton_append, joinWith_append (by simp) hnil, hone,
        List.splitOnP_append_cons word _ hsep, List.splitOnP_eq_singleton hword, ih hnil hwords]

theorem foldl_addAddress {candidates : List Json} {result : List String} (hr : result.Nodup)
    (hne : "" ∉ result) :
    (candidates.foldl addAddress result).Nodup ∧ "" ∉ candidates.foldl addAddress result ∧
      ∀ a ∈ candidates.foldl addAddress result, a ∈ result ∨ ∃ v ∈ candidates, Hub.text v = a := by
  induction candidates generalizing result with
  | nil => simp [hr, hne]
  | cons v candidates ih =>
    rw [List.foldl_cons]
    by_cases hnew : Hub.text v ≠ "" ∧ Hub.text v ∉ result
    · have hadd : addAddress result v = result ++ [Hub.text v] := if_pos hnew
      have hsnoc : (result ++ [Hub.text v]).Nodup := by
        rw [List.nodup_append]
        refine ⟨hr, by simp, ?_⟩
        rintro a ha b hb rfl
        exact hnew.2 (List.mem_singleton.mp hb ▸ ha)
      obtain ⟨hnodup, hempty, hall⟩ := ih hsnoc (by simp [hne, Ne.symm hnew.1])
      rw [hadd]
      refine ⟨hnodup, hempty, fun a ha => ?_⟩
      rcases hall a ha with h | ⟨w, hw, rfl⟩
      · rcases List.mem_append.mp h with h | h
        · exact .inl h
        · exact .inr ⟨v, List.mem_cons_self, (List.mem_singleton.mp h).symm⟩
      · exact .inr ⟨w, List.mem_cons_of_mem _ hw, rfl⟩
    · have hadd : addAddress result v = result := if_neg hnew
      obtain ⟨hnodup, hempty, hall⟩ := ih hr hne
      rw [hadd]
      refine ⟨hnodup, hempty, fun a ha => (hall a ha).imp_right ?_⟩
      rintro ⟨w, hw, rfl⟩
      exact ⟨w, List.mem_cons_of_mem _ hw, rfl⟩

theorem foldl_addAddress_self {addresses result : List String} (h : (result ++ addresses).Nodup)
    (hne : "" ∉ addresses) (hstrip : ∀ a ∈ addresses, strip a = a) :
    (addresses.map Json.str).foldl addAddress result = result ++ addresses := by
  induction addresses generalizing result with
  | nil => simp
  | cons a addresses ih =>
    obtain ⟨ha, hrest⟩ := List.forall_mem_cons.mp hstrip
    obtain ⟨hempty, hne⟩ := not_or.mp (mt List.mem_cons.mpr hne)
    have hnotin : a ∉ result := fun hm =>
      (List.nodup_append.mp h).2.2 a hm a List.mem_cons_self rfl
    have hadd : addAddress result (.str a) = result ++ [a] := by
      rw [addAddress, Hub.text_str, ha]
      exact if_pos ⟨Ne.symm hempty, hnotin⟩
    rw [List.map_cons, List.foldl_cons, hadd, ih (by simpa using h) hne hrest]
    simp

theorem splitDns_nodup (value : Json) : (splitDns value).Nodup :=
  (foldl_addAddress List.nodup_nil (by simp)).1

theorem splitDns_ne_empty (value : Json) : "" ∉ splitDns value :=
  (foldl_addAddress List.nodup_nil (by simp)).2.1

theorem splitDns_clean {s : String} : ∀ a ∈ splitDns (.str s), Clean a := by
  intro a ha
  obtain h | ⟨v, hv, rfl⟩ := (foldl_addAddress List.nodup_nil (by simp)).2.2 a ha
  · simp at h
  · obtain ⟨word, hword, rfl⟩ := List.mem_map.mp hv
    intro c hc
    rw [Hub.text_str] at hc
    exact splitOnP_clean hword c (by simpa using mem_strip hc)

theorem splitDns_empty : splitDns (.str "") = [] := by
  have hstrip : Hub.text (.str "") = "" := strip_empty
  simp [splitDns, dnsCandidates, hstrip, addAddress]

theorem splitDns_join {addresses : List String} (hnodup : addresses.Nodup) (hne : "" ∉ addresses)
    (h : ∀ a ∈ addresses, Clean a) : splitDns (.str (joinDns addresses)) = addresses := by
  by_cases hnil : addresses = []
  · subst hnil
    exact splitDns_empty
  · have hsep : isDnsSeparator ',' = true := by decide
    have htext : Hub.text (.str (joinDns addresses)) = joinDns addresses := by
      rw [Hub.text_str, strip_of_noSpace]
      intro c hc
      rw [joinDns, String.toList_ofList] at hc
      rcases mem_joinWith hc with rfl | ⟨word, hword, hc⟩
      · decide
      · obtain ⟨a, ha, rfl⟩ := List.mem_map.mp hword
        have hclean := h a ha c hc
        simp only [isDnsSeparator, Bool.or_eq_false_iff] at hclean
        exact hclean.2
    have hwords : (joinDns addresses).toList.splitOnP isDnsSeparator =
        addresses.map (·.toList) := by
      rw [joinDns, String.toList_ofList]
      apply splitOnP_joinWith hsep (by simpa using hnil)
      intro word hword
      obtain ⟨a, ha, rfl⟩ := List.mem_map.mp hword
      exact h a ha
    have hcandidates : dnsCandidates (.str (joinDns addresses)) = addresses.map Json.str := by
      simp [dnsCandidates, htext, hwords]
    rw [splitDns, hcandidates, foldl_addAddress_self (by simpa using hnodup) hne
      fun a ha => strip_clean (h a ha)]
    simp

end

end LabProbe.Router.Ipv6
