import LabProbe.Router.Ipv6Mapper

/-!
# What a merge of IPv6 settings keeps

A merge changes the controlled fields of the first row of the WAN and of the LAN
and drops the runtime fields. A request asks for some of the settings; the others
are to stay as `map_config` reads them, and the same request again is to change
nothing. A setting of the LAN that is left out of a request reads as switched off.
-/

namespace LabProbe.Router.Ipv6

open Py Py.Json Credentials

-- ---------------------------------------------------------------------------
-- Tables and rows
-- ---------------------------------------------------------------------------

/-- A row without a list around it is a table of one row. -/
def tableRows : Json → List Json
  | .dict d => [.dict d]
  | .list xs => xs
  | _ => []

def wanControlled : List String := ["proto", "dnsType", "dns", "relay"]

def lanControlled : List String :=
  ["ip6assign", "dhcpv6", "dhcpv6Type", "ra", "ra_management", "leasetime6"]

/-- The tables differ in the controlled fields of their first rows only. -/
def FirstRowOnly (controlled : List String) (before after : Json) : Prop :=
  ∃ row row' rest, tableRows before = .dict row :: rest ∧ tableRows after = .dict row' :: rest ∧
    ∀ key ∉ controlled, Dict.get? row' key = Dict.get? row key

def FirstIsRow (table : Json) : Prop := ∃ row rest, tableRows table = .dict row :: rest

@[simp] theorem tableRows_list (xs : List Json) : tableRows (.list xs) = xs := rfl

@[simp] theorem withoutRuntimeFields_dict (d : Entries) :
    withoutRuntimeFields (.dict d) = .dict (rewriteEntries id d) := rfl

theorem tableRows_withoutRuntimeFields (value : Json) :
    tableRows (withoutRuntimeFields value) = (tableRows value).map withoutRuntimeFields := by
  cases value <;> simp [withoutRuntimeFields, rewrite, tableRows, rewriteList_eq]

theorem firstMapping_of_tableRows {value : Json} {row : Entries} {rest : List Json}
    (h : tableRows value = .dict row :: rest) : firstMapping value = row := by
  cases value with
  | list xs =>
    rw [tableRows_list] at h
    rw [h]
    rfl
  | dict d =>
    cases h
    rfl
  | _ => simp [tableRows] at h

theorem firstIsRow_withoutRuntimeFields {value : Json} :
    FirstIsRow (withoutRuntimeFields value) ↔ FirstIsRow value := by
  unfold FirstIsRow
  rw [tableRows_withoutRuntimeFields]
  cases tableRows value with
  | nil => simp
  | cons x xs => cases x <;> simp [withoutRuntimeFields, rewrite]

theorem get_setFirst (root : Entries) (key : String) (row : Entries) :
    get (setFirst root key row) key = .list (.dict row :: (tableRows (get root key)).tail) := by
  unfold setFirst
  split
  · rename_i hget
    simp [get_set, hget, tableRows]
  · rename_i hget
    rw [get_set, if_pos rfl]
    cases hvalue : get root key with
    | list xs =>
      cases xs with
      | nil => rfl
      | cons x xs => exact absurd hvalue (hget x xs)
    | _ => rfl

theorem get?_setFirst_of_ne (root : Entries) {key other : String} (row : Entries) (h : key ≠ other) :
    Dict.get? (setFirst root key row) other = Dict.get? root other := by
  unfold setFirst
  split <;> simp [h]

def sentRow (row : Entries) (fields : List (String × String)) : Entries :=
  rewriteEntries id (setFields row fields)

section
variable {row : Entries} {fields : List (String × String)}

theorem keys_fields :
    Dict.keys (fields.map fun e => (e.1, Json.str e.2)) = Dict.keys fields := by
  simp [Dict.keys]

theorem get?_sentRow (hfields : (Dict.keys fields).Nodup)
    (hruntime : ∀ key ∈ Dict.keys fields, runtimeFields.contains key = false) :
    ∀ e ∈ fields, Dict.get? (sentRow row fields) e.1 = some (.str e.2) := by
  intro e he
  have hkey : e.1 ∈ Dict.keys fields := List.mem_map_of_mem he
  have hmem : (e.1, Json.str e.2) ∈ fields.map fun e => (e.1, Json.str e.2) :=
    List.mem_map_of_mem he
  have hset : Dict.get? (setFields row fields) e.1 = some (.str e.2) :=
    Dict.get?_update_of_mem row (by rwa [keys_fields]) hmem
  rw [sentRow, get?_rewriteEntries, hruntime e.1 hkey, hset]
  simp [rewrite]

theorem get?_sentRow_of_notMem {key : String} (h : key ∉ Dict.keys fields) :
    Dict.get? (sentRow row fields) key = Dict.get? (rewriteEntries id row) key := by
  rw [sentRow, get?_rewriteEntries, get?_rewriteEntries, setFields,
    Dict.get?_update_of_notMem row (by rwa [keys_fields])]

/-- The first row is the one that is read where it is an object, and nowhere else is
only the first row changed. -/
theorem firstRowOnly_iff {before : Json} {controlled : List String}
    (hkeys : Dict.keys fields = controlled) :
    FirstRowOnly controlled (withoutRuntimeFields before)
      (.list (.dict (sentRow (firstMapping before) fields) ::
        (tableRows before).tail.map withoutRuntimeFields)) ↔ FirstIsRow before := by
  constructor
  · rintro ⟨row, row', rest, hbefore, -, -⟩
    exact firstIsRow_withoutRuntimeFields.mp ⟨row, rest, hbefore⟩
  · rintro ⟨row, rest, hbefore⟩
    refine ⟨rewriteEntries id row, sentRow row fields, rest.map withoutRuntimeFields, ?_, ?_, ?_⟩
    · simp [tableRows_withoutRuntimeFields, hbefore]
    · simp [hbefore, firstMapping_of_tableRows hbefore]
    · intro key hkey
      exact get?_sentRow_of_notMem (by rwa [hkeys])

end

-- ---------------------------------------------------------------------------
-- What a request asks for
-- ---------------------------------------------------------------------------

section
variable [Unicode]

def askedProto (request : Entries) : Option String :=
  if (get request "proto").truthy then some (lowerText (get request "proto")) else none

def askedDnsType (request : Entries) : Option String :=
  if (get request "dnsType").truthy then
    some (if manualTypes.contains (lowerText (get request "dnsType")) then "manual" else "auto")
  else none

def askedDns (request : Entries) : Option (List String) :=
  (Dict.get? request "dns").map splitDns

def askedFlag (request : Entries) (key : String) : Option Bool :=
  (Dict.get? request key).bind flag?

omit [Unicode] in
def serverValue (request : Entries) : Option Json :=
  (Dict.get? request "dhcpv6Server").or (Dict.get? request "dhcpv6")

def askedManagement (request : Entries) : Option String :=
  if Hub.text (get request "ra_management") = "" then none
  else some (Hub.text (get request "ra_management"))

structure WanFollows (request : Entries) (before after : WanIpv6Config) : Prop where
  proto : after.proto = (askedProto request).getD before.proto
  dnsType : after.dnsType = (askedDnsType request).getD before.dnsType
  dns : after.dns = (askedDns request).getD before.dns
  relay : ∀ relay ∈ askedFlag request "relay", after.relay = relay

structure LanFollows (request : Entries) (before after : LanIpv6Config) : Prop where
  prefixLength : after.prefixLength = (integer? (get request "ip6assign")).getD before.prefixLength
  leaseMinutes : after.leaseMinutes = (integer? (get request "leasetime6")).getD before.leaseMinutes
  dhcpv6Server : after.dhcpv6Server = ((serverValue request).bind flag?).getD before.dhcpv6Server
  slaac : after.slaac = (askedFlag request "slaac").getD before.slaac
  ra : after.ra = (askedFlag request "ra").getD before.ra
  raManagement : ∀ text ∈ askedManagement request, after.raManagement = text

-- ---------------------------------------------------------------------------
-- The row of the WAN
-- ---------------------------------------------------------------------------

def dnsOf (request current : Entries) : List String :=
  splitDns (getD request "dns" (get current "dns"))

/-- In manual mode the addresses can be written as a list, and in automatic mode
there are none. -/
def DnsKept (request current : Entries) : Prop :=
  if isManual request current then ∀ a ∈ dnsOf request current, Clean a
  else dnsOf request current = []

structure WanAsked (request current : Entries) : Prop where
  proto : askedProto request = none → lowerText (get current "proto") = Hub.text (get current "proto")
  dns : DnsKept request current
  relay : askedFlag request "relay" = some false → protoOf request current ≠ "relay"

structure WanSet (request current : Entries) (fields : List (String × String)) : Prop where
  proto : protoOf request current = "dhcpv6" ∨ protoOf request current = "relay"
  dnsType : dnsTypeOf request current ∈ ["auto", "manual", "admin", "static"]
  dns : validateDns (getD request "dns" (get current "dns")) (isManual request current) =
    .ok (dnsOf request current)
  fields : fields = [("proto", protoOf request current),
    ("dnsType", if isManual request current then "admin" else "auto"),
    ("dns", if isManual request current then joinDns (dnsOf request current) else ""),
    ("relay", if protoOf request current == "relay" || flag (get request "relay") false then "1"
      else "0")]

theorem validateDns_ok {value : Json} {manual : Bool} {addresses : List String}
    (h : validateDns value manual = .ok addresses) : addresses = splitDns value := by
  simp only [validateDns, Check.bind_eq_ok] at h
  obtain ⟨_, -, _, -, h⟩ := h
  split at h
  · cases h
  · exact (Except.ok.inj h).symm

theorem validateDns_congr {value value' : Json} (manual : Bool) (h : splitDns value = splitDns value') :
    validateDns value manual = validateDns value' manual := by
  simp only [validateDns, h]

theorem wanFields_iff {request current : Entries} {fields : List (String × String)} :
    wanFields request current = .ok fields ↔ WanSet request current fields := by
  constructor
  · intro h
    simp only [wanFields, Check.bind_eq_ok, Check.require_eq_ok] at h
    obtain ⟨_, hproto, _, htype, dns, hdns, h⟩ := h
    have hsplit := validateDns_ok hdns
    rw [hsplit] at hdns
    constructor
    · simpa using hproto
    · simpa using htype
    · exact hdns
    · rw [← Except.ok.inj h, hsplit]
      rfl
  · rintro ⟨hproto, htype, hdns, rfl⟩
    simp only [wanFields, Check.bind_eq_ok, Check.require_eq_ok]
    exact ⟨(), by simpa using hproto, (), by simpa using htype, _, hdns, rfl⟩

variable {request current row : Entries} {fields : List (String × String)}

theorem WanSet.keys (h : WanSet request current fields) : Dict.keys fields = wanControlled := by
  rw [h.fields]
  rfl

def Holds (row : Entries) (fields : List (String × String)) : Prop :=
  ∀ e ∈ fields, Dict.get? row e.1 = some (.str e.2)

omit [Unicode] in
theorem Holds.get {key text : String} (h : Holds row fields) (hmem : (key, text) ∈ fields) :
    get row key = .str text := by
  rw [Json.get, h _ hmem, Option.getD_some]

theorem WanSet.proto_word (h : WanSet request current fields) :
    lowerText (.str (protoOf request current)) = protoOf request current ∧
      Hub.text (.str (protoOf request current)) = protoOf request current ∧
        protoOf request current ≠ "" := by
  rcases h.proto with hproto | hproto <;> rw [hproto, lowerText_word (by decide) (by decide)] <;>
    exact ⟨by decide, by rw [Hub.text_str]; decide, by decide⟩

theorem manual_word (manual : Bool) :
    manualTypes.contains (lowerText (.str (if manual then "admin" else "auto"))) = manual := by
  cases manual
  · rw [lowerText_word (by decide) (by decide)]
    decide
  · rw [lowerText_word (by decide) (by decide)]
    decide

theorem WanSet.written (h : WanSet request current fields) (hrow : Holds row fields) :
    get row "proto" = .str (protoOf request current) ∧
      get row "dnsType" = .str (if isManual request current then "admin" else "auto") ∧
      get row "dns" =
        .str (if isManual request current then joinDns (dnsOf request current) else "") ∧
      get row "relay" =
        .str (if protoOf request current == "relay" || flag (get request "relay") false then "1"
          else "0") :=
  ⟨hrow.get (by simp [h.fields]), hrow.get (by simp [h.fields]), hrow.get (by simp [h.fields]),
    hrow.get (by simp [h.fields])⟩

theorem WanSet.mapWan (h : WanSet request current fields) (hrow : Holds row fields) :
    (mapWan row).proto = protoOf request current ∧
      (mapWan row).dnsType = (if isManual request current then "manual" else "auto") ∧
      (mapWan row).dns =
        splitDns (.str (if isManual request current then joinDns (dnsOf request current) else "")) ∧
      (mapWan row).relay =
        (protoOf request current == "relay" || flag (get request "relay") false) := by
  obtain ⟨-, htext, hne⟩ := h.proto_word
  obtain ⟨hproto, htype, hdns, hrelay⟩ := h.written hrow
  refine ⟨?_, ?_, ?_, ?_⟩
  · simp [Ipv6.mapWan, hproto, htext, orDefault, hne]
  · simp only [Ipv6.mapWan, htype, manual_word]
  · simp only [Ipv6.mapWan, hdns]
  · simp only [Ipv6.mapWan, hrelay, flag_bit]

theorem flag_get (request : Entries) (key : String) :
    flag (get request key) false = (askedFlag request key).getD false := by
  cases h : Dict.get? request key <;> simp [flag, askedFlag, Json.get, h, flag?_null]

theorem dnsOf_eq (request current : Entries) :
    dnsOf request current = (askedDns request).getD (splitDns (get current "dns")) := by
  cases h : Dict.get? request "dns" <;> simp [dnsOf, askedDns, getD, h]

theorem dnsKept_iff (request current : Entries) :
    splitDns (.str (if isManual request current then joinDns (dnsOf request current) else "")) =
      dnsOf request current ↔ DnsKept request current := by
  unfold DnsKept
  split
  · constructor
    · intro h
      rw [← h]
      exact splitDns_clean
    · exact splitDns_join (splitDns_nodup _) (splitDns_ne_empty _)
  · rw [splitDns_empty, eq_comm]

theorem wanFollows_iff (h : WanSet request current fields) (hrow : Holds row fields) :
    WanFollows request (mapWan current) (mapWan row) ↔ WanAsked request current := by
  obtain ⟨hproto, htype, hdns, hrelay⟩ := h.mapWan hrow
  have hbeforeDns : (mapWan current).dns = splitDns (get current "dns") := rfl
  have hprotoIff : (mapWan row).proto = (askedProto request).getD (mapWan current).proto ↔
      (askedProto request = none →
        lowerText (get current "proto") = Hub.text (get current "proto")) := by
    rw [hproto]
    unfold askedProto
    cases htruthy : (get request "proto").truthy with
    | true => simp [protoOf, or_of_truthy htruthy]
    | false =>
      have hcurrent : protoOf request current = lowerText (get current "proto") := by
        rw [protoOf, or_of_falsy htruthy]
      have hne : Hub.text (get current "proto") ≠ "" := by
        intro hempty
        have hlower : protoOf request current = "" := by
          rw [hcurrent, lowerText, hempty, Unicode.lower_ascii "" rfl]
          rfl
        exact h.proto_word.2.2 hlower
      have hbefore : (mapWan current).proto = Hub.text (get current "proto") := by
        simp only [Ipv6.mapWan, orDefault, hne, if_false]
      rw [hbefore, hcurrent]
      simp
  have htypeAlways : (mapWan row).dnsType = (askedDnsType request).getD (mapWan current).dnsType := by
    rw [htype]
    unfold askedDnsType isManual dnsTypeOf
    cases htruthy : (get request "dnsType").truthy with
    | true =>
      rw [or_of_truthy htruthy]
      rfl
    | false =>
      rw [or_of_falsy htruthy]
      rfl
  have hdnsIff : (mapWan row).dns = (askedDns request).getD (mapWan current).dns ↔
      DnsKept request current := by
    rw [hdns, hbeforeDns, ← dnsOf_eq, dnsKept_iff]
  have hrelayIff : (∀ relay ∈ askedFlag request "relay", (mapWan row).relay = relay) ↔
      (askedFlag request "relay" = some false → protoOf request current ≠ "relay") := by
    rw [hrelay, flag_get]
    cases askedFlag request "relay" with
    | none => simp
    | some on => cases on <;> simp
  constructor
  · intro hf
    exact ⟨hprotoIff.mp hf.proto, hdnsIff.mp hf.dns, hrelayIff.mp hf.relay⟩
  · intro ha
    exact ⟨hprotoIff.mpr ha.proto, htypeAlways, hdnsIff.mpr ha.dns, hrelayIff.mpr ha.relay⟩

theorem WanSet.again (h : WanSet request current fields) (hkept : DnsKept request current)
    (hrow : Holds row fields) : WanSet request row fields := by
  obtain ⟨hrowProto, hrowType, hrowDns, -⟩ := h.written hrow
  have hproto : protoOf request row = protoOf request current := by
    cases htruthy : (get request "proto").truthy with
    | true => simp only [protoOf, or_of_truthy htruthy]
    | false => rw [protoOf, or_of_falsy htruthy, hrowProto, h.proto_word.1]
  have hmanual : isManual request row = isManual request current := by
    cases htruthy : (get request "dnsType").truthy with
    | true => simp only [isManual, dnsTypeOf, or_of_truthy htruthy]
    | false => rw [isManual, dnsTypeOf, or_of_falsy htruthy, hrowType, manual_word]
  have htype : dnsTypeOf request row ∈ ["auto", "manual", "admin", "static"] := by
    cases htruthy : (get request "dnsType").truthy with
    | true =>
      have hsame : dnsTypeOf request row = dnsTypeOf request current := by
        simp only [dnsTypeOf, or_of_truthy htruthy]
      rw [hsame]
      exact h.dnsType
    | false =>
      rw [dnsTypeOf, or_of_falsy htruthy, hrowType]
      split
      · rw [lowerText_word (by decide) (by decide)]
        decide
      · rw [lowerText_word (by decide) (by decide)]
        decide
  have hdns : dnsOf request row = dnsOf request current := by
    cases hasked : askedDns request with
    | some addresses => simp only [dnsOf_eq, hasked, Option.getD_some]
    | none => rw [dnsOf_eq, hasked, Option.getD_none, hrowDns, (dnsKept_iff request current).mpr hkept]
  constructor
  · rw [hproto]
    exact h.proto
  · exact htype
  · rw [hmanual, hdns, ← h.dns]
    exact validateDns_congr _ hdns
  · rw [hproto, hmanual, hdns]
    exact h.fields

-- ---------------------------------------------------------------------------
-- The row of the LAN
-- ---------------------------------------------------------------------------

def prefixOf (request current : Entries) : Int :=
  integer (get request "ip6assign") (integer (get current "ip6assign") 64)

def leaseOf (request current : Entries) : Int :=
  integer (get request "leasetime6") (integer (get current "leasetime6") 120)

def serverOf (request current : Entries) : Bool :=
  flag (getD request "dhcpv6Server" (get request "dhcpv6")) (flag (get current "dhcpv6") false)

def slaacOf (request current : Entries) : Bool :=
  flag (get request "slaac") (hasSlaac (get current "dhcpv6Type"))

def raOf (request current : Entries) : Bool :=
  flag (get request "ra") (flag (get current "ra") false)

structure LanSet (request current : Entries) (fields : List (String × String)) : Prop where
  prefixLength : 1 ≤ prefixOf request current ∧ prefixOf request current ≤ 128
  leaseMinutes : 1 ≤ leaseOf request current ∧ leaseOf request current ≤ 10080
  fields : fields = [("ip6assign", toString (prefixOf request current)),
    ("dhcpv6", if serverOf request current then "server" else "disabled"),
    ("dhcpv6Type", dhcpv6Type (serverOf request current) (slaacOf request current)),
    ("ra", if raOf request current then "server" else "disabled"),
    ("ra_management", orDefault (Hub.text (get request "ra_management"))
      (if serverOf request current then "1" else "0")),
    ("leasetime6", toString (leaseOf request current))]

theorem lanFields_iff : lanFields request current = .ok fields ↔ LanSet request current fields := by
  constructor
  · intro h
    simp only [lanFields, Check.bind_eq_ok, Check.require_eq_ok] at h
    obtain ⟨_, hassign, _, hlease, h⟩ := h
    exact ⟨of_decide_eq_true hassign, of_decide_eq_true hlease, (Except.ok.inj h).symm⟩
  · rintro ⟨hassign, hlease, rfl⟩
    simp only [lanFields, Check.bind_eq_ok, Check.require_eq_ok]
    exact ⟨(), decide_eq_true hassign, (), decide_eq_true hlease, rfl⟩

theorem LanSet.keys (h : LanSet request current fields) : Dict.keys fields = lanControlled := by
  rw [h.fields]
  rfl

structure LanAsked (request current : Entries) : Prop where
  dhcpv6Server : serverValue request = none → flag (get current "dhcpv6") false = false
  slaac : Dict.get? request "slaac" = none → hasSlaac (get current "dhcpv6Type") = false
  ra : Dict.get? request "ra" = none → flag (get current "ra") false = false

theorem integer_written {n default : Int} (hlow : 1 ≤ n) (hhigh : n ≤ 10080) :
    integer (.str (toString n)) default = n := by
  rw [integer, integer?_toString (by omega) (by omega), Option.getD_some]

theorem LanSet.mapLan (h : LanSet request current fields) (hrow : Holds row fields) :
    (mapLan row).prefixLength = prefixOf request current ∧
      (mapLan row).leaseMinutes = leaseOf request current ∧
      (mapLan row).dhcpv6Server = serverOf request current ∧
      (mapLan row).slaac = slaacOf request current ∧ (mapLan row).ra = raOf request current ∧
      ∀ text ∈ askedManagement request, (mapLan row).raManagement = text := by
  have hassign : get row "ip6assign" = .str (toString (prefixOf request current)) :=
    hrow.get (by simp [h.fields])
  have hlease : get row "leasetime6" = .str (toString (leaseOf request current)) :=
    hrow.get (by simp [h.fields])
  have hserver : get row "dhcpv6" =
      .str (if serverOf request current then "server" else "disabled") :=
    hrow.get (by simp [h.fields])
  have htype : get row "dhcpv6Type" =
      .str (dhcpv6Type (serverOf request current) (slaacOf request current)) :=
    hrow.get (by simp [h.fields])
  have hra : get row "ra" = .str (if raOf request current then "server" else "disabled") :=
    hrow.get (by simp [h.fields])
  have hmanagement : get row "ra_management" = .str (orDefault
      (Hub.text (get request "ra_management")) (if serverOf request current then "1" else "0")) :=
    hrow.get (by simp [h.fields])
  obtain ⟨hlow, hhigh⟩ := h.prefixLength
  obtain ⟨hleaseLow, hleaseHigh⟩ := h.leaseMinutes
  refine ⟨?_, ?_, ?_, ?_, ?_, ?_⟩
  · simp only [Ipv6.mapLan, hassign, integer_written hlow (show _ ≤ 10080 by omega)]
  · simp only [Ipv6.mapLan, hlease, integer_written hleaseLow hleaseHigh]
  · simp only [Ipv6.mapLan, hserver, isServer_word]
  · simp only [Ipv6.mapLan, htype, hasSlaac_type]
  · simp only [Ipv6.mapLan, hra, isServer_word]
  · intro text htext
    unfold askedManagement at htext
    split at htext
    · simp at htext
    · rename_i hne
      cases htext
      have hread : orDefault (Hub.text (get request "ra_management"))
          (if serverOf request current then "1" else "0") = Hub.text (get request "ra_management") :=
        if_neg hne
      simp only [Ipv6.mapLan, hmanagement, hread, Hub.text_str, Hub.strip_text]
      exact if_neg hne

theorem flag_mentioned (value : Option Json) (default : Bool) :
    flag (value.getD .null) default = (value.bind flag?).getD default ↔
      (value = none → default = false) := by
  cases value with
  | none => simp [flag, flag?_null, eq_comm]
  | some v => simp [flag]

theorem lanFollows_iff (h : LanSet request current fields) (hrow : Holds row fields) :
    LanFollows request (mapLan current) (mapLan row) ↔ LanAsked request current := by
  obtain ⟨hassign, hlease, hserver, hslaac, hra, hmanagement⟩ := h.mapLan hrow
  have hserverValue : getD request "dhcpv6Server" (get request "dhcpv6") =
      (serverValue request).getD .null := by
    unfold serverValue getD Json.get
    cases Dict.get? request "dhcpv6Server" <;> rfl
  have hserverIff : (mapLan row).dhcpv6Server =
      ((serverValue request).bind flag?).getD (mapLan current).dhcpv6Server ↔
        (serverValue request = none → flag (get current "dhcpv6") false = false) := by
    have hbefore : (mapLan current).dhcpv6Server = flag (get current "dhcpv6") false := isServer_eq _
    rw [hserver, hbefore, serverOf, hserverValue]
    exact flag_mentioned _ _
  have hslaacIff : (mapLan row).slaac = (askedFlag request "slaac").getD (mapLan current).slaac ↔
      (Dict.get? request "slaac" = none → hasSlaac (get current "dhcpv6Type") = false) := by
    rw [hslaac]
    exact flag_mentioned _ _
  have hraIff : (mapLan row).ra = (askedFlag request "ra").getD (mapLan current).ra ↔
      (Dict.get? request "ra" = none → flag (get current "ra") false = false) := by
    have hbefore : (mapLan current).ra = flag (get current "ra") false := isServer_eq _
    rw [hra, hbefore]
    exact flag_mentioned _ _
  have hassignAlways : (mapLan row).prefixLength =
      (integer? (get request "ip6assign")).getD (mapLan current).prefixLength := by
    rw [hassign]
    simp only [prefixOf, integer, Ipv6.mapLan]
  have hleaseAlways : (mapLan row).leaseMinutes =
      (integer? (get request "leasetime6")).getD (mapLan current).leaseMinutes := by
    rw [hlease]
    simp only [leaseOf, integer, Ipv6.mapLan]
  constructor
  · intro hf
    exact ⟨hserverIff.mp hf.dhcpv6Server, hslaacIff.mp hf.slaac, hraIff.mp hf.ra⟩
  · intro ha
    exact ⟨hassignAlways, hleaseAlways, hserverIff.mpr ha.dhcpv6Server, hslaacIff.mpr ha.slaac,
      hraIff.mpr ha.ra, hmanagement⟩

theorem LanSet.again (h : LanSet request current fields) (hrow : Holds row fields) :
    LanSet request row fields := by
  obtain ⟨hassign, hlease, hserver, hslaac, hra, -⟩ := h.mapLan hrow
  simp only [Ipv6.mapLan] at hassign hlease hserver hslaac hra
  have hflag : ∀ value default, flag value (flag value default) = flag value default := by
    intro value default
    cases hread : flag? value <;> simp [flag, hread]
  have hint : ∀ value default, integer value (integer value default) = integer value default := by
    intro value default
    cases hread : integer? value <;> simp [integer, hread]
  have hassignAgain : prefixOf request row = prefixOf request current := by
    rw [prefixOf, hassign]
    exact hint _ _
  have hleaseAgain : leaseOf request row = leaseOf request current := by
    rw [leaseOf, hlease]
    exact hint _ _
  have hserverAgain : serverOf request row = serverOf request current := by
    rw [serverOf, ← isServer_eq, hserver]
    exact hflag _ _
  have hslaacAgain : slaacOf request row = slaacOf request current := by
    rw [slaacOf, hslaac]
    exact hflag _ _
  have hraAgain : raOf request row = raOf request current := by
    rw [raOf, ← isServer_eq, hra]
    exact hflag _ _
  constructor
  · rw [hassignAgain]
    exact h.prefixLength
  · rw [hleaseAgain]
    exact h.leaseMinutes
  · rw [hassignAgain, hleaseAgain, hserverAgain, hslaacAgain, hraAgain]
    exact h.fields

-- ---------------------------------------------------------------------------
-- The whole configuration
-- ---------------------------------------------------------------------------

variable {merged : Entries} {wan lan : List (String × String)}

omit [Unicode] in
def sent (merged : Entries) (wan lan : List (String × String)) : Entries :=
  rewriteEntries id
    (setFirst (setFirst merged "wan6" (setFields (firstMapping (get merged "wan6")) wan)) "lan"
      (setFields (firstMapping (get merged "lan")) lan))

omit [Unicode] in
theorem get_rewriteEntries {key : String} (d : Entries) (h : runtimeFields.contains key = false) :
    get (rewriteEntries id d) key = withoutRuntimeFields (get d key) := by
  simp only [Json.get, get?_rewriteEntries, h, Bool.false_eq_true, if_false]
  cases Dict.get? d key <;> rfl

omit [Unicode] in
theorem get?_sent_of_notMem {key : String} (h : key ∉ ["wan6", "lan"]) :
    Dict.get? (sent merged wan lan) key = Dict.get? (rewriteEntries id merged) key := by
  obtain ⟨hwan, hlan⟩ : ¬key = "wan6" ∧ ¬key = "lan" := by simpa using h
  rw [sent, get?_rewriteEntries, get?_rewriteEntries, get?_setFirst_of_ne _ _ (Ne.symm hlan),
    get?_setFirst_of_ne _ _ (Ne.symm hwan)]

omit [Unicode] in
theorem get_setFirst_of_ne (root : Entries) {key other : String} (row : Entries) (h : key ≠ other) :
    get (setFirst root key row) other = get root other := by
  rw [Json.get, get?_setFirst_of_ne _ _ h, Json.get]

omit [Unicode] in
theorem get_sent_wan : get (sent merged wan lan) "wan6" =
    .list (.dict (sentRow (firstMapping (get merged "wan6")) wan) ::
      (tableRows (get merged "wan6")).tail.map withoutRuntimeFields) := by
  rw [sent, get_rewriteEntries _ (by decide), get_setFirst_of_ne _ _ (by decide), get_setFirst]
  simp [withoutRuntimeFields, rewrite, rewriteList_eq, sentRow]

omit [Unicode] in
theorem get_sent_lan : get (sent merged wan lan) "lan" =
    .list (.dict (sentRow (firstMapping (get merged "lan")) lan) ::
      (tableRows (get merged "lan")).tail.map withoutRuntimeFields) := by
  rw [sent, get_rewriteEntries _ (by decide), get_setFirst, get_setFirst_of_ne _ _ (by decide)]
  simp [withoutRuntimeFields, rewrite, rewriteList_eq, sentRow]

omit [Unicode] in
theorem setFirst_self {root row : Entries} {key : String} {rest : List Json}
    (h : get root key = .list (.dict row :: rest)) : setFirst root key row = root := by
  simp only [setFirst, h]
  apply Dict.set_eq_self
  unfold Json.get at h
  cases hget : Dict.get? root key with
  | none => simp [hget] at h
  | some value => simpa [hget] using h

omit [Unicode] in
theorem rewriteEntries_sent : rewriteEntries id (sent merged wan lan) = sent merged wan lan := by
  have hagain := @rewrite_rewrite id id (.dict (setFirst (setFirst merged "wan6"
    (setFields (firstMapping (get merged "wan6")) wan)) "lan"
      (setFields (firstMapping (get merged "lan")) lan)))
  exact Json.dict.inj hagain

theorem mergeConfig_dict {request : Entries} {result : Json} :
    mergeConfig (.dict merged) (.dict request) = .ok result ↔
      ∃ wanRequest lanRequest wan lan, get request "wan" = .dict wanRequest ∧
        get request "lan" = .dict lanRequest ∧
        firstMapping (get merged "wan6") ≠ [] ∧ firstMapping (get merged "lan") ≠ [] ∧
        WanSet wanRequest (firstMapping (get merged "wan6")) wan ∧
        LanSet lanRequest (firstMapping (get merged "lan")) lan ∧
        result = .dict (sent merged wan lan) := by
  have hmapping : ∀ {key d}, requireMapping request key = .ok d ↔ get request key = .dict d := by
    intro key d
    unfold requireMapping
    cases get request key <;> simp
  simp only [mergeConfig, Check.bind_eq_ok, Check.require_eq_ok, hmapping, wanFields_iff,
    lanFields_iff]
  constructor
  · rintro ⟨wanRequest, hwan, lanRequest, hlan, _, hrows, wan, hwanSet, lan, hlanSet, h⟩
    obtain ⟨hwanRow, hlanRow⟩ : firstMapping (get merged "wan6") ≠ [] ∧
        firstMapping (get merged "lan") ≠ [] := by simpa using hrows
    exact ⟨wanRequest, lanRequest, wan, lan, hwan, hlan, hwanRow, hlanRow, hwanSet, hlanSet,
      (Except.ok.inj h).symm⟩
  · rintro ⟨wanRequest, lanRequest, wan, lan, hwan, hlan, hwanRow, hlanRow, hwanSet, hlanSet, rfl⟩
    exact ⟨wanRequest, hwan, lanRequest, hlan, (), by simp [hwanRow, hlanRow], wan, hwanSet, lan,
      hlanSet, rfl⟩

omit [Unicode] in
theorem holds_sentRow (hkeys : Dict.keys fields = wanControlled ∨ Dict.keys fields = lanControlled) :
    Holds (sentRow row fields) fields := by
  refine get?_sentRow ?_ ?_ <;>
    (rcases hkeys with hkeys | hkeys <;> rw [hkeys] <;> decide)

theorem mergeConfig_again {request wanRequest lanRequest : Entries}
    (hwanRequest : get request "wan" = .dict wanRequest)
    (hlanRequest : get request "lan" = .dict lanRequest)
    (hwan : WanSet wanRequest (firstMapping (get merged "wan6")) wan)
    (hlan : LanSet lanRequest (firstMapping (get merged "lan")) lan)
    (hkept : DnsKept wanRequest (firstMapping (get merged "wan6"))) :
    mergeConfig (.dict (sent merged wan lan)) (.dict request) = .ok (.dict (sent merged wan lan)) := by
  have hwanRow : Holds (sentRow (firstMapping (get merged "wan6")) wan) wan :=
    holds_sentRow (.inl hwan.keys)
  have hlanRow : Holds (sentRow (firstMapping (get merged "lan")) lan) lan :=
    holds_sentRow (.inr hlan.keys)
  have hwanFirst : firstMapping (get (sent merged wan lan) "wan6") =
      sentRow (firstMapping (get merged "wan6")) wan :=
    firstMapping_of_tableRows (by rw [get_sent_wan, tableRows_list])
  have hlanFirst : firstMapping (get (sent merged wan lan) "lan") =
      sentRow (firstMapping (get merged "lan")) lan :=
    firstMapping_of_tableRows (by rw [get_sent_lan, tableRows_list])
  have hset : ∀ {row : Entries} {fields : List (String × String)}, Holds row fields →
      setFields row fields = row := by
    intro row fields hrow
    refine Dict.update_eq_self fun e he => ?_
    obtain ⟨f, hf, rfl⟩ := List.mem_map.mp he
    exact hrow f hf
  have hne : ∀ {row : Entries} {fields : List (String × String)}, Holds row fields → fields ≠ [] →
      row ≠ [] := by
    rintro row fields hrow hfields rfl
    obtain ⟨e, rest, rfl⟩ := List.exists_cons_of_ne_nil hfields
    simpa using hrow e List.mem_cons_self
  -- the rows are those that were written, so nothing is set anew
  have hsent : sent (sent merged wan lan) wan lan = sent merged wan lan := by
    rw [sent, hwanFirst, hlanFirst, hset hwanRow, hset hlanRow, setFirst_self get_sent_wan,
      setFirst_self get_sent_lan, rewriteEntries_sent]
  refine mergeConfig_dict.mpr ⟨wanRequest, lanRequest, wan, lan, hwanRequest, hlanRequest, ?_⟩
  rw [hwanFirst, hlanFirst, hsent]
  exact ⟨hne hwanRow (by simp [hwan.fields]), hne hlanRow (by simp [hlan.fields]),
    hwan.again hkept hwanRow, hlan.again hlanRow, rfl⟩

/-- What a merge is for: it changes the first rows only, the settings follow the
request, and the request has nothing more to change. -/
structure Merged (current requested result : Json) : Prop where
  others : ∀ key ∉ ["wan6", "lan"],
    Dict.get? result.asDict key = Dict.get? (withoutRuntimeFields current).asDict key
  wanRows : FirstRowOnly wanControlled (get (withoutRuntimeFields current).asDict "wan6")
    (get result.asDict "wan6")
  lanRows : FirstRowOnly lanControlled (get (withoutRuntimeFields current).asDict "lan")
    (get result.asDict "lan")
  wan : WanFollows (get requested.asDict "wan").asDict (mapConfig current).wan (mapConfig result).wan
  lan : LanFollows (get requested.asDict "lan").asDict (mapConfig current).lan (mapConfig result).lan
  again : mergeConfig result requested = .ok result

/-- The tables begin with the rows that are read, and the request says what it has
to say. -/
structure Asked (current requested : Json) : Prop where
  wanRow : FirstIsRow (get current.asDict "wan6")
  lanRow : FirstIsRow (get current.asDict "lan")
  wan : WanAsked (get requested.asDict "wan").asDict (firstMapping (get current.asDict "wan6"))
  lan : LanAsked (get requested.asDict "lan").asDict (firstMapping (get current.asDict "lan"))

theorem merge_config_iff (current requested result : Json)
    (h : mergeConfig current requested = .ok result) :
    Merged current requested result ↔ Asked current requested := by
  obtain ⟨merged, rfl⟩ : ∃ merged, current = .dict merged := by
    cases current <;> simp [mergeConfig] at h
    exact ⟨_, rfl⟩
  obtain ⟨request, rfl⟩ : ∃ request, requested = .dict request := by
    cases requested <;> simp [mergeConfig] at h
    exact ⟨_, rfl⟩
  obtain ⟨wanRequest, lanRequest, wan, lan, hwanRequest, hlanRequest, -, -, hwan, hlan, rfl⟩ :=
    mergeConfig_dict.mp h
  have hwanRow : Holds (sentRow (firstMapping (get merged "wan6")) wan) wan :=
    holds_sentRow (.inl hwan.keys)
  have hlanRow : Holds (sentRow (firstMapping (get merged "lan")) lan) lan :=
    holds_sentRow (.inr hlan.keys)
  have hwanRows := @firstRowOnly_iff wan (get merged "wan6") wanControlled hwan.keys
  have hlanRows := @firstRowOnly_iff lan (get merged "lan") lanControlled hlan.keys
  have hwanFollows := wanFollows_iff hwan hwanRow
  have hlanFollows := lanFollows_iff hlan hlanRow
  have hresult : mapConfig (.dict (sent merged wan lan)) =
      ⟨mapWan (sentRow (firstMapping (get merged "wan6")) wan),
        mapLan (sentRow (firstMapping (get merged "lan")) lan)⟩ := by
    rw [mapConfig, asDict_dict, get_sent_wan, get_sent_lan]
    rfl
  rw [← @get_sent_wan merged wan lan, ← get_rewriteEntries merged (by decide)] at hwanRows
  rw [← @get_sent_lan merged wan lan, ← get_rewriteEntries merged (by decide)] at hlanRows
  constructor
  · rintro ⟨-, hwr, hlr, hwf, hlf, -⟩
    simp only [asDict_dict, withoutRuntimeFields_dict] at hwr hlr
    simp only [asDict_dict, hwanRequest, hlanRequest, hresult] at hwf hlf
    constructor <;> simp only [asDict_dict, hwanRequest, hlanRequest]
    · exact hwanRows.mp hwr
    · exact hlanRows.mp hlr
    · exact hwanFollows.mp hwf
    · exact hlanFollows.mp hlf
  · rintro ⟨hwr, hlr, hwa, hla⟩
    simp only [asDict_dict, hwanRequest, hlanRequest] at hwr hlr hwa hla
    constructor
    · intro key hkey
      simp only [asDict_dict, withoutRuntimeFields_dict]
      exact get?_sent_of_notMem hkey
    · simp only [asDict_dict, withoutRuntimeFields_dict]
      exact hwanRows.mpr hwr
    · simp only [asDict_dict, withoutRuntimeFields_dict]
      exact hlanRows.mpr hlr
    · simp only [asDict_dict, hwanRequest, hresult]
      exact hwanFollows.mpr hwa
    · simp only [asDict_dict, hlanRequest, hresult]
      exact hlanFollows.mpr hla
    · exact mergeConfig_again hwanRequest hlanRequest hwan hlan hwa.dns

end

section
local instance : Unicode := .ascii

def lanRow (prefixLength dhcpv6 dhcpv6Type ra management lease : String) : Json :=
  .dict [("ip6assign", .str prefixLength), ("ip6class", .str "keep-lan-class"),
    ("dhcpv6", .str dhcpv6), ("dhcpv6Type", .str dhcpv6Type), ("ra", .str ra),
    ("ra_management", .str management), ("leasetime6", .str lease), ("unknownLan", .str "keep-lan")]

def wanRow (proto dns dnsType relay : String) : Json :=
  .dict [("proto", .str proto), ("ifname", .str "@wan"), ("dns", .str dns),
    ("dnsType", .str dnsType), ("relay", .str relay), ("unknownWan", .str "keep-wan")]

def network6 : Json :=
  .dict [("wan6Num", .str "1"),
    ("lan", .list [lanRow "64" "server" "DHCPv6+SLAAC" "server" "1" "120"]),
    ("wan6", .list [wanRow "dhcpv6" "" "auto" "0"]),
    ("unknownTop", .dict [("preserve", .bool true)]), ("configTime", .str "123")]

def fullRequest : Json :=
  .dict [("wan", .dict [("proto", .str "relay"), ("relay", .bool true), ("dnsType", .str "manual"),
      ("dns", .list [.str "2400:3200::1"])]),
    ("lan", .dict [("dhcpv6Server", .bool false), ("slaac", .bool true), ("ra", .bool true),
      ("ip6assign", .int 60), ("leasetime6", .int 240)])]

def relayed : Json :=
  .dict [("wan6Num", .str "1"),
    ("lan", .list [lanRow "60" "disabled" "SLAAC" "server" "0" "240"]),
    ("wan6", .list [wanRow "relay" "2400:3200::1" "admin" "1"]),
    ("unknownTop", .dict [("preserve", .bool true)])]

theorem merge_config_iff_relayed :
    Merged network6 fullRequest relayed ↔ Asked network6 fullRequest :=
  merge_config_iff network6 fullRequest relayed (by decide +kernel)

def prefixRequest : Json := .dict [("wan", .dict []), ("lan", .dict [("ip6assign", .int 60)])]

/-- A request for another length of the prefix switches IPv6 off in the LAN. -/
theorem merge_config_partial :
    mergeConfig network6 prefixRequest = .ok (.dict [("wan6Num", .str "1"),
        ("lan", .list [lanRow "60" "disabled" "disabled" "disabled" "0" "120"]),
        ("wan6", .list [wanRow "dhcpv6" "" "auto" "0"]),
        ("unknownTop", .dict [("preserve", .bool true)])]) ∧
      ¬Merged network6 prefixRequest (.dict [("wan6Num", .str "1"),
        ("lan", .list [lanRow "60" "disabled" "disabled" "disabled" "0" "120"]),
        ("wan6", .list [wanRow "dhcpv6" "" "auto" "0"]),
        ("unknownTop", .dict [("preserve", .bool true)])]) := by
  refine ⟨by decide +kernel, fun h => ?_⟩
  have hserver := h.lan.dhcpv6Server
  revert hserver
  decide +kernel

end

end LabProbe.Router.Ipv6
