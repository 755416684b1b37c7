import LabProbe.Agent.Details
import LabProbe.Agent.Slices

/-!
# Sensitive keys in the details of a report

The sections of the details have fixed keys, and the network configuration
comes out of the sanitiser without a sensitive key. The ports, the wireless
part and single fields of the others are copied with all that is in them: the
details are clean if and only if those are.
-/

namespace LabProbe.Agent

open Py Py.Json

variable {s : Sources} {d map values : Entries} {value : Json} {o : Option Json} {key : String}

/-- No object at any depth has a key that the sanitiser would leave out. -/
def NoSecrets (value : Json) : Prop :=
  ∀ object ∈ objects value, ∀ key ∈ Dict.keys object, isSensitive key = false

/-- A value of the sources that the details take as it stands. -/
inductive Copied (s : Sources) : Json → Prop
  | lists {v} : some v ∈ [s.ports, s.wireless] → Copied s v
  | lan {item v} : s.networkLan = some item →
      some v ∈ [field item "netmask", fieldOr item "vlanid" "vlanId",
        fieldOr item "leasetime" "leaseTime"] → Copied s v
  | uplink {item v} : s.hasLan = true → s.networkWan = some item →
      some v ∈ [fieldOr item "name" "intf_name"] → Copied s v
  | wan {item v} : s.wanInfo = some item →
      some v ∈ [field item "gateway", field item "mask", field item "proto", field item "mtu"] →
      Copied s v
  | wanConfig {item v} : s.hasWan = true → s.wanInfo = none → s.networkWan = some item →
      some v ∈ [field item "proto", field item "mtu"] → Copied s v
  | status {v} : s.hasWan = true → some v ∈ [s.slow.bind (field · "status")] → Copied s v
  | ap {item v} : s.ap = some item →
      some v ∈ [field item "networkName", field item "hostName",
        fieldOr item "devModel" "deviceType", field item "ip", field item "status",
        field item "forwardMode", field item "relayMode", field item "staNum",
        field item "software", field item "serialNumber", field item "mac"] → Copied s v

-- ---------------------------------------------------------------------------
-- Values without secrets
-- ---------------------------------------------------------------------------

theorem mem_objectsItems {items : List Json} {object : Entries} :
    object ∈ objectsItems items ↔ ∃ v ∈ items, object ∈ objects v := by
  induction items with
  | nil => simp [objectsItems]
  | cons v items ih => simp [objectsItems, ih]

theorem mem_objectsEntries {object : Entries} :
    object ∈ objectsEntries d ↔ ∃ e ∈ d, object ∈ objects e.2 := by
  induction d with
  | nil => simp [objectsEntries]
  | cons e d ih => simp [objectsEntries, ih]

theorem noSecrets_dict :
    NoSecrets (.dict d) ↔ ∀ e ∈ d, isSensitive e.1 = false ∧ NoSecrets e.2 := by
  simp only [NoSecrets, objects, List.forall_mem_cons, mem_objectsEntries, Dict.keys,
    List.forall_mem_map, forall_and, forall_exists_index, and_imp]
  exact and_congr_right fun _ =>
    ⟨fun h e he object ho => h object e he ho, fun h object e he ho => h e he object ho⟩

theorem noSecrets_list {items : List Json} : NoSecrets (.list items) ↔ ∀ v ∈ items, NoSecrets v := by
  simp only [NoSecrets, objects, mem_objectsItems, forall_exists_index, and_imp]
  exact ⟨fun h v hv object ho => h object v hv ho, fun h object v hv ho => h v hv object ho⟩

@[simp]
theorem noSecrets_str (text : String) : NoSecrets (.str text) := nofun

@[simp]
theorem noSecrets_null : NoSecrets .null := nofun

theorem forall_copied {os : List (Option Json)} :
    (∀ v, some v ∈ os → NoSecrets v) ↔ ∀ o ∈ os, NoSecrets (cloned o) := by
  refine ⟨fun h o ho => ?_, fun h v hv => h (some v) hv⟩
  cases o with
  | none => exact noSecrets_null
  | some v => exact h v ho

theorem noSecrets_csvValues : NoSecrets (csvValues o) := by
  rw [csvValues, noSecrets_list, List.forall_mem_map]
  exact fun text _ => noSecrets_str text

theorem noSecrets_of_not_meaningful (h : meaningful value = false) : NoSecrets value := by
  cases value with
  | list items =>
    simp only [meaningful, Bool.not_eq_false', List.isEmpty_iff] at h
    subst h
    nofun
  | dict map =>
    simp only [meaningful, Bool.not_eq_false', List.isEmpty_iff] at h
    subst h
    simp [noSecrets_dict]
  | _ => nofun

mutual
theorem noSecrets_sanitize : (value : Json) → NoSecrets (sanitizeConfigValue value)
  | .dict map => by
    rw [sanitizeConfigValue, noSecrets_dict]
    exact sanitizeEntries_clean map
  | .list items => by
    rw [sanitizeConfigValue, noSecrets_list]
    exact sanitizeItems_clean items
  | .null | .bool _ | .int _ | .float _ _ | .str _ => nofun
theorem sanitizeItems_clean : (items : List Json) → ∀ v ∈ sanitizeItems items, NoSecrets v
  | [] => nofun
  | item :: items => by
    rw [sanitizeItems, List.forall_mem_cons]
    exact ⟨noSecrets_sanitize item, sanitizeItems_clean items⟩
theorem sanitizeEntries_clean : (map : List (String × Json)) →
    ∀ e ∈ sanitizeEntries map, isSensitive e.1 = false ∧ NoSecrets e.2
  | [] => nofun
  | (key, child) :: map => by
    rw [sanitizeEntries]
    split
    · exact sanitizeEntries_clean map
    · rename_i hkey
      rw [List.forall_mem_cons]
      exact ⟨⟨Bool.not_eq_true _ ▸ hkey, noSecrets_sanitize child⟩, sanitizeEntries_clean map⟩
end

-- ---------------------------------------------------------------------------
-- Objects that are put together
-- ---------------------------------------------------------------------------

theorem insertAll_eq (hkeys : (Dict.keys (map ++ values)).Nodup) :
    insertAll map values = map ++ values.filter fun e => meaningful e.2 := by
  induction values generalizing map with
  | nil => simp [insertAll]
  | cons e values ih =>
    have hnew : e.1 ∉ Dict.keys map := by
      simp only [Dict.keys, List.map_append, List.map_cons] at hkeys ⊢
      exact fun hmem => (List.nodup_append.mp hkeys).2.2 _ hmem _ List.mem_cons_self rfl
    rw [insertAll, List.foldl_cons, ← insertAll, insertMeaningful, List.filter_cons]
    split
    · rw [Dict.set_of_notMem _ hnew, ih (by simpa using hkeys), List.append_assoc]
      rfl
    · refine ih (hkeys.sublist ?_)
      simp [Dict.keys]

/-- The keys that an object is made of: distinct, and none of them sensitive. -/
def Harmless (keys : List String) : Prop :=
  keys.Nodup ∧ ∀ key ∈ keys, isSensitive key = false

instance {keys : List String} : Decidable (Harmless keys) := inferInstanceAs (Decidable (_ ∧ _))

theorem noSecrets_insertAll {keys : List String} (hkeys : Harmless keys)
    (hsub : (Dict.keys values).Sublist keys) :
    NoSecrets (.dict (insertAll [] values)) ↔ ∀ e ∈ values, NoSecrets e.2 := by
  have heq : insertAll [] values = [] ++ _ := insertAll_eq (hkeys.1.sublist hsub)
  rw [heq, noSecrets_dict]
  simp only [List.nil_append, List.mem_filter, and_imp]
  constructor
  · intro h e he
    cases hm : meaningful e.2 with
    | true => exact (h e he hm).2
    | false => exact noSecrets_of_not_meaningful hm
  · exact fun h e he _ => ⟨hkeys.2 e.1 (hsub.subset (List.mem_map_of_mem he)), h e he⟩

theorem insertSection_eq :
    insertSection d key values = insertMeaningful d key (.dict (insertAll [] values)) := by
  unfold insertSection insertMeaningful
  by_cases hempty : (insertAll [] values).isEmpty = true <;> simp [meaningful, hempty]

-- ---------------------------------------------------------------------------
-- The sections
-- ---------------------------------------------------------------------------

def ifPresent (present : Bool) (key : String) (value : Json) : Entries :=
  if present then [(key, value)] else []

theorem insertAll_append (map values values' : Entries) :
    insertAll map (values ++ values') = insertAll (insertAll map values) values' :=
  List.foldl_append

theorem insertAll_section (present : Bool) (map : Entries) (key : String) (value : Json) :
    insertAll map (ifPresent present key value) =
      if present then insertMeaningful map key value else map := by
  cases present <;> rfl

def sections (routerModel : String) (s : Sources) : Entries :=
  [("ports", cloned s.ports), ("wireless", cloned s.wireless)] ++
  ifPresent s.network.isSome "network" (cloned (s.network.map sanitizeConfigValue)) ++
  ifPresent s.hasLan "lan" (.dict (insertAll [] s.lanValues)) ++
  ifPresent s.hasWan "wan" (.dict (insertAll [] s.wanValues)) ++
  ifPresent s.ap.isSome "ap" (cloned (s.ap.map fun item => .dict (insertAll [] (Sources.apValues item)))) ++
  ifPresent (s.apHostname.isSome || s.apModel.isSome || s.slow.isSome) "identity"
    (.dict (insertAll [] (s.identityValues routerModel)))

theorem detailsFromSources_eq (routerModel : String) (s : Sources) :
    detailsFromSources routerModel s = .dict (insertAll [] (sections routerModel s)) := by
  simp only [detailsFromSources, sections, insertAll_append, insertAll_section, insertSection_eq]
  cases s.network <;> cases s.ap <;> rfl

theorem keys_section (present : Bool) (key : String) (value : Json) :
    (Dict.keys (ifPresent present key value)).Sublist [key] := by
  cases present <;> simp [ifPresent, Dict.keys]

def sectionKeys : List String := ["ports", "wireless", "network", "lan", "wan", "ap", "identity"]

theorem keys_sections (routerModel : String) (s : Sources) :
    (Dict.keys (sections routerModel s)).Sublist sectionKeys := by
  have hsplit : sectionKeys =
      ["ports", "wireless"] ++ ["network"] ++ ["lan"] ++ ["wan"] ++ ["ap"] ++ ["identity"] := rfl
  simp only [sections, Dict.keys, List.map_append, hsplit]
  exact (((((List.Sublist.refl _).append (keys_section ..)).append (keys_section ..)).append
    (keys_section ..)).append (keys_section ..)).append (keys_section ..)

theorem noSecrets_section (present : Bool) (key : String) (value : Json) :
    (∀ e ∈ ifPresent present key value, NoSecrets e.2) ↔ (present = true → NoSecrets value) := by
  cases present <;> simp [ifPresent]

def lanKeys : List String :=
  ["ipv4", "mac", "netmask", "vlanId", "dhcpLease", "uplink", "broadbandRemark"]

def wanKeys : List String :=
  ["ipv4", "gateway", "netmask", "proto", "mtu", "dnsServers", "interfaceDisplay", "operator",
   "status"]

def apKeys : List String :=
  ["networkName", "hostName", "model", "managementIp", "status", "workMode", "relayMode", "bands",
   "channels", "channelUtilization", "stationCount", "software", "serialNumber", "mac"]

theorem harmless_keys : Harmless sectionKeys ∧ Harmless lanKeys ∧ Harmless wanKeys ∧
    Harmless apKeys ∧ Harmless ["hostname", "model"] := by
  decide

theorem keys_lanValues (s : Sources) : (Dict.keys s.lanValues).Sublist lanKeys := by
  unfold Sources.lanValues
  cases s.networkLan <;> cases s.networkWan <;>
    · simp only [Dict.keys, List.map_append, List.map_cons, List.map_nil]
      decide

theorem keys_wanValues (s : Sources) : (Dict.keys s.wanValues).Sublist wanKeys := by
  unfold Sources.wanValues
  cases s.wanInfo <;> cases s.networkWan <;> cases s.network <;>
    cases s.slow.bind (field · "status") <;>
    · simp only [Dict.keys, List.map_append, List.map_cons, List.map_nil]
      decide

theorem noSecrets_lan (s : Sources) : NoSecrets (.dict (insertAll [] s.lanValues)) ↔
    (∀ item, s.networkLan = some item → ∀ v, some v ∈ [field item "netmask",
        fieldOr item "vlanid" "vlanId", fieldOr item "leasetime" "leaseTime"] → NoSecrets v) ∧
      ∀ item, s.networkWan = some item → ∀ v, some v ∈ [fieldOr item "name" "intf_name"] →
        NoSecrets v := by
  rw [noSecrets_insertAll harmless_keys.2.1 (keys_lanValues s)]
  simp only [forall_copied]
  unfold Sources.lanValues
  cases s.networkLan <;> cases s.networkWan <;> simp [and_assoc]

theorem noSecrets_wan (s : Sources) : NoSecrets (.dict (insertAll [] s.wanValues)) ↔
    (∀ item, s.wanInfo = some item → ∀ v, some v ∈ [field item "gateway", field item "mask",
        field item "proto", field item "mtu"] → NoSecrets v) ∧
      (s.wanInfo = none → ∀ item, s.networkWan = some item → ∀ v,
        some v ∈ [field item "proto", field item "mtu"] → NoSecrets v) ∧
      ∀ v, some v ∈ [s.slow.bind (field · "status")] → NoSecrets v := by
  rw [noSecrets_insertAll harmless_keys.2.2.1 (keys_wanValues s)]
  simp only [forall_copied]
  unfold Sources.wanValues
  cases s.wanInfo <;> cases s.networkWan <;> cases s.network <;>
    cases s.slow.bind (field · "status") <;>
    simp [noSecrets_csvValues, cloned, and_assoc]

theorem noSecrets_ap (item : Json) : NoSecrets (.dict (insertAll [] (Sources.apValues item))) ↔
    ∀ v, some v ∈ [field item "networkName", field item "hostName",
      fieldOr item "devModel" "deviceType", field item "ip", field item "status",
      field item "forwardMode", field item "relayMode", field item "staNum",
      field item "software", field item "serialNumber", field item "mac"] → NoSecrets v := by
  have hsub : (Dict.keys (Sources.apValues item)).Sublist apKeys := List.Sublist.refl _
  rw [noSecrets_insertAll harmless_keys.2.2.2.1 hsub, forall_copied]
  simp [Sources.apValues, noSecrets_csvValues]

theorem noSecrets_identity (routerModel : String) (s : Sources) :
    NoSecrets (.dict (insertAll [] (s.identityValues routerModel))) := by
  have hsub : (Dict.keys (s.identityValues routerModel)).Sublist ["hostname", "model"] := by
    unfold Sources.identityValues
    cases s.apHostname <;> simp [Dict.keys]
  rw [noSecrets_insertAll harmless_keys.2.2.2.2 hsub]
  unfold Sources.identityValues
  cases s.apHostname <;> simp

/-- The details have no sensitive key at any depth, if and only if none of the
values that they take as they stand has one. -/
theorem details_clean_iff (routerModel : String) (s : Sources) :
    NoSecrets (detailsFromSources routerModel s) ↔ ∀ v, Copied s v → NoSecrets v := by
  rw [detailsFromSources_eq, noSecrets_insertAll harmless_keys.1 (keys_sections routerModel s)]
  have hnetwork : NoSecrets (cloned (s.network.map sanitizeConfigValue)) := by
    cases s.network with
    | none => exact noSecrets_null
    | some network => exact noSecrets_sanitize network
  have hlists : (∀ e ∈ [("ports", cloned s.ports), ("wireless", cloned s.wireless)],
      NoSecrets e.2) ↔ ∀ v, some v ∈ [s.ports, s.wireless] → NoSecrets v := by
    rw [forall_copied]
    simp
  simp only [sections, List.forall_mem_append, noSecrets_section, noSecrets_lan, noSecrets_wan,
    hlists]
  constructor
  · rintro ⟨⟨⟨⟨⟨hlists, -⟩, hlan⟩, hwan⟩, hap⟩, -⟩ v hv
    cases hv with
    | lists hv => exact hlists v hv
    | lan hitem hv => exact (hlan (by simp [Sources.hasLan, hitem])).1 _ hitem v hv
    | uplink hpresent hitem hv => exact (hlan hpresent).2 _ hitem v hv
    | wan hitem hv => exact (hwan (by simp [Sources.hasWan, hitem])).1 _ hitem v hv
    | wanConfig hpresent hinfo hitem hv => exact (hwan hpresent).2.1 hinfo _ hitem v hv
    | status hpresent hv => exact (hwan hpresent).2.2 v hv
    | ap hitem hv =>
      have hsection := hap (by simp [hitem])
      simp only [hitem, Option.map_some, cloned, Option.getD_some, noSecrets_ap] at hsection
      exact hsection v hv
  · intro h
    refine ⟨⟨⟨⟨⟨fun v hv => h v (.lists hv), fun _ => hnetwork⟩, fun hpresent =>
      ⟨fun item hitem v hv => h v (.lan hitem hv),
        fun item hitem v hv => h v (.uplink hpresent hitem hv)⟩⟩, fun hpresent =>
      ⟨fun item hitem v hv => h v (.wan hitem hv),
        fun hinfo item hitem v hv => h v (.wanConfig hpresent hinfo hitem hv),
        fun v hv => h v (.status hpresent hv)⟩⟩, fun _ => ?_⟩, fun _ => noSecrets_identity _ _⟩
    cases hap : s.ap with
    | none => exact noSecrets_null
    | some item => exact (noSecrets_ap item).mpr fun v hv => h v (.ap hap hv)

def wirelessNetwork : Entries := [("ssid", .str "home"), ("password", .str "letmein")]

/-- The slow answer, with the password of the wireless network in it. -/
def wirelessAnswer : Sources :=
  ⟨some (.dict [("wireless", .dict wirelessNetwork)]), none, none, none⟩

/-- The password is in the report. -/
theorem password_reported : ¬ NoSecrets (detailsFromSources "" wirelessAnswer) := by
  have hdetails : detailsFromSources "" wirelessAnswer =
      .dict [("wireless", .dict wirelessNetwork)] := rfl
  rw [hdetails, noSecrets_dict]
  intro h
  have hwireless := noSecrets_dict.mp (h _ List.mem_cons_self).2
  have hpassword := (hwireless ("password", .str "letmein") (by simp [wirelessNetwork])).1
  revert hpassword
  decide

end LabProbe.Agent
