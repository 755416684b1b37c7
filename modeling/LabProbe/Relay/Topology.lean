import LabProbe.Lib.Joins
import LabProbe.Relay.DdnsAddress
import LabProbe.Py.Json
import Mathlib.Order.Basic

/-!
# The roles of the interfaces

`parse_openwrt_topology` gives each name of an interface a role, from the dump
of `ubus`. A name that comes several times keeps the highest of its roles. The
dump is what `serde_json` makes of the text, if it makes anything.
-/

namespace LabProbe.Relay

open Py

-- ---------------------------------------------------------------------------
-- Roles
-- ---------------------------------------------------------------------------

namespace InterfaceRole

def rank : InterfaceRole → Nat
  | .unknown => 0
  | .downstream => 1
  | .bridgeManagement => 2
  | .upstream => 3

theorem rank_injective : Function.Injective rank := by
  intro a b h
  cases a <;> cases b <;> first | rfl | cases h

instance : LinearOrder InterfaceRole := LinearOrder.lift' rank rank_injective

instance : OrderBot InterfaceRole where
  bot := .unknown
  bot_le _ := Nat.zero_le _

def selected : InterfaceRole → InterfaceRole → InterfaceRole
  | .upstream, _ => .upstream
  | _, .upstream => .upstream
  | .bridgeManagement, .downstream => .bridgeManagement
  | .downstream, .bridgeManagement => .bridgeManagement
  | .unknown, other => other
  | other, _ => other

theorem selected_eq (current role : InterfaceRole) : selected current role = max current role := by
  cases current <;> cases role <;> decide

end InterfaceRole

def InterfaceTopology.setRole (t : InterfaceTopology) (interface : String) (role : InterfaceRole) :
    InterfaceTopology :=
  if interface = "" then t
  else ⟨Dict.set t.roles interface (InterfaceRole.selected (t.roleFor interface) role)⟩

-- ---------------------------------------------------------------------------
-- The dump
-- ---------------------------------------------------------------------------

namespace Topology

def valueGet (value : Json) (key : String) : Option Json := value.dict?.bind (Dict.get? · key)

def asStr : Json → Option String
  | .str s => some s
  | _ => none

def asU64 : Json → Option Nat
  | .int n => if 0 ≤ n ∧ n < 2 ^ 64 then some n.toNat else none
  | _ => none

def asBool : Json → Option Bool
  | .bool b => some b
  | _ => none

def jsonBool (value : Option Json) : Bool :=
  (value.bind fun item => (asBool item).or ((asU64 item).map (· != 0))).getD false

def jsonNonempty : Option Json → Bool
  | some (.list items) => !items.isEmpty
  | some (.dict items) => !items.isEmpty
  | some (.str text) => trim text != ""
  | some (.bool value) => value
  | some (.int n) => (asU64 (.int n)).any (· != 0)
  | _ => false

def endsWith (suffix s : String) : Bool := suffix.toList.isSuffixOf s.toList

def isDefaultRoute (item : Json.Entries) : Bool :=
  if jsonBool (Dict.get? item "default") then true
  else
    let destination := ["target", "dest", "address", "prefix"].findSome? fun key =>
      (Dict.get? item key).bind asStr
    let maskZero := (["mask", "prefixLength", "prefix_length"].findSome? fun key =>
      (Dict.get? item key).bind asU64).any (· == 0)
    (destination.any fun target => ["::", "::/0", "0.0.0.0", "0.0.0.0/0"].contains target) &&
      (maskZero || destination.any fun target =>
        endsWith "/0" target || target == "::" || target == "0.0.0.0")

mutual
def jsonDefaultRoute : Json → Bool
  | .list items => anyDefaultRoute items
  | .dict item => isDefaultRoute item
  | .str text => ["::/0", "0.0.0.0/0"].contains (trim text)
  | _ => false
def anyDefaultRoute : List Json → Bool
  | [] => false
  | item :: items => jsonDefaultRoute item || anyDefaultRoute items
end

def textAt (item : Json) (key : String) : String := ((valueGet item key).bind asStr).getD ""

/-- The names of an entry: of the interface, its device and its layer 3 device. -/
def aliases (item : Json) : List String :=
  [textAt item "interface", textAt item "device", textAt item "l3_device"]

def entryRole (defaultInterface : Option String) (item : Json) : InterfaceRole :=
  let matchesDefault := (defaultInterface.any fun name => (aliases item).contains name) ||
    jsonBool (valueGet item "default") ||
    (((valueGet item "route").or (valueGet item "routes")).any jsonDefaultRoute)
  let hasAssignment := jsonNonempty (valueGet item "ipv6-prefix-assignment")
  let hasPrefix := jsonNonempty (valueGet item "ipv6-prefix")
  let bridgeHint := jsonBool (valueGet item "bridge") || jsonBool (valueGet item "is_bridge") ||
    ((((valueGet item "type").or (valueGet item "device_type")).bind asStr).any fun kind =>
      toAsciiLowercase kind == "bridge")
  if !jsonBool (valueGet item "up") then .unknown
  else if matchesDefault && (bridgeHint || hasAssignment) then .bridgeManagement
  else if matchesDefault || (hasPrefix && !hasAssignment) then .upstream
  else if hasAssignment then .downstream
  else .unknown

def addEntry (defaultInterface : Option String) (t : InterfaceTopology) (item : Json) :
    InterfaceTopology :=
  if (aliases item).all (· == "") then t
  else (aliases item).foldl (fun t name => t.setRole name (entryRole defaultInterface item)) t

def fallback (interfaceIsBridge : String → Bool) (defaultInterface : Option String)
    (t : InterfaceTopology) : InterfaceTopology :=
  match defaultInterface with
  | none => t
  | some name =>
    if (Dict.get? t.roles name).isSome then t
    else t.setRole name (if interfaceIsBridge name then .bridgeManagement else .upstream)

def parseOpenwrtTopology (interfaceIsBridge : String → Bool) (root : Option Json)
    (defaultInterface : Option String) : InterfaceTopology :=
  match (root.bind (valueGet · "interface")).bind Json.list? with
  | none => {}
  | some interfaces =>
    fallback interfaceIsBridge defaultInterface (interfaces.foldl (addEntry defaultInterface) {})

-- ---------------------------------------------------------------------------
-- The order of the entries
-- ---------------------------------------------------------------------------

variable {defaultInterface : Option String} {items items' : List Json} {t t' : InterfaceTopology}

theorem setRole_eq (t : InterfaceTopology) (name : String) (role : InterfaceRole) :
    t.setRole name role = if name = "" then t else ⟨Joins.raise t.roles name role⟩ := by
  unfold InterfaceTopology.setRole
  rw [InterfaceRole.selected_eq]
  rfl

def assigned (defaultInterface : Option String) (item : Json) : List (String × InterfaceRole) :=
  ((aliases item).filter (· ≠ "")).map fun name => (name, entryRole defaultInterface item)

theorem foldl_setRole (names : List String) (role : InterfaceRole) (t : InterfaceTopology) :
    (names.foldl (fun t name => t.setRole name role) t).roles =
      Joins.raiseAll t.roles ((names.filter (· ≠ "")).map fun name => (name, role)) := by
  induction names generalizing t with
  | nil => rfl
  | cons name names ih =>
    rw [List.foldl_cons, ih, setRole_eq]
    by_cases h : name = "" <;> simp [h]

theorem roles_addEntry (t : InterfaceTopology) (item : Json) :
    (addEntry defaultInterface t item).roles =
      Joins.raiseAll t.roles (assigned defaultInterface item) := by
  unfold addEntry assigned
  split
  · rename_i hempty
    have hnone : (aliases item).filter (· ≠ "") = [] := by
      simpa [List.filter_eq_nil_iff] using hempty
    rw [hnone]
    rfl
  · exact foldl_setRole _ _ t

theorem roles_foldl (items : List Json) (t : InterfaceTopology) :
    (items.foldl (addEntry defaultInterface) t).roles =
      Joins.raiseAll t.roles (items.flatMap (assigned defaultInterface)) := by
  induction items generalizing t with
  | nil => rfl
  | cons item items ih => simp [ih, roles_addEntry]

theorem mem_assigned {name : String} {role : InterfaceRole} {item : Json} :
    (name, role) ∈ assigned defaultInterface item ↔
      (name ∈ aliases item ∧ name ≠ "") ∧ entryRole defaultInterface item = role := by
  simp [assigned]

theorem isLUB_roles {name : String} {role : InterfaceRole}
    (h : Dict.get? (items.foldl (addEntry defaultInterface) {}).roles name = some role) :
    IsLUB {r | ∃ item ∈ items, (name ∈ aliases item ∧ name ≠ "") ∧
      entryRole defaultInterface item = r} role := by
  rw [roles_foldl] at h
  have hlub := Joins.isLUB_raiseAll _ _ h
  simp only [List.mem_flatMap, mem_assigned] at hlub
  exact hlub

theorem get?_roles_eq_none {name : String} :
    Dict.get? (items.foldl (addEntry defaultInterface) {}).roles name = none ↔
      ∀ item ∈ items, name ∈ aliases item → name = "" := by
  rw [roles_foldl, Joins.get?_raiseAll_eq_none]
  simp only [Dict.keys, List.mem_map, List.mem_flatMap, Prod.exists, mem_assigned]
  constructor
  · intro h item hitem hname
    by_contra hne
    exact h ⟨name, _, ⟨item, hitem, ⟨hname, hne⟩, rfl⟩, rfl⟩
  · rintro h ⟨_, _, ⟨item, hitem, ⟨hname, hne⟩, -⟩, rfl⟩
    exact hne (h item hitem hname)

/-- The roles agree, name by name. -/
def Agree (t t' : InterfaceTopology) : Prop := ∀ name, Dict.get? t.roles name = Dict.get? t'.roles name

theorem Agree.fallback (h : Agree t t') (interfaceIsBridge : String → Bool) :
    Agree (fallback interfaceIsBridge defaultInterface t)
      (fallback interfaceIsBridge defaultInterface t') := by
  cases defaultInterface with
  | none => exact h
  | some name =>
    simp only [Topology.fallback, h name]
    split
    · exact h
    · intro other
      simp only [setRole_eq]
      split
      · exact h other
      · simp only [Joins.raise, Dict.get?_set, h name, h other]

/-- A name keeps the highest of the roles it is given, in an order of all roles, so
the roles do not depend on the order of the entries. -/
theorem roles_independent (interfaceIsBridge : String → Bool) (defaultInterface : Option String)
    (root : Json.Entries) (h : items.Perm items') :
    (∀ (t : InterfaceTopology) (name : String) (role : InterfaceRole), name ≠ "" →
      (t.setRole name role).roleFor name = max (t.roleFor name) role) ∧
    Agree
      (parseOpenwrtTopology interfaceIsBridge
        (some (.dict (Dict.set root "interface" (.list items)))) defaultInterface)
      (parseOpenwrtTopology interfaceIsBridge
        (some (.dict (Dict.set root "interface" (.list items')))) defaultInterface) := by
  constructor
  · intro t name role hname
    rw [setRole_eq, if_neg hname]
    simp only [InterfaceTopology.roleFor, Joins.raise, Dict.get?_set, if_pos, Option.getD_some]
    rfl
  · have hread : ∀ items : List Json, ((some (Json.dict (Dict.set root "interface" (.list items)))).bind
        (valueGet · "interface")).bind Json.list? = some items := by
      intro items
      simp [valueGet, Json.dict?, Json.list?]
    unfold parseOpenwrtTopology
    rw [hread, hread]
    refine Agree.fallback (fun name => ?_) interfaceIsBridge
    rw [roles_foldl, roles_foldl]
    exact Joins.get?_raiseAll_perm (h.flatMap_right _) _ name

def wanEntry : Json :=
  .dict [("interface", .str "wan"), ("l3_device", .str "eth0"), ("up", .bool true),
    ("route", .list [.dict [("target", .str "::"), ("mask", .int 0)]])]

def lanEntry : Json :=
  .dict [("interface", .str "lan"), ("device", .str "br-lan"), ("l3_device", .str "eth0"),
    ("up", .bool true), ("ipv6-prefix-assignment", .list [.dict []])]

theorem roles_independent_wan_lan :
    (∀ (t : InterfaceTopology) (name : String) (role : InterfaceRole), name ≠ "" →
      (t.setRole name role).roleFor name = max (t.roleFor name) role) ∧
    Agree
      (parseOpenwrtTopology (fun _ => false)
        (some (.dict (Dict.set [] "interface" (.list [wanEntry, lanEntry])))) (some "eth0"))
      (parseOpenwrtTopology (fun _ => false)
        (some (.dict (Dict.set [] "interface" (.list [lanEntry, wanEntry])))) (some "eth0")) :=
  roles_independent (fun _ => false) (some "eth0") [] (List.Perm.swap lanEntry wanEntry [])

end Topology

end LabProbe.Relay
