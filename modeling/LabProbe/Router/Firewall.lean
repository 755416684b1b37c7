import LabProbe.Hub.AddressText
import LabProbe.Hub.Values
import LabProbe.Router.Rpc

/-!
# Firewall rules and the mappings they serve

The readers of `FirewallAutomationService`: a rule of the router, its
fingerprint without the field the automation owns, and the address of the
mapping a binding follows. The documents a mapping is looked up in are given
as the Hub has read them. A digit of `str.isdigit` is a decimal one here; on
the others `int` raises.
-/

namespace LabProbe.Router

open Py Py.Json Hub

/-- `sha256(text).hexdigest()` of the JSON text of a value; the text
determines the sorted value and is determined by it. -/
class Sha256 where
  hexdigest : Json → String
  hexdigest_hex : ∀ value, (hexdigest value).length = 64 ∧
    ∀ c ∈ (hexdigest value).toList, (hexDigit? c).isSome = true

section
variable [Unicode]

def enabled (value : Json) (default : Bool) : Bool :=
  match value with
  | .null => default
  | .bool b => b
  | value => ["1", "true", "yes", "on", "enabled"].contains (Unicode.lower (text value))

omit [Unicode] in
def rows : Json → List Entries
  | .dict data => ((get data "list").list?.getD []).filterMap dict?
  | _ => []

def findRule (data : Json) (firewallUuid : String) : Option Entries :=
  (rows data).find? fun row => text (get row "uuid") == firewallUuid

-- ---------------------------------------------------------------------------
-- Addresses
-- ---------------------------------------------------------------------------

omit [Unicode] in
def addressText : IpAddress → String
  | .v4 value => String.ofList (ipv4Text value)
  | .v6 value => String.ofList (ipv6Text value)

omit [Unicode] in
def isReserved (address : IpAddress) : Bool :=
  address.isUnspecified || address.isMulticast || address.isLoopback ||
    address.version == 6 && address.isLinkLocal

def ip (value : Json) (family : String) : String :=
  let raw := ((text value).toList.takeWhile (· != '/')).takeWhile (· != '%')
  match ipAddress (String.ofList raw) with
  | some address =>
    if address.version ≠ (if family = "ipv4" then 4 else 6) || isReserved address then ""
    else addressText address
  | none => ""

omit [Unicode] in
def ipv6Address (cs : List Char) : Option Nat := if cs.contains '/' then none else parseIpv6 cs

omit [Unicode] in
/-- The host part of an address, empty for the network itself. -/
def hostText (value : Nat) : String :=
  if value % 2 ^ 64 = 0 then "" else String.ofList (ipv6Text (value % 2 ^ 64))

omit [Unicode] in
def suffix (address : String) : String := ((ipv6Address address.toList).map hostText).getD ""

def fieldValue (field : String) (value : Json) (family : String) : String :=
  if field = "destIP" then ip value family
  else if field ≠ "ipv6SuffixDest" || family ≠ "ipv6" then ""
  else
    let raw := (text value).toList
    if raw.isEmpty then ""
    else ((ipv6Address (if raw.contains ':' then raw else ':' :: ':' :: raw)).map hostText).getD ""

omit [Unicode] in
def digitsValue (cs : List Char) : Option Nat :=
  if cs.isEmpty then none else cs.foldlM (fun n c => (digit? c).map (n * 10 + ·)) 0

def targetFromEndpoint (value : Json) : String :=
  let raw := text value
  let bare := match rsplitOnce ':' raw.toList with
    | some (host, port) =>
      if raw.toList.count ':' = 1 && (digitsValue port).isSome then String.ofList host else raw
    | none => raw
  match raw.toList with
  | '[' :: rest => if rest.contains ']' then String.ofList (rest.takeWhile (· != ']')) else bare
  | _ => bare

-- ---------------------------------------------------------------------------
-- Ports and protocols
-- ---------------------------------------------------------------------------

def ruleFingerprint [Sha256] (rule : Entries) (controlledField : String) : String :=
  Sha256.hexdigest
    (Json.dict (rule.filter fun e => !(["stats", controlledField].contains e.1))).sort

omit [Unicode] in
def itemContains (port : Int) (item : List Char) : Bool :=
  let part := (strip (String.ofList item)).toList
  let bound := fun (cs : List Char) => digitsValue (strip (String.ofList cs)).toList
  digitsValue part == some port.toNat ||
    part.contains ':' &&
      match bound (part.takeWhile (· != ':')), bound (part.dropWhile (· != ':')).tail with
      | some left, some right => left ≤ port.toNat && port.toNat ≤ right
      | _, _ => false

def portContains (value target : Json) : Bool :=
  match parseInt (text target) with
  | some port =>
    1 ≤ port && port ≤ 65535 && text value != "" &&
      (splitOn ',' (replaceAll ['-'] [':'] 0 (text value).toList)).any (itemContains port)
  | none => false

def protocolMatches (ruleProtocol mappingProtocol : Json) : Bool :=
  let rule := Unicode.lower (text ruleProtocol)
  let mapping :=
    String.ofList (replaceAll ['/'] ['+'] 0 (Unicode.lower (text mappingProtocol)).toList)
  ["tcp", "udp"].contains rule &&
    (["tcp+udp", "udp+tcp", "both"].contains mapping || rule == mapping)

-- ---------------------------------------------------------------------------
-- Mappings
-- ---------------------------------------------------------------------------

omit [Unicode] in
/-- What a mapping is looked up in: the rules of the port-map document where
it was readable, the runtimes the agent reports, and the router's own port
mappings. -/
structure Mappings where
  relay : Option (List Entries)
  runtimes : List (String × Entries)
  native : Json

omit [Unicode] in
structure Mapping where
  addressFamily : String
  address : String
  protocol : String
  targetPort : Json

/-- The target of a relay rule: the one resolved by the agent while the rule
runs, or the one the rule names. -/
def relayCandidate (rule runtime : Entries) (family : String) : Json :=
  let running := ["running", "active"].contains (Unicode.lower (text (get runtime "state")))
  let resolved : Json :=
    .str (if running then targetFromEndpoint (get runtime "resolvedTarget") else "")
  let ipv4 := if !resolved.truthy && family == "ipv4" then get rule "targetIpv4" else resolved
  let full :=
    if !ipv4.truthy && text (get rule "targetMode") == "ipv6_full" then get rule "targetIpv6"
    else ipv4
  if full.truthy then full else get rule "targetIpv6Snapshot"

def relayMappingSpec (mappings : Mappings) (binding : Entries) : Option Mapping :=
  let mappingId := text (get binding "mappingId")
  (mappings.relay.bind fun rules => rules.find? fun row => text (get row "id") == mappingId).map
    fun rule =>
      let family := if Unicode.lower (text (get rule "mode")) = "6to4" then "ipv4" else "ipv6"
      let runtime := (Dict.get? mappings.runtimes mappingId).getD []
      { addressFamily := family
        address := ip (relayCandidate rule runtime family) family
        protocol := Unicode.lower (text ((get rule "transportProtocol").or (.str "TCP")))
        targetPort := get rule "targetPort" }

omit [Unicode] in
def nativeRows : Json → List Entries
  | .dict data =>
    (((get data "portMapping").or (get data "list")).list?.getD []).filterMap dict?
  | _ => []

def nativeMappingSpec (mappings : Mappings) (binding : Entries) : Option Mapping :=
  let mappingId := text (get binding "mappingId")
  ((nativeRows mappings.native).find? fun row => text (get row "ruleName") == mappingId).map
    fun rule =>
      { addressFamily := "ipv4"
        address := ip (get rule "destIp") "ipv4"
        protocol := Unicode.lower (text ((get rule "proto").or (.str "tcp")))
        targetPort := get rule "destPort" }

def mappingSpec (mappings : Mappings) (binding : Entries) : Option Mapping :=
  match Unicode.lower (text ((get binding "mappingKind").or (.str "relay"))) with
  | "relay" => relayMappingSpec mappings binding
  | "native" => nativeMappingSpec mappings binding
  | _ => none

-- ---------------------------------------------------------------------------
-- Bindings
-- ---------------------------------------------------------------------------

def uuidOf (binding : Entries) : String := text (get binding "firewallUuid")

def fieldOf (binding : Entries) : String := text (get binding "matchField")

def familyOf (binding : Entries) : String := text (get binding "addressFamily")

def currentValue (binding rule : Entries) : String :=
  fieldValue (fieldOf binding) (get rule (fieldOf binding)) (familyOf binding)

def lastApplied (binding : Entries) : String :=
  fieldValue (fieldOf binding) (get binding "lastAppliedValue") (familyOf binding)

def resolve (mappings : Mappings) (binding : Entries) : String :=
  if text (get binding "targetType") ≠ "mapping" then ""
  else match mappingSpec mappings binding with
    | some mapping =>
      let address := ip (.str mapping.address) (familyOf binding)
      if address ≠ "" && fieldOf binding == "ipv6SuffixDest" then suffix address else address
    | none => ""

def ruleCompatible (mappings : Mappings) (rule binding : Entries) : Bool :=
  let family := familyOf binding
  let field := fieldOf binding
  text (get binding "targetType") == "mapping" &&
    match mappingSpec mappings binding with
    | some mapping =>
      Unicode.lower (text (get rule "ipVersion")) == family &&
        ["destIP", "ipv6SuffixDest"].contains field && !(family == "ipv4" && field != "destIP") &&
        currentValue binding rule != "" && Unicode.upper (text (get rule "target")) == "ACCEPT" &&
        Unicode.lower (text (get rule "direction")) == "forward" &&
        Unicode.lower (text (get rule "inIface")) == "wan" &&
        Unicode.lower (text (get rule "outIface")) == "lan" && mapping.addressFamily == family &&
        protocolMatches (get rule "proto") (.str mapping.protocol) &&
        portContains (get rule "destPort") mapping.targetPort
    | none => false

end

end LabProbe.Router
