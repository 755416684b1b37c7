import LabProbe.Agent.Devices

/-!
# The details of the router in a report

`details_from_sources` merges what four commands answer into the details of a
report. The network configuration goes through `sanitize_config_value`, the
other parts are copied as they stand or are read as texts. What `router_model`
reads from the system is an argument. A float stands with the text it is
printed as.
-/

namespace LabProbe.Agent

open Py Py.Json Relay

-- ---------------------------------------------------------------------------
-- Values
-- ---------------------------------------------------------------------------

/-- `root.get(key)`. -/
def field (root : Json) (key : String) : Option Json := root.dict?.bind (Dict.get? · key)

/-- `root.get(key)`, or what stands under the other key. -/
def fieldOr (root : Json) (key other : String) : Option Json := (field root key).or (field root other)

def objectPath (root : Json) (path : List String) : Option Json := path.foldlM field root

def isObject (value : Json) : Bool := value.dict?.isSome

def firstArrayObject (root : Json) (key : String) : Option Json :=
  ((field root key).bind list?).bind (·.find? isObject)

def isBlank (text : String) : Bool := trim text == ""

def meaningful : Json → Bool
  | .null => false
  | .str text => !isBlank text
  | .list items => !items.isEmpty
  | .dict map => !map.isEmpty
  | _ => true

def insertMeaningful (map : Entries) (key : String) (value : Json) : Entries :=
  if meaningful value then Dict.set map key value else map

def insertAll (map : Entries) (values : Entries) : Entries :=
  values.foldl (fun map e => insertMeaningful map e.1 e.2) map

def cloned (value : Option Json) : Json := value.getD .null

def csvValues (value : Option Json) : Json :=
  .list ((((splitOn ',' ((value.bind asStr?).getD "").toList).map fun item =>
    trim (String.ofList item)).filter (· != "")).map .str)

def valueText : Option Json → String
  | some (.str text) => trim text
  | some (.int n) => toString n
  | some (.float _ text) => text
  | some (.bool flag) => if flag then "true" else "false"
  | _ => ""

mutual
def firstTextByKeys (keys : List String) : Json → String
  | .dict map =>
    match (keys.map fun key => valueText (Dict.get? map key)).find? (· != "") with
    | some text => text
    | none => firstTextEntries keys map
  | .list items => firstTextItems keys items
  | _ => ""
def firstTextItems (keys : List String) : List Json → String
  | [] => ""
  | child :: items =>
    let text := firstTextByKeys keys child
    if text != "" then text else firstTextItems keys items
def firstTextEntries (keys : List String) : List (String × Json) → String
  | [] => ""
  | (_, child) :: map =>
    let text := firstTextByKeys keys child
    if text != "" then text else firstTextEntries keys map
end

-- ---------------------------------------------------------------------------
-- The sanitiser
-- ---------------------------------------------------------------------------

def sensitiveWords : List String :=
  ["password", "passwd", "pwd", "secret", "token", "privatekey", "private_key", "username",
   "account"]

def isSensitive (key : String) : Bool :=
  sensitiveWords.any fun needle => contains needle.toList (toAsciiLowercase key).toList

mutual
def sanitizeConfigValue : Json → Json
  | .dict map => .dict (sanitizeEntries map)
  | .list items => .list (sanitizeItems items)
  | value => value
def sanitizeItems : List Json → List Json
  | [] => []
  | item :: items => sanitizeConfigValue item :: sanitizeItems items
def sanitizeEntries : List (String × Json) → List (String × Json)
  | [] => []
  | (key, child) :: map =>
    if isSensitive key then sanitizeEntries map
    else (key, sanitizeConfigValue child) :: sanitizeEntries map
end

-- ---------------------------------------------------------------------------
-- Interfaces
-- ---------------------------------------------------------------------------

def normalizedInterfaceName (value : String) : String :=
  let lower := toAsciiLowercase (trim value)
  if lower = "wan" ∨ lower = "wan0" then "WAN"
  else if "wan".toList.isPrefixOf lower.toList then toAsciiUppercase lower
  else trim value

def configuredName (item : Json) : Option String :=
  let name := normalizedInterfaceName
    (valueText ((fieldOr item "name" "intf_name").or (field item "ifname")))
  let status := toAsciiLowercase
    (valueText ((fieldOr item "enable" "enabled").or (field item "status")))
  let configured := name = "WAN" ∨ status ∈ ["1", "true", "on", "up", "connected"] ∨
    firstTextByKeys ["username", "account", "ipaddr", "ip", "gateway"] item ≠ ""
  if name ≠ "" ∧ configured then some name else none

def wanInterfaceDisplay (network : Json) : String :=
  let items := ((field network "wan").bind list?).getD []
  let names := (items.filterMap configuredName).foldl
    (fun names name => if name ∈ names then names else names ++ [name]) []
  " / ".intercalate (if names.isEmpty then ["WAN"] else names)

-- ---------------------------------------------------------------------------
-- The report
-- ---------------------------------------------------------------------------

/-- What the commands have answered. -/
structure Sources where
  slow : Option Json
  network : Option Json
  ipinfo : Option Json
  apList : Option Json

namespace Sources

variable (s : Sources)

def ports : Option Json :=
  (s.slow.bind (objectPath · ["port_status", "List"])).or (s.network.bind (field · "ports"))

def wireless : Option Json := s.slow.bind (field · "wireless")

def networkLan : Option Json := s.network.bind (firstArrayObject · "lan")

def networkWan : Option Json := s.network.bind (firstArrayObject · "wan")

def wanInfo : Option Json := s.ipinfo.bind (field · "wan")

def ap : Option Json := s.apList.bind (firstArrayObject · "list")

def lanIpFromPort : String :=
  let lan := (s.ports.bind list?).bind
    (·.find? fun item => (field item "name").bind asStr? == some "LAN")
  ((lan.bind (field · "ipaddr")).bind asStr?).getD ""

def textOf (item : Option Json) (key : String) : Option String :=
  ((item.bind (field · key)).bind asStr?).filter fun text => !isBlank text

def lanValues : Entries :=
  [("ipv4", .str ((textOf s.networkLan "ipaddr").getD s.lanIpFromPort))] ++
  (match s.networkLan with
    | some item =>
      [("mac", .str (firstTextByKeys ["mac", "macaddr", "macAddress", "hwaddr"] item)),
       ("netmask", cloned (field item "netmask")),
       ("vlanId", cloned (fieldOr item "vlanid" "vlanId")),
       ("dhcpLease", cloned (fieldOr item "leasetime" "leaseTime"))]
    | none => []) ++
  (match s.networkWan with
    | some item =>
      [("uplink", cloned (fieldOr item "name" "intf_name")),
       ("broadbandRemark", .str (firstTextByKeys ["service", "serviceName"] item))]
    | none => [])

def hasLan : Bool := s.networkLan.isSome || !isBlank s.lanIpFromPort

def wanValues : Entries :=
  [("ipv4", .str ((textOf s.wanInfo "ip").getD
    (((s.slow.bind (field · "wan_ip")).bind asStr?).getD "")))] ++
  (match s.wanInfo, s.networkWan with
    | some item, _ =>
      [("gateway", cloned (field item "gateway")), ("netmask", cloned (field item "mask")),
       ("proto", cloned (field item "proto")), ("mtu", cloned (field item "mtu")),
       ("dnsServers", csvValues (field item "dnsList"))]
    | none, some item => [("proto", cloned (field item "proto")), ("mtu", cloned (field item "mtu"))]
    | none, none => []) ++
  (match s.network with
    | some root =>
      [("interfaceDisplay", .str (wanInterfaceDisplay root)),
       ("operator", .str (firstTextByKeys
         ["operator", "isp", "ispName", "serviceName", "carrier", "provider"] root))]
    | none => []) ++
  (match s.slow.bind (field · "status") with
    | some status => [("status", status)]
    | none => [])

def hasWan : Bool := s.wanInfo.isSome || (s.slow.bind (field · "wan_ip")).isSome

def apValues (item : Json) : Entries :=
  [("networkName", cloned (field item "networkName")), ("hostName", cloned (field item "hostName")),
   ("model", cloned (fieldOr item "devModel" "deviceType")),
   ("managementIp", cloned (field item "ip")), ("status", cloned (field item "status")),
   ("workMode", cloned (field item "forwardMode")), ("relayMode", cloned (field item "relayMode")),
   ("bands", csvValues (field item "band")), ("channels", csvValues (field item "channel")),
   ("channelUtilization", csvValues (field item "chutil")),
   ("stationCount", cloned (field item "staNum")), ("software", cloned (field item "software")),
   ("serialNumber", cloned (field item "serialNumber")), ("mac", cloned (field item "mac"))]

def apHostname : Option String :=
  (textOf s.ap "hostName").or ((s.slow.bind (field · "hostname")).bind asStr?)

def apModel : Option String :=
  ((s.ap.bind fun item => fieldOr item "devModel" "deviceType").bind asStr?).filter fun text =>
    !isBlank text

def identityValues (routerModel : String) : Entries :=
  (match s.apHostname with
    | some hostname => [("hostname", .str hostname)]
    | none => []) ++
  [("model", .str (s.apModel.getD routerModel))]

end Sources

def insertSection (details : Entries) (key : String) (values : Entries) : Entries :=
  let map := insertAll [] values
  if map.isEmpty then details else Dict.set details key (.dict map)

def detailsFromSources (routerModel : String) (s : Sources) : Json :=
  let details := insertMeaningful [] "ports" (cloned s.ports)
  let details := insertMeaningful details "wireless" (cloned s.wireless)
  let details := match s.network with
    | some network => insertMeaningful details "network" (sanitizeConfigValue network)
    | none => details
  let details := if s.hasLan then insertSection details "lan" s.lanValues else details
  let details := if s.hasWan then insertSection details "wan" s.wanValues else details
  let details := match s.ap with
    | some item => insertSection details "ap" (Sources.apValues item)
    | none => details
  .dict (if s.apHostname.isSome || s.apModel.isSome || s.slow.isSome then
    insertSection details "identity" (s.identityValues routerModel)
  else details)

end LabProbe.Agent
