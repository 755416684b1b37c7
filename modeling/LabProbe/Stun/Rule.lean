import LabProbe.Hub.Values

/-!
# A STUN rule from a request

`clean_rule` builds the rule that is stored from the body of a request and
the rule it edits, or raises. A new rule gets a listening port that no rule
of its protocol takes; an edited rule keeps the port it has.
-/

namespace LabProbe.Stun

open Py Py.Json Hub Check

/-- What one request reads besides its arguments: the clock as a text, the
random part of a new identifier, and the environment. -/
structure Readings where
  now : String
  token : Nat
  env : String → String

structure Template where
  service : String
  suggestedPort : Int
  protocols : List String
  default : String

def serviceTemplates : List Template :=
  [⟨"HTTPS", 443, ["TCP"], "TCP"⟩, ⟨"HTTP", 80, ["TCP"], "TCP"⟩, ⟨"SSH", 22, ["TCP"], "TCP"⟩,
   ⟨"RDP", 3389, ["TCP"], "TCP"⟩, ⟨"Telnet", 23, ["TCP"], "TCP"⟩,
   ⟨"OpenVPN", 1194, ["TCP", "UDP"], "UDP"⟩, ⟨"DNS", 53, ["TCP", "UDP"], "UDP"⟩,
   ⟨"WireGuard", 51820, ["UDP"], "UDP"⟩, ⟨"Custom", 0, ["TCP", "UDP"], "TCP"⟩]

def customTemplate : Template := ⟨"Custom", 0, ["TCP", "UDP"], "TCP"⟩

structure Rule where
  id : String
  name : String
  enabled : Bool
  listenPort : Int
  targetIpv4 : String
  targetPort : Int
  serviceType : String
  transportProtocol : String
  stunServer : String
  maxConnections : Int
  idleTimeoutSec : Int
  createdAt : String
  updatedAt : String

/-- The value `clean_rule` returns. -/
def Rule.toJson (r : Rule) : Entries :=
  [("id", .str r.id), ("kind", .str "stun"), ("name", .str r.name), ("enabled", .bool r.enabled),
   ("mode", .str "stun"), ("listenPort", .int r.listenPort), ("targetMode", .str "ipv4"),
   ("targetIpv4", .str r.targetIpv4), ("targetPort", .int r.targetPort),
   ("serviceType", .str r.serviceType), ("transportProtocol", .str r.transportProtocol),
   ("forwardMode", .str "router_native"), ("stunServer", .str r.stunServer),
   ("maxConnections", .int r.maxConnections), ("idleTimeoutSec", .int r.idleTimeoutSec),
   ("createdAt", .str r.createdAt), ("updatedAt", .str r.updatedAt)]

def defaultStunUdpServer : String := "stun.cloudflare.com:3478"

def defaultStunTcpServer : String := "stunserver2025.stunprotocol.org:3478"

section
variable [Unicode]

-- ---------------------------------------------------------------------------
-- Fields
-- ---------------------------------------------------------------------------

def stunServer (env : String → String) (protocol : String) : String :=
  let protocol := Unicode.upper (strip protocol)
  let configured := strip (env ("STUN_" ++ protocol ++ "_SERVER"))
  if configured ≠ "" then configured
  else if protocol = "TCP" then defaultStunTcpServer else defaultStunUdpServer

def chosenTemplate (payload old : Entries) : Template :=
  let service := text (((get payload "serviceType").or (get old "serviceType")).or (.str "Custom"))
  (serviceTemplates.find? fun t => Unicode.lower t.service == Unicode.lower service).getD
    customTemplate

theorem chosenTemplate_mem (payload old : Entries) :
    chosenTemplate payload old ∈ customTemplate :: serviceTemplates := by
  have hmem : ∀ p, (serviceTemplates.find? p).getD customTemplate ∈
      customTemplate :: serviceTemplates := by
    intro p
    cases hfind : serviceTemplates.find? p with
    | some t => exact List.mem_cons_of_mem _ (List.mem_of_find?_eq_some hfind)
    | none => exact List.mem_cons_self
  exact hmem _

theorem template_protocol {payload old : Entries} {protocol : String}
    (h : protocol ∈ (chosenTemplate payload old).protocols) :
    protocol = "TCP" ∨ protocol = "UDP" := by
  have hall : ∀ t ∈ customTemplate :: serviceTemplates, ∀ p ∈ t.protocols,
      p = "TCP" ∨ p = "UDP" := by decide
  exact hall _ (chosenTemplate_mem payload old) protocol h

def chosenProtocol (payload old : Entries) : String :=
  Unicode.upper (text (((get payload "transportProtocol").or (get old "transportProtocol")).or
    (.str (chosenTemplate payload old).default)))

def chosenId (r : Readings) (payload old : Entries) : String :=
  let id := text ((get payload "id").or (get old "id"))
  if id = "" then "stun-" ++ hexDigits 12 r.token else id

def isRuleId (id : String) : Bool :=
  id.toList.all fun c => Unicode.isAlnum c || c == '-' || c == '_'

-- ---------------------------------------------------------------------------
-- Ports
-- ---------------------------------------------------------------------------

def ruleId (row : Entries) : String := text (get row "id")

/-- The port and the protocol a rule takes. -/
def slot (row : Entries) : Int × String :=
  (intOf 0 (get row "listenPort"), Unicode.upper (text (get row "transportProtocol")))

def usedPorts (rows portmaps : List Entries) (protocol excluding : String) : List Int :=
  ((rows.filter fun row => ruleId row != excluding && (slot row).2 == protocol) ++
    portmaps.filter fun row => (slot row).2 == protocol).map fun row => (slot row).1

def portRange : List Int := (List.range 21).map fun i => ((20000 + i : Nat) : Int)

def allocatedPort (rows portmaps : List Entries) (protocol excluding : String) :
    Except String Int :=
  match portRange.find? fun port => !(usedPorts rows portmaps protocol excluding).contains port with
  | some port => .ok port
  | none => .error "中继端口已用完，请先停止一个映射或穿透规则"

def listenPort (rows portmaps : List Entries) (protocol id : String) (old : Entries) :
    Except String Int :=
  let kept := intOf 0 (get old "listenPort")
  if kept ≠ 0 then .ok kept else allocatedPort rows portmaps protocol id

-- ---------------------------------------------------------------------------
-- The rule
-- ---------------------------------------------------------------------------

def chosenTarget (payload old : Entries) : String :=
  text ((get payload "targetIpv4").or (get old "targetIpv4"))

def checkTarget (targetIp : String) : Except String Unit :=
  match ipAddress targetIp with
  | some address => require (isLanIpv4 address) "目标地址必须是内网 IPv4 地址"
  | none => .error "请输入有效的内网 IPv4 地址"

def chosenPort (payload old : Entries) : Int :=
  intOf (intOf (chosenTemplate payload old).suggestedPort (get old "targetPort"))
    (get payload "targetPort")

/-- The name of the rule, one made of the service and the target where the
request has none. -/
def chosenName (payload old : Entries) : String :=
  let given := text ((get payload "name").or (get old "name"))
  if given = "" then (chosenTemplate payload old).service ++ " · " ++ chosenTarget payload old ++
    ":" ++ toString (chosenPort payload old)
  else given

def boundedField (payload old : Entries) (key : String) (default low high : Int) : Int :=
  let n := intOf (intOf default (get old key)) (get payload key)
  max low (min high (if n = 0 then default else n))

/-- `clean_rule`, over the stored rules and the port maps. -/
def cleanRule (r : Readings) (rows portmaps : List Entries) (payload old : Entries) :
    Except String Rule := do
  let template := chosenTemplate payload old
  let protocol := chosenProtocol payload old
  require (template.protocols.contains protocol)
    (template.service ++ " 不支持 " ++ protocol ++ " 穿透")
  let targetIp := chosenTarget payload old
  checkTarget targetIp
  let targetPort := chosenPort payload old
  require (1 ≤ targetPort && targetPort ≤ 65535) "目标端口必须在 1–65535"
  let id := chosenId r payload old
  require (isRuleId id) "规则 ID 无效"
  let listen ← listenPort rows portmaps protocol id old
  let name := chosenName payload old
  require (name.length ≤ 64) "名称不能超过 64 个字符"
  let created := text (get old "createdAt")
  .ok {
    id := id
    name := name
    enabled := ((Dict.get? payload "enabled").getD
      ((Dict.get? old "enabled").getD (.bool true))).truthy
    listenPort := listen
    targetIpv4 := targetIp
    targetPort := targetPort
    serviceType := template.service
    transportProtocol := protocol
    stunServer := stunServer r.env protocol
    maxConnections := boundedField payload old "maxConnections" 32 1 256
    idleTimeoutSec := boundedField payload old "idleTimeoutSec" 300 30 3600
    createdAt := if created = "" then r.now else created
    updatedAt := r.now }

structure Cleaned (r : Readings) (rows portmaps : List Entries) (payload old : Entries)
    (rule : Rule) : Prop where
  id : rule.id = chosenId r payload old
  idChars : isRuleId rule.id = true
  name : rule.name = chosenName payload old
  nameLength : rule.name.length ≤ 64
  listenPort : listenPort rows portmaps rule.transportProtocol rule.id old = .ok rule.listenPort
  targetIpv4 : rule.targetIpv4 = chosenTarget payload old
  target : ∃ value, ipAddress rule.targetIpv4 = some (.v4 value)
  targetPort : rule.targetPort = chosenPort payload old
  targetPortRange : 1 ≤ rule.targetPort ∧ rule.targetPort ≤ 65535
  service : rule.serviceType = (chosenTemplate payload old).service
  protocol : rule.transportProtocol = chosenProtocol payload old
  transport : rule.transportProtocol = "TCP" ∨ rule.transportProtocol = "UDP"
  server : rule.stunServer = stunServer r.env rule.transportProtocol
  maxConnections : 1 ≤ rule.maxConnections ∧ rule.maxConnections ≤ 256
  idleTimeoutSec : 30 ≤ rule.idleTimeoutSec ∧ rule.idleTimeoutSec ≤ 3600

omit [Unicode] in
theorem checkTarget_ok {targetIp : String} (h : checkTarget targetIp = .ok u) :
    ∃ value, ipAddress targetIp = some (.v4 value) := by
  unfold checkTarget at h
  split at h
  · rename_i address haddress
    rw [require_eq_ok] at h
    cases address with
    | v4 value => exact ⟨value, haddress⟩
    | v6 value => cases h
  · cases h

theorem cleanRule_ok {r : Readings} {rows portmaps : List Entries} {payload old : Entries}
    {rule : Rule} (h : cleanRule r rows portmaps payload old = .ok rule) :
    Cleaned r rows portmaps payload old rule := by
  simp only [cleanRule, bind_eq_ok, require_eq_ok, Except.ok.injEq] at h
  obtain ⟨-, hprotocol, _, htarget, -, hport, -, hid, listen, hlisten, -, hname, rfl⟩ := h
  -- the fields are read off the record before anything is compared
  constructor <;> dsimp only
  case idChars => exact hid
  case nameLength => exact of_decide_eq_true hname
  case listenPort => exact hlisten
  case target => exact checkTarget_ok htarget
  case targetPortRange => simpa using hport
  case transport => exact template_protocol (by simpa using hprotocol)
  case maxConnections => exact ⟨le_max_left _ _, max_le (by decide) (min_le_left _ _)⟩
  case idleTimeoutSec => exact ⟨le_max_left _ _, max_le (by decide) (min_le_left _ _)⟩

end

end LabProbe.Stun
