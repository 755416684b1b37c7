import LabProbe.Hub.Values

/-!
# A port-map rule from a request

`_clean_portmap_rule` builds the rule that is stored from the body of a
request and the rule it edits, or raises. The fields of the request are read
over those of the edited rule.
-/

namespace LabProbe.PortMap

open Py Py.Json Hub Check

/-- What one request reads besides its arguments: the clock, the random part
of a new identifier, and the reading of local times. -/
structure Readings where
  now : String
  epoch : Nat
  token : Nat
  timeEpoch : String → Option Int

def Readings.freshId (r : Readings) : String :=
  "pm-" ++ toString r.epoch ++ "-" ++ hexDigits 6 r.token

structure Rule where
  id : String
  name : String
  enabled : Bool
  mode : String
  listenPort : Int
  targetMode : String
  targetIpv4 : String
  targetIpv6 : String
  targetIpv6Snapshot : String
  targetIpv6Suffix : String
  targetMac : String
  targetPort : Int
  serviceType : String
  transportProtocol : String
  preferCurrentPrefix : Bool
  expiresAt : Option Int
  leaseSeconds : Int
  maxConnections : Int
  idleTimeoutSec : Int
  createdAt : Json
  updatedAt : String

/-- The value `_clean_portmap_rule` returns. -/
def Rule.toJson (r : Rule) : Entries :=
  [("id", .str r.id), ("name", .str r.name), ("enabled", .bool r.enabled), ("mode", .str r.mode),
   ("listenPort", .int r.listenPort), ("targetMode", .str r.targetMode),
   ("targetIpv4", .str r.targetIpv4), ("targetIpv6", .str r.targetIpv6),
   ("targetIpv6Snapshot", .str r.targetIpv6Snapshot),
   ("targetIpv6Suffix", .str r.targetIpv6Suffix), ("targetMac", .str r.targetMac),
   ("targetPort", .int r.targetPort), ("serviceType", .str r.serviceType),
   ("transportProtocol", .str r.transportProtocol),
   ("preferCurrentPrefix", .bool r.preferCurrentPrefix),
   ("expiresAt", (r.expiresAt.map Json.int).getD .null), ("leaseSeconds", .int r.leaseSeconds),
   ("maxConnections", .int r.maxConnections), ("idleTimeoutSec", .int r.idleTimeoutSec),
   ("createdAt", r.createdAt), ("updatedAt", .str r.updatedAt)]

-- ---------------------------------------------------------------------------
-- Fields
-- ---------------------------------------------------------------------------

/-- `{**old, **payload}`, by key. -/
def merged (old payload : Entries) (key : String) : Option Json :=
  (Dict.get? payload key).or (Dict.get? old key)

def slugChar (c : Char) : Bool := c.isAlphanum || c == '_' || c == '-'

/-- `re.sub(r"[^a-zA-Z0-9_-]+", "-", s)`; `inside` says that the character
before was replaced as well. -/
def hyphenate (inside : Bool) : List Char → List Char
  | [] => []
  | c :: cs =>
    if slugChar c then c :: hyphenate false cs
    else if inside then hyphenate true cs
    else '-' :: hyphenate true cs

/-- `s.strip(chars)`. -/
def stripChars (chars : List Char) (s : String) : String :=
  String.ofList (List.rdropWhile chars.contains (s.toList.dropWhile chars.contains))

/-- `re.fullmatch(r"[0-9a-f]{2}(?::[0-9a-f]{2}){5}", s)`. -/
def isMac (s : String) : Bool :=
  let parts := splitOn ':' s.toList
  parts.length == 6 && parts.all fun part =>
    part.length == 2 && part.all fun c => c.isDigit || ('a' ≤ c && c ≤ 'f')

section
variable [Unicode]

def portmapEpoch (value : Json) : Option Int :=
  if [Json.null, .str "", .int 0, .str "0"].any value.eq then none
  else do
    let n := truncate (← parseFloat value.toStr)
    let n := if 10000000000 < n then n / 1000 else n
    if 0 < n then some n else none

/-- The identifier a text stands for, empty where nothing of it is left. -/
def slug (s : String) : String :=
  takeChars 48 (Unicode.lower (stripChars ['-'] (String.ofList (hyphenate false (strip s).toList))))

def portmapRuleId (value : Json) (freshId : String) : String :=
  let raw := slug (value.or (.str "")).toStr
  if raw = "" then freshId else raw

/-- The text of a suffix as an address, its higher half left to the zeros of
a double colon. -/
def suffixCandidate (text : String) : String :=
  if contains [':', ':'] text.toList then text
  else "::" ++ String.ofList (text.toList.dropWhile (· == ':'))

def normalizeIpv6Suffix (value : Json) : Except String String := do
  let text := stripChars ['[', ']'] (Unicode.lower (cleanSavedValue value))
  if text = "" then .ok "" else
  match ← ipAddressOf (suffixCandidate text) with
  | .v4 _ => .error "IPv6 后缀无效"
  | .v6 address =>
    let iid := address % 2 ^ 64
    require (iid != 0) "IPv6 后缀不能全部为 0"
    .ok (String.ofList (ipv6Text iid))

def portmapTimeEpoch (r : Readings) (value : Json) : Option Int :=
  let raw := cleanSavedValue value
  if raw = "" then none else r.timeEpoch raw

def derivedLease (start : Option Int) (expiresAt : Int) : Option Int :=
  match start with
  | some start =>
    if start ≠ 0 ∧ start < expiresAt then some (max 60 (min (7 * 86400) (expiresAt - start)))
    else none
  | none => none

def portmapLeaseSeconds (r : Readings) (src : String → Option Json) (old : Entries)
    (expiresAt : Option Int) : Int :=
  let lease := max 0 (min (7 * 86400) (toInt ((src "leaseSeconds").getD .null) 0))
  match expiresAt with
  | none => lease
  | some expiresAt =>
    let since (key : String) := portmapTimeEpoch r ((get old key).or ((src key).getD .null))
    if 0 < lease then lease
    else ((derivedLease (since "createdAt") expiresAt).or
      (derivedLease (since "updatedAt") expiresAt)).getD 0

-- ---------------------------------------------------------------------------
-- The target
-- ---------------------------------------------------------------------------

omit [Unicode] in
def isTargetIpv6 (ip : IpAddress) : Bool :=
  ip.version == 6 &&
    !(ip.isLinkLocal || ip.isMulticast || ip.isLoopback || ip.isUnspecified)

omit [Unicode] in
structure Target where
  mode : String
  ipv4 : String := ""
  ipv6 : String := ""
  snapshot : String := ""
  suffix : String := ""

def target6to4 (ipv4 : String) : Except String Target := do
  require (isLanIpv4 (← ipAddressOf ipv4)) "6to4 目标必须是内网 IPv4"
  .ok { mode := "ipv4", ipv4 := ipv4 }

def targetFull (ipv6 : String) : Except String Target := do
  let ip ← ipAddressOf ipv6
  require (isTargetIpv6 ip) "目标 IPv6 无效"
  .ok { mode := "ipv6_full", ipv6 := ipText ipv6 ip, snapshot := ipText ipv6 ip }

def targetSnapshot (snapshot : String) : Except String String := do
  if snapshot = "" then .ok "" else
  let ip ← ipAddressOf snapshot
  require (isTargetIpv6 ip) "目标 IPv6 快照无效"
  .ok (ipText snapshot ip)

def targetSuffix (snapshot suffix : String) : Except String Target := do
  let suffix ← normalizeIpv6Suffix (.str suffix)
  require (suffix != "") "请输入目标 IPv6 后缀"
  .ok { mode := "ipv6_suffix", snapshot := ← targetSnapshot snapshot, suffix := suffix }

def cleanTarget (mode : String) (src : String → Json) : Except String Target :=
  if mode = "6to4" then target6to4 (cleanSavedValue (src "targetIpv4"))
  else if Unicode.lower (cleanSavedValue (src "targetMode")) = "ipv6_full" then
    targetFull (stripChars ['[', ']'] (cleanSavedValue (src "targetIpv6")))
  else
    targetSuffix (stripChars ['[', ']'] (cleanSavedValue (src "targetIpv6Snapshot")))
      (Unicode.lower (cleanSavedValue (src "targetIpv6Suffix")))

theorem target6to4_ok {ipv4 : String} {target : Target} (h : target6to4 ipv4 = .ok target) :
    (∃ value, ipAddress ipv4 = some (.v4 value)) ∧ target = { mode := "ipv4", ipv4 := ipv4 } := by
  simp only [target6to4, bind_eq_ok, ipAddressOf_eq_ok, require_eq_ok, Except.ok.injEq] at h
  obtain ⟨address, haddress, -, hlan, rfl⟩ := h
  cases address with
  | v4 value => exact ⟨⟨value, haddress⟩, rfl⟩
  | v6 value => cases hlan

theorem targetFull_ok {ipv6 : String} {target : Target} (h : targetFull ipv6 = .ok target) :
    ∃ value, ipAddress ipv6 = some (.v6 value) ∧ isTargetIpv6 (.v6 value) = true ∧
      target.mode = "ipv6_full" ∧ target.ipv4 = "" ∧ target.suffix = "" ∧
      target.ipv6 = String.ofList (ipv6Text value ++ scopeText ipv6) := by
  simp only [targetFull, bind_eq_ok, ipAddressOf_eq_ok, require_eq_ok, Except.ok.injEq] at h
  obtain ⟨address, haddress, -, htarget, rfl⟩ := h
  cases address with
  | v4 value => cases htarget
  | v6 value => exact ⟨value, haddress, htarget, rfl, rfl, rfl, rfl⟩

/-- A suffix that is accepted is the lower half of the address read, not zero. -/
theorem normalizeIpv6Suffix_ok {value : Json} {suffix : String}
    (h : normalizeIpv6Suffix value = .ok suffix) (hne : suffix ≠ "") :
    ∃ address, ipAddress (suffixCandidate
        (stripChars ['[', ']'] (Unicode.lower (cleanSavedValue value)))) = some (.v6 address) ∧
      address % 2 ^ 64 ≠ 0 ∧ suffix = String.ofList (ipv6Text (address % 2 ^ 64)) := by
  simp only [normalizeIpv6Suffix] at h
  split at h
  · cases h
    exact absurd rfl hne
  · simp only [bind_eq_ok, ipAddressOf_eq_ok] at h
    obtain ⟨address, haddress, h⟩ := h
    cases address with
    | v4 value => cases h
    | v6 address =>
      simp only [bind_eq_ok, require_eq_ok, Except.ok.injEq] at h
      obtain ⟨-, hzero, rfl⟩ := h
      exact ⟨address, haddress, by simpa using hzero, rfl⟩

theorem targetSuffix_ok {snapshot given : String} {target : Target}
    (h : targetSuffix snapshot given = .ok target) :
    normalizeIpv6Suffix (.str given) = .ok target.suffix ∧ target.suffix ≠ "" ∧
      target.mode = "ipv6_suffix" ∧ target.ipv4 = "" ∧ target.ipv6 = "" := by
  simp only [targetSuffix, bind_eq_ok, require_eq_ok, Except.ok.injEq] at h
  obtain ⟨suffix, hsuffix, -, hne, shown, -, rfl⟩ := h
  exact ⟨hsuffix, by simpa using hne, rfl, rfl, rfl⟩

-- ---------------------------------------------------------------------------
-- The rule
-- ---------------------------------------------------------------------------

def requestedMode (src : String → Json) : String :=
  Unicode.lower (cleanSavedValue ((src "mode").or (.str "6to4")))

def cleanPortmapRule (r : Readings) (payload old : Entries) : Except String Rule := do
  let src (key : String) := (merged old payload key).getD .null
  let mode := requestedMode src
  require (["6to4", "6to6"].contains mode) "映射类型只能是 6to4 或 6to6"
  let listenPort := toInt (src "listenPort") 0
  let targetPort := toInt (src "targetPort") 0
  require (20000 ≤ listenPort && listenPort ≤ 20020) "监听端口必须在 20000-20020"
  require (1 ≤ targetPort && targetPort ≤ 65535) "目标端口无效"
  let name := takeChars 64 (cleanSavedValue (src "name"))
  require (name != "") "规则名称不能为空"
  let protocol := Unicode.upper (cleanSavedValue ((src "transportProtocol").or (.str "TCP")))
  require (["TCP", "UDP"].contains protocol) "传输协议只能是 TCP 或 UDP"
  let mac := normMac (src "targetMac")
  require (mac == "" || isMac mac) "目标 MAC 格式无效"
  let target ← cleanTarget mode src
  let expiresAt := portmapEpoch (src "expiresAt")
  let orDefault (n default : Int) := if n = 0 then default else n
  .ok {
    id := portmapRuleId ((src "id").or (get old "id")) r.freshId
    name := name
    enabled := ((merged old payload "enabled").getD (.bool false)).truthy
    mode := mode
    listenPort := listenPort
    targetMode := target.mode
    targetIpv4 := target.ipv4
    targetIpv6 := target.ipv6
    targetIpv6Snapshot := target.snapshot
    targetIpv6Suffix := target.suffix
    targetMac := mac
    targetPort := targetPort
    serviceType := takeChars 24 (cleanSavedValue (src "serviceType"))
    transportProtocol := protocol
    preferCurrentPrefix := ((merged old payload "preferCurrentPrefix").getD (.bool true)).truthy
    expiresAt := expiresAt
    leaseSeconds := if expiresAt.isSome then
      portmapLeaseSeconds r (merged old payload) old expiresAt else 0
    maxConnections := max 1 (min 256 (orDefault (toInt (src "maxConnections") 32) 32))
    idleTimeoutSec := max 30 (min 3600 (orDefault (toInt (src "idleTimeoutSec") 300) 300))
    createdAt := (get old "createdAt").or (.str r.now)
    updatedAt := r.now }

structure Cleaned (r : Readings) (payload old : Entries) (target : Target) (rule : Rule) : Prop where
  id : rule.id = portmapRuleId
    (((merged old payload "id").getD .null).or (get old "id")) r.freshId
  name : rule.name = takeChars 64 (cleanSavedValue ((merged old payload "name").getD .null))
  named : rule.name ≠ ""
  mode : rule.mode = requestedMode fun key => (merged old payload key).getD .null
  modes : rule.mode = "6to4" ∨ rule.mode = "6to6"
  port : rule.listenPort = toInt ((merged old payload "listenPort").getD .null) 0
  listenPort : 20000 ≤ rule.listenPort ∧ rule.listenPort ≤ 20020
  targetPort : 1 ≤ rule.targetPort ∧ rule.targetPort ≤ 65535
  transport : rule.transportProtocol = Unicode.upper
    (cleanSavedValue (((merged old payload "transportProtocol").getD .null).or (.str "TCP")))
  protocol : rule.transportProtocol = "TCP" ∨ rule.transportProtocol = "UDP"
  mac : rule.targetMac = "" ∨ isMac rule.targetMac = true
  cleaned : cleanTarget rule.mode (fun key => (merged old payload key).getD .null) = .ok target
  target : rule.targetMode = target.mode ∧ rule.targetIpv4 = target.ipv4 ∧
    rule.targetIpv6 = target.ipv6 ∧ rule.targetIpv6Snapshot = target.snapshot ∧
    rule.targetIpv6Suffix = target.suffix
  expiresAt : rule.expiresAt = portmapEpoch ((merged old payload "expiresAt").getD .null)
  leaseSeconds : rule.leaseSeconds = if rule.expiresAt.isSome then
    portmapLeaseSeconds r (merged old payload) old rule.expiresAt else 0
  maxConnections : 1 ≤ rule.maxConnections ∧ rule.maxConnections ≤ 256
  idleTimeoutSec : 30 ≤ rule.idleTimeoutSec ∧ rule.idleTimeoutSec ≤ 3600

theorem cleanPortmapRule_ok {r : Readings} {payload old : Entries} {rule : Rule}
    (h : cleanPortmapRule r payload old = .ok rule) : ∃ target, Cleaned r payload old target rule := by
  simp only [cleanPortmapRule, bind_eq_ok, require_eq_ok, Except.ok.injEq] at h
  obtain ⟨-, hmode, -, hlisten, -, htarget, -, hname, -, hprotocol, -, hmac, target, hclean, rfl⟩ := h
  exact ⟨target, {
    id := rfl
    name := rfl
    named := by simpa using hname
    mode := rfl
    modes := by simpa using hmode
    port := rfl
    listenPort := by simpa using hlisten
    targetPort := by simpa using htarget
    transport := rfl
    protocol := by simpa using hprotocol
    mac := by simpa using hmac
    cleaned := hclean
    target := ⟨rfl, rfl, rfl, rfl, rfl⟩
    expiresAt := rfl
    leaseSeconds := rfl
    maxConnections := ⟨le_max_left _ _, max_le (by decide) (min_le_left _ _)⟩
    idleTimeoutSec := ⟨le_max_left _ _, max_le (by decide) (min_le_left _ _)⟩ }⟩

end

end LabProbe.PortMap
