import Mathlib.Data.List.Forall2
import LabProbe.Py.Base64
import LabProbe.Py.IpNetwork
import LabProbe.Stun.Handlers
import LabProbe.WireGuard.Agreement

/-!
# A WireGuard server from a request

`clean_server` builds the server that is stored from the body of a request
and the server it replaces, or raises. A profile that uses a STUN rule moves
the target of the rule to a new listening port while it is checked, and the
moved rule is saved at once.
-/

namespace LabProbe.WireGuard

open Py Py.Json Hub Check

/-- What one request reads besides its arguments: the clock as a text, and
the random parts of new identifiers, by the row they are made for. -/
structure Readings where
  now : String
  peerToken : Nat → Nat
  profileToken : Nat → Nat

structure Peer where
  id : String
  name : String
  publicKey : String
  allowedIps : List String
  persistentKeepaliveSeconds : Int

structure EndpointProfile where
  id : String
  name : String
  endpointSource : String
  enabled : Bool
  port : Int
  endpointRevision : Int
  resolvedEndpoint : String
  forwardMode : String
  hostname : String := ""
  stunRuleId : String := ""
  bindingMode : String := ""
  owner : String := ""
  /-- `localTargetPort`, which stands beside `transportProtocol` in STUN profiles. -/
  localTargetPort : Option Int := none

structure CleanedServer where
  interfaceName : String
  address : String
  listenPort : Int
  mtu : Int
  enabled : Bool
  peers : List Peer
  endpointProfiles : List EndpointProfile

def Peer.toJson (p : Peer) : Entries :=
  [("id", .str p.id), ("name", .str p.name), ("publicKey", .str p.publicKey),
   ("allowedIps", .list (p.allowedIps.map .str)),
   ("persistentKeepaliveSeconds", .int p.persistentKeepaliveSeconds)]

def EndpointProfile.toJson (p : EndpointProfile) : Entries :=
  [("id", .str p.id), ("name", .str p.name), ("endpointSource", .str p.endpointSource),
   ("enabled", .bool p.enabled), ("port", .int p.port),
   ("endpointRevision", .int p.endpointRevision), ("resolvedEndpoint", .str p.resolvedEndpoint),
   ("forwardMode", .str p.forwardMode), ("hostname", .str p.hostname),
   ("stunRuleId", .str p.stunRuleId), ("bindingMode", .str p.bindingMode),
   ("owner", .str p.owner)] ++
  match p.localTargetPort with
  | some port => [("transportProtocol", .str "UDP"), ("localTargetPort", .int port)]
  | none => []

/-- The value `clean_server` returns. -/
def CleanedServer.toJson (s : CleanedServer) : Entries :=
  [("interfaceName", .str s.interfaceName), ("address", .str s.address),
   ("listenPort", .int s.listenPort), ("mtu", .int s.mtu), ("enabled", .bool s.enabled),
   ("peers", .list (s.peers.map fun p => .dict p.toJson)),
   ("endpointProfiles", .list (s.endpointProfiles.map fun p => .dict p.toJson))]

-- ---------------------------------------------------------------------------
-- Values
-- ---------------------------------------------------------------------------

/-- `re.fullmatch` of one to `limit` letters, digits and characters of `extra`. -/
def isWord (extra : List Char) (limit : Nat) (s : String) : Bool :=
  1 ≤ s.length && s.length ≤ limit && s.toList.all fun c => c.isAlphanum || extra.contains c

def iterate (value : Json) : Except String (List Json) :=
  if !value.truthy then .ok []
  else match value with
  | .list xs => .ok xs
  | .dict d => .ok ((Dict.keys d).map .str)
  | .str s => .ok (s.toList.map fun c => .str (String.singleton c))
  | value => .error ("'" ++ typeName value ++ "' object is not iterable")

theorem iterate_list (xs : List Json) : iterate (.list xs) = .ok xs := by
  cases xs <;> rfl

def fieldOr (payload old : Entries) (key : String) (default : Json) : Json :=
  (Dict.get? payload key).getD (Json.getD old key default)

def peerRows (payload old : Entries) : List Json :=
  (iterate (fieldOr payload old "peers" (.list []))).toOption.getD []

def profileRows (payload old : Entries) : List Json :=
  (iterate (fieldOr payload old "endpointProfiles" (.list []))).toOption.getD []

section
variable [Unicode]

def normalizedKey (key : String) : String :=
  String.ofList ((Unicode.lower key).toList.filter fun c => 'a' ≤ c && c ≤ 'z')

def secretKeys : List String := ["privatekey", "presharedkey", "secret", "password"]

mutual
def hasSecret : Json → Bool
  | .dict d => hasSecretEntries d
  | .list xs => hasSecretList xs
  | _ => false

def hasSecretList : List Json → Bool
  | [] => false
  | x :: xs => hasSecret x || hasSecretList xs

def hasSecretEntries : List (String × Json) → Bool
  | [] => false
  | (key, value) :: d =>
    secretKeys.contains (normalizedKey key) || hasSecret value || hasSecretEntries d
end

-- ---------------------------------------------------------------------------
-- Peers
-- ---------------------------------------------------------------------------

def publicKey (value : Json) : Except String String :=
  match Base64.decode (Hub.text value) with
  | none => .error "Peer 公钥格式无效"
  | some bytes => do
    require (bytes.length == 32) "Peer 公钥必须是 32 字节 WireGuard 公钥"
    .ok (Hub.text value)

def allowedIp (value : Json) : Except String String :=
  match ipNetwork (Hub.text value) with
  | some network => .ok network.text
  | none => .error "Peer AllowedIPs 无效"

def rowId (fresh : String) (raw : Entries) : String :=
  let id := Hub.text (get raw "id")
  if id = "" then fresh else id

def rowName (default : String) (raw : Entries) : String :=
  let name := takeChars 64 (Hub.text (get raw "name"))
  if name = "" then default else name

def cleanPeer (fresh : String) (done : List Peer) (raw : Entries) : Except String Peer := do
  let id := rowId fresh raw
  require (isWord ['_', '-'] 48 id && !(done.map Peer.id).contains id) "Peer ID 无效或重复"
  let key ← publicKey (get raw "publicKey")
  require (!(done.map Peer.publicKey).contains key) "Peer 公钥重复"
  let allowed ← (← iterate (get raw "allowedIps")).mapM allowedIp
  require (!allowed.isEmpty) "Peer 至少需要一个 AllowedIPs"
  let keepalive := intOf 25 (get raw "persistentKeepaliveSeconds")
  require (0 ≤ keepalive && keepalive ≤ 600) "Peer Keepalive 必须在 0–600 秒"
  .ok {
    id := id
    name := rowName id raw
    publicKey := key
    allowedIps := allowed
    persistentKeepaliveSeconds := keepalive }

def Readings.peerId (r : Readings) (row : Nat) : String := "peer-" ++ hexDigits 10 (r.peerToken row)

def cleanPeers (r : Readings) (done : List Peer) : List Json → Except String (List Peer)
  | [] => .ok done
  | .dict raw :: rows => do
    cleanPeers r (done ++ [← cleanPeer (r.peerId done.length) done raw]) rows
  | _ :: _ => .error "Peer 配置无效"

-- ---------------------------------------------------------------------------
-- The STUN rule of a profile
-- ---------------------------------------------------------------------------

def stunRule (id : String) (rules : Stun.Document) : Option Entries :=
  rules.rules.find? (Stun.named id)

def pointsElsewhere (id : String) (listenPort : Int) (row : Entries) : Bool :=
  Stun.named id row && intOf 0 (get row "targetPort") != listenPort

/-- `_sync_stun_rule_target_port`. -/
def syncTargetPort (now id : String) (listenPort : Int) (rules : Stun.Document) : Stun.Document :=
  if rules.rules.any (pointsElsewhere id listenPort) then
    let rows := rules.rules.map fun row =>
      if pointsElsewhere id listenPort row then Dict.set row "targetPort" (.int listenPort) else row
    Stun.saveRules now rows rules
  else rules

def followsServer (id : String) (listenPort : Int) (old : Entries) (rules : Stun.Document) : Bool :=
  let port := intOf 0 (get old "listenPort")
  !old.isEmpty && port != listenPort &&
    (stunRule id rules).any fun rule => intOf 0 (get rule "targetPort") == port

def validateStunBinding (id : String) (listenPort : Int) (rules : Stun.Document) :
    Except String Unit :=
  match stunRule id rules with
  | none => .error "STUN Profile 关联规则不存在"
  | some rule => do
    require (get rule "enabled").truthy "STUN Profile 关联规则必须已启用"
    require (Unicode.lower (Hub.text (get rule "kind")) == "stun") "STUN Profile 关联规则类型无效"
    require (Unicode.upper (Hub.text (get rule "transportProtocol")) == "UDP")
      "WireGuard STUN Profile 必须关联 UDP 规则"
    require (Stun.isNativeForward rule) "WireGuard STUN Profile 必须使用路由器原生端口映射"
    require (intOf 0 (get rule "targetPort") == listenPort)
      "STUN 规则目标端口必须等于 WireGuard 监听端口"
    match ipAddress (Hub.text (get rule "targetIpv4")) with
    | none => .error "STUN 规则目标必须是有效的路由器/Agent IPv4 地址"
    | some (.v4 value) => require (isPrivate4 value) "STUN 规则目标必须是路由器/Agent 私有 IPv4 地址"
    | some (.v6 _) => .error "STUN 规则目标必须是路由器/Agent 私有 IPv4 地址"

-- ---------------------------------------------------------------------------
-- Profiles
-- ---------------------------------------------------------------------------

structure Opening where
  interfaceName : String
  address : String
  listenPort : Int
  peers : List Peer
  oldProfiles : List (String × Entries)
  rows : List Json

def profilesById (rows : List Json) : List (String × Entries) :=
  Dict.ofEntries (rows.filterMap fun row => row.dict?.map fun d => (Hub.text (get d "id"), d))

def sourceName (source : String) : String :=
  if source = "manual" then "手动地址" else if source = "ddns" then "DDNS 直连" else "STUN 穿透"

def rowSource (raw : Entries) : String := Unicode.lower (Hub.text (get raw "endpointSource"))

def rowRevision (oldProfiles : List (String × Entries)) (id : String) (raw : Entries) : Int :=
  let kept := ((Dict.get? oldProfiles id).map fun d => Json.getD d "endpointRevision" (.int 0)).getD
    (.int 0)
  max 0 (intOf 0 (Json.getD raw "endpointRevision" kept))

def openProfile (fresh : String) (o : Opening) (done : List EndpointProfile) (raw : Entries) :
    Except String EndpointProfile := do
  let id := rowId fresh raw
  let source := rowSource raw
  require (isWord ['_', '-'] 48 id && !(done.map EndpointProfile.id).contains id)
    "Endpoint Profile ID 无效或重复"
  require (endpointSources.contains source) "Endpoint Source 只能是 manual、ddns 或 stun"
  let port := intOf o.listenPort (get raw "port")
  require (1 ≤ port && port ≤ 65535) "Endpoint 端口无效"
  .ok {
    id := id
    name := rowName (sourceName source) raw
    endpointSource := source
    enabled := (Json.getD raw "enabled" (.bool true)).truthy
    port := port
    endpointRevision := rowRevision o.oldProfiles id raw
    resolvedEndpoint := Hub.text (get raw "resolvedEndpoint")
    forwardMode := Hub.text (get raw "forwardMode") }

def manualProfile (profile : EndpointProfile) : Except String EndpointProfile := do
  require (profile.resolvedEndpoint != "") "Manual Profile 需要固定 Endpoint"
  .ok { profile with bindingMode := "manual" }

def ddnsProfile (o : Opening) (raw : Entries) (profile : EndpointProfile) :
    Except String EndpointProfile := do
  let hostname := rstripChar '.' (Unicode.lower (Hub.text (get raw "hostname")))
  require (hostname != "" && hostname.length ≤ 253 && !hostname.toList.contains ':')
    "DDNS Profile 需要独立域名"
  .ok { profile with port := o.listenPort
                     hostname := hostname
                     bindingMode := "fixed-port"
                     owner := "ddns:" ++ profile.id }

def rowStunRule (raw : Entries) : Except String String := do
  require (Hub.text (get raw "hostname") == "") "STUN Profile 不能复用 DDNS 域名字段"
  let id := Hub.text (get raw "stunRuleId")
  require (isWord ['_', '-'] 64 id) "STUN Profile 需要独立的 UDP 穿透规则"
  .ok id

def stunProfile (o : Opening) (ruleId : String) (profile : EndpointProfile) : EndpointProfile :=
  { profile with stunRuleId := ruleId
                 bindingMode := "router-native"
                 forwardMode := "router_native"
                 localTargetPort := some o.listenPort
                 owner := "stun:" ++ ruleId }

/-- The rules once the rule of a profile has been moved, where it is. -/
def followServer (now id : String) (listenPort : Int) (old : Entries) (rules : Stun.Document) :
    Stun.Document :=
  if followsServer id listenPort old rules then syncTargetPort now id listenPort rules else rules

/-- A row of the profiles; the rules are saved before the last checks. -/
def cleanProfile (r : Readings) (fresh : String) (old : Entries) (o : Opening)
    (done : List EndpointProfile) (rules : Stun.Document) (raw : Entries) :
    Except String EndpointProfile × Stun.Document :=
  andThen (openProfile fresh o done raw, rules) fun profile rules =>
    if profile.endpointSource = "manual" then (manualProfile profile, rules)
    else if profile.endpointSource = "ddns" then (ddnsProfile o raw profile, rules)
    else andThen (rowStunRule raw, rules) fun id rules =>
      let rules := followServer r.now id o.listenPort old rules
      ((validateStunBinding id o.listenPort rules).map fun _ => stunProfile o id profile, rules)

/-- The identifier made for the profile of a row. -/
def Readings.profileId (r : Readings) (row : Nat) : String :=
  "endpoint-" ++ hexDigits 8 (r.profileToken row)

def cleanProfiles (r : Readings) (old : Entries) (o : Opening) (done : List EndpointProfile)
    (rules : Stun.Document) : List Json → Except String (List EndpointProfile) × Stun.Document
  | [] => (.ok done, rules)
  | .dict raw :: rows =>
    andThen (cleanProfile r (r.profileId done.length) old o done rules raw)
      fun profile rules => cleanProfiles r old o (done ++ [profile]) rules rows
  | _ :: _ => (.error "Endpoint Profile 无效", rules)

-- ---------------------------------------------------------------------------
-- The server
-- ---------------------------------------------------------------------------

/-- The text of a field, of the request, of the old server, or the default. -/
def textOr (payload old : Entries) (key default : String) : String :=
  Hub.text (((get payload key).or (get old key)).or (.str default))

def checkInterface (name : String) : Except String Unit :=
  require (isWord ['_', '.', '-'] 15 name && name != "lo") "WireGuard 接口名称无效"

def checkAddress (address : String) : Except String String :=
  match ipInterface address with
  | none => .error "WireGuard 服务端地址无效"
  | some interface => match interface.address with
    | .v4 value => do
      require (isPrivate4 value) "WireGuard 服务端必须使用私有 IPv4 地址段"
      .ok interface.text
    | .v6 _ => .error "WireGuard 服务端必须使用私有 IPv4 地址段"

def numberOr (payload old : Entries) (key : String) (default : Int) : Int :=
  intOf (intOf default (get old key)) (get payload key)

def opening (r : Readings) (payload old : Entries) : Except String Opening := do
  require (!hasSecret (.dict payload)) "私钥只能保存在路由器 Agent 本地"
  let name := textOr payload old "interfaceName" "labwg0"
  checkInterface name
  let address ← checkAddress (textOr payload old "address" "10.77.0.1/24")
  let port := numberOr payload old "listenPort" 51820
  require (1 ≤ port && port ≤ 65535) "WireGuard UDP 监听端口无效"
  let peers ← cleanPeers r [] (← iterate (fieldOr payload old "peers" (.list [])))
  require (peers.length ≤ 64) "MVP 最多支持 64 个 Peer"
  let oldRows ← iterate (get old "endpointProfiles")
  let rows ← iterate (fieldOr payload old "endpointProfiles" (.list []))
  .ok {
    interfaceName := name
    address := address
    listenPort := port
    peers := peers
    oldProfiles := profilesById oldRows
    rows := rows }

def cleanMtu (payload old : Entries) : Except String Int := do
  let mtu := numberOr payload old "mtu" 1420
  require (1280 ≤ mtu && mtu ≤ 1500) "WireGuard MTU 必须在 1280–1500 之间"
  .ok mtu

/-- The server of a request whose profiles have been checked. -/
def closing (payload old : Entries) (o : Opening) (profiles : List EndpointProfile) :
    Except String CleanedServer := do
  let mtu ← cleanMtu payload old
  .ok {
    interfaceName := o.interfaceName
    address := o.address
    listenPort := o.listenPort
    mtu := mtu
    enabled := (fieldOr payload old "enabled" (.bool true)).truthy
    peers := o.peers
    endpointProfiles := profiles }

/-- `clean_server`: the server, and the STUN rules it leaves. -/
def cleanServer (r : Readings) (payload old : Entries) (rules : Stun.Document) :
    Except String CleanedServer × Stun.Document :=
  andThen (opening r payload old, rules) fun o rules =>
    andThen (cleanProfiles r old o [] rules o.rows) fun profiles rules =>
      (closing payload old o profiles, rules)

-- ---------------------------------------------------------------------------
-- What an accepted request holds
-- ---------------------------------------------------------------------------

structure CleanedPeer (raw : Entries) (p : Peer) : Prop where
  word : isWord ['_', '-'] 48 p.id = true
  publicKey : publicKey (get raw "publicKey") = .ok p.publicKey
  allowedIps : ∃ rows, iterate (get raw "allowedIps") = .ok rows ∧
    rows.mapM allowedIp = .ok p.allowedIps
  someAllowed : p.allowedIps ≠ []
  keepalive : 0 ≤ p.persistentKeepaliveSeconds ∧ p.persistentKeepaliveSeconds ≤ 600

theorem cleanPeer_ok {fresh : String} {done : List Peer} {raw : Entries} {p : Peer}
    (h : cleanPeer fresh done raw = .ok p) :
    CleanedPeer raw p ∧ p.id ∉ done.map Peer.id ∧ p.publicKey ∉ done.map Peer.publicKey := by
  simp only [cleanPeer, bind_eq_ok, require_eq_ok, Except.ok.injEq, Bool.and_eq_true,
    Bool.not_eq_true', List.contains_eq_mem, decide_eq_false_iff_not] at h
  obtain ⟨-, ⟨hword, hid⟩, key, hkey, -, hfresh, rows, hrows, allowed, hallowed, -, hsome, -,
    hkeepalive, rfl⟩ := h
  -- the fields are read off the record before anything is compared
  refine ⟨?_, ?_, ?_⟩
  · constructor <;> dsimp only
    case word => exact hword
    case publicKey => exact hkey
    case allowedIps => exact ⟨rows, hrows, hallowed⟩
    case someAllowed => simpa using hsome
    case keepalive => simpa using hkeepalive
  · dsimp only
    exact hid
  · dsimp only
    exact hfresh

/-- What is known before the profiles are checked, check by check. -/
structure Opened (r : Readings) (payload old : Entries) (o : Opening) : Prop where
  interfaceName : checkInterface o.interfaceName = .ok ()
  address : checkAddress (textOr payload old "address" "10.77.0.1/24") = .ok o.address
  port : 1 ≤ o.listenPort ∧ o.listenPort ≤ 65535
  peers : cleanPeers r [] (peerRows payload old) = .ok o.peers
  rows : profileRows payload old = o.rows
  oldProfiles : ∃ rows, iterate (get old "endpointProfiles") = .ok rows ∧
    o.oldProfiles = profilesById rows

theorem opening_ok {r : Readings} {payload old : Entries} {o : Opening}
    (h : opening r payload old = .ok o) : Opened r payload old o := by
  simp only [opening, bind_eq_ok, require_eq_ok, Except.ok.injEq, Bool.and_eq_true,
    decide_eq_true_eq] at h
  obtain ⟨-, -, _, hname, address, haddress, -, hport, rows', hpeerRows, peers, hpeers, -, -,
    oldRows, hold, rows, hrows, rfl⟩ := h
  constructor <;> dsimp only
  case interfaceName => exact hname
  case address => exact haddress
  case port => exact hport
  case peers =>
    rw [peerRows, hpeerRows]
    exact hpeers
  case rows =>
    rw [profileRows, hrows]
    rfl
  case oldProfiles => exact ⟨oldRows, hold, rfl⟩

theorem cleanPeers_ok {r : Readings} {rows : List Json} {done peers : List Peer}
    (h : cleanPeers r done rows = .ok peers) :
    ∃ raws new, rows = raws.map .dict ∧ peers = done ++ new ∧ List.Forall₂ CleanedPeer raws new ∧
      ((done.map Peer.id).Nodup → (peers.map Peer.id).Nodup) ∧
      ((done.map Peer.publicKey).Nodup → (peers.map Peer.publicKey).Nodup) := by
  induction rows generalizing done with
  | nil =>
    cases h
    exact ⟨[], [], rfl, (List.append_nil _).symm, .nil, id, id⟩
  | cons row rows ih =>
    cases row with
    | dict raw =>
      obtain ⟨p, hp, hrest⟩ := bind_eq_ok.mp h
      obtain ⟨hcleaned, hid, hkey⟩ := cleanPeer_ok hp
      obtain ⟨raws, new, rfl, rfl, hall, hids, hkeys⟩ := ih hrest
      exact ⟨raw :: raws, p :: new, rfl, by simp, .cons hcleaned hall,
        fun hdone => hids (Rows.nodup_map_concat hdone hid),
        fun hdone => hkeys (Rows.nodup_map_concat hdone hkey)⟩
    | _ => cases h

inductive Mode (o : Opening) (raw : Entries) (p : EndpointProfile) : Prop
  | manual (source : p.endpointSource = "manual") (endpoint : p.resolvedEndpoint ≠ "")
    (binding : p.bindingMode = "manual") (owner : p.owner = "") (hostname : p.hostname = "")
    (target : p.localTargetPort = none)
  | ddns (source : p.endpointSource = "ddns") (binding : p.bindingMode = "fixed-port")
    (owner : p.owner = "ddns:" ++ p.id) (some : p.hostname ≠ "")
    (hostname : p.hostname = rstripChar '.' (Unicode.lower (Hub.text (get raw "hostname"))))
    (target : p.localTargetPort = none)
  | stun (source : p.endpointSource = "stun") (binding : p.bindingMode = "router-native")
    (owner : p.owner = "stun:" ++ p.stunRuleId) (hostname : p.hostname = "")
    (rule : isWord ['_', '-'] 64 p.stunRuleId = true) (forward : p.forwardMode = "router_native")
    (target : p.localTargetPort = some o.listenPort)

structure CleanedProfile (o : Opening) (fresh : String) (raw : Entries) (p : EndpointProfile) :
    Prop where
  id : p.id = rowId fresh raw
  word : isWord ['_', '-'] 48 p.id = true
  source : p.endpointSource = rowSource raw
  sources : p.endpointSource ∈ endpointSources
  port : 1 ≤ o.listenPort ∧ o.listenPort ≤ 65535 → 1 ≤ p.port ∧ p.port ≤ 65535
  revision : p.endpointRevision = rowRevision o.oldProfiles p.id raw
  endpoint : p.resolvedEndpoint = Hub.text (get raw "resolvedEndpoint")

theorem openProfile_ok {fresh : String} {o : Opening} {done : List EndpointProfile} {raw : Entries}
    {p : EndpointProfile} (h : openProfile fresh o done raw = .ok p) :
    CleanedProfile o fresh raw p ∧ p.id ∉ done.map EndpointProfile.id ∧
      p.owner = "" ∧ p.hostname = "" ∧ p.localTargetPort = none := by
  simp only [openProfile, bind_eq_ok, require_eq_ok, Except.ok.injEq, Bool.and_eq_true,
    Bool.not_eq_true', List.contains_eq_mem, decide_eq_false_iff_not, decide_eq_true_eq] at h
  obtain ⟨-, ⟨hword, hid⟩, -, hsources, -, hport, rfl⟩ := h
  refine ⟨?_, ?_, rfl, rfl, rfl⟩
  · constructor <;> dsimp only
    case word => exact hword
    case sources => exact hsources
    case port => exact fun _ => hport
  · dsimp only
    exact hid

theorem cleanProfile_ok {r : Readings} {fresh : String} {old : Entries} {o : Opening}
    {done : List EndpointProfile} {rules rules' : Stun.Document} {raw : Entries}
    {p : EndpointProfile} (h : cleanProfile r fresh old o done rules raw = (.ok p, rules')) :
    CleanedProfile o fresh raw p ∧ Mode o raw p ∧ p.id ∉ done.map EndpointProfile.id := by
  obtain ⟨profile, rules, hopen, h⟩ := andThen_eq_ok.mp h
  obtain ⟨hcleaned, hid, howner, hhostname, htarget⟩ := openProfile_ok (Prod.mk.inj hopen).1
  dsimp only at h
  split at h
  · rename_i hmanual
    obtain ⟨h, -⟩ := Prod.mk.inj h
    simp only [manualProfile, bind_eq_ok, require_eq_ok, Except.ok.injEq, bne_iff_ne] at h
    obtain ⟨-, hendpoint, rfl⟩ := h
    exact ⟨{ hcleaned with }, .manual hmanual hendpoint rfl howner hhostname htarget, hid⟩
  · split at h
    · rename_i hddns
      obtain ⟨h, -⟩ := Prod.mk.inj h
      simp only [ddnsProfile, bind_eq_ok, require_eq_ok, Except.ok.injEq, Bool.and_eq_true,
        bne_iff_ne] at h
      obtain ⟨-, ⟨⟨hname, -⟩, -⟩, rfl⟩ := h
      exact ⟨{ hcleaned with port := fun hlisten => hlisten },
        .ddns hddns rfl rfl hname rfl htarget, hid⟩
    · rename_i hnotManual hnotDdns
      have hstun : profile.endpointSource = "stun" :=
        (automatic_of_mem hcleaned.sources hnotManual).resolve_right hnotDdns
      obtain ⟨ruleId, rules, hrule, h⟩ := andThen_eq_ok.mp h
      have hword : isWord ['_', '-'] 64 ruleId = true := by
        have hrule := (Prod.mk.inj hrule).1
        simp only [rowStunRule, bind_eq_ok, require_eq_ok, Except.ok.injEq] at hrule
        obtain ⟨-, -, -, hword, rfl⟩ := hrule
        exact hword
      obtain ⟨h, -⟩ := Prod.mk.inj h
      cases hbinding : validateStunBinding ruleId o.listenPort
          (followServer r.now ruleId o.listenPort old rules) with
      | error message => simp [hbinding, Except.map] at h
      | ok u =>
        simp only [hbinding, Except.map, Except.ok.injEq] at h
        subst h
        exact ⟨{ hcleaned with }, .stun hstun rfl rfl hhostname hword rfl rfl, hid⟩

theorem cleanProfiles_ok {r : Readings} {old : Entries} {o : Opening} {rows : List Json}
    {done profiles : List EndpointProfile} {rules rules' : Stun.Document}
    (h : cleanProfiles r old o done rules rows = (.ok profiles, rules')) :
    ∃ (raws : List Entries) (new : List EndpointProfile),
      rows = raws.map .dict ∧ profiles = done ++ new ∧ raws.length = new.length ∧
      (∀ i raw p, raws[i]? = some raw → new[i]? = some p →
        CleanedProfile o (r.profileId (done.length + i)) raw p ∧ Mode o raw p) ∧
      ((done.map EndpointProfile.id).Nodup → (profiles.map EndpointProfile.id).Nodup) := by
  induction rows generalizing done rules with
  | nil =>
    cases h
    exact ⟨[], [], rfl, (List.append_nil _).symm, rfl, by simp, id⟩
  | cons row rows ih =>
    cases row with
    | dict raw =>
      obtain ⟨p, rules'', hp, h⟩ := andThen_eq_ok.mp h
      obtain ⟨hcleaned, hmode, hid⟩ := cleanProfile_ok hp
      obtain ⟨raws, new, rfl, rfl, hlen, hall, hids⟩ := ih h
      refine ⟨raw :: raws, p :: new, rfl, by simp, by simp [hlen], ?_,
        fun hdone => hids (Rows.nodup_map_concat hdone hid)⟩
      rintro (_ | i) raw' p' hraw hp'
      · obtain rfl := Option.some.inj hraw
        obtain rfl := Option.some.inj hp'
        exact ⟨hcleaned, hmode⟩
      · have := hall i raw' p' hraw hp'
        rwa [List.length_append, List.length_singleton, Nat.add_assoc, Nat.add_comm 1] at this
    | _ => cases h

structure Cleaned (r : Readings) (payload old : Entries) (server : CleanedServer) (o : Opening) :
    Prop where
  opening : opening r payload old = .ok o
  interfaceName : server.interfaceName = o.interfaceName
  address : server.address = o.address
  listenPort : server.listenPort = o.listenPort
  mtu : 1280 ≤ server.mtu ∧ server.mtu ≤ 1500
  peers : server.peers = o.peers
  profiles : ∃ raws : List Entries,
    o.rows = raws.map .dict ∧ raws.length = server.endpointProfiles.length ∧
      ∀ i raw p, raws[i]? = some raw → server.endpointProfiles[i]? = some p →
        CleanedProfile o (r.profileId i) raw p ∧ Mode o raw p
  profileIds : (server.endpointProfiles.map EndpointProfile.id).Nodup

theorem cleanServer_ok {r : Readings} {payload old : Entries} {rules rules' : Stun.Document}
    {server : CleanedServer} (h : cleanServer r payload old rules = (.ok server, rules')) :
    ∃ o, Cleaned r payload old server o := by
  obtain ⟨o, rules, hopening, h⟩ := andThen_eq_ok.mp h
  obtain ⟨profiles, rules, hprofiles, h⟩ := andThen_eq_ok.mp h
  obtain ⟨raws, new, hrows, hnew, hlen, hall, hids⟩ := cleanProfiles_ok hprofiles
  obtain ⟨h, -⟩ := Prod.mk.inj h
  simp only [closing, cleanMtu, bind_eq_ok, require_eq_ok, Except.ok.injEq, Bool.and_eq_true,
    decide_eq_true_eq] at h
  obtain ⟨mtu, ⟨-, hmtu, rfl⟩, rfl⟩ := h
  rw [List.nil_append] at hnew
  subst hnew
  simp only [List.length_nil, Nat.zero_add] at hall
  have hopening := (Prod.mk.inj hopening).1
  refine ⟨o, ?_⟩
  constructor
  case opening => exact hopening
  case mtu => exact hmtu
  case profiles => exact ⟨raws, hrows, hlen, hall⟩
  case profileIds => exact hids .nil
  all_goals rfl

end

end LabProbe.WireGuard
