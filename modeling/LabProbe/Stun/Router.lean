import LabProbe.Stun.Handlers

/-!
# The rows a rule owns on the router

A rule of the router's own forwarding owns a port mapping, a rule forwarded
by the agent an opening in the firewall. The Hub remembers each row by a
binding with the row's fingerprint, the SHA-256 of its sorted JSON text, and
leaves a row alone whose fingerprint is another. The hash is a parameter, and
so is the router: what it answers to a call may be anything.
-/

namespace LabProbe.Stun

open Py Py.Json Hub Check

/-- The hash of a row's text; the text determines the sorted value and is
determined by it. -/
class Digest where
  sha256 : Json → String

def ruleFingerprint [Digest] (row : Entries) : String :=
  Digest.sha256 (Json.dict (row.filter fun e => e.1 != "stats" && e.1 != "uuid")).sort

inductive Write where
  | add (row : Entries)
  | update (old new : Entries)
  | delete (key : String)

/-- What the router answers during one call: the list it shows when it is
read, and the list after a write of `write_and_verify`, or what that raised. -/
structure Router where
  read : Except String Entries
  verified : Write → Except String Entries

/-- The bindings of one document, by the identifier of the rule. -/
abbrev Bindings := List (String × Entries)

/-- What a call returns, and the bindings as it leaves them. -/
structure Outcome where
  result : Entries
  bindings : Bindings

/-- `rule["id"]`. -/
def ruleKey (rule : Entries) : String :=
  match get rule "id" with
  | .str id => id
  | _ => ""

/-- `rule[key]`. -/
def item (rule : Entries) (key : String) : Except String Json :=
  match Dict.get? rule key with
  | some value => .ok value
  | none => .error ("'" ++ key ++ "'")

/-- `bindings.get(rule["id"], {})`. -/
def bindingOf (bindings : Bindings) (id : String) : Entries := (Dict.get? bindings id).getD []

section
variable [Unicode]

def matchesRow (row expected : Entries) : Bool :=
  expected.all fun e => text (get row e.1) == text e.2

def refusal (state message : String) : Entries := [("state", .str state), ("message", .str message)]

-- ---------------------------------------------------------------------------
-- The port mapping
-- ---------------------------------------------------------------------------

def nativeMappingRows (snapshot : Entries) : List Entries :=
  ((((get snapshot "portMapping").or (get snapshot "list")).list?).getD []).filterMap dict?

def findNativeMapping (snapshot : Entries) (ruleName : String) : Option Entries :=
  ((nativeMappingRows snapshot).find? fun row => text (get row "ruleName") == ruleName).filter
    fun row => !row.isEmpty

def mappingName (id : String) : String := "LabProbe STUN " ++ id

def expectedNativeMapping (rule : Entries) : Except String Entries := do
  let id ← item rule "id"
  let listenPort ← item rule "listenPort"
  let targetIpv4 ← item rule "targetIpv4"
  let targetPort ← item rule "targetPort"
  let transportProtocol ← item rule "transportProtocol"
  .ok [("ruleName", .str (mappingName id.toStr)), ("src", .str "wan"), ("srcIp", .str ""),
    ("srcPort", .str listenPort.toStr), ("destIp", .str (text targetIpv4)),
    ("destPort", .str targetPort.toStr),
    ("proto", .str (Unicode.lower (text transportProtocol)))]

variable [Digest]

def edited (binding row : Entries) : Bool :=
  (get binding "fingerprint").truthy && !(get binding "fingerprint").eq (.str (ruleFingerprint row))

def readyMapping (expected row : Entries) : Entries :=
  [("state", .str "ready"), ("ruleName", get expected "ruleName"),
    ("fingerprint", .str (ruleFingerprint row))]

/-- The end of a write: the mapping is read back as it was written, or not. -/
def confirmMapping (expected binding snapshot : Entries) (message : String) (id : String)
    (bindings : Bindings) : Outcome :=
  let failed := refusal "verify_failed" message
  match findNativeMapping snapshot (get expected "ruleName").toStr with
  | some row =>
    if matchesRow row expected then
      ⟨readyMapping expected row, Dict.set bindings id (readyMapping expected row)⟩
    else ⟨failed, Dict.set bindings id (Dict.update binding failed)⟩
  | none => ⟨failed, Dict.set bindings id (Dict.update binding failed)⟩

def ensureNativeMapping (router : Router) (rule : Entries) (bindings : Bindings) :
    Except String Outcome :=
  if !isNativeForward rule then .ok ⟨[("state", .str "not_required")], bindings⟩ else do
    let expected ← expectedNativeMapping rule
    let id := ruleKey rule
    let binding := bindingOf bindings id
    let current ← router.read
    match findNativeMapping current (get expected "ruleName").toStr with
    | some existing =>
      if edited binding existing then
        let result := refusal "manual_change" "已检测到路由器端口映射被手动修改"
        .ok ⟨result, Dict.set bindings id (Dict.update binding result)⟩
      else if matchesRow existing expected then
        .ok ⟨readyMapping expected existing,
          Dict.set bindings id (readyMapping expected existing)⟩
      else do
        let verified ← router.verified (.update existing expected)
        .ok (confirmMapping expected binding verified "路由器端口映射更新后未能确认" id bindings)
    | none => do
      let verified ← router.verified (.add expected)
      .ok (confirmMapping expected binding verified "路由器端口映射创建后未能确认" id bindings)

def removeNativeMapping (router : Router) (id : String) (bindings : Bindings) :
    Except String Bindings :=
  let binding := bindingOf bindings id
  if binding = [] then .ok bindings else do
    let current ← router.read
    match findNativeMapping current (text (get binding "ruleName")) with
    | some row => do
      require ((get binding "fingerprint").eq (.str (ruleFingerprint row)))
        "路由器端口映射已被手动修改；为避免误删，未停止穿透"
      let _ ← router.verified (.delete (text (get row "ruleName")))
      .ok (Dict.erase bindings id)
    | none => .ok (Dict.erase bindings id)

-- ---------------------------------------------------------------------------
-- The opening in the firewall
-- ---------------------------------------------------------------------------

omit [Unicode] [Digest] in
def firewallRows (firewall : Entries) : List Entries :=
  ((get firewall "list").list?.getD []).filterMap dict?

omit [Digest] in
def findFirewall (firewall : Entries) (uuid : String) : Option Entries :=
  ((firewallRows firewall).find? fun row => text (get row "uuid") == uuid).filter
    fun row => !row.isEmpty

omit [Digest] in
/-- Whether a rule opens the way from a WireGuard tunnel to the LAN. -/
def isLanForward (rule : Entries) : Bool :=
  Unicode.lower (text (get rule "firewallMode")) == "wireguard_lan_forward"

omit [Digest] in
def expectedFirewall (rule : Entries) : Except String Entries :=
  if isLanForward rule then do
    let id ← item rule "id"
    let tunnelNetwork ← item rule "tunnelNetwork"
    .ok [("ruleName", .str ("LabProbe WireGuard " ++ id.toStr)), ("direction", .str "forward"),
      ("ipVersion", .str "ipv4"), ("proto", .str "all"), ("srcIP", .str (text tunnelNetwork)),
      ("destIP", .str ""), ("srcPort", .str ""), ("destPort", .str ""), ("target", .str "ACCEPT"),
      ("enable", .str "1"), ("ipv6SuffixSrc", .str ""), ("ipv6SuffixDest", .str ""),
      ("inIface", .str ""), ("outIface", .str "lan")]
  else do
    let id ← item rule "id"
    let transportProtocol ← item rule "transportProtocol"
    let listenPort ← item rule "listenPort"
    .ok [("ruleName", .str (mappingName id.toStr)), ("direction", .str "inbound"),
      ("ipVersion", .str "ipv4"), ("proto", .str (Unicode.lower (text transportProtocol))),
      ("srcIP", .str ""), ("destIP", .str ""), ("srcPort", .str ""),
      ("destPort", .str listenPort.toStr), ("target", .str "ACCEPT"), ("enable", .str "1"),
      ("ipv6SuffixSrc", .str ""), ("ipv6SuffixDest", .str ""), ("inIface", .str "wan"),
      ("outIface", .str "")]

def openBinding (row : Entries) : Entries :=
  [("uuid", .str (text (get row "uuid"))), ("fingerprint", .str (ruleFingerprint row))]

/-- A row is taken as the opening of a rule, and its binding saved. -/
def bindFirewall (row : Entries) (id : String) (bindings : Bindings) : Outcome :=
  ⟨("state", .str "ready") :: openBinding row, Dict.set bindings id (openBinding row)⟩

omit [Unicode] [Digest] in
def firewallFull (current : Entries) : Bool :=
  let maxLen := intOf 20 (get current "maxLen")
  maxLen != 0 && maxLen ≤ ((get current "list").list?.getD []).length

def ensureFirewall (router : Router) (rule : Entries) (bindings : Bindings) :
    Except String Outcome := do
  let expected ← expectedFirewall rule
  let id := ruleKey rule
  let binding := bindingOf bindings id
  let current ← router.read
  match findFirewall current (text (get binding "uuid")) with
  | some existing =>
    if edited binding existing then
      .ok ⟨refusal "manual_change" "已检测到防火墙规则被手动修改", bindings⟩
    else if !matchesRow existing expected then
      .ok ⟨refusal "verify_failed" "防火墙规则回读与穿透规则不一致", bindings⟩
    else .ok (bindFirewall existing id bindings)
  | none =>
    -- a rule of the same name that the Hub has no binding for is not its own
    if isLanForward rule && (firewallRows current).any
        (fun row => text (get row "ruleName") == (get expected "ruleName").toStr) then
      .ok ⟨refusal "manual_change" "检测到同名但不属于 WireGuard 的防火墙规则，未接管", bindings⟩
    else if firewallFull current then
      .ok ⟨refusal "full" "路由器防火墙规则已满", bindings⟩
    else do
      let verified ← router.verified (.add expected)
      match (firewallRows verified).find? fun row => matchesRow row expected with
      | some created =>
        if text (get created "uuid") = "" then
          .ok ⟨refusal "verify_failed" "防火墙规则创建后未能确认", bindings⟩
        else .ok (bindFirewall created id bindings)
      | none => .ok ⟨refusal "verify_failed" "防火墙规则创建后未能确认", bindings⟩

def removeFirewall (router : Router) (id : String) (bindings : Bindings) :
    Except String Bindings :=
  let binding := bindingOf bindings id
  if binding = [] then .ok bindings else do
    let current ← router.read
    match findFirewall current (text (get binding "uuid")) with
    | some row =>
      if (get binding "fingerprint").eq (.str (ruleFingerprint row)) then do
        let _ ← router.verified (.delete (text (get row "uuid")))
        .ok (Dict.erase bindings id)
      else .ok (Dict.erase bindings id)
    | none => .ok (Dict.erase bindings id)

end

end LabProbe.Stun
