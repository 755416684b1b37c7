import LabProbe.Lib.Check
import LabProbe.Py.Json
import LabProbe.Relay.Net

/-!
# Rules on the agent

A command carries a rule as JSON. The agent reads it into its own record,
with a default for each field that is missing, brings the fields into their
normal form and checks them.
-/

namespace LabProbe.Relay

open Py Py.Json Check

def defaultUdpStunServer : String := "stun.cloudflare.com:3478"

def defaultTcpStunServer : String := "stunserver2025.stunprotocol.org:3478"

def legacyTcpStunServer : String := defaultUdpStunServer

def eqIgnoreAsciiCase (s t : String) : Bool := toAsciiLowercase s == toAsciiLowercase t

def defaultStunServer (protocol : String) : String :=
  if eqIgnoreAsciiCase protocol "TCP" then defaultTcpStunServer else defaultUdpStunServer

/-- `Rule`, with its defaults. -/
structure Rule where
  kind : String := "portmap"
  id : String := ""
  name : String := ""
  enabled : Bool := false
  mode : String := "6to4"
  listenPort : Nat := 0
  targetMode : String := "ipv4"
  targetIpv4 : String := ""
  targetIpv6 : String := ""
  targetIpv6Suffix : String := ""
  targetMac : String := ""
  targetPort : Nat := 0
  transportProtocol : String := "TCP"
  serviceType : String := "Custom"
  forwardMode : String := "relay_proxy"
  stunServer : String := defaultTcpStunServer
  preferCurrentPrefix : Bool := true
  expiresAt : Option Nat := none
  maxConnections : Nat := 32
  idleTimeoutSec : Nat := 300
  deriving DecidableEq

/-- The rule as the status shows it. -/
def Rule.toJson (r : Rule) : Entries :=
  [("kind", .str r.kind), ("id", .str r.id), ("name", .str r.name), ("enabled", .bool r.enabled),
   ("mode", .str r.mode), ("listenPort", .int r.listenPort), ("targetMode", .str r.targetMode),
   ("targetIpv4", .str r.targetIpv4), ("targetIpv6", .str r.targetIpv6),
   ("targetIpv6Suffix", .str r.targetIpv6Suffix), ("targetMac", .str r.targetMac),
   ("targetPort", .int r.targetPort), ("transportProtocol", .str r.transportProtocol),
   ("serviceType", .str r.serviceType), ("forwardMode", .str r.forwardMode),
   ("stunServer", .str r.stunServer), ("preferCurrentPrefix", .bool r.preferCurrentPrefix),
   ("expiresAt", (r.expiresAt.map fun n => Json.int n).getD .null),
   ("maxConnections", .int r.maxConnections), ("idleTimeoutSec", .int r.idleTimeoutSec)]

-- ---------------------------------------------------------------------------
-- Reading a rule
-- ---------------------------------------------------------------------------

def readText (d : Entries) (key default : String) : Option String :=
  match Dict.get? d key with
  | none => some default
  | some (.str s) => some s
  | some _ => none

def readBool (d : Entries) (key : String) (default : Bool) : Option Bool :=
  match Dict.get? d key with
  | none => some default
  | some (.bool b) => some b
  | some _ => none

def readUnsigned (bits : Nat) : Json → Option Nat
  | .int n => if 0 ≤ n ∧ n < 2 ^ bits then some n.toNat else none
  | _ => none

def readNat (bits : Nat) (d : Entries) (key : String) (default : Nat) : Option Nat :=
  match Dict.get? d key with
  | none => some default
  | some v => readUnsigned bits v

def readOptional (bits : Nat) (d : Entries) (key : String) : Option (Option Nat) :=
  match Dict.get? d key with
  | none | some .null => some none
  | some v => (readUnsigned bits v).map some

def readRule (d : Entries) : Option Rule := do
  some {
    kind := ← readText d "kind" "portmap"
    id := ← readText d "id" ""
    name := ← readText d "name" ""
    enabled := ← readBool d "enabled" false
    mode := ← readText d "mode" "6to4"
    listenPort := ← readNat 16 d "listenPort" 0
    targetMode := ← readText d "targetMode" "ipv4"
    targetIpv4 := ← readText d "targetIpv4" ""
    targetIpv6 := ← readText d "targetIpv6" ""
    targetIpv6Suffix := ← readText d "targetIpv6Suffix" ""
    targetMac := ← readText d "targetMac" ""
    targetPort := ← readNat 16 d "targetPort" 0
    transportProtocol := ← readText d "transportProtocol" "TCP"
    serviceType := ← readText d "serviceType" "Custom"
    forwardMode := ← readText d "forwardMode" "relay_proxy"
    stunServer := ← readText d "stunServer" defaultTcpStunServer
    preferCurrentPrefix := ← readBool d "preferCurrentPrefix" true
    expiresAt := ← readOptional 64 d "expiresAt"
    maxConnections := ← readNat 32 d "maxConnections" 32
    idleTimeoutSec := ← readNat 64 d "idleTimeoutSec" 300 }

-- ---------------------------------------------------------------------------
-- The normal form
-- ---------------------------------------------------------------------------

def stripBrackets (s : String) : String := trimEndMatches ']' (trimStartMatches '[' (trim s))

def normalizeMac (s : String) : String :=
  toAsciiLowercase (String.ofList (replaceAll ['-'] [':'] 0 (trim s).toList))

def usableServer (protocol server : String) : String :=
  if server = "" ∨ (protocol = "TCP" ∧ server = legacyTcpStunServer) then defaultStunServer protocol
  else server

def normalizeStun (rule : Rule) : Rule :=
  { rule with
    mode := "stun"
    targetMode := "ipv4"
    forwardMode := "router_native"
    stunServer := usableServer rule.transportProtocol rule.stunServer }

/-- The texts of a rule, without surrounding white space and in one case. -/
def normalizeTexts (rule : Rule) : Rule :=
  let kind := toAsciiLowercase (trim rule.kind)
  { rule with
    kind := if kind = "" then "portmap" else kind
    id := toAsciiLowercase (trim rule.id)
    name := trim rule.name
    mode := toAsciiLowercase (trim rule.mode)
    targetMode := toAsciiLowercase (trim rule.targetMode)
    targetIpv4 := trim rule.targetIpv4
    targetIpv6 := stripBrackets rule.targetIpv6
    targetIpv6Suffix := toAsciiLowercase (trim rule.targetIpv6Suffix)
    targetMac := normalizeMac rule.targetMac
    transportProtocol := toAsciiUppercase (trim rule.transportProtocol)
    serviceType := trim rule.serviceType
    forwardMode := toAsciiLowercase (trim rule.forwardMode)
    stunServer := trim rule.stunServer }

def normalizeRule (rule : Rule) : Rule :=
  let rule := normalizeTexts rule
  let rule := if rule.kind = "stun" then normalizeStun rule else rule
  { rule with
    transportProtocol := if rule.transportProtocol = "" then "TCP" else rule.transportProtocol
    maxConnections := max 1 (min 256 rule.maxConnections)
    idleTimeoutSec := max 30 (min 3600 rule.idleTimeoutSec) }

-- ---------------------------------------------------------------------------
-- The checks
-- ---------------------------------------------------------------------------

def isIdChar (c : Char) : Bool := c.isAlphanum || c == '-' || c == '_'

def isMacText (s : String) : Bool :=
  let parts := splitOn ':' s.toList
  parts.length == 6 && parts.all fun part =>
    (String.ofList part).utf8ByteSize == 2 && part.all isHex

/-- `is_private() || is_loopback() || is_link_local()` of an IPv4 address. -/
def isLan (value : Nat) : Bool :=
  value / 2 ^ 24 == 10 || value / 2 ^ 20 == 0xac1 || value / 2 ^ 16 == 0xc0a8 ||
    value / 2 ^ 24 == 127 || value / 2 ^ 16 == 0xa9fe

/-- An IPv6 address that is none of loopback, unspecified, multicast and
link-local. -/
def isGlobalScope (value : Nat) : Bool :=
  !(value == 1 || value == 0 || value / 2 ^ 120 == 0xff || value / 2 ^ 118 == 0x3fa)

def suffixBytes (raw : String) : Except String Nat :=
  let text := trimMatches (['[', ']'].contains ·) (trim raw)
  let normalized := if contains [':', ':'] text.toList then text
    else "::" ++ trimStartMatches ':' text
  match parseIpv6Addr normalized with
  | some value =>
    if value % 2 ^ 64 = 0 then .error "IPv6 suffix must not be all zero" else .ok (value % 2 ^ 64)
  | none => .error "invalid IPv6 suffix"

def validateIpv4 (text : String) : Except String Unit :=
  match parseIpv4Addr text with
  | some value => require (isLan value) "target IPv4 must be LAN/private"
  | none => .error "invalid targetIpv4"

def validateIpv6 (text : String) : Except String Unit :=
  match parseIpv6Addr (stripBrackets text) with
  | some value => require (isGlobalScope value) "invalid target IPv6 scope"
  | none => .error "invalid targetIpv6"

theorem validateIpv6_eq_ok {text : String} : validateIpv6 text = .ok u ↔
    ∃ value, parseIpv6Addr (stripBrackets text) = some value ∧ isGlobalScope value = true := by
  delta validateIpv6
  generalize parseIpv6Addr (stripBrackets text) = parsed
  cases parsed with
  | none => simp
  | some value => simp [require_eq_ok]

theorem suffixBytes_eq_ok {raw text : String} {value : Nat}
    (htext : trimMatches (['[', ']'].contains ·) (trim raw) = text)
    (hcolons : contains [':', ':'] text.toList = true) (hvalue : parseIpv6Addr text = some value)
    (hne : value % 2 ^ 64 ≠ 0) : suffixBytes raw = .ok (value % 2 ^ 64) := by
  delta suffixBytes
  dsimp only
  rw [htext, if_pos hcolons, hvalue]
  exact if_neg hne

def validateTarget (rule : Rule) : Except String Unit :=
  if rule.mode = "6to4" ∨ rule.mode = "stun" then validateIpv4 rule.targetIpv4
  else if rule.mode = "6to6" then
    if rule.targetMode = "ipv6_full" then validateIpv6 rule.targetIpv6
    else if rule.targetMode = "ipv6_suffix" then (suffixBytes rule.targetIpv6Suffix).map fun _ => ()
    else .error "targetMode must be ipv6_full or ipv6_suffix"
  else .error "mode must be 6to4, 6to6 or stun"

def validateRule (rule : Rule) (portMin portMax : Nat) : Except String Unit := do
  require (rule.id != "" && rule.id.toList.all isIdChar) "invalid rule id"
  require (rule.name != "" && rule.name.utf8ByteSize ≤ 64) "invalid rule name"
  require (rule.targetMac == "" || isMacText rule.targetMac) "invalid target MAC"
  require (portMin ≤ rule.listenPort && rule.listenPort ≤ portMax)
    ("listenPort outside allowed range " ++ toString portMin ++ "-" ++ toString portMax)
  require (rule.targetPort != 0) "invalid targetPort"
  require (rule.transportProtocol == "TCP" || rule.transportProtocol == "UDP")
    ("unsupported transportProtocol: " ++ rule.transportProtocol)
  require (rule.kind == "portmap" || rule.kind == "stun") "unsupported rule kind"
  require (rule.kind != "stun" || rule.stunServer.toList.contains ':') "invalid STUN server"
  require (rule.kind != "stun" || rule.forwardMode == "router_native" ||
      rule.forwardMode == "relay_proxy")
    ("unsupported STUN forwardMode: " ++ rule.forwardMode)
  validateTarget rule

/-- What the agent holds of a rule that it accepts, in the range of ports it
is started with by default. -/
def acceptRule (d : Entries) : Option Rule := do
  let rule := normalizeRule (← readRule d)
  match validateRule rule 20000 20020 with
  | .ok () => some rule
  | .error _ => none

theorem acceptRule_eq_some {d : Entries} {rule : Rule} : acceptRule d = some rule ↔
    ∃ given, readRule d = some given ∧ normalizeRule given = rule ∧
      validateRule rule 20000 20020 = .ok () := by
  simp only [acceptRule, Option.bind_eq_bind, Option.bind_eq_some_iff]
  refine exists_congr fun given => and_congr_right fun _ => ?_
  cases h : validateRule (normalizeRule given) 20000 20020 with
  | ok =>
    simp only [Option.some.injEq]
    exact ⟨fun heq => ⟨heq, heq ▸ h⟩, And.left⟩
  | error e =>
    simp only [reduceCtorEq, false_iff]
    rintro ⟨rfl, hok⟩
    rw [h] at hok
    cases hok

theorem validateRule_eq_ok {rule : Rule} {portMin portMax : Nat} :
    validateRule rule portMin portMax = .ok u ↔
      (rule.id ≠ "" ∧ ∀ c ∈ rule.id.toList, isIdChar c = true) ∧
        (rule.name ≠ "" ∧ rule.name.utf8ByteSize ≤ 64) ∧
        (rule.targetMac = "" ∨ isMacText rule.targetMac = true) ∧
        (portMin ≤ rule.listenPort ∧ rule.listenPort ≤ portMax) ∧ rule.targetPort ≠ 0 ∧
        (rule.transportProtocol = "TCP" ∨ rule.transportProtocol = "UDP") ∧
        (rule.kind = "portmap" ∨ rule.kind = "stun") ∧
        (rule.kind ≠ "stun" ∨ rule.stunServer.toList.contains ':' = true) ∧
        ((rule.kind ≠ "stun" ∨ rule.forwardMode = "router_native") ∨
          rule.forwardMode = "relay_proxy") ∧
        validateTarget rule = .ok () := by
  simp only [validateRule, bind_eq_ok, require_eq_ok, Bool.and_eq_true, Bool.or_eq_true, bne_iff_ne,
    beq_iff_eq, decide_eq_true_eq, List.all_eq_true, exists_and_left, exists_const]

def rulesConflict (left right : Rule) : Bool :=
  left.id != right.id && left.listenPort == right.listenPort &&
    eqIgnoreAsciiCase left.transportProtocol right.transportProtocol

def isExpired (now : Nat) (rule : Rule) : Bool :=
  match rule.expiresAt with
  | some x => 0 < x && x ≤ now
  | none => false

end LabProbe.Relay
