import LabProbe.Relay.Agree
import LabProbe.WireGuard.Store

/-!
# The server on the agent

The agent reads the server of a command into a record of its own, with a
default for most fields that are missing, and checks it. A public key is
taken where it is the canonical text of 32 bytes.
-/

namespace LabProbe.WireGuard

open Py Py.Json Check
open Relay (readText readBool readNat readIpv4 parseIpv6Addr trim)

structure DesiredProfile where
  id : String
  endpointSource : String
  owner : String
  hostname : String
  publicEndpoint : String
  resolvedEndpoint : String
  stunRuleId : String
  bindingMode : String
  forwardMode : String
  transportProtocol : String
  localTargetPort : Nat
  port : Nat
  endpointRevision : Nat
  deriving DecidableEq

structure DesiredPeer where
  id : String
  name : String
  publicKey : String
  allowedIps : List String
  persistentKeepaliveSeconds : Nat
  deriving DecidableEq

structure DesiredServer where
  interfaceName : String
  address : String
  listenPort : Nat
  mtu : Nat
  enabled : Bool
  revision : Nat
  peers : List DesiredPeer
  endpointProfiles : List DesiredProfile
  deriving DecidableEq

-- ---------------------------------------------------------------------------
-- Reading
-- ---------------------------------------------------------------------------

def requireText (d : Entries) (key : String) : Option String :=
  match Dict.get? d key with
  | some (.str s) => some s
  | _ => none

def readString : Json → Option String
  | .str s => some s
  | _ => none

def readList {α : Type} (f : Json → Option α) : Json → Option (List α)
  | .list xs => xs.mapM f
  | _ => none

def readListOr {α : Type} (f : Json → Option α) (d : Entries) (key : String) : Option (List α) :=
  match Dict.get? d key with
  | none => some []
  | some value => readList f value

def readProfileDesired (d : Entries) : Option DesiredProfile := do
  some {
    id := ← requireText d "id"
    endpointSource := ← requireText d "endpointSource"
    owner := ← readText d "owner" ""
    hostname := ← readText d "hostname" ""
    publicEndpoint := ← readText d "publicEndpoint" ""
    resolvedEndpoint := ← readText d "resolvedEndpoint" ""
    stunRuleId := ← readText d "stunRuleId" ""
    bindingMode := ← readText d "bindingMode" ""
    forwardMode := ← readText d "forwardMode" ""
    transportProtocol := ← readText d "transportProtocol" ""
    localTargetPort := ← readNat 16 d "localTargetPort" 0
    port := ← readNat 16 d "port" 0
    endpointRevision := ← readNat 64 d "endpointRevision" 0 }

def readPeerDesired (d : Entries) : Option DesiredPeer := do
  some {
    id := ← requireText d "id"
    name := ← readText d "name" ""
    publicKey := ← requireText d "publicKey"
    allowedIps := ← readList readString (← Dict.get? d "allowedIps")
    persistentKeepaliveSeconds := ← readNat 16 d "persistentKeepaliveSeconds" 0 }

def readServerDesired (d : Entries) : Option DesiredServer := do
  some {
    interfaceName := ← readText d "interfaceName" "labwg0"
    address := ← readText d "address" "10.77.0.1/24"
    listenPort := ← readNat 16 d "listenPort" 51820
    mtu := ← readNat 16 d "mtu" 1420
    enabled := ← readBool d "enabled" true
    revision := ← readNat 64 d "revision" 0
    peers := ← readListOr (fun v => v.dict?.bind readPeerDesired) d "peers"
    endpointProfiles := ← readListOr (fun v => v.dict?.bind readProfileDesired) d "endpointProfiles" }

-- ---------------------------------------------------------------------------
-- Values
-- ---------------------------------------------------------------------------

def keyFromBase64 (s : String) : Option (List Nat) :=
  match Base64.decode s with
  | some bytes => if bytes.length = 32 ∧ Base64.encode bytes = s then some bytes else none
  | none => none

/-- `IpAddr::from_str`. -/
def parseIpAddr (s : String) : Option IpAddress :=
  match readIpv4 s.toList with
  | some (value, rest) => if rest.isEmpty then some (.v4 value) else none
  | none => (parseIpv6Addr s).map .v6

/-- `u8::from_str`. -/
def parseU8 (cs : List Char) : Option Nat :=
  let digits := if cs.head? = some '+' then cs.tail else cs
  if digits.isEmpty || !digits.all Char.isDigit || 255 < decimalValue digits then none
  else some (decimalValue digits)

def parseCidr (s : String) : Except String (IpAddress × Nat) := do
  require (s.toList.contains '/') "CIDR prefix is required"
  match parseIpAddr (String.ofList (s.toList.takeWhile (· != '/'))) with
  | none => .error "invalid IP address"
  | some address =>
    match parseU8 (s.toList.dropWhile (· != '/')).tail with
    | none => .error "invalid CIDR prefix"
    | some prefixlen => do
      require (prefixlen ≤ if address.version = 4 then 32 else 128) "CIDR prefix out of range"
      .ok (address, prefixlen)

def isAsciiInterfaceName (name : String) : Bool :=
  name != "" && name.toList.all fun c => c.isAlphanum || ['.', '-', '_', '@'].contains c

-- ---------------------------------------------------------------------------
-- Checks
-- ---------------------------------------------------------------------------

def validateProfile (listenPort : Nat) (p : DesiredProfile) : Except String Unit := do
  require (endpointSources.contains p.endpointSource) "endpointSource must be manual, ddns or stun"
  require (!(p.endpointSource == "manual" &&
      (p.owner != "" || p.bindingMode != "manual" || isBlank p.resolvedEndpoint)))
    "manual endpoint profile requires an immutable endpoint and no updater owner"
  require (!(p.endpointSource == "ddns" && (isBlank p.hostname || p.owner != "ddns:" ++ p.id)))
    "DDNS endpoint profile requires hostname"
  require (!(p.endpointSource == "ddns" && p.bindingMode != "fixed-port"))
    "DDNS endpoint profile requires fixed-port binding"
  require (!(p.endpointSource == "stun" && !isBlank p.hostname))
    "STUN endpoint profile cannot share a DDNS hostname"
  require (!(p.endpointSource == "stun" &&
      (p.stunRuleId == "" || p.owner != "stun:" ++ p.stunRuleId ||
        p.bindingMode != "router-native" || p.forwardMode != "router_native" ||
        p.transportProtocol != "UDP" || p.localTargetPort != listenPort)))
    "STUN endpoint profile requires an enabled UDP router-native mapping to the fixed WireGuard port"

def validateProfiles (listenPort : Nat) (ids : List String) :
    List DesiredProfile → Except String Unit
  | [] => .ok ()
  | p :: profiles => do
    require (p.id != "" && !ids.contains p.id) "endpoint profile ids must be unique"
    validateProfile listenPort p
    validateProfiles listenPort (p.id :: ids) profiles

def validateAllowed : List String → Except String Unit
  | [] => .ok ()
  | allowed :: rest => do
    let _ ← parseCidr allowed
    validateAllowed rest

def validatePeers (ids keys : List String) : List DesiredPeer → Except String Unit
  | [] => .ok ()
  | p :: peers => do
    require (p.id != "" && !ids.contains p.id) "peer ids must be unique"
    require (keyFromBase64 (trim p.publicKey)).isSome "invalid peer public key"
    require (!keys.contains (trim p.publicKey)) "peer public keys must be unique"
    require (!p.allowedIps.isEmpty) "peer requires at least one allowed IP"
    validateAllowed p.allowedIps
    require (p.persistentKeepaliveSeconds ≤ 600) "persistent keepalive is out of range"
    validatePeers (p.id :: ids) (trim p.publicKey :: keys) peers

def validateServerDesired (config : DesiredServer) : Except String Unit := do
  require (isAsciiInterfaceName config.interfaceName && config.interfaceName.utf8ByteSize ≤ 15 &&
    config.interfaceName != "lo") "invalid WireGuard interface name"
  require (config.listenPort != 0) "WireGuard server requires a fixed UDP listen port"
  require (config.mtu == 0 || (1280 ≤ config.mtu && config.mtu ≤ 1500))
    ("WireGuard server MTU must be between 1280 and 1500 (received " ++ toString config.mtu ++ ")")
  let (address, _) ← parseCidr config.address
  require (address.version == 4) "MVP server address must be IPv4"
  validateProfiles config.listenPort [] config.endpointProfiles
  validatePeers [] [] config.peers

/-- The agent takes the document of a server. -/
def acceptsServer (d : Entries) : Bool :=
  (readServerDesired d).any fun config => (validateServerDesired config).isOk

-- ---------------------------------------------------------------------------
-- The checks, by their conditions
-- ---------------------------------------------------------------------------

theorem validateProfiles_eq_ok {listenPort : Nat} {ids : List String}
    {profiles : List DesiredProfile} : validateProfiles listenPort ids profiles = .ok () ↔
      (profiles.map DesiredProfile.id).Nodup ∧
        ∀ p ∈ profiles, p.id ≠ "" ∧ p.id ∉ ids ∧ validateProfile listenPort p = .ok () := by
  induction profiles generalizing ids with
  | nil => simp [validateProfiles]
  | cons p profiles ih =>
    simp only [validateProfiles, bind_eq_ok, require_eq_ok, ih, Bool.and_eq_true, bne_iff_ne,
      Bool.not_eq_true', List.contains_eq_mem, decide_eq_false_iff_not, List.map_cons,
      List.nodup_cons, List.mem_map, List.mem_cons, exists_const]
    grind

structure PeerOk (p : DesiredPeer) : Prop where
  id : p.id ≠ ""
  key : (keyFromBase64 (trim p.publicKey)).isSome = true
  some : p.allowedIps ≠ []
  allowed : validateAllowed p.allowedIps = .ok ()
  keepalive : p.persistentKeepaliveSeconds ≤ 600

def peerKey (p : DesiredPeer) : String := trim p.publicKey

theorem validatePeers_eq_ok {ids keys : List String} {peers : List DesiredPeer} :
    validatePeers ids keys peers = .ok () ↔
      (peers.map DesiredPeer.id).Nodup ∧ (peers.map peerKey).Nodup ∧
        ∀ p ∈ peers, p.id ∉ ids ∧ peerKey p ∉ keys ∧ PeerOk p := by
  induction peers generalizing ids keys with
  | nil => simp [validatePeers]
  | cons p peers ih =>
    have hok : PeerOk p ↔ p.id ≠ "" ∧ (keyFromBase64 (trim p.publicKey)).isSome = true ∧
        p.allowedIps ≠ [] ∧ validateAllowed p.allowedIps = .ok () ∧
          p.persistentKeepaliveSeconds ≤ 600 :=
      ⟨fun h => ⟨h.id, h.key, h.some, h.allowed, h.keepalive⟩, fun ⟨h₁, h₂, h₃, h₄, h₅⟩ =>
        ⟨h₁, h₂, h₃, h₄, h₅⟩⟩
    simp only [validatePeers, bind_eq_ok, require_eq_ok, ih, Bool.and_eq_true, bne_iff_ne,
      Bool.not_eq_true', List.contains_eq_mem, decide_eq_false_iff_not, decide_eq_true_eq,
      List.map_cons, List.nodup_cons, List.mem_map, List.mem_cons, exists_const,
      List.isEmpty_eq_false_iff, peerKey]
    grind

theorem validateAllowed_eq_ok {allowed : List String} : validateAllowed allowed = .ok () ↔
    ∀ s ∈ allowed, (parseCidr s).isOk = true := by
  induction allowed with
  | nil => simp [validateAllowed]
  | cons s allowed ih =>
    rw [validateAllowed, List.forall_mem_cons, ← ih]
    cases parseCidr s with
    | error => simp [bind, Except.bind, Except.isOk, Except.toBool]
    | ok => simp [bind, Except.bind, Except.isOk, Except.toBool]

end LabProbe.WireGuard
