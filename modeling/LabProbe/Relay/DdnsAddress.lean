import LabProbe.Lib.Tiers
import LabProbe.Relay.Neighbors

/-!
# The IPv6 address of the agent

The agent lists the addresses of its interfaces, asks for the source address of
a route, and chooses the address that the Hub publishes. The role of an
interface ranks its addresses: the first role with an address that is stable and
public decides, if it has one only.

What `ip` prints is given as text, and the roles of the interfaces as they are.
-/

namespace LabProbe.Relay

open Py Tiers

structure Candidate6 where
  ip : Nat
  interface : String
  interfaceUp : Bool
  temporary : Bool
  deprecated : Bool
  tentative : Bool
  deriving DecidableEq, Repr

inductive InterfaceRole where
  | upstream | downstream | bridgeManagement | unknown
  deriving DecidableEq, Repr

structure InterfaceTopology where
  roles : List (String × InterfaceRole) := []

def InterfaceTopology.roleFor (t : InterfaceTopology) (interface : String) : InterfaceRole :=
  (Dict.get? t.roles interface).getD .unknown

structure Detected where
  address : String
  state : String
  source : String
  deriving DecidableEq, Repr

/-- `Ipv6Addr::to_string`. -/
def ipv6Display (ip : Nat) : String :=
  String.ofList (if ip / 2 ^ 32 = 0xffff then "::ffff:".toList ++ ipv4Text (ip % 2 ^ 32)
    else ipv6Text ip)

-- ---------------------------------------------------------------------------
-- Classes
-- ---------------------------------------------------------------------------

def startsWith (pre s : String) : Bool := pre.toList.isPrefixOf s.toList

def virtualInterface (name : String) : Bool :=
  ["docker", "veth", "virbr", "tun", "tap", "wg", "tailscale", "zt"].any fun pre =>
    startsWith pre (toAsciiLowercase name)

def ipv6Ula (ip : Nat) : Bool := ip / 2 ^ 121 == 0x7e

def ipv6Public (ip : Nat) : Bool := isGlobalScope ip && !ipv6Ula ip

def ipv6PublicCandidate (c : Candidate6) : Bool :=
  ipv6Public c.ip && c.interfaceUp && !c.temporary && !c.deprecated && !c.tentative &&
    !virtualInterface c.interface

-- ---------------------------------------------------------------------------
-- Listings
-- ---------------------------------------------------------------------------

def stripReturn (line : List Char) : List Char :=
  if line.getLast? = some '\r' then line.dropLast else line

/-- `str::lines`. -/
def lines (text : String) : List String :=
  let pieces := splitOn '\n' text.toList
  let last := pieces.getLast?.getD []
  (pieces.dropLast.map stripReturn ++ if last.isEmpty then [] else [last]).map String.ofList

def isU32 (s : String) : Bool :=
  let digits := match s.toList with
    | '+' :: cs => cs
    | cs => cs
  !digits.isEmpty && digits.all Char.isDigit && decimalValue digits < 2 ^ 32

def before? (c : Char) (s : String) : Option String :=
  if c ∈ s.toList then some (String.ofList (s.toList.takeWhile (· != c))) else none

/-- The text behind the first of a character, if it has one. -/
def after? (c : Char) (s : String) : Option String :=
  if c ∈ s.toList then some (String.ofList ((s.toList.dropWhile (· != c)).drop 1)) else none

/-- `split('@').next()`. -/
def withoutParent (name : String) : String := String.ofList (name.toList.takeWhile (· != '@'))

def interfaceName (line : String) : String :=
  let second := ((splitOn ':' line.toList)[1]?.map String.ofList).getD ""
  (((splitWhitespace second).head?).map withoutParent).getD ""

def isInterfaceLine (line : String) : Bool := (before? ':' line).any fun index => isU32 (trim index)

def interfaceIsUp (line : String) : Bool :=
  match (after? '<' line).bind (before? '>') with
  | some flags => (splitOn ',' flags.toList).any fun flag => flag == "UP".toList
  | none => contains " state UP ".toList line.toList

def lifetimeOver (fields : List String) : Bool :=
  (fields.zip fields.tail).any fun pair =>
    pair == ("valid_lft", "0sec") || pair == ("preferred_lft", "0sec")

structure Listing where
  interface : String := ""
  interfaceUp : Bool := false
  out : List Candidate6 := []
  lastCandidate : Option Nat := none

def Listing.enter (l : Listing) (line : String) : Listing :=
  if isInterfaceLine line then
    { l with lastCandidate := none, interface := interfaceName line
             interfaceUp := interfaceIsUp line }
  else l

def Listing.readFields (l : Listing) (fields : List String) : Listing :=
  if fields.head? = some "valid_lft" then
    match l.lastCandidate with
    | some index =>
      if lifetimeOver fields then
        { l with out := l.out.modify index fun c => { c with deprecated := true } }
      else l
    | none => l
  else if fields.head? ≠ some "inet6" then l
  else match fields[1]?.bind addressField with
    | some ip =>
      { l with
        out := l.out ++ [⟨ip, l.interface, l.interfaceUp, fields.contains "temporary",
          fields.contains "deprecated", fields.contains "tentative"⟩]
        lastCandidate := some l.out.length }
    | none => l

def Listing.read (l : Listing) (line : String) : Listing :=
  (l.enter line).readFields (splitWhitespace line)

def parseIpv6 (text : String) : List Candidate6 := ((lines text).foldl Listing.read {}).out

def parseIpv6RouteGet (text : String) : Option Candidate6 := do
  let fields := splitWhitespace text
  let ip ← (fieldAfter "src" fields).bind parseIpv6Addr
  let interface ← fieldAfter "dev" fields
  some ⟨ip, withoutParent interface, true, false, false, false⟩

-- ---------------------------------------------------------------------------
-- The choice
-- ---------------------------------------------------------------------------

def withRole (topology : InterfaceTopology) (role : InterfaceRole) (stable : List Candidate6) :
    List Candidate6 :=
  stable.filter fun c => topology.roleFor c.interface = role

def chooseIpv6 (candidates : List Candidate6) (topology : InterfaceTopology) : Detected :=
  let stable := candidates.filter ipv6PublicCandidate
  match withRole topology .upstream stable with
  | [c] => ⟨ipv6Display c.ip, "public", "wan-interface:" ++ c.interface⟩
  | _ :: _ :: _ => ⟨"", "ambiguous", "upstream"⟩
  | [] =>
    match withRole topology .bridgeManagement stable with
    | [c] => ⟨ipv6Display c.ip, "public", "bridge-management:" ++ c.interface⟩
    | _ :: _ :: _ => ⟨"", "ambiguous", "bridge-management"⟩
    | [] =>
      match withRole topology .downstream stable with
      | [c] => ⟨ipv6Display c.ip, "public", "delegated-lan:" ++ c.interface⟩
      | _ :: _ :: _ => ⟨"", "ambiguous", "delegated-lan"⟩
      | [] =>
        match withRole topology .unknown stable with
        | [c] => ⟨ipv6Display c.ip, "public", "generic:" ++ c.interface⟩
        | [] =>
          if stable.isEmpty then ⟨"", "unavailable", "generic"⟩ else ⟨"", "ambiguous", "generic"⟩
        | _ => ⟨"", "ambiguous", "generic"⟩

def routeOr (route : Option Candidate6) (chosen : Detected) : Detected :=
  match route.filter ipv6PublicCandidate with
  | some c => ⟨ipv6Display c.ip, "public", "route-src:" ++ c.interface⟩
  | none => chosen

def selectIpv6 (chosen : Detected) (route : Option Candidate6) (external : Option (Nat × String))
    (candidates : List Candidate6) : Detected :=
  let chosen :=
    if chosen.state = "public" && !startsWith "delegated-lan:" chosen.source then chosen
    else routeOr route chosen
  if chosen.state = "public" then chosen
  else match external with
    | some (ip, source) =>
      if candidates.any fun c => ipv6PublicCandidate c && c.ip == ip then
        ⟨ipv6Display ip, "public", source⟩
      else ⟨"", "ambiguous", source⟩
    | none => chosen

/-- `detect`, of the IPv6 address: what `ip addr` and `ip route get` print, if
they succeed, and the address that a service outside has seen. -/
def detectIpv6 (addresses route : Option String) (topology : InterfaceTopology)
    (external : Option (Nat × String)) : Detected :=
  let candidates := (addresses.map parseIpv6).getD []
  selectIpv6 (chooseIpv6 candidates topology) (route.bind parseIpv6RouteGet) external candidates

-- ---------------------------------------------------------------------------
-- The choice by roles
-- ---------------------------------------------------------------------------

def rankedRoles : List InterfaceRole := [.upstream, .bridgeManagement, .downstream, .unknown]

theorem mem_rankedRoles (role : InterfaceRole) : role ∈ rankedRoles := by cases role <;> decide

def InterfaceRole.sources : InterfaceRole → String × String
  | .upstream => ("wan-interface:", "upstream")
  | .bridgeManagement => ("bridge-management:", "bridge-management")
  | .downstream => ("delegated-lan:", "delegated-lan")
  | .unknown => ("generic:", "generic")

def answered : Choice InterfaceRole Candidate6 → Detected
  | .one role c => ⟨ipv6Display c.ip, "public", role.sources.1 ++ c.interface⟩
  | .many role => ⟨"", "ambiguous", role.sources.2⟩
  | .none => ⟨"", "unavailable", "generic"⟩

variable {candidates candidates' : List Candidate6} {topology : InterfaceTopology}

def grade (topology : InterfaceTopology) (c : Candidate6) : InterfaceRole :=
  topology.roleFor c.interface

def stableOf (candidates : List Candidate6) : List Candidate6 := candidates.filter ipv6PublicCandidate

/-- `choose_ipv6` lets the first role with a stable public address decide. -/
theorem chooseIpv6_eq (candidates : List Candidate6) (topology : InterfaceTopology) :
    chooseIpv6 candidates topology =
      answered (choose (grade topology) (stableOf candidates) rankedRoles) := by
  have hrole : ∀ role, withRole topology role (candidates.filter ipv6PublicCandidate) =
      members (grade topology) (stableOf candidates) role := fun _ => rfl
  simp only [chooseIpv6, hrole, rankedRoles, choose]
  cases hu : members (grade topology) (stableOf candidates) .upstream with
  | cons c rest => cases rest <;> rfl
  | nil =>
    cases hb : members (grade topology) (stableOf candidates) .bridgeManagement with
    | cons c rest => cases rest <;> rfl
    | nil =>
      cases hd : members (grade topology) (stableOf candidates) .downstream with
      | cons c rest => cases rest <;> rfl
      | nil =>
        cases hn : members (grade topology) (stableOf candidates) .unknown with
        | cons c rest => cases rest <;> rfl
        | nil =>
          -- no role has an address, so there is none
          have hnone : stableOf candidates = [] :=
            (@members_eq_nil _ _ _ (grade topology) _ _ mem_rankedRoles).mp fun role _ => by
              cases role
              · exact hu
              · exact hd
              · exact hb
              · exact hn
          rw [stableOf] at hnone
          simp [hnone, answered]

/-- The role is the highest with a stable public address. -/
def Leading (candidates : List Candidate6) (topology : InterfaceTopology) (role : InterfaceRole) :
    Prop :=
  Leads (grade topology) (stableOf candidates) rankedRoles role

/-- The stable public addresses of a role. -/
def ofRole (candidates : List Candidate6) (topology : InterfaceTopology) (role : InterfaceRole) :
    List Candidate6 :=
  members (grade topology) (stableOf candidates) role

/-- What `choose_ipv6` answers. -/
structure Answers (candidates : List Candidate6) (topology : InterfaceTopology) (d : Detected) :
    Prop where
  public_iff : d.state = "public" ↔
    ∃ role c, Leading candidates topology role ∧ ofRole candidates topology role = [c]
  address : ∀ role c, Leading candidates topology role → ofRole candidates topology role = [c] →
    d.address = ipv6Display c.ip
  unavailable_iff : d.state = "unavailable" ↔ stableOf candidates = []
  ambiguous : d.state ≠ "public" → d.state ≠ "unavailable" → d.state = "ambiguous" ∧ d.address = ""

theorem answers_chooseIpv6 (candidates : List Candidate6) (topology : InterfaceTopology) :
    Answers candidates topology (chooseIpv6 candidates topology) := by
  rw [chooseIpv6_eq]
  generalize hchoice : choose (grade topology) (stableOf candidates) rankedRoles = choice
  have hone : ∀ role c, choice = .one role c ↔
      Leading candidates topology role ∧ ofRole candidates topology role = [c] := fun role c => by
    rw [← hchoice]
    exact choose_eq_one
  have hnone : choice = .none ↔ stableOf candidates = [] := by
    rw [← hchoice, choose_eq_none]
    exact members_eq_nil mem_rankedRoles
  cases choice with
  | none =>
    refine ⟨⟨by simp [answered], fun ⟨role, c, h⟩ => ?_⟩, fun role c hl hm => ?_,
      ⟨fun _ => hnone.mp rfl, fun _ => rfl⟩, fun _ h => absurd rfl h⟩
    · exact absurd ((hone role c).mpr h) nofun
    · exact absurd ((hone role c).mpr ⟨hl, hm⟩) nofun
  | one role c =>
    refine ⟨⟨fun _ => ⟨role, c, (hone role c).mp rfl⟩, fun _ => rfl⟩, fun role' c' hl hm => ?_,
      ⟨by simp [answered], fun h => absurd (hnone.mpr h) nofun⟩, fun h => absurd rfl h⟩
    have hsame := (hone role' c').mpr ⟨hl, hm⟩
    cases hsame
    rfl
  | many role =>
    refine ⟨⟨by simp [answered], fun ⟨role, c, h⟩ => ?_⟩, fun role c hl hm => ?_,
      ⟨by simp [answered], fun h => absurd (hnone.mpr h) nofun⟩, fun _ _ => ⟨rfl, rfl⟩⟩
    · exact absurd ((hone role c).mpr h) nofun
    · exact absurd ((hone role c).mpr ⟨hl, hm⟩) nofun

theorem chooseIpv6_perm {candidates candidates' : List Candidate6} (topology : InterfaceTopology)
    (h : candidates'.Perm candidates) :
    chooseIpv6 candidates' topology = chooseIpv6 candidates topology := by
  rw [chooseIpv6_eq, chooseIpv6_eq, stableOf, stableOf, Tiers.choose_perm (h.filter _)]

/-- The highest role with a stable public address decides: one candidate is
published, several are ambiguous, whatever their order. -/
theorem choose_ipv6_answers (candidates : List Candidate6) (topology : InterfaceTopology) :
    Answers candidates topology (chooseIpv6 candidates topology) ∧
      ∀ candidates' : List Candidate6, candidates'.Perm candidates →
        chooseIpv6 candidates' topology = chooseIpv6 candidates topology :=
  ⟨answers_chooseIpv6 candidates topology, fun _ h => chooseIpv6_perm topology h⟩

def onBothUplinks : List Candidate6 :=
  [⟨0x24098a502e04 * 2 ^ 80 + 16, "pppoe-wan", true, false, false, false⟩,
   ⟨0x24098a502e04 * 2 ^ 80 + 16, "eth1", true, false, false, false⟩]

def bothUplinks : InterfaceTopology := ⟨[("pppoe-wan", .upstream), ("eth1", .upstream)]⟩

/-- One address on two interfaces is not published. -/
theorem same_address_twice :
    ¬ ∀ (candidates : List Candidate6) (topology : InterfaceTopology),
      (chooseIpv6 candidates topology).state = "public" ↔
        ∃ role, Leading candidates topology role ∧
          ((ofRole candidates topology role).map Candidate6.ip).dedup.length = 1 := by
  intro h
  have hpublic := (h onBothUplinks bothUplinks).mpr
    ⟨.upstream, ⟨[], [.bridgeManagement, .downstream, .unknown], rfl, by simp, by decide⟩, by decide⟩
  revert hpublic
  decide

end LabProbe.Relay
