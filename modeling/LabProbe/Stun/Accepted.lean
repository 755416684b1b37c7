import LabProbe.Relay.Agree
import LabProbe.Relay.Rule
import LabProbe.Stun.Distinct

/-!
# What the agent makes of a STUN rule

`clean_rule` and the agent's checks constrain the same fields by different
means: characters against bytes, letters of any script against ASCII, the
tables of private addresses of two libraries. Reconciliation then compares
what the agent reports with the stored rule, under its identifier. A rule
comes to rest on the agent exactly when the request it was made from meets
the agent's conditions.
-/

namespace LabProbe.Stun

open Py Py.Json Hub Check

section
variable [Unicode]

-- ---------------------------------------------------------------------------
-- Reconciliation
-- ---------------------------------------------------------------------------

omit [Unicode] in
def compareKeys : List String :=
  ["enabled", "kind", "listenPort", "targetIpv4", "targetPort", "serviceType",
   "transportProtocol", "forwardMode", "stunServer", "maxConnections", "idleTimeoutSec"]

omit [Unicode] in
/-- The stored rules by identifier. -/
def desiredRules (rows : List Entries) : List (String × Entries) :=
  Dict.ofEntries (rows.map fun rule => ((match get rule "id" with | .str id => id | _ => ""), rule))

/-- The reported rules by identifier, later rows replacing earlier ones. -/
def localRules (payload : Entries) : List (String × Entries) :=
  Dict.ofEntries (((((get payload "rules").list?.getD []).filterMap dict?).filterMap fun row =>
    (get row "rule").dict?).map (fun rule => (ruleId rule, rule)) |>.filter fun e => e.1 != "")

omit [Unicode] in
def upToDate (localRule rule : Entries) : Bool :=
  compareKeys.all fun key => (get localRule key).eq (get rule key)

def statusRequests (rows : List Entries) (payload : Entries) : List Request :=
  let desired := desiredRules rows
  let reported := localRules payload
  (desired.filter fun e => !(Dict.get? reported e.1).any fun row => upToDate row e.2).map
      (fun e => upsertRequest e.2) ++
    ((Dict.keys reported).filter fun id => !(Dict.keys desired).contains id).map
      fun id => ⟨.delete, [("id", .str id)]⟩

omit [Unicode] in
def statusReport (rules : List Relay.Rule) : Entries :=
  [("rules", .list (rules.map fun rule => .dict [("rule", .dict rule.toJson)]))]

-- ---------------------------------------------------------------------------
-- The property and the condition
-- ---------------------------------------------------------------------------

/-- The agent accepts the rule, and what it then reports is up to date. -/
def Settles (rule : Rule) : Prop :=
  ∃ applied, Relay.acceptRule rule.toJson = some applied ∧
    statusRequests [rule.toJson] (statusReport [applied]) = []

/-- What the agent asks of a request beyond the checks of the Hub. -/
structure AgentReady (r : Readings) (payload old : Entries) : Prop where
  id : ∀ c ∈ (chosenId r payload old).toList, Relay.isKeptIdChar c = true
  name : (chosenName payload old).utf8ByteSize ≤ 64
  port : intOf 0 (get old "listenPort") = 0 ∨
    (20000 ≤ intOf 0 (get old "listenPort") ∧ intOf 0 (get old "listenPort") ≤ 20020)
  target : ∀ value, ipAddress (chosenTarget payload old) = some (.v4 value) →
    Relay.isLan value = true
  server : (stunServer r.env (chosenProtocol payload old)).toList.contains ':' = true
  current : ¬ (chosenProtocol payload old = "TCP" ∧
    stunServer r.env (chosenProtocol payload old) = Relay.legacyTcpStunServer)

-- ---------------------------------------------------------------------------
-- The rule on the agent
-- ---------------------------------------------------------------------------

variable {r : Readings} {rows portmaps : List Entries} {payload old : Entries} {rule : Rule}

omit [Unicode] in
def Rule.onAgent (rule : Rule) (listenPort : Nat) : Relay.Rule :=
  { kind := "stun", id := rule.id, name := rule.name, enabled := rule.enabled, mode := "stun"
    listenPort := listenPort, targetIpv4 := rule.targetIpv4
    targetPort := rule.targetPort.toNat, transportProtocol := rule.transportProtocol
    serviceType := rule.serviceType, forwardMode := "router_native", stunServer := rule.stunServer
    maxConnections := rule.maxConnections.toNat, idleTimeoutSec := rule.idleTimeoutSec.toNat }

theorem readRule_toJson (h : Cleaned r rows portmaps payload old rule) :
    Relay.readRule rule.toJson =
      (Relay.readUnsigned 16 (.int rule.listenPort)).map rule.onAgent := by
  obtain ⟨hport, hport'⟩ := h.targetPortRange
  obtain ⟨hmax, hmax'⟩ := h.maxConnections
  obtain ⟨hidle, hidle'⟩ := h.idleTimeoutSec
  have hread : Relay.readRule rule.toJson =
      (Relay.readUnsigned 16 (.int rule.listenPort)).bind fun listenPort =>
        (Relay.readUnsigned 16 (.int rule.targetPort)).bind fun targetPort =>
          (Relay.readUnsigned 32 (.int rule.maxConnections)).bind fun maxConnections =>
            (Relay.readUnsigned 64 (.int rule.idleTimeoutSec)).bind fun idleTimeoutSec =>
              some { rule.onAgent listenPort with
                targetPort := targetPort, maxConnections := maxConnections
                idleTimeoutSec := idleTimeoutSec } := rfl
  have htarget : Relay.readUnsigned 16 (.int rule.targetPort) = some rule.targetPort.toNat :=
    if_pos ⟨by omega, by omega⟩
  have hconnections : Relay.readUnsigned 32 (.int rule.maxConnections) =
      some rule.maxConnections.toNat := if_pos ⟨by omega, by omega⟩
  have htimeout : Relay.readUnsigned 64 (.int rule.idleTimeoutSec) =
      some rule.idleTimeoutSec.toNat := if_pos ⟨by omega, by omega⟩
  rw [hread, htarget, hconnections, htimeout]
  cases Relay.readUnsigned 16 (.int rule.listenPort) <;> rfl

-- ---------------------------------------------------------------------------
-- Its normal form
-- ---------------------------------------------------------------------------

omit [Unicode] in
/-- A text between a letter and a number has no white space around it. -/
theorem strip_toString {s t : String} {n : Int} (hn : 0 ≤ n) (hs : s.toList ≠ [])
    (hhead : ∀ c ∈ s.toList.head?, isSpace c = false) :
    strip (s ++ t ++ toString n) = s ++ t ++ toString n := by
  obtain ⟨m, rfl⟩ := Int.eq_ofNat_of_zero_le hn
  have hdigits : (toString (m : Int)).toList = Nat.toDigits 10 m := Nat.toList_repr
  rw [Relay.strip_eq_trimMatches, Relay.trimMatches_eq_self_iff]
  simp only [String.toList_append, hdigits]
  constructor
  · rw [List.append_assoc, List.head?_append_of_ne_nil _ hs]
    exact hhead
  · rw [List.getLast?_append_of_ne_nil _ Nat.toDigits_ne_nil]
    intro c hc
    exact isSpace_of_isDigit (isDigit_toDigits c (List.mem_of_getLast? hc))

theorem strip_chosenName (payload old : Entries) (hport : 0 ≤ chosenPort payload old) :
    strip (chosenName payload old) = chosenName payload old ∧ chosenName payload old ≠ "" := by
  have htemplate : ∀ t ∈ customTemplate :: serviceTemplates,
      t.service.toList.head?.any (fun c => !isSpace c) = true := by decide
  obtain ⟨first, hfirst, hspace⟩ := (Option.any_eq_true _ _).mp
    (htemplate _ (chosenTemplate_mem payload old))
  have hne : (chosenTemplate payload old).service.toList ≠ [] := by
    intro hnil
    rw [hnil] at hfirst
    cases hfirst
  have hhead : ∀ c ∈ (chosenTemplate payload old).service.toList.head?, isSpace c = false := by
    rw [hfirst]
    rintro c ⟨⟩
    simpa using hspace
  simp only [chosenName]
  split
  · have hassoc : (chosenTemplate payload old).service ++ " · " ++ chosenTarget payload old ++ ":" ++
        toString (chosenPort payload old) = (chosenTemplate payload old).service ++
          (" · " ++ chosenTarget payload old ++ ":") ++ toString (chosenPort payload old) := by
      simp only [String.append_assoc]
    rw [hassoc]
    refine ⟨strip_toString hport hne hhead, fun hempty => hne ?_⟩
    have hlist := congrArg String.toList hempty
    rw [String.toList_append, String.toList_append, List.append_assoc] at hlist
    exact (List.append_eq_nil_iff.mp hlist).1
  · rename_i hgiven
    exact ⟨strip_text _, hgiven⟩

theorem strip_stunServer (env : String → String) (protocol : String) :
    strip (stunServer env protocol) = stunServer env protocol ∧ stunServer env protocol ≠ "" := by
  have htcp : strip defaultStunTcpServer = defaultStunTcpServer := by decide
  have hudp : strip defaultStunUdpServer = defaultStunUdpServer := by decide
  simp only [stunServer]
  split
  · rename_i hconfigured
    exact ⟨strip_strip _, hconfigured⟩
  · split
    · exact ⟨htcp, by decide⟩
    · exact ⟨hudp, by decide⟩

theorem strip_service (payload old : Entries) :
    strip (chosenTemplate payload old).service = (chosenTemplate payload old).service := by
  have hall : ∀ t ∈ customTemplate :: serviceTemplates, strip t.service = t.service := by decide
  exact hall _ (chosenTemplate_mem payload old)

/-- The agent lowers the case of the identifier and replaces the server
that has no TCP. -/
theorem normalizeRule_onAgent (h : Cleaned r rows portmaps payload old rule) (port : Nat) :
    Relay.normalizeRule (rule.onAgent port) =
      { rule.onAgent port with
        id := Relay.toAsciiLowercase (Relay.trim rule.id)
        stunServer := Relay.usableServer rule.transportProtocol rule.stunServer } := by
  have hstun : Relay.toAsciiLowercase (Relay.trim "stun") = "stun" := by decide
  have hempty : Relay.trim "" = "" ∧ Relay.stripBrackets "" = "" ∧ Relay.normalizeMac "" = "" ∧
      Relay.toAsciiLowercase "" = "" := by decide
  obtain ⟨htrim, hbrackets, hmac, hlower⟩ := hempty
  have hname : Relay.trim rule.name = rule.name := by
    rw [h.name]
    refine Relay.trim_of_strip (strip_chosenName payload old ?_).1
    have hport := h.targetPortRange.1
    rw [h.targetPort] at hport
    omega
  have htarget : Relay.trim rule.targetIpv4 = rule.targetIpv4 := by
    rw [h.targetIpv4]
    exact Relay.trim_of_strip (strip_text _)
  have hservice : Relay.trim rule.serviceType = rule.serviceType := by
    rw [h.service]
    exact Relay.trim_of_strip (strip_service payload old)
  have hserver : Relay.trim rule.stunServer = rule.stunServer := by
    rw [h.server]
    exact Relay.trim_of_strip (strip_stunServer _ _).1
  have hprotocol : Relay.toAsciiUppercase (Relay.trim rule.transportProtocol) =
      rule.transportProtocol ∧ rule.transportProtocol ≠ "" := by
    rcases h.transport with hp | hp <;> rw [hp] <;> decide
  have hmode : Relay.toAsciiLowercase (Relay.trim "ipv4") = "ipv4" := by decide
  have hforward : Relay.toAsciiLowercase (Relay.trim "router_native") = "router_native" := by decide
  have htexts : Relay.normalizeTexts (rule.onAgent port) =
      { rule.onAgent port with id := Relay.toAsciiLowercase (Relay.trim rule.id) } := by
    simp only [Relay.normalizeTexts, Rule.onAgent, hstun, hname, hmode, htarget, hbrackets, htrim,
      hlower, hmac, hprotocol.1, hservice, hforward, hserver, String.reduceEq, reduceIte]
  obtain ⟨hmax, hmax'⟩ := h.maxConnections
  obtain ⟨hidle, hidle'⟩ := h.idleTimeoutSec
  have hconnections : max 1 (min 256 rule.maxConnections.toNat) = rule.maxConnections.toNat := by
    omega
  have htimeout : max 30 (min 3600 rule.idleTimeoutSec.toNat) = rule.idleTimeoutSec.toNat := by
    omega
  simp only [Relay.normalizeRule, htexts]
  simp only [reduceIte, Relay.normalizeStun, Rule.onAgent, hprotocol.2,
    hconnections, htimeout]

-- ---------------------------------------------------------------------------
-- Its checks
-- ---------------------------------------------------------------------------

theorem Cleaned.port_iff (h : Cleaned r rows portmaps payload old rule) :
    (20000 ≤ rule.listenPort ∧ rule.listenPort ≤ 20020) ↔
      (intOf 0 (get old "listenPort") = 0 ∨
        (20000 ≤ intOf 0 (get old "listenPort") ∧ intOf 0 (get old "listenPort") ≤ 20020)) := by
  have hlisten := h.listenPort
  simp only [Stun.listenPort] at hlisten
  by_cases hkept : intOf 0 (get old "listenPort") = 0
  · simp only [hkept, ne_eq, not_true_eq_false, if_false] at hlisten
    have hrange := (allocatedPort_ok hlisten).1
    simp only [portRange, List.mem_map, List.mem_range] at hrange
    obtain ⟨i, hi, hport⟩ := hrange
    exact iff_of_true (by omega) (.inl hkept)
  · simp only [ne_eq, hkept, not_false_eq_true, if_true, Except.ok.injEq] at hlisten
    rw [← hlisten]
    simp [hkept]

theorem Cleaned.target_iff (h : Cleaned r rows portmaps payload old rule) :
    Relay.validateIpv4 rule.targetIpv4 = .ok () ↔
      ∀ value, ipAddress (chosenTarget payload old) = some (.v4 value) →
        Relay.isLan value = true := by
  obtain ⟨value, hvalue⟩ := h.target
  rw [Relay.validateIpv4, Relay.parseIpv4Addr_of_ipAddress hvalue, require_eq_ok]
  rw [h.targetIpv4] at hvalue
  rw [hvalue]
  simp

-- ---------------------------------------------------------------------------
-- What the agent reports
-- ---------------------------------------------------------------------------

theorem statusRequests_single {applied : Relay.Rule} (hid : strip applied.id = applied.id)
    (hne : applied.id ≠ "") :
    statusRequests [rule.toJson] (statusReport [applied]) = [] ↔
      applied.id = rule.id ∧ upToDate applied.toJson rule.toJson = true := by
  have hdesired : desiredRules [rule.toJson] = [(rule.id, rule.toJson)] := rfl
  have hlocal : localRules (statusReport [applied]) = [(applied.id, applied.toJson)] := by
    have hrows : localRules (statusReport [applied]) = Dict.ofEntries
        ([(text (.str applied.id), applied.toJson)].filter fun e => e.1 != "") := rfl
    rw [hrows, text_str, hid, List.filter_cons_of_pos (by simpa using hne)]
    rfl
  unfold statusRequests
  rw [hdesired, hlocal]
  by_cases heq : applied.id = rule.id
  · simp [Dict.get?, Dict.keys, heq]
  · simp [Dict.get?, Dict.keys, heq]

theorem upToDate_onAgent (h : Cleaned r rows portmaps payload old rule) {port : Nat} {id server}
    (hport : (port : Int) = rule.listenPort) :
    upToDate { rule.onAgent port with id := id, stunServer := server }.toJson rule.toJson = true ↔
      server = rule.stunServer := by
  have hkeys : ∀ applied : Relay.Rule, upToDate applied.toJson rule.toJson =
      ((Json.bool applied.enabled).eq (.bool rule.enabled) &&
        ((Json.str applied.kind).eq (.str "stun") &&
        ((Json.int applied.listenPort).eq (.int rule.listenPort) &&
        ((Json.str applied.targetIpv4).eq (.str rule.targetIpv4) &&
        ((Json.int applied.targetPort).eq (.int rule.targetPort) &&
        ((Json.str applied.serviceType).eq (.str rule.serviceType) &&
        ((Json.str applied.transportProtocol).eq (.str rule.transportProtocol) &&
        ((Json.str applied.forwardMode).eq (.str "router_native") &&
        ((Json.str applied.stunServer).eq (.str rule.stunServer) &&
        ((Json.int applied.maxConnections).eq (.int rule.maxConnections) &&
        ((Json.int applied.idleTimeoutSec).eq (.int rule.idleTimeoutSec) && true))))))))))) :=
    fun _ => rfl
  have htarget : ((rule.targetPort.toNat : Nat) : Int) = rule.targetPort := by
    have := h.targetPortRange
    omega
  have hconnections : ((rule.maxConnections.toNat : Nat) : Int) = rule.maxConnections := by
    have := h.maxConnections
    omega
  have htimeout : ((rule.idleTimeoutSec.toNat : Nat) : Int) = rule.idleTimeoutSec := by
    have := h.idleTimeoutSec
    omega
  rw [hkeys]
  simp [Rule.onAgent, hport, htarget, hconnections, htimeout]

-- ---------------------------------------------------------------------------
-- Agreement
-- ---------------------------------------------------------------------------

omit [Unicode] in
theorem readUnsigned_eq_some {bits : Nat} {n : Int} {port : Nat} :
    Relay.readUnsigned bits (.int n) = some port ↔ n = port ∧ n < 2 ^ bits := by
  simp only [Relay.readUnsigned, Option.ite_none_right_eq_some, Option.some.injEq]
  omega

omit [Unicode] in
theorem usableServer_eq_self_iff {protocol server : String} (hne : server ≠ "") :
    Relay.usableServer protocol server = server ↔
      ¬ (protocol = "TCP" ∧ server = Relay.legacyTcpStunServer) := by
  unfold Relay.usableServer
  split
  · rename_i hold
    have hlegacy := hold.resolve_left hne
    simp only [hlegacy, and_self, not_true_eq_false, iff_false]
    decide
  · rename_i hkeep
    simp only [not_or] at hkeep
    exact iff_of_true rfl hkeep.2

theorem applied_iff (h : Cleaned r rows portmaps payload old rule) {port : Nat}
    (hport : (port : Int) = rule.listenPort) {applied : Relay.Rule}
    (happlied : applied = Relay.normalizeRule (rule.onAgent port)) :
    (Relay.validateRule applied 20000 20020 = .ok () ∧
        statusRequests [rule.toJson] (statusReport [applied]) = []) ↔
      AgentReady r payload old := by
  have hserver := strip_stunServer r.env rule.transportProtocol
  rw [← h.server] at hserver
  have hname : rule.name ≠ "" := by
    rw [h.name]
    refine (strip_chosenName payload old ?_).2
    have hfirst := h.targetPortRange.1
    rw [h.targetPort] at hfirst
    omega
  have htarget : rule.targetPort.toNat ≠ 0 := by
    have hfirst := h.targetPortRange.1
    omega
  have hrange : (20000 ≤ port ∧ port ≤ 20020) ↔
      (20000 ≤ rule.listenPort ∧ rule.listenPort ≤ 20020) := by
    omega
  rw [normalizeRule_onAgent h] at happlied
  have hvalid : Relay.validateRule applied 20000 20020 = .ok () ↔
      (applied.id ≠ "" ∧ ∀ c ∈ applied.id.toList, Relay.isIdChar c = true) ∧
        rule.name.utf8ByteSize ≤ 64 ∧ (20000 ≤ port ∧ port ≤ 20020) ∧
        applied.stunServer.toList.contains ':' = true ∧
        Relay.validateIpv4 rule.targetIpv4 = .ok () := by
    have hmode : Relay.validateTarget applied = Relay.validateIpv4 rule.targetIpv4 := by
      subst happlied
      rfl
    rw [Relay.validateRule_eq_ok, hmode]
    subst happlied
    simp [Rule.onAgent, hname, htarget, h.transport]
  have hupToDate : upToDate applied.toJson rule.toJson = true ↔
      applied.stunServer = rule.stunServer := by
    subst happlied
    exact upToDate_onAgent h hport
  have hid : applied.id = Relay.toAsciiLowercase (Relay.trim rule.id) := by rw [happlied]
  have hasked : applied.stunServer =
      Relay.usableServer rule.transportProtocol rule.stunServer := by rw [happlied]
  have hkept : Relay.usableServer rule.transportProtocol rule.stunServer = rule.stunServer ↔ _ :=
    usableServer_eq_self_iff hserver.2
  rw [hvalid, hrange, h.port_iff, h.target_iff]
  constructor
  · rintro ⟨⟨⟨hne, hchars⟩, hbytes, hports, hcolon, htargets⟩, hstatus⟩
    have hagent : ∀ c ∈ applied.id.toList, Relay.isKeptIdChar c = true := by
      intro c hc
      refine (Relay.isKeptIdChar_iff c).mpr ⟨hchars c hc, ?_⟩
      rw [hid] at hc
      exact Relay.isUpper_toAsciiLowercase hc
    obtain ⟨hsame, hup⟩ := (statusRequests_single (Relay.strip_of_plain fun c hc => Relay.isPlain_of_isKeptIdChar (hagent c hc)) hne).mp hstatus
    have hserver' := hupToDate.mp hup
    rw [hserver', h.server, h.protocol] at hcolon
    rw [hasked] at hserver'
    have hcurrent := hkept.mp hserver'
    rw [h.server, h.protocol] at hcurrent
    rw [hsame, h.id] at hagent
    rw [h.name] at hbytes
    exact ⟨hagent, hbytes, hports, htargets, hcolon, hcurrent⟩
  · intro hready
    have hchars := hready.id
    rw [← h.id] at hchars
    have hsame := (Relay.kept_id_iff rule.id).mpr hchars
    rw [← hid] at hsame
    have hcurrent := hready.current
    rw [← h.protocol, ← h.server] at hcurrent
    have hserver' := hasked.trans (hkept.mpr hcurrent)
    have hne : applied.id ≠ "" := by
      rw [hsame.2]
      intro hempty
      exact strip_chosenId_ne r payload old (by rw [← h.id, hempty]; rfl)
    refine ⟨⟨⟨hne, hsame.1⟩, ?_, hready.port, ?_, hready.target⟩, ?_⟩
    · rw [h.name]
      exact hready.name
    · rw [hserver', h.server, h.protocol]
      exact hready.server
    · rw [statusRequests_single (hsame.2 ▸ Relay.strip_of_plain fun c hc =>
        Relay.isPlain_of_isKeptIdChar (hchars c hc)) hne]
      exact ⟨hsame.2, hupToDate.mpr hserver'⟩

/-- A stored rule comes to rest on the agent exactly when its request meets
the agent's conditions. -/
theorem settles_iff (h : cleanRule r rows portmaps payload old = .ok rule) :
    Settles rule ↔ AgentReady r payload old := by
  have hcleaned := cleanRule_ok h
  constructor
  · rintro ⟨applied, haccept, hstatus⟩
    obtain ⟨given, hread, hnormal, hvalid⟩ := Relay.acceptRule_eq_some.mp haccept
    rw [readRule_toJson hcleaned, Option.map_eq_some_iff] at hread
    obtain ⟨port, hport, rfl⟩ := hread
    exact (applied_iff hcleaned (readUnsigned_eq_some.mp hport).1.symm hnormal.symm).mp
      ⟨hvalid, hstatus⟩
  · intro hready
    obtain ⟨hlow, hhigh⟩ := hcleaned.port_iff.mpr hready.port
    have hport : Relay.readUnsigned 16 (.int rule.listenPort) = some rule.listenPort.toNat :=
      readUnsigned_eq_some.mpr ⟨by omega, by omega⟩
    have hcast : (rule.listenPort.toNat : Int) = rule.listenPort := by omega
    obtain ⟨hvalid, hstatus⟩ := (applied_iff hcleaned hcast rfl).mpr hready
    refine ⟨_, Relay.acceptRule_eq_some.mpr ⟨rule.onAgent rule.listenPort.toNat, ?_, rfl, hvalid⟩,
      hstatus⟩
    rw [readRule_toJson hcleaned, hport, Option.map_some]

end

section
local instance asciiStunAccepted : Unicode := .ascii

def acceptedReadings : Readings := { now := "", token := 10, env := fun _ => "" }

def namedBody (name : String) : Entries :=
  [("name", .str name), ("targetIpv4", .str "192.168.1.2"), ("targetPort", .int 80)]

theorem settles_iff_nas : ∃ rule, cleanRule acceptedReadings [] [] (namedBody "nas") [] = .ok rule ∧
    (Settles rule ↔ AgentReady acceptedReadings (namedBody "nas") []) := by
  have haccepted : (cleanRule acceptedReadings [] [] (namedBody "nas") []).toBool = true := by
    decide +kernel
  cases hclean : cleanRule acceptedReadings [] [] (namedBody "nas") [] with
  | ok rule => exact ⟨rule, rfl, settles_iff hclean⟩
  | error e =>
    rw [hclean] at haccepted
    cases haccepted

def longName : String := "家里书房的网络存储服务器远程桌面管理入口映射"

/-- Twenty-two characters are within the limit of the Hub, and sixty-six
bytes beyond that of the agent. -/
theorem long_name_refused : ∃ rule,
    cleanRule acceptedReadings [] [] (namedBody longName) [] = .ok rule ∧ ¬ Settles rule := by
  have hrefused : (match cleanRule acceptedReadings [] [] (namedBody longName) [] with
    | .ok rule => (Relay.acceptRule rule.toJson).isNone
    | .error _ => false) = true := by decide +kernel
  cases hclean : cleanRule acceptedReadings [] [] (namedBody longName) [] with
  | ok rule =>
    rw [hclean] at hrefused
    refine ⟨rule, rfl, ?_⟩
    rintro ⟨applied, haccept, -⟩
    have hnone : (Relay.acceptRule rule.toJson).isNone = true := hrefused
    rw [haccept] at hnone
    cases hnone
  | error e =>
    rw [hclean] at hrefused
    cases hrefused

end

end LabProbe.Stun
