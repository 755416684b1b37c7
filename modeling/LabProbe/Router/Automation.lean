import LabProbe.Lib.Check
import LabProbe.Router.Firewall
import Mathlib.Data.List.Sort

/-!
# The firewall automation

`FirewallAutomationService`: a binding adopts a rule of the router, and a
cycle of `reconcile` writes the address of the binding's mapping into the one
field it controls, at most one rule at a time. A rule that is not as the
binding remembers it suspends the binding. What the writes of `rpc` and the
reads around them answer is given to a cycle from outside.
-/

namespace LabProbe.Router

open Py Py.Json Hub Check

/-- The desired addresses seen last, each with the number of cycles in a row. -/
abbrev Candidates := List (String × String × Nat)

structure AutomationError where
  message : String
  code : String := "INVALID_AUTOMATION"
  httpStatus : Nat := 400

def stableObservations : Nat := 2

section
variable [Unicode]

-- ---------------------------------------------------------------------------
-- The document
-- ---------------------------------------------------------------------------

def bindings (document : List Entries) : List Entries :=
  document.filter fun row => uuidOf row != ""

def save (bindings : List Entries) : List Entries :=
  (List.insertionSort (fun a b => uuidOf a ≤ uuidOf b) bindings).take 100

/-- The bindings of the other rules. -/
def others (document : List Entries) (firewallUuid : String) : List Entries :=
  (bindings document).filter fun row => uuidOf row != firewallUuid

def replaceBinding (document : List Entries) (replacement : Entries) : List Entries :=
  save (others document (uuidOf replacement) ++ [replacement])

variable [Sha256]

def normalizeBinding (mappings : Mappings) (firewallUuid : String) (body rule : Entries)
    (now : Int) : Except AutomationError Entries := do
  require (Unicode.lower (text (get body "targetType")) == "mapping")
    { message := "自动化仅支持路由器 IPv6 映射和端口映射" }
  let mappingKind := Unicode.lower (text ((get body "mappingKind").or (.str "relay")))
  require (["relay", "native"].contains mappingKind) { message := "映射类型无效" }
  let mappingId := text (get body "mappingId")
  require (mappingId != "") { message := "请选择需要关联的映射规则" }
  let family := Unicode.lower (text ((get body "addressFamily").or (get rule "ipVersion")))
  require (["ipv4", "ipv6"].contains family)
    { message := "双栈规则不能绑定单一地址，请分别使用 IPv4 和 IPv6 规则" }
  let field :=
    if text (get body "matchField") ≠ "" then text (get body "matchField")
    else if text (get rule "ipv6SuffixDest") ≠ "" then "ipv6SuffixDest" else "destIP"
  require (["destIP", "ipv6SuffixDest"].contains field && !(family == "ipv4" && field != "destIP"))
    { message := "目标地址匹配方式与 IP 版本不兼容" }
  require (Unicode.lower (text (get rule "ipVersion")) == family)
    { message := "自动跟随的 IP 版本必须与原防火墙规则一致" }
  let label := if field = "ipv6SuffixDest" then "目的 IPv6 后缀" else "目的 IP"
  let current := fieldValue field (get rule field) family
  require (current != "")
    { message := "请先在原防火墙规则中填写有效的" ++ label ++ "，自动跟随不会改变匹配模式" }
  require (Unicode.upper (text (get rule "target")) == "ACCEPT")
    { message := "丢弃规则不参与映射自动化" }
  require (Unicode.lower (text (get rule "direction")) == "forward")
    { message := "映射只能关联 WAN 到 LAN 的转发规则" }
  require (Unicode.lower (text (get rule "inIface")) == "wan" &&
      Unicode.lower (text (get rule "outIface")) == "lan")
    { message := "映射防火墙规则必须使用 WAN 入接口和 LAN 出接口" }
  let provisional : Entries := [("mappingKind", .str mappingKind), ("mappingId", .str mappingId),
    ("addressFamily", .str family)]
  match mappingSpec mappings provisional with
  | none =>
    .error { message := "关联的映射规则不存在或暂不可读取", code := "MAPPING_NOT_FOUND"
             httpStatus := 404 }
  | some mapping => do
    require (mapping.addressFamily == family) { message := "防火墙规则与映射的 IP 版本不一致" }
    require (protocolMatches (get rule "proto") (.str mapping.protocol))
      { message := "防火墙规则与映射的协议不一致" }
    require (portContains (get rule "destPort") mapping.targetPort)
      { message := "目的端口未覆盖映射的目标端口" }
    .ok [("firewallUuid", .str firewallUuid), ("enabled", .bool (enabled (get body "enabled") true)),
      ("targetType", .str "mapping"), ("mappingKind", .str mappingKind),
      ("mappingId", .str mappingId), ("addressFamily", .str family), ("matchField", .str field),
      ("ownership", .str (text ((get body "ownership").or (.str "adopted")))),
      ("lastAppliedValue", .str current), ("ruleFingerprint", .str (ruleFingerprint rule field)),
      ("suspended", .bool false), ("suspendedReason", .str ""), ("lastAppliedAt", .int now)]

/-- `upsert`, up to the cycle it ends with. -/
def upsert (mappings : Mappings) (firewall : Json) (firewallUuid : Json) (body : Entries)
    (now : Int) (document : List Entries) : Except AutomationError (List Entries) := do
  let uuid := text firewallUuid
  require (uuid != "") { message := "防火墙规则 UUID 不能为空" }
  match findRule firewall uuid with
  | none =>
    .error { message := "原防火墙规则不存在，未创建任何新规则", code := "RULE_NOT_FOUND"
             httpStatus := 404 }
  | some rule => do
    let binding ← normalizeBinding mappings uuid body rule now
    .ok (save (others document uuid ++ [binding]))

omit [Sha256] in
def delete (firewallUuid : String) (document : List Entries) (candidates : Candidates) :
    List Entries × Candidates :=
  if (others document firewallUuid).length ≠ (bindings document).length then
    (save (others document firewallUuid), Dict.erase candidates firewallUuid)
  else (document, candidates)

-- ---------------------------------------------------------------------------
-- One cycle
-- ---------------------------------------------------------------------------

inductive Plan where
  | idle
  | suspend (binding : Entries) (reason : String)
  | write (binding rule : Entries) (desired : String)
  deriving DecidableEq

omit [Unicode] [Sha256] in
def candidateConfirmed (candidates : Candidates) (firewallUuid desired : String) :
    Candidates × Bool :=
  match Dict.get? candidates firewallUuid with
  | some (value, count) =>
    if value = desired then
      let count := min stableObservations (count + 1)
      (Dict.set candidates firewallUuid (value, count), stableObservations ≤ count)
    else (Dict.set candidates firewallUuid (desired, 1), false)
  | none => (Dict.set candidates firewallUuid (desired, 1), false)

def drifted (binding rule : Entries) : Bool :=
  lastApplied binding == "" || text (get binding "ruleFingerprint") == "" ||
    currentValue binding rule != lastApplied binding ||
    ruleFingerprint rule (fieldOf binding) != text (get binding "ruleFingerprint")

omit [Sha256] in
def active (binding : Entries) : Bool :=
  text (get binding "targetType") == "mapping" && enabled (get binding "enabled") true &&
    !enabled (get binding "suspended") false

omit [Sha256] in
/-- A rule that is as it was left: its mapping's address is compared with it. -/
def follow (mappings : Mappings) (candidates : Candidates) (binding rule : Entries) :
    Candidates × Plan :=
  let uuid := uuidOf binding
  let desired := resolve mappings binding
  if !ruleCompatible mappings rule binding || desired == "" then (candidates, .idle)
  else if currentValue binding rule = desired then (Dict.erase candidates uuid, .idle)
  else
    let (candidates, confirmed) := candidateConfirmed candidates uuid desired
    (candidates, if confirmed then .write binding rule desired else .idle)

/-- One turn of the loop; the loop goes on while there is nothing to do. -/
def consider (mappings : Mappings) (firewall : Json) (candidates : Candidates)
    (binding : Entries) : Candidates × Plan :=
  match if active binding then findRule firewall (uuidOf binding) else none with
  | some rule =>
    if drifted binding rule then
      (candidates,
        .suspend binding
          (if lastApplied binding = "" then "confirmation_required" else "manual_change"))
    else follow mappings candidates binding rule
  | none => (candidates, .idle)

def scan (mappings : Mappings) (firewall : Json) : Candidates → List Entries → Candidates × Plan
  | candidates, [] => (candidates, .idle)
  | candidates, binding :: rest =>
    match consider mappings firewall candidates binding with
    | (candidates, .idle) => scan mappings firewall candidates rest
    | (candidates, plan) => (candidates, plan)

/-- The start of `reconcile`, for one rule or all. -/
def plan (mappings : Mappings) (firewall : Json) (firewallUuid : String) (document : List Entries)
    (candidates : Candidates) : Candidates × Plan :=
  scan mappings firewall candidates
    ((bindings document).filter fun row => firewallUuid == "" || uuidOf row == firewallUuid)

omit [Sha256] in
/-- The rule that is written. -/
def payload (binding rule : Entries) (desired : String) : Entries :=
  Dict.set (Dict.erase rule "stats") (fieldOf binding) (.str desired)

omit [Sha256] in
/-- The data of the call, as `rpc` sends it. -/
def sentData (binding rule : Entries) (desired : String) : Json :=
  deepStripRuntimeFields (.dict [("list", .list [.dict (payload binding rule desired)])])

omit [Sha256] in
def suspendedBinding (binding : Entries) (reason : String) (now : Int) : Entries :=
  Dict.update binding [("suspended", .bool true), ("suspendedReason", .str reason),
    ("suspendedAt", .int now)]

def appliedBinding (binding rule : Entries) (desired : String) (verified : Json) (now : Int) :
    Except AutomationError Entries := do
  let updated := (findRule verified (uuidOf binding)).getD []
  require (currentValue binding updated == desired)
    { message := "路由器回读地址与期望值不一致", code := "VERIFY_FAILED", httpStatus := 502 }
  let written := if updated.isEmpty then payload binding rule desired else updated
  .ok (Dict.update binding [("lastAppliedValue", .str desired),
    ("ruleFingerprint", .str (ruleFingerprint written (fieldOf binding))),
    ("lastAppliedAt", .int now), ("suspended", .bool false), ("suspendedReason", .str "")])

/-- The binding a plan saves; `answer` is what `write_and_verify` returns, or
the error it ends in. -/
def saved (now : Int) (answer : Except AutomationError Json) : Plan → Option Entries
  | .idle => none
  | .suspend binding reason => some (suspendedBinding binding reason now)
  | .write binding rule desired =>
    (answer.bind fun verified => appliedBinding binding rule desired verified now).toOption

-- ---------------------------------------------------------------------------
-- What the loop finds
-- ---------------------------------------------------------------------------

variable {mappings : Mappings} {firewall : Json} {binding rule : Entries}

theorem drifted_eq_false : drifted binding rule = false ↔ lastApplied binding ≠ "" ∧
    text (get binding "ruleFingerprint") ≠ "" ∧ currentValue binding rule = lastApplied binding ∧
    ruleFingerprint rule (fieldOf binding) = text (get binding "ruleFingerprint") := by
  simp [drifted, and_assoc]

omit [Sha256] in
theorem follow_cases (mappings : Mappings) (candidates : Candidates) (binding rule : Entries) :
    (follow mappings candidates binding rule).2 = .idle ∨
      ruleCompatible mappings rule binding = true ∧ resolve mappings binding ≠ "" ∧
        (follow mappings candidates binding rule).2 =
          .write binding rule (resolve mappings binding) := by
  unfold follow
  dsimp only
  split
  · exact .inl rfl
  · rename_i hready
    split
    · exact .inl rfl
    · dsimp only
      split
      · obtain ⟨hcompatible, hdesired⟩ := not_or.mp (mt (Bool.or_eq_true _ _).mpr hready)
        exact .inr ⟨by simpa using hcompatible, by simpa using hdesired, rfl⟩
      · exact .inl rfl

/-- What the loop has found when it ends with a plan: a binding that is
switched on, and its rule either changed or ready to be written. -/
inductive Found (mappings : Mappings) (firewall : Json) (bindings : List Entries) : Plan → Prop
  | idle : Found mappings firewall bindings .idle
  | suspend {binding rule : Entries} : binding ∈ bindings → active binding = true →
    findRule firewall (uuidOf binding) = some rule → drifted binding rule = true →
    Found mappings firewall bindings (.suspend binding
      (if lastApplied binding = "" then "confirmation_required" else "manual_change"))
  | write {binding rule : Entries} : binding ∈ bindings → active binding = true →
    findRule firewall (uuidOf binding) = some rule → drifted binding rule = false →
    ruleCompatible mappings rule binding = true → resolve mappings binding ≠ "" →
    Found mappings firewall bindings (.write binding rule (resolve mappings binding))

theorem found_consider (mappings : Mappings) (firewall : Json) (candidates : Candidates)
    (binding : Entries) :
    Found mappings firewall [binding] (consider mappings firewall candidates binding).2 := by
  unfold consider
  cases hactive : active binding with
  | false => exact .idle
  | true =>
    rw [if_pos rfl]
    cases hrule : findRule firewall (uuidOf binding) with
    | none => exact .idle
    | some rule =>
      dsimp only
      cases hdrifted : drifted binding rule with
      | true => exact .suspend (List.mem_singleton_self _) hactive hrule hdrifted
      | false =>
        rcases follow_cases mappings candidates binding rule with hidle | ⟨hrule', hdesired, hwrite⟩
        · rw [if_neg Bool.false_ne_true, hidle]
          exact .idle
        · rw [if_neg Bool.false_ne_true, hwrite]
          exact .write (List.mem_singleton_self _) hactive hrule hdrifted hrule' hdesired

theorem Found.mono {bindings bindings' : List Entries} {p : Plan}
    (h : Found mappings firewall bindings p) (hsub : bindings ⊆ bindings') :
    Found mappings firewall bindings' p := by
  cases h with
  | idle => exact .idle
  | suspend hmem hactive hrule hdrifted => exact .suspend (hsub hmem) hactive hrule hdrifted
  | write hmem hactive hrule hdrifted hcompatible hdesired =>
    exact .write (hsub hmem) hactive hrule hdrifted hcompatible hdesired

theorem found_scan (mappings : Mappings) (firewall : Json) (candidates : Candidates)
    (bindings : List Entries) :
    Found mappings firewall bindings (scan mappings firewall candidates bindings).2 := by
  induction bindings generalizing candidates with
  | nil => exact .idle
  | cons binding rest ih =>
    have hturn := found_consider mappings firewall candidates binding
    unfold scan
    cases hconsider : consider mappings firewall candidates binding with
    | mk candidates' p =>
      rw [hconsider] at hturn
      cases p with
      | idle => exact (ih candidates').mono (List.subset_cons_self _ _)
      | suspend | write => exact hturn.mono (by simp)

theorem found_plan (mappings : Mappings) (firewall : Json) (firewallUuid : String)
    (document : List Entries) (candidates : Candidates) :
    Found mappings firewall document
      (plan mappings firewall firewallUuid document candidates).2 :=
  (found_scan mappings firewall candidates _).mono fun _ h =>
    List.mem_of_mem_filter (List.mem_of_mem_filter h)

end

end LabProbe.Router
