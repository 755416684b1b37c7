import LabProbe.Router.Automation

/-!
# What a cycle of the automation writes

A write is of a binding that is switched on, whose rule is as the binding
remembers it. The data that arrives at the router is the rule as it was read,
but for the controlled field and the runtime fields, exactly when no other
string of the rule has white space around it.
-/

namespace LabProbe.Router

open Py Py.Json Hub Check

section
variable [Unicode] [Sha256] {mappings : Mappings} {firewall : Json} {document : List Entries}
  {candidates : Candidates} {binding rule : Entries} {desired : String}

-- ---------------------------------------------------------------------------
-- The guards
-- ---------------------------------------------------------------------------

/-- A write meets every guard of the loop. -/
structure Guarded (firewall : Json) (document : List Entries) (binding rule : Entries) : Prop where
  bound : binding ∈ document
  on : active binding = true
  found : findRule firewall (uuidOf binding) = some rule
  value : currentValue binding rule = lastApplied binding
  fingerprint : ruleFingerprint rule (fieldOf binding) = text (get binding "ruleFingerprint")

theorem guarded_of_plan {firewallUuid : String}
    (h : (plan mappings firewall firewallUuid document candidates).2 =
      .write binding rule desired) : Guarded firewall document binding rule := by
  have hfound := found_plan mappings firewall firewallUuid document candidates
  rw [h] at hfound
  cases hfound with
  | write hmem hactive hrule hdrifted =>
    obtain ⟨-, -, hvalue, hfingerprint⟩ := drifted_eq_false.mp hdrifted
    exact ⟨hmem, hactive, hrule, hvalue, hfingerprint⟩

-- ---------------------------------------------------------------------------
-- The data
-- ---------------------------------------------------------------------------

omit [Sha256] in
/-- The rule that arrives is the one that was read, but for the controlled
field and the runtime fields, the statistics of the rule among them. -/
def Framed (binding rule : Entries) (sent : Json) : Prop :=
  ∃ arrived : Entries, sent = .dict [("list", .list [.dict arrived])] ∧
    Json.dict (Dict.erase arrived (fieldOf binding)) =
      withoutRuntimeFields (.dict (Dict.erase (Dict.erase rule "stats") (fieldOf binding)))

omit [Sha256] in
/-- No string that the write takes over has white space around it. -/
def Trimmed (binding rule : Entries) : Prop :=
  ∀ s ∈ strings (.dict (Dict.erase (Dict.erase rule "stats") (fieldOf binding))), strip s = s

omit [Sha256] in
instance : Decidable (Trimmed binding rule) := List.decidableBAll _ _

omit [Sha256] in
theorem framed_iff : Framed binding rule (sentData binding rule desired) ↔
    Trimmed binding rule := by
  have hsent : sentData binding rule desired =
      .dict [("list", .list [.dict (rewriteEntries strip (payload binding rule desired))])] := rfl
  have harrived : Dict.erase (rewriteEntries strip (payload binding rule desired))
      (fieldOf binding) =
        rewriteEntries strip (Dict.erase (Dict.erase rule "stats") (fieldOf binding)) := by
    rw [erase_rewriteEntries, payload, Dict.erase_set_self]
  have hkept : rewriteEntries strip (Dict.erase (Dict.erase rule "stats") (fieldOf binding)) =
      rewriteEntries id (Dict.erase (Dict.erase rule "stats") (fieldOf binding)) ↔
        Trimmed binding rule := rewriteEntries_eq_iff _
  rw [← hkept, ← harrived]
  constructor
  · rintro ⟨arrived, heq, hframe⟩
    rw [hsent] at heq
    cases heq
    exact Json.dict.inj hframe
  · exact fun h => ⟨_, hsent, congrArg Json.dict h⟩

/-- A write is guarded, and takes the rule over as it was read exactly when
the rule is trimmed. -/
theorem write_framed_iff {firewallUuid : String}
    (h : (plan mappings firewall firewallUuid document candidates).2 =
      .write binding rule desired) :
    Guarded firewall document binding rule ∧ Framed binding rule (sentData binding rule desired) ↔
      Trimmed binding rule := by
  rw [framed_iff]
  exact and_iff_right (guarded_of_plan h)

end

-- ---------------------------------------------------------------------------
-- Two rules that a cycle writes
-- ---------------------------------------------------------------------------

attribute [local instance] Unicode.ascii

def nasRule (ruleName : String) : Entries :=
  [("uuid", .str "uuid-1"), ("ruleName", .str ruleName), ("direction", .str "forward"),
    ("ipVersion", .str "ipv4"), ("proto", .str "tcp"), ("destIP", .str "192.168.5.10"),
    ("destPort", .str "9443"), ("target", .str "ACCEPT"), ("inIface", .str "wan"),
    ("outIface", .str "lan"), ("stats", .dict [("packets", .int 9)])]

local instance nasSha256 : Sha256 where
  hexdigest value :=
    if get (asDict value) "ruleName" = .str "NAS" then
      "449dbf3a493bf822aa8ecf44b9c1122b6d07474013cb3ceae388aed010edbf61"
    else "08423bc923f741c96f3603d9fd864900412ca14d553f261eac405c2e485bee55"
  hexdigest_hex value := by
    split <;> exact ⟨by decide, List.all_eq_true.mp (by decide)⟩

def nasBinding (ruleName : String) : Entries :=
  [("firewallUuid", .str "uuid-1"), ("enabled", .bool true), ("targetType", .str "mapping"),
    ("mappingKind", .str "native"), ("mappingId", .str "NAS"), ("addressFamily", .str "ipv4"),
    ("matchField", .str "destIP"), ("lastAppliedValue", .str "192.168.5.10"),
    ("ruleFingerprint", .str (ruleFingerprint (nasRule ruleName) "destIP")),
    ("suspended", .bool false)]

def nasMappings : Mappings :=
  { relay := none
    runtimes := []
    native := .dict [("portMapping", .list [.dict [("ruleName", .str "NAS"),
      ("destIp", .str "192.168.5.46"), ("destPort", .str "9443"), ("proto", .str "tcp")]])] }

def nasFirewall (ruleName : String) : Json := .dict [("list", .list [.dict (nasRule ruleName)])]

/-- What the cycle does that sees the new address for the second time. -/
def nasPlan (ruleName : String) : Plan :=
  (plan nasMappings (nasFirewall ruleName) "" [nasBinding ruleName]
    [("uuid-1", "192.168.5.46", 1)]).2

theorem write_framed_nas :
    Guarded (nasFirewall "NAS") [nasBinding "NAS"] (nasBinding "NAS") (nasRule "NAS") ∧
      Framed (nasBinding "NAS") (nasRule "NAS")
        (sentData (nasBinding "NAS") (nasRule "NAS") "192.168.5.46") := by
  have hwrite : nasPlan "NAS" = .write (nasBinding "NAS") (nasRule "NAS") "192.168.5.46" := by
    decide +kernel
  exact (write_framed_iff hwrite).mpr (by decide +kernel)

/-- The name of a rule reaches the router without the white space around it. -/
theorem name_trimmed :
    nasPlan " NAS " = .write (nasBinding " NAS ") (nasRule " NAS ") "192.168.5.46" ∧
      ¬ Framed (nasBinding " NAS ") (nasRule " NAS ")
        (sentData (nasBinding " NAS ") (nasRule " NAS ") "192.168.5.46") := by
  refine ⟨by decide +kernel, fun h => ?_⟩
  exact absurd (framed_iff.mp h) (by decide +kernel)

end LabProbe.Router
