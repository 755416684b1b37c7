import LabProbe.Hub.Values

/-!
# The desired port maps and their reconciliation

`_load_portmap_rules_document` reads the desired rules and says whether it
could: a document that is missing or malformed is no empty rule list. The
status handler that is installed last, the wrapper of `hub0934_fixes` over
the handler of `labrelay_sync_patch`, reads the rules through
`_load_portmap_rules`, which drops that answer.

The wrapper also repairs the start time of a running rule. Reconciliation
reads nothing of it, so it is left out, with the runtime document it needs.
-/

namespace LabProbe.PortMap

open Py Py.Json Hub

inductive Action where
  | upsert | start | stop | delete
  deriving DecidableEq, Repr

/-- The action and the payload of a call of `_queue_portmap_command`. -/
structure Request where
  action : Action
  payload : Entries
  deriving DecidableEq

-- ---------------------------------------------------------------------------
-- The rules document
-- ---------------------------------------------------------------------------

structure RulesDocument where
  version : Int := 1
  revision : Int := 0
  updatedAt : String := ""
  rules : List Entries := []

section
variable [Unicode]

def keptRules (rows : List Json) : List Entries :=
  (rows.filterMap dict?).filter fun row => cleanSavedValue (get row "id") != ""

/-- `_load_portmap_rules_document`, of the value `load_json` returns; `none`
stands for a document that is missing or cannot be read. -/
def loadPortmapRulesDocument : Option Json → RulesDocument × Bool
  | some (.dict raw) =>
    match get raw "rules" with
    | .list rows =>
      ({ version := max 1 (toInt (get raw "version") 1)
         revision := max 1 (toInt (get raw "revision") 1)
         updatedAt := cleanSavedValue (get raw "updatedAt")
         rules := keptRules rows }, true)
    | _ => ({}, false)
  | some (.list rows) => ({ revision := 1, rules := keptRules rows }, true)
  | _ => ({}, false)

def loadPortmapRules (raw : Option Json) : List Entries := (loadPortmapRulesDocument raw).1.rules

/-- The desired rules by identifier. -/
def desiredRules (raw : Option Json) : List (String × Entries) :=
  Dict.ofEntries (((loadPortmapRules raw).map fun row => (cleanSavedValue (get row "id"), row)).filter
    fun e => e.1 != "")

-- ---------------------------------------------------------------------------
-- The agent's report
-- ---------------------------------------------------------------------------

/-- The rows of `payload["rules"]` that are objects. -/
def reportRows (payload : Entries) : List Entries :=
  ((get payload "rules").list?.getD []).filterMap dict?

/-- The identifier a reported row goes by. -/
def reportedId (row : Entries) : String :=
  cleanSavedValue ((get (asDict (get row "rule")) "id").or (get (asDict (get row "runtime")) "id"))

/-- The reported rules by identifier, later rows replacing earlier ones. -/
def localRules (payload : Entries) : List (String × Entries) :=
  Dict.ofEntries (((reportRows payload).map fun row => (reportedId row, asDict (get row "rule"))).filter
    fun e => e.1 != "")

/-- A reported rule without a lease gets the desired one, or zero. -/
def normalizeRule (desired : List (String × Entries)) (row : Entries) : Entries :=
  let localRule := asDict (get row "rule")
  let expected := (Dict.get? desired (reportedId row)).getD []
  if (Dict.get? localRule "leaseSeconds").isSome then localRule
  else Dict.set localRule "leaseSeconds" (.int (max 0 (toInt (get expected "leaseSeconds") 0)))

def normalizeRow (desired : List (String × Entries)) : Json → Json
  | .dict row => .dict (Dict.set (Dict.set row "rule" (.dict (normalizeRule desired row))) "runtime"
      (.dict (asDict (get row "runtime"))))
  | item => item

def normalizePortmapPayload (raw : Option Json) : Json → Json
  | .dict payload =>
    match get payload "rules" with
    | .list rows => .dict (Dict.set payload "rules" (.list (rows.map (normalizeRow (desiredRules raw)))))
    | _ => .dict payload
  | payload => payload

-- ---------------------------------------------------------------------------
-- Reconciliation
-- ---------------------------------------------------------------------------

omit [Unicode] in
def compareKeys : List String :=
  ["enabled", "mode", "listenPort", "targetMode", "targetIpv4", "targetIpv6", "targetIpv6Suffix",
   "targetMac", "targetPort", "transportProtocol", "expiresAt", "leaseSeconds", "maxConnections",
   "idleTimeoutSec"]

def compareValue (row : Entries) (key : String) : Json :=
  if key = "transportProtocol" then
    .str (Unicode.upper (cleanSavedValue ((get row key).or (.str "TCP"))))
  else get row key

def upToDate (localRule rule : Entries) : Bool :=
  compareKeys.all fun key => (compareValue localRule key).eq (compareValue rule key)

omit [Unicode] in
def upsertRequest (rule : Entries) : Request := ⟨.upsert, [("rule", .dict rule)]⟩

omit [Unicode] in
def deleteRequest (id : String) : Request := ⟨.delete, [("id", .str id)]⟩

/-- `reconcile`: the commands it queues, an upsert for every rule the report
lacks or has otherwise and a delete for every rule it has beyond them. -/
def reconcile (raw : Option Json) (payload : Entries) : List Request :=
  let desired := desiredRules raw
  let reported := localRules payload
  (desired.filter fun e => !(Dict.get? reported e.1).any fun row => upToDate row e.2).map
      (fun e => upsertRequest e.2) ++
    ((Dict.keys reported).filter fun id => !(Dict.keys desired).contains id).map deleteRequest

/-- The commands the installed `api_router_portmap_status` queues. A report
that is no object and not empty makes it raise before any. -/
def statusRequests (raw : Option Json) (payload : Json) : List Request :=
  match (normalizePortmapPayload raw payload).or (.dict []) with
  | .dict payload => reconcile raw payload
  | _ => []

end

end LabProbe.PortMap
