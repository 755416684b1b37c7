import LabProbe.Lib.Log
import LabProbe.Lib.Run
import LabProbe.Lib.Slots
import LabProbe.PortMap.Clean
import LabProbe.PortMap.Rules

/-!
# The requests of the App on port maps

The handlers read the rules document, change one rule and save the document
through the save that `portmap_persistence_patch` installs. A request that
is refused leaves the document as it is.

The conflict check compares a rule with the rules of other identifiers, and
lookups, updates and deletes go by identifier.
-/

namespace LabProbe.PortMap

open Py Py.Json Hub Check

/-- What an accepted request leaves: the rows it saves, the command it queues. -/
structure Change where
  rows : List Entries
  request : Request

/-- A request, with what its handling reads besides the document. -/
inductive Call where
  | create (r : Readings) (body : Json)
  | update (r : Readings) (ruleId : String) (body : Json)
  | delete (r : Readings) (ruleId : String)
  | act (r : Readings) (ruleId : String) (start : Bool)

def Call.readings : Call → Readings
  | .create r _ | .update r _ _ | .delete r _ | .act r _ _ => r

section
variable [Unicode]

-- ---------------------------------------------------------------------------
-- Saving
-- ---------------------------------------------------------------------------

def savedBefore (a b : Entries) : Bool :=
  let port (row : Entries) := toInt (get row "listenPort") 0
  let name (row : Entries) := cleanSavedValue (get row "name")
  port a < port b || (port a == port b && name a ≤ name b)

def savedRows (rows : List Entries) : List Entries :=
  (Logs.cap 100 rows).insertionSort fun a b => savedBefore a b

def nextRevision : Option Json → Int
  | some (.dict previous) => toInt (get previous "revision") 0 + 1
  | none => 1
  | _ => 1

def saveRules (now : String) (rows : List Entries) (raw : Option Json) : Json :=
  .dict [("version", .int 2), ("revision", .int (nextRevision raw)), ("updatedAt", .str now),
    ("rules", .list ((savedRows rows).map .dict))]

-- ---------------------------------------------------------------------------
-- The conflict check
-- ---------------------------------------------------------------------------

omit [Unicode] in
def ruleId (row : Entries) : Json := get row "id"

/-- The port and the protocol a rule takes. -/
def slot (row : Entries) : Int × String :=
  (toInt (get row "listenPort") 0,
    Unicode.upper (cleanSavedValue ((get row "transportProtocol").or (.str "TCP"))))

/-- Whether a row takes the slot of the rule under another identifier. -/
def conflicts (rule item : Entries) : Bool :=
  !(ruleId rule).eq (ruleId item) && slot item == slot rule

/-- `_portmap_check_conflict`. -/
def checkConflict (rows : List Entries) (rule : Entries) : Except String Unit :=
  match rows.find? (conflicts rule) with
  | some item => .error ((get rule "transportProtocol").toStr ++ " 监听端口 " ++
      (get rule "listenPort").toStr ++ " 已被规则 " ++ (get item "name").toStr ++ " 使用")
  | none => .ok ()

-- ---------------------------------------------------------------------------
-- Requests
-- ---------------------------------------------------------------------------

omit [Unicode] in
/-- Whether a row goes by the identifier of a request. -/
def named (id : String) (row : Entries) : Bool := (Json.str id).eq (ruleId row)

/-- The rule a request may store: cleaned, and without a conflict. -/
def acceptedRule (r : Readings) (rows : List Entries) (payload old : Entries) :
    Except String Entries := do
  let rule ← cleanPortmapRule r payload old
  checkConflict rows rule.toJson
  .ok rule.toJson

def createRule (r : Readings) (body : Json) (rows : List Entries) : Except String Change := do
  let payload ← bodyOr (fun value => "'" ++ typeName value ++ "' object is not a mapping") body
  let rule ← acceptedRule r rows payload []
  .ok { rows := rows ++ [rule], request := upsertRequest rule }

def updateRule (r : Readings) (id : String) (body : Json) (rows : List Entries) (old : Entries) :
    Except String Change := do
  let payload ← bodyOr assignFault body
  let rule ← acceptedRule r rows (Dict.set payload "id" (.str id)) old
  .ok { rows := Slots.replace (named id) rule rows, request := upsertRequest rule }

omit [Unicode] in
def deleteRule (id : String) (rows : List Entries) : Change :=
  { rows := rows.filter fun row => !named id row, request := deleteRequest id }

/-- The expiry a start leaves: a new lease for a rule that has expired. -/
def startedRule (epoch : Int) (rule : Entries) : Except String Entries :=
  match portmapEpoch (get rule "expiresAt") with
  | some expiresAt =>
    let lease := max 0 (toInt (get rule "leaseSeconds") 0)
    if epoch < expiresAt then .ok rule
    else if lease ≤ 0 then .error "旧规则缺少有效期时长，请编辑并重新选择有效期"
    else .ok (Dict.set rule "expiresAt" (.int (epoch + lease)))
  | none => .ok rule

def switchedRule (epoch : Int) (start : Bool) (old : Entries) : Except String Entries :=
  let rule := Dict.set old "enabled" (.bool start)
  if start then startedRule epoch rule else .ok rule

/-- `api_portmap_action`. -/
def actOnRule (r : Readings) (id : String) (start : Bool) (rows : List Entries)
    (old : Entries) : Except String Change := do
  let rule := Dict.set (← switchedRule r.epoch start old) "updatedAt" (.str r.now)
  .ok {
    rows := Slots.replace (named id) rule rows
    request := if start then upsertRequest rule else ⟨.stop, [("id", .str id)]⟩ }

def findRule (id : String) (rows : List Entries) : Except String Entries :=
  Slots.find "rule not found" (named id) rows

/-- What a request does with the loaded rows. -/
def Call.handle (rows : List Entries) : Call → Except String Change
  | .create r body => createRule r body rows
  | .update r id body => do updateRule r id body rows (← findRule id rows)
  | .delete _ id => do
    let _ ← findRule id rows
    .ok (deleteRule id rows)
  | .act r id start => do actOnRule r id start rows (← findRule id rows)

/-- The document after a request. -/
def handle (raw : Option Json) (call : Call) : Option Json :=
  match call.handle (loadPortmapRules raw) with
  | .ok change => some (saveRules call.readings.now change.rows raw)
  | .error _ => raw

end

end LabProbe.PortMap
