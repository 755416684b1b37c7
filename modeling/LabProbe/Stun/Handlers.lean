import LabProbe.Lib.Run
import LabProbe.Lib.Slots
import LabProbe.Stun.Rule

/-!
# The requests of the App on STUN rules

The handlers read the rules document, see to the mapping on the router, and
save the document with one rule changed. A request that is refused, by the
checks or by the router, leaves the document as it is.
-/

namespace LabProbe.Stun

open Py Py.Json Hub Check

/-- The rules document as it is saved. -/
structure Document where
  revision : Int := 0
  updatedAt : String := ""
  rules : List Entries := []

inductive Action where
  | upsert | start | stop | delete
  deriving DecidableEq, Repr

structure Request where
  action : Action
  payload : Entries
  deriving DecidableEq

def upsertRequest (rule : Entries) : Request := ⟨.upsert, [("rule", .dict rule)]⟩

/-- What an accepted request leaves: the rows it saves, the command it queues. -/
structure Change where
  rows : List Entries
  request : Request

/-- What a request reads besides the document: the port maps, and the error
the calls to the router end in, if any. -/
structure Context extends Readings where
  portmaps : List Entries
  router : Except String Unit

inductive Call where
  | create (c : Context) (body : Json)
  | update (c : Context) (ruleId : String) (body : Json)
  | delete (c : Context) (ruleId : String)
  | act (c : Context) (ruleId : String) (start : Bool)

def Call.context : Call → Context
  | .create c _ | .update c _ _ | .delete c _ | .act c _ _ => c

def saveRules (now : String) (rows : List Entries) (doc : Document) : Document :=
  { revision := doc.revision + 1, updatedAt := now, rules := rows }

section
variable [Unicode]

/-- Whether a row goes by the identifier of a request. -/
def named (id : String) (row : Entries) : Bool := ruleId row == id

def isNativeForward (rule : Entries) : Bool := text (get rule "forwardMode") == "router_native"

def findRule (id : String) (rows : List Entries) : Except String Entries :=
  Slots.find "rule not found" (named id) rows

/-- `rules`, a POST. A cleaned rule is always forwarded by the router. -/
def createRule (c : Context) (body : Json) (rows : List Entries) : Except String Change := do
  let payload ← bodyOr (fun value => "'" ++ typeName value ++ "' object has no attribute 'get'") body
  let rule ← cleanRule c.toReadings rows c.portmaps payload []
  (if rule.enabled then c.router else .ok ())
  .ok { rows := rows ++ [rule.toJson], request := upsertRequest rule.toJson }

def updateRule (c : Context) (id : String) (body : Json) (rows : List Entries) (old : Entries) :
    Except String Change := do
  let payload ← bodyOr assignFault body
  let rule ← cleanRule c.toReadings rows c.portmaps (Dict.set payload "id" (.str id)) old
  c.router
  .ok { rows := Slots.replace (named id) rule.toJson rows, request := upsertRequest rule.toJson }

def deleteRule (c : Context) (id : String) (rows : List Entries) : Except String Change := do
  c.router
  .ok { rows := rows.filter fun row => !named id row
        request := ⟨.delete, [("id", .str id)]⟩ }

/-- `action`. -/
def actOnRule (c : Context) (id : String) (start : Bool) (rows : List Entries) (old : Entries) :
    Except String Change := do
  (if isNativeForward old then c.router else .ok ())
  let rule := Dict.set (Dict.set old "enabled" (.bool start)) "updatedAt" (.str c.now)
  .ok {
    rows := Slots.replace (named id) rule rows
    request := if start then upsertRequest rule else ⟨.stop, [("id", .str id)]⟩ }

/-- What a request does with the rows. -/
def Call.handle (rows : List Entries) : Call → Except String Change
  | .create c body => createRule c body rows
  | .update c id body => do updateRule c id body rows (← findRule id rows)
  | .delete c id => do
    let _ ← findRule id rows
    deleteRule c id rows
  | .act c id start => do actOnRule c id start rows (← findRule id rows)

/-- The document after a request. -/
def handle (doc : Document) (call : Call) : Document :=
  match call.handle doc.rules with
  | .ok change => saveRules call.context.now change.rows doc
  | .error _ => doc

end

end LabProbe.Stun
