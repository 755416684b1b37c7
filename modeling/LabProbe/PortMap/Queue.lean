import LabProbe.Lib.Log
import LabProbe.Lib.Rows
import LabProbe.Lib.Run
import LabProbe.PortMap.Rules

/-!
# The port-map command queue

`_queue_portmap_command`, the poll and the acknowledgement of the agent, on
the rows of the commands document. A queued request rewrites the last
unfinished row of its router, action and rule in place, under the same id,
and makes it pending again. A poll sends the first rows that are pending or
due for a retry; an acknowledgement names an id only.

The system adds the agent. It executes what an answer that reaches it
carries, in order, and acknowledges any of that at any later time, in any
selection, with either result, or never. `ordered` and `executed` record
what was queued under which id, and what the agent ran.

Times are the clock readings of the calls. Times kept for display and the
results of commands are left out.
-/

namespace LabProbe.PortMap

open Py Py.Json Hub

inductive Status where
  | pending | delivered | done | failed
  deriving DecidableEq, Repr

structure Command where
  id : String
  router : String
  request : Request
  status : Status := .pending
  attempts : Nat := 0
  deliveredEpoch : Int := 0
  finishedEpoch : Option Int := none
  deriving DecidableEq

def Command.unfinished (c : Command) : Bool := c.status == .pending || c.status == .delivered

/-- What an answer carries of a command, with the router that asked. -/
structure Delivery where
  id : String
  router : String
  request : Request
  deriving DecidableEq

def Command.delivery (c : Command) : Delivery := ⟨c.id, c.router, c.request⟩

section
variable [Unicode]

-- ---------------------------------------------------------------------------
-- Queueing
-- ---------------------------------------------------------------------------

/-- `_portmap_command_rule_id`. -/
def Request.ruleId (r : Request) : String :=
  match r.action, get r.payload "rule" with
  | .upsert, .dict rule => cleanSavedValue (get rule "id")
  | _, _ => cleanSavedValue (get r.payload "id")

omit [Unicode] in
/-- The rows queueing keeps: those finished more than a day ago go, then
all but the last 500. -/
def keptCommands (now : Int) (commands : List Command) : List Command :=
  Logs.cap 500 (commands.filter fun c =>
    !((c.status == .done || c.status == .failed) && 86400 < now - c.finishedEpoch.getD now))

def coalesces (router : String) (request : Request) (c : Command) : Bool :=
  c.router == router && c.unfinished && c.request.action == request.action &&
    c.request.ruleId == request.ruleId

/-- `_queue_portmap_command`: the row it returns, and the table. A new row
takes the id given. -/
def queueCommand (now : Int) (id router : String) (request : Request) (commands : List Command) :
    Command × List Command :=
  let kept := keptCommands now commands
  match Rows.updateLast (coalesces router request)
      (fun c => { c with request := request, status := .pending }) kept with
  | some updated => updated
  | none =>
    let command : Command := { id := id, router := router, request := request }
    (command, kept ++ [command])

-- ---------------------------------------------------------------------------
-- Polling and acknowledging
-- ---------------------------------------------------------------------------

omit [Unicode] in
/-- `max(1, min(50, to_int(limit, 20) or 20))`, of the number read. -/
def pollLimit (limit : Int) : Nat := (max 1 (min 50 (if limit = 0 then 20 else limit))).toNat

omit [Unicode] in
def retryDue (now : Int) (c : Command) : Bool :=
  c.status == .delivered && 15 ≤ now - c.deliveredEpoch && c.attempts < 5

omit [Unicode] in
def isDue (now : Int) (router : String) (c : Command) : Bool :=
  c.router == router && (c.status == .pending || retryDue now c)

omit [Unicode] in
def markDelivered (now : Int) (c : Command) : Command :=
  { c with status := .delivered, deliveredEpoch := now, attempts := c.attempts + 1 }

omit [Unicode] in
/-- `api_router_portmap_commands`: the rows sent, and the table. -/
def pollCommands (now : Int) (router : String) (limit : Int) (commands : List Command) :
    List Command × List Command :=
  Rows.send (isDue now router) (markDelivered now) (pollLimit limit) commands

/-- The key under which an id is matched. -/
def tag (id : String) : String := cleanSavedValue (.str id)

/-- The results of an acknowledgement by id, later entries replacing earlier ones. -/
def ackMap (acks : List (String × Bool)) : List (String × Bool) :=
  Dict.ofEntries (acks.map fun ack => (tag ack.1, ack.2))

def ackCommand (now : Int) (acks : List (String × Bool)) (c : Command) : Command :=
  match Dict.get? (ackMap acks) (tag c.id) with
  | some ok => { c with status := if ok then .done else .failed, finishedEpoch := some now }
  | none => c

/-- `api_router_portmap_ack`, of the id and the result of each entry. -/
def ackCommands (now : Int) (acks : List (String × Bool)) (commands : List Command) :
    List Command := commands.map (ackCommand now acks)

-- ---------------------------------------------------------------------------
-- The system
-- ---------------------------------------------------------------------------

omit [Unicode] in
structure Queue where
  commands : List Command := []
  ordered : List Delivery := []
  executed : List Delivery := []

omit [Unicode] in
inductive Event where
  | queue (now : Int) (id router : String) (request : Request)
  | poll (now : Int) (router : String) (limit : Int) (lost : Bool)
  | ack (now : Int) (acks : List (Delivery × Bool))

def Queue.sendable (s : Queue) (acks : List (Delivery × Bool)) : List (Delivery × Bool) :=
  acks.filter fun ack => s.executed.contains ack.1

def Queue.ackEntries (s : Queue) (acks : List (Delivery × Bool)) : List (String × Bool) :=
  (s.sendable acks).map fun ack => (ack.1.id, ack.2)

def Queue.step (s : Queue) : Event → Queue
  | .queue now id router request =>
    let (command, commands) := queueCommand now id router request s.commands
    { s with commands := commands, ordered := s.ordered ++ [command.delivery] }
  | .poll now router limit lost =>
    let (sent, commands) := pollCommands now router limit s.commands
    { s with commands := commands
             executed := if lost then s.executed else s.executed ++ sent.map Command.delivery }
  | .ack now acks =>
    { s with commands := ackCommands now (s.ackEntries acks) s.commands }

/-- The rule a request is about: its router and identifier. -/
def Delivery.rule (d : Delivery) : String × String := (d.router, d.request.ruleId)

def lastOf (rule : String × String) (record : List Delivery) : Option Delivery :=
  (record.filter fun d => d.rule == rule).getLast?

def Delivery.tag (d : Delivery) : String := PortMap.tag d.id

def rewritten (now : Int) (router : String) (request : Request) (commands : List Command) :
    Option Command :=
  ((keptCommands now commands).filter (coalesces router request)).getLast?

-- ---------------------------------------------------------------------------
-- What the operations do
-- ---------------------------------------------------------------------------

variable {now : Int} {id router : String} {request : Request} {commands : List Command}

theorem queueCommand_cases (now : Int) (id router : String) (request : Request)
    (commands : List Command) :
    (∃ pre c post, keptCommands now commands = pre ++ c :: post ∧
        coalesces router request c = true ∧ rewritten now router request commands = some c ∧
        queueCommand now id router request commands =
          ({ c with request := request, status := .pending },
            pre ++ { c with request := request, status := .pending } :: post)) ∨
      (rewritten now router request commands = none ∧
        queueCommand now id router request commands =
          ({ id := id, router := router, request := request },
            keptCommands now commands ++ [{ id := id, router := router, request := request }])) := by
  unfold queueCommand rewritten
  generalize keptCommands now commands = kept
  dsimp only
  cases hu : Rows.updateLast (coalesces router request)
      (fun c => { c with request := request, status := .pending }) kept with
  | some updated =>
    obtain ⟨command, rows⟩ := updated
    obtain ⟨pre, c, post, rfl, hc, hpost, rfl, rfl⟩ := Rows.updateLast_some hu
    exact .inl ⟨pre, c, post, rfl, hc, Rows.filter_getLast? hc hpost, rfl⟩
  | none =>
    refine .inr ⟨?_, rfl⟩
    have hnone : kept.filter (coalesces router request) = [] := by
      simpa [List.filter_eq_nil_iff] using Rows.updateLast_none.mp hu
    rw [hnone]
    rfl

omit [Unicode] in
theorem keptCommands_sublist (now : Int) (commands : List Command) :
    (keptCommands now commands).Sublist commands :=
  (Logs.cap_suffix _ _).sublist.trans List.filter_sublist

theorem coalesces_rule {c : Command} (h : coalesces router request c = true) :
    c.unfinished = true ∧ c.delivery.rule = (router, request.ruleId) := by
  simp only [coalesces, Bool.and_eq_true, beq_iff_eq] at h
  obtain ⟨⟨⟨hrouter, hunfinished⟩, -⟩, hid⟩ := h
  exact ⟨hunfinished, Prod.ext hrouter hid⟩

omit [Unicode] in
theorem isDue_unfinished {c : Command} (h : isDue now router c = true) : c.unfinished = true :=
  Rows.open_of_due h

omit [Unicode] in
theorem pollCommands_map (now : Int) (router : String) (limit : Int) (commands : List Command) :
    (pollCommands now router limit commands).2.map (fun c => (c.unfinished, c.delivery)) =
      commands.map fun c => (c.unfinished, c.delivery) :=
  Rows.map_send (fun c hc => by rw [isDue_unfinished hc]; rfl) _ _

omit [Unicode] in
theorem sent_unfinished {c : Command} (h : c ∈ (pollCommands now router limit commands).1) :
    c.unfinished = true := by
  obtain ⟨a, -, -, rfl⟩ := Rows.mem_sent h
  rfl

theorem ackCommand_delivery (now : Int) (acks : List (String × Bool)) (c : Command) :
    (ackCommand now acks c).delivery = c.delivery := by
  unfold ackCommand
  split <;> rfl

theorem get?_ackMap (acks : List (String × Bool)) (key : String) :
    Dict.get? (ackMap acks) key = ((acks.filter fun ack => tag ack.1 == key).getLast?).map Prod.snd := by
  rw [ackMap, Dict.get?_ofEntries, ← List.map_reverse, ← List.head?_reverse, ← List.filter_reverse]
  induction acks.reverse with
  | nil => rfl
  | cons ack acks ih =>
    by_cases h : tag ack.1 = key <;> simp [Dict.get?, h, ih]

end

end LabProbe.PortMap
