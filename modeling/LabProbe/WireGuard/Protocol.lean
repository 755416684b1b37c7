import LabProbe.Lib.Dict
import LabProbe.Lib.Log
import LabProbe.Lib.Rows
import LabProbe.Py.IpAddress

/-!
# The WireGuard control plane

`WireGuardService` on the Hub and the command handling of the agent. The Hub
keeps the desired server under a revision and queues commands; a queued
command replaces the unfinished ones of its scope up to its revision. The
agent remembers the revision it has applied, executes only what is newer and
answers what it has executed already from the stored result. Endpoint
updates carry the endpoint revision they expect of the profile.

A payload of `put` is taken as `clean_server` returns it. Whether the kernel
takes a configuration is an argument of the agent's step. Firewall rules,
results and times kept for display are left out.
-/

namespace LabProbe.WireGuard

open Py
open Rows (updateFirst)

/-- `_text` of a text. -/
def text (s : String) : String := strip s

-- ---------------------------------------------------------------------------
-- Documents and commands
-- ---------------------------------------------------------------------------

structure Profile where
  id : String
  endpointSource : String
  owner : String
  port : Int
  endpointRevision : Nat
  resolvedEndpoint : String
  deriving DecidableEq

structure Server where
  interfaceName : String
  endpointProfiles : List Profile
  revision : Nat := 0
  deriving DecidableEq

/-- The interface that a tombstone names is its only other field. -/
structure Document where
  revision : Nat := 0
  endpointRevision : Nat := 0
  server : Option Server := none
  tombstone : Option String := none
  deriving DecidableEq

structure EndpointUpdate where
  profileId : String
  endpointSource : String
  owner : String
  endpoint : String
  expectedEndpointRevision : Nat
  endpointRevision : Nat
  deriving DecidableEq

inductive Action where
  | apply (server : Server)
  | stop (interfaceName : String)
  | delete (interfaceName : String)
  | endpoint (update : EndpointUpdate)
  deriving DecidableEq

inductive Scope where
  | unscoped
  | server
  | endpoint (profileId : String)
  deriving DecidableEq

inductive Status where
  | pending | delivered | done | failed
  deriving DecidableEq

structure Command where
  id : String
  router : String
  action : Action
  revision : Nat
  scope : Scope
  status : Status := .pending
  attempts : Nat := 0
  deliveredEpoch : Int := 0
  deriving DecidableEq

def Command.unfinished (c : Command) : Bool := c.status == .pending || c.status == .delivered

-- ---------------------------------------------------------------------------
-- The Hub
-- ---------------------------------------------------------------------------

/-- Whether a new command of the scope replaces the row. -/
def superseded (router : String) (revision : Nat) (scope : Scope) (c : Command) : Bool :=
  c.router == router && (c.scope == .unscoped || c.scope == scope) && c.revision ≤ revision &&
    c.unfinished

/-- `queue`; the new row takes the id given. -/
def queue (id router : String) (action : Action) (revision : Nat) (scope : Scope)
    (rows : List Command) : List Command :=
  Logs.cap 500 (rows.filter (fun c => !superseded router revision scope c) ++
    [{ id := id, router := router, action := action, revision := revision, scope := scope }])

def put (document : Document) (expected : Option Int) (server : Server) :
    Except String Document :=
  if expected.any (fun n => n != (document.revision : Int)) then .error "revision conflict"
  else .ok { document with revision := document.revision + 1
                           server := some { server with revision := document.revision + 1 }
                           tombstone := none }

def defaultInterface (name : String) : String := if name.isEmpty then "labwg0" else name

def delete (document : Document) (expected : Option Int) : Except String Document :=
  if expected.any (fun n => n != (document.revision : Int)) then .error "revision conflict"
  else
    let old := (document.server.map fun server => text server.interfaceName).getD ""
    .ok { document with revision := document.revision + 1
                        server := none
                        tombstone := some (defaultInterface old) }

/-- What a status report of the agent's revision queues. -/
def statusAction (document : Document) (agentRevision : Int) : Option Action :=
  if agentRevision < document.revision then
    match document.server, document.tombstone with
    | some server, _ => some (.apply server)
    | none, some interfaceName => some (.delete interfaceName)
    | none, none => none
  else none

def Profile.renew (endpoint : String) (row : Profile) : Profile :=
  { row with resolvedEndpoint := endpoint, endpointRevision := row.endpointRevision + 1 }

def Server.renew (server : Server) (profileId endpoint : String) : Server :=
  let profiles := updateFirst (fun row => text row.id == profileId) (Profile.renew endpoint)
    server.endpointProfiles
  { server with endpointProfiles := profiles }

section
variable [Unicode]

/-- The endpoint `update_endpoint` stores; STUN needs an address and a port. -/
def resolveEndpoint (source endpoint : String) (port : Int) : Except String String :=
  if source = "stun" then
    match rsplitOnce ':' endpoint.toList with
    | some (host, port) =>
      let bracket := fun c => c == '[' || c == ']'
      let address := ipAddress (String.ofList (List.rdropWhile bracket (host.dropWhile bracket)))
      let number := parseInt (String.ofList port)
      if address.isSome && number.any (fun n => 1 ≤ n && n ≤ 65535) then .ok endpoint
      else .error "STUN endpoint 必须包含公网 IP 和端口"
    | none => .error "STUN endpoint 必须包含公网 IP 和端口"
  else if source = "ddns" && !endpoint.isEmpty && !endpoint.toList.contains ':' then
    .ok (endpoint ++ ":" ++ toString port)
  else .ok endpoint

/-- `update_endpoint`: the document, and the update it queues. -/
def updateEndpoint (document : Document) (profileId source owner endpoint : String)
    (expected : Option Int) : Except String (Document × EndpointUpdate) :=
  match document.server with
  | none => .error "endpoint profile not found"
  | some server =>
    match server.endpointProfiles.find? (fun row => text row.id == profileId) with
    | none => .error "endpoint profile not found"
    | some profile =>
      if text profile.endpointSource = "manual" then
        .error "manual endpoint profile cannot be changed by an automatic updater"
      else if text profile.endpointSource ≠ Unicode.lower (text source) then
        .error "endpoint updater does not own this profile"
      else if owner.isEmpty || text profile.owner ≠ text owner then
        .error "endpoint owner does not match this profile"
      else match expected with
      | none => .error "expectedEndpointRevision is required"
      | some expected =>
        if expected ≠ profile.endpointRevision then .error "endpoint revision conflict"
        else do
          let endpoint ← resolveEndpoint source endpoint profile.port
          pure ({ document with server := some (server.renew profileId endpoint)
                                endpointRevision := document.endpointRevision + 1 },
            { profileId := profileId, endpointSource := source, owner := owner
              endpoint := endpoint, expectedEndpointRevision := profile.endpointRevision
              endpointRevision := profile.endpointRevision + 1 })

theorem updateEndpoint_ok {document saved : Document} {update : EndpointUpdate}
    {profileId source owner endpoint : String} {expected : Option Int}
    (h : updateEndpoint document profileId source owner endpoint expected = .ok (saved, update)) :
    ∃ server profile resolved, document.server = some server ∧
      server.endpointProfiles.find? (fun row => text row.id == profileId) = some profile ∧
      text profile.endpointSource ≠ "manual" ∧ owner ≠ "" ∧
      resolveEndpoint source endpoint profile.port = .ok resolved ∧
      saved = { document with server := some (server.renew profileId resolved)
                              endpointRevision := document.endpointRevision + 1 } ∧
      update = ⟨profileId, source, owner, resolved, profile.endpointRevision,
        profile.endpointRevision + 1⟩ := by
  unfold updateEndpoint at h
  split at h
  · simp at h
  · rename_i server hserver
    split at h
    · simp at h
    · rename_i profile hprofile
      split at h
      · simp at h
      · rename_i hmanual
        split at h
        · simp at h
        · split at h
          · simp at h
          · rename_i howner
            split at h
            · simp at h
            · split at h
              · simp at h
              · cases hresolve : resolveEndpoint source endpoint profile.port with
                | error message => simp [hresolve, bind, Except.bind] at h
                | ok resolved =>
                  simp only [hresolve, bind, Except.bind, pure, Except.pure, Except.ok.injEq,
                    Prod.mk.injEq] at h
                  obtain ⟨rfl, rfl⟩ := h
                  refine ⟨server, profile, resolved, hserver, hprofile, hmanual, ?_, hresolve, rfl, rfl⟩
                  rintro rfl
                  simp at howner

end

/-- `max(1, min(20, _int(limit, 10)))`, of the number read. -/
def pollLimit (limit : Int) : Nat := (max 1 (min 20 limit)).toNat

def retryDue (now : Int) (c : Command) : Bool :=
  c.status == .delivered && 15 ≤ now - c.deliveredEpoch && c.attempts < 5

def isDue (now : Int) (router : String) (c : Command) : Bool :=
  c.router == router && (c.status == .pending || retryDue now c)

def markDelivered (now : Int) (c : Command) : Command :=
  { c with status := .delivered, deliveredEpoch := now, attempts := c.attempts + 1 }

def agentCommands (now : Int) (router : String) (limit : Int) (rows : List Command) :
    List Command × List Command :=
  Rows.send (isDue now router) (markDelivered now) (pollLimit limit) rows

structure Ack where
  id : String
  ok : Bool
  deriving DecidableEq

def ackCommand (acks : List Ack) (c : Command) : Command :=
  match Dict.get? (Dict.ofEntries (acks.map fun ack => (text ack.id, ack.ok))) (text c.id) with
  | some ok => { c with status := if ok then .done else .failed }
  | none => c

def agentAck (acks : List Ack) (rows : List Command) : List Command := rows.map (ackCommand acks)

-- ---------------------------------------------------------------------------
-- The agent
-- ---------------------------------------------------------------------------

structure Agent where
  revision : Nat := 0
  interface : String := ""
  profiles : List Profile := []
  deriving DecidableEq

structure Delivery where
  id : String
  action : Action
  revision : Nat
  deriving DecidableEq

def Command.delivery (c : Command) : Delivery := ⟨c.id, c.action, c.revision⟩

def asU64 (n : Nat) : Option Nat := if n < 2 ^ 64 then some n else none

def readRevision (revision : Nat) : Nat := (asU64 revision).getD 0

def isWhitespace (c : Char) : Bool := isSpace c && !(28 ≤ c.toNat && c.toNat ≤ 31)

/-- `trim().is_empty()`. -/
def isBlank (s : String) : Bool := s.toList.all isWhitespace

/-- `apply_endpoint_update`, on an update that has been read. -/
def applyEndpointUpdate (profiles : List Profile) (update : EndpointUpdate) :
    Except String (List Profile) :=
  match profiles.find? (fun profile => profile.id == update.profileId) with
  | none => .error "endpoint profile not found"
  | some profile =>
    if profile.endpointSource = "manual" then
      .error "manual endpoint profile cannot be changed by an automatic updater"
    else if profile.endpointSource ≠ update.endpointSource then
      .error "endpoint updater source does not match profile"
    else if profile.owner.isEmpty || profile.owner ≠ update.owner then
      .error "endpoint updater owner does not match profile"
    else if profile.endpointRevision = update.endpointRevision &&
        profile.resolvedEndpoint = update.endpoint then .ok profiles
    else if profile.endpointRevision ≠ update.expectedEndpointRevision then
      .error "endpoint revision conflict"
    else if update.endpointRevision ≠ min (update.expectedEndpointRevision + 1) (2 ^ 64 - 1) then
      .error "endpoint revision must advance exactly once"
    else if isBlank update.endpoint then .error "endpoint cannot be empty"
    else .ok (updateFirst (fun profile => profile.id == update.profileId)
      (fun profile => { profile with resolvedEndpoint := update.endpoint
                                     endpointRevision := update.endpointRevision }) profiles)

/-- The profiles after an update, if it can be read and is taken. -/
def Agent.updated (profiles : List Profile) (update : EndpointUpdate) :
    Except String (List Profile) :=
  if (asU64 update.expectedEndpointRevision).isSome && (asU64 update.endpointRevision).isSome then
    applyEndpointUpdate profiles update
  else .error "invalid WireGuard endpoint update"

def Agent.interfaceOf (a : Agent) (name : String) : String :=
  if name.isEmpty then defaultInterface a.interface else name

/-- Whether a payload can be read: its numbers fit the agent's types. -/
def Action.readable : Action → Bool
  | .apply server =>
    (asU64 server.revision).isSome && server.endpointProfiles.all fun profile =>
      (asU64 profile.endpointRevision).isSome && 0 ≤ profile.port && profile.port < 2 ^ 16
  | _ => true

def Agent.execute (a : Agent) : Action → Agent
  | .apply server =>
    { a with interface := server.interfaceName, profiles := server.endpointProfiles }
  | .stop interfaceName => { a with interface := a.interfaceOf interfaceName }
  | .delete interfaceName => { a with interface := a.interfaceOf interfaceName }
  | .endpoint _ => a

def Action.isServer : Action → Bool
  | .endpoint _ => false
  | _ => true

/-- Whether a command is a server command that is neither stale nor the one
applied last. -/
def Agent.executes (a : Agent) (c : Delivery) : Bool :=
  let revision := readRevision c.revision
  c.action.isServer && !(revision < a.revision) && !(revision == a.revision && 0 < revision)

/-- The handling of a command in `sync_wireguard`: the state, and whether it
is acknowledged as done. `works` is the kernel's answer. -/
def Agent.handle (a : Agent) (c : Delivery) (works : Bool) : Agent × Bool :=
  match c.action with
  | .endpoint update =>
    match Agent.updated a.profiles update with
    | .ok profiles => ({ a with profiles := profiles }, true)
    | .error _ => (a, false)
  | action =>
    let revision := readRevision c.revision
    if revision < a.revision then (a, false)
    else if revision = a.revision ∧ 0 < revision then (a, true)
    else if works && action.readable then
      ({ a.execute action with
          revision := if a.revision < revision then revision else a.revision }, true)
    else (a, false)

-- ---------------------------------------------------------------------------
-- What the operations keep
-- ---------------------------------------------------------------------------

def Command.core (c : Command) : Bool × Delivery × Scope := (c.unfinished, c.delivery, c.scope)

theorem isDue_unfinished {now : Int} {router : String} {c : Command}
    (h : isDue now router c = true) : c.unfinished = true :=
  Rows.open_of_due h

theorem agentCommands_core (now : Int) (router : String) (limit : Int) (rows : List Command) :
    (agentCommands now router limit rows).2.map Command.core = rows.map Command.core :=
  Rows.map_send (fun c hc => by rw [Command.core, Command.core, isDue_unfinished hc]; rfl) _ _

theorem sent_core {now : Int} {router : String} {limit : Int} {rows : List Command} {d : Delivery}
    (h : d ∈ (agentCommands now router limit rows).1.map Command.delivery) :
    ∃ c ∈ rows, c.unfinished = true ∧ c.delivery = d := by
  obtain ⟨c, hc, rfl⟩ := List.mem_map.mp h
  obtain ⟨row, hrow, hdue, rfl⟩ := Rows.mem_sent hc
  exact ⟨row, hrow, isDue_unfinished hdue, rfl⟩

theorem ackCommand_cases (acks : List Ack) (c : Command) :
    ackCommand acks c = c ∨ ((ackCommand acks c).delivery = c.delivery ∧
      (ackCommand acks c).scope = c.scope ∧ (ackCommand acks c).unfinished = false ∧
        ∃ ack ∈ acks, text ack.id = text c.id) := by
  unfold ackCommand
  split
  · rename_i ok hget
    refine .inr ⟨rfl, rfl, by cases ok <;> rfl, ?_⟩
    have hkey := Dict.get?_isSome.mp (Option.isSome_of_eq_some hget)
    rw [Dict.mem_keys_ofEntries, Dict.keys, List.map_map] at hkey
    exact List.mem_map.mp hkey
  · exact .inl rfl

end LabProbe.WireGuard
