import LabProbe.Lib.Run
import LabProbe.WireGuard.Protocol

/-!
# The Hub and the agent together

What a poll answers reaches the agent or is lost; the agent handles what it
has received one command at a time; any selection of its acknowledgements
reaches the Hub, at any later time, again, or never. The agent's state is
saved now and then, and a restart goes back to what was saved.

`executions` and `restarts` record what the agent executed and what its
restarts lost.
-/

namespace LabProbe.WireGuard

open Py

/-- An execution of a server command: its revision at the Hub, the agent's
revision before it, and its success. -/
structure Execution where
  revision : Nat
  agentRevision : Nat
  ok : Bool

/-- A restart: the revision that was saved and the one in memory. -/
structure Restart where
  saved : Nat
  memory : Nat

structure System where
  document : Document := {}
  commands : List Command := []
  agent : Agent := {}
  saved : Agent := {}
  inbox : List Delivery := []
  acks : List Ack := []
  executions : List Execution := []
  restarts : List Restart := []

inductive Event where
  | put (id router : String) (expected : Option Int) (server : Server)
  | delete (id router : String) (expected : Option Int)
  | update (id router profileId source owner endpoint : String) (expected : Option Int)
  | status (id router : String) (revision : Int)
  | poll (now : Int) (router : String) (limit : Int) (lost : Bool)
  | handle (works : Bool)
  | ack (acks : List Ack)
  | persist
  | restart

def System.sendable (s : System) (acks : List Ack) : List Ack :=
  acks.filter fun ack => s.acks.contains ack

/-- A command queued for the server, from a document it may have changed. -/
def System.order (s : System) (id router : String) (action : Action) (document : Document) :
    System :=
  { s with document := document
           commands := queue id router action document.revision .server s.commands }

/-- The agent takes the next command it has received. -/
def System.handle (s : System) (works : Bool) : System :=
  match s.inbox with
  | [] => s
  | c :: inbox =>
    let (agent, ok) := s.agent.handle c works
    { s with agent := agent
             inbox := inbox
             acks := s.acks ++ [⟨c.id, ok⟩]
             executions := if s.agent.executes c
               then s.executions ++ [⟨c.revision, s.agent.revision, ok⟩] else s.executions }

section
variable [Unicode]

def System.step (s : System) : Event → System
  | .put id router expected server =>
    match put s.document expected server with
    | .ok document => s.order id router (.apply server) document
    | .error _ => s
  | .delete id router expected =>
    match delete s.document expected with
    | .ok document => s.order id router (.delete (document.tombstone.getD "")) document
    | .error _ => s
  | .update id router profileId source owner endpoint expected =>
    match updateEndpoint s.document profileId source owner endpoint expected with
    | .ok (document, update) =>
      { s with document := document
               commands := queue id router (.endpoint update) update.endpointRevision
                 (.endpoint profileId) s.commands }
    | .error _ => s
  | .status id router revision =>
    match statusAction s.document revision with
    | some action => s.order id router action s.document
    | none => s
  | .poll now router limit lost =>
    let (sent, commands) := agentCommands now router limit s.commands
    { s with commands := commands
             inbox := if lost then s.inbox else s.inbox ++ sent.map Command.delivery }
  | .handle works => s.handle works
  | .ack acks => { s with commands := agentAck (s.sendable acks) s.commands }
  | .persist => { s with saved := s.agent }
  | .restart =>
    { s with agent := s.saved
             inbox := []
             restarts := s.restarts ++ [⟨s.saved.revision, s.agent.revision⟩] }

end

end LabProbe.WireGuard
