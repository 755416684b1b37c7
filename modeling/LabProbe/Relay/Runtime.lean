import LabProbe.Relay.Rule

/-!
# Runtimes of the agent

A rule that is started runs in a task of its own: a listener, or a keepalive
of the STUN mapping where the router forwards. The task shares the state the
status shows with the connections it has accepted, which outlive it.

One event is one pass of a `select!` loop, with what the network answered.
-/

namespace LabProbe.Relay

-- ---------------------------------------------------------------------------
-- The state that is shown
-- ---------------------------------------------------------------------------

structure Snapshot where
  state : String
  lastError : String := ""
  publicEndpoint : String := ""
  deriving DecidableEq

/-- `RuntimeSnapshot::stopped`. -/
def Snapshot.stopped (now : Nat) (rule : Rule) : Snapshot :=
  { state := if isExpired now rule then "expired" else "stopped" }

/-- `update_target_status`. -/
def Snapshot.withTarget (s : Snapshot) (rule : Rule) : Except String Unit → Snapshot
  | .ok () =>
    { s with state := if rule.kind = "stun" then "mapping" else "running", lastError := "" }
  | .error e => { s with state := "waiting_target", lastError := e }

/-- `mark_stun_mapping`. -/
def Snapshot.mapped (s : Snapshot) (endpoint : String) : Snapshot :=
  { s with state := "mapped", publicEndpoint := endpoint, lastError := "" }

/-- A keepalive that failed keeps the mapping that was found before. -/
def Snapshot.unmapped (s : Snapshot) (error : String) : Snapshot :=
  { s with state := if s.publicEndpoint = "" then "mapping" else s.state, lastError := error }

def reportedState (now : Nat) (rule : Rule) (s : Snapshot) : String :=
  if isExpired now rule && s.state != "running" then "expired" else s.state

-- ---------------------------------------------------------------------------
-- Runtimes
-- ---------------------------------------------------------------------------

inductive Task where
  | tcpKeepalive | tcpListener | udpKeepalive | udpListener
  deriving DecidableEq, Repr

def isNative (rule : Rule) : Bool := rule.kind == "stun" && rule.forwardMode == "router_native"

/-- Whether a listener keeps the mapping alive itself. -/
def isRelayed (rule : Rule) : Bool := rule.kind == "stun" && rule.forwardMode == "relay_proxy"

def taskOf (rule : Rule) : Task :=
  if rule.transportProtocol = "TCP" then if isNative rule then .tcpKeepalive else .tcpListener
  else if isNative rule then .udpKeepalive else .udpListener

/-- A rule, the shared state, whether the target is resolved, the accepted
connections that have not reached it yet, and whether the task is over. -/
structure Runtime where
  rule : Rule
  base : Snapshot
  target : Bool
  connecting : Nat := 0
  ended : Bool := false
  deriving DecidableEq

inductive Occurrence where
  | cancelled
  | resolveTick (target : Except String Unit)
  | tcpStunTick (reply : Except String String)
  /-- The outcome of resolving the STUN server, and then of sending to it. -/
  | udpStunTick (server : Except String (Except String Unit))
  | stunReply (reply : Except String String)
  | receiveFailed (error : String)
  | accepted (permit : Bool)
  | acceptFailed (error : String)
  /-- A datagram of a client, with what forwarding it ends in. -/
  | datagram (sent : Except String Unit)
  | connected
  | connectFailed (error : String)
  | connectionFailed (error : String)

def Runtime.fail (r : Runtime) (error : String) : Runtime :=
  { r with base := { r.base with lastError := error } }

/-- The end of a task that is not a TCP keepalive. -/
def Runtime.finish (r : Runtime) : Runtime :=
  { r with
    base := { r.base with state := if r.base.state = "expired" then "expired" else "stopped" }
    ended := true }

def Runtime.expire (r : Runtime) : Runtime :=
  { r with base := { r.base with state := "expired", lastError := "rule expired" } }.finish

def Runtime.resolve (now : Nat) (r : Runtime) (target : Except String Unit) : Runtime :=
  if isExpired now r.rule then r.expire
  else if r.rule.mode = "6to6" ∧ r.rule.targetMode = "ipv6_suffix" then
    { r with base := r.base.withTarget r.rule target, target := target.toBool }
  else r

def Runtime.unresolved (r : Runtime) : Runtime :=
  { r with base := { r.base with state := "waiting_target", lastError := "target IPv6 not resolved" } }

def Runtime.keepalive (r : Runtime) : Except String String → Runtime
  | .ok endpoint => { r with base := r.base.mapped endpoint }
  | .error e => { r with base := r.base.unmapped e }

/-- A request to the STUN server over UDP; the answer comes as a datagram. -/
def Runtime.udpStun (r : Runtime) : Except String (Except String Unit) → Runtime
  | .ok (.ok ()) => r
  | .ok (.error e) => r.fail ("STUN UDP send failed: " ++ e)
  | .error e => { r with base := r.base.unmapped e }

def Runtime.stunDatagram (r : Runtime) : Except String String → Runtime
  | .ok endpoint => { r with base := r.base.mapped endpoint }
  | .error e => r.fail e

/-- A target that was reached. -/
def Runtime.reached (r : Runtime) : Runtime :=
  { r with
    base := { r.base with
      state := if r.rule.kind = "stun" then r.base.state else "running"
      lastError := "" } }

-- ---------------------------------------------------------------------------
-- The loops
-- ---------------------------------------------------------------------------

/-- `run_tcp_stun_keepalive`. -/
def Runtime.tcpKeepaliveStep (r : Runtime) : Occurrence → Runtime
  | .cancelled => { r with ended := true }
  | .tcpStunTick reply => r.keepalive reply
  | _ => r

def Runtime.tcpListenerStep (now : Nat) (r : Runtime) : Occurrence → Runtime
  | .cancelled => r.finish
  | .resolveTick target => r.resolve now target
  | .tcpStunTick reply => if isRelayed r.rule then r.keepalive reply else r
  | .accepted permit =>
    if !r.target then r.unresolved
    else if permit then { r with connecting := r.connecting + 1 }
    else r.fail "maximum connections reached"
  | .acceptFailed e => r.fail ("accept failed: " ++ e)
  | _ => r

/-- `run_udp_stun_keepalive`. -/
def Runtime.udpKeepaliveStep (r : Runtime) : Occurrence → Runtime
  | .cancelled => r.finish
  | .udpStunTick server => r.udpStun server
  | .stunReply reply => r.stunDatagram reply
  | .receiveFailed e => r.fail ("STUN UDP receive failed: " ++ e)
  | _ => r

/-- `run_udp_listener`. -/
def Runtime.udpListenerStep (now : Nat) (r : Runtime) : Occurrence → Runtime
  | .cancelled => r.finish
  | .resolveTick target => r.resolve now target
  | .udpStunTick server => if isRelayed r.rule then r.udpStun server else r
  | .stunReply reply => if isRelayed r.rule then r.stunDatagram reply else r
  | .receiveFailed e => r.fail ("UDP receive failed: " ++ e)
  | .datagram sent =>
    if !r.target then r.unresolved
    else match sent with
      | .ok () => r.reached
      | .error e => r.fail e
  | _ => r

def Runtime.loopStep (now : Nat) (r : Runtime) (e : Occurrence) : Runtime :=
  match taskOf r.rule with
  | .tcpKeepalive => r.tcpKeepaliveStep e
  | .tcpListener => r.tcpListenerStep now e
  | .udpKeepalive => r.udpKeepaliveStep e
  | .udpListener => r.udpListenerStep now e

/-- `proxy_connection` of an accepted connection, which its task does not
wait for. -/
def Runtime.connectionStep (r : Runtime) : Occurrence → Runtime
  | .connected => if r.connecting = 0 then r else { r.reached with connecting := r.connecting - 1 }
  | .connectFailed e =>
    if r.connecting = 0 then r else { r.fail e with connecting := r.connecting - 1 }
  | .connectionFailed e => r.fail e
  | _ => r

def Occurrence.ofConnection : Occurrence → Bool
  | .connected | .connectFailed _ | .connectionFailed _ => true
  | _ => false

def Runtime.step (r : Runtime) (e : Nat × Occurrence) : Runtime :=
  if e.2.ofConnection then r.connectionStep e.2
  else if r.ended then r
  else r.loopStep e.1 e.2

end LabProbe.Relay
