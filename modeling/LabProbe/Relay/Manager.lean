import LabProbe.Lib.Dict
import LabProbe.Relay.Runtime

/-!
# The rule manager of the agent

The manager keeps the rules by identifier, writes them to the configuration
file after each change, and starts and stops their tasks. Requests that
change rules are handled one at a time. What the file system, the clock and
the network do while a request is handled is an argument.
-/

namespace LabProbe.Relay

open Py Py.Json Check

structure Manager where
  rules : List (String × Rule) := []
  /-- The rules in the configuration file. -/
  saved : List Rule := []
  runtimes : List (String × Runtime) := []
  lastStatus : List (String × Snapshot) := []
  portMin : Nat := 20000
  portMax : Nat := 20020

/-- What starting a rule meets: the clock, whether the target is found, and
whether the listening socket can be bound. -/
structure Attempt where
  now : Nat
  target : Except String Unit
  listen : Except String Unit

/-- What a request meets: the writes of the configuration file and the
attempts to start a rule, at most two of each. -/
structure Surroundings where
  now : Nat
  firstWrite : Except String Unit
  secondWrite : Except String Unit
  firstStart : Attempt
  secondStart : Attempt

-- ---------------------------------------------------------------------------
-- Rules and the configuration file
-- ---------------------------------------------------------------------------

def Manager.values (m : Manager) : List Rule := m.rules.map Prod.snd

def Manager.toSave (m : Manager) : List Rule :=
  m.values.insertionSort fun a b => a.listenPort ≤ b.listenPort

/-- `Manager::load`, of the rules in the file. -/
def Manager.load (config : List Rule) (portMin portMax : Nat) : Manager :=
  { rules := Dict.ofEntries (config.map fun rule => (rule.id, rule))
    saved := config, portMin := portMin, portMax := portMax }

def Manager.persist (m : Manager) (write : Except String Unit) : Except String Unit × Manager :=
  match write with
  | .ok () => (.ok (), { m with saved := m.toSave })
  | .error e => (.error e, m)

def Manager.ensurePortAvailable (m : Manager) (rule : Rule) : Except String Unit :=
  match m.values.find? fun other => rulesConflict other rule with
  | some other =>
    .error ("listen port " ++ toString rule.listenPort ++ " already reserved by " ++ other.name)
  | none => .ok ()

/-- The checks before a rule is stored, and again before it is started. -/
def Manager.checks (m : Manager) (rule : Rule) : Except String Unit := do
  validateRule rule m.portMin m.portMax
  m.ensurePortAvailable rule

-- ---------------------------------------------------------------------------
-- Tasks
-- ---------------------------------------------------------------------------

def Manager.setCachedState (m : Manager) (now : Nat) (rule : Rule) (state error : String) :
    Manager :=
  let snap := (Dict.get? m.lastStatus rule.id).getD (Snapshot.stopped now rule)
  { m with
    lastStatus := Dict.set m.lastStatus rule.id { snap with state := state, lastError := error } }

def Manager.stopRuntime (m : Manager) (now : Nat) (id : String) (markStopped : Bool) : Manager :=
  match Dict.get? m.runtimes id with
  | none => m
  | some runtime =>
    let snap := (runtime.step (now, .cancelled)).base
    let snap := if markStopped && snap.state != "expired" then { snap with state := "stopped" }
      else snap
    { m with
      runtimes := Dict.erase m.runtimes id
      lastStatus := Dict.set m.lastStatus id snap }

/-- The runtime of a rule when its task is spawned. -/
def spawned (rule : Rule) (previous : Option Snapshot) (target : Except String Unit) : Runtime :=
  { rule := rule
    base := ({ state := "starting", publicEndpoint := (previous.map (·.publicEndpoint)).getD "" } :
      Snapshot).withTarget rule (target.mapError fun _ => "target unavailable")
    target := target.toBool }

/-- The answer of a request that has left the rule in a state. -/
def answer (id : String) (more : Entries) : Entries :=
  [("ok", .bool true), ("id", .str id)] ++ more

/-- `start_rule`. A keepalive over TCP binds its port later. -/
def Manager.startRule (m : Manager) (a : Attempt) (id : String) :
    Except String Entries × Manager :=
  match Dict.get? m.rules id with
  | none => (.error "rule not found", m)
  | some rule =>
    match m.checks rule with
    | .error e => (.error e, m)
    | .ok () =>
      if isExpired a.now rule then
        (.error "rule expired", m.setCachedState a.now rule "expired" "rule expired")
      else
        let m := m.stopRuntime a.now id true
        match if taskOf rule = .tcpKeepalive then .ok () else a.listen with
        | .error e => (.error e, m.setCachedState a.now rule "error" e)
        | .ok () =>
          (.ok (answer id [("state", .str "running")]),
            { m with
              runtimes := Dict.set m.runtimes id
                (spawned rule (Dict.get? m.lastStatus id) a.target) })

def Manager.markStopped (m : Manager) (now : Nat) (id : String) : Manager :=
  match Dict.get? m.rules id with
  | none => m
  | some rule =>
    let snap := (Dict.get? m.lastStatus id).getD (Snapshot.stopped now rule)
    { m with lastStatus := Dict.set m.lastStatus id { snap with state := "stopped" } }

/-- The manager with a rule in its map. -/
def Manager.put (m : Manager) (id : String) (rule : Rule) : Manager :=
  { m with rules := Dict.set m.rules id rule }

def Manager.drop (m : Manager) (id : String) : Manager := { m with rules := Dict.erase m.rules id }

@[simp] theorem Manager.put_saved (m : Manager) (id : String) (rule : Rule) :
    (m.put id rule).saved = m.saved := rfl

@[simp] theorem Manager.drop_saved (m : Manager) (id : String) : (m.drop id).saved = m.saved := rfl

section
variable (m : Manager) (now : Nat) (rule : Rule) (state error id : String) (mark : Bool) (a : Attempt)

@[simp] theorem Manager.setCachedState_rules :
    (m.setCachedState now rule state error).rules = m.rules := rfl

@[simp] theorem Manager.setCachedState_saved :
    (m.setCachedState now rule state error).saved = m.saved := rfl

@[simp] theorem Manager.stopRuntime_rules : (m.stopRuntime now id mark).rules = m.rules := by
  unfold stopRuntime
  split <;> rfl

@[simp] theorem Manager.stopRuntime_saved : (m.stopRuntime now id mark).saved = m.saved := by
  unfold stopRuntime
  split <;> rfl

@[simp] theorem Manager.markStopped_rules : (m.markStopped now id).rules = m.rules := by
  unfold markStopped
  split <;> rfl

@[simp] theorem Manager.markStopped_saved : (m.markStopped now id).saved = m.saved := by
  unfold markStopped
  split <;> rfl

theorem Manager.startRule_frame :
    (m.startRule a id).2.rules = m.rules ∧ (m.startRule a id).2.saved = m.saved := by
  unfold startRule
  split
  · exact ⟨rfl, rfl⟩
  · split
    · exact ⟨rfl, rfl⟩
    · split
      · exact ⟨rfl, rfl⟩
      · dsimp only
        split <;> simp

@[simp] theorem Manager.startRule_rules : (m.startRule a id).2.rules = m.rules :=
  (m.startRule_frame id a).1

@[simp] theorem Manager.startRule_saved : (m.startRule a id).2.saved = m.saved :=
  (m.startRule_frame id a).2

end

-- ---------------------------------------------------------------------------
-- Requests
-- ---------------------------------------------------------------------------

def Manager.switch (m : Manager) (id : String) (enabled : Bool) : Except String Manager :=
  match Dict.get? m.rules id with
  | none => .error "rule not found"
  | some rule => .ok (m.put id { rule with enabled := enabled })

def Manager.stopRule (m : Manager) (now : Nat) (write : Except String Unit) (id : String) :
    Except String Entries × Manager :=
  match m.switch id false with
  | .error e => (.error e, m)
  | .ok m =>
    match m.persist write with
    | (.error e, m) => (.error e, m)
    | (.ok (), m) =>
      (.ok (answer id [("state", .str "stopped")]),
        (m.stopRuntime now id true).markStopped now id)

def Manager.enableRule (m : Manager) (s : Surroundings) (id : String) :
    Except String Entries × Manager :=
  match m.switch id true with
  | .error e => (.error e, m)
  | .ok m =>
    match m.persist s.firstWrite with
    | (.error e, m) => (.error e, m)
    | (.ok (), m) => m.startRule s.firstStart id

def Manager.deleteRule (m : Manager) (s : Surroundings) (id : String) :
    Except String Entries × Manager :=
  let m := m.stopRuntime s.now id false
  let removed := (Dict.get? m.rules id).isSome
  match { m.drop id with lastStatus := Dict.erase m.lastStatus id }.persist s.firstWrite with
  | (.error e, m) => (.error e, m)
  | (.ok (), m) => (.ok (answer id [("deleted", .bool removed)]), m)

/-- What `upsert` does when the rule it has stored does not start: it puts
the previous rule back, or removes the new one. -/
def Manager.rollBack (m : Manager) (s : Surroundings) (id : String) (previous : Option Rule)
    (error : String) : Except String Entries × Manager :=
  match previous with
  | some old =>
    match (m.put id old).persist s.secondWrite with
    | (.error e, m) => (.error e, m)
    | (.ok (), m) => (.error error, if old.enabled then (m.startRule s.secondStart id).2 else m)
  | none =>
    match (m.drop id).persist s.secondWrite with
    | (.error e, m) => (.error e, m)
    | (.ok (), m) => (.error error, m)

/-- `upsert` of a rule that is normalised and passes the checks, and does not
run already. -/
def Manager.store (m : Manager) (s : Surroundings) (rule : Rule) :
    Except String Entries × Manager :=
  let previous := Dict.get? m.rules rule.id
  match (m.put rule.id rule).persist s.firstWrite with
  | (.error e, m) => (.error e, m)
  | (.ok (), m) =>
    if rule.enabled then
      match m.startRule s.firstStart rule.id with
      | (.ok _, m) => (.ok (answer rule.id []), m)
      | (.error e, m) => m.rollBack s rule.id previous e
    else
      match m.stopRule s.now s.secondWrite rule.id with
      | (.ok _, m) => (.ok (answer rule.id []), m)
      | (.error e, m) => (.error e, m)

def Manager.runsAlready (m : Manager) (rule : Rule) : Bool :=
  rule.enabled && Dict.get? m.rules rule.id == some rule && (Dict.get? m.runtimes rule.id).isSome

def Manager.accept (m : Manager) (s : Surroundings) (rule : Rule) :
    Except String Entries × Manager :=
  match m.checks rule with
  | .error e => (.error e, m)
  | .ok () =>
    if m.runsAlready rule then
      (.ok (answer rule.id [("state", .str "running"), ("unchanged", .bool true)]), m)
    else m.store s rule

def Manager.upsert (m : Manager) (s : Surroundings) (rule : Rule) :
    Except String Entries × Manager :=
  m.accept s (normalizeRule rule)

/-- A request that changes rules; an upsert whose rule cannot be read fails
with the error of the reader. -/
inductive Command where
  | upsert (rule : Except String Rule)
  | start (id : String)
  | stop (id : String)
  | delete (id : String)

/-- `handle_command_fixed`. -/
def Manager.handle (m : Manager) (s : Surroundings) : Command → Except String Entries × Manager
  | .upsert (.ok rule) => m.upsert s rule
  | .upsert (.error e) => (.error e, m)
  | .start id => m.enableRule s id
  | .stop id => m.stopRule s.now s.firstWrite id
  | .delete id => m.deleteRule s id

theorem Manager.handle_upsert (m : Manager) (s : Surroundings) (given rule : Rule)
    (h : normalizeRule given = rule) : m.handle s (.upsert (.ok given)) = m.accept s rule := by
  subst h
  rfl

-- ---------------------------------------------------------------------------
-- What starting takes
-- ---------------------------------------------------------------------------

/-- A rule that passes the checks does not start: it has expired, or its
socket cannot be bound. -/
def Attempt.Fails (a : Attempt) (rule : Rule) : Prop :=
  isExpired a.now rule = true ∨ (taskOf rule ≠ .tcpKeepalive ∧ a.listen.toBool = false)

variable {m : Manager} {s : Surroundings} {a : Attempt} {rule : Rule} {id : String}

theorem rulesConflict_comm (a b : Rule) : rulesConflict a b = rulesConflict b a := by
  unfold rulesConflict eqIgnoreAsciiCase
  rw [Bool.eq_iff_iff]
  simp only [Bool.and_eq_true, bne_iff_ne, beq_iff_eq]
  constructor <;> rintro ⟨⟨hid, hport⟩, hprotocol⟩ <;>
    exact ⟨⟨hid.symm, hport.symm⟩, hprotocol.symm⟩

theorem rulesConflict_self (rule : Rule) : rulesConflict rule rule = false := by
  simp [rulesConflict]

theorem Manager.ensurePortAvailable_eq_ok :
    m.ensurePortAvailable rule = .ok () ↔ ∀ other ∈ m.values, rulesConflict other rule = false := by
  unfold Manager.ensurePortAvailable
  cases hfind : m.values.find? fun other => rulesConflict other rule with
  | none => simpa using hfind
  | some other =>
    have hconflict := List.find?_some hfind
    have hmem := List.mem_of_find?_eq_some hfind
    simp only [reduceCtorEq, false_iff]
    exact fun hall => by simp [hall other hmem] at hconflict

theorem Manager.mem_put {e : String × Rule} (h : e ∈ (m.put id rule).rules) :
    e = (id, rule) ∨ e ∈ m.rules := Dict.mem_set h

theorem Manager.checks_put (h : m.checks rule = .ok ()) : (m.put id rule).checks rule = .ok () := by
  simp only [Manager.checks, bind_eq_ok, Manager.ensurePortAvailable_eq_ok] at h ⊢
  obtain ⟨u, hvalid, hfree⟩ := h
  refine ⟨u, hvalid, fun other ho => ?_⟩
  obtain ⟨e, he, rfl⟩ := List.mem_map.mp ho
  rcases Manager.mem_put he with rfl | he
  · exact rulesConflict_self rule
  · exact hfree e.2 (List.mem_map_of_mem he)

/-- A stored rule starts exactly when it passes the checks and the attempt
does not fail. -/
theorem Manager.startRule_toBool_eq_false (h : Dict.get? m.rules id = some rule) :
    (m.startRule a id).1.toBool = false ↔ m.checks rule ≠ .ok () ∨ a.Fails rule := by
  unfold Manager.startRule Attempt.Fails
  rw [h]
  dsimp only
  cases hchecks : m.checks rule with
  | error e => simp [Except.toBool]
  | ok u =>
    cases hexpired : isExpired a.now rule with
    | true => simp [Except.toBool]
    | false =>
      by_cases hkeepalive : taskOf rule = .tcpKeepalive
      · simp [hkeepalive, Except.toBool]
      · cases hlisten : a.listen <;> simp [hkeepalive, Except.toBool]

-- ---------------------------------------------------------------------------
-- What a request leaves
-- ---------------------------------------------------------------------------

@[simp] theorem Manager.persist_rules (w : Except String Unit) :
    (m.persist w).2.rules = m.rules := by
  cases w <;> rfl

theorem Manager.toSave_perm (m : Manager) : m.toSave.Perm m.values := List.perm_insertionSort _ _

theorem Manager.toSave_congr {m' : Manager} (h : m'.rules = m.rules) : m'.toSave = m.toSave := by
  rw [Manager.toSave, Manager.toSave, Manager.values, Manager.values, h]

/-- Whatever fails, rolling back answers with an error and puts the rules
back; the configuration file follows where it can be written. -/
theorem Manager.rollBack_effect {stored : Manager} (s : Surroundings) (error : String)
    (h : stored.rules = Dict.set m.rules id rule) :
    (stored.rollBack s id (Dict.get? m.rules id) error).1.toBool = false ∧
      (stored.rollBack s id (Dict.get? m.rules id) error).2.rules = m.rules ∧
      (stored.rollBack s id (Dict.get? m.rules id) error).2.saved =
        if s.secondWrite.toBool then m.toSave else stored.saved := by
  cases hprevious : Dict.get? m.rules id with
  | some old =>
    have hback : (stored.put id old).rules = m.rules := by
      rw [Manager.put, h, Dict.set_set, Dict.set_eq_self hprevious]
    have hsaved := Manager.toSave_congr hback
    cases hwrite : s.secondWrite with
    | error e => simp [Manager.rollBack, Manager.persist, hwrite, hback, Except.toBool]
    | ok u =>
      simp only [Manager.rollBack, Manager.persist, hwrite]
      split <;> simp [hback, hsaved, Except.toBool]
  | none =>
    have hback : (stored.drop id).rules = m.rules := by
      rw [Manager.drop, h, Dict.erase_set _ (Dict.get?_eq_none.mp hprevious)]
    have hsaved := Manager.toSave_congr hback
    cases hwrite : s.secondWrite with
    | error e => simp [Manager.rollBack, Manager.persist, hwrite, hback, Except.toBool]
    | ok u => simp [Manager.rollBack, Manager.persist, hwrite, hback, hsaved, Except.toBool]

theorem Manager.stopRule_put (now : Nat) (w : Except String Unit) (stored : Manager)
    (h : rule.enabled = false) (hstored : stored.rules = Dict.set m.rules id rule) :
    (stored.stopRule now w id).1.toBool = w.toBool ∧
      (stored.stopRule now w id).2.rules = stored.rules ∧
      (stored.stopRule now w id).2.saved = if w.toBool then stored.toSave else stored.saved := by
  have hget : Dict.get? stored.rules id = some rule := by simp [hstored]
  have hsame : ({ rule with enabled := false } : Rule) = rule := by rw [← h]
  have hput : (stored.put id rule).rules = stored.rules := Dict.set_eq_self hget
  have hsaved := Manager.toSave_congr hput
  cases w <;>
    simp [Manager.stopRule, Manager.switch, Manager.persist, hget, hsame, hput, hsaved,
      Except.toBool]

end LabProbe.Relay
