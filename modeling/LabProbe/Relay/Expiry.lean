import LabProbe.Lib.Run
import LabProbe.Relay.Conflicts

/-!
# Expired rules

The listeners look at the expiry when they resolve their target; the
keepalives of a STUN mapping never do. A connection that a listener has
accepted calls the rule running once it has reached its target, also after
the listener has ended. An upsert of a rule that is stored as it is answers
that it runs when the rule has a runtime, whether that has ended or not.
-/

namespace LabProbe.Relay

open Py Py.Json Runs

-- ---------------------------------------------------------------------------
-- The property and the condition
-- ---------------------------------------------------------------------------

def IsTick (rule : Rule) : Occurrence → Prop
  | .resolveTick _ => taskOf rule = .tcpListener ∨ taskOf rule = .udpListener
  | .tcpStunTick _ =>
    taskOf rule = .tcpKeepalive ∨ (taskOf rule = .tcpListener ∧ isRelayed rule = true)
  | .udpStunTick _ =>
    taskOf rule = .udpKeepalive ∨ (taskOf rule = .udpListener ∧ isRelayed rule = true)
  | _ => False

/-- The task ends on the tick, and whatever happens afterwards the rule is
never shown as running. -/
def StopsAt (now : Nat) (r : Runtime) (tick : Occurrence) : Prop :=
  (r.step (now, tick)).ended = true ∧ ∀ (later : List (Nat × Occurrence)) (time : Nat),
    reportedState time r.rule (run Runtime.step (r.step (now, tick)) later).base ≠ "running"

/-- A task whose rule has expired at a tick stops at it. -/
def TickStops (now : Nat) (r : Runtime) (tick : Occurrence) : Prop :=
  IsTick r.rule tick → r.ended = false → isExpired now r.rule = true → StopsAt now r tick

/-- The tick is the one that looks at the expiry, and no accepted connection
is still on its way to a target that would be shown as running. -/
def TickChecks (now : Nat) (r : Runtime) (tick : Occurrence) : Prop :=
  IsTick r.rule tick → r.ended = false → isExpired now r.rule = true →
    (∃ target, tick = .resolveTick target) ∧ (r.connecting = 0 ∨ r.rule.kind = "stun")

/-- An upsert of an expired rule does not answer that the rule is running. -/
def UpsertStops (m : Manager) (s : Surroundings) (given : Rule) : Prop :=
  isExpired s.now (normalizeRule given) = true →
    ∀ reply, (m.handle s (.upsert (.ok given))).1 = .ok reply → get reply "state" ≠ .str "running"

/-- The expired rule is refused, or not stored enabled with a runtime. -/
def UpsertChecks (m : Manager) (s : Surroundings) (given : Rule) : Prop :=
  isExpired s.now (normalizeRule given) = true →
    m.checks (normalizeRule given) = .ok () → m.runsAlready (normalizeRule given) = false

-- ---------------------------------------------------------------------------
-- Ticks
-- ---------------------------------------------------------------------------

variable {now time : Nat} {r : Runtime} {tick : Occurrence} {rule : Rule} {s : Snapshot}

theorem reportedState_eq_running : reportedState time rule s = "running" ↔ s.state = "running" := by
  unfold reportedState
  cases isExpired time rule with
  | false => simp
  | true => by_cases hs : s.state = "running" <;> simp [hs]

/-- An ended task that was shown as expired stays so, unless an accepted
connection may still call the rule running. -/
structure Stopped (r : Runtime) : Prop where
  ended : r.ended = true
  state : r.base.state = "expired"
  quiet : r.connecting = 0 ∨ r.rule.kind = "stun"

theorem stopped_step (h : Stopped r) (e : Nat × Occurrence) : Stopped (r.step e) := by
  obtain ⟨hended, hstate, hquiet⟩ := h
  obtain ⟨now, e⟩ := e
  unfold Runtime.step
  cases e with
  | connected =>
    simp only [Occurrence.ofConnection, if_true, Runtime.connectionStep]
    split
    · exact ⟨hended, hstate, hquiet⟩
    · rename_i hconnecting
      have hkind := hquiet.resolve_left hconnecting
      exact ⟨hended, by simpa [Runtime.reached, hkind] using hstate, .inr hkind⟩
  | connectFailed e =>
    simp only [Occurrence.ofConnection, if_true, Runtime.connectionStep]
    split
    · exact ⟨hended, hstate, hquiet⟩
    · rename_i hconnecting
      exact ⟨hended, hstate, .inr (hquiet.resolve_left hconnecting)⟩
  | connectionFailed e => exact ⟨hended, hstate, hquiet⟩
  | _ => simpa [Occurrence.ofConnection, hended] using ⟨hended, hstate, hquiet⟩

theorem step_resolveTick (target : Except String Unit)
    (htask : taskOf r.rule = .tcpListener ∨ taskOf r.rule = .udpListener)
    (hrunning : r.ended = false) (hexpired : isExpired now r.rule = true) :
    r.step (now, .resolveTick target) = r.expire := by
  have hloop : r.loopStep now (.resolveTick target) = r.resolve now target := by
    rcases htask with h | h <;> rw [Runtime.loopStep, h] <;> rfl
  simp [Runtime.step, Occurrence.ofConnection, hrunning, hloop, Runtime.resolve, hexpired]

theorem step_stunTick (htick : IsTick r.rule tick) (hrunning : r.ended = false)
    (hother : ∀ target, tick ≠ .resolveTick target) : (r.step (now, tick)).ended = false := by
  have hkeepalive : ∀ reply, (r.keepalive reply).ended = false := fun reply => by
    cases reply <;> exact hrunning
  have hudp : ∀ server, (r.udpStun server).ended = false := fun server => by
    rcases server with e | (e | u) <;> exact hrunning
  cases tick with
  | tcpStunTick reply =>
    simp only [Runtime.step, Occurrence.ofConnection, hrunning, Bool.false_eq_true, if_false]
    rcases htick with htask | ⟨htask, hrelayed⟩
    · rw [Runtime.loopStep, htask]
      exact hkeepalive reply
    · rw [Runtime.loopStep, htask]
      simpa [Runtime.tcpListenerStep, hrelayed] using hkeepalive reply
  | udpStunTick server =>
    simp only [Runtime.step, Occurrence.ofConnection, hrunning, Bool.false_eq_true, if_false]
    rcases htick with htask | ⟨htask, hrelayed⟩
    · rw [Runtime.loopStep, htask]
      exact hudp server
    · rw [Runtime.loopStep, htask]
      simpa [Runtime.udpListenerStep, hrelayed] using hudp server
  | resolveTick target => exact absurd rfl (hother target)
  | _ => exact htick.elim

theorem tickStops_iff (now : Nat) (r : Runtime) (tick : Occurrence) :
    TickStops now r tick ↔ TickChecks now r tick := by
  refine forall₃_congr fun htick hrunning hexpired => ?_
  by_cases hresolve : ∃ target, tick = .resolveTick target
  · obtain ⟨target, rfl⟩ := hresolve
    have hstep : r.step (now, .resolveTick target) = r.expire :=
      step_resolveTick target htick hrunning hexpired
    rw [StopsAt, hstep]
    constructor
    · rintro ⟨-, hnever⟩
      refine ⟨⟨target, rfl⟩, ?_⟩
      by_contra hopen
      obtain ⟨hconnecting, hkind⟩ := not_or.mp hopen
      -- the connection reaches its target after the listener has ended
      refine hnever [(now, .connected)] now (reportedState_eq_running.mpr ?_)
      simp [Runtime.step, Occurrence.ofConnection, Runtime.connectionStep, Runtime.expire,
        Runtime.finish, Runtime.reached, hconnecting, hkind]
    · rintro ⟨-, hquiet⟩
      have hstopped : Stopped r.expire := ⟨rfl, by simp [Runtime.expire, Runtime.finish], hquiet⟩
      refine ⟨rfl, fun later time hshown => ?_⟩
      have hend : Stopped (run Runtime.step r.expire later) :=
        run_invariant hstopped fun _ e h => stopped_step h e
      rw [reportedState_eq_running, hend.state] at hshown
      exact absurd hshown (by decide)
  · refine iff_of_false (fun hstops => ?_) fun hchecks => hresolve hchecks.1
    have hgoes : (r.step (now, tick)).ended = false :=
      step_stunTick htick hrunning fun target h => hresolve ⟨target, h⟩
    rw [StopsAt, hgoes] at hstops
    cases hstops.1

-- ---------------------------------------------------------------------------
-- Upserts
-- ---------------------------------------------------------------------------

variable {m : Manager} {w : Surroundings}

theorem store_reply {reply : Entries} (h : (m.store w rule).1 = .ok reply) :
    reply = answer rule.id [] := by
  unfold Manager.store at h
  cases hwrite : w.firstWrite with
  | error e =>
    rw [hwrite] at h
    cases h
  | ok u =>
    rw [hwrite] at h
    simp only [Manager.persist] at h
    split at h
    · split at h
      · cases h
        rfl
      · rename_i e started _
        exfalso
        have hfails : ∀ previous, (started.rollBack w rule.id previous e).1.toBool = false := by
          intro previous
          unfold Manager.rollBack
          cases previous <;> cases w.secondWrite <;> rfl
        have hno := hfails (Dict.get? m.rules rule.id)
        rw [h] at hno
        cases hno
    · split at h
      · cases h
        rfl
      · cases h

theorem upsertStops_iff (m : Manager) (w : Surroundings) (given : Rule) :
    UpsertStops m w given ↔ UpsertChecks m w given := by
  refine forall_congr' fun _ => ?_
  generalize hrule : normalizeRule given = rule
  rw [m.handle_upsert w given rule hrule, Manager.accept]
  cases hchecks : m.checks rule with
  | error e => simp
  | ok u =>
    cases hruns : m.runsAlready rule with
    | true =>
      simp only [if_true, Except.ok.injEq, forall_eq', true_imp_iff, reduceCtorEq, iff_false,
        not_not]
      rfl
    | false =>
      simp only [Bool.false_eq_true, if_false, true_imp_iff, iff_true]
      intro reply hreply
      rw [store_reply hreply]
      exact fun h => by cases h

/-- A rule that has expired is stopped exactly at the ticks, and refused by
exactly the upserts, that look at its expiry. -/
theorem expiry_iff (now : Nat) (r : Runtime) (tick : Occurrence) (m : Manager) (w : Surroundings)
    (given : Rule) :
    (TickStops now r tick ↔ TickChecks now r tick) ∧
      (UpsertStops m w given ↔ UpsertChecks m w given) :=
  ⟨tickStops_iff now r tick, upsertStops_iff m w given⟩

/-- A mapping that was made to last until 100. -/
def mappedRule : Rule :=
  { kind := "stun", id := "nas", name := "nas", enabled := true, mode := "stun", listenPort := 20000
    targetIpv4 := "192.168.1.2", targetPort := 80, forwardMode := "router_native"
    expiresAt := some 100 }

/-- The keepalive goes on after the rule has expired. -/
theorem keepalive_goes_on :
    ¬ TickStops 120 (spawned mappedRule none (.ok ())) (.tcpStunTick (.ok "1.2.3.4:20000")) := by
  intro h
  have hstops := (h (.inl (by decide)) rfl (by decide)).1
  revert hstops
  decide

end LabProbe.Relay
