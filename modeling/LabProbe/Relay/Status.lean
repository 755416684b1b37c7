import LabProbe.Relay.Atomic

/-!
# What the agent reports, and what its rules become

The status holds the rules of one kind, by port. A rule that is stored
replaces the one of its identifier, unless its port is taken or it does not
start. Nothing changes the range of ports.
-/

namespace LabProbe.Relay

open Py Py.Json Check

def version : String := "0.2.28"

def Manager.ofKind (m : Manager) (kind : String) : List Rule :=
  (m.values.filter fun rule => rule.kind == kind).insertionSort fun a b => a.listenPort ≤ b.listenPort

def Manager.statusValue (m : Manager) (kind : String) (now : Nat) (runtime : Rule → Entries) :
    Entries :=
  [("ok", .bool true), ("version", .str version), ("updatedAt", .int now),
   ("portRange", .dict [("min", .int m.portMin), ("max", .int m.portMax)]),
   ("rules", .list ((m.ofKind kind).map fun rule =>
      .dict [("rule", .dict rule.toJson), ("runtime", .dict (runtime rule))]))]

theorem Manager.ofKind_perm (m : Manager) (kind : String) :
    (m.ofKind kind).Perm (m.values.filter fun rule => rule.kind == kind) :=
  List.perm_insertionSort _ _

variable {m : Manager} {s : Surroundings} {rule : Rule} {id : String}

-- ---------------------------------------------------------------------------
-- The range of ports
-- ---------------------------------------------------------------------------

def Manager.ports (m : Manager) : Nat × Nat := (m.portMin, m.portMax)

section
variable (m : Manager) (now : Nat) (rule : Rule) (state error id : String) (mark : Bool) (a : Attempt)

@[simp] theorem Manager.put_ports : (m.put id rule).ports = m.ports := rfl

@[simp] theorem Manager.setCachedState_ports :
    (m.setCachedState now rule state error).ports = m.ports := rfl

@[simp] theorem Manager.stopRuntime_ports : (m.stopRuntime now id mark).ports = m.ports := by
  unfold stopRuntime
  split <;> rfl

@[simp] theorem Manager.markStopped_ports : (m.markStopped now id).ports = m.ports := by
  unfold markStopped
  split <;> rfl

@[simp] theorem Manager.persist_ports (write : Except String Unit) :
    (m.persist write).2.ports = m.ports := by
  cases write <;> rfl

@[simp] theorem Manager.startRule_ports : (m.startRule a id).2.ports = m.ports := by
  unfold startRule
  split
  · rfl
  · split
    · rfl
    · split
      · rfl
      · dsimp only
        split
        · simp
        · exact m.stopRuntime_ports a.now id true

@[simp] theorem Manager.stopRule_ports (write : Except String Unit) :
    (m.stopRule now write id).2.ports = m.ports := by
  unfold stopRule switch
  cases Dict.get? m.rules id with
  | none => rfl
  | some rule =>
    cases write with
    | error e => rfl
    | ok u =>
      simp only [persist, markStopped_ports, stopRuntime_ports]
      rfl

theorem Manager.rollBack_ports (s : Surroundings) (previous : Option Rule) :
    (m.rollBack s id previous error).2.ports = m.ports := by
  cases previous with
  | some old =>
    cases hwrite : s.secondWrite with
    | error e => simp [rollBack, persist, hwrite]
    | ok u =>
      simp only [rollBack, persist, hwrite]
      split
      · exact Manager.startRule_ports _ _ _
      · rfl
  | none => cases hwrite : s.secondWrite <;> simp [rollBack, persist, hwrite, drop, ports]

end

theorem store_ports : (m.store s rule).2.ports = m.ports := by
  cases hwrite : s.firstWrite with
  | error e => rw [store_write_error hwrite, Manager.put_ports]
  | ok u =>
    rw [store_written hwrite]
    split
    · split
      · rename_i started hstart
        exact (congrArg (fun out => out.2.ports) hstart.symm).trans (Manager.startRule_ports _ _ _)
      · rename_i e started hstart
        rw [Manager.rollBack_ports]
        exact (congrArg (fun out => out.2.ports) hstart.symm).trans (Manager.startRule_ports _ _ _)
    · split <;>
      · rename_i hstop
        exact (congrArg (fun out => out.2.ports) hstop.symm).trans (Manager.stopRule_ports _ _ _ _)

theorem accept_ports : (m.accept s rule).2.ports = m.ports := by
  unfold Manager.accept
  split
  · rfl
  · split
    · rfl
    · exact store_ports

theorem handle_delete_ports : (m.handle s (.delete id)).2.ports = m.ports := by
  simp only [Manager.handle, Manager.deleteRule]
  have hstopped := m.stopRuntime_ports s.now id false
  cases s.firstWrite with
  | error e => exact hstopped
  | ok u => exact hstopped

-- ---------------------------------------------------------------------------
-- The rules
-- ---------------------------------------------------------------------------

/-- A rule that passes the checks is stored, whatever is written, unless it
does not start. -/
theorem store_rules (hchecks : m.checks rule = .ok ())
    (hstarts : rule.enabled = true → ¬ s.firstStart.Fails rule) :
    (m.store s rule).2.rules = Dict.set m.rules rule.id rule := by
  cases hwrite : s.firstWrite with
  | error e =>
    rw [store_write_error hwrite]
    rfl
  | ok u =>
    cases henabled : rule.enabled with
    | false => exact (store_disabled hwrite henabled).2.1
    | true =>
      have hanswer := mt (store_enabled hchecks hwrite henabled).1.mp (hstarts henabled)
      rw [store_written hwrite, if_pos henabled] at hanswer ⊢
      have hkept := Manager.startRule_rules
        { m.put rule.id rule with saved := (m.put rule.id rule).toSave } rule.id s.firstStart
      split
      · rename_i started hstart
        rw [hstart] at hkept
        exact hkept
      · rename_i e started hstart
        rw [hstart] at hkept hanswer
        exact absurd (Manager.rollBack_effect s e hkept).1 hanswer

theorem accept_rules (hstarts : rule.enabled = true → ¬ s.firstStart.Fails rule) :
    (m.accept s rule).2.rules =
      if m.checks rule = .ok () then Dict.set m.rules rule.id rule else m.rules := by
  unfold Manager.accept
  cases hchecks : m.checks rule with
  | error e => rfl
  | ok u =>
    rw [if_pos rfl]
    dsimp only
    split
    · rename_i hruns
      simp only [Manager.runsAlready, Bool.and_eq_true, beq_iff_eq] at hruns
      exact (Dict.set_eq_self hruns.1.2).symm
    · exact store_rules hchecks hstarts

theorem handle_delete_rules : (m.handle s (.delete id)).2.rules = Dict.erase m.rules id := by
  simp only [Manager.handle, Manager.deleteRule]
  cases s.firstWrite <;> simp [Manager.persist, Manager.drop]

end LabProbe.Relay
