import LabProbe.Relay.Conflicts

/-!
# Requests that fail

An upsert whose rule does not start puts the previous rule back. Nothing is
put back where the configuration file cannot be written, nor where a rule
that was switched on does not start. A request that fails leaves the rules
and the file as they were exactly where there was nothing to put back.
-/

namespace LabProbe.Relay

open Py Py.Json Check

def Unchanged (m m' : Manager) : Prop := m'.rules = m.rules ∧ m'.saved.Perm m.saved

def Manager.InSync (m : Manager) : Prop := m.saved.Perm m.values

/-- A request that is answered with an error changes nothing. -/
def Atomic (m : Manager) (s : Surroundings) (c : Command) : Prop :=
  (m.handle s c).1.toBool = false → Unchanged m (m.handle s c).2

-- ---------------------------------------------------------------------------
-- The condition
-- ---------------------------------------------------------------------------

/-- What storing a checked rule leaves to be put back: nothing if the first
write fails on a rule that was there already; the file, if starting fails,
when it was in step with the memory before, or already held the new rule;
nothing if the second write fails on a rule that was there, off. -/
def StoreUndoes (m : Manager) (s : Surroundings) (rule : Rule) : Prop :=
  (s.firstWrite.toBool = false → Dict.get? m.rules rule.id = some rule) ∧
    (s.firstWrite.toBool = true → rule.enabled = true → s.firstStart.Fails rule →
      (s.secondWrite.toBool = true → m.InSync) ∧
        (s.secondWrite.toBool = false → m.saved.Perm (m.put rule.id rule).values)) ∧
    (s.firstWrite.toBool = true → rule.enabled = false → s.secondWrite.toBool = false →
      Dict.get? m.rules rule.id = some rule ∧ m.InSync)

def Undoes (m : Manager) (s : Surroundings) : Command → Prop
  | .upsert (.ok given) => m.checks (normalizeRule given) = .ok () →
      m.runsAlready (normalizeRule given) = false → StoreUndoes m s (normalizeRule given)
  | .upsert (.error _) => True
  | .start id => ∀ rule, Dict.get? m.rules id = some rule →
      (s.firstWrite.toBool = false → rule.enabled = true) ∧
        (s.firstWrite.toBool = true →
          (m.put id { rule with enabled := true }).checks { rule with enabled := true } ≠ .ok () ∨
            s.firstStart.Fails { rule with enabled := true } → rule.enabled = true ∧ m.InSync)
  | .stop id => ∀ rule, Dict.get? m.rules id = some rule →
      s.firstWrite.toBool = false → rule.enabled = false
  | .delete id => s.firstWrite.toBool = false → Dict.get? m.rules id = none

-- ---------------------------------------------------------------------------
-- Storing a rule
-- ---------------------------------------------------------------------------

variable {m m' : Manager} {s : Surroundings} {rule : Rule} {id : String}

theorem put_rules_iff : (m.put id rule).rules = m.rules ↔ Dict.get? m.rules id = some rule :=
  Dict.set_eq_self_iff

theorem inSync_iff : m.toSave.Perm m.saved ↔ m.InSync :=
  ⟨fun h => h.symm.trans m.toSave_perm, fun h => m.toSave_perm.trans h.symm⟩

theorem store_write_error {e : String} (h : s.firstWrite = .error e) :
    m.store s rule = (.error e, m.put rule.id rule) := by
  rw [Manager.store, h]
  rfl

theorem store_written (h : s.firstWrite = .ok ()) :
    m.store s rule =
      if rule.enabled then
        match ({ m.put rule.id rule with saved := (m.put rule.id rule).toSave } :
            Manager).startRule s.firstStart rule.id with
        | (.ok _, m) => (.ok (answer rule.id []), m)
        | (.error e, started) => started.rollBack s rule.id (Dict.get? m.rules rule.id) e
      else
        match ({ m.put rule.id rule with saved := (m.put rule.id rule).toSave } :
            Manager).stopRule s.now s.secondWrite rule.id with
        | (.ok _, m) => (.ok (answer rule.id []), m)
        | (.error e, m) => (.error e, m) := by
  rw [Manager.store, h]
  rfl

theorem store_enabled (hchecks : m.checks rule = .ok ()) (hwrite : s.firstWrite = .ok ())
    (henabled : rule.enabled = true) :
    ((m.store s rule).1.toBool = false ↔ s.firstStart.Fails rule) ∧
      (s.firstStart.Fails rule → (m.store s rule).2.rules = m.rules ∧
        (m.store s rule).2.saved =
          if s.secondWrite.toBool then m.toSave else (m.put rule.id rule).toSave) := by
  rw [store_written hwrite, if_pos henabled]
  have hget : Dict.get? (m.put rule.id rule).rules rule.id = some rule := by simp [Manager.put]
  generalize hstored : ({ m.put rule.id rule with saved := (m.put rule.id rule).toSave } :
    Manager) = stored
  have hrules : stored.rules = Dict.set m.rules rule.id rule := by rw [← hstored]; rfl
  have hfails : (stored.startRule s.firstStart rule.id).1.toBool = false ↔
      s.firstStart.Fails rule := by
    have hpass : stored.checks rule = .ok () := by
      rw [← hstored]
      exact Manager.checks_put hchecks
    rw [Manager.startRule_toBool_eq_false (by rw [← hstored]; exact hget)]
    simp [hpass]
  have hkept := stored.startRule_rules rule.id s.firstStart
  have hsaved := stored.startRule_saved rule.id s.firstStart
  cases hstart : stored.startRule s.firstStart rule.id with
  | mk result started =>
    rw [hstart] at hfails hkept hsaved
    cases result with
    | ok more =>
      have hruns : ¬ s.firstStart.Fails rule := fun hf => by cases hfails.mpr hf
      exact ⟨iff_of_false (by simp [Except.toBool]) hruns, fun hf => absurd hf hruns⟩
    | error e =>
      obtain ⟨hanswer, hback, hfile⟩ := Manager.rollBack_effect s e (hkept.trans hrules)
      refine ⟨iff_of_true hanswer (hfails.mp rfl), fun _ => ⟨hback, ?_⟩⟩
      rw [hfile, hsaved, ← hstored]

theorem store_disabled (hwrite : s.firstWrite = .ok ()) (hdisabled : rule.enabled = false) :
    (m.store s rule).1.toBool = s.secondWrite.toBool ∧
      (m.store s rule).2.rules = (m.put rule.id rule).rules ∧
      (m.store s rule).2.saved = (m.put rule.id rule).toSave := by
  rw [store_written hwrite, if_neg (by simp [hdisabled])]
  generalize hstored : ({ m.put rule.id rule with saved := (m.put rule.id rule).toSave } :
    Manager) = stored
  have hrules : stored.rules = (m.put rule.id rule).rules := by rw [← hstored]
  have hsaved : stored.saved = (m.put rule.id rule).toSave := by rw [← hstored]
  obtain ⟨hanswer, hkept, hfile⟩ := Manager.stopRule_put (m := m) s.now s.secondWrite
    stored hdisabled hrules
  have hfile' : (stored.stopRule s.now s.secondWrite rule.id).2.saved =
      (m.put rule.id rule).toSave := by
    rw [hfile, Manager.toSave_congr hrules, hsaved, ite_self]
  cases hstop : stored.stopRule s.now s.secondWrite rule.id with
  | mk result stopped =>
    rw [hstop] at hanswer hkept hfile'
    cases result with
    | ok more => exact ⟨hanswer, hkept.trans hrules, hfile'⟩
    | error e => exact ⟨hanswer, hkept.trans hrules, hfile'⟩

theorem store_atomic_iff (hchecks : m.checks rule = .ok ()) :
    ((m.store s rule).1.toBool = false → Unchanged m (m.store s rule).2) ↔ StoreUndoes m s rule := by
  have hput : (m.put rule.id rule).rules = m.rules → (m.put rule.id rule).toSave = m.toSave :=
    Manager.toSave_congr
  cases hwrite : s.firstWrite with
  | error e =>
    rw [store_write_error hwrite, Unchanged, put_rules_iff]
    simp [StoreUndoes, hwrite, Except.toBool]
  | ok u =>
    cases henabled : rule.enabled with
    | true =>
      obtain ⟨hfails, hback⟩ := store_enabled hchecks hwrite henabled
      rw [hfails, StoreUndoes]
      simp only [hwrite, henabled, Except.toBool, reduceCtorEq, false_imp_iff, true_imp_iff,
        true_and, and_true]
      refine forall_congr' fun hf => ?_
      obtain ⟨hrules, hsaved⟩ := hback hf
      rw [Unchanged, hrules, hsaved]
      cases hsecond : s.secondWrite with
      | ok u => simp [Except.toBool, inSync_iff]
      | error e =>
        simp only [Except.toBool, Bool.false_eq_true, if_false, true_and, false_imp_iff,
          true_imp_iff]
        rw [List.perm_comm]
        exact ⟨fun hp => hp.trans (Manager.toSave_perm _),
          fun hp => hp.trans (Manager.toSave_perm _).symm⟩
    | false =>
      obtain ⟨hanswer, hrules, hsaved⟩ := store_disabled (m := m) hwrite henabled
      rw [hanswer, StoreUndoes]
      simp only [hwrite, henabled, Except.toBool, reduceCtorEq, false_imp_iff, true_imp_iff,
        true_and]
      refine forall_congr' fun _ => ?_
      rw [Unchanged, hrules, hsaved, put_rules_iff]
      refine and_congr_right fun hget => ?_
      rw [hput (put_rules_iff.mpr hget), inSync_iff]

-- ---------------------------------------------------------------------------
-- All requests
-- ---------------------------------------------------------------------------

theorem accept_atomic_iff :
    ((m.accept s rule).1.toBool = false → Unchanged m (m.accept s rule).2) ↔
      (m.checks rule = .ok () → m.runsAlready rule = false → StoreUndoes m s rule) := by
  unfold Manager.accept
  cases hchecks : m.checks rule with
  | error e => simp [Except.toBool, Unchanged]
  | ok u =>
    cases hruns : m.runsAlready rule with
    | true => simp [Except.toBool]
    | false =>
      simp only [Bool.false_eq_true, if_false, true_imp_iff]
      exact store_atomic_iff hchecks

theorem start_atomic_iff : Atomic m s (.start id) ↔ Undoes m s (.start id) := by
  simp only [Atomic, Undoes, Manager.handle, Manager.enableRule, Manager.switch]
  cases hget : Dict.get? m.rules id with
  | none => simp [Except.toBool, Unchanged]
  | some rule =>
    have hswitched : (m.put id { rule with enabled := true }).rules = m.rules ↔
        rule.enabled = true := by
      rw [put_rules_iff, hget, Option.some.injEq]
      exact ⟨fun h => by rw [h], fun h => by rw [← h]⟩
    simp only [Option.some.injEq, forall_eq']
    generalize ({ rule with enabled := true } : Rule) = on at hswitched ⊢
    cases hwrite : s.firstWrite with
    | error e =>
      simp only [Manager.persist, Unchanged, hswitched, Except.toBool, true_imp_iff,
        Manager.put_saved]
      simp
    | ok u =>
      simp only [Manager.persist]
      generalize hwritten : ({ m.put id on with saved := (m.put id on).toSave } : Manager) = written
      have hstored : Dict.get? written.rules id = some on := by simp [← hwritten, Manager.put]
      have hchecks : written.checks on = (m.put id on).checks on := by rw [← hwritten]; rfl
      rw [Manager.startRule_toBool_eq_false hstored, hchecks, Unchanged, Manager.startRule_rules,
        Manager.startRule_saved, ← hwritten]
      simp only [hswitched, Except.toBool, reduceCtorEq, false_imp_iff, true_imp_iff, true_and]
      refine forall_congr' fun _ => and_congr_right fun henabled => ?_
      rw [Manager.toSave_congr (hswitched.mpr henabled), inSync_iff]

theorem stop_atomic_iff : Atomic m s (.stop id) ↔ Undoes m s (.stop id) := by
  simp only [Atomic, Undoes, Manager.handle, Manager.stopRule, Manager.switch]
  cases hget : Dict.get? m.rules id with
  | none => simp [Except.toBool, Unchanged]
  | some rule =>
    have hswitched : (m.put id { rule with enabled := false }).rules = m.rules ↔
        rule.enabled = false := by
      rw [put_rules_iff, hget, Option.some.injEq]
      exact ⟨fun h => by rw [h], fun h => by rw [← h]⟩
    simp only [Option.some.injEq, forall_eq']
    generalize ({ rule with enabled := false } : Rule) = off at hswitched ⊢
    cases hwrite : s.firstWrite with
    | error e => simp [Manager.persist, Unchanged, hswitched, Except.toBool]
    | ok u => simp [Manager.persist, Except.toBool]

theorem delete_atomic_iff : Atomic m s (.delete id) ↔ Undoes m s (.delete id) := by
  simp only [Atomic, Undoes, Manager.handle, Manager.deleteRule]
  cases hwrite : s.firstWrite with
  | error e =>
    simp [Manager.persist, Unchanged, Except.toBool, Manager.drop, Dict.erase_eq_self_iff]
  | ok u => simp [Manager.persist, Except.toBool]

/-- A request that fails changes nothing exactly where there was nothing to
put back. -/
theorem atomic_iff (m : Manager) (s : Surroundings) (c : Command) :
    Atomic m s c ↔ Undoes m s c := by
  cases c with
  | upsert given =>
    cases given with
    | error e => exact iff_of_true (fun _ => ⟨rfl, .refl _⟩) trivial
    | ok given =>
      rw [Atomic, Undoes]
      generalize hrule : normalizeRule given = rule
      rw [m.handle_upsert s given rule hrule]
      exact accept_atomic_iff
  | start id => exact start_atomic_iff
  | stop id => exact stop_atomic_iff
  | delete id => exact delete_atomic_iff

/-- A rule is removed from memory and stays in the file that cannot be
written. -/
theorem delete_not_atomic :
    ¬ Atomic (Manager.load [exampleRule "nas" 20000] 20000 20020)
      { calm with firstWrite := .error "No space left on device (os error 28)" } (.delete "nas") := by
  intro h
  have hrules := (h (by decide)).1
  revert hrules
  decide

end LabProbe.Relay
