import LabProbe.Lib.Durable
import LabProbe.Relay.Normal
import LabProbe.Relay.Status
import Mathlib.Logic.Function.Basic

/-!
# What the relay keeps when it dies

The relay writes its rules to the configuration file before it answers a
request, and reads them from the file when it starts. It may die at any
moment, in the middle of a request too, and a write may fail. The rules that
a start brings back are those of the requests that were answered well, and of
some of the others, each carried out as a whole.
-/

namespace LabProbe.Relay

open Py Py.Json Check Runs Durable

-- ---------------------------------------------------------------------------
-- The configuration file
-- ---------------------------------------------------------------------------

def configFile (rules : List Rule) : Entries :=
  [("version", .int 1), ("rules", .list (rules.map fun rule => .dict rule.toJson))]

def readRow : Json → Option Rule
  | .dict row => readRule row
  | _ => none

def readConfig (config : Entries) : Option (List Rule) := do
  let _ ← readNat 32 config "version" 0
  match Dict.get? config "rules" with
  | none => some []
  | some (.list rows) => rows.mapM readRow
  | some _ => none

theorem mapM_readRow {rules : List Rule} (h : ∀ rule ∈ rules, rule.Typed) :
    (rules.map fun rule => Json.dict rule.toJson).mapM readRow = some rules := by
  induction rules with
  | nil => rfl
  | cons rule rules ih =>
    obtain ⟨hrule, hrules⟩ := List.forall_mem_cons.mp h
    have hread : readRow (.dict rule.toJson) = some rule := readRule_toJson hrule
    rw [List.map_cons, List.mapM_cons, hread, ih hrules]
    rfl

theorem readConfig_configFile {rules : List Rule} (h : ∀ rule ∈ rules, rule.Typed) :
    readConfig (configFile rules) = some rules := by
  have hversion : readNat 32 (configFile rules) "version" 0 = some 1 := rfl
  have hrows : Dict.get? (configFile rules) "rules" =
      some (.list (rules.map fun rule => .dict rule.toJson)) := rfl
  rw [readConfig, hversion, hrows]
  exact mapM_readRow h

-- ---------------------------------------------------------------------------
-- The daemon
-- ---------------------------------------------------------------------------

/-- What a start meets: the clock when the rules are looked through, and then
an attempt for each rule. -/
structure Restart where
  now : Nat
  attempts : String → Attempt

def Manager.startEnabled (m : Manager) (r : Restart) : Manager :=
  ((m.values.filter fun rule => rule.enabled && !isExpired r.now rule).map (·.id)).foldl
    (fun m id => (m.startRule (r.attempts id) id).2) m

/-- The start of the daemon with the file that another has left; it fails on a
file that it cannot read. -/
def Manager.restart (m : Manager) (r : Restart) : Option Manager :=
  (readConfig (configFile m.saved)).map fun rules =>
    (Manager.load rules m.portMin m.portMax).startEnabled r

/-- A request that is cut off after so many writes leaves the file as it would
if the next one had failed. -/
def Surroundings.cut (s : Surroundings) (writes : Nat) : Surroundings :=
  { s with
    firstWrite := if writes = 0 then .error "killed" else s.firstWrite
    secondWrite := if writes ≤ 1 then .error "killed" else s.secondWrite }

/-- A request, the death of the daemon and its next start, or its death in the
middle of a request. -/
inductive DaemonEvent where
  | request (s : Surroundings) (c : Command)
  | died (r : Restart)
  | cut (s : Surroundings) (c : Command) (writes : Nat) (r : Restart)

/-- The daemon after an event, unless it could not read its file. -/
def daemonStep : Option Manager → DaemonEvent → Option Manager
  | m, .request s c => m.map fun m => (m.handle s c).2
  | m, .died r => m.bind fun m => m.restart r
  | m, .cut s c writes r => m.bind fun m => (m.handle (s.cut writes) c).2.restart r

/-- The commands of an event, and whether they were answered well. -/
def witnessed : Option Manager → DaemonEvent → List (Command × Bool)
  | some m, .request s c => [(c, (m.handle s c).1.toBool)]
  | some _, .cut _ c _ _ => [(c, false)]
  | _, _ => []

def Manager.answersUnchanged (m : Manager) : Command → Bool
  | .upsert (.ok given) =>
    (m.checks (normalizeRule given)).toBool && m.runsAlready (normalizeRule given)
  | _ => false

/-- An upsert is answered without a write only while the file holds the rules
in memory. -/
def Covered : Option Manager → DaemonEvent → Prop
  | some m, .request _ c => m.answersUnchanged c = true → m.InSync
  | _, _ => True

instance (m : Manager) : Decidable m.InSync := inferInstanceAs (Decidable (m.saved.Perm m.values))

instance : (m : Option Manager) → (e : DaemonEvent) → Decidable (Covered m e)
  | some m, .request _ c => inferInstanceAs (Decidable (m.answersUnchanged c = true → m.InSync))
  | none, .request .. => .isTrue trivial
  | none, .died _ | some _, .died _ => .isTrue trivial
  | none, .cut .. | some _, .cut .. => .isTrue trivial

/-- The rule of an upsert as it has been read. -/
def Command.Typed : Command → Prop
  | .upsert (.ok given) => given.Typed
  | _ => True

def DaemonEvent.Typed : DaemonEvent → Prop
  | .request _ c | .cut _ c _ _ => c.Typed
  | .died _ => True

-- ---------------------------------------------------------------------------
-- The rules as a map
-- ---------------------------------------------------------------------------

abbrev Table := String → Option Rule

def Manager.table (m : Manager) : Table := Dict.get? m.rules

def Manager.fileTable (m : Manager) : Table := (Manager.load m.saved m.portMin m.portMax).table

open Classical in
/-- What a request is for. -/
noncomputable def carryOut (ports : Nat × Nat) (t : Table) : Command → Table
  | .upsert (.ok given) =>
    if validateRule (normalizeRule given) ports.1 ports.2 = .ok () ∧
        ∀ id other, t id = some other → rulesConflict other (normalizeRule given) = false then
      Function.update t (normalizeRule given).id (some (normalizeRule given))
    else t
  | .upsert (.error _) => t
  | .start id => Function.update t id ((t id).map fun rule => { rule with enabled := true })
  | .stop id => Function.update t id ((t id).map fun rule => { rule with enabled := false })
  | .delete id => Function.update t id none

def switched (rules : List (String × Rule)) (id : String) (enabled : Bool) : List (String × Rule) :=
  match Dict.get? rules id with
  | some rule => Dict.set rules id { rule with enabled := enabled }
  | none => rules

def Manager.carriedOut (m : Manager) : Command → List (String × Rule)
  | .upsert (.ok given) =>
    if m.checks (normalizeRule given) = .ok () then
      Dict.set m.rules (normalizeRule given).id (normalizeRule given)
    else m.rules
  | .upsert (.error _) => m.rules
  | .start id => switched m.rules id true
  | .stop id => switched m.rules id false
  | .delete id => Dict.erase m.rules id

def toFile (rules : List (String × Rule)) : List Rule :=
  (rules.map Prod.snd).insertionSort fun a b => a.listenPort ≤ b.listenPort

variable {m m' : Manager} {s : Surroundings} {c : Command} {rule : Rule} {id : String}

theorem toSave_eq (m : Manager) : m.toSave = toFile m.rules := rfl

theorem fileTable_congr (h : m'.saved = m.saved) : m'.fileTable = m.fileTable := by
  simp only [Manager.fileTable, Manager.table, Manager.load, h]

theorem get?_dict_set (rules : List (String × Rule)) (id : String) (rule : Rule) :
    Dict.get? (Dict.set rules id rule) = Function.update (Dict.get? rules) id (some rule) := by
  funext key
  rw [Dict.get?_set, Function.update_apply]
  simp only [eq_comm]

theorem get?_switched (rules : List (String × Rule)) (id : String) (enabled : Bool) :
    Dict.get? (switched rules id enabled) = Function.update (Dict.get? rules) id
      ((Dict.get? rules id).map fun rule => { rule with enabled := enabled }) := by
  unfold switched
  split
  · rename_i rule hget
    rw [hget]
    exact get?_dict_set rules id _
  · rename_i hget
    rw [hget, Option.map_none, ← hget]
    exact (Function.update_eq_self id _).symm

theorem get?_dict_erase (rules : List (String × Rule)) (id : String) :
    Dict.get? (Dict.erase rules id) = Function.update (Dict.get? rules) id none := by
  funext key
  rw [Dict.get?_erase, Function.update_apply]
  simp only [eq_comm]

theorem checks_iff (hnodup : (Dict.keys m.rules).Nodup) :
    m.checks rule = .ok () ↔ validateRule rule m.ports.1 m.ports.2 = .ok () ∧
      ∀ id other, m.table id = some other → rulesConflict other rule = false := by
  have hfree : m.ensurePortAvailable rule = .ok () ↔
      ∀ id other, m.table id = some other → rulesConflict other rule = false := by
    rw [Manager.ensurePortAvailable_eq_ok, Manager.values, List.forall_mem_map]
    constructor
    · exact fun h id other hget => h (id, other) (Dict.mem_of_get? hget)
    · exact fun h e he => h e.1 e.2 (Dict.get?_of_mem hnodup he)
  rw [← hfree, Manager.checks, bind_eq_ok]
  constructor
  · rintro ⟨_, hvalid, hport⟩
    exact ⟨hvalid, hport⟩
  · rintro ⟨hvalid, hport⟩
    exact ⟨(), hvalid, hport⟩

theorem carriedOut_table (hnodup : (Dict.keys m.rules).Nodup) (c : Command) :
    Dict.get? (m.carriedOut c) = carryOut m.ports m.table c := by
  cases c with
  | upsert given =>
    cases given with
    | error e => rfl
    | ok given =>
      simp only [Manager.carriedOut, carryOut, ← checks_iff hnodup]
      split
      · exact get?_dict_set m.rules _ _
      · rfl
  | start id => exact get?_switched m.rules id true
  | stop id => exact get?_switched m.rules id false
  | delete id => exact get?_dict_erase m.rules id

-- ---------------------------------------------------------------------------
-- What a request leaves
-- ---------------------------------------------------------------------------

/-- What a request may leave of the rules in memory and in the file. -/
structure Effect (m m' : Manager) (c : Command) (answered : Bool) : Prop where
  rules : m'.rules = m.rules ∨ m'.rules = m.carriedOut c
  saved : m'.saved = m.saved ∨ m'.saved = toFile m.rules ∨ m'.saved = toFile (m.carriedOut c)
  done : answered = true → m'.rules = m.carriedOut c ∧
    (m'.saved = toFile (m.carriedOut c) ∨
      m.answersUnchanged c = true ∧ m'.rules = m.rules ∧ m'.saved = m.saved)

theorem store_effect (hchecks : m.checks rule = .ok ()) :
    ((m.store s rule).2.rules = m.rules ∨
        (m.store s rule).2.rules = Dict.set m.rules rule.id rule) ∧
      ((m.store s rule).2.saved = m.saved ∨ (m.store s rule).2.saved = toFile m.rules ∨
        (m.store s rule).2.saved = toFile (Dict.set m.rules rule.id rule)) ∧
      ((m.store s rule).1.toBool = true →
        (m.store s rule).2.rules = Dict.set m.rules rule.id rule ∧
          (m.store s rule).2.saved = toFile (Dict.set m.rules rule.id rule)) := by
  cases hwrite : s.firstWrite with
  | error e =>
    rw [store_write_error hwrite]
    exact ⟨.inr rfl, .inl rfl, by simp [Except.toBool]⟩
  | ok u =>
    cases henabled : rule.enabled with
    | false =>
      obtain ⟨-, hrules, hsaved⟩ := store_disabled (m := m) hwrite henabled
      exact ⟨.inr hrules, .inr (.inr hsaved), fun _ => ⟨hrules, hsaved⟩⟩
    | true =>
      obtain ⟨hanswer, hback⟩ := store_enabled hchecks hwrite henabled
      by_cases hfails : s.firstStart.Fails rule
      · obtain ⟨hrules, hsaved⟩ := hback hfails
        refine ⟨.inl hrules, .inr ?_, fun hdone => ?_⟩
        · rw [hsaved]
          split
          · exact .inl rfl
          · exact .inr rfl
        · rw [hanswer.mpr hfails] at hdone
          cases hdone
      · have hrules := store_rules (s := s) hchecks fun _ => hfails
        have hsaved : (m.store s rule).2.saved = toFile (Dict.set m.rules rule.id rule) := by
          have hgood := mt hanswer.mp hfails
          rw [store_written hwrite, if_pos henabled] at hgood ⊢
          have hkept := Manager.startRule_saved
            { m.put rule.id rule with saved := (m.put rule.id rule).toSave } rule.id s.firstStart
          have hmemory := Manager.startRule_rules
            { m.put rule.id rule with saved := (m.put rule.id rule).toSave } rule.id s.firstStart
          split
          · rename_i started hstart
            rw [hstart] at hkept
            exact hkept
          · rename_i e started hstart
            rw [hstart] at hgood hmemory
            exact absurd (Manager.rollBack_effect s e hmemory).1 hgood
        exact ⟨.inr hrules, .inr (.inr hsaved), fun _ => ⟨hrules, hsaved⟩⟩

theorem upsert_effect (given : Rule) :
    Effect m (m.handle s (.upsert (.ok given))).2 (.upsert (.ok given))
      (m.handle s (.upsert (.ok given))).1.toBool := by
  generalize hrule : normalizeRule given = rule
  rw [m.handle_upsert s given rule hrule, Manager.accept]
  cases hchecks : m.checks rule with
  | error e => exact ⟨.inl rfl, .inl rfl, by simp [Except.toBool]⟩
  | ok u =>
    have hcarried : m.carriedOut (.upsert (.ok given)) = Dict.set m.rules rule.id rule := by
      rw [Manager.carriedOut, hrule, if_pos hchecks]
    dsimp only
    split
    · rename_i hruns
      have hsame : Dict.set m.rules rule.id rule = m.rules := by
        simp only [Manager.runsAlready, Bool.and_eq_true, beq_iff_eq] at hruns
        exact Dict.set_eq_self hruns.1.2
      have hunchanged : m.answersUnchanged (.upsert (.ok given)) = true := by
        rw [Manager.answersUnchanged, hrule, hchecks, hruns]
        rfl
      exact ⟨.inl rfl, .inl rfl, fun _ => ⟨(hcarried.trans hsame).symm, .inr ⟨hunchanged, rfl, rfl⟩⟩⟩
    · obtain ⟨hrules, hsaved, hdone⟩ := store_effect (s := s) hchecks
      rw [← hcarried] at hrules hsaved hdone
      exact ⟨hrules, hsaved, fun h => ⟨(hdone h).1, .inl (hdone h).2⟩⟩

theorem handle_effect (m : Manager) (s : Surroundings) (c : Command) :
    Effect m (m.handle s c).2 c (m.handle s c).1.toBool := by
  cases c with
  | upsert given =>
    cases given with
    | error e => exact ⟨.inl rfl, .inl rfl, by simp [Manager.handle, Except.toBool]⟩
    | ok given => exact upsert_effect given
  | start id =>
    simp only [Manager.handle, Manager.enableRule, Manager.switch]
    cases hget : Dict.get? m.rules id with
    | none => exact ⟨.inl rfl, .inl rfl, by simp [Except.toBool]⟩
    | some rule =>
      have hcarried : m.carriedOut (.start id) = (m.put id { rule with enabled := true }).rules := by
        simp only [Manager.carriedOut, switched, hget, Manager.put]
      cases s.firstWrite with
      | error e => exact ⟨.inr hcarried.symm, .inl rfl, by simp [Manager.persist, Except.toBool]⟩
      | ok u =>
        simp only [Manager.persist]
        constructor
        · rw [Manager.startRule_rules, hcarried]
          exact .inr rfl
        · rw [Manager.startRule_saved, hcarried]
          exact .inr (.inr rfl)
        · rw [Manager.startRule_rules, Manager.startRule_saved, hcarried]
          exact fun _ => ⟨rfl, .inl rfl⟩
  | stop id =>
    simp only [Manager.handle, Manager.stopRule, Manager.switch]
    cases hget : Dict.get? m.rules id with
    | none => exact ⟨.inl rfl, .inl rfl, by simp [Except.toBool]⟩
    | some rule =>
      have hcarried : m.carriedOut (.stop id) = (m.put id { rule with enabled := false }).rules := by
        simp only [Manager.carriedOut, switched, hget, Manager.put]
      cases s.firstWrite with
      | error e => exact ⟨.inr hcarried.symm, .inl rfl, by simp [Manager.persist, Except.toBool]⟩
      | ok u =>
        simp only [Manager.persist]
        constructor
        · rw [Manager.markStopped_rules, Manager.stopRuntime_rules, hcarried]
          exact .inr rfl
        · rw [Manager.markStopped_saved, Manager.stopRuntime_saved, hcarried]
          exact .inr (.inr rfl)
        · rw [Manager.markStopped_rules, Manager.stopRuntime_rules, Manager.markStopped_saved,
            Manager.stopRuntime_saved, hcarried]
          exact fun _ => ⟨rfl, .inl rfl⟩
  | delete id =>
    have hrules : (m.handle s (.delete id)).2.rules = m.carriedOut (.delete id) :=
      handle_delete_rules
    refine ⟨.inr hrules, ?_, fun hdone => ⟨hrules, .inl ?_⟩⟩
    · simp only [Manager.handle, Manager.deleteRule]
      cases s.firstWrite with
      | error e =>
        left
        simp [Manager.persist, Manager.drop]
      | ok u =>
        right
        right
        simp [Manager.persist, toSave_eq, Manager.drop, Manager.carriedOut]
    · simp only [Manager.handle, Manager.deleteRule] at hdone ⊢
      cases hwrite : s.firstWrite with
      | error e => simp [hwrite, Manager.persist, Except.toBool] at hdone
      | ok u => simp [Manager.persist, toSave_eq, Manager.drop, Manager.carriedOut]

theorem handle_ports (m : Manager) (s : Surroundings) (c : Command) :
    (m.handle s c).2.ports = m.ports := by
  cases c with
  | upsert given =>
    cases given with
    | error e => rfl
    | ok given =>
      generalize hrule : normalizeRule given = rule
      rw [m.handle_upsert s given rule hrule]
      exact accept_ports
  | start id =>
    simp only [Manager.handle, Manager.enableRule, Manager.switch]
    cases Dict.get? m.rules id with
    | none => rfl
    | some rule =>
      cases s.firstWrite with
      | error e => rfl
      | ok u =>
        simp only [Manager.persist]
        exact Manager.startRule_ports _ _ _
  | stop id => exact m.stopRule_ports s.now id s.firstWrite
  | delete id => exact handle_delete_ports

-- ---------------------------------------------------------------------------
-- Rules that can be written and read
-- ---------------------------------------------------------------------------

/-- The rules in memory and those in the file have identifiers and ports of
their own, and numbers that fit their types. -/
structure Manager.Healthy (m : Manager) : Prop where
  sound : m.Sound
  nodup : (Dict.keys m.rules).Nodup
  typed : ∀ rule ∈ m.values, rule.Typed
  fileFree : ConflictFree m.saved
  fileTyped : ∀ rule ∈ m.saved, rule.Typed

theorem toFile_perm (rules : List (String × Rule)) : (toFile rules).Perm (rules.map Prod.snd) :=
  List.perm_insertionSort _ _

theorem mem_toFile {rules : List (String × Rule)} : rule ∈ toFile rules ↔ rule ∈ rules.map Prod.snd :=
  (toFile_perm rules).mem_iff

theorem switched_cases (rules : List (String × Rule)) (id : String) (enabled : Bool) :
    switched rules id enabled = rules ∨ ∃ rule, Dict.get? rules id = some rule ∧
      switched rules id enabled = Dict.set rules id { rule with enabled := enabled } := by
  unfold switched
  split
  · rename_i rule hget
    exact .inr ⟨rule, hget, rfl⟩
  · exact .inl rfl

inductive Carried (m : Manager) (c : Command) : List (String × Rule) → Prop where
  | kept : Carried m c m.rules
  | stored (given rule : Rule) (hc : c = .upsert (.ok given)) (hrule : rule = normalizeRule given)
    (h : m.checks rule = .ok ()) : Carried m c (Dict.set m.rules rule.id rule)
  | switched (id : String) (rule : Rule) (enabled : Bool) (h : Dict.get? m.rules id = some rule) :
    Carried m c (Dict.set m.rules id { rule with enabled := enabled })
  | removed (id : String) : Carried m c (Dict.erase m.rules id)

theorem carried_carriedOut (m : Manager) (c : Command) : Carried m c (m.carriedOut c) := by
  have hswitched : ∀ id enabled, Carried m c (switched m.rules id enabled) := fun id enabled => by
    rcases switched_cases m.rules id enabled with hkept | ⟨rule, hget, hset⟩
    · rw [hkept]
      exact .kept
    · rw [hset]
      exact .switched id rule enabled hget
  cases c with
  | upsert given =>
    cases given with
    | error e => exact .kept
    | ok given =>
      have hcarried : m.carriedOut (.upsert (.ok given)) =
          if m.checks (normalizeRule given) = .ok () then
            Dict.set m.rules (normalizeRule given).id (normalizeRule given) else m.rules := rfl
      rw [hcarried]
      split
      · rename_i hchecks
        exact .stored given _ rfl rfl hchecks
      · exact .kept
  | start id => exact hswitched id true
  | stop id => exact hswitched id false
  | delete id => exact .removed id

theorem Carried.change {rules : List (String × Rule)} (h : Carried m c rules) : Change m rules := by
  cases h with
  | kept => exact .kept
  | stored given rule hc hrule hchecks =>
    simp only [Manager.checks, bind_eq_ok] at hchecks
    obtain ⟨u, -, hport⟩ := hchecks
    exact .stored rule hport
  | switched id rule enabled hget => exact .switched id rule enabled hget
  | removed id => exact .removed id

theorem Carried.typed {rules : List (String × Rule)} (h : Carried m c rules)
    (htyped : ∀ rule ∈ m.values, rule.Typed) (hc : c.Typed) : ∀ e ∈ rules, e.2.Typed := by
  have hentries : ∀ e ∈ m.rules, e.2.Typed := fun e he => htyped e.2 (List.mem_map_of_mem he)
  cases h with
  | kept => exact hentries
  | stored given rule hgiven hrule hchecks =>
    subst hgiven hrule
    intro e he
    rcases Dict.mem_set he with rfl | he
    · exact typed_normalizeRule hc
    · exact hentries e he
  | switched id rule enabled hget =>
    intro e he
    rcases Dict.mem_set he with rfl | he
    · exact hentries (id, rule) (Dict.mem_of_get? hget)
    · exact hentries e he
  | removed id => exact fun e he => hentries e (Dict.mem_erase.mp he).1

theorem Carried.nodup {rules : List (String × Rule)} (h : Carried m c rules)
    (hnodup : (Dict.keys m.rules).Nodup) : (Dict.keys rules).Nodup := by
  cases h with
  | kept => exact hnodup
  | stored | switched => exact Dict.nodup_keys_set _ _ hnodup
  | removed id => exact Dict.nodup_keys_filter _ hnodup

theorem Manager.Healthy.effect {answered : Bool} (h : m.Healthy) (hc : c.Typed)
    (heffect : Effect m m' c answered) : m'.Healthy := by
  have hcarries := carried_carriedOut m c
  have hcarried : ({ m with rules := m.carriedOut c } : Manager).Sound := h.sound.change hcarries.change
  have hcarriedTyped := hcarries.typed h.typed hc
  have hfile : m'.saved = m.saved ∨ ∃ rules, m'.saved = toFile rules ∧
      ConflictFree (rules.map Prod.snd) ∧ ∀ e ∈ rules, e.2.Typed := by
    rcases heffect.saved with hsaved | hsaved | hsaved
    · exact .inl hsaved
    · exact .inr ⟨m.rules, hsaved, h.sound.free, fun e he => h.typed e.2 (List.mem_map_of_mem he)⟩
    · exact .inr ⟨m.carriedOut c, hsaved, hcarried.free, hcarriedTyped⟩
  constructor
  · rcases heffect.rules with hrules | hrules
    · exact h.sound.change (hrules ▸ .kept)
    · exact h.sound.change (hrules ▸ hcarries.change)
  · rcases heffect.rules with hrules | hrules
    · exact hrules ▸ h.nodup
    · exact hrules ▸ hcarries.nodup h.nodup
  · rw [Manager.values, List.forall_mem_map]
    rcases heffect.rules with hrules | hrules
    · exact hrules ▸ fun e he => h.typed e.2 (List.mem_map_of_mem he)
    · exact hrules ▸ hcarriedTyped
  · rcases hfile with hsaved | ⟨rules, hsaved, hfree, -⟩
    · exact hsaved ▸ h.fileFree
    · exact hsaved ▸ fun a ha b hb => hfree a (mem_toFile.mp ha) b (mem_toFile.mp hb)
  · rcases hfile with hsaved | ⟨rules, hsaved, -, htyped⟩
    · exact hsaved ▸ h.fileTyped
    · rw [hsaved]
      intro rule hrule
      obtain ⟨e, he, rfl⟩ := List.mem_map.mp (mem_toFile.mp hrule)
      exact htyped e he

theorem load_perm {rules : List (String × Rule)} {saved : List Rule}
    (hsaved : saved.Perm (rules.map Prod.snd)) (hkeyed : ∀ e ∈ rules, e.2.id = e.1)
    (hnodup : (Dict.keys rules).Nodup) (portMin portMax : Nat) :
    (Manager.load saved portMin portMax).table = Dict.get? rules := by
  funext id
  have hperm : (saved.map fun rule => (rule.id, rule)).reverse.Perm rules := by
    have hentries : (rules.map Prod.snd).map (fun rule => (rule.id, rule)) = rules := by
      rw [List.map_map]
      refine (List.map_congr_left fun e he => ?_).trans (List.map_id rules)
      exact Prod.ext (hkeyed e he) rfl
    have hfile := hsaved.map fun rule => (rule.id, rule)
    rw [hentries] at hfile
    exact (List.reverse_perm _).trans hfile
  rw [Manager.table, Manager.load, Dict.get?_ofEntries]
  exact Dict.get?_perm ((hperm.map Prod.fst).nodup_iff.mpr hnodup) hperm id

-- ---------------------------------------------------------------------------
-- Starting
-- ---------------------------------------------------------------------------

theorem startAll_frame (attempts : String → Attempt) (ids : List String) (m : Manager) :
    (ids.foldl (fun m id => (m.startRule (attempts id) id).2) m).rules = m.rules ∧
      (ids.foldl (fun m id => (m.startRule (attempts id) id).2) m).saved = m.saved ∧
      (ids.foldl (fun m id => (m.startRule (attempts id) id).2) m).ports = m.ports := by
  induction ids generalizing m with
  | nil => exact ⟨rfl, rfl, rfl⟩
  | cons id ids ih =>
    obtain ⟨hrules, hsaved, hports⟩ := ih (m.startRule (attempts id) id).2
    rw [Manager.startRule_rules] at hrules
    rw [Manager.startRule_saved] at hsaved
    rw [Manager.startRule_ports] at hports
    exact ⟨hrules, hsaved, hports⟩

theorem startRule_other (m : Manager) (a : Attempt) {id key : String} (h : key ≠ id) :
    Dict.get? (m.startRule a id).2.runtimes key = Dict.get? m.runtimes key := by
  have hstopped : ∀ now, Dict.get? (m.stopRuntime now id true).runtimes key =
      Dict.get? m.runtimes key := fun now => by
    unfold Manager.stopRuntime
    split
    · rfl
    · rw [Dict.get?_erase, if_neg (Ne.symm h)]
  unfold Manager.startRule
  split
  · rfl
  · split
    · rfl
    · split
      · rfl
      · dsimp only
        split
        · exact hstopped a.now
        · rw [Dict.get?_set, if_neg (Ne.symm h)]
          exact hstopped a.now

theorem startRule_self {a : Attempt} (hget : Dict.get? m.rules id = some rule)
    (hnone : Dict.get? m.runtimes id = none) :
    (Dict.get? (m.startRule a id).2.runtimes id).isSome = true ↔
      m.checks rule = .ok () ∧ ¬ a.Fails rule := by
  have hstarts : (m.startRule a id).1.toBool = true ↔ m.checks rule = .ok () ∧ ¬ a.Fails rule := by
    rw [← Bool.not_eq_false, Manager.startRule_toBool_eq_false hget, not_or, not_ne_iff]
  rw [← hstarts]
  unfold Manager.startRule
  rw [hget]
  dsimp only
  split
  · simp [hnone, Except.toBool]
  · split
    · simp [Manager.setCachedState, hnone, Except.toBool]
    · have hstopped : m.stopRuntime a.now id true = m := by
        rw [Manager.stopRuntime, hnone]
      rw [hstopped]
      split
      · simp [Manager.setCachedState, hnone, Except.toBool]
      · simp [Except.toBool]

theorem startAll_runtimes (attempts : String → Attempt) {ids : List String} (hids : ids.Nodup)
    (m : Manager) (hnone : ∀ id ∈ ids, Dict.get? m.runtimes id = none)
    (hrules : ∀ id ∈ ids, (m.table id).isSome) (id : String) :
    (Dict.get? (ids.foldl (fun m id => (m.startRule (attempts id) id).2) m).runtimes id).isSome =
        true ↔
      (Dict.get? m.runtimes id).isSome = true ∨ id ∈ ids ∧ ∃ rule, m.table id = some rule ∧
        m.checks rule = .ok () ∧ ¬ (attempts id).Fails rule := by
  induction ids generalizing m with
  | nil => simp
  | cons first ids ih =>
    obtain ⟨hfirst, hids⟩ := List.nodup_cons.mp hids
    obtain ⟨hfirstNone, hlaterNone⟩ := List.forall_mem_cons.mp hnone
    obtain ⟨hfirstSome, hlaterSome⟩ := List.forall_mem_cons.mp hrules
    obtain ⟨rule, hget⟩ := Option.isSome_iff_exists.mp hfirstSome
    have htable : (m.startRule (attempts first) first).2.table = m.table :=
      congrArg Dict.get? (m.startRule_rules first (attempts first))
    have hports : (m.startRule (attempts first) first).2.ports = m.ports := Manager.startRule_ports _ _ _
    have hchecks : ∀ rule, (m.startRule (attempts first) first).2.checks rule = m.checks rule :=
      fun rule => by
        obtain ⟨hmin, hmax⟩ := Prod.ext_iff.mp hports
        rw [Manager.checks, Manager.checks, Manager.ensurePortAvailable, Manager.ensurePortAvailable,
          Manager.values, Manager.values, Manager.startRule_rules]
        exact congrArg₂ _ (congrArg₂ _ hmin hmax) rfl
    have hone := startRule_self (a := attempts first) hget hfirstNone
    have hother : ∀ key, key ≠ first →
        Dict.get? (m.startRule (attempts first) first).2.runtimes key = Dict.get? m.runtimes key :=
      fun key hne => startRule_other m (attempts first) hne
    have hne : ∀ key ∈ ids, key ≠ first := fun key hkey heq => hfirst (heq ▸ hkey)
    rw [List.foldl_cons, ih hids _ (fun key hkey => (hother key (hne key hkey)).trans (hlaterNone key hkey))
      (fun key hkey => by rw [htable]; exact hlaterSome key hkey), htable]
    simp only [hchecks, List.mem_cons]
    by_cases heq : id = first
    · subst heq
      have htable : m.table id = some rule := hget
      simp [hone, hfirst, hfirstNone, htable]
    · rw [hother id heq]
      simp [heq]

/-- After a start those rules have a task that are enabled, have not expired,
pass the checks and start. -/
theorem startEnabled_runtimes (hsound : m.Sound) (hnodup : (Dict.keys m.rules).Nodup)
    (hnone : m.runtimes = []) (r : Restart) (id : String) :
    (Dict.get? (m.startEnabled r).runtimes id).isSome = true ↔
      ∃ rule, m.table id = some rule ∧ rule.enabled = true ∧ isExpired r.now rule = false ∧
        validateRule rule m.portMin m.portMax = .ok () ∧ ¬ (r.attempts id).Fails rule := by
  have hids : (m.values.map (·.id)) = Dict.keys m.rules := by
    rw [Manager.values, List.map_map]
    exact List.map_congr_left fun e he => hsound.keyed e he
  have hstarted : (((m.values.filter fun rule => rule.enabled && !isExpired r.now rule).map (·.id))).Nodup :=
    (hids ▸ hnodup).sublist (List.filter_sublist.map _)
  have hmem : ∀ id, id ∈ (m.values.filter fun rule => rule.enabled && !isExpired r.now rule).map (·.id) ↔
      ∃ rule, m.table id = some rule ∧ rule.enabled = true ∧ isExpired r.now rule = false := by
    intro id
    simp only [List.mem_map, List.mem_filter, Bool.and_eq_true, Bool.not_eq_true']
    constructor
    · rintro ⟨rule, ⟨hrule, hgood⟩, rfl⟩
      obtain ⟨e, he, rfl⟩ := List.mem_map.mp hrule
      refine ⟨e.2, ?_, hgood⟩
      rw [hsound.keyed e he]
      exact Dict.get?_of_mem hnodup he
    · rintro ⟨rule, hget, hgood⟩
      have he := Dict.mem_of_get? hget
      exact ⟨rule, ⟨List.mem_map_of_mem he, hgood⟩, hsound.keyed _ he⟩
  have hchecks : ∀ rule, m.table id = some rule →
      (m.checks rule = .ok () ↔ validateRule rule m.portMin m.portMax = .ok ()) := fun rule hget => by
    rw [checks_iff hnodup]
    refine and_iff_left fun other rule' hother => ?_
    exact hsound.free rule' (List.mem_map_of_mem (Dict.mem_of_get? hother)) rule
      (List.mem_map_of_mem (Dict.mem_of_get? hget))
  rw [Manager.startEnabled, startAll_runtimes r.attempts hstarted m (by simp [hnone]) fun id hid => by
    obtain ⟨rule, hget, -⟩ := (hmem id).mp hid
    rw [hget]
    rfl, hmem, hnone]
  constructor
  · rintro (hsome | ⟨⟨rule, hget, henabled, hlive⟩, rule', hget', hpass, hstarts⟩)
    · cases hsome
    · cases hget.symm.trans hget'
      exact ⟨rule, hget, henabled, hlive, (hchecks rule hget).mp hpass, hstarts⟩
  · rintro ⟨rule, hget, henabled, hlive, hvalid, hstarts⟩
    exact .inr ⟨⟨rule, hget, henabled, hlive⟩, rule, hget, (hchecks rule hget).mpr hvalid, hstarts⟩

theorem healthy_load {config : List Rule} (htyped : ∀ rule ∈ config, rule.Typed)
    (hfree : ConflictFree config) (portMin portMax : Nat) :
    (Manager.load config portMin portMax).Healthy where
  sound := load_sound hfree portMin portMax
  nodup := Dict.nodup_keys_ofEntries _
  typed rule hrule := by
    obtain ⟨e, he, rfl⟩ := List.mem_map.mp hrule
    obtain ⟨rule, hmem, rfl⟩ := List.mem_map.mp (Dict.mem_ofEntries he)
    exact htyped rule hmem
  fileFree := hfree
  fileTyped := htyped

theorem Manager.Healthy.congr (h : m.Healthy) (hrules : m'.rules = m.rules)
    (hsaved : m'.saved = m.saved) : m'.Healthy where
  sound := h.sound.change (hrules ▸ .kept)
  nodup := hrules ▸ h.nodup
  typed := by
    rw [Manager.values, hrules]
    exact h.typed
  fileFree := hsaved ▸ h.fileFree
  fileTyped := hsaved ▸ h.fileTyped

/-- The daemon can read the file and comes back with the rules in it. -/
theorem Manager.Healthy.restart (h : m.Healthy) (r : Restart) : ∃ m', m.restart r = some m' ∧
    m'.Healthy ∧ m'.ports = m.ports ∧ m'.table = m.fileTable ∧ m'.fileTable = m.fileTable ∧
      ∀ id, (Dict.get? m'.runtimes id).isSome = true ↔
        ∃ rule, m'.table id = some rule ∧ rule.enabled = true ∧ isExpired r.now rule = false ∧
          validateRule rule m.portMin m.portMax = .ok () ∧ ¬ (r.attempts id).Fails rule := by
  have hload := healthy_load h.fileTyped h.fileFree m.portMin m.portMax
  have hread : m.restart r = some ((Manager.load m.saved m.portMin m.portMax).startEnabled r) := by
    rw [Manager.restart, readConfig_configFile h.fileTyped]
    rfl
  obtain ⟨hrules, hsaved, hports⟩ := startAll_frame r.attempts
    (((Manager.load m.saved m.portMin m.portMax).values.filter fun rule =>
      rule.enabled && !isExpired r.now rule).map (·.id)) (Manager.load m.saved m.portMin m.portMax)
  have htable : ((Manager.load m.saved m.portMin m.portMax).startEnabled r).table = m.fileTable :=
    congrArg Dict.get? hrules
  refine ⟨_, hread, hload.congr hrules hsaved, hports, htable, fileTable_congr hsaved, fun id => ?_⟩
  rw [htable]
  exact startEnabled_runtimes hload.sound hload.nodup rfl r id

-- ---------------------------------------------------------------------------
-- Runs
-- ---------------------------------------------------------------------------

def contents : Option Manager → Store Table
  | some m => ⟨m.table, m.fileTable⟩
  | none => ⟨fun _ => none, fun _ => none⟩

theorem Manager.Healthy.does {answered : Bool} (h : m.Healthy) (heffect : Effect m m' c answered)
    (hcovered : answered = true → m.answersUnchanged c = true → m.InSync) :
    Does (carryOut m.ports) (contents (some m)) (contents (some m')) c answered := by
  have hcarries := carried_carriedOut m c
  have hcarried : ({ m with rules := m.carriedOut c } : Manager).Sound := h.sound.change hcarries.change
  have htable := carriedOut_table h.nodup c
  have hfile : ∀ rules : List (String × Rule), (∀ e ∈ rules, e.2.id = e.1) → (Dict.keys rules).Nodup →
      m'.saved.Perm (rules.map Prod.snd) → m'.fileTable = Dict.get? rules :=
    fun rules hkeyed hnodup hsaved => load_perm hsaved hkeyed hnodup m'.portMin m'.portMax
  have hdone : m'.saved = toFile (m.carriedOut c) → m'.fileTable = carryOut m.ports m.table c :=
    fun hsaved => (hfile _ hcarried.keyed (hcarries.nodup h.nodup) (hsaved ▸ toFile_perm _)).trans htable
  constructor
  · rcases heffect.rules with hrules | hrules
    · exact .inl (congrArg Dict.get? hrules)
    · exact .inr ((congrArg Dict.get? hrules).trans htable)
  · rcases heffect.saved with hsaved | hsaved | hsaved
    · exact .inl (fileTable_congr hsaved)
    · exact .inr (.inl (hfile _ h.sound.keyed h.nodup (hsaved ▸ toFile_perm _)))
    · exact .inr (.inr (hdone hsaved))
  · intro hanswered
    obtain ⟨hrules, hsaved⟩ := heffect.done hanswered
    have hmemory : m'.table = carryOut m.ports m.table c := (congrArg Dict.get? hrules).trans htable
    refine ⟨hmemory, ?_⟩
    rcases hsaved with hsaved | ⟨hunchanged, hkept, hsaved⟩
    · exact hdone hsaved
    · -- the rule is in memory as it is, and the file holds what is there
      have hsync := hcovered hanswered hunchanged
      have hback := hfile _ h.sound.keyed h.nodup (hsaved ▸ hsync)
      exact hback.trans ((congrArg Dict.get? (hkept.symm.trans hrules)).trans htable)

/-- The daemon is up, with rules that can be written and read. -/
def Up (ports : Nat × Nat) (t : Option Manager) : Prop :=
  ∃ m, t = some m ∧ m.Healthy ∧ m.ports = ports

theorem Manager.Healthy.handle (h : m.Healthy) (s : Surroundings) (hc : c.Typed) :
    (m.handle s c).2.Healthy :=
  h.effect hc (handle_effect m s c)

theorem up_step {ports : Nat × Nat} {t : Option Manager} {e : DaemonEvent} (h : Up ports t)
    (he : e.Typed) : Up ports (daemonStep t e) := by
  obtain ⟨m, rfl, hhealthy, hports⟩ := h
  cases e with
  | request s c => exact ⟨_, rfl, hhealthy.handle s he, (handle_ports m s c).trans hports⟩
  | died r =>
    obtain ⟨m', hread, hhealthy', hports', -⟩ := hhealthy.restart r
    exact ⟨m', hread, hhealthy', hports'.trans hports⟩
  | cut s c writes r =>
    obtain ⟨m', hread, hhealthy', hports', -⟩ := (hhealthy.handle (s.cut writes) he).restart r
    exact ⟨m', hread, hhealthy', hports'.trans ((handle_ports m _ c).trans hports)⟩

theorem contents_restart (h : m.Healthy) (r : Restart) :
    contents (m.restart r) = (contents (some m)).crash := by
  obtain ⟨m', hread, -, -, htable, hfile, -⟩ := h.restart r
  rw [hread]
  simp only [contents, Store.crash, htable, hfile]

/-- An event carries out its request, or not, and a start brings back the file. -/
theorem moves_step {ports : Nat × Nat} {t : Option Manager} {e : DaemonEvent} (h : Up ports t)
    (he : e.Typed) (hcovered : Covered t e) :
    Moves (carryOut ports) (contents t) (witnessed t e) (contents (daemonStep t e)) := by
  obtain ⟨m, rfl, hhealthy, rfl⟩ := h
  cases e with
  | request s c => exact .answered (hhealthy.does (handle_effect m s c) fun _ => hcovered)
  | died r =>
    have hcrash := contents_restart hhealthy r
    have hstep : daemonStep (some m) (.died r) = m.restart r := rfl
    rw [hstep, hcrash]
    exact .crashed
  | cut s c writes r =>
    have heffect := handle_effect m (s.cut writes) c
    have hcrash := contents_restart (hhealthy.effect he heffect) r
    have hstep : daemonStep (some m) (.cut s c writes r) = (m.handle (s.cut writes) c).2.restart r := rfl
    rw [hstep, hcrash]
    have hunanswered : Effect m (m.handle (s.cut writes) c).2 c false :=
      ⟨heffect.rules, heffect.saved, by simp⟩
    exact .cut (hhealthy.does hunanswered (by simp))

/-- Whatever fails and whenever the daemon dies, as long as no upsert is
answered without a write while the file is behind: the daemon can always start
again, and the rules in memory, and those that a start brings back, are what
all requests that were answered well and some of the others make of the first
ones. They do not conflict, and of those that a start brings back the ones run
that are enabled and can be started. -/
theorem answered_survive {config : List Rule} (htyped : ∀ rule ∈ config, rule.Typed)
    (hfree : ConflictFree config) (portMin portMax : Nat) {events : List DaemonEvent}
    (hevents : ∀ e ∈ events, e.Typed)
    (hcovered : Along daemonStep Covered (some (Manager.load config portMin portMax)) events) :
    ∃ m, run daemonStep (some (Manager.load config portMin portMax)) events = some m ∧
      ConflictFree m.values ∧
      Outcome (carryOut (portMin, portMax)) (Manager.load config portMin portMax).table
        (record daemonStep witnessed (some (Manager.load config portMin portMax)) events) m.table ∧
      ∀ r : Restart, ∃ m', m.restart r = some m' ∧ ConflictFree m'.values ∧
        Outcome (carryOut (portMin, portMax)) (Manager.load config portMin portMax).table
          (record daemonStep witnessed (some (Manager.load config portMin portMax)) events) m'.table ∧
        ∀ id, (Dict.get? m'.runtimes id).isSome = true ↔
          ∃ rule, m'.table id = some rule ∧ rule.enabled = true ∧ isExpired r.now rule = false ∧
            validateRule rule portMin portMax = .ok () ∧ ¬ (r.attempts id).Fails rule := by
  have hstart : Up (portMin, portMax) (some (Manager.load config portMin portMax)) :=
    ⟨_, rfl, healthy_load htyped hfree portMin portMax, rfl⟩
  obtain ⟨m, hm, hhealthy, hports⟩ :=
    run_invariant_of hevents hstart fun t e he (h : Up (portMin, portMax) t) => up_step h he
  have hexplained : (contents (run daemonStep (some (Manager.load config portMin portMax)) events)).Explained
      (carryOut (portMin, portMax)) (Manager.load config portMin portMax).table
      ([] ++ record daemonStep witnessed (some (Manager.load config portMin portMax)) events) :=
    Store.Explained.run (explained_start _ _) hstart hevents hcovered (fun t e h he => up_step h he)
      fun t e h he => moves_step h he
  rw [hm, List.nil_append] at hexplained
  refine ⟨m, hm, hhealthy.sound.free, hexplained.memory, fun r => ?_⟩
  obtain ⟨m', hread, hhealthy', -, htable, -, hruntimes⟩ := hhealthy.restart r
  obtain ⟨hmin, hmax⟩ := Prod.ext_iff.mp hports
  refine ⟨m', hread, hhealthy'.sound.free, htable ▸ hexplained.disk, fun id => ?_⟩
  have hrun := hruntimes id
  rwa [show m.portMin = portMin from hmin, show m.portMax = portMax from hmax] at hrun

def startUp : Restart := ⟨0, fun _ => ⟨0, .ok (), .ok ()⟩⟩

/-- A rule is added, the daemon dies while it removes another, and it starts again. -/
def removalCut : List DaemonEvent :=
  [.died startUp, .request calm (.upsert (.ok (exampleRule "web" 20001))),
    .cut calm (.delete "nas") 0 startUp]

theorem answered_survive_removalCut :
    ∃ m, run daemonStep (some (Manager.load [exampleRule "nas" 20000] 20000 20020)) removalCut = some m ∧
      ConflictFree m.values := by
  have htyped : ∀ id port, port < 2 ^ 16 → (exampleRule id port).Typed := fun id port hport =>
    ⟨hport, by simp [exampleRule], by simp [exampleRule], by simp [exampleRule], by simp [exampleRule]⟩
  obtain ⟨m, hm, hfree, -⟩ := @answered_survive [exampleRule "nas" 20000] (by simp [htyped])
    (by decide) 20000 20020 removalCut
    (by simp [removalCut, DaemonEvent.Typed, Command.Typed, htyped]) (by decide +kernel)
  exact ⟨m, hm, hfree⟩

/-- The rule is in memory only when it is answered as unchanged, and lost. -/
example : (run daemonStep (some (Manager.load [exampleRule "nas" 20000] 20000 20020))
    [.died startUp,
      .request { calm with firstWrite := .error "No space left on device (os error 28)" }
        (.upsert (.ok (exampleRule "nas" 20005))),
      .request calm (.upsert (.ok (exampleRule "nas" 20005))), .died startUp]).map
        (fun m => m.values.map (·.listenPort)) = some [20000] := by
  decide +kernel

end LabProbe.Relay
