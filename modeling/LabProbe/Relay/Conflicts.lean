import LabProbe.Lib.Run
import LabProbe.Relay.Manager

/-!
# The rules on the agent do not conflict

A rule enters the map only past the check of its port, and every way out of
a request that failed puts back what was there. From a configuration without
conflicts no request leads to one, whatever fails on the way.
-/

namespace LabProbe.Relay

open Py Py.Json Check Runs

/-- No two rules of different identifiers share a port and a protocol. -/
def ConflictFree (rules : List Rule) : Prop :=
  ∀ a ∈ rules, ∀ b ∈ rules, rulesConflict a b = false

instance (rules : List Rule) : Decidable (ConflictFree rules) :=
  inferInstanceAs (Decidable (∀ a ∈ rules, ∀ b ∈ rules, _))

/-- The rules are kept by their identifiers and do not conflict. -/
structure Manager.Sound (m : Manager) : Prop where
  keyed : ∀ e ∈ m.rules, e.2.id = e.1
  free : ConflictFree m.values

def Manager.step (m : Manager) (request : Surroundings × Command) : Manager :=
  (m.handle request.1 request.2).2

-- ---------------------------------------------------------------------------
-- What a request can do to the rules
-- ---------------------------------------------------------------------------

variable {m : Manager} {s : Surroundings} {rule old : Rule} {id : String}

/-- The rules after a request: as before, with a checked rule, with a rule
switched on or off, or without one. -/
inductive Change (m : Manager) : List (String × Rule) → Prop where
  | kept : Change m m.rules
  | stored (rule : Rule) (h : m.ensurePortAvailable rule = .ok ()) :
    Change m (Dict.set m.rules rule.id rule)
  | switched (id : String) (rule : Rule) (enabled : Bool) (h : Dict.get? m.rules id = some rule) :
    Change m (Dict.set m.rules id { rule with enabled := enabled })
  | removed (id : String) : Change m (Dict.erase m.rules id)

theorem stopRule_change (now : Nat) (write : Except String Unit) (id : String) :
    Change m (m.stopRule now write id).2.rules := by
  unfold Manager.stopRule Manager.switch
  cases hget : Dict.get? m.rules id with
  | none => exact .kept
  | some rule =>
    cases write with
    | error e => exact .switched id rule false hget
    | ok u =>
      simp only [Manager.persist, Manager.markStopped_rules, Manager.stopRuntime_rules]
      exact .switched id rule false hget

theorem store_change (h : m.ensurePortAvailable rule = .ok ()) :
    Change m (m.store s rule).2.rules := by
  unfold Manager.store
  cases s.firstWrite with
  | error e => exact .stored rule h
  | ok u =>
    simp only [Manager.persist]
    cases henabled : rule.enabled with
    | true =>
      rw [if_pos rfl]
      split
      · rename_i answer started hstart
        have hrules := congrArg (fun out => out.2.rules) hstart
        rw [Manager.startRule_rules] at hrules
        rw [← hrules]
        exact .stored rule h
      · rename_i e started hstart
        have hrules := congrArg (fun out => out.2.rules) hstart
        rw [Manager.startRule_rules] at hrules
        rw [(Manager.rollBack_effect s e hrules.symm).2.1]
        exact .kept
    | false =>
      rw [if_neg Bool.false_ne_true]
      have hrules := (Manager.stopRule_put (m := m) s.now s.secondWrite
        { m.put rule.id rule with saved := (m.put rule.id rule).toSave } henabled rfl).2.1
      split <;>
      · rename_i hstop
        rw [hstop] at hrules
        rw [hrules]
        exact .stored rule h

theorem accept_change (rule : Rule) : Change m (m.accept s rule).2.rules := by
  unfold Manager.accept
  cases hchecks : m.checks rule with
  | error e => exact .kept
  | ok u =>
    dsimp only
    split
    · exact .kept
    · simp only [Manager.checks, bind_eq_ok] at hchecks
      obtain ⟨u, -, hfree⟩ := hchecks
      exact store_change hfree

theorem handle_change (m : Manager) (s : Surroundings) (c : Command) :
    Change m (m.handle s c).2.rules := by
  cases c with
  | upsert given =>
    cases given with
    | error e => exact .kept
    | ok given =>
      generalize hrule : normalizeRule given = rule
      rw [m.handle_upsert s given rule hrule]
      exact accept_change rule
  | start id =>
    simp only [Manager.handle, Manager.enableRule, Manager.switch]
    cases hget : Dict.get? m.rules id with
    | none => exact .kept
    | some rule =>
      cases s.firstWrite with
      | error e => exact .switched id rule true hget
      | ok u =>
        simp only [Manager.persist, Manager.startRule_rules]
        exact .switched id rule true hget
  | stop id => exact stopRule_change s.now s.firstWrite id
  | delete id =>
    have hrules : (m.handle s (.delete id)).2.rules = Dict.erase m.rules id := by
      simp only [Manager.handle, Manager.deleteRule]
      cases s.firstWrite <;> simp [Manager.persist, Manager.drop]
    rw [hrules]
    exact .removed id

-- ---------------------------------------------------------------------------
-- Runs
-- ---------------------------------------------------------------------------

theorem Manager.Sound.put (h : m.Sound) (hid : rule.id = id)
    (hfree : ∀ e ∈ m.rules, rulesConflict e.2 rule = false) : (m.put id rule).Sound := by
  constructor
  · intro e he
    rcases Manager.mem_put he with rfl | he
    · exact hid
    · exact h.keyed e he
  · intro a ha b hb
    obtain ⟨ea, hea, rfl⟩ := List.mem_map.mp ha
    obtain ⟨eb, heb, rfl⟩ := List.mem_map.mp hb
    rcases Manager.mem_put hea with rfl | hea <;> rcases Manager.mem_put heb with rfl | heb
    · exact rulesConflict_self rule
    · rw [rulesConflict_comm]
      exact hfree eb heb
    · exact hfree ea hea
    · exact h.free ea.2 (List.mem_map_of_mem hea) eb.2 (List.mem_map_of_mem heb)

theorem Manager.Sound.change (h : m.Sound) {m' : Manager} (hc : Change m m'.rules) : m'.Sound := by
  have hcongr : ∀ n : Manager, n.Sound → m'.rules = n.rules → m'.Sound := by
    intro n hn hrules
    refine ⟨hrules ▸ hn.keyed, ?_⟩
    rw [Manager.values, hrules]
    exact hn.free
  generalize hrules : m'.rules = rules at hc
  cases hc with
  | kept => exact hcongr m h hrules
  | stored rule hfree =>
    refine hcongr (m.put rule.id rule) (h.put rfl fun e he => ?_) hrules
    exact Manager.ensurePortAvailable_eq_ok.mp hfree e.2 (List.mem_map_of_mem he)
  | switched id rule enabled hget =>
    have hmem := Dict.mem_of_get? hget
    refine hcongr (m.put id { rule with enabled := enabled }) (h.put (h.keyed _ hmem) ?_) hrules
    exact fun e he => h.free e.2 (List.mem_map_of_mem he) rule (List.mem_map_of_mem hmem)
  | removed id =>
    refine hcongr (m.drop id) ⟨fun e he => h.keyed e (Dict.mem_erase.mp he).1, ?_⟩ hrules
    intro a ha b hb
    obtain ⟨ea, hea, rfl⟩ := List.mem_map.mp ha
    obtain ⟨eb, heb, rfl⟩ := List.mem_map.mp hb
    exact h.free _ (List.mem_map_of_mem (Dict.mem_erase.mp hea).1) _
      (List.mem_map_of_mem (Dict.mem_erase.mp heb).1)

theorem load_sound {config : List Rule} (h : ConflictFree config) (portMin portMax : Nat) :
    (Manager.load config portMin portMax).Sound := by
  have hentries : ∀ e ∈ (Manager.load config portMin portMax).rules,
      e.2.id = e.1 ∧ e.2 ∈ config := by
    intro e he
    have hget := Dict.get?_of_mem (Dict.nodup_keys_ofEntries _) (v := e.2) he
    rw [Dict.get?_ofEntries] at hget
    have hmem := List.mem_reverse.mp (Dict.mem_of_get? hget)
    obtain ⟨rule, hrule, heq⟩ := List.mem_map.mp hmem
    rw [Prod.ext_iff] at heq
    exact ⟨heq.2 ▸ heq.1, heq.2 ▸ hrule⟩
  refine ⟨fun e he => (hentries e he).1, fun a ha b hb => ?_⟩
  obtain ⟨ea, hea, rfl⟩ := List.mem_map.mp ha
  obtain ⟨eb, heb, rfl⟩ := List.mem_map.mp hb
  exact h _ (hentries ea hea).2 _ (hentries eb heb).2

/-- From a configuration without conflicts no run of requests leads to one. -/
theorem rules_never_conflict {config : List Rule} (h : ConflictFree config) (portMin portMax : Nat)
    (requests : List (Surroundings × Command)) :
    ConflictFree (run Manager.step (Manager.load config portMin portMax) requests).values :=
  (run_invariant (I := Manager.Sound) (load_sound h portMin portMax)
    fun m request hs => hs.change (handle_change m request.1 request.2)).free

def exampleRule (id : String) (port : Nat) : Rule :=
  { id := id, name := id, enabled := true, listenPort := port, targetIpv4 := "192.168.1.2"
    targetPort := 80 }

def calm : Surroundings :=
  { now := 0, firstWrite := .ok (), secondWrite := .ok ()
    firstStart := ⟨0, .ok (), .ok ()⟩, secondStart := ⟨0, .ok (), .ok ()⟩ }

theorem rules_never_conflict_nas :
    ConflictFree (run Manager.step (Manager.load [exampleRule "nas" 20000, exampleRule "web" 20001] 20000
      20020) [(calm, .upsert (.ok (exampleRule "web" 20000)))]).values :=
  rules_never_conflict (by decide) 20000 20020 _

end LabProbe.Relay
