import LabProbe.Lib.Placement
import LabProbe.PortMap.Reconcile
import LabProbe.PortMap.Stored
import LabProbe.PortMap.Sync
import Mathlib.Data.Nat.Pairing

/-!
# When the agent comes to have the desired rules

The Hub wants a rule under each identifier and at each port, the agent
refuses a rule whose port another one has, and a pass moves what the agent
has towards what is wanted. The passes bring both together exactly when
every desired port becomes free in the end. Rules that exchange their ports
stay as they are, and are sent again and again.
-/

namespace LabProbe.PortMap

open Py Py.Json Hub Placement Runs

section
variable [Unicode]

def agentRule (row : Entries) : Relay.Rule := (Relay.acceptRule row).getD {}

/-- The rules the Hub wants the agent to have. -/
def rulePlan (raw : Option Json) : Plan String Relay.Rule (Int × String) where
  wanted := (desiredRules raw).map fun e => (e.1, agentRule e.2)
  place rule := slot rule.toJson
  settled id rule := (Dict.get? (desiredRules raw) id).any fun row => upToDate (withLease row rule) row
  ours e := e.2.kind == "portmap" && cleanSavedValue (.str e.1) != ""

/-- Rules that both sides accept, as requests store them, with identifiers and
ports of their own. -/
structure Deliverable (raw : Option Json) : Prop where
  distinct : Sound raw
  stored : ∀ row ∈ documentRows raw, Stored row
  accepted : ∀ row ∈ loadPortmapRules raw, (Relay.acceptRule row).isSome

/-- An agent whose rules have passed its checks, and of which no STUN rule has
the identifier of a port map. -/
structure Prepared (raw : Option Json) (agent : Relay.Manager) : Prop where
  sound : agent.Sound
  nodup : (Dict.keys agent.rules).Nodup
  ports : agent.ports = (20000, 20020)
  valid : ∀ e ∈ agent.rules, Relay.validateRule e.2 20000 20020 = .ok ()
  apart : ∀ e ∈ agent.rules, e.1 ∈ Dict.keys (desiredRules raw) → e.2.kind = "portmap"

/-- No desired rule has expired when it is started, and every port can be bound. -/
def Pass.Works (raw : Option Json) (p : Pass) : Prop :=
  ∀ i, ∀ e ∈ desiredRules raw, (agentRule e.2).enabled = true →
    ¬ (p.surroundings i).firstStart.Fails (agentRule e.2)

/-- The report asks for nothing, and no command of the router is open. -/
def Settled (raw : Option Json) (router : String) (s : Sync) : Prop :=
  (∀ p : Pass, statusRequests raw (p.report s.agent) = []) ∧
    ∀ c ∈ s.commands, c.router = router → c.unfinished = false

variable {raw : Option Json} {router : String} {row : Entries} {agent : Relay.Manager} {rule : Relay.Rule}
  {e : String × Entries} {id : String} {held : List (String × Relay.Rule)}

-- ---------------------------------------------------------------------------
-- Identifiers
-- ---------------------------------------------------------------------------

omit [Unicode] in
theorem isSpace_of_isIdChar {c : Char} (h : Relay.isIdChar c = true) : isSpace c = false := by
  simp only [Relay.isIdChar, Bool.or_eq_true, beq_iff_eq] at h
  rcases h with (h | rfl) | rfl
  · exact isSpace_of_isAlphanum h
  · decide
  · decide

theorem cleanSavedValue_id (h : ∀ c ∈ id.toList, Relay.isIdChar c = true) :
    cleanSavedValue (.str id) = id ∨ cleanSavedValue (.str id) = "" := by
  have hspace : ∀ c ∈ id.toList, isSpace c = false := fun c hc => isSpace_of_isIdChar (h c hc)
  have hstrip : strip id = id := strip_of_noSpace hspace
  have htext : strip (toStr (.str id)) = id := hstrip
  simp only [cleanSavedValue, htext]
  split
  · exact .inr rfl
  · exact .inl rfl

theorem mem_desiredRules (h : e ∈ desiredRules raw) :
    e.2 ∈ loadPortmapRules raw ∧ e.1 = cleanSavedValue (get e.2 "id") ∧ e.1 ≠ "" := by
  obtain ⟨hmem, hne⟩ := List.mem_filter.mp (Dict.mem_ofEntries h)
  obtain ⟨row, hrow, rfl⟩ := List.mem_map.mp hmem
  exact ⟨hrow, rfl, by simpa using hne⟩

theorem nodup_desiredRules (raw : Option Json) : (Dict.keys (desiredRules raw)).Nodup :=
  Dict.nodup_keys_ofEntries _

structure Delivers (raw : Option Json) (e : String × Entries) : Prop where
  accepts : Relay.acceptRule e.2 = some (agentRule e.2)
  id : (agentRule e.2).id = e.1
  kind : (agentRule e.2).kind = "portmap"
  same : upToDate (withLease e.2 (agentRule e.2)) e.2 = true
  clean : cleanSavedValue (.str e.1) = e.1
  named : e.1 ≠ ""

theorem Deliverable.delivers (h : Deliverable raw) (he : e ∈ desiredRules raw) : Delivers raw e := by
  obtain ⟨hmem, hkey, hne⟩ := mem_desiredRules he
  obtain ⟨applied, haccept⟩ := Option.isSome_iff_exists.mp (h.accepted e.2 hmem)
  have happlied : agentRule e.2 = applied := by rw [agentRule, haccept, Option.getD_some]
  obtain ⟨hid, hkind, hsame⟩ :=
    (h.stored e.2 ((loadPortmapRules_sublist raw).subset hmem)).onAgent haccept
  obtain ⟨-, -, -, hvalid⟩ := Relay.acceptRule_eq_some.mp haccept
  have hchars := (Relay.validateRule_eq_ok.mp hvalid).1.2
  rw [hid] at hkey
  have hclean : cleanSavedValue (.str applied.id) = applied.id :=
    (cleanSavedValue_id hchars).resolve_right fun hempty => hne (hkey.trans hempty)
  rw [hclean] at hkey
  exact {
    accepts := by rw [happlied, haccept]
    id := by rw [happlied, hkey]
    kind := by rw [happlied, hkind]
    same := by rw [happlied, hsame]
    clean := by rw [hkey, hclean]
    named := hne }

-- ---------------------------------------------------------------------------
-- The plan
-- ---------------------------------------------------------------------------

omit [Unicode] in
theorem mem_wanted [Unicode] {w : String × Relay.Rule} (h : w ∈ (rulePlan raw).wanted) :
    ∃ e ∈ desiredRules raw, w = (e.1, agentRule e.2) := by
  obtain ⟨e, he, rfl⟩ := List.mem_map.mp h
  exact ⟨e, he, rfl⟩

theorem keys_wanted (raw : Option Json) :
    Dict.keys (rulePlan raw).wanted = Dict.keys (desiredRules raw) := by
  rw [rulePlan, Dict.keys, Dict.keys, List.map_map]
  rfl

theorem settled_desired (he : e ∈ desiredRules raw) (rule : Relay.Rule) :
    (rulePlan raw).settled e.1 rule = upToDate (withLease e.2 rule) e.2 := by
  have hget : Dict.get? (desiredRules raw) e.1 = some e.2 :=
    Dict.get?_of_mem (nodup_desiredRules raw) he
  simp only [rulePlan, hget, Option.any_some]

theorem Deliverable.slot_eq (h : Deliverable raw) (he : e ∈ desiredRules raw)
    (hsame : upToDate (withLease e.2 rule) e.2 = true) : slot rule.toJson = slot e.2 :=
  (h.stored e.2 ((loadPortmapRules_sublist raw).subset (mem_desiredRules he).1)).slot_eq hsame

theorem Deliverable.inj (h : Deliverable raw) {e' : String × Entries} (he : e ∈ desiredRules raw)
    (he' : e' ∈ desiredRules raw) (hslot : slot e.2 = slot e'.2) : e.1 = e'.1 := by
  have hrow : e.2 = e'.2 := (h.distinct.distinct.sublist (loadPortmapRules_sublist raw)).inj_slot
    (mem_desiredRules he).1 (mem_desiredRules he').1 hslot
  rw [(mem_desiredRules he).2.1, (mem_desiredRules he').2.1, hrow]

theorem Deliverable.plan_sound (h : Deliverable raw) : (rulePlan raw).Sound where
  nodup := by
    rw [keys_wanted]
    exact nodup_desiredRules raw
  apart w hw w' hw' hplace := by
    obtain ⟨e, he, rfl⟩ := mem_wanted hw
    obtain ⟨e', he', rfl⟩ := mem_wanted hw'
    have hslot : slot (agentRule e.2).toJson = slot (agentRule e'.2).toJson := hplace
    rw [h.slot_eq he (h.delivers he).same, h.slot_eq he' (h.delivers he').same] at hslot
    exact h.inj he he' hslot
  does w hw := by
    obtain ⟨e, he, rfl⟩ := mem_wanted hw
    exact (settled_desired he _).trans (h.delivers he).same
  placed w hw rule hsettled := by
    obtain ⟨e, he, rfl⟩ := mem_wanted hw
    have hsame : upToDate (withLease e.2 rule) e.2 = true := (settled_desired he rule).symm.trans hsettled
    exact (h.slot_eq he hsame).trans (h.slot_eq he (h.delivers he).same).symm
  ours w hw := by
    obtain ⟨e, he, rfl⟩ := mem_wanted hw
    have hd := h.delivers he
    simp [rulePlan, hd.kind, hd.clean, hd.named]

theorem slot_of_valid (h : Relay.validateRule rule 20000 20020 = .ok ()) :
    slot rule.toJson = ((rule.listenPort : Int), rule.transportProtocol) ∧
      (rule.transportProtocol = "TCP" ∨ rule.transportProtocol = "UDP") := by
  obtain ⟨-, -, -, ⟨-, hport⟩, -, hprotocol, -⟩ := Relay.validateRule_eq_ok.mp h
  exact ⟨Prod.ext (toInt_int (natAbs_lt_limit (by omega)) _) (upper_transport hprotocol), hprotocol⟩

/-- The agent's check of the port, by the port as the Hub reads it. -/
theorem rulesConflict_iff {a b : Relay.Rule} (ha : Relay.validateRule a 20000 20020 = .ok ())
    (hb : Relay.validateRule b 20000 20020 = .ok ()) :
    Relay.rulesConflict a b = true ↔ a.id ≠ b.id ∧ slot a.toJson = slot b.toJson := by
  obtain ⟨hslot, hprotocol⟩ := slot_of_valid ha
  obtain ⟨hslot', hprotocol'⟩ := slot_of_valid hb
  have hcase : Relay.eqIgnoreAsciiCase a.transportProtocol b.transportProtocol = true ↔
      a.transportProtocol = b.transportProtocol := by
    rcases hprotocol with h | h <;> rcases hprotocol' with h' | h' <;> rw [h, h'] <;> decide
  rw [hslot, hslot', Prod.mk.injEq, Relay.rulesConflict]
  simp only [Bool.and_eq_true, bne_iff_ne, ne_eq, beq_iff_eq, hcase, Int.natCast_inj, and_assoc]

theorem Prepared.kept (h : Prepared raw agent) (hdoc : Deliverable raw) :
    (rulePlan raw).Kept agent.rules where
  nodup := h.nodup
  apart a ha b hb hplace := by
    have hfree := h.sound.free a.2 (List.mem_map_of_mem ha) b.2 (List.mem_map_of_mem hb)
    by_contra hne
    have hids : a.2.id ≠ b.2.id := by rwa [h.sound.keyed a ha, h.sound.keyed b hb]
    rw [(rulesConflict_iff (h.valid a ha) (h.valid b hb)).mpr ⟨hids, hplace⟩] at hfree
    cases hfree
  ours a ha hkey := by
    rw [keys_wanted] at hkey
    obtain ⟨e, he, hsame⟩ := List.mem_map.mp hkey
    have hd := hdoc.delivers he
    simp [rulePlan, h.apart a ha hkey, ← hsame, hd.clean, hd.named]

-- ---------------------------------------------------------------------------
-- Commands
-- ---------------------------------------------------------------------------

def toRequest (raw : Option Json) : Act String Relay.Rule → Request
  | .put e => upsertRequest ((Dict.get? (desiredRules raw) e.1).getD [])
  | .remove id => deleteRequest id

theorem toRequest_put (he : e ∈ desiredRules raw) :
    toRequest raw (.put (e.1, agentRule e.2)) = upsertRequest e.2 := by
  rw [toRequest, Dict.get?_of_mem (nodup_desiredRules raw) he, Option.getD_some]

structure Holds (agent : Relay.Manager) (held : List (String × Relay.Rule)) : Prop where
  rules : agent.rules = held
  ports : agent.ports = (20000, 20020)
  keyed : ∀ e ∈ held, e.2.id = e.1
  valid : ∀ e ∈ held, Relay.validateRule e.2 20000 20020 = .ok ()

/-- The agent stores a desired rule when no other rule has its port. -/
theorem Holds.put (h : Holds agent held) (hdoc : Deliverable raw) (he : e ∈ desiredRules raw)
    {s : Relay.Surroundings} (hstarts : (agentRule e.2).enabled = true →
      ¬ s.firstStart.Fails (agentRule e.2)) (unread : String) :
    Holds (agent.handle s (agentCommand unread (upsertRequest e.2))).2
      ((rulePlan raw).act held (.put (e.1, agentRule e.2))) := by
  have hd := hdoc.delivers he
  obtain ⟨given, hread, hnormal, hvalid⟩ := Relay.acceptRule_eq_some.mp hd.accepts
  have hcommand : agentCommand unread (upsertRequest e.2) = .upsert (.ok given) := by
    have hrule : get (upsertRequest e.2).payload "rule" = .dict e.2 := rfl
    simp only [agentCommand, upsertRequest] at hrule ⊢
    rw [hrule]
    dsimp only
    rw [hread]
    rfl
  have hchecks : agent.checks (agentRule e.2) = .ok () ↔
      (rulePlan raw).free held (e.1, agentRule e.2) = true := by
    obtain ⟨hmin, hmax⟩ := Prod.ext_iff.mp h.ports
    have hmin' : agent.portMin = 20000 := hmin
    have hmax' : agent.portMax = 20020 := hmax
    rw [Relay.Manager.checks, hmin', hmax', hvalid, Plan.free_eq_true]
    refine Relay.Manager.ensurePortAvailable_eq_ok.trans ?_
    rw [Relay.Manager.values, h.rules, List.forall_mem_map]
    refine forall₂_congr fun other hother => ?_
    rw [Bool.eq_false_iff, ne_eq, rulesConflict_iff (h.valid other hother) hvalid,
      h.keyed other hother, hd.id]
    exact ⟨fun hno hplace => by_contra fun hne => hno ⟨hne, hplace⟩,
      fun himp hboth => hboth.1 (himp hboth.2)⟩
  rw [hcommand, agent.handle_upsert s given (agentRule e.2) hnormal]
  refine ⟨?_, Relay.accept_ports.trans h.ports, ?_, ?_⟩
  · rw [Relay.accept_rules hstarts, h.rules, hd.id, Plan.act]
    exact if_congr hchecks rfl rfl
  · intro other hother
    rcases Plan.mem_act hother with hput | hother
    · cases hput
      exact hd.id
    · exact h.keyed other hother
  · intro other hother
    rcases Plan.mem_act hother with hput | hother
    · cases hput
      exact hvalid
    · exact h.valid other hother

theorem Holds.remove (h : Holds agent held) (s : Relay.Surroundings) (unread id : String) :
    Holds (agent.handle s (agentCommand unread (deleteRequest id))).2
      ((rulePlan raw).act held (.remove id)) := by
  have hcommand : agentCommand unread (deleteRequest id) = .delete id := rfl
  rw [hcommand]
  refine ⟨?_, Relay.handle_delete_ports.trans h.ports, ?_, ?_⟩
  · rw [Relay.handle_delete_rules, h.rules]
    rfl
  · exact fun e he => h.keyed e (Dict.mem_erase.mp he).1
  · exact fun e he => h.valid e (Dict.mem_erase.mp he).1

-- ---------------------------------------------------------------------------
-- The report
-- ---------------------------------------------------------------------------

def reportedRules (raw : Option Json) (agent : Relay.Manager) : List (String × Entries) :=
  ((agent.ofKind "portmap").filter fun rule => cleanSavedValue (.str rule.id) != "").map fun rule =>
    (rule.id, withLease ((Dict.get? (desiredRules raw) rule.id).getD []) rule)

omit [Unicode] in
theorem Holds.mem_ofKind (h : Holds agent held) :
    rule ∈ agent.ofKind "portmap" ↔ (rule.id, rule) ∈ held ∧ rule.kind = "portmap" := by
  rw [(agent.ofKind_perm "portmap").mem_iff, List.mem_filter, Relay.Manager.values, h.rules,
    List.mem_map, beq_iff_eq]
  refine and_congr_left fun _ => ⟨?_, fun hmem => ⟨_, hmem, rfl⟩⟩
  rintro ⟨e, he, rfl⟩
  rwa [h.keyed e he]

theorem Holds.mem_reportedRules (h : Holds agent held) {x : Entries} :
    (id, x) ∈ reportedRules raw agent ↔ ∃ rule, (id, rule) ∈ held ∧
      (rulePlan raw).ours (id, rule) = true ∧
        x = withLease ((Dict.get? (desiredRules raw) id).getD []) rule := by
  simp only [reportedRules, List.mem_map, List.mem_filter, h.mem_ofKind, Prod.mk.injEq, rulePlan,
    Bool.and_eq_true, beq_iff_eq, bne_iff_ne]
  constructor
  · rintro ⟨rule, ⟨⟨hmem, hkind⟩, hclean⟩, rfl, rfl⟩
    exact ⟨rule, hmem, ⟨hkind, hclean⟩, rfl⟩
  · rintro ⟨rule, hmem, ⟨hkind, hclean⟩, rfl⟩
    have hid : rule.id = id := h.keyed _ hmem
    subst hid
    exact ⟨rule, ⟨⟨hmem, hkind⟩, hclean⟩, rfl, rfl⟩

theorem Holds.nodup_reportedRules (h : Holds agent held) (hnodup : (Dict.keys held).Nodup) :
    (Dict.keys (reportedRules raw agent)).Nodup := by
  have hids : (agent.values.map fun rule => rule.id).Nodup := by
    rw [Relay.Manager.values, h.rules, List.map_map]
    rwa [Dict.keys, ← List.map_congr_left fun e he => h.keyed e he] at hnodup
  have hkind : ((agent.ofKind "portmap").map fun rule => rule.id).Nodup :=
    ((agent.ofKind_perm "portmap").map _).nodup_iff.mpr (hids.sublist (List.filter_sublist.map _))
  rw [reportedRules, Dict.keys, List.map_map]
  exact hkind.sublist (List.filter_sublist.map _)

def normalRow (raw : Option Json) (p : Pass) (rule : Relay.Rule) : Entries :=
  asDict (normalizeRow (desiredRules raw)
    (.dict [("rule", .dict rule.toJson), ("runtime", .dict (p.runtime rule))]))

theorem normalRow_rule (p : Pass) (hne : rule.id ≠ "") :
    reportedId (normalRow raw p rule) = cleanSavedValue (.str rule.id) ∧
      asDict (get (normalRow raw p rule) "rule") =
        withLease ((Dict.get? (desiredRules raw) (cleanSavedValue (.str rule.id))).getD []) rule := by
  have hor : (Json.str rule.id).or (get (p.runtime rule) "id") = .str rule.id := by
    rw [Json.or, if_pos]
    simpa [truthy] using hne
  have hid : reportedId [("rule", .dict rule.toJson), ("runtime", .dict (p.runtime rule))] =
      cleanSavedValue (.str rule.id) := congrArg cleanSavedValue hor
  have hkept := reportedId_normalizeRow (desiredRules raw)
    (.dict [("rule", .dict rule.toJson), ("runtime", .dict (p.runtime rule))])
  refine ⟨(Option.some.inj hkept).trans hid, ?_⟩
  rw [← hid]
  rfl

theorem reportRows_report (agent : Relay.Manager) (p : Pass) :
    reportRows (asDict (normalizePortmapPayload raw (p.report agent))) =
      (agent.ofKind "portmap").map (normalRow raw p) := by
  have hreport : reportRows (asDict (normalizePortmapPayload raw (p.report agent))) =
      (((agent.ofKind "portmap").map fun rule => Json.dict
        [("rule", .dict rule.toJson), ("runtime", .dict (p.runtime rule))]).map
          (normalizeRow (desiredRules raw))).filterMap dict? := rfl
  rw [hreport, List.map_map, List.filterMap_map]
  exact congrFun List.filterMap_eq_map _

theorem Holds.localRules (h : Holds agent held) (p : Pass) :
    PortMap.localRules (asDict (normalizePortmapPayload raw (p.report agent))) =
      Dict.ofEntries (reportedRules raw agent) := by
  have hvalid : ∀ rule ∈ agent.ofKind "portmap",
      rule.id ≠ "" ∧ ∀ c ∈ rule.id.toList, Relay.isIdChar c = true := fun rule hrule =>
    (Relay.validateRule_eq_ok.mp (h.valid _ (h.mem_ofKind.mp hrule).1)).1
  have hrows : (agent.ofKind "portmap").map
      ((fun row => (reportedId row, asDict (get row "rule"))) ∘ normalRow raw p) =
        (agent.ofKind "portmap").map fun rule => (cleanSavedValue (.str rule.id),
          withLease ((Dict.get? (desiredRules raw) (cleanSavedValue (.str rule.id))).getD []) rule) :=
    List.map_congr_left fun rule hrule =>
      Prod.ext (normalRow_rule p (hvalid rule hrule).1).1 (normalRow_rule p (hvalid rule hrule).1).2
  rw [PortMap.localRules, reportRows_report, List.map_map, hrows, List.filter_map]
  refine congrArg Dict.ofEntries (List.map_congr_left fun rule hrule => ?_)
  obtain ⟨hmem, hclean⟩ := List.mem_filter.mp hrule
  have hne : cleanSavedValue (.str rule.id) ≠ "" := by simpa using hclean
  have hid := (cleanSavedValue_id (hvalid rule hmem).2).resolve_right hne
  rw [hid]

theorem Holds.any_upToDate (h : Holds agent held) (hkept : (rulePlan raw).Kept held) (p : Pass)
    (he : e ∈ desiredRules raw) :
    ((Dict.get? (PortMap.localRules (asDict (normalizePortmapPayload raw (p.report agent)))) e.1).any
        fun row => upToDate row e.2) = (Dict.get? held e.1).any ((rulePlan raw).settled e.1) := by
  have hnodup : (Dict.keys (reportedRules raw agent)).Nodup := h.nodup_reportedRules hkept.nodup
  have hperm : Dict.get? (Dict.ofEntries (reportedRules raw agent)) e.1 =
      Dict.get? (reportedRules raw agent) e.1 := by
    rw [Dict.get?_ofEntries]
    exact Dict.get?_perm (hnodup.perm (((List.reverse_perm _).map _).symm)) (List.reverse_perm _) _
  have hdesired : Dict.get? (desiredRules raw) e.1 = some e.2 :=
    Dict.get?_of_mem (nodup_desiredRules raw) he
  rw [h.localRules, hperm]
  cases hget : Dict.get? held e.1 with
  | none =>
    have hnone : Dict.get? (reportedRules raw agent) e.1 = none := by
      rw [Dict.get?_eq_none]
      intro hkey
      obtain ⟨⟨key, x⟩, hmem, hsame⟩ := List.mem_map.mp hkey
      obtain rfl : key = e.1 := hsame
      obtain ⟨rule, hmem, -⟩ := h.mem_reportedRules.mp hmem
      exact Dict.get?_eq_none.mp hget (List.mem_map_of_mem hmem)
    rw [hnone]
    rfl
  | some rule =>
    have hmem := Dict.mem_of_get? hget
    have hkey : (e.1, rule).1 ∈ Dict.keys (rulePlan raw).wanted := by
      rw [keys_wanted]
      exact List.mem_map_of_mem he
    have hrow : (e.1, withLease e.2 rule) ∈ reportedRules raw agent := by
      rw [h.mem_reportedRules]
      exact ⟨rule, hmem, hkept.ours _ hmem hkey, by rw [hdesired, Option.getD_some]⟩
    rw [Dict.get?_of_mem hnodup hrow, Option.any_some, Option.any_some, settled_desired he]

theorem Holds.mem_localRules (h : Holds agent held) (p : Pass) :
    id ∈ Dict.keys (PortMap.localRules (asDict (normalizePortmapPayload raw (p.report agent)))) ↔
      ∃ rule, (id, rule) ∈ held ∧ (rulePlan raw).ours (id, rule) = true := by
  rw [h.localRules, Dict.mem_keys_ofEntries, Dict.keys, List.mem_map]
  constructor
  · rintro ⟨⟨key, x⟩, hmem, rfl⟩
    obtain ⟨rule, hheld, hours, -⟩ := h.mem_reportedRules.mp hmem
    exact ⟨rule, hheld, hours⟩
  · rintro ⟨rule, hheld, hours⟩
    exact ⟨_, h.mem_reportedRules.mpr ⟨rule, hheld, hours, rfl⟩, rfl⟩

/-- The Hub asks for what the plan asks for, the removals in the order of the report. -/
theorem Holds.statusRequests (h : Holds agent held) (hkept : (rulePlan raw).Kept held) (p : Pass) :
    ∃ asked : List (Act String Relay.Rule), asked.Perm ((rulePlan raw).asks held) ∧
      PortMap.statusRequests raw (p.report agent) = asked.map (toRequest raw) := by
  have hpayload : PortMap.statusRequests raw (p.report agent) =
      reconcile raw (asDict (normalizePortmapPayload raw (p.report agent))) := rfl
  refine ⟨((rulePlan raw).due held).map .put ++
    ((Dict.keys (PortMap.localRules (asDict (normalizePortmapPayload raw (p.report agent))))).filter
      fun id => !(Dict.keys (desiredRules raw)).contains id).map .remove, ?_, ?_⟩
  · have hsurplus : ((rulePlan raw).surplus held).map (fun e => Act.remove e.1) =
        ((Dict.keys ((rulePlan raw).surplus held)).map .remove : List (Act String Relay.Rule)) := by
      rw [Dict.keys, List.map_map]
      rfl
    rw [Plan.asks, hsurplus]
    refine List.Perm.append_left _ (List.Perm.map _ ?_)
    refine (List.perm_ext_iff_of_nodup ?_ (Dict.nodup_keys_filter _ hkept.nodup)).mpr fun id => ?_
    · exact (Dict.nodup_keys_ofEntries _).filter _
    · change _ ↔ id ∈ ((rulePlan raw).surplus held).map Prod.fst
      rw [List.mem_filter, h.mem_localRules, List.mem_map]
      simp only [Bool.not_eq_true', List.contains_eq_mem, decide_eq_false_iff_not]
      constructor
      · rintro ⟨⟨rule, hheld, hours⟩, hnot⟩
        exact ⟨(id, rule), Plan.mem_surplus.mpr ⟨hheld, hours, by rwa [keys_wanted]⟩, rfl⟩
      · rintro ⟨⟨key, rule⟩, hmem, rfl⟩
        obtain ⟨hheld, hours, hnot⟩ := Plan.mem_surplus.mp hmem
        exact ⟨⟨rule, hheld, hours⟩, by rwa [keys_wanted] at hnot⟩
  · rw [hpayload, reconcile, List.map_append, List.map_map, List.map_map]
    congr 1
    have hdue : (rulePlan raw).due held =
        ((desiredRules raw).filter fun e =>
          !(Dict.get? held e.1).any ((rulePlan raw).settled e.1)).map fun e => (e.1, agentRule e.2) := by
      rw [Plan.due, rulePlan, List.filter_map]
      rfl
    have hfilter : ((desiredRules raw).filter fun e => !(Dict.get? (PortMap.localRules
        (asDict (normalizePortmapPayload raw (p.report agent)))) e.1).any fun row => upToDate row e.2) =
          (desiredRules raw).filter fun e =>
            !(Dict.get? held e.1).any ((rulePlan raw).settled e.1) :=
      List.filter_congr fun e he => by rw [h.any_upToDate hkept p he]
    rw [hdue, List.map_map, hfilter]
    refine List.map_congr_left fun e he => ?_
    exact (toRequest_put (List.mem_filter.mp he).1).symm

-- ---------------------------------------------------------------------------
-- What may be asked for
-- ---------------------------------------------------------------------------

/-- All that a report can ask for after the rules were the given ones. -/
def offers (raw : Option Json) (held : List (String × Relay.Rule)) : List (Act String Relay.Rule) :=
  (rulePlan raw).wanted.map .put ++ ((rulePlan raw).surplus held).map fun e => .remove e.1

variable {a b : Act String Relay.Rule} {acts : List (Act String Relay.Rule)}

theorem mem_offers : a ∈ offers raw held ↔ (∃ e ∈ desiredRules raw, a = .put (e.1, agentRule e.2)) ∨
    ∃ e ∈ (rulePlan raw).surplus held, a = .remove e.1 := by
  rw [offers, List.mem_append, List.mem_map, List.mem_map]
  refine or_congr ⟨?_, ?_⟩ (exists_congr fun e => and_congr_right fun _ => eq_comm)
  · rintro ⟨w, hw, rfl⟩
    obtain ⟨e, he, rfl⟩ := mem_wanted hw
    exact ⟨e, he, rfl⟩
  · rintro ⟨e, he, rfl⟩
    exact ⟨_, List.mem_map_of_mem he, rfl⟩

theorem asks_subset_offers {held' : List (String × Relay.Rule)}
    (h : (rulePlan raw).surplus held' ⊆ (rulePlan raw).surplus held) :
    (rulePlan raw).asks held' ⊆ offers raw held := by
  intro a ha
  rcases List.mem_append.mp ha with ha | ha
  · obtain ⟨e, he, rfl⟩ := List.mem_map.mp ha
    exact List.mem_append_left _ (List.mem_map_of_mem (Plan.mem_due.mp he).1)
  · obtain ⟨e, he, rfl⟩ := List.mem_map.mp ha
    exact List.mem_append_right _ (List.mem_map.mpr ⟨e, h he, rfl⟩)

def actKey : Act String Relay.Rule → String
  | .put e => e.1
  | .remove id => id

theorem Holds.ruleId (h : Holds agent held) (ha : a ∈ offers raw held) :
    (toRequest raw a).ruleId = actKey a := by
  rcases mem_offers.mp ha with ⟨e, he, rfl⟩ | ⟨e, he, rfl⟩
  · rw [toRequest_put he]
    exact (mem_desiredRules he).2.1.symm
  · obtain ⟨hmem, hours, -⟩ := Plan.mem_surplus.mp he
    have hchars := (Relay.validateRule_eq_ok.mp (h.valid e hmem)).1.2
    rw [h.keyed e hmem] at hchars
    simp only [rulePlan, Bool.and_eq_true, bne_iff_ne] at hours
    exact (cleanSavedValue_id hchars).resolve_right hours.2

theorem Holds.toRequest_inj (h : Holds agent held) (ha : a ∈ offers raw held) (hb : b ∈ offers raw held)
    (haction : (toRequest raw a).action = (toRequest raw b).action)
    (hid : (toRequest raw a).ruleId = (toRequest raw b).ruleId) : a = b := by
  rw [h.ruleId ha, h.ruleId hb] at hid
  rcases mem_offers.mp ha with ⟨e, he, rfl⟩ | ⟨e, -, rfl⟩ <;>
    rcases mem_offers.mp hb with ⟨e', he', rfl⟩ | ⟨e', -, rfl⟩
  · have hrow : e.2 = e'.2 := by
      have hget := Dict.get?_of_mem (nodup_desiredRules raw) he
      have hkey : e.1 = e'.1 := hid
      rw [hkey, Dict.get?_of_mem (nodup_desiredRules raw) he'] at hget
      exact (Option.some.inj hget).symm
    rw [show e = e' from Prod.ext hid hrow]
  · cases haction
  · cases haction
  · exact congrArg Act.remove hid

theorem Holds.mem_requests (h : Holds agent held) (hacts : acts ⊆ offers raw held)
    (ha : a ∈ offers raw held) : toRequest raw a ∈ acts.map (toRequest raw) ↔ a ∈ acts := by
  refine ⟨fun hmem => ?_, List.mem_map_of_mem⟩
  obtain ⟨b, hb, heq⟩ := List.mem_map.mp hmem
  rwa [← h.toRequest_inj (hacts hb) ha (congrArg Request.action heq) (congrArg Request.ruleId heq)]

theorem Holds.length_offers (h : Holds agent held) (hkept : (rulePlan raw).Kept held)
    (hdoc : Deliverable raw) : (offers raw held).length ≤ 84 := by
  have hwanted : (rulePlan raw).wanted.length ≤ 42 := by
    have hsub : Dict.keys (desiredRules raw) ⊆
        (loadPortmapRules raw).map fun row => cleanSavedValue (get row "id") := by
      intro id hid
      obtain ⟨e, he, rfl⟩ := List.mem_map.mp hid
      exact List.mem_map.mpr ⟨e.2, (mem_desiredRules he).1, (mem_desiredRules he).2.1.symm⟩
    have hle := (List.subperm_of_subset (nodup_desiredRules raw) hsub).length_le
    rw [Dict.keys, List.length_map, List.length_map] at hle
    rw [rulePlan, List.length_map]
    exact hle.trans hdoc.distinct.length_le
  have hheld : held.length ≤ 42 := by
    have hnodup : (held.map fun e => slot e.2.toJson).Nodup := by
      refine List.Nodup.map_on (fun a ha b hb hplace => ?_) (List.Nodup.of_map _ hkept.nodup)
      exact List.inj_on_of_nodup_map hkept.nodup ha hb (hkept.apart a ha b hb hplace)
    have hsub : (held.map fun e => slot e.2.toJson) ⊆ portSlots := by
      intro s hs
      obtain ⟨e, he, rfl⟩ := List.mem_map.mp hs
      obtain ⟨hslot, hprotocol⟩ := slot_of_valid (h.valid e he)
      obtain ⟨hlo, hhi⟩ := (Relay.validateRule_eq_ok.mp (h.valid e he)).2.2.2.1
      obtain ⟨i, hi⟩ := Nat.exists_eq_add_of_le hlo
      rw [hslot, portSlots, List.mem_flatMap]
      refine ⟨i, List.mem_range.mpr (by omega), ?_⟩
      rcases hprotocol with hp | hp <;> rw [hp, hi] <;> simp
    have hle := (List.subperm_of_subset hnodup hsub).length_le
    rw [List.length_map] at hle
    exact hle
  have hsurplus : ((rulePlan raw).surplus held).length ≤ held.length := List.length_filter_le _ _
  rw [offers, List.length_append, List.length_map, List.length_map]
  omega

-- ---------------------------------------------------------------------------
-- One pass
-- ---------------------------------------------------------------------------

theorem Holds.execute (h : Holds agent held) (hdoc : Deliverable raw)
    {start : List (String × Relay.Rule)} (hacts : acts ⊆ offers raw start) {commands : List Command}
    (hcommands : commands.map (·.request) = acts.map (toRequest raw)) (unread : String)
    {surroundings : Nat → Relay.Surroundings}
    (hstarts : ∀ i, ∀ e ∈ desiredRules raw, (agentRule e.2).enabled = true →
      ¬ (surroundings i).firstStart.Fails (agentRule e.2)) :
    Holds (PortMap.execute unread surroundings agent commands).2 (acts.foldl (rulePlan raw).act held) := by
  induction commands generalizing acts agent held surroundings with
  | nil =>
    obtain rfl : acts = [] := List.map_eq_nil_iff.mp hcommands.symm
    exact h
  | cons c commands ih =>
    cases acts with
    | nil => cases hcommands
    | cons a acts =>
      obtain ⟨hrequest, hrest⟩ := List.cons.inj hcommands
      obtain ⟨ha, hlater⟩ := List.forall_mem_cons.mp hacts
      have hone : Holds (agent.handle (surroundings 0) (agentCommand unread c.request)).2
          ((rulePlan raw).act held a) := by
        have hrequest' : c.request = toRequest raw a := hrequest
        rw [hrequest']
        rcases mem_offers.mp ha with ⟨e, he, rfl⟩ | ⟨e, -, rfl⟩
        · rw [toRequest_put he]
          exact h.put hdoc he (hstarts 0 e he) unread
        · exact h.remove (surroundings 0) unread e.1
      exact ih hone hlater hrest fun i => hstarts (i + 1)

/-- The table and the agent stand for a table of the plan and its queue. -/
structure Follows (raw : Option Json) (router : String) (passes : Nat → Pass)
    (start : List (String × Relay.Rule)) (i : Nat) (s : Sync) (w : Work String Relay.Rule) : Prop where
  holds : Holds s.agent w.held
  ready : (rulePlan raw).Ready w
  waiting : ∃ waiting, Waiting router s.commands waiting ∧
    waiting.map (·.request) = w.queue.map (toRequest raw) ∧ (waiting.map fun c => tag c.id).Nodup ∧
      ∀ c ∈ waiting, ∃ j < i, ∃ k, c.id = (passes j).ids k
  offered : w.queue ⊆ offers raw start
  nodup : w.queue.Nodup
  surplus : (rulePlan raw).surplus w.held ⊆ (rulePlan raw).surplus start

def unqueued (raw : Option Json) (queue asked : List (Act String Relay.Rule)) :
    List (Act String Relay.Rule) :=
  asked.filter fun a => decide (toRequest raw a ∉ queue.map (toRequest raw))

theorem Holds.queue (h : Holds agent held) (hkept : (rulePlan raw).Kept held) (hdoc : Deliverable raw)
    {commands waiting : List Command} (hwaiting : Waiting router commands waiting)
    {queue asked : List (Act String Relay.Rule)} (hqueue : queue ⊆ offers raw held)
    (hqueueNodup : queue.Nodup) (hasked : asked ⊆ offers raw held) (haskedNodup : asked.Nodup)
    (hrequests : waiting.map (·.request) = queue.map (toRequest raw)) {ids : Nat → String}
    (hids : Function.Injective fun i => tag (ids i)) (now : Int) :
    ∃ added, Waiting router (queueRequests now router ids (asked.map (toRequest raw)) commands)
        (waiting ++ added) ∧
      (waiting ++ added).map (·.request) = (queue ++ unqueued raw queue asked).map (toRequest raw) ∧
      (added.map fun c => tag c.id).Nodup ∧ ∀ c ∈ added, ∃ i, c.id = ids i := by
  have hall : queue ++ asked ⊆ offers raw held := List.append_subset.mpr ⟨hqueue, hasked⟩
  have hlists : waiting.map (·.request) ++ asked.map (toRequest raw) =
      (queue ++ asked).map (toRequest raw) := by
    rw [hrequests, List.map_append]
  have hfew : waiting.length + (asked.map (toRequest raw)).length ≤ 500 := by
    have hoffers := h.length_offers hkept hdoc
    have hqueueLength := (List.subperm_of_subset hqueueNodup hqueue).length_le
    have haskedLength := (List.subperm_of_subset haskedNodup hasked).length_le
    have hlength := congrArg List.length hrequests
    rw [List.length_map, List.length_map] at hlength
    rw [List.length_map]
    omega
  have hnodup : (asked.map (toRequest raw)).Nodup :=
    List.Nodup.map_on (fun a ha b hb heq => h.toRequest_inj (hasked ha) (hasked hb)
      (congrArg Request.action heq) (congrArg Request.ruleId heq)) haskedNodup
  have hsame : ∀ a ∈ waiting.map (·.request) ++ asked.map (toRequest raw),
      ∀ b ∈ waiting.map (·.request) ++ asked.map (toRequest raw),
        a.action = b.action → a.ruleId = b.ruleId → a = b := by
    rw [hlists]
    refine List.forall_mem_map.mpr fun a ha => List.forall_mem_map.mpr fun b hb haction hid => ?_
    rw [h.toRequest_inj (hall ha) (hall hb) haction hid]
  obtain ⟨added, hadded, haddedRequests, htags, hfrom⟩ := hwaiting.queue now hfew hnodup hsame hids
  refine ⟨added, hadded, ?_, htags, hfrom⟩
  rw [List.map_append, List.map_append, haddedRequests, hrequests, List.filter_map]
  rfl

theorem Follows.step {passes : Nat → Pass} {start : List (String × Relay.Rule)} {i : Nat} {s : Sync}
    {w : Work String Relay.Rule} {first : Relay.Manager} (h : Follows raw router passes start i s w)
    (hstart : Holds first start) (hkept : (rulePlan raw).Kept start) (hdoc : Deliverable raw)
    (hworks : (passes i).Works raw)
    (hids : Function.Injective fun (n : Nat × Nat) => tag ((passes n.1).ids n.2)) :
    ∃ w', Follows raw router passes start (i + 1) (s.step raw router (passes i)) w' ∧
      (rulePlan raw).Served 20 w w' := by
  obtain ⟨waiting, hwaiting, hrequests, htags, hfrom⟩ := h.waiting
  have hp := hdoc.plan_sound
  -- the poll, the relay and the acknowledgement
  have hsent := (hwaiting.poll (passes i).now).1
  have hsentRequests : ((waiting.take 20).map (markDelivered (passes i).now)).map (·.request) =
      (w.queue.take 20).map (toRequest raw) := by
    have htake : (w.queue.take 20).map (toRequest raw) = (waiting.take 20).map (·.request) := by
      rw [List.map_take, ← hrequests, List.map_take]
    rw [htake, List.map_map]
    rfl
  have hdone : w.queue.take 20 ⊆ offers raw start := fun a ha => h.offered (List.mem_of_mem_take ha)
  have hholds := h.holds.execute hdoc hdone hsentRequests (passes i).unread hworks
  have hacks : (execute (passes i).unread (passes i).surroundings s.agent
      (pollCommands (passes i).now router 20 s.commands).1).1.map Prod.fst =
        (waiting.take 20).map Command.id := by
    rw [execute_acks, hsent, List.map_map]
    rfl
  have hrest := hwaiting.ack (passes i).now htags hacks
  rw [← hsent] at hholds
  -- the table after the acts, and what it asks for
  have hlegal : ∀ a ∈ w.queue.take 20, (rulePlan raw).Legal w.held a := fun a ha =>
    h.ready.legal a (List.mem_of_mem_take ha)
  have hheldKept : (rulePlan raw).Kept ((w.queue.take 20).foldl (rulePlan raw).act w.held) :=
    Plan.foldl_act hlegal h.ready.kept fun _ _ hheld ha => hheld.act hp ha
  have hsurplus : (rulePlan raw).surplus ((w.queue.take 20).foldl (rulePlan raw).act w.held) ⊆
      (rulePlan raw).surplus start :=
    Plan.foldl_act (P := fun held => (rulePlan raw).surplus held ⊆ (rulePlan raw).surplus start) hlegal
      h.surplus fun _ _ hheld ha => List.Subset.trans (Plan.surplus_act ha) hheld
  obtain ⟨asked, hperm, hasked⟩ := hholds.statusRequests hheldKept (passes i)
  have haskedOffered : asked ⊆ offers raw start :=
    List.Subset.trans hperm.subset (asks_subset_offers hsurplus)
  have haskedNodup : asked.Nodup := hperm.nodup_iff.mpr (Plan.nodup_asks hp hheldKept)
  -- the queue
  have hleft : w.queue.drop 20 ⊆ offers raw start := fun a ha => h.offered (List.mem_of_mem_drop ha)
  have hleftNodup : (w.queue.drop 20).Nodup := h.nodup.sublist (List.drop_sublist _ _)
  have hleftRequests : (waiting.drop 20).map (·.request) = (w.queue.drop 20).map (toRequest raw) := by
    rw [List.map_drop, hrequests, List.map_drop]
  have hmem : ∀ a, a ∈ unqueued raw (w.queue.drop 20) asked ↔
      a ∈ (rulePlan raw).asks ((w.queue.take 20).foldl (rulePlan raw).act w.held) ∧
        a ∉ w.queue.drop 20 := by
    intro a
    rw [unqueued, List.mem_filter, hperm.mem_iff, decide_eq_true_eq]
    refine and_congr_right fun ha => not_congr (hstart.mem_requests hleft ?_)
    exact haskedOffered (hperm.mem_iff.mpr ha)
  obtain ⟨added, hadded, haddedRequests, haddedTags, haddedFrom⟩ :=
    hstart.queue hkept hdoc hrest hleft hleftNodup haskedOffered haskedNodup hleftRequests
      (fun k l hkl => (Prod.ext_iff.mp (@hids (i, k) (i, l) hkl)).2) (passes i).now
  have hserved : (rulePlan raw).Served 20 w
      ⟨(w.queue.take 20).foldl (rulePlan raw).act w.held,
        w.queue.drop 20 ++ unqueued raw (w.queue.drop 20) asked⟩ :=
    ⟨rfl, _, rfl, haskedNodup.filter _, hmem⟩
  refine ⟨⟨(w.queue.take 20).foldl (rulePlan raw).act w.held,
      w.queue.drop 20 ++ unqueued raw (w.queue.drop 20) asked⟩, {
    holds := hholds
    ready := hserved.ready h.ready hp
    waiting := ⟨waiting.drop 20 ++ added, ?_, haddedRequests, ?_, ?_⟩
    offered := List.append_subset.mpr ⟨hleft, fun a ha => haskedOffered (List.mem_of_mem_filter ha)⟩
    nodup := List.Nodup.append hleftNodup (haskedNodup.filter _) fun a ha hb => ((hmem a).mp hb).2 ha
    surplus := hsurplus }, hserved⟩
  · have hstep : (s.step raw router (passes i)).commands =
        queueRequests (passes i).now router (passes i).ids (PortMap.statusRequests raw
          ((passes i).report (PortMap.execute (passes i).unread (passes i).surroundings s.agent
            (pollCommands (passes i).now router 20 s.commands).1).2))
          (ackCommands (passes i).now (PortMap.execute (passes i).unread (passes i).surroundings s.agent
            (pollCommands (passes i).now router 20 s.commands).1).1
            (pollCommands (passes i).now router 20 s.commands).2) := rfl
    rwa [hstep, hasked]
  · rw [List.map_append]
    refine List.Nodup.append ((List.drop_sublist _ _).map _ |>.nodup htags) haddedTags fun t ht ht' => ?_
    obtain ⟨c, hc, rfl⟩ := List.mem_map.mp ht
    obtain ⟨c', hc', htag⟩ := List.mem_map.mp ht'
    obtain ⟨j, hj, k, hk⟩ := hfrom c (List.mem_of_mem_drop hc)
    obtain ⟨l, hl⟩ := haddedFrom c' hc'
    rw [hk, hl] at htag
    have hpass := (Prod.ext_iff.mp (@hids (i, l) (j, k) htag)).1
    exact absurd hpass (Nat.ne_of_gt hj)
  · intro c hc
    rcases List.mem_append.mp hc with hc | hc
    · obtain ⟨j, hj, hk⟩ := hfrom c (List.mem_of_mem_drop hc)
      exact ⟨j, Nat.lt_succ_of_lt hj, hk⟩
    · exact ⟨i, Nat.lt_succ_self i, haddedFrom c hc⟩

-- ---------------------------------------------------------------------------
-- All passes
-- ---------------------------------------------------------------------------

/-- The Hub and the agent after so many passes. -/
def syncs (raw : Option Json) (router : String) (passes : Nat → Pass) (s : Sync) : Nat → Sync
  | 0 => s
  | i + 1 => (syncs raw router passes s i).step raw router (passes i)

theorem Follows.settled_iff {passes : Nat → Pass} {start : List (String × Relay.Rule)} {i : Nat} {s : Sync}
    {w : Work String Relay.Rule} (h : Follows raw router passes start i s w) :
    Settled raw router s ↔ (rulePlan raw).asks w.held = [] ∧ w.queue = [] := by
  obtain ⟨waiting, hwaiting, hrequests, -, -⟩ := h.waiting
  refine and_congr ?_ ?_
  · constructor
    · intro hnone
      obtain ⟨asked, hperm, hasked⟩ := h.holds.statusRequests h.ready.kept (passes 0)
      rw [hnone, eq_comm, List.map_eq_nil_iff] at hasked
      rw [hasked] at hperm
      exact hperm.symm.eq_nil
    · intro hnone p
      obtain ⟨asked, hperm, hasked⟩ := h.holds.statusRequests h.ready.kept p
      rw [hnone] at hperm
      rw [hasked, hperm.eq_nil]
      rfl
  · have hqueue : w.queue = [] ↔ waiting = [] := by
      rw [← List.map_eq_nil_iff (f := toRequest raw), ← hrequests, List.map_eq_nil_iff]
    rw [hqueue, ← hwaiting.unfinished, List.filter_eq_nil_iff]
    refine forall₂_congr fun c _ => ?_
    simp only [Bool.and_eq_true, beq_iff_eq, not_and, Bool.not_eq_true]

theorem exists_works {passes : Nat → Pass} {s : Sync} (hdoc : Deliverable raw) (hagent : Prepared raw s.agent)
    (hidle : ∀ c ∈ s.commands, c.router = router → c.unfinished = false)
    (hworks : ∀ i, (passes i).Works raw)
    (hids : Function.Injective fun (n : Nat × Nat) => tag ((passes n.1).ids n.2)) :
    ∃ works : Nat → Work String Relay.Rule, works 0 = ⟨s.agent.rules, []⟩ ∧
      (∀ i, Follows raw router passes s.agent.rules i (syncs raw router passes s i) (works i)) ∧
        ∀ i, (rulePlan raw).Served 20 (works i) (works (i + 1)) := by
  have hkept := hagent.kept hdoc
  have hstart : Holds s.agent s.agent.rules := ⟨rfl, hagent.ports, hagent.sound.keyed, hagent.valid⟩
  have hzero : Follows raw router passes s.agent.rules 0 s ⟨s.agent.rules, []⟩ := {
    holds := hstart
    ready := ⟨hkept, by simp⟩
    waiting := ⟨[], ⟨s.commands, (List.append_nil _).symm, hidle, by simp⟩, rfl, List.nodup_nil, by simp⟩
    offered := List.nil_subset _
    nodup := List.nodup_nil
    surplus := List.Subset.refl _ }
  have hstep := fun (i : Nat) (w : { w // Follows raw router passes s.agent.rules i
      (syncs raw router passes s i) w }) =>
    w.2.step hstart hkept hdoc (hworks i) hids
  choose next hnext hserved using hstep
  let works : ∀ i, { w // Follows raw router passes s.agent.rules i (syncs raw router passes s i) w } :=
    fun i => Nat.rec ⟨_, hzero⟩ (fun i w => ⟨next i w, hnext i w⟩) i
  exact ⟨fun i => (works i).1, rfl, fun i => (works i).2, fun i => hserved i (works i)⟩

end

section
local instance asciiConverge : Unicode := .ascii

/-- An agent that has a rule of an earlier document at the same port. -/
def leftover : Relay.Manager := Relay.Manager.load [Relay.exampleRule "old" 20000] 20000 20020

def calmPass (i : Nat) : Pass :=
  { now := i, ids := fun k => String.ofList (List.replicate (Nat.pair i k + 1) 'c')
    surroundings := fun _ => Relay.calm, unread := "invalid rule", reportedAt := i, runtime := fun _ => [] }

theorem tag_replicate (n : Nat) :
    tag (String.ofList (List.replicate (n + 1) 'c')) = String.ofList (List.replicate (n + 1) 'c') := by
  have hchars : ∀ c ∈ (String.ofList (List.replicate (n + 1) 'c')).toList, c = 'c' := by
    rw [String.toList_ofList]
    exact fun c hc => List.eq_of_mem_replicate hc
  have hlower : asciiLower (String.ofList (List.replicate (n + 1) 'c')) =
      String.ofList (List.replicate (n + 1) 'c') := by
    rw [asciiLower, String.toList_ofList, List.map_replicate]
    rfl
  have hword : ∀ t : String, t.toList.head? ≠ some 'c' →
      String.ofList (List.replicate (n + 1) 'c') ≠ t := by
    rintro t ht rfl
    rw [String.toList_ofList] at ht
    exact ht rfl
  refine cleanSavedValue_word ?_ (strip_of_noSpace fun c hc => ?_) ?_
  · exact List.all_eq_true.mpr fun c hc => by rw [hchars c hc]; decide
  · rw [hchars c hc]
    decide
  · rw [hlower]
    simp [hword "" (by decide), hword "null" (by decide), hword "none" (by decide),
      hword "nan" (by decide), hword "-" (by decide)]

end

end LabProbe.PortMap
