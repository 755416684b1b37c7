import LabProbe.PortMap.Handlers

/-!
# When the rules stay distinct

The conflict check and every later lookup take it that an identifier names
one rule. A request may give its rule the identifier of another rule: a
create may name any, and an update derives it anew from the one it
addresses. The rules stay distinct in exactly the runs in which no accepted
request does so.
-/

namespace LabProbe.PortMap

open Py Py.Json Hub Check Runs

/-- The rows of a document, those that are objects. -/
def documentRows : Option Json → List Entries
  | some (.dict raw) => ((get raw "rules").list?.getD []).filterMap dict?
  | some (.list rows) => rows.filterMap dict?
  | _ => []

section
variable [Unicode]

-- ---------------------------------------------------------------------------
-- The property and the condition
-- ---------------------------------------------------------------------------

/-- No two rules of the document share an identifier, or a port and protocol. -/
def DistinctRules (raw : Option Json) : Prop := Slots.Distinct ruleId slot (documentRows raw)

instance (raw : Option Json) : Decidable (DistinctRules raw) :=
  inferInstanceAs (Decidable (Slots.Distinct ruleId slot (documentRows raw)))

/-- The identifier a request gives its rule is the one it addresses, or no
rule has it. -/
def Call.KeepsIds (rows : List Entries) : Call → Prop
  | .create r body =>
    ∀ row ∈ rows, ruleId row ≠ .str (portmapRuleId (get (asDict body) "id") r.freshId)
  | .update r id _ => portmapRuleId (.str id) r.freshId = id ∨
      ∀ row ∈ rows, ruleId row ≠ .str (portmapRuleId (.str id) r.freshId)
  | .delete .. | .act .. => True

/-- The request is refused, or keeps the identifiers apart. -/
def KeepsIds (raw : Option Json) (call : Call) : Prop :=
  (call.handle (loadPortmapRules raw)).toBool = true → call.KeepsIds (loadPortmapRules raw)

-- ---------------------------------------------------------------------------
-- Accepted rules
-- ---------------------------------------------------------------------------

def portSlots : List (Int × String) :=
  (List.range 21).flatMap fun i => [((20000 + i : Nat), "TCP"), ((20000 + i : Nat), "UDP")]

variable {raw : Option Json} {rows : List Entries} {row rule old payload : Entries} {r : Readings}
  {call : Call} {change : Change}

theorem upper_transport {p : String} (h : p = "TCP" ∨ p = "UDP") :
    Unicode.upper (cleanSavedValue ((Json.str p).or (.str "TCP"))) = p := by
  have hclean : cleanSavedValue (.str p) = p := by
    rcases h with rfl | rfl <;> exact cleanSavedValue_word (by decide) (by decide) (by decide)
  have hupper : Unicode.upper p = p := by
    rcases h with rfl | rfl <;> rw [Unicode.upper_ascii _ (by decide)] <;> decide
  have hor : (Json.str p).or (.str "TCP") = .str p := by
    rcases h with rfl | rfl <;> decide
  rw [hor, hclean, hupper]

theorem Cleaned.slot {target : Target} {rule : Rule} (h : Cleaned r payload old target rule) :
    slot rule.toJson = (rule.listenPort, rule.transportProtocol) := by
  refine Prod.ext (toInt_int (natAbs_lt_limit ?_) _) (upper_transport h.protocol)
  obtain ⟨hlo, hhi⟩ := h.listenPort
  omega

theorem Cleaned.slot_mem {target : Target} {rule : Rule} (h : Cleaned r payload old target rule) :
    PortMap.slot rule.toJson ∈ portSlots := by
  obtain ⟨hlo, hhi⟩ := h.listenPort
  obtain ⟨i, hi⟩ := Int.le.dest hlo
  have hrange : i < 21 := by omega
  rw [h.slot, portSlots, List.mem_flatMap]
  refine ⟨i, List.mem_range.mpr hrange, ?_⟩
  rcases h.protocol with hp | hp <;> rw [hp, ← hi] <;> simp

theorem checkConflict_ok : checkConflict rows rule = .ok () ↔
    ∀ item ∈ rows, conflicts rule item = false := by
  unfold checkConflict
  cases hfind : rows.find? (conflicts rule) with
  | some item =>
    have hitem := List.find?_some hfind
    have hmem := List.mem_of_find?_eq_some hfind
    simp only [reduceCtorEq, false_iff]
    exact fun h => by simp [h item hmem] at hitem
  | none => simpa using hfind

theorem acceptedRule_ok (h : acceptedRule r rows payload old = .ok rule) :
    ruleId rule = .str (portmapRuleId
        (((merged old payload "id").getD .null).or (get old "id")) r.freshId) ∧
      slot rule ∈ portSlots ∧ Slots.Free ruleId slot rows rule := by
  simp only [acceptedRule, bind_eq_ok, Except.ok.injEq] at h
  obtain ⟨cleaned, hclean, _, hcheck, rfl⟩ := h
  obtain ⟨target, hcleaned⟩ := cleanPortmapRule_ok hclean
  have hid : ruleId cleaned.toJson = .str cleaned.id := rfl
  refine ⟨by rw [hid, hcleaned.id], hcleaned.slot_mem, fun item hitem hne heq => ?_⟩
  have hno := checkConflict_ok.mp hcheck item hitem
  have hdiff : (ruleId cleaned.toJson).eq (ruleId item) = false := by
    rw [Bool.eq_false_iff, hid]
    exact fun h => hne (eq_str.mp h)
  simp [conflicts, hdiff, heq] at hno

theorem portmapRuleId_create (payload : Entries) (freshId : String) :
    portmapRuleId (((merged [] payload "id").getD .null).or (get [] "id")) freshId =
      portmapRuleId (get payload "id") freshId := by
  have hmerged : (merged [] payload "id").getD .null = get payload "id" := by
    simp [merged, Json.get]
  have hnull : get [] "id" = .null := rfl
  rw [hmerged, hnull, portmapRuleId, portmapRuleId, or_null_or]

theorem portmapRuleId_update {id : String} (hold : ruleId old = .str id) (freshId : String) :
    portmapRuleId (((merged old (Dict.set payload "id" (.str id)) "id").getD .null).or
      (get old "id")) freshId = portmapRuleId (.str id) freshId := by
  have hmerged : (merged old (Dict.set payload "id" (.str id)) "id").getD .null = .str id := by
    simp [merged, Dict.get?_set]
  have hget : get old "id" = .str id := hold
  rw [hmerged, hget, Json.or, ite_self]

omit [Unicode] in
theorem named_iff {id : String} : named id row = true ↔ ruleId row = .str id := eq_str

omit [Unicode] in
theorem findRule_ok {id : String} (h : findRule id rows = .ok old) :
    old ∈ rows ∧ ruleId old = .str id :=
  (Slots.find_ok h).imp_right named_iff.mp

theorem switchedRule_ok {epoch : Int} {start : Bool} (h : switchedRule epoch start old = .ok rule)
    (now : Json) : ruleId (Dict.set rule "updatedAt" now) = ruleId old ∧
      slot (Dict.set rule "updatedAt" now) = slot old := by
  simp only [switchedRule, startedRule] at h
  repeat' split at h
  all_goals cases h
  all_goals simp [ruleId, slot, get_set]

-- ---------------------------------------------------------------------------
-- One request
-- ---------------------------------------------------------------------------

omit [Unicode] in
theorem deleteRule_sublist (id : String) (rows : List Entries) :
    (deleteRule id rows).rows.Sublist rows := List.filter_sublist

omit [Unicode] in
theorem named_iff_id {id : String} (hold : ruleId old = .str id) :
    ∀ row ∈ rows, named id row = true ↔ ruleId row = ruleId old :=
  fun _ _ => named_iff.trans (by rw [hold])

/-- Whatever the request, the rows it saves take slots a rule can take. -/
theorem handle_slots (hrows : ∀ row ∈ rows, slot row ∈ portSlots)
    (h : call.handle rows = .ok change) : ∀ row ∈ change.rows, slot row ∈ portSlots := by
  cases call with
  | create r body =>
    simp only [Call.handle, createRule, bind_eq_ok, Except.ok.injEq] at h
    obtain ⟨payload, -, rule, haccept, rfl⟩ := h
    intro row hrow
    rcases List.mem_append.mp hrow with hrow | hrow
    · exact hrows row hrow
    · exact List.mem_singleton.mp hrow ▸ (acceptedRule_ok haccept).2.1
  | update r id body =>
    simp only [Call.handle, updateRule, bind_eq_ok, Except.ok.injEq] at h
    obtain ⟨old, -, payload, -, rule, haccept, rfl⟩ := h
    intro row hrow
    rcases Slots.mem_replace hrow with rfl | hrow
    · exact (acceptedRule_ok haccept).2.1
    · exact hrows row hrow
  | delete r id =>
    simp only [Call.handle, bind_eq_ok, Except.ok.injEq] at h
    obtain ⟨-, -, rfl⟩ := h
    exact fun row hrow => hrows row ((deleteRule_sublist id rows).subset hrow)
  | act r id start =>
    simp only [Call.handle, actOnRule, bind_eq_ok, Except.ok.injEq] at h
    obtain ⟨old, hold, rule, hrule, rfl⟩ := h
    intro row hrow
    rcases Slots.mem_replace hrow with rfl | hrow
    · rw [(switchedRule_ok hrule _).2]
      exact hrows old (findRule_ok hold).1
    · exact hrows row hrow

theorem handle_length (h : call.handle rows = .ok change) :
    change.rows.length ≤ rows.length + 1 := by
  cases call <;>
    simp only [Call.handle, createRule, updateRule, actOnRule, bind_eq_ok, Except.ok.injEq] at h
  case create => obtain ⟨_, -, _, -, rfl⟩ := h; simp
  case update => obtain ⟨_, -, _, -, _, -, rfl⟩ := h; simp [Slots.replace]
  case delete r id =>
    obtain ⟨-, -, rfl⟩ := h
    exact Nat.le_succ_of_le (deleteRule_sublist id rows).length_le
  case act => obtain ⟨_, -, _, -, rfl⟩ := h; simp [Slots.replace]

/-- An accepted request leaves the rules distinct exactly when it keeps the
identifiers apart. -/
theorem handle_distinct_iff (hd : Slots.Distinct ruleId slot rows)
    (h : call.handle rows = .ok change) :
    Slots.Distinct ruleId slot change.rows ↔ call.KeepsIds rows := by
  cases call with
  | create r body =>
    simp only [Call.handle, createRule, bind_eq_ok, Except.ok.injEq] at h
    obtain ⟨payload, hbody, rule, haccept, rfl⟩ := h
    obtain ⟨hid, -, hfree⟩ := acceptedRule_ok haccept
    rw [Slots.distinct_append_free hd hfree, hid, Call.KeepsIds, bodyOr_ok hbody,
      portmapRuleId_create]
  | update r id body =>
    simp only [Call.handle, updateRule, bind_eq_ok, Except.ok.injEq] at h
    obtain ⟨old, hfind, payload, hbody, rule, haccept, rfl⟩ := h
    obtain ⟨hmem, hold⟩ := findRule_ok hfind
    obtain ⟨hid, -, hfree⟩ := acceptedRule_ok haccept
    rw [Slots.distinct_replace_free hd hmem (named_iff_id hold) hfree, hid, hold, Call.KeepsIds,
      portmapRuleId_update hold, Json.str.injEq]
  | delete r id =>
    simp only [Call.handle, bind_eq_ok, Except.ok.injEq] at h
    obtain ⟨-, -, rfl⟩ := h
    exact iff_of_true (hd.sublist (deleteRule_sublist id rows)) trivial
  | act r id start =>
    simp only [Call.handle, actOnRule, bind_eq_ok, Except.ok.injEq] at h
    obtain ⟨old, hfind, rule, hrule, rfl⟩ := h
    obtain ⟨hmem, hold⟩ := findRule_ok hfind
    obtain ⟨hid, hslot⟩ := switchedRule_ok hrule (.str r.now)
    refine iff_of_true ((Slots.distinct_replace_iff hd hmem (named_iff_id hold)).mpr ?_) trivial
    intro other ho hne
    exact ⟨hid ▸ hne, hslot ▸ fun heq => hne (by rw [hd.inj_slot ho hmem heq])⟩

-- ---------------------------------------------------------------------------
-- Runs
-- ---------------------------------------------------------------------------

/-- The rules are distinct and take slots a rule can take. -/
structure Sound (raw : Option Json) : Prop where
  distinct : DistinctRules raw
  slots : ∀ row ∈ documentRows raw, slot row ∈ portSlots

theorem loadPortmapRules_sublist (raw : Option Json) :
    (loadPortmapRules raw).Sublist (documentRows raw) := by
  match raw with
  | some (.dict raw) =>
    have hrows : documentRows (some (.dict raw)) =
        ((get raw "rules").list?.getD []).filterMap dict? := rfl
    rw [hrows, loadPortmapRules, loadPortmapRulesDocument]
    cases get raw "rules" with
    | list rows => exact List.filter_sublist
    | _ => exact List.nil_sublist _
  | some (.list rows) => exact List.filter_sublist
  | none | some .null | some (.bool _) | some (.int _) | some (.float ..) | some (.str _) =>
    exact List.nil_sublist _

theorem documentRows_save (now : String) (rows : List Entries) (raw : Option Json) :
    documentRows (some (saveRules now rows raw)) = savedRows rows := by
  have hrules : documentRows (some (saveRules now rows raw)) =
      ((savedRows rows).map Json.dict).filterMap dict? := rfl
  rw [hrules, List.filterMap_map]
  exact List.filterMap_some

theorem savedRows_perm (h : rows.length ≤ 100) : (savedRows rows).Perm rows := by
  have hcap : Logs.cap 100 rows = rows := by
    rw [Logs.cap, Nat.sub_eq_zero_of_le h, List.drop_zero]
  rw [savedRows, hcap]
  exact List.perm_insertionSort _ _

theorem Sound.length_le (hs : Sound raw) : (loadPortmapRules raw).length ≤ 42 := by
  have hsub := loadPortmapRules_sublist raw
  have hslots : (loadPortmapRules raw).map slot ⊆ portSlots := by
    intro s hmem
    obtain ⟨row, hrow, rfl⟩ := List.mem_map.mp hmem
    exact hs.slots row (hsub.subset hrow)
  have hle := (List.subperm_of_subset (hs.distinct.sublist hsub).nodup_slots hslots).length_le
  rw [List.length_map] at hle
  exact hle

theorem handle_perm (hs : Sound raw) (h : call.handle (loadPortmapRules raw) = .ok change) :
    (documentRows (handle raw call)).Perm change.rows := by
  have hlen := handle_length h
  have hle := hs.length_le
  rw [handle, h]
  dsimp only
  rw [documentRows_save]
  exact savedRows_perm (by omega)

theorem distinct_step_iff (hs : Sound raw) (call : Call) :
    DistinctRules (handle raw call) ↔ KeepsIds raw call := by
  cases h : call.handle (loadPortmapRules raw) with
  | ok change =>
    have hload := hs.distinct.sublist (loadPortmapRules_sublist raw)
    rw [DistinctRules, Slots.distinct_perm (handle_perm hs h), handle_distinct_iff hload h,
      KeepsIds, h]
    exact ⟨fun hk _ => hk, fun hk => hk rfl⟩
  | error e =>
    have hsame : handle raw call = raw := by rw [handle, h]
    rw [hsame, KeepsIds, h]
    exact iff_of_true hs.distinct nofun

theorem sound_step (hs : Sound raw) (hk : KeepsIds raw call) : Sound (handle raw call) := by
  refine ⟨(distinct_step_iff hs call).mpr hk, ?_⟩
  cases h : call.handle (loadPortmapRules raw) with
  | ok change =>
    intro row hrow
    refine handle_slots (fun row hrow => ?_) h row ((handle_perm hs h).subset hrow)
    exact hs.slots row ((loadPortmapRules_sublist raw).subset hrow)
  | error e =>
    have hsame : handle raw call = raw := by rw [handle, h]
    rw [hsame]
    exact hs.slots

/-- The rules stay distinct in exactly the runs whose accepted requests
keep the identifiers apart. -/
theorem portmaps_distinct_iff (calls : List Call) :
    Along handle (fun raw call => DistinctRules (handle raw call)) none calls ↔
      Along handle KeepsIds none calls :=
  along_iff (I := Sound) ⟨Slots.distinct_nil, by simp [documentRows]⟩
    (fun _ _ hs hk => sound_step hs hk) fun _ call hs => distinct_step_iff hs call

end

section
local instance asciiDistinct : Unicode := .ascii

def exampleReadings : Readings := { now := "", epoch := 0, token := 0, timeEpoch := fun _ => none }

/-- A body that names an identifier, a port and a target. -/
def exampleBody (id : String) (port : Int) : Json :=
  .dict [("id", .str id), ("name", .str "nas"), ("listenPort", .int port), ("targetPort", .int 80),
    ("targetIpv4", .str "192.168.1.2")]

/-- Two creates of one rule store it twice. -/
theorem portmaps_repeat : ¬ DistinctRules (run handle none
    [.create exampleReadings (exampleBody "nas" 20000),
      .create exampleReadings (exampleBody "nas" 20000)]) := by
  decide +kernel

end

end LabProbe.PortMap
