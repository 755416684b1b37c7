import LabProbe.PortMap.Rules

/-!
# A rules document that was not read deletes every reported rule

`reconcile` deletes what the report has beyond the desired rules. Where the
document could not be read, these are all reported rules, for the installed
handler has lost the answer of the loader that the one it replaced checks.
-/

namespace LabProbe.PortMap

open Py Py.Json Hub

variable [Unicode] {raw : Option Json} {payload : Json}

/-- What a rules document that was not read must not cause, and what a
delete says about the one that was. -/
def Safeguarded (raw : Option Json) (payload : Json) : Prop :=
  ((loadPortmapRulesDocument raw).2 = false → statusRequests raw payload = []) ∧
    ∀ id, deleteRequest id ∈ statusRequests raw payload →
      (loadPortmapRulesDocument raw).2 = true ∧ id ∉ Dict.keys (desiredRules raw)

theorem desiredRules_unread (h : (loadPortmapRulesDocument raw).2 = false) :
    desiredRules raw = [] := by
  have hrules : loadPortmapRules raw = [] := by
    unfold loadPortmapRules
    unfold loadPortmapRulesDocument at h ⊢
    split at h
    · split at h
      · simp at h
      · rfl
    · simp at h
    · rfl
  rw [desiredRules, hrules]
  rfl

-- ---------------------------------------------------------------------------
-- Normalization keeps the identifiers of a report
-- ---------------------------------------------------------------------------

theorem reportedId_normalizeRow (desired : List (String × Entries)) (item : Json) :
    (normalizeRow desired item).dict?.map reportedId = item.dict?.map reportedId := by
  cases item with
  | dict row =>
    have hid : get (normalizeRule desired row) "id" = get (asDict (get row "rule")) "id" := by
      unfold normalizeRule
      dsimp only
      split
      · rfl
      · rw [get_set, if_neg (by decide)]
    simp [normalizeRow, dict?, reportedId, get_set, hid]
  | _ => rfl

omit [Unicode] in
theorem reportRows_or (payload : Json) :
    reportRows (asDict (payload.or (.dict []))) = reportRows (asDict payload) := by
  unfold Json.or
  split
  · rfl
  · rename_i h
    cases payload with
    | dict d =>
      cases d with
      | nil => rfl
      | cons => simp [truthy] at h
    | _ => rfl

theorem reportedIds_payload (raw : Option Json) (payload : Json) :
    (reportRows (asDict ((normalizePortmapPayload raw payload).or (.dict [])))).map reportedId =
      (reportRows (asDict payload)).map reportedId := by
  rw [reportRows_or]
  cases payload with
  | dict d =>
    unfold normalizePortmapPayload
    dsimp only
    split
    · rename_i rows hrows
      simp only [reportRows, asDict_dict, get_set, if_true, list?, hrows, Option.getD_some,
        List.filterMap_map, List.map_filterMap]
      exact List.filterMap_congr fun item _ => reportedId_normalizeRow _ item
    · rfl
  | _ => rfl

-- ---------------------------------------------------------------------------
-- Deletes
-- ---------------------------------------------------------------------------

theorem mem_localRules {payload : Entries} {ruleId : String} :
    ruleId ∈ Dict.keys (localRules payload) ↔
      ruleId ≠ "" ∧ ruleId ∈ (reportRows payload).map reportedId := by
  rw [localRules, Dict.mem_keys_ofEntries]
  simp only [Dict.keys, List.mem_map, List.mem_filter, bne_iff_ne]
  constructor
  · rintro ⟨_, ⟨⟨row, hrow, rfl⟩, hne⟩, rfl⟩
    exact ⟨hne, row, hrow, rfl⟩
  · rintro ⟨hne, row, hrow, rfl⟩
    exact ⟨_, ⟨⟨row, hrow, rfl⟩, hne⟩, rfl⟩

theorem delete_mem_reconcile {payload : Entries} {ruleId : String} :
    deleteRequest ruleId ∈ reconcile raw payload ↔
      ruleId ∈ Dict.keys (localRules payload) ∧ ruleId ∉ Dict.keys (desiredRules raw) := by
  unfold reconcile
  simp only [List.mem_append, List.mem_map]
  constructor
  · rintro (⟨e, -, h⟩ | ⟨other, hmem, h⟩)
    · simp [upsertRequest, deleteRequest] at h
    · obtain rfl : other = ruleId := by simpa [deleteRequest] using h
      simpa using hmem
  · rintro ⟨hlocal, hdesired⟩
    exact .inr ⟨ruleId, by simpa using ⟨hlocal, hdesired⟩, rfl⟩

/-- Without desired rules every reported rule is deleted, and nothing else is done. -/
theorem reconcile_unread {payload : Entries} (h : desiredRules raw = []) :
    reconcile raw payload = (Dict.keys (localRules payload)).map deleteRequest := by
  unfold reconcile
  simp [h, Dict.keys]

theorem localRules_eq_nil {payload : Entries} : Dict.keys (localRules payload) = [] ↔
    ∀ row ∈ reportRows payload, reportedId row = "" := by
  rw [List.eq_nil_iff_forall_not_mem]
  simp only [mem_localRules, List.mem_map, not_and, not_exists]
  constructor
  · intro h row hrow
    exact Classical.byContradiction fun hne => h _ hne row hrow rfl
  · rintro h ruleId hne row hrow rfl
    exact hne (h row hrow)

/-- The safeguard holds exactly when the rules document was read or the
report names no rule. -/
theorem safeguarded_iff (raw : Option Json) (payload : Json) :
    Safeguarded raw payload ↔ (loadPortmapRulesDocument raw).2 = true ∨
      ∀ row ∈ reportRows (asDict payload), reportedId row = "" := by
  have hids := reportedIds_payload raw payload
  unfold Safeguarded statusRequests
  generalize (normalizePortmapPayload raw payload).or (.dict []) = report at hids ⊢
  have hnone : (∀ row ∈ reportRows (asDict payload), reportedId row = "") ↔
      ∀ row ∈ reportRows (asDict report), reportedId row = "" := by
    rw [← List.forall_mem_map (P := (· = "")), ← hids, List.forall_mem_map]
  rw [hnone]
  cases hread : (loadPortmapRulesDocument raw).2 with
  | true =>
    simp only [true_or, iff_true, reduceCtorEq, false_implies, true_and]
    intro ruleId hmem
    split at hmem
    · exact (delete_mem_reconcile.mp hmem).2
    · simp at hmem
  | false =>
    have hdesired := desiredRules_unread hread
    simp only [true_implies, reduceCtorEq, false_or, false_and]
    cases report with
    | dict payload =>
      dsimp only [asDict_dict]
      rw [reconcile_unread hdesired, List.map_eq_nil_iff, localRules_eq_nil]
      exact and_iff_left_of_imp fun hnil => by simp [localRules_eq_nil.mpr hnil]
    | _ => simp [reportRows, asDict, dict?, Json.get, list?]

omit [Unicode] in
/-- The rules document is missing, and the report names a rule. -/
theorem unread_deletes :
    ¬ @Safeguarded .ascii none
      (.dict [("rules", .list [.dict [("rule", .dict [("id", .str "router-only")]),
        ("runtime", .dict [("id", .str "router-only")])]])]) := by
  rintro ⟨hnothing, -⟩
  exact absurd (hnothing rfl) (by decide)

end LabProbe.PortMap
