import LabProbe.Stun.Handlers

/-!
# When the STUN rules stay distinct

A port is looked for once, among those the other rules of the protocol do
not take, and kept when an edit changes the protocol. A create takes
whatever identifier it is given. The rules stay distinct in exactly the runs
in which no accepted create repeats an identifier and no accepted edit moves
a rule to a protocol in which its port is taken.
-/

namespace LabProbe.Stun

open Py Py.Json Hub Check Runs

section
variable [Unicode]

-- ---------------------------------------------------------------------------
-- The property and the condition
-- ---------------------------------------------------------------------------

/-- No two rules of the document share an identifier, or a port and protocol. -/
def DistinctRules (doc : Document) : Prop := Slots.Distinct ruleId slot doc.rules

instance (doc : Document) : Decidable (DistinctRules doc) :=
  inferInstanceAs (Decidable (Slots.Distinct ruleId slot doc.rules))

/-- A create names no stored rule; an edit keeps the protocol, or its port
is free in the new one. -/
def Call.KeepsSlots (rows : List Entries) : Call → Prop
  | .create c body => ∀ row ∈ rows, ruleId row ≠ strip (chosenId c.toReadings (asDict body) [])
  | .update _ id body => ∀ old, findRule id rows = .ok old →
      chosenProtocol (asDict body) old = (slot old).2 ∨
        ∀ row ∈ rows, slot row ≠ ((slot old).1, chosenProtocol (asDict body) old)
  | .delete .. | .act .. => True

/-- The request is refused, or keeps the rules apart. -/
def KeepsSlots (doc : Document) (call : Call) : Prop :=
  (call.handle doc.rules).toBool = true → call.KeepsSlots doc.rules

-- ---------------------------------------------------------------------------
-- Accepted rules
-- ---------------------------------------------------------------------------

variable {doc : Document} {rows portmaps : List Entries} {row old payload : Entries}
  {r : Readings} {rule : Rule} {call : Call} {change : Change}

theorem ruleId_toJson (rule : Rule) : ruleId rule.toJson = strip rule.id := text_str rule.id

theorem strip_ruleId (row : Entries) : strip (ruleId row) = ruleId row := strip_text _

theorem upper_text_protocol {p : String} (h : p = "TCP" ∨ p = "UDP") :
    Unicode.upper (text (.str p)) = p := by
  have hstrip : strip p = p := by rcases h with rfl | rfl <;> decide
  rw [text_str, hstrip]
  rcases h with rfl | rfl <;> rw [Unicode.upper_ascii _ (by decide)] <;> decide

theorem Cleaned.slot (h : Cleaned r rows portmaps payload old rule) :
    slot rule.toJson = (rule.listenPort, rule.transportProtocol) :=
  Prod.ext rfl (upper_text_protocol h.transport)

theorem strip_chosenId_ne (r : Readings) (payload old : Entries) :
    strip (chosenId r payload old) ≠ "" := by
  simp only [chosenId]
  split
  · have hfirst : ("stun-" ++ hexDigits 12 r.token).toList =
        's' :: ("tun-" ++ hexDigits 12 r.token).toList := by
      simp [String.toList_append]
    have hs : isSpace 's' = false := by decide
    unfold strip
    rw [hfirst, List.dropWhile_cons_of_neg (by simp [hs])]
    intro hempty
    have hnil := congrArg String.toList hempty
    rw [String.toList_ofList] at hnil
    have hall := List.rdropWhile_eq_nil_iff.mp hnil 's' List.mem_cons_self
    simp [hs] at hall
  · rename_i hne
    rwa [strip_text]

theorem allocatedPort_ok {protocol id : String} {port : Int}
    (h : allocatedPort rows portmaps protocol id = .ok port) :
    port ∈ portRange ∧ port ∉ usedPorts rows portmaps protocol id := by
  unfold allocatedPort at h
  split at h
  · rename_i hfind
    cases h
    have hfree := List.find?_some hfind
    exact ⟨List.mem_of_find?_eq_some hfind, by simpa using hfree⟩
  · cases h

/-- The port of a new rule is taken neither by a rule of another identifier
nor by a port map. -/
theorem Cleaned.allocated (h : Cleaned r rows portmaps payload [] rule) :
    rule.listenPort ∈ portRange ∧ Slots.Free ruleId Stun.slot rows rule.toJson ∧
      ∀ row ∈ portmaps, Stun.slot row ≠ Stun.slot rule.toJson := by
  have hkept : intOf 0 (get [] "listenPort") = 0 := rfl
  have hlisten := h.listenPort
  simp only [Stun.listenPort, hkept, ne_eq, not_true_eq_false, if_false] at hlisten
  obtain ⟨hrange, hunused⟩ := allocatedPort_ok hlisten
  simp only [usedPorts, List.mem_map, List.mem_append, List.mem_filter, not_exists, not_and] at hunused
  refine ⟨hrange, fun other ho hid heq => ?_, fun row hrow heq => ?_⟩
  · rw [h.slot] at heq
    have hother : ruleId other ≠ rule.id := by
      intro hsame
      rw [ruleId_toJson, ← hsame, strip_ruleId] at hid
      exact hid rfl
    exact hunused other (.inl ⟨ho, by simp [hother, heq]⟩) (by rw [heq])
  · rw [h.slot] at heq
    exact hunused row (.inr ⟨hrow, by simp [heq]⟩) (by rw [heq])

theorem chosenProtocol_set_id (payload old : Entries) (id : Json) :
    chosenProtocol (Dict.set payload "id" id) old = chosenProtocol payload old := by
  simp [chosenProtocol, chosenTemplate, get_set]

theorem Cleaned.edited {id : String} (hold : ruleId old = id) (hid : id ≠ "")
    (hport : (Stun.slot old).1 ≠ 0)
    (h : Cleaned r rows portmaps (Dict.set payload "id" (.str id)) old rule) :
    ruleId rule.toJson = id ∧
      Stun.slot rule.toJson = ((Stun.slot old).1, chosenProtocol payload old) := by
  have hstrip : strip id = id := by rw [← hold, strip_ruleId]
  constructor
  · have htruthy : (Json.str id).truthy = true := by simpa [truthy] using hid
    have hget : get (Dict.set payload "id" (.str id)) "id" = .str id := by simp [get_set]
    have hchosen : chosenId r (Dict.set payload "id" (.str id)) old = id := by
      rw [chosenId, hget, or_of_truthy htruthy, text_str, hstrip, if_neg hid]
    rw [ruleId_toJson, h.id, hchosen, hstrip]
  · have hkept : intOf 0 (get old "listenPort") ≠ 0 := hport
    have hlisten := h.listenPort
    simp only [Stun.listenPort, ne_eq, hkept, not_false_eq_true, if_true, Except.ok.injEq] at hlisten
    rw [h.slot, h.protocol, chosenProtocol_set_id, ← hlisten]
    rfl

theorem switched_row (old : Entries) (start : Bool) (now : String) :
    ruleId (Dict.set (Dict.set old "enabled" (.bool start)) "updatedAt" (.str now)) = ruleId old ∧
      slot (Dict.set (Dict.set old "enabled" (.bool start)) "updatedAt" (.str now)) = slot old := by
  simp [ruleId, slot, get_set]

theorem findRule_ok {id : String} (h : findRule id rows = .ok old) :
    old ∈ rows ∧ ruleId old = id :=
  (Slots.find_ok h).imp_right beq_iff_eq.mp

theorem named_iff_id {id : String} (hold : ruleId old = id) :
    ∀ row ∈ rows, named id row = true ↔ ruleId row = ruleId old :=
  fun _ _ => by simp [named, hold]

-- ---------------------------------------------------------------------------
-- One request
-- ---------------------------------------------------------------------------

/-- The rules are apart, under identifiers that are not empty and on ports
of the range. -/
structure Sound (rows : List Entries) : Prop where
  distinct : Slots.Distinct ruleId slot rows
  ids : ∀ row ∈ rows, ruleId row ≠ ""
  ports : ∀ row ∈ rows, (slot row).1 ∈ portRange

omit [Unicode] in
theorem ne_zero_of_mem_portRange {port : Int} (h : port ∈ portRange) : port ≠ 0 := by
  obtain ⟨i, -, rfl⟩ := List.mem_map.mp h
  omega

/-- An accepted request leaves the rules distinct exactly when it keeps
them apart. -/
theorem handle_distinct_iff (hs : Sound rows) (h : call.handle rows = .ok change) :
    Slots.Distinct ruleId slot change.rows ↔ call.KeepsSlots rows := by
  cases call with
  | create c body =>
    simp only [Call.handle, createRule, bind_eq_ok, Except.ok.injEq] at h
    obtain ⟨payload, hbody, rule, hclean, _, -, rfl⟩ := h
    have hcleaned := cleanRule_ok hclean
    rw [Slots.distinct_append_free hs.distinct hcleaned.allocated.2.1, ruleId_toJson, hcleaned.id,
      Call.KeepsSlots, bodyOr_ok hbody]
  | update c id body =>
    simp only [Call.handle, updateRule, bind_eq_ok, Except.ok.injEq] at h
    obtain ⟨old, hfind, payload, hbody, rule, hclean, _, -, rfl⟩ := h
    obtain ⟨hmem, hold⟩ := findRule_ok hfind
    obtain ⟨hid, hslot⟩ := (cleanRule_ok hclean).edited hold (hold ▸ hs.ids old hmem)
      (ne_zero_of_mem_portRange (hs.ports old hmem))
    rw [Slots.distinct_replace_iff hs.distinct hmem (named_iff_id hold), Call.KeepsSlots,
      bodyOr_ok hbody]
    constructor
    · intro hapart old' hfind'
      cases hfind.symm.trans hfind'
      refine or_iff_not_imp_left.mpr fun hne row hrow heq => ?_
      by_cases hsame : ruleId row = ruleId old
      · rw [hs.distinct.inj hrow hmem hsame] at heq
        exact hne (congrArg Prod.snd heq).symm
      · exact (hapart row hrow hsame).2 (heq.trans hslot.symm)
    · intro hkeeps other ho hne
      refine ⟨by rwa [hid, ← hold], fun heq => ?_⟩
      rcases hkeeps old hfind with hprotocol | hfree
      · rw [hslot, hprotocol] at heq
        exact hne (congrArg ruleId (hs.distinct.inj_slot ho hmem heq))
      · exact hfree other ho (heq.trans hslot)
  | delete c id =>
    simp only [Call.handle, deleteRule, bind_eq_ok, Except.ok.injEq] at h
    obtain ⟨_, -, _, -, rfl⟩ := h
    exact iff_of_true (hs.distinct.sublist List.filter_sublist) trivial
  | act c id start =>
    simp only [Call.handle, actOnRule, bind_eq_ok, Except.ok.injEq] at h
    obtain ⟨old, hfind, _, -, rfl⟩ := h
    obtain ⟨hmem, hold⟩ := findRule_ok hfind
    refine iff_of_true ((Slots.distinct_replace_iff hs.distinct hmem (named_iff_id hold)).mpr ?_)
      trivial
    intro other ho hne
    obtain ⟨hid, hslot⟩ := switched_row old start c.now
    refine ⟨?_, fun heq => ?_⟩
    · rw [hid]
      exact hne
    · rw [hslot] at heq
      exact hne (congrArg ruleId (hs.distinct.inj_slot ho hmem heq))

theorem handle_rows (hrows : ∀ row ∈ rows, ruleId row ≠ "" ∧ (slot row).1 ∈ portRange)
    (h : call.handle rows = .ok change) :
    ∀ row ∈ change.rows, ruleId row ≠ "" ∧ (slot row).1 ∈ portRange := by
  cases call with
  | create c body =>
    simp only [Call.handle, createRule, bind_eq_ok, Except.ok.injEq] at h
    obtain ⟨payload, -, rule, hclean, _, -, rfl⟩ := h
    have hcleaned := cleanRule_ok hclean
    intro row hrow
    rcases List.mem_append.mp hrow with hrow | hrow
    · exact hrows row hrow
    · rw [List.mem_singleton.mp hrow, ruleId_toJson, hcleaned.id, hcleaned.slot]
      exact ⟨strip_chosenId_ne _ _ _, hcleaned.allocated.1⟩
  | update c id body =>
    simp only [Call.handle, updateRule, bind_eq_ok, Except.ok.injEq] at h
    obtain ⟨old, hfind, payload, -, rule, hclean, _, -, rfl⟩ := h
    obtain ⟨hmem, hold⟩ := findRule_ok hfind
    obtain ⟨hid, hslot⟩ := (cleanRule_ok hclean).edited hold (hold ▸ (hrows old hmem).1)
      (ne_zero_of_mem_portRange (hrows old hmem).2)
    intro row hrow
    rcases Slots.mem_replace hrow with rfl | hrow
    · rw [hid, hslot, ← hold]
      exact hrows old hmem
    · exact hrows row hrow
  | delete c id =>
    simp only [Call.handle, deleteRule, bind_eq_ok, Except.ok.injEq] at h
    obtain ⟨_, -, _, -, rfl⟩ := h
    exact fun row hrow => hrows row (List.mem_of_mem_filter hrow)
  | act c id start =>
    simp only [Call.handle, actOnRule, bind_eq_ok, Except.ok.injEq] at h
    obtain ⟨old, hfind, _, -, rfl⟩ := h
    obtain ⟨hid, hslot⟩ := switched_row old start c.now
    intro row hrow
    rcases Slots.mem_replace hrow with rfl | hrow
    · rw [hid, hslot]
      exact hrows old (findRule_ok hfind).1
    · exact hrows row hrow

-- ---------------------------------------------------------------------------
-- Runs
-- ---------------------------------------------------------------------------

theorem distinct_step_iff (hs : Sound doc.rules) (call : Call) :
    DistinctRules (handle doc call) ↔ KeepsSlots doc call := by
  cases h : call.handle doc.rules with
  | ok change =>
    rw [DistinctRules, handle, KeepsSlots, h]
    exact (handle_distinct_iff hs h).trans ⟨fun hk _ => hk, fun hk => hk rfl⟩
  | error e =>
    rw [DistinctRules, handle, KeepsSlots, h]
    exact iff_of_true hs.distinct nofun

theorem sound_step (hs : Sound doc.rules) (hk : KeepsSlots doc call) :
    Sound (handle doc call).rules := by
  have hdistinct := (distinct_step_iff hs call).mpr hk
  cases h : call.handle doc.rules with
  | ok change =>
    rw [DistinctRules, handle, h] at hdistinct
    rw [handle, h]
    have hrows := handle_rows (fun row hrow => ⟨hs.ids row hrow, hs.ports row hrow⟩) h
    exact ⟨hdistinct, fun row hrow => (hrows row hrow).1, fun row hrow => (hrows row hrow).2⟩
  | error e =>
    rw [handle, h]
    exact hs

/-- The rules stay distinct in exactly the runs whose accepted requests
keep them apart. -/
theorem stun_distinct_iff (calls : List Call) :
    Along handle (fun doc call => DistinctRules (handle doc call)) {} calls ↔
      Along handle KeepsSlots {} calls :=
  along_iff (I := fun doc => Sound doc.rules) ⟨Slots.distinct_nil, nofun, nofun⟩
    (fun _ _ hs hk => sound_step hs hk) fun _ call hs => distinct_step_iff hs call

end

section
local instance asciiStunDistinct : Unicode := .ascii

def exampleContext (token : Nat) : Context :=
  { now := "", token := token, env := fun _ => "", portmaps := [], router := .ok () }

def exampleBody (protocol : String) : Json :=
  .dict [("transportProtocol", .str protocol), ("targetIpv4", .str "192.168.1.2"),
    ("targetPort", .int 80)]

/-- A TCP rule and a UDP rule get the same port, and the second becomes a
TCP rule. -/
theorem ports_collide : ¬ DistinctRules (run handle {}
    [.create (exampleContext 10) (exampleBody "TCP"),
      .create (exampleContext 11) (exampleBody "UDP"),
      .update (exampleContext 12) "stun-00000000000b" (exampleBody "TCP")]) := by
  decide +kernel

end

end LabProbe.Stun
