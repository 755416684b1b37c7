import LabProbe.PortMap.Distinct
import LabProbe.Relay.Rule
import LabProbe.Stun.Distinct

/-!
# Ports across the two services

The agent keeps port maps and STUN rules in one map and refuses a port and
protocol that another identifier holds. The STUN service asks for the port
maps when it looks for a port; the port maps never ask for the STUN rules,
and neither service looks at the identifiers of the other. The documents
stay apart in exactly the runs whose accepted requests keep them apart.
-/

namespace LabProbe.Relay

open Py Py.Json Hub Check Runs

-- ---------------------------------------------------------------------------
-- The two services
-- ---------------------------------------------------------------------------

/-- The rules documents of the two services. -/
structure State where
  portmaps : Option Json := none
  stun : Stun.Document := {}

inductive Event where
  | portmap (call : PortMap.Call)
  | stun (call : Stun.Call)

/-- The call with the port maps as they are stored when it is handled. -/
def reading (portmaps : List Entries) : Stun.Call → Stun.Call
  | .create c body => .create { c with portmaps := portmaps } body
  | .update c id body => .update { c with portmaps := portmaps } id body
  | .delete c id => .delete { c with portmaps := portmaps } id
  | .act c id start => .act { c with portmaps := portmaps } id start

section
variable [Unicode]

/-- The port maps as the services load them. -/
def State.loaded (s : State) : List Entries := PortMap.loadPortmapRules s.portmaps

def step (s : State) : Event → State
  | .portmap call => { s with portmaps := PortMap.handle s.portmaps call }
  | .stun call => { s with stun := Stun.handle s.stun (reading s.loaded call) }

-- ---------------------------------------------------------------------------
-- The property and the condition
-- ---------------------------------------------------------------------------

/-- A port map and a STUN rule share neither the identifier nor the port and
protocol. -/
def ApartFrom (portmap rule : Entries) : Prop :=
  PortMap.ruleId portmap ≠ .str (Stun.ruleId rule) ∧ PortMap.slot portmap ≠ Stun.slot rule

instance (portmap rule : Entries) : Decidable (ApartFrom portmap rule) :=
  inferInstanceAs (Decidable (_ ∧ _))

def Reserved (s : State) : Prop :=
  ∀ portmap ∈ PortMap.documentRows s.portmaps, ∀ rule ∈ s.stun.rules, ApartFrom portmap rule

instance (s : State) : Decidable (Reserved s) :=
  inferInstanceAs (Decidable (∀ portmap ∈ _, ∀ rule ∈ _, ApartFrom portmap rule))

/-- The port and the protocol a port-map request asks for. -/
def requestedSlot (payload old : Entries) : Int × String :=
  (toInt ((PortMap.merged old payload "listenPort").getD .null) 0,
    Unicode.upper (cleanSavedValue
      (((PortMap.merged old payload "transportProtocol").getD .null).or (.str "TCP"))))

def Untaken (s : State) (id : String) (slot : Int × String) : Prop :=
  ∀ rule ∈ s.stun.rules, Stun.ruleId rule ≠ id ∧ Stun.slot rule ≠ slot

/-- What a port map asks for is not taken by a STUN rule. -/
def PortmapKeeps (s : State) : PortMap.Call → Prop
  | .create r body =>
    Untaken s (PortMap.portmapRuleId (get (asDict body) "id") r.freshId)
      (requestedSlot (asDict body) [])
  | .update r id body => ∀ old, PortMap.findRule id s.loaded = .ok old →
      Untaken s (PortMap.portmapRuleId (.str id) r.freshId) (requestedSlot (asDict body) old)
  | .delete .. | .act .. => True

/-- A new STUN rule names no port map, and its port is not that of a row
that loading leaves out; an edit keeps the protocol, or no port map has the
port in the new one. -/
def StunKeeps (s : State) : Stun.Call → Prop
  | .create c body =>
    ∀ portmap ∈ PortMap.documentRows s.portmaps,
      PortMap.ruleId portmap ≠ .str (strip (Stun.chosenId c.toReadings (asDict body) [])) ∧
        (portmap ∉ s.loaded → ∀ port,
          Stun.allocatedPort s.stun.rules s.loaded (Stun.chosenProtocol (asDict body) [])
            (Stun.chosenId c.toReadings (asDict body) []) = .ok port →
          PortMap.slot portmap ≠ (port, Stun.chosenProtocol (asDict body) []))
  | .update _ id body => ∀ old, Stun.findRule id s.stun.rules = .ok old →
      Stun.chosenProtocol (asDict body) old = (Stun.slot old).2 ∨
        ∀ portmap ∈ PortMap.documentRows s.portmaps,
          PortMap.slot portmap ≠ ((Stun.slot old).1, Stun.chosenProtocol (asDict body) old)
  | .delete .. | .act .. => True

/-- The request is refused, or keeps the documents apart. -/
def KeepsApart (s : State) : Event → Prop
  | .portmap call => (call.handle s.loaded).toBool = true → PortmapKeeps s call
  | .stun call => ((reading s.loaded call).handle s.stun.rules).toBool = true → StunKeeps s call

-- ---------------------------------------------------------------------------
-- Stored rows
-- ---------------------------------------------------------------------------

omit [Unicode] in
/-- A port and a protocol as the services store them. -/
def Typed (row : Entries) : Prop :=
  ∃ port protocol, (protocol = "TCP" ∨ protocol = "UDP") ∧ port.natAbs ≤ 65535 ∧
    get row "listenPort" = .int port ∧ get row "transportProtocol" = .str protocol

omit [Unicode] in
theorem Typed.congr {row old : Entries} (h : Typed old)
    (hport : get row "listenPort" = get old "listenPort")
    (hprotocol : get row "transportProtocol" = get old "transportProtocol") : Typed row := by
  rwa [Typed, hport, hprotocol]

theorem Typed.slot_eq {row : Entries} (h : Typed row) : PortMap.slot row = Stun.slot row := by
  obtain ⟨port, protocol, hp, hbound, hport, hprotocol⟩ := h
  rw [PortMap.slot, Stun.slot, hport, hprotocol, PortMap.upper_transport hp,
    Stun.upper_text_protocol hp, toInt_int (natAbs_lt_limit (by omega)), intOf]

variable {s : State} {rows : List Entries} {row rule old payload : Entries} {raw : Option Json}

theorem acceptedRule_slot {r : PortMap.Readings}
    (h : PortMap.acceptedRule r rows payload old = .ok rule) :
    PortMap.slot rule = requestedSlot payload old ∧ Typed rule := by
  simp only [PortMap.acceptedRule, bind_eq_ok, Except.ok.injEq] at h
  obtain ⟨cleaned, hclean, _, -, rfl⟩ := h
  obtain ⟨target, hcleaned⟩ := PortMap.cleanPortmapRule_ok hclean
  have hport := hcleaned.listenPort
  refine ⟨?_, cleaned.listenPort, cleaned.transportProtocol, hcleaned.protocol, by omega, rfl, rfl⟩
  rw [hcleaned.slot, hcleaned.port, hcleaned.transport, requestedSlot]

theorem requestedSlot_set_id (payload old : Entries) (id : Json) :
    requestedSlot (Dict.set payload "id" id) old = requestedSlot payload old := by
  simp [requestedSlot, PortMap.merged, Dict.get?_set]

theorem mem_savedRows (hrow : row ∈ PortMap.savedRows rows) : row ∈ rows := by
  rw [PortMap.savedRows, List.mem_insertionSort] at hrow
  exact List.mem_of_mem_drop hrow

theorem length_savedRows_le (rows : List Entries) : (PortMap.savedRows rows).length ≤ 100 := by
  rw [PortMap.savedRows, List.length_insertionSort, Logs.cap, List.length_drop]
  omega

theorem mem_savedRows_append (rows : List Entries) (row : Entries) :
    row ∈ PortMap.savedRows (rows ++ [row]) := by
  rw [PortMap.savedRows, List.mem_insertionSort, Logs.cap,
    List.drop_append_of_le_length (by simp)]
  simp

/-- A start or a stop of a port map keeps its port and protocol. -/
theorem switchedRule_fields {epoch : Int} {start : Bool}
    (h : PortMap.switchedRule epoch start old = .ok rule) (now : Json) :
    get (Dict.set rule "updatedAt" now) "listenPort" = get old "listenPort" ∧
      get (Dict.set rule "updatedAt" now) "transportProtocol" = get old "transportProtocol" := by
  simp only [PortMap.switchedRule, PortMap.startedRule] at h
  repeat' split at h
  all_goals cases h
  all_goals simp [get_set]

/-- The rows a document of port maps may hold. -/
structure Portmaps (raw : Option Json) : Prop where
  typed : ∀ row ∈ PortMap.documentRows raw, Typed row
  length : (PortMap.documentRows raw).length ≤ 100

theorem Portmaps.loaded_length (h : Portmaps raw) : (PortMap.loadPortmapRules raw).length ≤ 100 :=
  ((PortMap.loadPortmapRules_sublist raw).length_le).trans h.length

-- ---------------------------------------------------------------------------
-- A request to the port maps
-- ---------------------------------------------------------------------------

theorem portmaps_step (h : Portmaps raw) (call : PortMap.Call) :
    Portmaps (PortMap.handle raw call) := by
  cases hcall : call.handle (PortMap.loadPortmapRules raw) with
  | error e =>
    have hsame : PortMap.handle raw call = raw := by rw [PortMap.handle, hcall]
    rwa [hsame]
  | ok change =>
    have hrows : PortMap.documentRows (PortMap.handle raw call) = PortMap.savedRows change.rows := by
      rw [PortMap.handle, hcall]
      exact PortMap.documentRows_save _ _ _
    have hloaded : ∀ row ∈ PortMap.loadPortmapRules raw, Typed row := fun row hrow =>
      h.typed row ((PortMap.loadPortmapRules_sublist raw).subset hrow)
    refine ⟨fun row hrow => ?_, hrows ▸ length_savedRows_le _⟩
    rw [hrows] at hrow
    have hmem := mem_savedRows hrow
    cases call with
    | create r body =>
      simp only [PortMap.Call.handle, PortMap.createRule, bind_eq_ok, Except.ok.injEq] at hcall
      obtain ⟨payload, -, rule, haccept, rfl⟩ := hcall
      rcases List.mem_append.mp hmem with hmem | hmem
      · exact hloaded row hmem
      · exact List.mem_singleton.mp hmem ▸ (acceptedRule_slot haccept).2
    | update r id body =>
      simp only [PortMap.Call.handle, PortMap.updateRule, bind_eq_ok, Except.ok.injEq] at hcall
      obtain ⟨old, -, payload, -, rule, haccept, rfl⟩ := hcall
      rcases Slots.mem_replace hmem with rfl | hmem
      · exact (acceptedRule_slot haccept).2
      · exact hloaded row hmem
    | delete r id =>
      simp only [PortMap.Call.handle, bind_eq_ok, Except.ok.injEq] at hcall
      obtain ⟨-, -, rfl⟩ := hcall
      exact hloaded row ((PortMap.deleteRule_sublist id _).subset hmem)
    | act r id start =>
      simp only [PortMap.Call.handle, PortMap.actOnRule, bind_eq_ok, Except.ok.injEq] at hcall
      obtain ⟨old, hfind, rule, hrule, rfl⟩ := hcall
      rcases Slots.mem_replace hmem with rfl | hmem
      · obtain ⟨hport, hprotocol⟩ := switchedRule_fields hrule (.str r.now)
        exact (hloaded old (PortMap.findRule_ok hfind).1).congr hport hprotocol
      · exact hloaded row hmem

theorem untaken_iff {id : String} {slot : Int × String} (hid : PortMap.ruleId row = .str id)
    (hslot : PortMap.slot row = slot) :
    (∀ rule ∈ s.stun.rules, ApartFrom row rule) ↔ Untaken s id slot := by
  refine forall₂_congr fun rule _ => ?_
  rw [ApartFrom, hid, hslot, ne_eq, Json.str.injEq]
  exact and_congr ne_comm ne_comm

/-- An accepted request to the port maps keeps the documents apart exactly
when what it asks for is not taken. -/
theorem portmap_reserved_iff (hr : Reserved s) (hp : Portmaps s.portmaps) {call : PortMap.Call}
    {change : PortMap.Change} (h : call.handle s.loaded = .ok change) :
    Reserved (step s (.portmap call)) ↔ PortmapKeeps s call := by
  have hrows : PortMap.documentRows (PortMap.handle s.portmaps call) =
      PortMap.savedRows change.rows := by
    rw [State.loaded] at h
    rw [PortMap.handle, h]
    exact PortMap.documentRows_save _ _ _
  have hsub : ∀ row ∈ s.loaded, row ∈ PortMap.documentRows s.portmaps := fun row hrow =>
    (PortMap.loadPortmapRules_sublist s.portmaps).subset hrow
  have hreserved : Reserved (step s (.portmap call)) ↔
      ∀ row ∈ PortMap.savedRows change.rows, ∀ rule ∈ s.stun.rules, ApartFrom row rule := by
    rw [Reserved, ← hrows]
    rfl
  rw [hreserved]
  cases call with
  | create r body =>
    simp only [PortMap.Call.handle, PortMap.createRule, bind_eq_ok, Except.ok.injEq] at h
    obtain ⟨payload, hbody, rule, haccept, rfl⟩ := h
    obtain ⟨hid, -, -⟩ := PortMap.acceptedRule_ok haccept
    rw [PortMap.portmapRuleId_create, ← bodyOr_ok hbody] at hid
    have hslot := (acceptedRule_slot haccept).1
    rw [← bodyOr_ok hbody] at hslot
    rw [Slots.forall_gained_iff hr (mem_savedRows_append s.loaded rule), untaken_iff hid hslot]
    · rfl
    · intro row hrow
      rcases List.mem_append.mp (mem_savedRows hrow) with hrow | hrow
      · exact .inr ⟨row, hsub row hrow, id⟩
      · exact .inl (List.mem_singleton.mp hrow)
  | update r id body =>
    simp only [PortMap.Call.handle, PortMap.updateRule, bind_eq_ok, Except.ok.injEq] at h
    obtain ⟨old, hfind, payload, hbody, rule, haccept, rfl⟩ := h
    obtain ⟨hmem, hold⟩ := PortMap.findRule_ok hfind
    obtain ⟨hid, -, -⟩ := PortMap.acceptedRule_ok haccept
    rw [PortMap.portmapRuleId_update hold] at hid
    have hslot := (acceptedRule_slot haccept).1
    rw [requestedSlot_set_id, ← bodyOr_ok hbody] at hslot
    have hnew : rule ∈ PortMap.savedRows (Slots.replace (PortMap.named id) rule s.loaded) := by
      have hlen : (Slots.replace (PortMap.named id) rule s.loaded).length ≤ 100 := by
        rw [Slots.replace, List.length_map]
        exact hp.loaded_length
      refine (PortMap.savedRows_perm hlen).mem_iff.mpr (List.mem_map.mpr ⟨old, hmem, ?_⟩)
      exact if_pos (PortMap.named_iff.mpr hold)
    rw [Slots.forall_gained_iff hr hnew, untaken_iff hid hslot]
    · exact ⟨fun hu old' hfind' => (Except.ok.inj (hfind.symm.trans hfind')) ▸ hu,
        fun hk => hk old hfind⟩
    · intro row hrow
      rcases Slots.mem_replace (mem_savedRows hrow) with rfl | hrow
      · exact .inl rfl
      · exact .inr ⟨row, hsub row hrow, fun happ => happ⟩
  | delete r id =>
    simp only [PortMap.Call.handle, bind_eq_ok, Except.ok.injEq] at h
    obtain ⟨-, -, rfl⟩ := h
    refine iff_of_true (fun row hrow => ?_) trivial
    exact hr row (hsub row ((PortMap.deleteRule_sublist id _).subset (mem_savedRows hrow)))
  | act r id start =>
    simp only [PortMap.Call.handle, PortMap.actOnRule, bind_eq_ok, Except.ok.injEq] at h
    obtain ⟨old, hfind, rule, hrule, rfl⟩ := h
    refine iff_of_true (fun row hrow => ?_) trivial
    rcases Slots.mem_replace (mem_savedRows hrow) with rfl | hrow
    · obtain ⟨hid, hslot⟩ := PortMap.switchedRule_ok hrule (.str r.now)
      intro stunRule hstun
      rw [ApartFrom, hid, hslot]
      exact hr old (hsub old (PortMap.findRule_ok hfind).1) stunRule hstun
    · exact hr row (hsub row hrow)

-- ---------------------------------------------------------------------------
-- A request to the STUN service
-- ---------------------------------------------------------------------------

def StunRules (rows : List Entries) : Prop :=
  ∀ row ∈ rows, Stun.ruleId row ≠ "" ∧ (Stun.slot row).1 ∈ Stun.portRange

theorem stunRules_step {doc : Stun.Document} (h : StunRules doc.rules) (call : Stun.Call) :
    StunRules (Stun.handle doc call).rules := by
  cases hcall : call.handle doc.rules with
  | error e =>
    have hsame : Stun.handle doc call = doc := by rw [Stun.handle, hcall]
    rwa [hsame]
  | ok change =>
    have hrows : (Stun.handle doc call).rules = change.rows := by
      rw [Stun.handle, hcall]
      rfl
    rw [hrows]
    exact Stun.handle_rows h hcall

theorem reserved_stun_iff (s : State) (call : Stun.Call) :
    Reserved (step s (.stun call)) ↔
      ∀ rule ∈ (Stun.handle s.stun (reading s.loaded call)).rules,
        ∀ portmap ∈ PortMap.documentRows s.portmaps, ApartFrom portmap rule :=
  ⟨fun h rule hrule portmap hportmap => h portmap hportmap rule hrule,
    fun h portmap hportmap rule hrule => h rule hrule portmap hportmap⟩

/-- A new rule is apart from the port maps exactly when they do not have its
identifier and those that loading leaves out do not have its port. -/
theorem created_apart_iff {r : Stun.Readings} {stored : Stun.Rule} (hp : Portmaps s.portmaps)
    (h : Stun.Cleaned r s.stun.rules s.loaded payload [] stored) :
    (∀ portmap ∈ PortMap.documentRows s.portmaps, ApartFrom portmap stored.toJson) ↔
      ∀ portmap ∈ PortMap.documentRows s.portmaps,
        PortMap.ruleId portmap ≠ .str (strip (Stun.chosenId r payload [])) ∧
          (portmap ∉ s.loaded → ∀ port,
            Stun.allocatedPort s.stun.rules s.loaded (Stun.chosenProtocol payload [])
              (Stun.chosenId r payload []) = .ok port →
            PortMap.slot portmap ≠ (port, Stun.chosenProtocol payload [])) := by
  have hkept : intOf 0 (get [] "listenPort") = 0 := rfl
  have hport := h.listenPort
  simp only [Stun.listenPort, hkept, ne_eq, not_true_eq_false, if_false] at hport
  rw [h.protocol, h.id] at hport
  refine forall₂_congr fun portmap hportmap => ?_
  rw [ApartFrom, Stun.ruleId_toJson, h.id]
  refine and_congr_right fun _ => ?_
  constructor
  · intro hne hout port hallocated
    cases hport.symm.trans hallocated
    rwa [h.slot, h.protocol] at hne
  · intro hout
    by_cases hin : portmap ∈ s.loaded
    · rw [(hp.typed portmap hportmap).slot_eq]
      exact h.allocated.2.2 portmap hin
    · have hne := hout hin _ hport
      rwa [h.slot, h.protocol]

/-- An accepted request to the STUN service keeps the documents apart
exactly under the condition. -/
theorem stun_reserved_iff (hr : Reserved s) (hp : Portmaps s.portmaps)
    (hrules : StunRules s.stun.rules) {call : Stun.Call} {change : Stun.Change}
    (h : (reading s.loaded call).handle s.stun.rules = .ok change) :
    Reserved (step s (.stun call)) ↔ StunKeeps s call := by
  have hrows : (Stun.handle s.stun (reading s.loaded call)).rules = change.rows := by
    rw [Stun.handle, h]
    rfl
  have hr' : ∀ rule ∈ s.stun.rules, ∀ portmap ∈ PortMap.documentRows s.portmaps,
      ApartFrom portmap rule := fun rule hrule portmap hportmap => hr portmap hportmap rule hrule
  rw [reserved_stun_iff, hrows]
  cases call with
  | create c body =>
    simp only [reading, Stun.Call.handle, Stun.createRule, bind_eq_ok, Except.ok.injEq] at h
    obtain ⟨payload, hbody, rule, hclean, _, -, rfl⟩ := h
    have hcleaned := Stun.cleanRule_ok hclean
    have hnew : rule.toJson ∈ s.stun.rules ++ [rule.toJson] := by simp
    rw [Slots.forall_gained_iff hr' hnew, created_apart_iff hp hcleaned, StunKeeps, bodyOr_ok hbody]
    intro row hrow
    rcases List.mem_append.mp hrow with hrow | hrow
    · exact .inr ⟨row, hrow, fun happ => happ⟩
    · exact .inl (List.mem_singleton.mp hrow)
  | update c id body =>
    simp only [reading, Stun.Call.handle, Stun.updateRule, bind_eq_ok, Except.ok.injEq] at h
    obtain ⟨old, hfind, payload, hbody, rule, hclean, _, -, rfl⟩ := h
    obtain ⟨hmem, hold⟩ := Stun.findRule_ok hfind
    obtain ⟨hstored, hrange⟩ := hrules old hmem
    obtain ⟨hid, hslot⟩ := (Stun.cleanRule_ok hclean).edited hold (hold ▸ hstored)
      (Stun.ne_zero_of_mem_portRange hrange)
    have hnew : rule.toJson ∈ Slots.replace (Stun.named id) rule.toJson s.stun.rules := by
      refine List.mem_map.mpr ⟨old, hmem, if_pos ?_⟩
      simp [Stun.named, hold]
    rw [Slots.forall_gained_iff hr' hnew, StunKeeps, bodyOr_ok hbody]
    · constructor
      · intro happ old' hfind'
        cases hfind.symm.trans hfind'
        exact .inr fun portmap hportmap => hslot ▸ (happ portmap hportmap).2
      · intro hk portmap hportmap
        have hapart := hr' old hmem portmap hportmap
        refine ⟨by rw [hid, ← hold]; exact hapart.1, ?_⟩
        rw [hslot]
        rcases hk old hfind with hprotocol | hfree
        · rw [hprotocol]
          exact hapart.2
        · exact hfree portmap hportmap
    · intro row hrow
      rcases Slots.mem_replace hrow with rfl | hrow
      · exact .inl rfl
      · exact .inr ⟨row, hrow, fun happ => happ⟩
  | delete c id =>
    simp only [reading, Stun.Call.handle, Stun.deleteRule, bind_eq_ok, Except.ok.injEq] at h
    obtain ⟨_, -, _, -, rfl⟩ := h
    exact iff_of_true (fun row hrow => hr' row (List.mem_of_mem_filter hrow)) trivial
  | act c id start =>
    simp only [reading, Stun.Call.handle, Stun.actOnRule, bind_eq_ok, Except.ok.injEq] at h
    obtain ⟨old, hfind, _, -, rfl⟩ := h
    refine iff_of_true (fun row hrow => ?_) trivial
    rcases Slots.mem_replace hrow with rfl | hrow
    · obtain ⟨hid, hslot⟩ := Stun.switched_row old start c.now
      intro portmap hportmap
      rw [ApartFrom, hid, hslot]
      exact hr' old (Stun.findRule_ok hfind).1 portmap hportmap
    · exact hr' row hrow

-- ---------------------------------------------------------------------------
-- Runs
-- ---------------------------------------------------------------------------

/-- The documents are apart, and their rows are ones the services store. -/
structure Sound (s : State) : Prop where
  reserved : Reserved s
  portmaps : Portmaps s.portmaps
  stun : StunRules s.stun.rules

theorem reserved_step_iff (h : Sound s) (e : Event) : Reserved (step s e) ↔ KeepsApart s e := by
  cases e with
  | portmap call =>
    rw [KeepsApart]
    cases hcall : call.handle s.loaded with
    | ok change =>
      rw [portmap_reserved_iff h.reserved h.portmaps hcall]
      exact ⟨fun hk _ => hk, fun hk => hk rfl⟩
    | error e =>
      have hsame : step s (.portmap call) = s := by
        rw [State.loaded] at hcall
        rw [step, PortMap.handle, hcall]
      rw [hsame]
      exact iff_of_true h.reserved fun h => by cases h
  | stun call =>
    rw [KeepsApart]
    cases hcall : (reading s.loaded call).handle s.stun.rules with
    | ok change =>
      rw [stun_reserved_iff h.reserved h.portmaps h.stun hcall]
      exact ⟨fun hk _ => hk, fun hk => hk rfl⟩
    | error e =>
      have hsame : step s (.stun call) = s := by rw [step, Stun.handle, hcall]
      rw [hsame]
      exact iff_of_true h.reserved fun h => by cases h

theorem sound_step (h : Sound s) {e : Event} (hk : KeepsApart s e) : Sound (step s e) := by
  refine ⟨(reserved_step_iff h e).mpr hk, ?_, ?_⟩
  · cases e with
    | portmap call => exact portmaps_step h.portmaps call
    | stun call => exact h.portmaps
  · cases e with
    | portmap call => exact h.stun
    | stun call => exact stunRules_step h.stun _

theorem sound_empty : Sound {} :=
  ⟨by simp [Reserved, PortMap.documentRows], ⟨by simp [PortMap.documentRows],
    by simp [PortMap.documentRows]⟩, nofun⟩

/-- The documents stay apart in exactly the runs whose accepted requests
keep them apart. -/
theorem reserved_iff (events : List Event) :
    Along step (fun s e => Reserved (step s e)) {} events ↔ Along step KeepsApart {} events :=
  along_iff sound_empty (fun _ _ hs hk => sound_step hs hk) fun _ e hs => reserved_step_iff hs e

end

section
local instance asciiReserved : Unicode := .ascii

def stunBody : Json :=
  .dict [("name", .str "nas"), ("targetIpv4", .str "192.168.1.2"), ("targetPort", .int 80)]

/-- A STUN rule takes the first port, and a port map may then have it. -/
theorem port_taken_twice : ¬ Reserved (run step {}
    [.stun (.create (Stun.exampleContext 10) stunBody),
      .portmap (.create PortMap.exampleReadings (PortMap.exampleBody "web" 20000))]) := by
  decide +kernel

end

end LabProbe.Relay
