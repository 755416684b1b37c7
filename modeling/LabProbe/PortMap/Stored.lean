import LabProbe.PortMap.Accepted
import LabProbe.PortMap.Identity

/-!
# Stored rules and what the agent reports of them

A stored rule has been cleaned, and since then been switched on or off at
most. What the agent makes of it compares equal to it, with the lease that
the Hub adds to the report: it would not be sent again.
-/

namespace LabProbe.PortMap

open Py Py.Json Hub Check Runs

section
variable [Unicode]

def Stored (row : Entries) : Prop :=
  ∃ (r : Readings) (payload old : Entries) (target : Target) (cleaned : Rule) (enabled : Bool)
    (expiresAt : Option Int) (updatedAt : String), Cleaned r payload old target cleaned ∧
      row = { cleaned with
        enabled := enabled, expiresAt := expiresAt, updatedAt := updatedAt }.toJson

/-- A rule as the agent reports it, with the lease of the desired one. -/
def withLease (expected : Entries) (rule : Relay.Rule) : Entries :=
  Dict.set rule.toJson "leaseSeconds" (.int (max 0 (toInt (get expected "leaseSeconds") 0)))

variable {r : Readings} {payload old row : Entries} {target : Target} {rule cleaned : Rule}
  {given applied : Relay.Rule} {rows : List Entries} {call : Call} {change : Change}

-- ---------------------------------------------------------------------------
-- Stored rules
-- ---------------------------------------------------------------------------

omit [Unicode] in
theorem set_enabled (rule : Rule) (enabled : Bool) :
    Dict.set rule.toJson "enabled" (.bool enabled) = { rule with enabled := enabled }.toJson := rfl

omit [Unicode] in
theorem set_expiresAt (rule : Rule) (n : Int) :
    Dict.set rule.toJson "expiresAt" (.int n) = { rule with expiresAt := some n }.toJson := rfl

omit [Unicode] in
theorem set_updatedAt (rule : Rule) (now : String) :
    Dict.set rule.toJson "updatedAt" (.str now) = { rule with updatedAt := now }.toJson := rfl

theorem Cleaned.stored (h : Cleaned r payload old target rule) : Stored rule.toJson :=
  ⟨r, payload, old, target, rule, rule.enabled, rule.expiresAt, rule.updatedAt, h, rfl⟩

theorem Stored.switched {rule : Entries} {epoch : Int} {start : Bool} (h : Stored row)
    (hrule : switchedRule epoch start row = .ok rule) (now : String) :
    Stored (Dict.set rule "updatedAt" (.str now)) := by
  obtain ⟨r, payload, old, target, cleaned, enabled, expiresAt, updatedAt, hcleaned, rfl⟩ := h
  have hsame : ∀ expiresAt, Stored (Dict.set { cleaned with
      enabled := start, expiresAt := expiresAt, updatedAt := updatedAt }.toJson
        "updatedAt" (.str now)) := fun expiresAt =>
    ⟨r, payload, old, target, cleaned, start, expiresAt, now, hcleaned, set_updatedAt _ _⟩
  simp only [switchedRule, set_enabled] at hrule
  split at hrule
  · rename_i hstart
    unfold startedRule at hrule
    split at hrule
    · dsimp only at hrule
      split at hrule
      · cases hrule
        exact hsame expiresAt
      · split at hrule
        · cases hrule
        · cases hrule
          rw [set_expiresAt]
          exact hsame _
    · cases hrule
      exact hsame expiresAt
  · cases hrule
    exact hsame expiresAt

theorem handle_stored (hrows : ∀ row ∈ rows, Stored row) (h : call.handle rows = .ok change) :
    ∀ row ∈ change.rows, Stored row := by
  have haccepted : ∀ {r payload old rule}, acceptedRule r rows payload old = .ok rule →
      Stored rule := by
    intro r payload old rule h
    simp only [acceptedRule, bind_eq_ok, Except.ok.injEq] at h
    obtain ⟨cleaned, hclean, _, -, rfl⟩ := h
    obtain ⟨target, hcleaned⟩ := cleanPortmapRule_ok hclean
    exact hcleaned.stored
  cases call with
  | create r body =>
    simp only [Call.handle, createRule, bind_eq_ok, Except.ok.injEq] at h
    obtain ⟨payload, -, rule, haccept, rfl⟩ := h
    intro row hrow
    rcases List.mem_append.mp hrow with hrow | hrow
    · exact hrows row hrow
    · exact List.mem_singleton.mp hrow ▸ haccepted haccept
  | update r id body =>
    simp only [Call.handle, updateRule, bind_eq_ok, Except.ok.injEq] at h
    obtain ⟨old, -, payload, -, rule, haccept, rfl⟩ := h
    intro row hrow
    rcases Slots.mem_replace hrow with rfl | hrow
    · exact haccepted haccept
    · exact hrows row hrow
  | delete r id =>
    simp only [Call.handle, bind_eq_ok, Except.ok.injEq] at h
    obtain ⟨-, -, rfl⟩ := h
    exact fun row hrow => hrows row ((deleteRule_sublist id rows).subset hrow)
  | act r id start =>
    simp only [Call.handle, actOnRule, bind_eq_ok, Except.ok.injEq] at h
    obtain ⟨old, hold, rule, hrule, rfl⟩ := h
    intro row hrow
    rcases Slots.mem_replace hrow with rfl | hrow
    · exact (hrows old (findRule_ok hold).1).switched hrule r.now
    · exact hrows row hrow

theorem run_stored (calls : List Call) : ∀ row ∈ documentRows (run handle none calls), Stored row := by
  refine run_invariant (I := fun raw => ∀ row ∈ documentRows raw, Stored row)
    (by simp [documentRows]) fun raw call hraw => ?_
  unfold handle
  cases h : call.handle (loadPortmapRules raw) with
  | ok change =>
    dsimp only
    rw [documentRows_save]
    have hload : ∀ row ∈ loadPortmapRules raw, Stored row := fun row hrow =>
      hraw row ((loadPortmapRules_sublist raw).subset hrow)
    exact fun row hrow => handle_stored hload h row (mem_savedRows hrow)
  | error e => exact hraw

-- ---------------------------------------------------------------------------
-- The rule on the agent
-- ---------------------------------------------------------------------------

omit [Unicode] in
theorem readRule_eq_some {rule : Rule} (h : Relay.readRule rule.toJson = some given) :
    ∃ e, agentExpiry rule.expiresAt = some e ∧ given = rule.onAgent e := by
  have hnumber : ∀ {bits : Nat} {n : Int} {x : Nat},
      Relay.readUnsigned bits (.int n) = some x → x = n.toNat := by
    intro bits n x h
    simp only [Relay.readUnsigned, Option.ite_none_right_eq_some, Option.some.injEq] at h
    exact h.2.symm
  simp only [readRule_numbers, Option.bind_eq_some_iff, Option.some.injEq] at h
  obtain ⟨port, hport, target, htarget, e, he, connections, hconnections, idle, hidle, rfl⟩ := h
  refine ⟨e, he, ?_⟩
  rw [hnumber hport, hnumber htarget, hnumber hconnections, hnumber hidle]
  rfl

omit [Unicode] in
theorem normalizeRule_enabled (given : Relay.Rule) (enabled : Bool) :
    Relay.normalizeRule { given with enabled := enabled } =
      { Relay.normalizeRule given with enabled := enabled } := by
  have htexts : Relay.normalizeTexts { given with enabled := enabled } =
      { Relay.normalizeTexts given with enabled := enabled } := by
    simp only [Relay.normalizeTexts]
  simp only [Relay.normalizeRule, htexts]
  generalize Relay.normalizeTexts given = texts
  by_cases h : texts.kind = "stun"
  · simp only [if_pos h, Relay.normalizeStun]
  · simp only [if_neg h]

omit [Unicode] in
theorem validateTarget_enabled (given : Relay.Rule) (enabled : Bool) :
    Relay.validateTarget { given with enabled := enabled } = Relay.validateTarget given := rfl

theorem stripBrackets_target (h : Cleaned r payload old target cleaned) (e : Option Nat)
    (hvalid : Relay.validateTarget (Relay.normalizeRule (cleaned.onAgent e)) = .ok ()) :
    Relay.stripBrackets cleaned.targetIpv6 = cleaned.targetIpv6 := by
  have hempty : Relay.stripBrackets "" = "" := by decide
  have hscopes := ((validateTarget_iff h e).mp hvalid).2
  have hrequested : requestedMode (requested payload old) = cleaned.mode := h.mode.symm
  rw [hrequested] at hscopes
  rw [h.target.2.2.1]
  have haims := cleanTarget_ok h.modes h.cleaned
  generalize cleaned.mode = mode at hscopes haims
  cases haims with
  | ipv4 value hv => exact hempty
  | full value _ hfull hv hscope hfields =>
    have hnone := hscopes rfl hfull
    have htext : scopeText (stripChars ['[', ']'] (cleanSavedValue (requested payload old "targetIpv6")))
        = [] := by
      have hv' : ipAddress (stripChars ['[', ']']
          (cleanSavedValue (requested payload old "targetIpv6"))) = some (.v6 value) := hv
      rw [scopeText, hv', List.dropWhile_eq_nil_iff]
      exact fun c hc => bne_iff_ne.mpr fun heq => hnone (heq ▸ hc)
    have hipv6 : target.ipv6 = String.ofList (ipv6Text value) := by
      rw [hfields.2.2.2]
      exact congrArg (fun text => String.ofList (ipv6Text value ++ text)) htext |>.trans
        (by rw [List.append_nil])
    rw [hipv6]
    exact stripBrackets_of_plain (isPlain_ofList_ipv6Text value)
  | suffix iid _ _ _ _ hfields => rw [hfields.2.2.1, hempty]

theorem portmapLeaseSeconds_bounds (r : Readings) (src : String → Option Json) (old : Entries)
    (expiresAt : Option Int) : 0 ≤ portmapLeaseSeconds r src old expiresAt ∧
      portmapLeaseSeconds r src old expiresAt ≤ 7 * 86400 := by
  have hderived : ∀ start expiresAt n, derivedLease start expiresAt = some n →
      0 ≤ n ∧ n ≤ 7 * 86400 := by
    intro start expiresAt n h
    unfold derivedLease at h
    split at h
    · simp only [Option.ite_none_right_eq_some, Option.some.injEq] at h
      omega
    · cases h
  have hlease : ∀ n : Int, 0 ≤ max 0 (min (7 * 86400) n) ∧ max 0 (min (7 * 86400) n) ≤ 7 * 86400 := by
    intro n
    omega
  unfold portmapLeaseSeconds
  cases expiresAt with
  | none => exact hlease _
  | some expiresAt =>
    dsimp only
    split
    · exact hlease _
    · cases hcreated : derivedLease (portmapTimeEpoch r ((get old "createdAt").or
          ((src "createdAt").getD .null))) expiresAt with
      | some n => exact hderived _ _ _ hcreated
      | none =>
        cases hupdated : derivedLease (portmapTimeEpoch r ((get old "updatedAt").or
            ((src "updatedAt").getD .null))) expiresAt with
        | some n => exact hderived _ _ _ hupdated
        | none => exact ⟨le_rfl, by decide⟩

theorem Cleaned.lease_bounds (h : Cleaned r payload old target cleaned) :
    0 ≤ cleaned.leaseSeconds ∧ cleaned.leaseSeconds ≤ 7 * 86400 := by
  rw [h.leaseSeconds]
  split
  · exact portmapLeaseSeconds_bounds _ _ _ _
  · exact ⟨le_rfl, by decide⟩

theorem Stored.onAgent (h : Stored row) (haccept : Relay.acceptRule row = some applied) :
    get row "id" = .str applied.id ∧ applied.kind = "portmap" ∧
      upToDate (withLease row applied) row = true := by
  obtain ⟨r, payload, old, target, cleaned, enabled, expiresAt, updatedAt, hcleaned, rfl⟩ := h
  obtain ⟨given, hread, hnormal, hvalid⟩ := Relay.acceptRule_eq_some.mp haccept
  obtain ⟨e, he, rfl⟩ := readRule_eq_some hread
  have hgiven : { cleaned with
      enabled := enabled, expiresAt := expiresAt, updatedAt := updatedAt }.onAgent e =
        { cleaned.onAgent e with enabled := enabled } := rfl
  rw [hgiven, normalizeRule_enabled (cleaned.onAgent e) enabled] at hnormal
  have htarget : Relay.validateTarget (Relay.normalizeRule (cleaned.onAgent e)) = .ok () := by
    rw [← validateTarget_enabled _ enabled, hnormal]
    exact (Relay.validateRule_eq_ok.mp hvalid).2.2.2.2.2.2.2.2.2
  rw [normalizeRule_onAgent hcleaned, stripBrackets_target hcleaned e htarget] at hnormal
  obtain ⟨hlisten, htargets, hmax, hidle⟩ :
      (cleaned.listenPort.toNat : Int) = cleaned.listenPort ∧
        (cleaned.targetPort.toNat : Int) = cleaned.targetPort ∧
        (cleaned.maxConnections.toNat : Int) = cleaned.maxConnections ∧
        (cleaned.idleTimeoutSec.toNat : Int) = cleaned.idleTimeoutSec := by
    have hlisten := hcleaned.listenPort
    have htargets := hcleaned.targetPort
    have hmax := hcleaned.maxConnections
    have hidle := hcleaned.idleTimeoutSec
    omega
  have hlease : max 0 (toInt (.int cleaned.leaseSeconds) 0) = cleaned.leaseSeconds := by
    obtain ⟨hnonneg, hbound⟩ := hcleaned.lease_bounds
    rw [toInt_int (natAbs_lt_limit (by omega))]
    exact max_eq_right hnonneg
  have hexpiry : (e.map fun n => Json.int n).getD .null = (expiresAt.map Json.int).getD .null := by
    cases expiresAt with
    | none =>
      cases he
      rfl
    | some n =>
      simp only [agentExpiry, Relay.readUnsigned, Option.map_eq_some_iff,
        Option.ite_none_right_eq_some, Option.some.injEq] at he
      obtain ⟨_, ⟨⟨hpos, -⟩, rfl⟩, rfl⟩ := he
      simp [Int.toNat_of_nonneg hpos]
  have hwf : ((expiresAt.map Json.int).getD .null).wf = true := by cases expiresAt <;> rfl
  subst hnormal
  refine ⟨rfl, rfl, ?_⟩
  rw [upToDate, List.all_eq_true]
  intro key hkey
  simp only [compareKeys, List.mem_cons, List.not_mem_nil, or_false] at hkey
  rcases hkey with rfl | rfl | rfl | rfl | rfl | rfl | rfl | rfl | rfl | rfl | rfl | rfl | rfl | rfl
  · exact bool_eq_bool.mpr rfl
  · exact str_eq_str.mpr rfl
  · exact int_eq_int.mpr hlisten
  · exact str_eq_str.mpr rfl
  · exact str_eq_str.mpr rfl
  · exact str_eq_str.mpr rfl
  · exact str_eq_str.mpr rfl
  · exact str_eq_str.mpr rfl
  · exact int_eq_int.mpr htargets
  · exact str_eq_str.mpr rfl
  · have hvalue : compareValue (withLease { cleaned with
        enabled := enabled, expiresAt := expiresAt, updatedAt := updatedAt }.toJson
          { cleaned.onAgent e with
            enabled := enabled, name := Relay.trim cleaned.name, targetIpv6 := cleaned.targetIpv6
            serviceType := Relay.trim cleaned.serviceType }) "expiresAt" =
        (expiresAt.map Json.int).getD .null := hexpiry
    rw [hvalue]
    exact eq_refl hwf
  · exact int_eq_int.mpr hlease
  · exact int_eq_int.mpr hmax
  · exact int_eq_int.mpr hidle

theorem Stored.slot_eq {expected : Entries} (h : Stored row)
    (hsame : upToDate (withLease expected applied) row = true) : slot applied.toJson = slot row := by
  obtain ⟨r, payload, old, target, cleaned, enabled, expiresAt, updatedAt, -, rfl⟩ := h
  rw [upToDate, List.all_eq_true] at hsame
  have hport : (Json.int applied.listenPort).eq (.int cleaned.listenPort) = true :=
    hsame "listenPort" (by simp [compareKeys])
  have hprotocol : (Json.str (slot applied.toJson).2).eq (.str (slot cleaned.toJson).2) = true :=
    hsame "transportProtocol" (by simp [compareKeys])
  refine Prod.ext ?_ (str_eq_str.mp hprotocol)
  exact congrArg (fun port => toInt (.int port) 0) (int_eq_int.mp hport)

/-- Whatever requests stored a rule, once the agent accepts it the agent has it
under its identifier, and reports it such that it is not sent again. -/
theorem reported_upToDate {calls : List Call} (hrow : row ∈ loadPortmapRules (run handle none calls))
    (haccept : Relay.acceptRule row = some applied) :
    get row "id" = .str applied.id ∧ applied.kind = "portmap" ∧
      slot applied.toJson = slot row ∧ upToDate (withLease row applied) row = true := by
  have hstored := run_stored calls row ((loadPortmapRules_sublist _).subset hrow)
  obtain ⟨hid, hkind, hsame⟩ := hstored.onAgent haccept
  exact ⟨hid, hkind, hstored.slot_eq hsame, hsame⟩

end

section
local instance asciiStored : Unicode := .ascii

/-- The document after one rule has been created. -/
def oneRule : Option Json := run handle none [.create acceptedReadings (.dict (namedBody "nas"))]

theorem reported_upToDate_nas : ∃ row ∈ loadPortmapRules oneRule, ∃ applied,
    Relay.acceptRule row = some applied ∧ upToDate (withLease row applied) row = true := by
  have haccepted : ∃ row ∈ loadPortmapRules oneRule, (Relay.acceptRule row).isSome = true := by
    decide +kernel
  obtain ⟨row, hrow, hsome⟩ := haccepted
  obtain ⟨applied, haccept⟩ := Option.isSome_iff_exists.mp hsome
  exact ⟨row, hrow, applied, haccept, (reported_upToDate hrow haccept).2.2.2⟩

end

end LabProbe.PortMap
