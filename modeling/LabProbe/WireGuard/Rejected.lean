import LabProbe.WireGuard.Store

/-!
# What a rejected put leaves

The rules of the STUN service are saved while the profiles are checked, in
the order of their rows. A put that is rejected leaves everything as it was
unless the checks have come to a STUN profile whose rule follows the server
to a new port.
-/

namespace LabProbe.WireGuard

open Py Py.Json Hub Check

section
variable [Unicode]

-- ---------------------------------------------------------------------------
-- The condition
-- ---------------------------------------------------------------------------

/-- The checks of a row come to its STUN rule, which follows the server. -/
def followsRow (fresh : String) (old : Entries) (o : Opening) (done : List EndpointProfile)
    (rules : Stun.Document) (raw : Entries) : Bool :=
  (openProfile fresh o done raw).toOption.any fun profile =>
    profile.endpointSource != "manual" && profile.endpointSource != "ddns" &&
      (rowStunRule raw).toOption.any fun id => followsServer id o.listenPort old rules

/-- The checks come to such a row, the rows before it being accepted. -/
def movesRule (r : Readings) (old : Entries) (o : Opening) (rules : Stun.Document)
    (done : List EndpointProfile) : List Json → Bool
  | .dict raw :: rows =>
    let fresh := r.profileId done.length
    followsRow fresh old o done rules raw ||
      (cleanProfile r fresh old o done rules raw).1.toOption.any fun profile =>
        movesRule r old o rules (done ++ [profile]) rows
  | _ => false

/-- The put is no conflict, and its checks come to such a row. -/
def HubState.movesRule (r : Readings) (expected : Option Int) (payload : Entries)
    (s : HubState) : Bool :=
  !s.conflict expected && (opening r payload s.old).toOption.any fun o =>
    WireGuard.movesRule r s.old o s.rules [] o.rows

-- ---------------------------------------------------------------------------
-- The rules along the checks
-- ---------------------------------------------------------------------------

/-- The rules stay, or are saved under a later revision. -/
def Advances (rules rules' : Stun.Document) : Prop :=
  rules' = rules ∨ rules.revision < rules'.revision

omit [Unicode] in
theorem Advances.le {rules rules' : Stun.Document} (h : Advances rules rules') :
    rules.revision ≤ rules'.revision := by
  rcases h with rfl | h
  · exact Int.le_refl _
  · exact Int.le_of_lt h

omit [Unicode] in
theorem Advances.ne {rules rules' : Stun.Document} (h : rules.revision < rules'.revision) :
    rules' ≠ rules := by
  rintro rfl
  exact Int.lt_irrefl _ h

theorem revision_syncTargetPort {now id : String} {port : Int} {rules : Stun.Document}
    (h : rules.rules.any (pointsElsewhere id port) = true) :
    rules.revision < (syncTargetPort now id port rules).revision := by
  rw [syncTargetPort, if_pos h]
  exact Int.lt_succ rules.revision

theorem pointsElsewhere_of_follows {id : String} {port : Int} {old : Entries}
    {rules : Stun.Document} (h : followsServer id port old rules = true) :
    rules.rules.any (pointsElsewhere id port) = true := by
  simp only [followsServer, Bool.and_eq_true, bne_iff_ne, Option.any_eq_true, beq_iff_eq] at h
  obtain ⟨⟨-, hnew⟩, rule, hrule, hport⟩ := h
  rw [List.any_eq_true]
  refine ⟨rule, List.mem_of_find?_eq_some hrule, ?_⟩
  rw [pointsElsewhere, List.find?_some hrule, hport, Bool.true_and, bne_iff_ne]
  exact hnew

theorem followServer_cases (now id : String) (port : Int) (old : Entries) (rules : Stun.Document) :
    followsServer id port old rules = false ∧ followServer now id port old rules = rules ∨
      followsServer id port old rules = true ∧
        rules.revision < (followServer now id port old rules).revision := by
  unfold followServer
  cases hfollows : followsServer id port old rules with
  | false => exact .inl ⟨rfl, rfl⟩
  | true => exact .inr ⟨rfl, revision_syncTargetPort (pointsElsewhere_of_follows hfollows)⟩

theorem cleanProfile_rules (r : Readings) (fresh : String) (old : Entries) (o : Opening)
    (done : List EndpointProfile) (rules : Stun.Document) (raw : Entries) :
    followsRow fresh old o done rules raw = false ∧
        (cleanProfile r fresh old o done rules raw).2 = rules ∨
      followsRow fresh old o done rules raw = true ∧
        rules.revision < (cleanProfile r fresh old o done rules raw).2.revision := by
  unfold cleanProfile followsRow
  cases openProfile fresh o done raw with
  | error message => exact .inl ⟨rfl, rfl⟩
  | ok profile =>
    rw [andThen_ok, Except.toOption, Option.any_some]
    by_cases hmanual : profile.endpointSource = "manual"
    · exact .inl ⟨by simp [hmanual], by rw [if_pos hmanual]⟩
    by_cases hddns : profile.endpointSource = "ddns"
    · exact .inl ⟨by simp [hddns], by rw [if_neg hmanual, if_pos hddns]⟩
    rw [if_neg hmanual, if_neg hddns, bne_iff_ne.mpr hmanual, bne_iff_ne.mpr hddns]
    cases rowStunRule raw with
    | error message => exact .inl ⟨rfl, rfl⟩
    | ok id => exact followServer_cases r.now id o.listenPort old rules

/-- The rows leave the rules as they are, unless the checks come to one
whose rule follows the server. -/
theorem cleanProfiles_rules (r : Readings) (old : Entries) (o : Opening) (rows : List Json)
    (done : List EndpointProfile) (rules : Stun.Document) :
    Advances rules (cleanProfiles r old o done rules rows).2 ∧
      ((cleanProfiles r old o done rules rows).2 = rules ↔
        movesRule r old o rules done rows = false) := by
  induction rows generalizing done rules with
  | nil => exact ⟨.inl rfl, by simp [cleanProfiles, movesRule]⟩
  | cons row rows ih =>
    cases row with
    | dict raw =>
      rw [cleanProfiles, movesRule]
      have hrow := cleanProfile_rules r (r.profileId done.length) old o done rules raw
      generalize cleanProfile r (r.profileId done.length) old o done rules raw = cleaned at hrow ⊢
      obtain ⟨result, rules'⟩ := cleaned
      dsimp only at hrow
      cases result with
      | error message =>
        rw [andThen_error]
        rcases hrow with ⟨hstays, rfl⟩ | ⟨hfollows, hlt⟩
        · exact ⟨.inl rfl, by simp [hstays, Except.toOption]⟩
        · exact ⟨.inr hlt, by simp [hfollows, Advances.ne hlt]⟩
      | ok profile =>
        rw [andThen_ok]
        obtain ⟨hadvances, hiff⟩ := ih (done ++ [profile]) rules'
        rcases hrow with ⟨hstays, rfl⟩ | ⟨hfollows, hlt⟩
        · exact ⟨hadvances, by simpa [hstays, Except.toOption] using hiff⟩
        · -- a later revision is not taken back by the rows that follow
          have hlater := hlt.trans_le hadvances.le
          exact ⟨.inr hlater, by simp [hfollows, Advances.ne hlater]⟩
    | _ => exact ⟨.inl rfl, by simp [cleanProfiles, movesRule]⟩

theorem clean_rules (r : Readings) (payload : Entries) (s : HubState) :
    (s.clean r payload).2 = s ↔ ((opening r payload s.old).toOption.any fun o =>
      movesRule r s.old o s.rules [] o.rows) = false := by
  have hstate : (s.clean r payload).2 = s ↔ (cleanServer r payload s.old s.rules).2 = s.rules := by
    cases s
    simp [HubState.clean]
  rw [hstate, cleanServer]
  cases opening r payload s.old with
  | error message => exact ⟨fun _ => rfl, fun _ => rfl⟩
  | ok o =>
    have hrules := (cleanProfiles_rules r s.old o o.rows [] s.rules).2
    rw [andThen_ok, Except.toOption, Option.any_some, ← hrules]
    generalize cleanProfiles r s.old o [] s.rules o.rows = cleaned
    obtain ⟨result, rules⟩ := cleaned
    cases result <;> rfl

/-- A put that is rejected leaves the document, the STUN rules and the queue
as they were, unless its checks have moved a STUN rule. -/
theorem put_atomic_iff {r : Readings} {a : Address} {expected : Option Int} {payload : Entries}
    {s s' : HubState} {message : String} (h : s.put r a expected payload = (.error message, s')) :
    s' = s ↔ s.movesRule r expected payload = false := by
  unfold HubState.put at h
  unfold HubState.movesRule
  split at h
  · rename_i hconflict
    cases h
    simp [hconflict]
  · rename_i hconflict
    have hleft : s' = (s.clean r payload).2 := by
      generalize s.clean r payload = cleaned at h
      obtain ⟨result, left⟩ := cleaned
      cases result with
      | error => exact (Prod.mk.inj h).2.symm
      | ok server =>
        -- the document may still be refused for a secret; nothing else is written then
        rw [andThen_ok, HubState.save] at h
        split at h
        · exact (Prod.mk.inj h).2.symm
        · cases h
    rw [hleft, clean_rules]
    simp [hconflict]

end

section
local instance asciiRejected : Unicode := .ascii

def exampleReadings : Readings := ⟨"2026-01-01T00:00:00Z", fun n => n, fun n => n⟩

def tunnelRule (port : Int) : Entries :=
  [("id", .str "wg-away"), ("kind", .str "stun"), ("enabled", .bool true),
   ("targetIpv4", .str "192.168.1.1"), ("targetPort", .int port),
   ("transportProtocol", .str "UDP"), ("forwardMode", .str "router_native")]

def tunnelServer : Entries :=
  [("interfaceName", .str "labwg0"), ("address", .str "10.77.0.1/24"), ("listenPort", .int 51820),
   ("mtu", .int 1420), ("enabled", .bool true), ("peers", .list []),
   ("endpointProfiles", .list []), ("revision", .int 1)]

def tunnelHub : HubState where
  document := { revision := 1, server := some tunnelServer }
  rules := { revision := 4, rules := [tunnelRule 51820] }

/-- A request for a port and an MTU, with a STUN profile. -/
def moveRequest (port mtu : Int) : Entries :=
  [("listenPort", .int port), ("mtu", .int mtu),
   ("endpointProfiles", .list [.dict [("id", .str "away"), ("endpointSource", .str "stun"),
     ("stunRuleId", .str "wg-away")]])]

def tunnelAddress : Address := ⟨"wg-cmd-1", "router"⟩

/-- The request is rejected for its MTU; the port it asks for is the one the
rule has. -/
theorem put_atomic_iff_mtu :
    (tunnelHub.put exampleReadings tunnelAddress none (moveRequest 51820 9000)).2 = tunnelHub ↔
      tunnelHub.movesRule exampleReadings none (moveRequest 51820 9000) = false := by
  have hrejected : tunnelHub.put exampleReadings tunnelAddress none (moveRequest 51820 9000) =
      (.error "WireGuard MTU 必须在 1280–1500 之间", tunnelHub) := rfl
  rw [hrejected]
  exact put_atomic_iff hrejected

/-- The request is rejected for its MTU, after the rule has been moved. -/
theorem rejected_put_moves_rule : ¬ ∀ (r : Readings) (a : Address) (expected : Option Int)
    (payload : Entries) (s s' : HubState) (message : String),
    s.put r a expected payload = (.error message, s') → s' = s := by
  intro hall
  have hsame := hall exampleReadings tunnelAddress none (moveRequest 51900 9000) tunnelHub _ _ rfl
  have hrevision : (5 : Int) = 4 := congrArg (fun s : HubState => s.rules.revision) hsame
  exact absurd hrevision (by decide)

end

end LabProbe.WireGuard
