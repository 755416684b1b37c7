import LabProbe.PortMap.Clean
import LabProbe.PortMap.Rules
import Mathlib.Data.List.Forall2

/-!
# The state shown of a rule

`decorated_rules` derives what the app shows of a rule from its `enabled` flag,
the runtime that the agent has reported last, and the presence of the agent. The
rule that the report has beside the runtime is not looked at.
-/

namespace LabProbe.PortMap

open Py Py.Json Hub

section
variable [Unicode]

-- ---------------------------------------------------------------------------
-- The report
-- ---------------------------------------------------------------------------

def number (value : Json) : Int := max 0 (toInt value 0)

def routerName (primary value : Json) : String :=
  if cleanSavedValue primary ≠ "" then cleanSavedValue primary
  else if cleanSavedValue value ≠ "" then cleanSavedValue value
  else "router"

def statusOf (document : Entries) : Entries := (get document "status").dict?.getD document

def statusRows (status : Entries) : Option (List Entries) :=
  match getD status "rules" (.list []) with
  | .list rows => some (rows.filterMap dict?)
  -- the keys of a dictionary and the characters of a text are no rows
  | .dict _ | .str _ => some []
  | _ => none

def normalizeEpoch (runtime : Entries) (key : String) : Entries :=
  match portmapEpoch (get runtime key) with
  | some epoch => Dict.set runtime key (.int epoch)
  | none => runtime

def runtimeRow (row : Entries) : Option (String × Entries) :=
  let runtime := ["startedAt", "expiresAt", "lastResolvedAt"].foldl normalizeEpoch
    (asDict (get row "runtime"))
  let id := cleanSavedValue ((get runtime "id").or (get (asDict (get row "rule")) "id"))
  if id = "" then none else some (id, runtime)

def portmapRuntimeMap (document : Entries) : Option (List (String × Entries)) :=
  (statusRows (statusOf document)).map fun rows => Dict.ofEntries (rows.filterMap runtimeRow)

-- ---------------------------------------------------------------------------
-- Presence
-- ---------------------------------------------------------------------------

inductive AgentState where
  | online
  | stale
  | offline
  deriving DecidableEq

structure Presence where
  router : String
  agentState : AgentState
  agentLastSeenAt : String
  agentLastSeenEpoch : Int
  agentAgeSeconds : Int
  agentVersion : String
  agentArchitecture : String
  agentRevision : Int
  serverTime : Int

def Presence.agentOnline (p : Presence) : Bool := p.agentState == .online

/-- `presence`: the statuses of the agents, and the document of the last report. -/
def presence (primary : Json) (statuses document : Entries) (now : Int) (router : String) :
    Presence :=
  let router := routerName primary (.str router)
  let heartbeat := asDict (get statuses router)
  let sameRouter := cleanSavedValue (get document "router") == router
  let runtimeSeen := if sameRouter then number (get document "receivedEpoch") else 0
  let seen := max (number (get heartbeat "lastSeenEpoch")) runtimeSeen
  let age := if seen ≠ 0 then max 0 (now - seen) else 0
  { router
    agentState :=
      if seen ≠ 0 ∧ age ≤ 12 then .online else if seen ≠ 0 ∧ age ≤ 30 then .stale else .offline
    agentLastSeenAt := cleanSavedValue ((get heartbeat "lastSeenAt").or (get document "receivedAt"))
    agentLastSeenEpoch := seen
    agentAgeSeconds := age
    agentVersion := cleanSavedValue (get heartbeat "version")
    agentArchitecture := cleanSavedValue (get heartbeat "architecture")
    agentRevision := max (number (get heartbeat "revision"))
      (if sameRouter then number (get document "presenceRevision") else 0)
    serverTime := now }

-- ---------------------------------------------------------------------------
-- Decoration
-- ---------------------------------------------------------------------------

structure Decoration where
  actual : String
  sync : String
  runtime : Entries

def expiredBy (now : Int) (rule : Entries) : Bool :=
  (portmapEpoch (get rule "expiresAt")).any fun epoch => epoch ≤ now

/-- The cascade of conditions, on the rule and its reported runtime. -/
def decoration (now : Int) (agent : Presence) (rule runtime : Entries) : Decoration :=
  let running := (get rule "enabled").truthy
  let state := cleanSavedValue (get runtime "state")
  let error := cleanSavedValue (get runtime "lastError")
  if expiredBy now rule && running then
    ⟨"expired", "synced", Dict.set runtime "state" (.str "expired")⟩
  else if state = "running" ∧ error = "" then
    ⟨"running", "synced", Dict.set runtime "lastError" (.str "")⟩
  else if state ∈ ["starting", "waiting_target", "draining"] then ⟨state, "syncing", runtime⟩
  else if state = "error" ∧ error ≠ "" then ⟨"error", "error", runtime⟩
  else if !running then
    let actual := if state = "" then "stopped" else state
    ⟨actual, if actual ∈ ["running", "starting", "draining"] then "syncing" else "synced", runtime⟩
  else if agent.agentOnline || agent.agentState == .stale then ⟨"waiting_agent", "syncing", runtime⟩
  else ⟨"waiting_agent", "agent_offline", runtime⟩

def decorate (now : Int) (agent : Presence) (revision : Int) (reported : List (String × Entries))
    (rule : Entries) : Entries :=
  let local' := (Dict.get? reported (cleanSavedValue (get rule "id"))).getD []
  let shown := decoration now agent rule local'
  Dict.update rule
    [("desiredState", .str (if (get rule "enabled").truthy then "running" else "stopped")),
     ("actualState", .str shown.actual), ("syncState", .str shown.sync),
     ("runtime", .dict shown.runtime),
     ("revision", .int (max (number (get rule "revision")) revision))]

/-- The runtimes that the router's own report has, none of another router's. -/
def reportedRuntimes (document : Entries) (router : String) : Option (List (String × Entries)) :=
  if cleanSavedValue (get document "router") = router then portmapRuntimeMap document else some []

/-- `decorated_rules`, `none` where the report cannot be read. -/
def decoratedRules (primary : Json) (statuses document : Entries) (presenceNow now : Int)
    (router : String) (rules : List Entries) : Option (List Entries × Int) :=
  let revision :=
    if cleanSavedValue (get document "router") = router then number (get document "runtimeRevision")
    else 0
  (reportedRuntimes document router).map fun reported =>
    (rules.map (decorate now (presence primary statuses document presenceNow router) revision reported),
      revision)

-- ---------------------------------------------------------------------------
-- What is shown as synced
-- ---------------------------------------------------------------------------

def LastReport (document : Entries) (router id : String) (runtime : Entries) : Prop :=
  ∃ reported, reportedRuntimes document router = some reported ∧ Dict.get? reported id = some runtime

/-- A row of the router's report has the runtime for the identifier. -/
def InReport (document : Entries) (router id : String) (runtime : Entries) : Prop :=
  cleanSavedValue (get document "router") = router ∧
    ∃ rows, statusRows (statusOf document) = some rows ∧
      ∃ row ∈ rows, runtimeRow row = some (id, runtime)

theorem LastReport.inReport {document runtime : Entries} {router id : String}
    (h : LastReport document router id runtime) : InReport document router id runtime := by
  obtain ⟨reported, hreported, hget⟩ := h
  unfold reportedRuntimes at hreported
  split at hreported
  · rename_i hrouter
    obtain ⟨rows, hrows, rfl⟩ := Option.map_eq_some_iff.mp hreported
    have hmem := Dict.mem_ofEntries (Dict.mem_of_get? hget)
    exact ⟨hrouter, rows, hrows, List.mem_filterMap.mp hmem⟩
  · cases hreported
    cases hget

def RunsClean (runtime : Entries) : Prop :=
  cleanSavedValue (get runtime "state") = "running" ∧ cleanSavedValue (get runtime "lastError") = ""

/-- The runtime is neither stopped nor in a state that is not known. -/
def Busy (runtime : Entries) : Prop :=
  cleanSavedValue (get runtime "state") ∈ ["running", "starting", "waiting_target", "draining"] ∨
    cleanSavedValue (get runtime "state") = "error" ∧ cleanSavedValue (get runtime "lastError") ≠ ""

theorem sync_enabled {now : Int} {agent : Presence} {rule runtime : Entries}
    (h : (get rule "enabled").truthy = true) :
    (decoration now agent rule runtime).sync = "synced" ↔
      expiredBy now rule = true ∨ RunsClean runtime := by
  unfold decoration RunsClean
  dsimp only
  rw [h, Bool.and_true]
  generalize cleanSavedValue (get runtime "state") = state
  generalize cleanSavedValue (get runtime "lastError") = error
  split_ifs <;> simp_all

theorem sync_disabled {now : Int} {agent : Presence} {rule runtime : Entries}
    (h : (get rule "enabled").truthy = false) (hclean : ¬ RunsClean runtime) :
    (decoration now agent rule runtime).sync = "synced" ↔ ¬ Busy runtime := by
  unfold decoration
  unfold RunsClean at hclean
  unfold Busy
  dsimp only
  rw [h, Bool.and_false]
  generalize cleanSavedValue (get runtime "state") = state at hclean ⊢
  generalize cleanSavedValue (get runtime "lastError") = error at hclean ⊢
  split_ifs <;> simp_all

/-- A rule that is switched on is shown as synced if its end has passed, or the
last report runs it without an error; one that is switched off, unless the last
report has it running without an error, if the report does not have it busy. -/
structure Shown (document : Entries) (router : String) (now : Int) (rule row : Entries) : Prop where
  enabled : (get rule "enabled").truthy = true → (get row "syncState" = .str "synced" ↔
    expiredBy now rule = true ∨ ∃ runtime,
      LastReport document router (cleanSavedValue (get rule "id")) runtime ∧ RunsClean runtime)
  disabled : (get rule "enabled").truthy = false →
    (∀ runtime, LastReport document router (cleanSavedValue (get rule "id")) runtime →
      ¬ RunsClean runtime) →
    (get row "syncState" = .str "synced" ↔ ∀ runtime,
      LastReport document router (cleanSavedValue (get rule "id")) runtime → ¬ Busy runtime)
  reported : ∀ runtime, LastReport document router (cleanSavedValue (get rule "id")) runtime →
    InReport document router (cleanSavedValue (get rule "id")) runtime

theorem state_nil : cleanSavedValue (get [] "state") = "" := by
  show (if _ then "" else "") = ""
  exact ite_self ""

theorem syncState_decorate (now : Int) (agent : Presence) (revision : Int)
    (reported : List (String × Entries)) (rule : Entries) :
    get (decorate now agent revision reported rule) "syncState" =
      .str (decoration now agent rule
        ((Dict.get? reported (cleanSavedValue (get rule "id"))).getD [])).sync := by
  unfold decorate Json.get
  rw [Dict.get?_update]
  rfl

theorem shown_decorate {document : Entries} {router : String} {reported : List (String × Entries)}
    (h : reportedRuntimes document router = some reported) (now : Int) (agent : Presence)
    (revision : Int) (rule : Entries) :
    Shown document router now rule (decorate now agent revision reported rule) := by
  have hlast : ∀ runtime, LastReport document router (cleanSavedValue (get rule "id")) runtime ↔
      Dict.get? reported (cleanSavedValue (get rule "id")) = some runtime := by
    intro runtime
    simp [LastReport, h]
  have hstate : ¬ RunsClean [] ∧ ¬ Busy [] := by
    simp [RunsClean, Busy, state_nil]
  refine ⟨fun hon => ?_, fun hoff hclean => ?_, fun runtime hreport => hreport.inReport⟩
  · simp only [syncState_decorate, Json.str.injEq, sync_enabled hon, hlast]
    cases Dict.get? reported (cleanSavedValue (get rule "id")) with
    | none => simp [hstate.1]
    | some runtime => simp
  · simp only [hlast] at hclean ⊢
    rw [syncState_decorate, Json.str.injEq]
    cases hget : Dict.get? reported (cleanSavedValue (get rule "id")) with
    | none => simp [sync_disabled hoff hstate.1, hstate.2]
    | some runtime => simp [sync_disabled hoff (hclean runtime hget)]

/-- Every rule is shown by its own report. -/
theorem rules_shown (primary : Json) (statuses document : Entries) (presenceNow now : Int)
    (router : String) (rules rows : List Entries) (revision : Int)
    (h : decoratedRules primary statuses document presenceNow now router rules =
      some (rows, revision)) :
    List.Forall₂ (Shown document router now) rules rows := by
  obtain ⟨reported, hreported, heq⟩ := Option.map_eq_some_iff.mp h
  cases heq
  rw [List.forall₂_map_right_iff, List.forall₂_same]
  exact fun rule _ => shown_decorate hreported now _ _ rule

/-- The router's report has the rule as it is wanted: with its fields, running
exactly if it is switched on, and without an error. -/
def agreesWithReport (document : Entries) (router : String) (rule : Entries) : Bool :=
  cleanSavedValue (get document "router") == router &&
    ((statusRows (statusOf document)).getD []).any fun row =>
      match runtimeRow row with
      | some (id, runtime) =>
        id == cleanSavedValue (get rule "id") && upToDate (asDict (get row "rule")) rule &&
          (cleanSavedValue (get runtime "state") == "running") == (get rule "enabled").truthy &&
          cleanSavedValue (get runtime "lastError") == ""
      | none => false

end

attribute [local instance] Unicode.ascii

def nasPort (enabled : Bool) (listenPort expiresAt : Int) : Entries :=
  [("id", .str "nas"), ("enabled", .bool enabled), ("listenPort", .int listenPort),
    ("expiresAt", .int expiresAt)]

def nasReport (rules : List Json) : Entries :=
  [("router", .str "router"), ("runtimeRevision", .int 7), ("receivedEpoch", .int 1000),
    ("status", .dict [("rules", .list rules)])]

/-- The state shown at second 1000. -/
def shownSync (rules : List Json) (rule : Entries) : Option (List String) :=
  (decoratedRules .null [] (nasReport rules) 1000 1000 "router" [rule]).map fun shown =>
    shown.1.map fun row => (get row "syncState").toStr

def runningRow (listenPort : Int) : Json :=
  .dict [("rule", .dict (nasPort true listenPort 0)),
    ("runtime", .dict [("id", .str "nas"), ("state", .str "running"), ("lastError", .str "")])]

/-- Synced are a rule whose end has passed and one that is switched off, both
without a report, and a rule that is reported with another port. -/
theorem synced_beyond_report :
    (shownSync [] (nasPort true 443 900) = some ["synced"] ∧
      agreesWithReport (nasReport []) "router" (nasPort true 443 900) = false) ∧
    (shownSync [] (nasPort false 443 0) = some ["synced"] ∧
      agreesWithReport (nasReport []) "router" (nasPort false 443 0) = false) ∧
    (shownSync [runningRow 80] (nasPort true 443 0) = some ["synced"] ∧
      agreesWithReport (nasReport [runningRow 80]) "router" (nasPort true 443 0) = false) := by
  decide +kernel

theorem rules_shown_running : ∃ rows revision,
    decoratedRules .null [] (nasReport [runningRow 443]) 1000 1000 "router" [nasPort true 443 0] =
        some (rows, revision) ∧
      List.Forall₂ (Shown (nasReport [runningRow 443]) "router" 1000) [nasPort true 443 0] rows :=
  ⟨_, _, rfl, rules_shown _ _ _ _ _ _ _ _ _ rfl⟩

end LabProbe.PortMap
