import LabProbe.Lib.Run
import LabProbe.Router.Credentials

/-!
# The refreshes of the broadband credentials

`_direct_credentials_refresh_view` takes a nonce, reads the router and then
replaces the cache; `_relay_credentials_push_view` replaces it with what the
agent sends. The lock is held for the nonce and for the replacement, so other
requests come in between. Requests with a wrong token change nothing and are
left out. All completions are kept on the side.
-/

namespace LabProbe.Router.Credentials

open Py Json Runs

structure Cached where
  router : String
  lanMac : String
  username : String
  password : String
  refreshCompletedNonce : Int
  receivedAt : String
  receivedEpoch : Rat
  source : String
  deriving DecidableEq

structure Refresh where
  nonce : Int
  previous : Option Cached

structure State where
  refreshNonce : Int
  cache : Option Cached := none
  refreshes : List Refresh := []
  completions : List Cached := []

/-- What a request reads of the hub. -/
structure Readings where
  primaryRouterName : String
  nowStr : String
  time : Rat

/-- The answers are those of the loaders, with nothing where one raises. -/
inductive Event where
  | refresh
  | read (i : Nat) (answers : List (Option Json)) (hub : Readings)
  | push (payload : Json) (hub : Readings)

section
variable [Unicode]

def safeInt (value : Json) : Int := (parseInt (strip value.toStr)).getD 0

omit [Unicode] in
def Found.or (merged found : Found) : Found where
  username := if merged.username = "" then found.username else merged.username
  password := if merged.password = "" then found.password else merged.password
  lanMac := if merged.lanMac = "" then found.lanMac else merged.lanMac

/-- The loop of `_read_direct_credentials`; it raises where every field is empty
and a loader raised. -/
def readLoaders (decoder : Decoder) (merged : Found) (raised : Bool) :
    List (Option Json) → Option Found
  | [] => if merged = {} ∧ raised then none else some merged
  | some answer :: answers =>
    let merged := merged.or (extractRouterCredentials decoder answer)
    if merged.username ≠ "" ∧ merged.password ≠ "" then some merged
    else readLoaders decoder merged raised answers
  | none :: answers => readLoaders decoder merged true answers

def readDirectCredentials (decoder : Decoder) (answers : List (Option Json)) : Option Found :=
  readLoaders decoder {} false answers

omit [Unicode] in
/-- `a or b`. -/
def orText (a b : String) : String := if a = "" then b else a

def Refresh.complete (r : Refresh) (decoder : Decoder) (answers : List (Option Json))
    (hub : Readings) : Option Cached :=
  let found := (readDirectCredentials decoder answers).getD {}
  if found.username ≠ "" ∧ found.password ≠ "" then
    some {
      router := orText (orText ((r.previous.map (·.router)).getD "") hub.primaryRouterName) "router"
      lanMac := orText found.lanMac ((r.previous.map (·.lanMac)).getD "")
      username := found.username
      password := found.password
      refreshCompletedNonce := r.nonce
      receivedAt := hub.nowStr
      receivedEpoch := hub.time
      source := "hub_router_rpc" }
  else none

def pushed (payload : Entries) (hub : Readings) : Option Cached :=
  let username := cleanValue false (Json.get payload "username")
  let password := cleanValue true (Json.get payload "password")
  let completed := safeInt (Json.get payload "refreshNonce")
  if username = "" ∨ password = "" ∨ completed ≤ 0 then none
  else
    some {
      router := orText (orText (cleanValue false (Json.get payload "router")) hub.primaryRouterName)
        "router"
      lanMac := cleanValue false (Json.get payload "lanMac")
      username, password
      refreshCompletedNonce := completed
      receivedAt := hub.nowStr
      receivedEpoch := hub.time
      source := "router_local_agent" }

def completion (decoder : Decoder) (s : State) : Event → Option Cached
  | .refresh => none
  | .read i answers hub => s.refreshes[i]?.bind fun r => r.complete decoder answers hub
  | .push payload hub => pushed payload.asDict hub

omit [Unicode] in
def State.store (s : State) (safe : Option Cached) : State :=
  match safe with
  | some safe => { s with cache := some safe, completions := s.completions ++ [safe] }
  | none => s

def step (decoder : Decoder) (s : State) (e : Event) : State :=
  match e with
  | .refresh =>
    { s with
      refreshNonce := s.refreshNonce + 1
      refreshes := s.refreshes ++ [⟨s.refreshNonce + 1, s.cache⟩] }
  | .read i _ _ =>
    State.store { s with refreshes := s.refreshes.eraseIdx i } (completion decoder s e)
  | .push _ _ => s.store (completion decoder s e)

end

/-- The hub starts with a nonce made of the time. -/
def State.start (millis : Nat) : State where
  refreshNonce := millis

def State.completedNonce (s : State) : Int := (s.cache.map (·.refreshCompletedNonce)).getD 0

/-- The cache is the completion with the highest nonce, and no higher nonce has
been issued than the hub's. -/
structure State.Ordered (s : State) : Prop where
  issued : s.completedNonce ≤ s.refreshNonce
  cached : ∀ c ∈ s.cache, c ∈ s.completions
  highest : ∀ c ∈ s.completions, ∃ c' ∈ s.cache, c.refreshCompletedNonce ≤ c'.refreshCompletedNonce

/-- A completion carries a nonce that was issued, and none below the cached one. -/
def InOrder (s : State) (c : Cached) : Prop :=
  s.completedNonce ≤ c.refreshCompletedNonce ∧ c.refreshCompletedNonce ≤ s.refreshNonce

-- ---------------------------------------------------------------------------
-- Steps
-- ---------------------------------------------------------------------------

variable {s : State} {c : Cached}

theorem ordered_start (millis : Nat) : (State.start millis).Ordered where
  issued := Int.natCast_nonneg millis
  cached := by simp [State.start]
  highest := by simp [State.start]

theorem ordered_store (h : s.Ordered) :
    (s.completedNonce ≤ (s.store (some c)).completedNonce ∧ (s.store (some c)).Ordered) ↔
      InOrder s c := by
  constructor
  · rintro ⟨hmono, hordered⟩
    exact ⟨hmono, hordered.issued⟩
  · rintro ⟨hmono, hissued⟩
    refine ⟨hmono, hissued, by simp [State.store], ?_⟩
    simp only [State.store, List.mem_append, List.mem_singleton, Option.mem_some]
    rintro d (hd | rfl)
    · obtain ⟨c', hc', hle⟩ := h.highest d hd
      have hcached : s.completedNonce = c'.refreshCompletedNonce := by
        rw [State.completedNonce, hc']
        rfl
      exact ⟨c, rfl, hle.trans (hcached ▸ hmono)⟩
    · exact ⟨d, rfl, le_rfl⟩

section
variable [Unicode] (decoder : Decoder)

/-- The cached nonce does not go down, and the order is kept. -/
def Kept (s : State) (e : Event) : Prop :=
  s.completedNonce ≤ (step decoder s e).completedNonce ∧ (step decoder s e).Ordered

/-- The completion of the event is in order, if it is one. -/
def Timely (s : State) (e : Event) : Prop := ∀ c ∈ completion decoder s e, InOrder s c

theorem kept_iff_timely (h : s.Ordered) (e : Event) : Kept decoder s e ↔ Timely decoder s e := by
  unfold Kept Timely
  cases e with
  | refresh =>
    have hnonce : (step decoder s .refresh).completedNonce = s.completedNonce := rfl
    refine iff_of_true ⟨hnonce.ge, ?_⟩ (by simp [completion])
    exact ⟨hnonce.le.trans (h.issued.trans (Int.le_add_one le_rfl)), h.cached, h.highest⟩
  | read i answers hub =>
    have hrest : State.Ordered { s with refreshes := s.refreshes.eraseIdx i } :=
      ⟨h.issued, h.cached, h.highest⟩
    rw [step]
    cases completion decoder s (.read i answers hub) with
    | none => exact iff_of_true ⟨le_rfl, hrest⟩ (by simp)
    | some c =>
      simp only [Option.mem_some, forall_eq']
      exact ordered_store hrest
  | push payload hub =>
    rw [step]
    cases completion decoder s (.push payload hub) with
    | none => exact iff_of_true ⟨le_rfl, h⟩ (by simp)
    | some c =>
      simp only [Option.mem_some, forall_eq']
      exact ordered_store h

/-- Along a run the cached nonce never goes down or beyond the issued ones, and
the cache is the completion with the highest nonce, exactly where every completion
carries a nonce that was issued and none below the cached one. -/
theorem refreshes_ordered_iff (millis : Nat) (events : List Event) :
    Along (step decoder) (Kept decoder) (State.start millis) events ↔
      Along (step decoder) (Timely decoder) (State.start millis) events :=
  along_iff (ordered_start millis) (fun _ e h ht => ((kept_iff_timely decoder h e).mpr ht).2)
    fun _ e h => kept_iff_timely decoder h e

end

section
local instance : Unicode := .ascii

def hubReadings : Readings where
  primaryRouterName := "router"
  nowStr := "2026-07-23 10:00:00"
  time := 1784800800

def pairAnswer (username password : String) : List (Option Json) :=
  [some (.dict [("username", .str username), ("password", .str password)])]

/-- The second refresh is done before the first. -/
def overtaken : List Event :=
  [.refresh, .refresh, .read 1 (pairAnswer "new" "new-pass") hubReadings,
   .read 0 (pairAnswer "old" "old-pass") hubReadings]

/-- A slow read puts an older pair and an older nonce in the cache. -/
theorem refreshes_overtaken :
    (run (step plainDecoder) (State.start 100) (overtaken.take 3)).completedNonce = 102 ∧
      (run (step plainDecoder) (State.start 100) overtaken).completedNonce = 101 ∧
      (run (step plainDecoder) (State.start 100) overtaken).cache.map (·.username) =
        some "old" := by
  decide +kernel

end

end LabProbe.Router.Credentials
