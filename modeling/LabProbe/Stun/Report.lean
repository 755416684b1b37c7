import LabProbe.Lib.Run
import LabProbe.Stun.Router

/-!
# The bindings a status report leaves

`agent_status` takes a copy of the openings' bindings, serves the rules one
after the other, and saves the copy. The calls it makes for a rule load, edit
and save the same document on their own. A binding they save is in the copy
as well, since the copy gets the result of the call; a binding they remove
stays in the copy and is saved again.
-/

namespace LabProbe.Stun

open Py Py.Json Hub Check Runs

/-- The turn of one rule: what the router answers to the calls on its
mapping and on its opening. -/
structure Turn where
  rule : Entries
  native : Router
  firewall : Router

/-- The two documents of bindings while the rules are served, and the copy
of the second that is saved at the end. -/
structure Serving where
  native : Bindings
  firewall : Bindings
  copy : Bindings

section
variable [Unicode]

/-- `_runtime`, once the report is saved. -/
def runtimes (payload : Entries) : List (String × Entries) :=
  Dict.ofEntries ((((get payload "rules").list?.getD []).filterMap dict?).filterMap fun row =>
    let runtime := asDict (get row "runtime")
    let id := text ((get (asDict (get row "rule")) "id").or (get runtime "id"))
    if id = "" then none else some (id, runtime))

/-- Whether the router forwards the rule, and the rule is switched on. -/
def nativeTurn (rule : Entries) : Bool := (get rule "enabled").truthy && isNativeForward rule

/-- Whether the agent forwards the rule and has its public address. -/
def mappedTurn (payload rule : Entries) : Bool :=
  (get rule "enabled").truthy &&
    text (get ((Dict.get? (runtimes payload) (ruleKey rule)).getD []) "state") == "mapped"

variable [Digest]

/-- The call that sees to a mapping; what it raises is kept with the binding. -/
def secureMapping (router : Router) (rule : Entries) (bindings : Bindings) : Bindings :=
  match ensureNativeMapping router rule bindings with
  | .ok outcome => outcome.bindings
  | .error message =>
    let id := ruleKey rule
    Dict.set bindings id (Dict.update (bindingOf bindings id) (refusal "error" message))

def clearOpening (router : Router) (id : String) (bindings : Bindings) : Bindings :=
  match removeFirewall router id bindings with
  | .ok left => left
  | .error _ => bindings

def secureOpening (router : Router) (rule : Entries) (bindings : Bindings) : Outcome :=
  match ensureFirewall router rule bindings with
  | .ok outcome => outcome
  | .error message => ⟨refusal "error" message, bindings⟩

/-- One rule of the loop of `agent_status`. -/
def serve (payload : Entries) (s : Serving) (turn : Turn) : Serving :=
  let id := ruleKey turn.rule
  if nativeTurn turn.rule then
    { s with
      native := secureMapping turn.native turn.rule s.native
      firewall := clearOpening turn.firewall id s.firewall }
  else if mappedTurn payload turn.rule then
    let outcome := secureOpening turn.firewall turn.rule s.firewall
    { s with
      firewall := outcome.bindings
      copy := Dict.set s.copy id (Dict.update (bindingOf s.copy id) outcome.result) }
  else s

def served (payload : Entries) (turns : List Turn) (native firewall : Bindings) : Serving :=
  run (serve payload) ⟨native, firewall, firewall⟩ turns

def agentStatus (payload : Entries) (turns : List Turn) (native firewall : Bindings) :
    Bindings × Bindings :=
  let s := served payload turns native firewall
  (s.native, s.copy)

-- ---------------------------------------------------------------------------
-- The calls
-- ---------------------------------------------------------------------------

/-- Clearing an opening gets to its end: there is a binding, the router can be
read, and a row that is the Hub's can be deleted. -/
def Clears (router : Router) (id : String) (bindings : Bindings) : Prop :=
  let binding := bindingOf bindings id
  binding ≠ [] ∧ ∃ current, router.read = .ok current ∧
    ∀ row, findFirewall current (text (get binding "uuid")) = some row →
      (get binding "fingerprint").eq (.str (ruleFingerprint row)) = true →
        (router.verified (.delete (text (get row "uuid")))).isOk = true

theorem removeFirewall_of_clears {router : Router} {id : String} {bindings : Bindings}
    (h : Clears router id bindings) :
    removeFirewall router id bindings = .ok (Dict.erase bindings id) := by
  obtain ⟨hbinding, current, hread, hdelete⟩ := h
  unfold removeFirewall
  rw [if_neg hbinding]
  refine bind_eq_ok.mpr ⟨current, hread, ?_⟩
  split
  · rename_i row hrow
    split
    · rename_i hown
      have hok := hdelete row hrow hown
      cases hv : router.verified (.delete (text (get row "uuid"))) with
      | ok data => rfl
      | error e => rw [hv] at hok; cases hok
    · rfl
  · rfl

theorem removeFirewall_ok {router : Router} {id : String} {bindings left : Bindings}
    (h : removeFirewall router id bindings = .ok left) :
    left = bindings ∨ Clears router id bindings := by
  unfold removeFirewall at h
  by_cases hbinding : bindingOf bindings id = []
  · rw [if_pos hbinding] at h
    exact .inl (Except.ok.inj h).symm
  · rw [if_neg hbinding] at h
    obtain ⟨current, hread, h⟩ := bind_eq_ok.mp h
    refine .inr ⟨hbinding, current, hread, fun row hrow hown => ?_⟩
    rw [hrow] at h
    simp only [if_pos hown] at h
    obtain ⟨data, hdata, -⟩ := bind_eq_ok.mp h
    rw [hdata]
    rfl

theorem clearOpening_of_clears {router : Router} {id : String} {bindings : Bindings}
    (h : Clears router id bindings) : clearOpening router id bindings = Dict.erase bindings id := by
  rw [clearOpening, removeFirewall_of_clears h]

theorem clearOpening_of_not_clears {router : Router} {id : String} {bindings : Bindings}
    (h : ¬Clears router id bindings) : clearOpening router id bindings = bindings := by
  unfold clearOpening
  split
  · rename_i left hleft
    exact (removeFirewall_ok hleft).resolve_right h
  · rfl

/-- Seeing to an opening either refuses and leaves the bindings, or takes a
row as the opening. -/
theorem ensureFirewall_ok {router : Router} {rule : Entries} {bindings : Bindings}
    {outcome : Outcome} (h : ensureFirewall router rule bindings = .ok outcome) :
    (∃ state message, outcome = ⟨refusal state message, bindings⟩) ∨
      ∃ row, outcome = bindFirewall row (ruleKey rule) bindings := by
  unfold ensureFirewall at h
  obtain ⟨expected, -, h⟩ := bind_eq_ok.mp h
  obtain ⟨current, -, h⟩ := bind_eq_ok.mp h
  split at h
  · rename_i existing _
    split_ifs at h
    · exact .inl ⟨_, _, (Except.ok.inj h).symm⟩
    · exact .inl ⟨_, _, (Except.ok.inj h).symm⟩
    · exact .inr ⟨existing, (Except.ok.inj h).symm⟩
  · split_ifs at h
    · exact .inl ⟨_, _, (Except.ok.inj h).symm⟩
    · exact .inl ⟨_, _, (Except.ok.inj h).symm⟩
    · obtain ⟨verified, -, h⟩ := bind_eq_ok.mp h
      split at h
      · rename_i created _
        split_ifs at h
        · exact .inl ⟨_, _, (Except.ok.inj h).symm⟩
        · exact .inr ⟨created, (Except.ok.inj h).symm⟩
      · exact .inl ⟨_, _, (Except.ok.inj h).symm⟩

theorem secureOpening_cases (router : Router) (rule : Entries) (bindings : Bindings) :
    (∃ state message, secureOpening router rule bindings = ⟨refusal state message, bindings⟩) ∨
      ∃ row, secureOpening router rule bindings = bindFirewall row (ruleKey rule) bindings := by
  unfold secureOpening
  split
  · rename_i outcome h
    exact ensureFirewall_ok h
  · exact .inl ⟨_, _, rfl⟩

-- ---------------------------------------------------------------------------
-- The copy
-- ---------------------------------------------------------------------------

/-- The copy holds the fields of a binding, others beside them. -/
def Carries (copy : Bindings) (id : String) (binding : Entries) : Prop :=
  ∃ saved, Dict.get? copy id = some saved ∧
    ∀ field value, Dict.get? binding field = some value → Dict.get? saved field = some value

/-- What the handler's copy knows of the document: it has every binding, and
the fields of those that changed since the start. -/
structure Tracks (start : Bindings) (s : Serving) : Prop where
  keys : ∀ id ∈ Dict.keys s.firewall, id ∈ Dict.keys s.copy
  changed : ∀ id binding, Dict.get? s.firewall id = some binding →
    Dict.get? start id = some binding ∨ ∃ row, binding = openBinding row ∧ Carries s.copy id binding

theorem tracks_start (native firewall : Bindings) : Tracks firewall ⟨native, firewall, firewall⟩ :=
  ⟨fun _ h => h, fun _ _ h => .inl h⟩

/-- A result joins the copy: a refusal leaves the fields of an opening alone. -/
theorem Carries.refused {copy : Bindings} {id : String} {row : Entries}
    (h : Carries copy id (openBinding row)) (key state message : String) :
    Carries (Dict.set copy key (Dict.update (bindingOf copy key) (refusal state message))) id
      (openBinding row) := by
  obtain ⟨saved, hsaved, hfields⟩ := h
  by_cases hkey : key = id
  · subst hkey
    refine ⟨_, by rw [Dict.get?_set, if_pos rfl], fun field value hvalue => ?_⟩
    have hother : Dict.get? (refusal state message).reverse field = none := by
      have hfield := Dict.get?_isSome.mp (Option.isSome_iff_exists.mpr ⟨value, hvalue⟩)
      rcases (by simpa [openBinding, Dict.keys] using hfield : field = "uuid" ∨
        field = "fingerprint") with rfl | rfl <;> rfl
    rw [Dict.get?_update, hother, Option.none_or, bindingOf, hsaved]
    exact hfields field value hvalue
  · exact ⟨saved, by rw [Dict.get?_set, if_neg hkey, hsaved], hfields⟩

theorem carries_bound (copy : Bindings) (id : String) (row : Entries) :
    Carries (Dict.set copy id (Dict.update (bindingOf copy id) (("state", .str "ready") ::
      openBinding row))) id (openBinding row) := by
  refine ⟨_, by rw [Dict.get?_set, if_pos rfl], fun field value hvalue => ?_⟩
  have hfield := Dict.get?_isSome.mp (Option.isSome_iff_exists.mpr ⟨value, hvalue⟩)
  rw [Dict.get?_update]
  rcases (by simpa [openBinding, Dict.keys] using hfield : field = "uuid" ∨
    field = "fingerprint") with rfl | rfl <;>
  · rw [← hvalue]
    rfl

omit [Unicode] [Digest] in
theorem Carries.set_ne {copy : Bindings} {id key : String} {binding saved : Entries}
    (h : Carries copy id binding) (hne : key ≠ id) : Carries (Dict.set copy key saved) id binding := by
  obtain ⟨held, hheld, hfields⟩ := h
  exact ⟨held, by rw [Dict.get?_set, if_neg hne, hheld], hfields⟩

theorem serve_native {payload : Entries} {turn : Turn} (h : nativeTurn turn.rule = true)
    (s : Serving) : serve payload s turn = { s with
      native := secureMapping turn.native turn.rule s.native
      firewall := clearOpening turn.firewall (ruleKey turn.rule) s.firewall } := if_pos h

theorem serve_other (payload : Entries) {turn : Turn} (h : ¬nativeTurn turn.rule = true)
    (s : Serving) : serve payload s turn = s ∨
      (∃ state message, serve payload s turn = { s with
        copy := Dict.set s.copy (ruleKey turn.rule)
          (Dict.update (bindingOf s.copy (ruleKey turn.rule)) (refusal state message)) }) ∨
      ∃ row, serve payload s turn = { s with
        firewall := Dict.set s.firewall (ruleKey turn.rule) (openBinding row)
        copy := Dict.set s.copy (ruleKey turn.rule) (Dict.update
          (bindingOf s.copy (ruleKey turn.rule)) (("state", .str "ready") :: openBinding row)) } := by
  simp only [serve, if_neg h]
  by_cases hmapped : mappedTurn payload turn.rule = true
  · rw [if_pos hmapped]
    rcases secureOpening_cases turn.firewall turn.rule s.firewall with
      ⟨state, message, heq⟩ | ⟨row, heq⟩
    · rw [heq]
      exact .inr (.inl ⟨state, message, rfl⟩)
    · rw [heq]
      exact .inr (.inr ⟨row, rfl⟩)
  · rw [if_neg hmapped]
    exact .inl rfl

theorem clearOpening_get? {router : Router} {key id : String} {bindings : Bindings}
    {binding : Entries}
    (h : Dict.get? (clearOpening router key bindings) id = some binding) :
    Dict.get? bindings id = some binding := by
  by_cases hclears : Clears router key bindings
  · rw [clearOpening_of_clears hclears, Dict.get?_erase] at h
    split at h
    · cases h
    · exact h
  · rwa [clearOpening_of_not_clears hclears] at h

theorem tracks_serve {payload : Entries} {start : Bindings} {s : Serving} (h : Tracks start s)
    (turn : Turn) : Tracks start (serve payload s turn) := by
  by_cases hnative : nativeTurn turn.rule = true
  · rw [serve_native hnative]
    refine ⟨fun id hid => ?_, fun id binding hget => h.changed id binding (clearOpening_get? hget)⟩
    obtain ⟨binding, hget⟩ := Option.isSome_iff_exists.mp (Dict.get?_isSome.mpr hid)
    exact h.keys id (Dict.get?_isSome.mp (by rw [clearOpening_get? hget]; rfl))
  · rcases serve_other payload hnative s with
      heq | ⟨state, message, heq⟩ | ⟨row, heq⟩ <;> rw [heq]
    · exact h
    · refine ⟨fun id hid => Dict.mem_keys_set.mpr (.inl (h.keys id hid)), fun id binding hget => ?_⟩
      rcases h.changed id binding hget with hsame | ⟨row, rfl, hcarries⟩
      · exact .inl hsame
      · exact .inr ⟨row, rfl, hcarries.refused _ _ _⟩
    · refine ⟨fun id hid => ?_, fun id binding hget => ?_⟩
      · exact Dict.mem_keys_set.mpr ((Dict.mem_keys_set.mp hid).imp_left (h.keys id))
      · by_cases hkey : ruleKey turn.rule = id
        · subst hkey
          dsimp only at hget
          rw [Dict.get?_set, if_pos rfl] at hget
          cases hget
          exact .inr ⟨row, rfl, carries_bound _ _ _⟩
        · dsimp only at hget
          rw [Dict.get?_set, if_neg hkey] at hget
          rcases h.changed id binding hget with hsame | ⟨row', rfl, hcarries⟩
          · exact .inl hsame
          · exact .inr ⟨row', rfl, hcarries.set_ne hkey⟩

theorem copy_keys_serve (payload : Entries) (s : Serving) (turn : Turn) :
    ∀ id ∈ Dict.keys s.copy, id ∈ Dict.keys (serve payload s turn).copy := by
  intro id hid
  by_cases hnative : nativeTurn turn.rule = true
  · rw [serve_native hnative]
    exact hid
  · rcases serve_other payload hnative s with
      heq | ⟨state, message, heq⟩ | ⟨row, heq⟩ <;> rw [heq]
    · exact hid
    · exact Dict.mem_keys_set.mpr (.inl hid)
    · exact Dict.mem_keys_set.mpr (.inl hid)

theorem copy_keys_run (payload : Entries) (s : Serving) (turns : List Turn) :
    ∀ id ∈ Dict.keys s.copy, id ∈ Dict.keys (run (serve payload) s turns).copy := by
  apply @run_monotone _ _ (serve payload) s turns
    (fun s s' => ∀ id ∈ Dict.keys s.copy, id ∈ Dict.keys s'.copy)
  · exact fun _ _ hid => hid
  · exact fun _ _ _ hab hbc id hid => hbc id (hab id hid)
  · exact copy_keys_serve payload

-- ---------------------------------------------------------------------------
-- The document after the report
-- ---------------------------------------------------------------------------

/-- What the calls did to the document of openings outlives the report: a
binding that went stays away, and one that changed is there with its fields. -/
structure KeepsCalls (payload : Entries) (turns : List Turn) (native firewall : Bindings) :
    Prop where
  removed : Along (serve payload) (fun s turn => ∀ id ∈ Dict.keys s.firewall,
      id ∉ Dict.keys (serve payload s turn).firewall →
        id ∉ Dict.keys (agentStatus payload turns native firewall).2)
    ⟨native, firewall, firewall⟩ turns
  changed : ∀ id binding, Dict.get? (served payload turns native firewall).firewall id = some binding →
    Dict.get? firewall id ≠ some binding →
      Carries (agentStatus payload turns native firewall).2 id binding

/-- The turn of a rule the router forwards finds no opening to clear, or fails
to clear it. -/
def Spares (s : Serving) (turn : Turn) : Prop :=
  nativeTurn turn.rule = true → ¬Clears turn.firewall (ruleKey turn.rule) s.firewall

theorem keys_of_spares {payload : Entries} {s : Serving} {turn : Turn} (h : Spares s turn) :
    ∀ id ∈ Dict.keys s.firewall, id ∈ Dict.keys (serve payload s turn).firewall := by
  intro id hid
  by_cases hnative : nativeTurn turn.rule = true
  · rw [serve_native hnative]
    dsimp only
    rwa [clearOpening_of_not_clears (h hnative)]
  · rcases serve_other payload hnative s with
      heq | ⟨state, message, heq⟩ | ⟨row, heq⟩ <;> rw [heq]
    · exact hid
    · exact hid
    · exact Dict.mem_keys_set.mpr (.inl hid)

theorem cleared_key (payload : Entries) {s : Serving} {turn : Turn} (h : ¬Spares s turn) :
    ruleKey turn.rule ∈ Dict.keys s.firewall ∧
      ruleKey turn.rule ∉ Dict.keys (serve payload s turn).firewall := by
  obtain ⟨hnative, hclears⟩ := Classical.not_imp.mp h
  rw [not_not] at hclears
  rw [serve_native hnative]
  dsimp only
  rw [clearOpening_of_clears hclears]
  constructor
  · rw [← Dict.get?_isSome, Option.isSome_iff_ne_none]
    intro hnone
    exact hclears.1 (by rw [bindingOf, hnone]; rfl)
  · rw [← Dict.get?_eq_none, Dict.get?_erase, if_pos rfl]

/-- A binding that goes is in the copy, so it is away in the end only if none goes. -/
theorem removed_along_iff {payload : Entries} {start final : Bindings} {s : Serving}
    {turns : List Turn} (h : Tracks start s)
    (hfinal : ∀ id ∈ Dict.keys (run (serve payload) s turns).copy, id ∈ Dict.keys final) :
    Along (serve payload) (fun s turn => ∀ id ∈ Dict.keys s.firewall,
      id ∉ Dict.keys (serve payload s turn).firewall → id ∉ Dict.keys final) s turns ↔
      Along (serve payload) Spares s turns := by
  induction turns generalizing s with
  | nil => exact Iff.rfl
  | cons turn turns ih =>
    rw [along_cons, along_cons, ih (tracks_serve h turn) hfinal]
    refine and_congr_left fun _ => ⟨fun hremoved => ?_, fun hspares id hid hgone => ?_⟩
    · by_contra hclears
      obtain ⟨hkey, hgone⟩ := cleared_key payload hclears
      exact hremoved _ hkey hgone
        (hfinal _ (copy_keys_run payload s (turn :: turns) _ (h.keys _ hkey)))
    · exact absurd (keys_of_spares hspares id hid) hgone

theorem serve_get?_ne {payload : Entries} {s : Serving} {turn : Turn} {id : String}
    (h : ruleKey turn.rule ≠ id) :
    Dict.get? (serve payload s turn).firewall id = Dict.get? s.firewall id := by
  by_cases hnative : nativeTurn turn.rule = true
  · rw [serve_native hnative]
    dsimp only
    by_cases hclears : Clears turn.firewall (ruleKey turn.rule) s.firewall
    · rw [clearOpening_of_clears hclears, Dict.get?_erase, if_neg h]
    · rw [clearOpening_of_not_clears hclears]
  · rcases serve_other payload hnative s with
      heq | ⟨state, message, heq⟩ | ⟨row, heq⟩ <;> rw [heq]
    exact (Dict.get?_set _ _ _ _).trans (if_neg h)

/-- Over rules with identifiers of their own, each turn finds the binding that
was there before the report. -/
theorem along_spares_iff {payload : Entries} {start : Bindings} {s : Serving} {turns : List Turn}
    (hdistinct : (turns.map fun turn => ruleKey turn.rule).Nodup)
    (hstart : ∀ turn ∈ turns,
      Dict.get? s.firewall (ruleKey turn.rule) = Dict.get? start (ruleKey turn.rule)) :
    Along (serve payload) Spares s turns ↔ ∀ turn ∈ turns, nativeTurn turn.rule = true →
      ¬Clears turn.firewall (ruleKey turn.rule) start := by
  induction turns generalizing s with
  | nil => simp
  | cons turn turns ih =>
    obtain ⟨hfresh, hdistinct⟩ := List.nodup_cons.mp hdistinct
    have hlater : ∀ later ∈ turns, Dict.get? (serve payload s turn).firewall (ruleKey later.rule) =
        Dict.get? start (ruleKey later.rule) := by
      intro later hmem
      have hne : ruleKey turn.rule ≠ ruleKey later.rule := by
        intro heq
        exact hfresh (List.mem_map.mpr ⟨later, hmem, heq.symm⟩)
      rw [serve_get?_ne hne, hstart later (List.mem_cons_of_mem _ hmem)]
    rw [along_cons, ih hdistinct hlater, List.forall_mem_cons]
    refine and_congr_left fun _ => ?_
    rw [Spares, Clears, Clears, bindingOf, bindingOf, hstart turn List.mem_cons_self]

/-- A status report keeps what its calls did exactly when no call of it
clears an opening. -/
theorem keeps_calls_iff (payload : Entries) (turns : List Turn) (native firewall : Bindings) :
    KeepsCalls payload turns native firewall ↔
      Along (serve payload) Spares ⟨native, firewall, firewall⟩ turns := by
  have hstart := tracks_start native firewall
  have hiff := @removed_along_iff _ _ payload firewall (agentStatus payload turns native firewall).2
    _ turns hstart fun id hid => hid
  rw [← hiff]
  refine ⟨fun h => h.removed, fun h => ⟨h, fun id binding hget hchanged => ?_⟩⟩
  have htracks : Tracks firewall (served payload turns native firewall) :=
    run_invariant hstart fun _ turn hs => tracks_serve hs turn
  rcases htracks.changed id binding hget with hsame | ⟨row, rfl, hcarries⟩
  · exact absurd hsame hchanged
  · exact hcarries

end

section
local instance reportUnicode : Unicode := .ascii

local instance reportDigest : Digest := ⟨fun _ => ""⟩

def clearedRule : Rule where
  id := "stun-1"
  name := "nas"
  enabled := true
  listenPort := 20000
  targetIpv4 := "192.168.1.2"
  targetPort := 443
  serviceType := "HTTPS"
  transportProtocol := "TCP"
  stunServer := defaultStunTcpServer
  maxConnections := 32
  idleTimeoutSec := 300
  createdAt := ""
  updatedAt := ""

/-- The turn of a rule whose opening is no longer on the router. -/
def clearedTurn : Turn where
  rule := clearedRule.toJson
  native := { read := .error "router offline", verified := fun _ => .error "router offline" }
  firewall := { read := .ok [("list", .list [])], verified := fun _ => .ok [] }

/-- The binding is removed, and saved again with the copy. -/
theorem opening_resurrected : ¬KeepsCalls [] [clearedTurn] []
    [("stun-1", [("uuid", .str "7"), ("fingerprint", .str "f")])] := by
  intro h
  exact h.removed.1 "stun-1" (by decide) (by decide) (by decide)

end

end LabProbe.Stun
