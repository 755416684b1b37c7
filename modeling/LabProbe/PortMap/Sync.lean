import LabProbe.PortMap.Queue
import LabProbe.Relay.Status

/-!
# The agent at work on the port maps

In a pass of `sync_portmaps` the agent fetches up to twenty commands, hands
them to the relay one after the other, acknowledges them with their results
and reports the rules it has then. The Hub answers the report with new
commands. Every request and answer arrives here.

The commands of the agent's router that are not finished stand at the end of
the table. A pass takes from their front and adds behind them.
-/

namespace LabProbe.PortMap

open Py Py.Json Hub

/-- What a pass meets: the clock of the Hub and the identifiers for its
commands, what each command meets on the agent, the error for a rule that is
not read, and what the report says besides the rules. -/
structure Pass where
  now : Int
  ids : Nat → String
  surroundings : Nat → Relay.Surroundings
  unread : String
  reportedAt : Nat
  runtime : Relay.Rule → Entries

structure Sync where
  commands : List Command
  agent : Relay.Manager

/-- `payload.get("id").and_then(Value::as_str).unwrap_or("")`. -/
def payloadId (payload : Entries) : String :=
  match get payload "id" with
  | .str id => id
  | _ => ""

def agentCommand (unread : String) (request : Request) : Relay.Command :=
  match request.action with
  | .upsert => .upsert <|
    match get request.payload "rule" with
    | .dict rule => (Relay.readRule rule).elim (.error unread) .ok
    | _ => .error unread
  | .start => .start (payloadId request.payload)
  | .stop => .stop (payloadId request.payload)
  | .delete => .delete (payloadId request.payload)

/-- The relay handles the commands in order; the results, by identifier. -/
def execute (unread : String) (surroundings : Nat → Relay.Surroundings) (agent : Relay.Manager) :
    List Command → List (String × Bool) × Relay.Manager
  | [] => ([], agent)
  | c :: commands =>
    let (result, agent) := agent.handle (surroundings 0) (agentCommand unread c.request)
    let (acks, agent) := execute unread (fun i => surroundings (i + 1)) agent commands
    ((c.id, result.toBool) :: acks, agent)

section
variable [Unicode]

def queueRequests (now : Int) (router : String) (ids : Nat → String) :
    List Request → List Command → List Command
  | [], commands => commands
  | request :: requests, commands =>
    queueRequests now router (fun i => ids (i + 1)) requests
      (queueCommand now (ids 0) router request commands).2

/-- What the agent reports after a pass. -/
def Pass.report (p : Pass) (agent : Relay.Manager) : Json :=
  .dict (agent.statusValue "portmap" p.reportedAt p.runtime)

/-- `sync_portmaps`, with the handlers of the Hub that it calls. -/
def Sync.step (raw : Option Json) (router : String) (s : Sync) (p : Pass) : Sync :=
  let (sent, commands) := pollCommands p.now router 20 s.commands
  let (acks, agent) := execute p.unread p.surroundings s.agent sent
  let commands := ackCommands p.now acks commands
  { commands := queueRequests p.now router p.ids (statusRequests raw (p.report agent)) commands
    agent := agent }

/-- The commands for the router that stand at the end of the table, and no
others of it are unfinished. -/
def Waiting (router : String) (commands waiting : List Command) : Prop :=
  ∃ others, commands = others ++ waiting ∧
    (∀ c ∈ others, c.router = router → c.unfinished = false) ∧
      ∀ c ∈ waiting, c.router = router ∧ c.status = .pending

variable {router : String} {commands waiting : List Command} {now : Int} {c : Command}

-- ---------------------------------------------------------------------------
-- Polling and acknowledging
-- ---------------------------------------------------------------------------

omit [Unicode] in
theorem Waiting.unfinished (h : Waiting router commands waiting) :
    (commands.filter fun c => c.router == router && c.unfinished) = waiting := by
  obtain ⟨others, rfl, hothers, hwaiting⟩ := h
  have hnone : (others.filter fun c => c.router == router && c.unfinished) = [] := by
    rw [List.filter_eq_nil_iff]
    intro c hc
    simpa using hothers c hc
  have hall : (waiting.filter fun c => c.router == router && c.unfinished) = waiting := by
    rw [List.filter_eq_self]
    intro c hc
    obtain ⟨hrouter, hstatus⟩ := hwaiting c hc
    simp [hrouter, Command.unfinished, hstatus]
  rw [List.filter_append, hnone, hall, List.nil_append]

omit [Unicode] in
theorem Waiting.poll (h : Waiting router commands waiting) (now : Int) :
    (pollCommands now router 20 commands).1 = (waiting.take 20).map (markDelivered now) ∧
      ∃ others, (pollCommands now router 20 commands).2 =
          others ++ ((waiting.take 20).map (markDelivered now) ++ waiting.drop 20) ∧
        ∀ c ∈ others, c.router = router → c.unfinished = false := by
  obtain ⟨others, rfl, hothers, hwaiting⟩ := h
  have hlimit : pollLimit 20 = 20 := by decide
  have hnone : ∀ c ∈ others, isDue now router c = false := fun c hc => by
    rw [Bool.eq_false_iff]
    intro hdue
    have hrouter : c.router = router := by
      simp only [isDue, Bool.and_eq_true, beq_iff_eq] at hdue
      exact hdue.1
    exact absurd (isDue_unfinished hdue) (by simp [hothers c hc hrouter])
  have hall : ∀ c ∈ waiting, isDue now router c = true := fun c hc => by
    obtain ⟨hrouter, hstatus⟩ := hwaiting c hc
    simp [isDue, hrouter, hstatus]
  rw [pollCommands, hlimit, Rows.send_append hnone hall]
  exact ⟨rfl, others, rfl, hothers⟩

theorem ackCommand_finished {acks : List (String × Bool)} (h : tag c.id ∈ acks.map fun ack => tag ack.1) :
    (ackCommand now acks c).unfinished = false := by
  have hkey : tag c.id ∈ Dict.keys (ackMap acks) := by
    rw [ackMap, Dict.mem_keys_ofEntries, Dict.keys, List.map_map]
    exact h
  obtain ⟨ok, hok⟩ := Option.isSome_iff_exists.mp (Dict.get?_isSome.mpr hkey)
  rw [ackCommand, hok]
  cases ok <;> rfl

theorem ackCommand_other {acks : List (String × Bool)} (h : tag c.id ∉ acks.map fun ack => tag ack.1) :
    ackCommand now acks c = c := by
  have hkey : tag c.id ∉ Dict.keys (ackMap acks) := by
    rw [ackMap, Dict.mem_keys_ofEntries, Dict.keys, List.map_map]
    exact h
  rw [ackCommand, Dict.get?_eq_none.mpr hkey]

theorem ackCommand_kept (acks : List (String × Bool)) (hc : c.unfinished = false) :
    (ackCommand now acks c).unfinished = false := by
  by_cases h : tag c.id ∈ acks.map fun ack => tag ack.1
  · exact ackCommand_finished h
  · rwa [ackCommand_other h]

theorem Waiting.ack (h : Waiting router commands waiting) (now : Int)
    (htags : (waiting.map fun c => tag c.id).Nodup) {acks : List (String × Bool)}
    (hacks : acks.map Prod.fst = (waiting.take 20).map Command.id) :
    Waiting router (ackCommands now acks (pollCommands now router 20 commands).2)
      (waiting.drop 20) := by
  obtain ⟨-, others, hpoll, hothers⟩ := h.poll now
  obtain ⟨-, -, -, hwaiting⟩ := h
  have hmarked : acks.map (fun ack => tag ack.1) = (waiting.take 20).map fun c => tag c.id := by
    have htagged := congrArg (List.map tag) hacks
    rw [List.map_map, List.map_map] at htagged
    exact htagged
  have hrest : ∀ c ∈ waiting.drop 20, ackCommand now acks c = c := fun c hc => by
    apply ackCommand_other
    rw [hmarked]
    intro hmem
    rw [← List.take_append_drop 20 waiting, List.map_append] at htags
    exact List.disjoint_of_nodup_append htags hmem (List.mem_map_of_mem hc)
  refine ⟨others.map (ackCommand now acks) ++
      ((waiting.take 20).map (markDelivered now)).map (ackCommand now acks), ?_, ?_, ?_⟩
  · rw [hpoll, ackCommands, List.map_append, List.map_append, List.map_congr_left hrest,
      List.map_id', List.append_assoc]
  · intro c hc hrouter
    rcases List.mem_append.mp hc with hc | hc
    · obtain ⟨c, hmem, rfl⟩ := List.mem_map.mp hc
      have hsame : (ackCommand now acks c).router = c.router :=
        congrArg Delivery.router (ackCommand_delivery now acks c)
      exact ackCommand_kept acks (hothers c hmem (hsame ▸ hrouter))
    · obtain ⟨_, hmarks, rfl⟩ := List.mem_map.mp hc
      obtain ⟨c, hmem, rfl⟩ := List.mem_map.mp hmarks
      refine ackCommand_finished (c := markDelivered now c) ?_
      rw [hmarked]
      exact List.mem_map.mpr ⟨c, hmem, rfl⟩
  · exact fun c hc => hwaiting c (List.mem_of_mem_drop hc)

-- ---------------------------------------------------------------------------
-- Queueing
-- ---------------------------------------------------------------------------

omit [Unicode] in
theorem Waiting.kept (h : Waiting router commands waiting) (now : Int) (hfew : waiting.length ≤ 500) :
    Waiting router (keptCommands now commands) waiting := by
  obtain ⟨others, rfl, hothers, hwaiting⟩ := h
  generalize hstale : (fun c : Command => !((c.status == .done || c.status == .failed) &&
    86400 < now - c.finishedEpoch.getD now)) = fresh
  have hall : waiting.filter fresh = waiting := by
    rw [List.filter_eq_self]
    intro c hc
    rw [← hstale]
    simp [(hwaiting c hc).2]
  have hcap : keptCommands now (others ++ waiting) =
      (others.filter fresh).drop ((others.filter fresh ++ waiting).length - 500) ++ waiting := by
    rw [keptCommands, hstale, List.filter_append, hall, Logs.cap, List.drop_append_of_le_length]
    rw [List.length_append]
    omega
  exact ⟨_, hcap, fun c hc => hothers c (List.mem_of_mem_filter (List.mem_of_mem_drop hc)), hwaiting⟩

theorem Waiting.queue_same (h : Waiting router commands waiting) (now : Int) (id : String)
    (hfew : waiting.length ≤ 500) {request : Request} (hmem : request ∈ waiting.map (·.request))
    (hsame : ∀ c ∈ waiting, c.request.action = request.action →
      c.request.ruleId = request.ruleId → c.request = request) :
    Waiting router (queueCommand now id router request commands).2 waiting := by
  have hkept := h.kept now hfew
  rcases queueCommand_cases now id router request commands with
    ⟨pre, c, post, hrows, hcoalesces, -, hqueue⟩ | ⟨hnone, -⟩
  · -- the row is rewritten with the request that it has
    have hc : c ∈ keptCommands now commands := by
      rw [hrows]
      simp
    have hparts := hcoalesces
    simp only [coalesces, Bool.and_eq_true, beq_iff_eq] at hparts
    have hwait : c ∈ waiting := by
      rw [← hkept.unfinished]
      exact List.mem_filter.mpr ⟨hc, by simp [hparts.1.1.1, hparts.1.1.2]⟩
    have hrequest := hsame c hwait hparts.1.2 hparts.2
    have hstatus : c.status = .pending := by
      obtain ⟨-, -, -, hwaiting⟩ := hkept
      exact (hwaiting c hwait).2
    have hrewritten : { c with request := request, status := .pending } = c := by
      cases c
      cases hrequest
      cases hstatus
      rfl
    rw [hqueue, hrewritten]
    rw [hrows] at hkept
    exact hkept
  · obtain ⟨c, hwait, rfl⟩ := List.mem_map.mp hmem
    have hfilter : c ∈ (keptCommands now commands).filter (coalesces router c.request) := by
      obtain ⟨others, hrows, -, hwaiting⟩ := hkept
      refine List.mem_filter.mpr ⟨hrows ▸ List.mem_append_right _ hwait, ?_⟩
      obtain ⟨hrouter, hstatus⟩ := hwaiting c hwait
      simp [coalesces, hrouter, Command.unfinished, hstatus]
    rw [rewritten, List.getLast?_eq_none_iff] at hnone
    rw [hnone] at hfilter
    cases hfilter

theorem Waiting.queue_new (h : Waiting router commands waiting) (now : Int) (id : String)
    (hfew : waiting.length ≤ 500) {request : Request} (hnew : ∀ c ∈ waiting,
      ¬ (c.request.action = request.action ∧ c.request.ruleId = request.ruleId)) :
    Waiting router (queueCommand now id router request commands).2
      (waiting ++ [{ id := id, router := router, request := request }]) := by
  have hkept := h.kept now hfew
  rcases queueCommand_cases now id router request commands with
    ⟨pre, c, post, hrows, hcoalesces, -, -⟩ | ⟨-, hqueue⟩
  · simp only [coalesces, Bool.and_eq_true, beq_iff_eq] at hcoalesces
    have hwait : c ∈ waiting := by
      rw [← hkept.unfinished]
      refine List.mem_filter.mpr ⟨?_, by simp [hcoalesces.1.1.1, hcoalesces.1.1.2]⟩
      rw [hrows]
      simp
    exact absurd ⟨hcoalesces.1.2, hcoalesces.2⟩ (hnew c hwait)
  · obtain ⟨others, hrows, hothers, hwaiting⟩ := hkept
    refine ⟨others, by rw [hqueue, hrows, List.append_assoc], hothers, fun c hc => ?_⟩
    rcases List.mem_append.mp hc with hc | hc
    · exact hwaiting c hc
    · rw [List.mem_singleton.mp hc]
      exact ⟨rfl, rfl⟩

theorem Waiting.queue (h : Waiting router commands waiting) (now : Int) {requests : List Request}
    {ids : Nat → String} (hfew : waiting.length + requests.length ≤ 500) (hnodup : requests.Nodup)
    (hsame : ∀ a ∈ waiting.map (·.request) ++ requests, ∀ b ∈ waiting.map (·.request) ++ requests,
      a.action = b.action → a.ruleId = b.ruleId → a = b)
    (hids : Function.Injective fun i => tag (ids i)) :
    ∃ added, Waiting router (queueRequests now router ids requests commands) (waiting ++ added) ∧
      added.map (·.request) = requests.filter (fun r => decide (r ∉ waiting.map (·.request))) ∧
      (added.map fun c => tag c.id).Nodup ∧ ∀ c ∈ added, ∃ i, c.id = ids i := by
  induction requests generalizing commands waiting ids with
  | nil => exact ⟨[], by simpa [queueRequests] using h, rfl, List.nodup_nil, by simp⟩
  | cons request requests ih =>
    obtain ⟨hfresh, hnodup⟩ := List.nodup_cons.mp hnodup
    have hlater : Function.Injective fun i => tag (ids (i + 1)) := fun i j hij =>
      Nat.succ.inj (hids hij)
    rw [List.length_cons] at hfew
    by_cases hmem : request ∈ waiting.map (·.request)
    · have hone := h.queue_same now (ids 0) (by omega) hmem fun c hc haction hid =>
        hsame c.request (List.mem_append_left _ (List.mem_map_of_mem hc)) request (by simp) haction hid
      have hsub : waiting.map (·.request) ++ requests ⊆ waiting.map (·.request) ++ request :: requests :=
        ((List.sublist_cons_self request requests).append_left _).subset
      obtain ⟨added, hadded, hrequests, htags, hfrom⟩ := ih hone (by omega) hnodup
        (fun a ha b hb => hsame a (hsub ha) b (hsub hb)) hlater
      refine ⟨added, hadded, ?_, htags, fun c hc => (hfrom c hc).imp' (· + 1) fun _ hi => hi⟩
      rw [hrequests, List.filter_cons_of_neg (by simpa using hmem)]
    · have hone := h.queue_new now (ids 0) (by omega) fun c hc ⟨haction, hid⟩ =>
        hmem (hsame c.request (List.mem_append_left _ (List.mem_map_of_mem hc)) request (by simp)
          haction hid ▸ List.mem_map_of_mem hc)
      have hlist : (waiting ++ [({ id := ids 0, router := router, request := request } :
          Command)]).map (·.request) ++ requests = waiting.map (·.request) ++ request :: requests := by simp
      obtain ⟨added, hadded, hrequests, htags, hfrom⟩ := ih hone
        (by rw [List.length_append, List.length_singleton]; omega) hnodup
        (fun a ha b hb => hsame a (hlist ▸ ha) b (hlist ▸ hb)) hlater
      refine ⟨{ id := ids 0, router := router, request := request } :: added, ?_, ?_, ?_, ?_⟩
      · rwa [List.append_assoc] at hadded
      · rw [List.map_cons, hrequests, List.filter_cons_of_pos (by simpa using hmem)]
        congr 1
        refine List.filter_congr fun r hr => ?_
        have hne : r ≠ request := fun heq => hfresh (heq ▸ hr)
        simp [hne]
      · rw [List.map_cons, List.nodup_cons]
        refine ⟨fun hdup => ?_, htags⟩
        obtain ⟨c, hc, htag⟩ := List.mem_map.mp hdup
        obtain ⟨i, hi⟩ := hfrom c hc
        rw [hi] at htag
        exact absurd (hids htag) (Nat.succ_ne_zero i)
      · intro c hc
        rcases List.mem_cons.mp hc with rfl | hc
        · exact ⟨0, rfl⟩
        · exact (hfrom c hc).imp' (· + 1) fun _ hi => hi

-- ---------------------------------------------------------------------------
-- Executing
-- ---------------------------------------------------------------------------

omit [Unicode] in
theorem execute_acks (unread : String) (surroundings : Nat → Relay.Surroundings)
    (agent : Relay.Manager) (commands : List Command) :
    (execute unread surroundings agent commands).1.map Prod.fst = commands.map Command.id := by
  induction commands generalizing surroundings agent with
  | nil => rfl
  | cons c commands ih => rw [execute, List.map_cons, List.map_cons, ih]

end

end LabProbe.PortMap
