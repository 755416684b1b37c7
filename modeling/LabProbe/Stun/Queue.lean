import LabProbe.Lib.Rows
import LabProbe.Stun.Handlers

/-!
# The STUN command queue

`queue`, the poll and the acknowledgement of the agent, on the rows of the
commands document. Queueing drops the unfinished rows of the same router,
action and rule and appends the new one, so the rows stand in the order in
which they were queued. A poll sends the first rows that are pending or due
for a retry; an acknowledgement names an id only.

The system adds the agent, `sync_stun`. It runs the commands of an answer in
order, as far as it gets, and acknowledges any of that at any later time, in
any selection, with either result, or never. `queued` and `executed` record
what was queued and what the agent ran. Times and results kept for display
are left out.
-/

namespace LabProbe.Stun

open Py Py.Json Hub Runs

inductive Status where
  | pending | delivered | done | failed
  deriving DecidableEq, Repr

structure Command where
  id : String
  router : String
  request : Request
  status : Status := .pending
  attempts : Nat := 0
  deliveredEpoch : Int := 0
  deriving DecidableEq

def Command.unfinished (c : Command) : Bool := c.status == .pending || c.status == .delivered

/-- What an answer carries of a command, with the router that asked. -/
structure Delivery where
  id : String
  router : String
  request : Request
  deriving DecidableEq

def Command.delivery (c : Command) : Delivery := ⟨c.id, c.router, c.request⟩

structure Queue where
  commands : List Command := []
  queued : List Delivery := []
  executed : List Delivery := []

/-- The agent runs the first `ran` commands of the answer it polls; none,
where the answer is lost. -/
inductive QueueEvent where
  | queue (id router : String) (request : Request)
  | poll (now : Int) (router : String) (limit : Int) (ran : Nat)
  | ack (acks : List (Delivery × Bool))

section
variable [Unicode]

-- ---------------------------------------------------------------------------
-- Queueing
-- ---------------------------------------------------------------------------

/-- The rule a payload is about. -/
def Request.ruleId (r : Request) : String :=
  text ((get r.payload "id").or (get (asDict (get r.payload "rule")) "id"))

def supersedes (router : String) (request : Request) (c : Command) : Bool :=
  c.router == router && c.request.action == request.action &&
    c.request.ruleId == request.ruleId && c.unfinished

def queueCommand (id router : String) (request : Request) (commands : List Command) :
    List Command :=
  commands.filter (fun c => !supersedes router request c) ++
    [{ id := id, router := router, request := request }]

-- ---------------------------------------------------------------------------
-- Polling and acknowledging
-- ---------------------------------------------------------------------------

/-- `max(1, min(50, limit))`, of the number read. -/
def pollLimit (limit : Int) : Nat := (max 1 (min 50 limit)).toNat

def retryDue (now : Int) (c : Command) : Bool :=
  c.status == .delivered && 15 ≤ now - c.deliveredEpoch && c.attempts < 5

def isDue (now : Int) (router : String) (c : Command) : Bool :=
  c.router == router && (c.status == .pending || retryDue now c)

def markDelivered (now : Int) (c : Command) : Command :=
  { c with status := .delivered, deliveredEpoch := now, attempts := c.attempts + 1 }

def agentCommands (now : Int) (router : String) (limit : Int) (commands : List Command) :
    List Command × List Command :=
  Rows.send (isDue now router) (markDelivered now) (pollLimit limit) commands

/-- The key under which an id is matched. -/
def tag (id : String) : String := text (.str id)

/-- The results of an acknowledgement by id, later entries replacing earlier ones. -/
def ackValues (acks : List (String × Bool)) : List (String × Bool) :=
  Dict.ofEntries (acks.map fun ack => (tag ack.1, ack.2))

def ackCommand (acks : List (String × Bool)) (c : Command) : Command :=
  match Dict.get? (ackValues acks) (tag c.id) with
  | some ok => { c with status := if ok then .done else .failed }
  | none => c

def agentAck (acks : List (String × Bool)) (commands : List Command) : List Command :=
  commands.map (ackCommand acks)

-- ---------------------------------------------------------------------------
-- The system
-- ---------------------------------------------------------------------------

/-- What the Hub reads of an acknowledgement the agent can send. -/
def Queue.ackEntries (s : Queue) (acks : List (Delivery × Bool)) : List (String × Bool) :=
  (acks.filter fun ack => s.executed.contains ack.1).map fun ack => (ack.1.id, ack.2)

def Queue.runs (s : Queue) (now : Int) (router : String) (limit : Int) (ran : Nat) :
    List Delivery :=
  ((agentCommands now router limit s.commands).1.take ran).map Command.delivery

def Queue.step (s : Queue) : QueueEvent → Queue
  | .queue id router request =>
    { s with commands := queueCommand id router request s.commands
             queued := s.queued ++ [⟨id, router, request⟩] }
  | .poll now router limit ran =>
    { s with commands := (agentCommands now router limit s.commands).2
             executed := s.executed ++ s.runs now router limit ran }
  | .ack acks => { s with commands := agentAck (s.ackEntries acks) s.commands }

/-- The router and the identifier of a rule. -/
def Delivery.rule (d : Delivery) : String × String := (d.router, d.request.ruleId)

def Delivery.tag (d : Delivery) : String := Stun.tag d.id

def lastOf (rule : String × String) (record : List Delivery) : Option Delivery :=
  (record.filter fun d => d.rule == rule).getLast?

/-- Where no command of a rule is pending or delivered, the agent ran the one
queued last as its last. -/
def Queue.RunsLast (s : Queue) : Prop := ∀ rule o, lastOf rule s.queued = some o →
  (∀ c ∈ s.commands, c.delivery.rule = rule → c.unfinished = false) →
    lastOf rule s.executed = some o

/-- A new command has an id of its own, as `uuid4` gives it. -/
def Queue.TakesNewId (s : Queue) : QueueEvent → Prop
  | .queue id .. => ∀ d ∈ s.queued, d.tag ≠ tag id
  | _ => True

/-- At a poll, no row that is due for a retry stands before a row of its rule
that has been delivered. -/
def Queue.KeepsOrder (s : Queue) : QueueEvent → Prop
  | .poll now router _ _ => s.commands.Pairwise fun c c' =>
    (c.router == router && retryDue now c) = true → c'.delivery.rule = c.delivery.rule →
      c'.status = .pending
  | _ => True

instance (s : Queue) (e : QueueEvent) : Decidable (s.TakesNewId e) := by
  unfold Queue.TakesNewId
  exact match e with
    | .queue .. | .poll .. | .ack .. => inferInstance

instance (s : Queue) (e : QueueEvent) : Decidable (s.KeepsOrder e) := by
  unfold Queue.KeepsOrder
  exact match e with
    | .queue .. | .poll .. | .ack .. => inferInstance

-- ---------------------------------------------------------------------------
-- What the operations do
-- ---------------------------------------------------------------------------

variable {s : Queue} {now : Int} {id router : String} {request : Request} {limit : Int} {ran : Nat}
  {rule : String × String} {commands : List Command}

theorem lastOf_append (rule : String × String) (record sent : List Delivery) :
    lastOf rule (record ++ sent) = (lastOf rule sent).or (lastOf rule record) := by
  rw [lastOf, List.filter_append, List.getLast?_append]
  rfl

theorem lastOf_concat (rule : String × String) (record : List Delivery) (d : Delivery) :
    lastOf rule (record ++ [d]) = if d.rule = rule then some d else lastOf rule record := by
  by_cases h : d.rule = rule <;> simp [lastOf, List.filter_append, h]

theorem mem_of_lastOf {record : List Delivery} (h : lastOf rule record = some o) :
    o ∈ record ∧ o.rule = rule := by
  obtain ⟨hmem, hrule⟩ := List.mem_filter.mp (List.mem_of_getLast? h)
  exact ⟨hmem, beq_iff_eq.mp hrule⟩

theorem supersedes_rule {c : Command} (h : supersedes router request c = true) :
    c.delivery.rule = (router, request.ruleId) := by
  simp only [supersedes, Bool.and_eq_true, beq_iff_eq] at h
  obtain ⟨⟨⟨hrouter, -⟩, hid⟩, -⟩ := h
  exact Prod.ext hrouter hid

omit [Unicode] in
theorem isDue_unfinished {c : Command} (h : isDue now router c = true) : c.unfinished = true :=
  Rows.open_of_due h

omit [Unicode] in
theorem agentCommands_map (now : Int) (router : String) (limit : Int) (commands : List Command) :
    (agentCommands now router limit commands).2.map (fun c => (c.unfinished, c.delivery)) =
      commands.map fun c => (c.unfinished, c.delivery) :=
  Rows.map_send (fun c hc => by rw [isDue_unfinished hc]; rfl) _ _

omit [Unicode] in
theorem agentCommands_delivery (now : Int) (router : String) (limit : Int)
    (commands : List Command) :
    (agentCommands now router limit commands).2.map Command.delivery =
      commands.map Command.delivery := by
  have h := congrArg (List.map Prod.snd) (agentCommands_map now router limit commands)
  simpa [Function.comp_def] using h

omit [Unicode] in
theorem runs_sublist (s : Queue) (now : Int) (router : String) (limit : Int) (ran : Nat) :
    (s.runs now router limit ran).Sublist (s.commands.map Command.delivery) := by
  rw [← agentCommands_delivery now router limit s.commands]
  exact ((List.take_sublist _ _).trans (Rows.send_sublist _ _)).map _

theorem ackCommand_delivery (acks : List (String × Bool)) (c : Command) :
    (ackCommand acks c).delivery = c.delivery := by
  unfold ackCommand
  split <;> rfl

/-- A row that an acknowledgement changes has the id of a command that the
agent ran. -/
theorem ackCommand_cases (s : Queue) (acks : List (Delivery × Bool)) (c : Command) :
    ackCommand (s.ackEntries acks) c = c ∨ ∃ d ∈ s.executed, d.tag = tag c.id := by
  unfold ackCommand
  cases hget : Dict.get? (ackValues (s.ackEntries acks)) (tag c.id) with
  | none => exact .inl rfl
  | some ok =>
    right
    obtain ⟨entry, hentry, heq⟩ := List.mem_map.mp (Dict.mem_ofEntries (Dict.mem_of_get? hget))
    obtain ⟨ack, hack, rfl⟩ := List.mem_map.mp hentry
    obtain ⟨-, hran⟩ := List.mem_filter.mp hack
    exact ⟨ack.1, by simpa using hran, congrArg Prod.fst heq⟩

-- ---------------------------------------------------------------------------
-- The invariant
-- ---------------------------------------------------------------------------

/-- A row before a pending one of its router is sent no later. -/
def Behind (c c' : Command) : Prop :=
  c.router = c'.router → c.status = .pending → c'.status = .pending

/-- The table holds what was queued in this order, the agent ran only that
and no pending row, what is pending stands behind what is not, what was
queued last for a rule is in the table until it has been run, and once it
has been run no other command of the rule is. -/
structure Placed (s : Queue) : Prop where
  tags : (s.queued.map Delivery.tag).Nodup
  rows : (s.commands.map Command.delivery).Sublist s.queued
  ran : ∀ d ∈ s.executed, d ∈ s.queued
  pending : ∀ c ∈ s.commands, c.status = .pending → c.delivery ∉ s.executed
  behind : s.commands.Pairwise Behind
  owed : ∀ rule o, lastOf rule s.queued = some o →
    ∃ c ∈ s.commands, c.delivery = o ∧ (c.unfinished = true ∨ o ∈ s.executed)
  last : ∀ rule o, lastOf rule s.queued = some o → o ∈ s.executed → lastOf rule s.executed = some o

theorem placed_start : Placed {} where
  tags := List.nodup_nil
  rows := List.Sublist.refl _
  ran d h := by cases h
  pending c h := by cases h
  behind := List.Pairwise.nil
  owed rule o h := by cases h
  last rule o h := by cases h

theorem Placed.unique (h : Placed s) {d o : Delivery} (hd : d ∈ s.queued) (ho : o ∈ s.queued)
    (htag : d.tag = o.tag) : d = o := List.inj_on_of_nodup_map h.tags hd ho htag

theorem Placed.queued (h : Placed s) {c : Command} (hc : c ∈ s.commands) :
    c.delivery ∈ s.queued := h.rows.subset (List.mem_map_of_mem hc)

theorem Placed.nodup (h : Placed s) : (s.commands.map Command.delivery).Nodup :=
  h.rows.nodup (List.Nodup.of_map _ h.tags)

theorem Placed.queue (h : Placed s) (hnew : s.TakesNewId (.queue id router request)) :
    Placed (s.step (.queue id router request)) where
  tags := by
    refine Rows.nodup_map_concat h.tags fun hmem => ?_
    obtain ⟨d, hd, htag⟩ := List.mem_map.mp hmem
    exact hnew d hd htag
  rows := by
    simp only [Queue.step, queueCommand, List.map_append]
    exact ((List.filter_sublist.map _).trans h.rows).append (List.Sublist.refl _)
  ran d hd := List.mem_append_left _ (h.ran d hd)
  pending c hc hpending := by
    rcases List.mem_append.mp hc with hc | hc
    · exact h.pending c (List.mem_of_mem_filter hc) hpending
    · obtain rfl := List.mem_singleton.mp hc
      exact fun hran => hnew _ (h.ran _ hran) rfl
  behind := by
    refine List.pairwise_append.mpr ⟨h.behind.filter _, List.pairwise_singleton _ _, ?_⟩
    intro c _ c' hc' _ _
    rw [List.mem_singleton.mp hc']
  owed rule o hlast := by
    simp only [Queue.step, lastOf_concat] at hlast ⊢
    split_ifs at hlast with hmine
    · obtain rfl := Option.some.inj hlast
      exact ⟨_, List.mem_append_right _ List.mem_cons_self, rfl, .inl rfl⟩
    · obtain ⟨c, hc, rfl, hu⟩ := h.owed rule o hlast
      -- the request is about another rule, so it drops no row of this one
      have hkept : supersedes router request c = false := by
        refine Bool.eq_false_iff.mpr fun hs => hmine ?_
        exact (supersedes_rule hs).symm.trans (mem_of_lastOf hlast).2
      exact ⟨c, List.mem_append_left _ (List.mem_filter.mpr ⟨hc, by simp [hkept]⟩), rfl, hu⟩
  last rule o hlast hran := by
    simp only [Queue.step, lastOf_concat] at hlast
    split_ifs at hlast with hmine
    · obtain rfl := Option.some.inj hlast
      have hfresh : ∀ d ∈ s.queued, d.tag ≠ tag id := hnew
      have htag : Delivery.tag ⟨id, router, request⟩ = tag id := rfl
      exact absurd htag (hfresh _ (h.ran _ hran))
    · exact h.last rule o hlast hran

theorem Placed.before_last (h : Placed s) {o : Delivery} (hlast : lastOf rule s.queued = some o)
    {c : Command} (hc : c ∈ s.commands) (hrule : c.delivery.rule = rule) :
    c.delivery = o ∨ ∃ pre c' post, s.commands = pre ++ c' :: post ∧ c'.delivery = o ∧ c ∈ pre := by
  obtain ⟨c', hc', hd, -⟩ := h.owed rule o hlast
  obtain ⟨pre, post, hsplit⟩ := List.append_of_mem hc'
  have horule := (mem_of_lastOf hlast).2
  rw [hsplit] at hc
  rcases List.mem_append.mp hc with hpre | hc
  · exact .inr ⟨pre, c', post, hsplit, hd, hpre⟩
  · rcases List.mem_cons.mp hc with rfl | hpost
    · exact .inl hd
    · -- nothing of the rule is behind the last one
      have hrows := (h.rows.filter fun d => d.rule == rule)
      have hnodup := (List.Nodup.of_map _ h.tags).filter fun d => d.rule == rule
      have hmem : o ∈ (s.commands.map Command.delivery).filter fun d => d.rule == rule :=
        List.mem_filter.mpr ⟨hd ▸ List.mem_map_of_mem hc', by simpa using horule⟩
      have hend := Rows.getLast?_of_sublist hrows hnodup hlast hmem
      have hkept := hrows.nodup hnodup
      rw [hsplit, List.map_append, List.map_cons, List.filter_append,
        List.filter_cons_of_pos (by simpa [hd] using horule), hd] at hend hkept
      have hnone := Rows.eq_nil_of_getLast? hkept hend
      have hin : c.delivery ∈ (post.map Command.delivery).filter fun d => d.rule == rule :=
        List.mem_filter.mpr ⟨List.mem_map_of_mem hpost, by simpa using hrule⟩
      rw [hnone] at hin
      cases hin

theorem Placed.runs_last (h : Placed s) (hk : s.KeepsOrder (.poll now router limit ran))
    {d o : Delivery} (hd : d ∈ s.runs now router limit ran)
    (hlast : lastOf d.rule s.queued = some o) (hran : o ∈ s.executed) : d = o := by
  obtain ⟨sent, hsent, rfl⟩ := List.mem_map.mp hd
  obtain ⟨c, hc, hdue, rfl⟩ := Rows.mem_sent (List.mem_of_mem_take hsent)
  have hlast' : lastOf c.delivery.rule s.queued = some o := hlast
  rcases h.before_last hlast' hc rfl with heq | ⟨pre, c', post, hsplit, rfl, hpre⟩
  · exact heq
  · have hrule : c'.delivery.rule = c.delivery.rule := (mem_of_lastOf hlast').2
    have hrouter : c.router = c'.router := (congrArg Prod.fst hrule).symm
    have hsince := hk
    simp only [Queue.KeepsOrder] at hsince
    have hbehind := h.behind
    rw [hsplit, List.pairwise_append] at hsince hbehind
    simp only [isDue, Bool.and_eq_true, Bool.or_eq_true, beq_iff_eq] at hdue
    have hpending : c'.status = .pending := by
      rcases hdue with ⟨hmine, hpending | hretry⟩
      · exact hbehind.2.2 c hpre c' List.mem_cons_self hrouter hpending
      · exact hsince.2.2 c hpre c' List.mem_cons_self (by simp [hmine, hretry]) hrule
    have hmem : c' ∈ s.commands := hsplit ▸ List.mem_append_right _ List.mem_cons_self
    exact absurd hran (h.pending c' hmem hpending)

omit [Unicode] in
theorem behind_markDelivered (now : Int) (c c' : Command) : Behind (markDelivered now c) c' := by
  intro _ hpending
  cases hpending

theorem Placed.pending_poll (h : Placed s) {c : Command}
    (hc : c ∈ (agentCommands now router limit s.commands).2) (hpending : c.status = .pending) :
    c.delivery ∉ s.executed ++ s.runs now router limit ran := by
  intro hran
  rcases List.mem_append.mp hran with hran | hran
  · rcases Rows.mem_send hc with hc | ⟨row, -, -, rfl⟩
    · exact h.pending c hc hpending hran
    · cases hpending
  · obtain ⟨sent, hsent, hd⟩ := List.mem_map.mp hran
    have hin := List.mem_of_mem_take hsent
    have hnodup := h.nodup
    rw [← agentCommands_delivery now router limit s.commands] at hnodup
    have heq := List.inj_on_of_nodup_map hnodup ((Rows.send_sublist _ _).subset hin) hc hd
    obtain ⟨row, -, -, rfl⟩ := Rows.mem_sent hin
    rw [← heq] at hpending
    cases hpending

theorem Placed.poll (h : Placed s) (hk : s.KeepsOrder (.poll now router limit ran)) :
    Placed (s.step (.poll now router limit ran)) := by
  have hrows := agentCommands_delivery now router limit s.commands
  have hruns := (runs_sublist s now router limit ran).trans h.rows
  refine ⟨h.tags, ?_, ?_, ?_, ?_, ?_, ?_⟩
  · simp only [Queue.step]
    rw [hrows]
    exact h.rows
  · intro d hd
    exact (List.mem_append.mp hd).elim (h.ran d) (hruns.subset ·)
  · intro c hc hpending
    exact h.pending_poll hc hpending
  · refine Rows.send_pairwise h.behind (fun c c' _ => behind_markDelivered now c c') ?_ _
    intro c c' hnot hdue _ hrouter hpending
    -- a pending row of the router is due
    simp only [isDue, Bool.and_eq_true, beq_iff_eq] at hdue
    have hmine : c.router = router := hrouter.trans hdue.1
    simp [isDue, hmine, hpending] at hnot
  · intro rule o hlast
    obtain ⟨c, hc, rfl, hu⟩ := h.owed rule o hlast
    have hmem : (c.unfinished, c.delivery) ∈
        (agentCommands now router limit s.commands).2.map fun c => (c.unfinished, c.delivery) := by
      rw [agentCommands_map]
      exact List.mem_map_of_mem hc
    obtain ⟨c', hc', heq⟩ := List.mem_map.mp hmem
    obtain ⟨hu', hd'⟩ := Prod.mk.inj heq
    exact ⟨c', hc', hd', hu.imp hu'.trans (List.mem_append_left _)⟩
  · intro rule o hlast hran
    obtain ⟨-, hrule⟩ := mem_of_lastOf hlast
    have hlast' : lastOf rule s.queued = some o := hlast
    simp only [Queue.step] at hran ⊢
    rw [lastOf_append]
    by_cases ho : o ∈ s.runs now router limit ran
    · -- the commands run are in the order queued, so the last one queued comes last
      have hends : lastOf rule (s.runs now router limit ran) = some o :=
        Rows.getLast?_of_sublist (hruns.filter _) ((List.Nodup.of_map _ h.tags).filter _) hlast'
          (List.mem_filter.mpr ⟨ho, by simpa using hrule⟩)
      rw [hends, Option.some_or]
    · have hbefore : o ∈ s.executed := (List.mem_append.mp hran).resolve_right ho
      have hnone : lastOf rule (s.runs now router limit ran) = none := by
        rw [lastOf, List.getLast?_eq_none_iff, List.filter_eq_nil_iff]
        intro d hd hr
        obtain rfl := beq_iff_eq.mp hr
        exact ho (h.runs_last hk hd hlast' hbefore ▸ hd)
      rw [hnone, Option.none_or]
      exact h.last rule o hlast' hbefore

theorem Placed.ack_row (h : Placed s) (acks : List (Delivery × Bool)) {c : Command}
    (hc : c ∈ s.commands) :
    ackCommand (s.ackEntries acks) c = c ∨ c.delivery ∈ s.executed := by
  refine (ackCommand_cases s acks c).imp_right ?_
  rintro ⟨d, hd, htag⟩
  exact h.unique (h.ran d hd) (h.queued hc) htag ▸ hd

theorem ackCommand_pending {acks : List (String × Bool)} {c : Command}
    (hpending : (ackCommand acks c).status = .pending) : ackCommand acks c = c := by
  unfold ackCommand at hpending ⊢
  split
  · rename_i ok hget
    rw [hget] at hpending
    cases ok <;> cases hpending
  · rfl

theorem Placed.ack (h : Placed s) (acks : List (Delivery × Bool)) :
    Placed (s.step (.ack acks)) := by
  have hrows : (agentAck (s.ackEntries acks) s.commands).map Command.delivery =
      s.commands.map Command.delivery := by
    simp [agentAck, Function.comp_def, ackCommand_delivery]
  refine ⟨h.tags, ?_, h.ran, ?_, ?_, ?_, h.last⟩
  · simp only [Queue.step]
    rw [hrows]
    exact h.rows
  · intro c hc hpending
    obtain ⟨row, hrow, rfl⟩ := List.mem_map.mp hc
    have hsame := ackCommand_pending hpending
    rw [hsame] at hpending ⊢
    exact h.pending row hrow hpending
  · refine List.pairwise_map.mpr (h.behind.imp_of_mem ?_)
    intro c c' _ hc' hbehind hrouter hpending
    have hsame := ackCommand_pending hpending
    rw [hsame] at hrouter hpending
    have hrouter' : c.router = c'.router :=
      hrouter.trans (congrArg Delivery.router (ackCommand_delivery (s.ackEntries acks) c'))
    have hpending' := hbehind hrouter' hpending
    rw [(h.ack_row acks hc').resolve_right (h.pending c' hc' hpending'), hpending']
  · intro rule o hlast
    obtain ⟨c, hc, rfl, hu⟩ := h.owed rule o hlast
    refine ⟨_, List.mem_map_of_mem hc, ackCommand_delivery _ c, ?_⟩
    rcases h.ack_row acks hc with hsame | hran
    · rwa [hsame]
    · exact .inr hran

theorem Placed.step {e : QueueEvent} (h : Placed s) (hnew : s.TakesNewId e)
    (hk : s.KeepsOrder e) : Placed (s.step e) := by
  cases e with
  | queue id router request => exact h.queue hnew
  | poll now router limit ran => exact h.poll hk
  | ack acks => exact h.ack acks

theorem Placed.runsLast (h : Placed s) : s.RunsLast := by
  intro rule o hlast hfinished
  obtain ⟨c, hc, rfl, hu⟩ := h.owed rule o hlast
  refine h.last rule _ hlast (hu.resolve_left fun hu => ?_)
  rw [hfinished c hc (mem_of_lastOf hlast).2] at hu
  cases hu

/-- In the runs where no poll comes to retry a command behind which another
of its rule has been delivered, the commands of every rule end with the one
queued last. -/
theorem commands_keep_order (es : List QueueEvent)
    (hnew : Along Queue.step Queue.TakesNewId {} es)
    (hk : Along Queue.step Queue.KeepsOrder {} es) :
    Along Queue.step (fun s e => (s.step e).RunsLast) {} es :=
  (along_and.mpr ⟨hnew, hk⟩).mono placed_start (fun _ _ h hk => h.step hk.1 hk.2)
    fun _ _ h hk => (h.step hk.1 hk.2).runsLast

end

section
local instance queueUnicode : Unicode := .ascii

def sshStart : Request := upsertRequest [("id", .str "ssh"), ("enabled", .bool true)]

def sshStop : Request := ⟨.stop, [("id", .str "ssh")]⟩

/-- A start whose acknowledgement is lost, and a stop that is run and
acknowledged. -/
def startThenStop : List QueueEvent :=
  [.queue "cmd-1" "router" sshStart, .poll 100 "router" 20 1, .queue "cmd-2" "router" sshStop,
    .poll 105 "router" 20 1, .ack [(⟨"cmd-2", "router", sshStop⟩, true)]]

theorem commands_keep_order_ssh :
    Along Queue.step (fun s e => (s.step e).RunsLast) {}
      (startThenStop ++ [.ack [(⟨"cmd-1", "router", sshStart⟩, true)]]) :=
  commands_keep_order _ (by decide) (by decide)

/-- The start is sent again after the stop, and is the last that is run. -/
theorem retry_restarts_ssh :
    Along Queue.step Queue.TakesNewId {} (startThenStop ++ [.poll 115 "router" 20 1,
      .ack [(⟨"cmd-1", "router", sshStart⟩, true)]]) ∧
    ¬Along Queue.step (fun s e => (s.step e).RunsLast) {} (startThenStop ++
      [.poll 115 "router" 20 1, .ack [(⟨"cmd-1", "router", sshStart⟩, true)]]) := by
  refine ⟨by decide, fun h => ?_⟩
  rw [List.append_cons] at h
  have hrun := h.last ("router", "ssh") ⟨"cmd-2", "router", sshStop⟩ (by decide) (by decide)
  exact absurd hrun (by decide)

end

end LabProbe.Stun
