import LabProbe.PortMap.Queue

/-!
# When no update is lost

An acknowledgement names a command by its id, and queueing may have given
that id another payload since it was delivered. Nothing is lost in the runs
that rewrite a row only while the agent has not run it with another payload,
drop no unfinished row and take fresh ids.
-/

namespace LabProbe.PortMap

open Py Py.Json Hub Runs

section
variable [Unicode]

-- ---------------------------------------------------------------------------
-- The property and the condition
-- ---------------------------------------------------------------------------

def decidingAck (acks : List (Delivery × Bool)) (c : Command) : Option (Delivery × Bool) :=
  (acks.filter fun ack => ack.1.tag == tag c.id).getLast?

/-- A command is marked done only by the acknowledgement of a delivery that
carried what the command carries now. -/
def Queue.MarksCurrent (s : Queue) : Event → Prop
  | .ack now acks => ∀ c ∈ s.commands, c.status ≠ .done →
      (ackCommand now (s.ackEntries acks) c).status = .done →
        ∃ d, decidingAck (s.sendable acks) c = some (d, true) ∧ d ∈ s.executed ∧
          d.request = c.request
  | _ => True

/-- Where no command of a rule is pending or delivered, what was queued last
for the rule has been delivered to the agent. -/
def Queue.UpdatesDelivered (s : Queue) : Prop :=
  ∀ rule, (∀ c ∈ s.commands, c.delivery.rule = rule → c.unfinished = false) →
    ∀ o, lastOf rule s.ordered = some o →
      ∃ d ∈ s.executed, d.rule = rule ∧ d.request = o.request

/-- Queueing drops no unfinished row, rewrites a row only if the agent has
run it, if at all, with the same request, and gives a new row a fresh id. -/
def Queue.KeepsUpdates (s : Queue) : Event → Prop
  | .queue now id router request =>
    (keptCommands now s.commands).filter Command.unfinished =
        s.commands.filter Command.unfinished ∧
      (∀ c ∈ rewritten now router request s.commands, ∀ d ∈ s.executed,
        d.tag = tag c.id → d.request = request) ∧
      (rewritten now router request s.commands = none → ∀ o ∈ s.ordered, o.tag ≠ tag id)
  | _ => True

instance : (s : Queue) → (e : Event) → Decidable (s.KeepsUpdates e)
  | s, .queue now id router request => inferInstanceAs (Decidable
      ((keptCommands now s.commands).filter Command.unfinished =
          s.commands.filter Command.unfinished ∧
        (∀ c ∈ rewritten now router request s.commands, ∀ d ∈ s.executed,
          d.tag = tag c.id → d.request = request) ∧
        (rewritten now router request s.commands = none → ∀ o ∈ s.ordered, o.tag ≠ tag id)))
  | _, .poll .. => .isTrue trivial
  | _, .ack .. => .isTrue trivial

-- ---------------------------------------------------------------------------
-- Ids
-- ---------------------------------------------------------------------------

def Queue.rows (s : Queue) : List Delivery := s.commands.map Command.delivery

/-- An id names one row, was queued under one rule, and was run by the
agent with what the row carries. -/
structure Tracked (s : Queue) : Prop where
  tags : (s.rows.map Delivery.tag).Nodup
  issued : ∀ r ∈ s.rows, ∃ o ∈ s.ordered, o.tag = r.tag
  known : ∀ d ∈ s.executed, ∃ o ∈ s.ordered, o.tag = d.tag
  rules : ∀ r ∈ s.rows, ∀ o ∈ s.ordered, o.tag = r.tag → o.rule = r.rule
  current : ∀ r ∈ s.rows, ∀ d ∈ s.executed, d.tag = r.tag → d = r

variable {s : Queue} {now : Int} {id router : String} {request : Request}

theorem Tracked.start : Tracked {} := by
  refine ⟨List.nodup_nil, ?_, ?_, ?_, ?_⟩ <;> simp [Queue.rows]

theorem Tracked.unique (ht : Tracked s) {r r' : Delivery} (hr : r ∈ s.rows) (hr' : r' ∈ s.rows)
    (htag : r.tag = r'.tag) : r = r' := List.inj_on_of_nodup_map ht.tags hr hr' htag

omit [Unicode] in
theorem kept_rows (now : Int) {r : Delivery}
    (hr : r ∈ (keptCommands now s.commands).map Command.delivery) :
    r ∈ s.rows := (keptCommands_sublist now s.commands).map _ |>.subset hr

theorem kept_tags (ht : Tracked s) (now : Int) :
    (((keptCommands now s.commands).map Command.delivery).map Delivery.tag).Nodup :=
  ht.tags.sublist (((keptCommands_sublist now s.commands).map _).map _)

/-- A row queued under its own tag, among rows of the table. -/
theorem Tracked.insert {s' : Queue} {pre post : List Delivery} {r : Delivery} (ht : Tracked s)
    (hold : ∀ r' ∈ pre ++ post, r' ∈ s.rows)
    (htags : ((pre ++ r :: post).map Delivery.tag).Nodup)
    (hcurrent : ∀ d ∈ s.executed, d.tag = r.tag → d = r)
    (hrule : ∀ o ∈ s.ordered, o.tag = r.tag → o.rule = r.rule)
    (hrows : s'.rows = pre ++ r :: post) (hordered : s'.ordered = s.ordered ++ [r])
    (hexecuted : s'.executed = s.executed) : Tracked s' := by
  have hcases : ∀ r' ∈ s'.rows, r' = r ∨ (r' ∈ s.rows ∧ r'.tag ≠ r.tag) := by
    intro r' hr'
    rw [hrows, List.mem_append, List.mem_cons] at hr'
    rw [List.map_append, List.map_cons, List.nodup_middle, List.nodup_cons] at htags
    have hother : r' ∈ pre ++ post → r' ∈ s.rows ∧ r'.tag ≠ r.tag := fun hmem =>
      ⟨hold r' hmem, fun heq => htags.1 (by rw [← List.map_append, ← heq]; exact List.mem_map_of_mem hmem)⟩
    rcases hr' with h | h | h
    · exact .inr (hother (List.mem_append_left _ h))
    · exact .inl h
    · exact .inr (hother (List.mem_append_right _ h))
  refine ⟨hrows ▸ htags, ?_, ?_, ?_, ?_⟩
  · intro r' hr'
    rw [hordered]
    rcases hcases r' hr' with rfl | ⟨hmem, -⟩
    · exact ⟨r', by simp, rfl⟩
    · obtain ⟨o, ho, heq⟩ := ht.issued r' hmem
      exact ⟨o, List.mem_append_left _ ho, heq⟩
  · intro d hd
    rw [hordered]
    obtain ⟨o, ho, heq⟩ := ht.known d (hexecuted ▸ hd)
    exact ⟨o, List.mem_append_left _ ho, heq⟩
  · intro r' hr' o ho heq
    rw [hordered, List.mem_append, List.mem_singleton] at ho
    rcases hcases r' hr' with rfl | ⟨hmem, hne⟩
    · rcases ho with ho | rfl
      · exact hrule o ho heq
      · rfl
    · rcases ho with ho | rfl
      · exact ht.rules r' hmem o ho heq
      · exact absurd heq.symm hne
  · intro r' hr' d hd heq
    rw [hexecuted] at hd
    rcases hcases r' hr' with rfl | ⟨hmem, -⟩
    · exact hcurrent d hd heq
    · exact ht.current r' hmem d hd heq

theorem Tracked.queue (ht : Tracked s) (hk : s.KeepsUpdates (.queue now id router request)) :
    Tracked (s.step (.queue now id router request)) := by
  obtain ⟨-, hrewrite, hfresh⟩ := hk
  have htags := kept_tags ht now
  rcases queueCommand_cases now id router request s.commands with
    ⟨pre, c, post, hkept, hc, hre, hq⟩ | ⟨hre, hq⟩
  · have hrule := (coalesces_rule hc).2
    have hcrow : c.delivery ∈ s.rows := kept_rows now (by simp [hkept])
    have hold : ∀ r' ∈ pre.map Command.delivery ++ post.map Command.delivery, r' ∈ s.rows := by
      intro r' hr'
      refine kept_rows now ?_
      rw [hkept, List.map_append, List.map_cons]
      exact List.mem_append.mpr ((List.mem_append.mp hr').imp_right (List.mem_cons_of_mem _))
    refine ht.insert (r := ⟨c.id, c.router, request⟩) hold ?_ ?_ ?_ ?_ ?_ ?_
    · simpa [hkept, Delivery.tag, Command.delivery] using htags
    · intro d hd heq
      have hrun : d = c.delivery := ht.current _ hcrow d hd heq
      have hsame : d.request = request := hrewrite c hre d hd heq
      rw [← hsame, hrun]
      rfl
    · intro o ho heq
      rw [ht.rules _ hcrow o ho heq, hrule]
      exact Prod.ext (congrArg Prod.fst hrule).symm rfl
    · simp [Queue.rows, Queue.step, hq, Command.delivery]
    · simp [Queue.step, hq, Command.delivery]
    · simp [Queue.step]
  · have hold : ∀ r' ∈ (keptCommands now s.commands).map Command.delivery ++ [], r' ∈ s.rows := by
      intro r' hr'
      exact kept_rows now (by simpa using hr')
    have hnew : ∀ o ∈ s.ordered, o.tag ≠ tag id := hfresh hre
    refine ht.insert (r := ⟨id, router, request⟩) hold ?_ ?_ ?_ ?_ ?_ ?_
    · rw [List.map_append, List.nodup_append]
      refine ⟨htags, by simp, ?_⟩
      rintro t ht' t' ht'' rfl
      obtain ⟨r', hr', rfl⟩ := List.mem_map.mp ht'
      obtain ⟨o, ho, heq⟩ := ht.issued r' (kept_rows now hr')
      exact hnew o ho (heq.trans (by simpa [Delivery.tag] using ht''))
    · intro d hd heq
      obtain ⟨o, ho, heq'⟩ := ht.known d hd
      exact absurd (heq'.trans heq) (hnew o ho)
    · intro o ho heq
      exact absurd heq (hnew o ho)
    · simp [Queue.rows, Queue.step, hq, Command.delivery]
    · simp [Queue.step, hq, Command.delivery]
    · simp [Queue.step]

theorem poll_rows (now : Int) (router : String) (limit : Int) (lost : Bool) :
    (s.step (.poll now router limit lost)).rows = s.rows := by
  have h := congrArg (List.map Prod.snd) (pollCommands_map now router limit s.commands)
  simpa [Queue.rows, Queue.step, Function.comp_def] using h

theorem sent_rows {d : Delivery}
    (hd : d ∈ (pollCommands now router limit s.commands).1.map Command.delivery) : d ∈ s.rows := by
  rw [← poll_rows now router limit true]
  exact ((Rows.send_sublist _ _).map _).subset hd

theorem poll_executed {lost : Bool} {d : Delivery}
    (hd : d ∈ (s.step (.poll now router limit lost)).executed) : d ∈ s.executed ∨ d ∈ s.rows := by
  simp only [Queue.step] at hd
  split at hd
  · exact .inl hd
  · exact (List.mem_append.mp hd).imp_right sent_rows

theorem Tracked.poll (ht : Tracked s) (limit : Int) (lost : Bool) :
    Tracked (s.step (.poll now router limit lost)) := by
  have hrows := poll_rows (s := s) now router limit lost
  refine ⟨hrows ▸ ht.tags, hrows ▸ ht.issued, ?_, hrows ▸ ht.rules, ?_⟩
  · intro d hd
    rcases poll_executed hd with h | h
    · exact ht.known d h
    · exact ht.issued d h
  · intro r hr d hd heq
    rw [hrows] at hr
    rcases poll_executed hd with h | h
    · exact ht.current r hr d h heq
    · exact ht.unique h hr heq

theorem ack_rows (now : Int) (acks : List (Delivery × Bool)) :
    (s.step (.ack now acks)).rows = s.rows := by
  simp [Queue.rows, Queue.step, ackCommands, Function.comp_def, ackCommand_delivery]

theorem Tracked.ack (ht : Tracked s) (acks : List (Delivery × Bool)) :
    Tracked (s.step (.ack now acks)) := by
  have hrows := ack_rows (s := s) now acks
  exact ⟨hrows ▸ ht.tags, hrows ▸ ht.issued, ht.known, hrows ▸ ht.rules, hrows ▸ ht.current⟩

theorem Tracked.step {e : Event} (ht : Tracked s) (hk : s.KeepsUpdates e) : Tracked (s.step e) := by
  cases e with
  | queue now id router request => exact ht.queue hk
  | poll now router limit lost => exact ht.poll limit lost
  | ack now acks => exact ht.ack acks

-- ---------------------------------------------------------------------------
-- Updates
-- ---------------------------------------------------------------------------

theorem lastOf_append (rule : String × String) (record : List Delivery) (d : Delivery) :
    lastOf rule (record ++ [d]) = if d.rule = rule then some d else lastOf rule record := by
  by_cases h : d.rule = rule <;> simp [lastOf, List.filter_append, h]

/-- What was queued last for a rule stands in an unfinished row or has been run. -/
def Owed (s : Queue) : Prop := ∀ rule o, lastOf rule s.ordered = some o →
  (∃ c ∈ s.commands, c.unfinished = true ∧ c.delivery.rule = rule ∧ c.request = o.request) ∨
    ∃ d ∈ s.executed, d.rule = rule ∧ d.request = o.request

theorem Owed.queue (ho : Owed s) (hk : s.KeepsUpdates (.queue now id router request)) :
    Owed (s.step (.queue now id router request)) := by
  obtain ⟨hunfinished, -, -⟩ := hk
  intro rule o hlast
  -- an unfinished row of another rule is kept, and is not the one rewritten
  have hkeep : ∀ c ∈ s.commands, c.unfinished = true → c ∈ keptCommands now s.commands := by
    intro c hc hu
    have : c ∈ (keptCommands now s.commands).filter Command.unfinished := by
      rw [hunfinished]
      exact List.mem_filter.mpr ⟨hc, hu⟩
    exact (List.mem_filter.mp this).1
  rcases queueCommand_cases now id router request s.commands with
    ⟨pre, c, post, hkept, hc, -, hq⟩ | ⟨-, hq⟩
  · have hrule := (coalesces_rule hc).2
    simp only [Queue.step, hq, lastOf_append] at hlast ⊢
    split at hlast
    · rename_i hmine
      cases hlast
      exact .inl ⟨{ c with request := request, status := .pending }, by simp, rfl, hmine, rfl⟩
    · rename_i hother
      refine (ho rule o hlast).imp_left ?_
      rintro ⟨c', hc', hu, hr, hreq⟩
      have hmem := hkeep c' hc' hu
      rw [hkept, List.mem_append, List.mem_cons] at hmem
      have hne : c' ≠ c := by
        rintro rfl
        refine hother (Eq.trans ?_ hr)
        exact Prod.ext rfl (congrArg Prod.snd hrule).symm
      refine ⟨c', ?_, hu, hr, hreq⟩
      simp only [List.mem_append, List.mem_cons]
      rcases hmem with h | h | h
      · exact .inl h
      · exact absurd h hne
      · exact .inr (.inr h)
  · simp only [Queue.step, hq, lastOf_append] at hlast ⊢
    split at hlast
    · rename_i hmine
      cases hlast
      exact .inl ⟨{ id := id, router := router, request := request }, by simp, rfl, hmine, rfl⟩
    · refine (ho rule o hlast).imp_left ?_
      rintro ⟨c', hc', hu, hr, hreq⟩
      exact ⟨c', List.mem_append_left _ (hkeep c' hc' hu), hu, hr, hreq⟩

theorem Owed.poll (ho : Owed s) (limit : Int) (lost : Bool) :
    Owed (s.step (.poll now router limit lost)) := by
  intro rule o hlast
  rcases ho rule o hlast with ⟨c, hc, hu, hr, hreq⟩ | ⟨d, hd, h⟩
  · left
    have hmem : (c.unfinished, c.delivery) ∈
        (pollCommands now router limit s.commands).2.map fun c => (c.unfinished, c.delivery) := by
      rw [pollCommands_map]
      exact List.mem_map_of_mem hc
    obtain ⟨c', hc', heq⟩ := List.mem_map.mp hmem
    obtain ⟨hu', hd'⟩ := Prod.mk.inj heq
    refine ⟨c', hc', hu' ▸ hu, hd' ▸ hr, ?_⟩
    exact (congrArg Delivery.request hd').trans hreq
  · refine .inr ⟨d, ?_, h⟩
    simp only [Queue.step]
    split
    · exact hd
    · exact List.mem_append_left _ hd

theorem Tracked.acked (ht : Tracked s) {acks : List (Delivery × Bool)} {ack : Delivery × Bool}
    {c : Command} (hc : c ∈ s.commands) (h : decidingAck (s.sendable acks) c = some ack) :
    ack.1 ∈ s.executed ∧ ack.1 = c.delivery := by
  have hmem := List.mem_of_getLast? h
  obtain ⟨hsent, htag⟩ := List.mem_filter.mp hmem
  have hrun : ack.1 ∈ s.executed := by simpa using (List.mem_filter.mp hsent).2
  have htag : ack.1.tag = c.delivery.tag := eq_of_beq htag
  exact ⟨hrun, ht.current _ (List.mem_map_of_mem hc) _ hrun htag⟩

theorem ackCommand_eq (now : Int) (acks : List (Delivery × Bool)) (c : Command) :
    ackCommand now (s.ackEntries acks) c = match decidingAck (s.sendable acks) c with
      | some ack => { c with status := if ack.2 then .done else .failed, finishedEpoch := some now }
      | none => c := by
  have h : Dict.get? (ackMap (s.ackEntries acks)) (tag c.id) =
      (decidingAck (s.sendable acks) c).map Prod.snd := by
    rw [get?_ackMap, Queue.ackEntries, List.filter_map, List.getLast?_map, Option.map_map]
    rfl
  rw [ackCommand, h]
  cases decidingAck (s.sendable acks) c <;> rfl

theorem Owed.ack (ho : Owed s) (ht : Tracked s) (acks : List (Delivery × Bool)) :
    Owed (s.step (.ack now acks)) := by
  intro rule o hlast
  rcases ho rule o hlast with ⟨c, hc, hu, hr, hreq⟩ | h
  · cases hack : decidingAck (s.sendable acks) c with
    | some ack =>
      obtain ⟨hrun, heq⟩ := ht.acked hc hack
      exact .inr ⟨ack.1, hrun, heq ▸ hr, heq ▸ hreq⟩
    | none =>
      refine .inl ⟨c, ?_, hu, hr, hreq⟩
      have hsame : ackCommand now (s.ackEntries acks) c = c := by rw [ackCommand_eq, hack]
      exact hsame ▸ List.mem_map_of_mem hc
  · exact .inr h

theorem marksCurrent (ht : Tracked s) (e : Event) : s.MarksCurrent e := by
  cases e with
  | ack now acks =>
    intro c hc hne hdone
    rw [ackCommand_eq] at hdone
    cases hack : decidingAck (s.sendable acks) c with
    | some ack =>
      obtain ⟨hrun, heq⟩ := ht.acked hc hack
      obtain ⟨d, ok⟩ := ack
      rw [hack] at hdone
      cases ok with
      | true => exact ⟨d, rfl, hrun, congrArg Delivery.request heq⟩
      | false => simp at hdone
    | none =>
      rw [hack] at hdone
      exact absurd hdone hne
  | _ => trivial

theorem Owed.delivered (ho : Owed s) : s.UpdatesDelivered := by
  intro rule hfinished o hlast
  rcases ho rule o hlast with ⟨c, hc, hu, hr, -⟩ | h
  · simp [hfinished c hc hr] at hu
  · exact h

theorem Owed.step {e : Event} (ho : Owed s) (ht : Tracked s) (hk : s.KeepsUpdates e) :
    Owed (s.step e) := by
  cases e with
  | queue now id router request => exact ho.queue hk
  | poll now router limit lost => exact ho.poll limit lost
  | ack now acks => exact ho.ack ht acks

/-- In the runs that queue with care, commands are marked done by what the
agent ran of them, and no update is lost. -/
theorem queue_keeps_updates (es : List Event) (hk : Along Queue.step Queue.KeepsUpdates {} es) :
    Along Queue.step (fun s e => s.MarksCurrent e ∧ (s.step e).UpdatesDelivered) {} es := by
  have hstart : Tracked {} ∧ Owed {} := ⟨.start, fun rule o h => by simp [lastOf] at h⟩
  refine hk.mono (I := fun s => Tracked s ∧ Owed s) hstart ?_ ?_
  · rintro s e ⟨ht, ho⟩ hk
    exact ⟨ht.step hk, ho.step ht hk⟩
  · rintro s e ⟨ht, ho⟩ hk
    exact ⟨marksCurrent ht e, (ho.step ht hk).delivered⟩

end

section
local instance : Unicode := .ascii

def webRule (port : Int) : Request := ⟨.upsert, [("rule", .dict [("id", .str "web"), ("port", .int port)])]⟩

def webOrder (now : Int) (id : String) (port : Int) : Event := .queue now id "router" (webRule port)

def webPoll (now : Int) : Event := .poll now "router" 20 false

def webAck (now : Int) (id : String) (port : Int) : Event :=
  .ack now [(⟨id, "router", webRule port⟩, true)]

/-- The second request waits for the acknowledgement of the first. -/
theorem queue_keeps_web :
    Along Queue.step (fun s e => s.MarksCurrent e ∧ (s.step e).UpdatesDelivered) {}
      [webOrder 0 "cmd-1" 80, webPoll 1, webAck 2 "cmd-1" 80, webOrder 3 "cmd-2" 81, webPoll 4,
        webAck 5 "cmd-2" 81] :=
  queue_keeps_updates _ (by decide)

/-- The second request arrives between the delivery of the first and its
acknowledgement, which marks it done without delivering it. -/
theorem queue_loses_web :
    ¬ Along Queue.step (fun s e => s.MarksCurrent e ∧ (s.step e).UpdatesDelivered) {}
      [webOrder 0 "cmd-1" 80, webPoll 1, webOrder 2 "cmd-2" 81, webAck 3 "cmd-1" 80] := by
  rintro ⟨-, -, -, ⟨-, hdelivered⟩, -⟩
  obtain ⟨d, hd, -, hrequest⟩ := hdelivered ("router", "web") (by decide)
    ⟨"cmd-1", "router", webRule 81⟩ (by decide)
  obtain rfl : d = ⟨"cmd-1", "router", webRule 80⟩ := List.mem_singleton.mp hd
  exact absurd hrequest (by decide)

end

end LabProbe.PortMap
