import LabProbe.PortMap.Updates

/-!
# When commands run in the order queued

A rewritten row stays at its place in the table, before the commands of
other actions queued behind it, and a retry can run a command again after
one that follows it. The order of a rule holds in the runs that rewrite only
its last unfinished row, not run since another one, and send no command of
the rule without the last one once that has been run.
-/

namespace LabProbe.PortMap

open Py Py.Json Hub Runs

section
variable [Unicode]

-- ---------------------------------------------------------------------------
-- The property and the condition
-- ---------------------------------------------------------------------------

/-- Where the commands of a rule are finished, the agent ran the one queued
last as its last; once that has been run, no other runs after it. -/
def Queue.RunsLast (s : Queue) : Prop := ∀ rule o, lastOf rule s.ordered = some o →
  ((∀ c ∈ s.commands, c.delivery.rule = rule → c.unfinished = false) ∨ o ∈ s.executed) →
    lastOf rule s.executed = some o

def liveRows (rule : String × String) (commands : List Command) : List Delivery :=
  ((commands.filter Command.unfinished).map Command.delivery).filter fun d => d.rule == rule

def Queue.live (s : Queue) (rule : String × String) : List Delivery := liveRows rule s.commands

omit [Unicode] in
def dueRows (now : Int) (router : String) (limit : Int) (commands : List Command) :
    List Delivery :=
  ((commands.filter (isDue now router)).take (pollLimit limit)).map Command.delivery

/-- Queueing keeps updates, and rewrites only the last unfinished row of its
rule, after which the agent has run none. A poll takes no row of a rule
without the one queued last, once the agent has run that one. -/
def Queue.KeepsOrder (s : Queue) : Event → Prop
  | .queue now id router request =>
    s.KeepsUpdates (.queue now id router request) ∧
      ∀ c ∈ rewritten now router request s.commands,
        (s.live (router, request.ruleId)).getLast? = some c.delivery ∧
          (c.delivery ∈ s.executed →
            lastOf (router, request.ruleId) s.executed = some c.delivery)
  | .poll now router limit lost => lost = true ∨
    ∀ d ∈ dueRows now router limit s.commands, ∀ o ∈ lastOf d.rule s.ordered,
      o ∈ s.executed → o ∈ dueRows now router limit s.commands
  | .ack .. => True

instance : (s : Queue) → (e : Event) → Decidable (s.KeepsOrder e)
  | s, .queue now id router request => inferInstanceAs (Decidable
      (s.KeepsUpdates (.queue now id router request) ∧
        ∀ c ∈ rewritten now router request s.commands,
          (s.live (router, request.ruleId)).getLast? = some c.delivery ∧
            (c.delivery ∈ s.executed →
              lastOf (router, request.ruleId) s.executed = some c.delivery)))
  | s, .poll now router limit lost => inferInstanceAs (Decidable (lost = true ∨
      ∀ d ∈ dueRows now router limit s.commands, ∀ o ∈ lastOf d.rule s.ordered,
        o ∈ s.executed → o ∈ dueRows now router limit s.commands))
  | _, .ack .. => .isTrue trivial

-- ---------------------------------------------------------------------------
-- Unfinished rows
-- ---------------------------------------------------------------------------

variable {s : Queue} {now : Int} {id router : String} {request : Request}
  {rule : String × String}

theorem liveRows_append (rule : String × String) (commands commands' : List Command) :
    liveRows rule (commands ++ commands') = liveRows rule commands ++ liveRows rule commands' := by
  simp [liveRows]

theorem liveRows_mine {c : Command} (hu : c.unfinished = true) (hr : c.delivery.rule = rule)
    (commands : List Command) :
    liveRows rule (c :: commands) = c.delivery :: liveRows rule commands := by
  simp [liveRows, hu, hr]

theorem liveRows_other {c : Command} (hr : c.delivery.rule ≠ rule) (commands : List Command) :
    liveRows rule (c :: commands) = liveRows rule commands := by
  by_cases hu : c.unfinished = true <;> simp [liveRows, hu, hr]

theorem live_sublist (s : Queue) (rule : String × String) : (s.live rule).Sublist s.rows :=
  List.filter_sublist.trans (List.filter_sublist.map _)

theorem mem_live {c : Command} (hc : c ∈ s.commands) (hu : c.unfinished = true) :
    c.delivery ∈ s.live c.delivery.rule :=
  List.mem_filter.mpr ⟨List.mem_map_of_mem (List.mem_filter.mpr ⟨hc, hu⟩), beq_self_eq_true _⟩

theorem live_nodup (ht : Tracked s) (rule : String × String) : (s.live rule).Nodup :=
  (List.Nodup.of_map _ ht.tags).sublist (live_sublist s rule)

theorem live_eq (hk : s.KeepsUpdates (.queue now id router request)) (rule : String × String) :
    s.live rule = liveRows rule (keptCommands now s.commands) := by
  rw [Queue.live, liveRows, ← hk.1, liveRows]

theorem poll_live (now : Int) (router : String) (limit : Int) (lost : Bool) :
    (s.step (.poll now router limit lost)).live rule = s.live rule := by
  have h := congrArg (List.filterMap fun r : Bool × Delivery => if r.1 then some r.2 else none)
    (pollCommands_map now router limit s.commands)
  have hlive : ∀ commands : List Command,
      (commands.map fun c => (c.unfinished, c.delivery)).filterMap
          (fun r : Bool × Delivery => if r.1 then some r.2 else none) =
        (commands.filter Command.unfinished).map Command.delivery := by
    intro commands
    induction commands with
    | nil => rfl
    | cons c commands ih => by_cases hc : c.unfinished = true <;> simp [hc, ih]
  rw [hlive, hlive] at h
  exact congrArg (List.filter fun d => d.rule == rule) h

theorem ackCommand_unfinished (acks : List (String × Bool)) (c : Command) :
    (ackCommand now acks c).unfinished = true → ackCommand now acks c = c := by
  unfold ackCommand
  split
  · rename_i ok _
    cases ok <;> exact fun h => (nomatch h)
  · exact fun _ => rfl

theorem ack_live (now : Int) (acks : List (Delivery × Bool)) (rule : String × String) :
    ((s.step (.ack now acks)).live rule).Sublist (s.live rule) := by
  refine List.Sublist.filter _ (?_ : List.Sublist _ _)
  change (((s.commands.map (ackCommand now (s.ackEntries acks))).filter _).map _).Sublist _
  induction s.commands with
  | nil => exact List.Sublist.slnil
  | cons c commands ih =>
    rw [List.map_cons, List.filter_cons]
    split
    · rename_i hu
      have hsame := ackCommand_unfinished _ c hu
      rw [hsame] at hu ⊢
      rw [List.filter_cons_of_pos hu]
      exact ih.cons_cons _
    · exact ih.trans ((List.sublist_cons_self _ _).filter _ |>.map _)

theorem sent_live (now : Int) (router : String) (limit : Int) (rule : String × String) :
    (((pollCommands now router limit s.commands).1.map Command.delivery).filter
      fun d => d.rule == rule).Sublist (s.live rule) := by
  rw [← poll_live now router limit true]
  refine List.Sublist.filter _ (List.Sublist.map _ ?_)
  have hsent : (pollCommands now router limit s.commands).1.filter Command.unfinished =
      (pollCommands now router limit s.commands).1 :=
    List.filter_eq_self.mpr fun c hc => sent_unfinished hc
  rw [← hsent]
  exact (Rows.send_sublist _ _).filter _

omit [Unicode] in
theorem sent_dueRows (now : Int) (router : String) (limit : Int) (commands : List Command) :
    (pollCommands now router limit commands).1.map Command.delivery =
      dueRows now router limit commands := by
  rw [pollCommands, Rows.sent_eq, List.map_map]
  rfl

-- ---------------------------------------------------------------------------
-- Order
-- ---------------------------------------------------------------------------

/-- What was queued last for a rule stands last in the table or was run
last; no other runs after it. -/
def Placed (s : Queue) : Prop := ∀ rule o, lastOf rule s.ordered = some o →
  (o ∈ s.live rule → (s.live rule).getLast? = some o) ∧
    (o ∉ s.live rule → lastOf rule s.executed = some o) ∧
      (o ∈ s.executed → lastOf rule s.executed = some o)

theorem queueCommand_rule (now : Int) (id router : String) (request : Request)
    (commands : List Command) :
    (queueCommand now id router request commands).1.delivery.rule = (router, request.ruleId) := by
  rcases queueCommand_cases now id router request commands with
    ⟨pre, c, post, -, hc, -, hq⟩ | ⟨-, hq⟩
  · rw [hq]
    exact Prod.ext (congrArg Prod.fst (coalesces_rule hc).2 : c.router = router) rfl
  · rw [hq]
    rfl

theorem queue_live_other (hk : s.KeepsUpdates (.queue now id router request))
    (hother : (router, request.ruleId) ≠ rule) :
    (s.step (.queue now id router request)).live rule = s.live rule := by
  have hnew := queueCommand_rule now id router request s.commands
  rw [live_eq hk rule, Queue.live]
  rcases queueCommand_cases now id router request s.commands with
    ⟨pre, c, post, hkept, hc, -, hq⟩ | ⟨-, hq⟩
  · obtain ⟨-, hrule⟩ := coalesces_rule hc
    rw [hq] at hnew
    simp only [Queue.step, hq, hkept, liveRows_append]
    rw [liveRows_other (hnew ▸ hother), liveRows_other (hrule ▸ hother)]
  · rw [hq] at hnew
    simp only [Queue.step, hq, liveRows_append]
    rw [liveRows_other (hnew ▸ hother)]
    exact List.append_nil _

theorem queue_live_mine (ht : Tracked s) (hk : s.KeepsOrder (.queue now id router request)) :
    ((s.step (.queue now id router request)).live (router, request.ruleId)).getLast? =
      some (queueCommand now id router request s.commands).1.delivery := by
  obtain ⟨hk, horder⟩ := hk
  have hnew := queueCommand_rule now id router request s.commands
  rw [Queue.live]
  rcases queueCommand_cases now id router request s.commands with
    ⟨pre, c, post, hkept, hc, hre, hq⟩ | ⟨-, hq⟩
  · obtain ⟨hunfinished, hrule⟩ := coalesces_rule hc
    rw [hq] at hnew
    -- the row is the last unfinished one of the rule, so none follows it
    have hend := (horder c hre).1
    have hnodup := live_nodup ht (router, request.ruleId)
    rw [live_eq hk, hkept, liveRows_append, liveRows_mine hunfinished hrule] at hend hnodup
    have hpost := Rows.eq_nil_of_getLast? hnodup hend
    simp only [Queue.step, hq, liveRows_append]
    rw [liveRows_mine rfl hnew, hpost, List.getLast?_concat]
  · rw [hq] at hnew
    simp only [Queue.step, hq, liveRows_append]
    rw [liveRows_mine rfl hnew]
    exact List.getLast?_concat

theorem queue_executed (ht : Tracked s) (hk : s.KeepsOrder (.queue now id router request))
    (hrun : (queueCommand now id router request s.commands).1.delivery ∈ s.executed) :
    lastOf (router, request.ruleId) s.executed =
      some (queueCommand now id router request s.commands).1.delivery := by
  obtain ⟨⟨-, -, hfresh⟩, horder⟩ := hk
  rcases queueCommand_cases now id router request s.commands with
    ⟨pre, c, post, hkept, hc, hre, hq⟩ | ⟨hre, hq⟩
  · rw [hq] at hrun ⊢
    have hrow : c.delivery ∈ s.rows := kept_rows now (by simp [hkept])
    have hsame := ht.current _ hrow _ hrun rfl
    rw [hsame] at hrun ⊢
    exact (horder c hre).2 hrun
  · rw [hq] at hrun
    obtain ⟨o, ho, heq⟩ := ht.known _ hrun
    exact absurd heq (hfresh hre o ho)

theorem Placed.queue (hp : Placed s) (ht : Tracked s)
    (hk : s.KeepsOrder (.queue now id router request)) :
    Placed (s.step (.queue now id router request)) := by
  intro rule o hlast
  have hrule := queueCommand_rule now id router request s.commands
  have hexecuted : (s.step (.queue now id router request)).executed = s.executed := by
    simp only [Queue.step]
  simp only [Queue.step, lastOf_append, hrule] at hlast
  rw [hexecuted]
  by_cases hmine : (router, request.ruleId) = rule
  · rw [if_pos hmine] at hlast
    have hend := queue_live_mine ht hk
    have hrun := queue_executed ht hk
    rw [hmine, Option.some.inj hlast] at hend
    rw [hmine, Option.some.inj hlast] at hrun
    exact ⟨fun _ => hend, fun hout => absurd (List.mem_of_getLast? hend) hout, hrun⟩
  · rw [if_neg hmine] at hlast
    rw [queue_live_other hk.1 hmine]
    exact hp rule o hlast

theorem lastOf_sent (rule : String × String) (record sent : List Delivery) :
    lastOf rule (record ++ sent) =
      if ∃ d ∈ sent, d.rule = rule then lastOf rule sent else lastOf rule record := by
  rw [lastOf, List.filter_append]
  split
  · rename_i hsome
    obtain ⟨d, hd, hr⟩ := hsome
    have hmem : d ∈ sent.filter fun d => d.rule == rule := List.mem_filter.mpr ⟨hd, by simpa using hr⟩
    rw [List.getLast?_append_of_ne_nil _ (List.ne_nil_of_mem hmem), lastOf]
  · rename_i hnone
    have hnil : (sent.filter fun d => d.rule == rule) = [] := by
      simpa [List.filter_eq_nil_iff] using hnone
    rw [hnil, List.append_nil, lastOf]

theorem Placed.poll (hp : Placed s) (ht : Tracked s) {limit : Int} {lost : Bool}
    (hk : s.KeepsOrder (.poll now router limit lost)) :
    Placed (s.step (.poll now router limit lost)) := by
  intro rule o hlast
  obtain ⟨hlive, hout, hrun⟩ := hp rule o hlast
  rw [poll_live]
  cases lost with
  | true => exact ⟨hlive, hout, hrun⟩
  | false =>
    have hsent := sent_live (s := s) now router limit rule
    rw [sent_dueRows] at hsent
    have hmine : ∀ d ∈ dueRows now router limit s.commands, d.rule = rule → d ∈ s.live rule :=
      fun d hd hr => hsent.subset (List.mem_filter.mpr ⟨hd, by simpa using hr⟩)
    have horder : o.rule = rule := by
      simpa using (List.mem_filter.mp (List.mem_of_getLast? hlast)).2
    -- where the last request is sent, it is the last of its rule that is
    have hends : o ∈ dueRows now router limit s.commands →
        lastOf rule (dueRows now router limit s.commands) = some o := fun ho =>
      Rows.getLast?_of_sublist hsent (live_nodup ht rule) (hlive (hmine o ho horder))
        (List.mem_filter.mpr ⟨ho, by simpa using horder⟩)
    have hstep : (s.step (.poll now router limit false)).executed =
        s.executed ++ dueRows now router limit s.commands := by
      simp [Queue.step, sent_dueRows]
    rw [hstep, lastOf_sent]
    simp only [Queue.KeepsOrder, Bool.false_eq_true, false_or] at hk
    have hafter : (∃ d ∈ dueRows now router limit s.commands, d.rule = rule) →
        o ∈ s.executed → o ∈ dueRows now router limit s.commands := by
      rintro ⟨d, hd, rfl⟩ ho
      exact hk d hd o hlast ho
    refine ⟨hlive, ?_, ?_⟩
    · intro hgone
      have hran := hout hgone
      split
      · rename_i hsome
        have ho := hafter hsome (List.mem_filter.mp (List.mem_of_getLast? hran)).1
        exact absurd (hmine o ho horder) hgone
      · exact hran
    · intro ho
      split
      · rename_i hsome
        exact hends ((List.mem_append.mp ho).elim (hafter hsome) id)
      · rename_i hnone
        rcases List.mem_append.mp ho with ho | ho
        · exact hrun ho
        · exact absurd ⟨o, ho, horder⟩ hnone

theorem Placed.ack (hp : Placed s) (ht : Tracked s) (acks : List (Delivery × Bool)) :
    Placed (s.step (.ack now acks)) := by
  intro rule o hlast
  obtain ⟨hlive, hout, hrun⟩ := hp rule o hlast
  have hsub := ack_live (s := s) now acks rule
  refine ⟨?_, ?_, hrun⟩
  · intro ho
    exact Rows.getLast?_of_sublist hsub (live_nodup ht rule) (hlive (hsub.subset ho)) ho
  · intro hgone
    by_cases ho : o ∈ s.live rule
    · -- the row was unfinished: an acknowledgement decided it, so it has been run
      obtain ⟨hrow, hr⟩ := List.mem_filter.mp ho
      obtain ⟨c, hc, rfl⟩ := List.mem_map.mp hrow
      obtain ⟨hc, hu⟩ := List.mem_filter.mp hc
      cases hack : decidingAck (s.sendable acks) c with
      | some ack =>
        obtain ⟨hran, heq⟩ := ht.acked hc hack
        exact hrun (heq ▸ hran)
      | none =>
        have hsame : ackCommand now (s.ackEntries acks) c = c := by rw [ackCommand_eq, hack]
        have hstill : c ∈ (s.step (.ack now acks)).commands :=
          hsame ▸ List.mem_map_of_mem (f := ackCommand now (s.ackEntries acks)) hc
        exact absurd ((by simpa using hr : c.delivery.rule = rule) ▸ mem_live hstill hu) hgone
    · exact hout ho

theorem Placed.step {e : Event} (hp : Placed s) (ht : Tracked s) (hk : s.KeepsOrder e) :
    Placed (s.step e) := by
  cases e with
  | queue now id router request => exact hp.queue ht hk
  | poll now router limit lost => exact hp.poll ht hk
  | ack now acks => exact hp.ack ht acks

theorem KeepsOrder.keepsUpdates {e : Event} (hk : s.KeepsOrder e) : s.KeepsUpdates e := by
  cases e with
  | queue now id router request => exact hk.1
  | _ => trivial

theorem Placed.runsLast (hp : Placed s) : s.RunsLast := by
  rintro rule o hlast (hfinished | hran)
  · refine (hp rule o hlast).2.1 fun ho => ?_
    obtain ⟨hrow, hr⟩ := List.mem_filter.mp ho
    obtain ⟨c, hc, rfl⟩ := List.mem_map.mp hrow
    obtain ⟨hc, hu⟩ := List.mem_filter.mp hc
    simp [hfinished c hc (by simpa using hr)] at hu
  · exact (hp rule o hlast).2.2 hran

/-- In the runs that queue and send in order, the commands of a rule end
with the one queued last. -/
theorem queue_keeps_order (es : List Event) (hk : Along Queue.step Queue.KeepsOrder {} es) :
    Along Queue.step (fun s e => (s.step e).RunsLast) {} es := by
  have hstart : Tracked {} ∧ Placed {} := ⟨.start, fun rule o h => by simp [lastOf] at h⟩
  refine hk.mono (I := fun s => Tracked s ∧ Placed s) hstart ?_ ?_
  · rintro s e ⟨ht, hp⟩ hk
    exact ⟨ht.step (KeepsOrder.keepsUpdates hk), hp.step ht hk⟩
  · rintro s e ⟨ht, hp⟩ hk
    exact (hp.step ht hk).runsLast

end

section
local instance : Unicode := .ascii

def webStop : Request := ⟨.stop, [("id", .str "web")]⟩

def webStopAck (now : Int) (id : String) : Event := .ack now [(⟨id, "router", webStop⟩, true)]

/-- The second request is queued after the first has been acknowledged. -/
theorem queue_keeps_web_order :
    Along Queue.step (fun s e => (s.step e).RunsLast) {}
      [webOrder 0 "cmd-1" 80, .queue 1 "cmd-2" "router" webStop, webPoll 2, webAck 3 "cmd-1" 80,
        webOrder 4 "cmd-3" 81, webPoll 20, webStopAck 21 "cmd-2", webAck 22 "cmd-3" 81] :=
  queue_keeps_order _ (by decide)

/-- The second request takes the row of the first, before the stop queued
between them. -/
theorem queue_reorders_web :
    ¬ Along Queue.step (fun s e => (s.step e).RunsLast) {}
      [webOrder 0 "cmd-1" 80, .queue 1 "cmd-2" "router" webStop, webOrder 2 "cmd-3" 81, webPoll 3,
        webAck 4 "cmd-1" 81, webStopAck 5 "cmd-2"] := by
  rintro ⟨-, -, -, -, -, hlast, -⟩
  have hrun := hlast ("router", "web") ⟨"cmd-1", "router", webRule 81⟩ (by decide)
    (.inl (by decide))
  exact absurd hrun (by decide)

end

end LabProbe.PortMap
