import LabProbe.Agent.Delivery
import LabProbe.Lib.Latest

/-!
# Device events across restarts

The agent saves the devices and the queue of events once in a while, and starts
again from what it has saved: after the end of its process, or without its
file, which does not outlive the router. Events that were posted since the last
save are not known to it then.

The Hub receives the events of every life of the agent. `earlier` is what it
had received at the last save, and `since` what it has received since; what it
makes of them is whether each device is there.
-/

namespace LabProbe.Agent

open Py Py.Json Runs Outbox

structure Life where
  agent : AgentState := {}
  savedDevices : List (String × Json) := []
  savedEvents : List Entries := []
  earlier : List Entries := []
  since : List Entries := []

inductive LifeEvent where
  | look (clock : String → Nat) (new : List (String × Json))
  | flush (answers : Nat → List Answer)
  | save
  | restart (found : Bool)

def AgentState.waiting (s : AgentState) : List Entries := s.pendingEvents.pending.map Entry.body

def AgentState.posted (s : AgentState) (answers : Nat → List Answer) : List Entries :=
  s.pendingEvents.pending.flatMap fun e =>
    List.replicate (postJson (answers e.number)).received e.body

def Life.step (s : Life) : LifeEvent → Life
  | .look clock new => { s with agent := queueDeviceEvents clock new s.agent }
  | .flush answers =>
    { s with agent := flushDeviceEvents answers s.agent
             since := s.since ++ s.agent.posted answers }
  | .save =>
    { s with savedDevices := s.agent.devices, savedEvents := s.agent.waiting
             earlier := s.earlier ++ s.since, since := [] }
  | .restart found =>
    if found then { s with agent := .load s.savedDevices s.savedEvents }
    else { earlier := s.earlier ++ s.since }

/-- Once it has received what waits, the Hub has the devices of the agent. -/
def Life.Agrees (s : Life) : Prop :=
  (s.earlier ++ s.since ++ s.agent.waiting).foldl applyEvent ∅ = macs s.agent.devices

def announced (body : Entries) : Json × Bool := (mac body, get body "event" = .str "online")

def lastEvent (m : String) (bodies : List Entries) : Option Bool :=
  Latest.last (.str m) (bodies.map announced)

/-- A pass does not leave an event of a device in the queue behind which
another one has passed that says otherwise; a restart finds the devices as they
were last announced, or saved events that announce them. -/
def Life.Keeps (s : Life) : LifeEvent → Prop
  | .flush answers => ∀ m came, lastEvent m (flushDeviceEvents answers s.agent).waiting = some came →
      lastEvent m s.agent.waiting = some came
  | .restart true => ∀ m, lastEvent m s.savedEvents = none → ∀ came,
      lastEvent m s.since = some came → (came = true ↔ m ∈ macs s.savedDevices)
  | .restart false => ∀ m, lastEvent m (s.earlier ++ s.since) ≠ some true
  | _ => True

variable {s : Life} {m : String} {bodies : List Entries}

@[simp] theorem lastEvent_append (bodies' : List Entries) :
    lastEvent m (bodies ++ bodies') = (lastEvent m bodies').or (lastEvent m bodies) := by
  simp [lastEvent]

theorem mem_foldl_applyEvent (set : Finset String) :
    m ∈ bodies.foldl applyEvent set ↔ (lastEvent m bodies).getD (decide (m ∈ set)) = true := by
  induction bodies using List.reverseRecOn with
  | nil => simp [lastEvent]
  | append_singleton bodies body ih =>
    rw [List.foldl_append, List.foldl_cons, List.foldl_nil, lastEvent_append]
    have hbody : lastEvent m [body] =
        if mac body = .str m then some (get body "event" = .str "online" : Bool) else none :=
      Latest.last_singleton (announced body)
    rw [hbody]
    generalize bodies.foldl applyEvent set = there at ih ⊢
    unfold applyEvent
    cases hmac : mac body with
    | str m' =>
      by_cases hm : m' = m
      · subst hm
        by_cases hcame : get body "event" = .str "online" <;> simp [hcame]
      · have hne : m ≠ m' := Ne.symm hm
        by_cases hcame : get body "event" = .str "online" <;> simp [hcame, hm, hne, ih]
    | _ => simp [ih]

theorem agrees_iff_lastEvent :
    s.Agrees ↔ ∀ m, (lastEvent m (s.earlier ++ s.since ++ s.agent.waiting)).getD false =
    true ↔ m ∈ macs s.agent.devices := by
  rw [Life.Agrees, Finset.ext_iff]
  simp only [mem_foldl_applyEvent, Finset.notMem_empty, decide_false]

/-- The Hub would have the saved devices, had it received the saved events at the last save. -/
def Life.Saved (s : Life) : Prop :=
  (s.earlier ++ s.savedEvents).foldl applyEvent ∅ = macs s.savedDevices

theorem waiting_queue (clock : String → Nat) (new : List (String × Json)) (s : AgentState) :
    ∃ added, (queueDeviceEvents clock new s).waiting = s.waiting ++ added ∧
      added.foldl applyEvent (macs s.devices) = macs new := by
  refine ⟨_, ?_, foldl_events clock s.devices new⟩
  simp only [AgentState.waiting, queueDeviceEvents, Box.put, List.map_append, bodies_numbered,
    List.append_assoc]

theorem agrees_look (h : s.Agrees) (clock : String → Nat) (new : List (String × Json)) :
    (s.step (.look clock new)).Agrees := by
  obtain ⟨added, hwaiting, hadded⟩ := waiting_queue clock new s.agent
  have hagrees : (s.step (.look clock new)).Agrees ↔ (s.earlier ++ s.since ++
      (queueDeviceEvents clock new s.agent).waiting).foldl applyEvent ∅ = macs new := Iff.rfl
  rw [hagrees, hwaiting, ← List.append_assoc, List.foldl_append, h, hadded]

theorem lastEvent_isSome : (lastEvent m bodies).isSome ↔ ∃ body ∈ bodies, mac body = .str m := by
  rw [lastEvent, Latest.last_isSome]
  simp [Dict.keys, announced]

/-- What is posted of a device says at the end what its last event in the
queue says, unless one of its events stays there. -/
theorem lastEvent_posted (agent : AgentState) (answers : Nat → List Answer)
    (hnone : lastEvent m (flushDeviceEvents answers agent).waiting = none) :
    lastEvent m (agent.posted answers) = lastEvent m agent.waiting := by
  have hreceived : ∀ e ∈ agent.pendingEvents.pending, (announced e.body).1 = .str m →
      (postJson (answers e.number)).received ≠ 0 := fun e he hmac => by
    refine received_of_confirmed (by_contra fun hfailed => ?_)
    have hfailed : (postJson (answers e.number)).confirmed = false := Bool.eq_false_of_not_eq_true hfailed
    have hstays : e ∈ (flushDeviceEvents answers agent).pendingEvents.pending :=
      List.mem_filter.mpr ⟨he, congrArg Bool.not hfailed⟩
    have hsome : (lastEvent m (flushDeviceEvents answers agent).waiting).isSome :=
      lastEvent_isSome.mpr ⟨e.body, List.mem_map_of_mem hstays, hmac⟩
    rw [hnone] at hsome
    cases hsome
  have hposted := Latest.last_flatMap_replicate
    (fun e : Entry Entries => (postJson (answers e.number)).received) (announced ∘ Entry.body)
    hreceived
  simpa only [lastEvent, AgentState.posted, AgentState.waiting, List.map_flatMap,
    List.map_replicate, List.map_map, Function.comp_apply] using hposted

theorem agrees_flush_iff (h : s.Agrees) (answers : Nat → List Answer) :
    (s.step (.flush answers)).Agrees ↔ s.Keeps (.flush answers) := by
  rw [agrees_iff_lastEvent] at h ⊢
  refine forall_congr' fun m => ?_
  have hm := h m
  simp only [Life.step, lastEvent_append] at hm ⊢
  cases hleft : lastEvent m (flushDeviceEvents answers s.agent).waiting with
  | none =>
    rw [lastEvent_posted s.agent answers hleft]
    refine iff_of_true ?_ (fun _ hcame => by cases hcame)
    rw [Option.none_or, Option.or_assoc] at *
    exact hm
  | some came =>
    have hsome : (lastEvent m s.agent.waiting).isSome := by
      obtain ⟨body, hbody, hmac⟩ := lastEvent_isSome.mp (hleft ▸ rfl :
        (lastEvent m (flushDeviceEvents answers s.agent).waiting).isSome)
      obtain ⟨e, he, rfl⟩ := List.mem_map.mp hbody
      exact lastEvent_isSome.mpr ⟨e.body, List.mem_map_of_mem (List.mem_filter.mp he).1, hmac⟩
    obtain ⟨before, hbefore⟩ := Option.isSome_iff_exists.mp hsome
    rw [hbefore] at hm ⊢
    simp only [Option.some_or, Option.getD_some, Option.some.injEq, forall_eq'] at hm ⊢
    change (came = true ↔ m ∈ macs s.agent.devices) ↔ _
    rw [← hm]
    cases came <;> cases before <;> decide

theorem agrees_restart_iff (h : s.Saved) :
    (s.step (.restart true)).Agrees ↔ s.Keeps (.restart true) := by
  have hwaiting : (AgentState.load s.savedDevices s.savedEvents).waiting = s.savedEvents :=
    bodies_numbered 0 s.savedEvents
  have hagrees : (s.step (.restart true)).Agrees ↔ (s.earlier ++ s.since ++
      (AgentState.load s.savedDevices s.savedEvents).waiting).foldl applyEvent ∅ =
        macs s.savedDevices := Iff.rfl
  rw [hagrees, hwaiting, Finset.ext_iff]
  refine forall_congr' fun m => ?_
  rw [mem_foldl_applyEvent, decide_eq_false (Finset.notMem_empty m)]
  have hm : (lastEvent m (s.earlier ++ s.savedEvents)).getD false = true ↔
      m ∈ macs s.savedDevices := by
    rw [← h, mem_foldl_applyEvent]
    simp
  simp only [lastEvent_append] at hm ⊢
  cases hsaved : lastEvent m s.savedEvents with
  | some came =>
    rw [hsaved] at hm
    refine iff_of_true hm ?_
    intro hnone
    cases hnone
  | none =>
    rw [hsaved, Option.none_or] at hm
    cases hsince : lastEvent m s.since with
    | none => simpa using hm
    | some came => simp

theorem agrees_save (h : s.Agrees) : (s.step .save).Agrees := by
  have hagrees : (s.step .save).Agrees ↔
      (s.earlier ++ s.since ++ [] ++ s.agent.waiting).foldl applyEvent ∅ = macs s.agent.devices :=
    Iff.rfl
  rwa [hagrees, List.append_nil]

/-- An agent that finds nothing saved takes all devices for new ones. -/
theorem agrees_lost_iff : (s.step (.restart false)).Agrees ↔ s.Keeps (.restart false) := by
  rw [agrees_iff_lastEvent]
  refine forall_congr' fun m => ?_
  have hnone : m ∉ macs (s.step (.restart false)).agent.devices := by simp [Life.step, macs, Dict.keys]
  have hwaiting : (s.step (.restart false)).agent.waiting = [] := rfl
  have hreceived : (s.step (.restart false)).earlier ++ (s.step (.restart false)).since =
      s.earlier ++ s.since := List.append_nil _
  rw [hwaiting, hreceived, List.append_nil, iff_false_right hnone]
  cases lastEvent m (s.earlier ++ s.since) <;> simp

/-- Over every run of looks at the devices, passes over the queue, saves and
restarts, the Hub has or is about to have the devices of the agent exactly as
long as no pass and no restart loses what was announced last of a device. -/
theorem events_survive_iff (events : List LifeEvent) :
    Along Life.step (fun s e => (s.step e).Agrees) {} events ↔ Along Life.step Life.Keeps {} events := by
  have hiff : ∀ (s : Life) (e : LifeEvent), s.Agrees ∧ s.Saved → ((s.step e).Agrees ↔ s.Keeps e) := by
    intro s e ⟨hagrees, hsaved⟩
    cases e with
    | look clock new => exact iff_of_true (agrees_look hagrees clock new) trivial
    | flush answers => exact agrees_flush_iff hagrees answers
    | save => exact iff_of_true (agrees_save hagrees) trivial
    | restart found =>
      cases found with
      | true => exact agrees_restart_iff hsaved
      | false => exact agrees_lost_iff
  refine along_iff (I := fun s => s.Agrees ∧ s.Saved) ⟨rfl, rfl⟩ (fun s e h hkeeps => ?_) hiff
  have hagrees := (hiff s e h).mpr hkeeps
  refine ⟨hagrees, ?_⟩
  cases e with
  | look | flush => exact h.2
  | save => exact h.1
  | restart found =>
    cases found with
    | true => exact h.2
    | false =>
      have hnobody : (s.earlier ++ s.since ++ [] ++ []).foldl applyEvent ∅ = macs [] := hagrees
      rwa [List.append_nil] at hnobody

instance : Decidable s.Agrees :=
  inferInstanceAs (Decidable (_ = macs s.agent.devices))

-- The phone is announced, and the agent ends before it has saved.
example : ¬ (run Life.step {} [.look (fun _ => 0) phone, .flush fun _ => [.success],
    .restart true]).Agrees := by
  decide +kernel

end LabProbe.Agent
