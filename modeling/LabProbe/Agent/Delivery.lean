import LabProbe.Hub.Values
import LabProbe.Lib.Outbox
import LabProbe.Lib.Run
import Mathlib.Data.Finset.Dedup
import Mathlib.Data.Finset.Erase
import Mathlib.Data.Finset.SDiff
import Mathlib.Data.Finset.Lattice.Lemmas

/-!
# Device events on their way to the Hub

The agent compares the devices it sees with those it saw before, queues an
event for each that came or went, and posts the queue in passes. An event whose
post is not confirmed stays queued while the later ones are posted in the same
pass. What becomes of each attempt of a post is an argument; the log is left
out.
-/

namespace LabProbe.Agent

open Py Py.Json Runs Outbox

/-- The devices by their MAC address, and the queue of events with what the
Hub has received of it. -/
structure AgentState where
  devices : List (String × Json) := []
  pendingEvents : Box Entries := {}

def eventPayload (now : Nat) (event mac : String) (device : Json) : Entries :=
  let body := asDict device
  let body := Dict.set body "type" (.str "device_event")
  let body := Dict.set body "event" (.str event)
  let body := Dict.set body "ts" (.int now)
  let body := Dict.set body "mac" (.str mac)
  Dict.set body "device" device

def queueDeviceEvents (clock : String → Nat) (new : List (String × Json)) (s : AgentState) :
    AgentState :=
  let onlineEvents := (new.filter fun e => !(Dict.get? s.devices e.1).isSome).map fun e =>
    eventPayload (clock e.1) "online" e.1 e.2
  let offlineEvents := (s.devices.filter fun e => !(Dict.get? new e.1).isSome).map fun e =>
    eventPayload (clock e.1) "offline" e.1 e.2
  { devices := new, pendingEvents := (s.pendingEvents.put onlineEvents).put offlineEvents }

/-- What becomes of an attempt: the Hub does not receive it, it receives it and
the agent gets no success, or it answers with success. -/
inductive Answer where
  | lost | failed | success
  deriving DecidableEq

def attempts : List Answer → Post
  | [] => ⟨0, false⟩
  | .lost :: answers => attempts answers
  | .failed :: answers => ⟨(attempts answers).received + 1, (attempts answers).confirmed⟩
  | .success :: _ => ⟨1, true⟩

def postJson (answers : List Answer) : Post := attempts (answers.take 3)

def flushDeviceEvents (answers : Nat → List Answer) (s : AgentState) : AgentState :=
  { s with pendingEvents := s.pendingEvents.flush fun n => postJson (answers n) }

inductive Step where
  | queue (clock : String → Nat) (new : List (String × Json))
  | flush (answers : Nat → List Answer)

def step (s : AgentState) : Step → AgentState
  | .queue clock new => queueDeviceEvents clock new s
  | .flush answers => flushDeviceEvents answers s

/-- The state the agent starts with: the devices and the queue it has stored. -/
def AgentState.load (devices : List (String × Json)) (pending : List Entries) : AgentState :=
  { devices := devices, pendingEvents := ({} : Box Entries).put pending }

def mac (body : Entries) : Json := get body "mac"

def applyEvent (macs : Finset String) (body : Entries) : Finset String :=
  match mac body with
  | .str mac => if get body "event" = .str "online" then insert mac macs else macs.erase mac
  | _ => macs

/-- The MAC addresses of a set of devices. -/
def macs (devices : List (String × Json)) : Finset String := (Dict.keys devices).toFinset

/-- The Hub receives the events of a MAC address in order, and the events
queued since the start lead from the devices then to the devices now. -/
structure Delivered (devices : List (String × Json)) (pending : List Entries) (s : AgentState) :
    Prop where
  inOrder : s.pendingEvents.InOrder mac
  folds : ((s.pendingEvents.history.drop pending.length).map Entry.body).foldl applyEvent
    (macs devices) = macs s.devices

/-- A pass receives nothing behind an event of its MAC address that failed. -/
def Step.Held (s : AgentState) : Step → Prop
  | .queue _ _ => True
  | .flush answers => Outbox.Held mac (fun n => postJson (answers n)) s.pendingEvents.pending

instance (s : AgentState) (e : Step) : Decidable (e.Held s) := by
  unfold Step.Held
  exact match e with
  | .queue _ _ => .isTrue trivial
  | .flush _ => inferInstanceAs (Decidable (Outbox.Held _ _ _))

-- ---------------------------------------------------------------------------
-- Posts
-- ---------------------------------------------------------------------------

theorem received_of_confirmed {answers : List Answer} (h : (attempts answers).confirmed = true) :
    (attempts answers).received ≠ 0 := by
  induction answers with
  | nil => simp [attempts] at h
  | cons answer answers ih => cases answer <;> simp_all [attempts]

-- ---------------------------------------------------------------------------
-- Events and devices
-- ---------------------------------------------------------------------------

section

variable {devices : List (String × Json)} {pending : List Entries} {s : AgentState} {e : Step}

@[simp]
theorem mac_eventPayload (now : Nat) (event m : String) (device : Json) :
    mac (eventPayload now event m device) = .str m := by
  simp [mac, eventPayload, get_set]

@[simp]
theorem event_eventPayload (now : Nat) (event m : String) (device : Json) :
    get (eventPayload now event m device) "event" = .str event := by
  simp [eventPayload, get_set]

theorem foldl_online (clock : String → Nat) (came : List (String × Json)) (set : Finset String) :
    (came.map fun e => eventPayload (clock e.1) "online" e.1 e.2).foldl applyEvent set =
      set ∪ macs came := by
  induction came generalizing set with
  | nil => simp [macs, Dict.keys]
  | cons e came ih =>
    rw [List.map_cons, List.foldl_cons, ih]
    ext m
    simp [applyEvent, macs, Dict.keys]

theorem foldl_offline (clock : String → Nat) (gone : List (String × Json)) (set : Finset String) :
    (gone.map fun e => eventPayload (clock e.1) "offline" e.1 e.2).foldl applyEvent set =
      set \ macs gone := by
  induction gone generalizing set with
  | nil => simp [macs, Dict.keys]
  | cons e gone ih =>
    rw [List.map_cons, List.foldl_cons, ih]
    ext m
    simp [applyEvent, macs, Dict.keys]
    tauto

theorem foldl_events (clock : String → Nat) (old new : List (String × Json)) :
    (((new.filter fun e => !(Dict.get? old e.1).isSome).map fun e =>
          eventPayload (clock e.1) "online" e.1 e.2) ++
        (old.filter fun e => !(Dict.get? new e.1).isSome).map fun e =>
          eventPayload (clock e.1) "offline" e.1 e.2).foldl applyEvent (macs old) = macs new := by
  have hkeys : ∀ (a b : List (String × Json)) (m : String),
      m ∈ macs (a.filter fun e => !(Dict.get? b e.1).isSome) ↔ m ∈ macs a ∧ m ∉ macs b := by
    intro a b m
    simp only [macs, List.mem_toFinset, Dict.keys, List.mem_map, List.mem_filter,
      Bool.not_eq_true', Bool.eq_false_iff, ne_eq, Dict.get?_isSome]
    constructor
    · rintro ⟨e, ⟨he, hnot⟩, rfl⟩
      exact ⟨⟨e, he, rfl⟩, by simpa [Dict.keys] using hnot⟩
    · rintro ⟨⟨e, he, rfl⟩, hnot⟩
      exact ⟨e, ⟨he, by simpa [Dict.keys] using hnot⟩, rfl⟩
  rw [List.foldl_append, foldl_online, foldl_offline]
  ext m
  rw [Finset.mem_sdiff, Finset.mem_union, hkeys, hkeys]
  tauto

-- ---------------------------------------------------------------------------
-- Runs
-- ---------------------------------------------------------------------------

theorem history_queue (clock : String → Nat) (new : List (String × Json)) (s : AgentState) :
    ∃ added, (queueDeviceEvents clock new s).pendingEvents.history =
        s.pendingEvents.history ++ added ∧
      (added.map Entry.body).foldl applyEvent (macs s.devices) = macs new := by
  refine ⟨_, List.append_assoc _ _ _, ?_⟩
  rw [List.map_append, bodies_numbered, bodies_numbered]
  exact foldl_events clock s.devices new

/-- The events queued since the start lead to the devices now. -/
structure Follows (devices : List (String × Json)) (pending : List Entries) (s : AgentState) :
    Prop where
  started : pending.length ≤ s.pendingEvents.history.length
  folds : ((s.pendingEvents.history.drop pending.length).map Entry.body).foldl applyEvent
    (macs devices) = macs s.devices

theorem follows_load : Follows devices pending (AgentState.load devices pending) := by
  have hhistory : (AgentState.load devices pending).pendingEvents.history = numbered 0 pending := rfl
  refine ⟨?_, ?_⟩
  · rw [hhistory, length_numbered]
  · rw [hhistory, List.drop_of_length_le (length_numbered 0 pending).le]
    rfl

theorem follows_step (h : Follows devices pending s) : Follows devices pending (step s e) := by
  cases e with
  | queue clock new =>
    obtain ⟨added, hhistory, hfold⟩ := history_queue clock new s
    refine ⟨?_, ?_⟩
    · rw [step, hhistory, List.length_append]
      exact h.started.trans (Nat.le_add_right _ _)
    · rw [step, hhistory, List.drop_append_of_le_length h.started, List.map_append,
        List.foldl_append, h.folds, hfold]
      rfl
  | flush answers => exact ⟨h.started, h.folds⟩

theorem box_load : (AgentState.load devices pending).pendingEvents.Invariant mac := by
  have hempty : ({} : Box Entries).Invariant mac := by
    constructor <;> simp
  exact hempty.put pending

theorem box_step (h : s.pendingEvents.Invariant mac) (hheld : e.Held s) :
    (step s e).pendingEvents.Invariant mac := by
  cases e with
  | queue clock new => exact (h.put _).put _
  | flush answers =>
    have hpost : ∀ n, (postJson (answers n)).confirmed = true → (postJson (answers n)).received ≠ 0 :=
      fun n => received_of_confirmed
    exact h.flush hpost hheld

/-- **Delivery in order.** Where no pass receives an event behind one of its
MAC address that failed, the events of each MAC address are received in the
order they were queued. -/
theorem delivered_of_held (devices : List (String × Json)) (pending : List Entries)
    (steps : List Step)
    (h : Along step (fun s e => e.Held s) (AgentState.load devices pending) steps) :
    Delivered devices pending (run step (AgentState.load devices pending) steps) := by
  have hbox : (run step (AgentState.load devices pending) steps).pendingEvents.Invariant mac :=
    h.invariant (I := fun s => s.pendingEvents.Invariant mac) box_load fun s e => box_step
  have hfollows : Follows devices pending (run step (AgentState.load devices pending) steps) :=
    run_invariant follows_load fun s e => follows_step
  exact ⟨hbox.inOrder, hfollows.folds⟩

end

def phone : List (String × Json) := [("02:00:00:00:00:01", .dict [])]

/-- The phone goes, comes back and is reported; every post is answered. -/
theorem delivered_phone : Delivered phone []
    (run step (AgentState.load phone [])
      [.queue (fun _ => 0) [], .flush fun _ => [.lost, .success], .queue (fun _ => 9) phone,
        .flush fun _ => [.success]]) :=
  delivered_of_held _ _ _ (by decide +kernel)

/-- The phone goes and comes back: the first event fails, the second passes
it, and the phone is offline for the Hub. -/
def overtaken : AgentState :=
  run step (AgentState.load phone [])
    [.queue (fun _ => 0) [], .flush fun _ => [.lost, .lost, .lost], .queue (fun _ => 9) phone,
      .flush fun n => if n = 0 then [.lost, .lost, .lost] else [.success], .flush fun _ => [.success]]

theorem not_delivered_overtaken :
    overtaken.pendingEvents.received.map (fun e => get e.body "event") =
        [.str "online", .str "offline"] ∧
      macs overtaken.devices = macs phone ∧ ¬ Delivered phone [] overtaken := by
  refine ⟨by decide +kernel, by decide +kernel, fun h => ?_⟩
  have hordered := h.inOrder.ordered
  revert hordered
  decide +kernel

end LabProbe.Agent
