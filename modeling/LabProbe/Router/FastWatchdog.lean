import LabProbe.Lib.Run
import LabProbe.Router.Receiver

/-!
# The watchdog of the fast stream

The receive loop of `hub0935_sync_fix.py` with the stall test of
`router_fast_watchdog_patch.py`. The test is made where a receive times out. An
event of the loop comes some time after the one before; an end is a closed
connection, an error or the stop of the monitor.
-/

namespace LabProbe.Router.FastWatchdog

open Py Json Runs

def fastStartGraceSeconds : Rat := 8

def fastStallSeconds : Rat := 8

def fastSocketPollSeconds : Rat := 1

inductive Received where
  | timeout
  | ended
  | undecodable
  | value (value : Json)

structure Event where
  wait : Rat
  received : Received
  wait_nonneg : 0 ≤ wait

structure Loop where
  now : Rat
  connectedAt : Rat
  lastFastAt : Rat
  monitor : Monitor
  running : Bool := true

def fastStreamStalled (lastFastAt connectedAt now : Rat) : Bool :=
  if connectedAt ≤ lastFastAt then decide (fastStallSeconds ≤ now - lastFastAt)
  else decide (fastStartGraceSeconds ≤ now - connectedAt)

section
variable [Unicode]

/-- One turn of the loop; a loop that was left takes nothing. -/
def turn (room : Nat) (l : Loop) (e : Event) : Loop :=
  if !l.running then l
  else
    let l := { l with now := l.now + e.wait }
    match e.received with
    | .timeout => { l with running := !fastStreamStalled l.lastFastAt l.connectedAt l.now }
    | .ended => { l with running := false }
    | .undecodable => l
    | .value (.dict message) =>
      match dispatchMessage room l.monitor message with
      | .error _ => { l with running := false }
      | .ok monitor =>
        { l with
          monitor
          lastFastAt := if messageType message = "fast" then l.now else l.lastFastAt }
    | .value _ => l

-- ---------------------------------------------------------------------------
-- The traffic
-- ---------------------------------------------------------------------------

inductive Effect where
  | quiet | fast | other | ends
  deriving DecidableEq

def Received.effect (room : Nat) : Received → Effect
  | .timeout => .quiet
  | .ended => .ends
  | .undecodable => .other
  | .value (.dict message) =>
    match dispatchMessage room ⟨[], [], []⟩ message with
    | .error _ => .ends
    | .ok _ => if messageType message = "fast" then .fast else .other
  | .value _ => .other

structure Seen where
  now : Rat
  fastAt : Option Rat := none

def see (room : Nat) (seen : Seen) (e : Event) : Seen where
  now := seen.now + e.wait
  fastAt := if e.received.effect room = .fast then some (seen.now + e.wait) else seen.fastAt

def traffic (room : Nat) (connectedAt : Rat) (events : List Event) : Seen :=
  events.foldl (see room) { now := connectedAt }

omit [Unicode] in
/-- When the stream counts as stalled. -/
def Seen.stallsAt (connectedAt : Rat) (seen : Seen) : Rat :=
  match seen.fastAt with
  | some fastAt => fastAt + fastStallSeconds
  | none => connectedAt + fastStartGraceSeconds

/-- An end, or a timeout once the stream counts as stalled. -/
def Leaves (room : Nat) (connectedAt : Rat) (seen : Seen) (e : Event) : Prop :=
  match e.received.effect room with
  | .quiet => seen.stallsAt connectedAt ≤ seen.now + e.wait
  | .ends => True
  | .fast => False
  | .other => False

/-- The connection starts now, and the last fast frame of an earlier one was some
time before. -/
def Loop.start (connectedAt : Rat) (earlier : NNRat) (monitor : Monitor) : Loop where
  now := connectedAt
  connectedAt := connectedAt
  lastFastAt := connectedAt - earlier
  monitor := monitor

-- ---------------------------------------------------------------------------
-- Turns
-- ---------------------------------------------------------------------------

variable {room : Nat} {connectedAt : Rat} {l : Loop} {seen : Seen} {e : Event}

theorem dispatchMessage_cases (room : Nat) (message : Entries) :
    (∃ raised, ∀ s, dispatchMessage room s message = .error raised) ∨
      ∃ f : Monitor → Monitor, ∀ s, dispatchMessage room s message = .ok (f s) := by
  unfold dispatchMessage
  split
  · exact .inr ⟨id, fun _ => rfl⟩
  · split
    · exact .inl ⟨_, fun _ => rfl⟩
    · split
      · cases normalizeFastMessage room message with
        | error raised => exact .inl ⟨raised, fun _ => rfl⟩
        | ok sample => exact .inr ⟨fun s => s.storeFast message sample, fun _ => rfl⟩
      · exact .inr ⟨fun s => s.putLowFrequency message, fun _ => rfl⟩

/-- The loop keeps the time, and that of the last fast frame. -/
structure Agree (connectedAt : Rat) (l : Loop) (seen : Seen) : Prop where
  now : l.now = seen.now
  connected : l.connectedAt = connectedAt
  started : connectedAt ≤ seen.now
  none : seen.fastAt = none → l.lastFastAt ≤ connectedAt
  some : ∀ fastAt, seen.fastAt = some fastAt → l.lastFastAt = fastAt ∧ connectedAt ≤ fastAt

omit [Unicode] in
theorem Agree.stalled (h : Agree connectedAt l seen) (now : Rat) :
    fastStreamStalled l.lastFastAt l.connectedAt now = true ↔ seen.stallsAt connectedAt ≤ now := by
  unfold fastStreamStalled Seen.stallsAt
  rw [h.connected]
  cases hfast : seen.fastAt with
  | none =>
    have hgrace : fastStallSeconds = fastStartGraceSeconds := rfl
    split
    · rename_i hafter
      have hsame : l.lastFastAt = connectedAt := le_antisymm (h.none hfast) hafter
      rw [hsame, decide_eq_true_eq, le_sub_iff_add_le', hgrace]
    · rw [decide_eq_true_eq, le_sub_iff_add_le']
  | some fastAt =>
    obtain ⟨hlast, hafter⟩ := h.some fastAt hfast
    rw [hlast, if_pos hafter, decide_eq_true_eq, le_sub_iff_add_le']

omit [Unicode] in
theorem agree_start (connectedAt : Rat) (earlier : NNRat) (monitor : Monitor) :
    Agree connectedAt (Loop.start connectedAt earlier monitor) { now := connectedAt } where
  now := rfl
  connected := rfl
  started := le_rfl
  none _ := sub_le_self connectedAt earlier.2
  some _ h := by cases h

/-- What neither ends the loop nor is fast only takes time. -/
theorem Agree.other (h : Agree connectedAt l seen) (hne : e.received.effect room ≠ .fast)
    (monitor : Monitor) :
    Agree connectedAt { l with now := l.now + e.wait, monitor } (see room seen e) := by
  have hsame : (see room seen e).fastAt = seen.fastAt := if_neg hne
  refine ⟨congrArg (· + e.wait) h.now, h.connected, ?_, ?_, ?_⟩
  · exact h.started.trans (le_add_of_nonneg_right e.wait_nonneg)
  · exact fun hnone => h.none (hsame ▸ hnone)
  · exact fun fastAt hsome => h.some fastAt (hsame ▸ hsome)

theorem Agree.fast (h : Agree connectedAt l seen) (hfast : e.received.effect room = .fast)
    (monitor : Monitor) :
    Agree connectedAt { l with now := l.now + e.wait, monitor, lastFastAt := l.now + e.wait }
      (see room seen e) := by
  have hnow : l.now + e.wait = seen.now + e.wait := congrArg (· + e.wait) h.now
  have hstarted : connectedAt ≤ seen.now + e.wait :=
    h.started.trans (le_add_of_nonneg_right e.wait_nonneg)
  have hset : (see room seen e).fastAt = Option.some (seen.now + e.wait) := if_pos hfast
  refine ⟨hnow, h.connected, hstarted, fun hnone => ?_, fun fastAt hsome => ?_⟩
  · rw [hset] at hnone
    cases hnone
  · rw [hset] at hsome
    cases hsome
    exact ⟨hnow, hstarted⟩

theorem turn_spec (h : Agree connectedAt l seen) (hrunning : l.running = true) :
    ((turn room l e).running = true ↔ ¬Leaves room connectedAt seen e) ∧
      ((turn room l e).running = true → Agree connectedAt (turn room l e) (see room seen e)) := by
  have hnow : l.now + e.wait = seen.now + e.wait := congrArg (· + e.wait) h.now
  have hstart : (!l.running) = false := by rw [hrunning, Bool.not_true]
  unfold turn Leaves
  rw [hstart, if_neg Bool.false_ne_true]
  cases hreceived : e.received with
  | timeout =>
    have hagree := @Agree.other _ room connectedAt l seen e h (by simp [hreceived, Received.effect])
      l.monitor
    simp only [Received.effect]
    refine ⟨?_, fun hgoes => ?_⟩
    · rw [Bool.not_eq_true', ← Bool.not_eq_true, h.stalled, hnow]
    · exact ⟨hagree.now, hagree.connected, hagree.started, hagree.none, hagree.some⟩
  | ended => simp [Received.effect]
  | undecodable =>
    have hagree := @Agree.other _ room connectedAt l seen e h (by simp [hreceived, Received.effect])
      l.monitor
    simp only [Received.effect, not_false_eq_true, iff_true]
    exact ⟨hrunning, fun _ => hagree⟩
  | value value =>
    cases value with
    | dict message =>
      simp only [Received.effect]
      obtain ⟨raised, hraises⟩ | ⟨f, htakes⟩ := dispatchMessage_cases room message
      · simp [hraises]
      · simp only [htakes]
        have heffect : e.received.effect room =
            if messageType message = "fast" then Effect.fast else Effect.other := by
          rw [hreceived, Received.effect, htakes]
        by_cases hfast : messageType message = "fast"
        · simp only [hfast, if_true, not_false_eq_true, iff_true]
          exact ⟨hrunning, fun _ => h.fast (by rw [heffect, if_pos hfast]) _⟩
        · simp only [hfast, if_false, not_false_eq_true, iff_true]
          exact ⟨hrunning, fun _ => h.other (by rw [heffect, if_neg hfast]; simp) _⟩
    | _ =>
      have hagree := @Agree.other _ room connectedAt l seen e h
        (by simp [hreceived, Received.effect]) l.monitor
      simp only [Received.effect, not_false_eq_true, iff_true]
      exact ⟨hrunning, fun _ => hagree⟩

-- ---------------------------------------------------------------------------
-- Runs
-- ---------------------------------------------------------------------------

theorem turn_stopped (h : l.running = false) : turn room l e = l := by
  simp [turn, h]

theorem traffic_append (room : Nat) (connectedAt : Rat) (events : List Event) (e : Event) :
    traffic room connectedAt (events ++ [e]) = see room (traffic room connectedAt events) e := by
  simp [traffic]

/-- The loop has been left in the course of the events. -/
def Left (room : Nat) (connectedAt : Rat) (events : List Event) : Prop :=
  ∃ before e, before ++ [e] <+: events ∧ Leaves room connectedAt (traffic room connectedAt before) e

theorem left_append (events : List Event) (e : Event) :
    Left room connectedAt (events ++ [e]) ↔
      Left room connectedAt events ∨ Leaves room connectedAt (traffic room connectedAt events) e := by
  constructor
  · rintro ⟨before, e', hpre, hleaves⟩
    rcases List.prefix_concat_iff.mp hpre with heq | hpre
    · obtain ⟨rfl, rfl⟩ := List.append_singleton_inj.mp heq
      exact .inr hleaves
    · exact .inl ⟨before, e', hpre, hleaves⟩
  · rintro (⟨before, e', hpre, hleaves⟩ | hleaves)
    · exact ⟨before, e', hpre.trans (List.prefix_append _ _), hleaves⟩
    · exact ⟨events, e, List.prefix_rfl, hleaves⟩

/-- The loop goes on until it is left, and keeps the times as long. -/
theorem run_spec (room : Nat) (connectedAt : Rat) (earlier : NNRat) (monitor : Monitor)
    (events : List Event) :
    let l := run (turn room) (Loop.start connectedAt earlier monitor) events
    (l.running = true ↔ ¬Left room connectedAt events) ∧
      (l.running = true → Agree connectedAt l (traffic room connectedAt events)) := by
  induction events using List.reverseRecOn with
  | nil =>
    refine ⟨iff_of_true rfl ?_, fun _ => agree_start connectedAt earlier monitor⟩
    rintro ⟨before, e, hpre, -⟩
    simp at hpre
  | append_singleton events e ih =>
    obtain ⟨hleft, hagree⟩ := ih
    simp only [run_append, run_cons, run_nil]
    generalize run (turn room) (Loop.start connectedAt earlier monitor) events = l at hleft hagree
    rw [left_append, traffic_append]
    by_cases hrunning : l.running = true
    · obtain ⟨hgoes, hkept⟩ := @turn_spec _ room connectedAt l _ e (hagree hrunning) hrunning
      exact ⟨by rw [hgoes, not_or, and_iff_right (hleft.mp hrunning)], hkept⟩
    · have hstopped : l.running = false := by simpa using hrunning
      rw [turn_stopped hstopped]
      have hgone : Left room connectedAt events := not_not.mp (mt hleft.mpr hrunning)
      exact ⟨iff_of_false hrunning (not_not_intro (.inl hgone)), fun h => absurd h hrunning⟩

/-- The loop never goes on once the stall limit and one poll interval are over,
exactly where every frame other than a fast one that comes as late comes after the
loop has been left. -/
theorem watchdog_bound_iff (room : Nat) (connectedAt : Rat) (earlier : NNRat) (monitor : Monitor)
    (events : List Event) :
    (∀ before e, before ++ [e] <+: events →
      (run (turn room) (Loop.start connectedAt earlier monitor) (before ++ [e])).running = true →
      (traffic room connectedAt (before ++ [e])).now ≤
        (traffic room connectedAt (before ++ [e])).stallsAt connectedAt + fastSocketPollSeconds) ↔
    ∀ before e, before ++ [e] <+: events → e.received.effect room = .other →
      (traffic room connectedAt before).stallsAt connectedAt + fastSocketPollSeconds <
        (traffic room connectedAt before).now + e.wait →
      Left room connectedAt before := by
  have hgoes := fun events => (run_spec room connectedAt earlier monitor events).1
  simp only [hgoes, left_append, not_or, traffic_append]
  have hpoll : (0 : Rat) ≤ fastSocketPollSeconds := by decide
  constructor
  · intro hbound before e hpre hother hlate
    by_contra hnot
    have hstays : ¬Leaves room connectedAt (traffic room connectedAt before) e := by
      simp [Leaves, hother]
    have hle := hbound before e hpre ⟨hnot, hstays⟩
    simp only [see, hother, Seen.stallsAt] at hle hlate
    exact absurd hlate (not_lt_of_ge hle)
  · rintro hlate before e hpre ⟨hnot, hstays⟩
    cases heffect : e.received.effect room with
    | ends => simp [Leaves, heffect] at hstays
    | quiet =>
      simp only [Leaves, heffect, not_le] at hstays
      simp only [see, heffect, Seen.stallsAt] at hstays ⊢
      exact hstays.le.trans (le_add_of_nonneg_right hpoll)
    | fast =>
      simp only [see, heffect, if_true, Seen.stallsAt]
      have hstall : (0 : Rat) ≤ fastStallSeconds := by decide
      exact (le_add_of_nonneg_right hstall).trans (le_add_of_nonneg_right hpoll)
    | other =>
      by_contra hexceeds
      simp only [see, heffect, Seen.stallsAt, not_le] at hexceeds
      exact hnot (hlate before e hpre heffect hexceeds)

end

section
local instance : Unicode := .ascii

/-- A frame of a type half a second after the event before it. -/
def frameOf (type : String) : Event where
  wait := 1 / 2
  received := .value (.dict [("type", .str type)])
  wait_nonneg := by decide +kernel

def busyTraffic : List Event := frameOf "fast" :: List.replicate 20 (frameOf "ping")

/-- Pings keep the loop going ten seconds after the last fast frame. -/
theorem watchdog_bound_pings :
    (run (turn 100) (Loop.start 1000 0 ⟨[], [], []⟩) busyTraffic).running = true ∧
      (traffic 100 1000 busyTraffic).fastAt = some (1000 + 1 / 2) ∧
      (traffic 100 1000 busyTraffic).now = 1000 + 1 / 2 + 10 := by
  decide +kernel

end

end LabProbe.Router.FastWatchdog
