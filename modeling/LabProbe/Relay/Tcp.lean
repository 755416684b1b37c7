import LabProbe.Lib.Pipe
import LabProbe.Relay.Peers

/-!
# The connections of a TCP relay

A listener over TCP spawns a task for each connection it accepts, up to the
limit of the rule. The task connects to the target and copies both ways until
both sides have ended, something fails or nothing comes for too long. The tasks
share the counters of the runtime, and they outlive the listener.

An event is one iteration of the listener or one step of a task. The state that
is shown is modelled with the runtimes.
-/

namespace LabProbe.Relay

open Py Runs Pipes

structure Counters where
  active : UInt64 := 0
  upload : UInt64 := 0
  download : UInt64 := 0

/-- Where a task stands. It holds its permit until it is gone. -/
inductive Phase where
  | spawned
  | connecting
  | relaying
  | returned (result : Except String Unit)
  | gone (result : Except String Unit)

structure TcpConnection where
  target : SocketAddr
  phase : Phase := .spawned
  /-- From the client to the target. -/
  upward : Pipe UInt8 := {}
  /-- From the target to the client. -/
  downward : Pipe UInt8 := {}

/-- A step of the task of a connection. The passes of its loop come with what
the two sockets answer. -/
inductive TaskStep where
  | start
  | connect (result : Except String Unit)
  | client (chunk : Chunk UInt8 String)
  | target (chunk : Chunk UInt8 String)
  | idle
  | leave

namespace TcpConnection

def isGone (c : TcpConnection) : Bool :=
  match c.phase with
  | .gone _ => true
  | _ => false

def isActive (c : TcpConnection) : Bool :=
  match c.phase with
  | .connecting | .relaying => true
  | _ => false

/-- `proxy_connection` returns. -/
def finish (result : Except String Unit) (c : TcpConnection) : TcpConnection × (Counters → Counters) :=
  ({ c with phase := .returned result }, fun n => { n with active := n.active - 1 })

def loop (c : TcpConnection) (count : Counters → Counters) :
    TcpConnection × (Counters → Counters) :=
  if c.upward.closed && c.downward.closed then
    ((c.finish (.ok ())).1, fun n => (c.finish (.ok ())).2 (count n))
  else (c, count)

def onClient (chunk : Chunk UInt8 String) (c : TcpConnection) : TcpConnection × (Counters → Counters) :=
  let c' := { c with upward := (c.upward.pass chunk).1 }
  match (c.upward.pass chunk).2 with
  | .ok n => c'.loop fun k => { k with upload := k.upload + UInt64.ofNat n }
  | .error e => c'.finish (.error e)

def onTarget (chunk : Chunk UInt8 String) (c : TcpConnection) : TcpConnection × (Counters → Counters) :=
  let c' := { c with downward := (c.downward.pass chunk).1 }
  match (c.downward.pass chunk).2 with
  | .ok n => c'.loop fun k => { k with download := k.download + UInt64.ofNat n }
  | .error e => c'.finish (.error e)

/-- The task of a connection, around `proxy_connection`, and what a step does to
the counters. -/
def step (c : TcpConnection) (e : TaskStep) : TcpConnection × (Counters → Counters) :=
  match c.phase, e with
  | .spawned, .start =>
    ({ c with phase := .connecting }, fun n => { n with active := n.active + 1 })
  | .connecting, .connect (.ok ()) => ({ c with phase := .relaying }, id)
  | .connecting, .connect (.error e) => c.finish (.error e)
  | .relaying, .client chunk => c.onClient chunk
  | .relaying, .target chunk => c.onTarget chunk
  | .relaying, .idle => c.finish (.error "connection idle timeout")
  | .returned result, .leave => ({ c with phase := .gone result }, id)
  | _, _ => (c, id)

end TcpConnection

structure TcpListener where
  rule : Rule
  target : Option IpAddress
  connections : List TcpConnection := []
  counters : Counters := {}
  stopped : Bool := false

namespace TcpListener

def inUse (s : TcpListener) : Nat := s.connections.countP fun c => !c.isGone

def accept (s : TcpListener) : TcpListener :=
  match s.target with
  | none => s
  | some ip =>
    if s.inUse < s.rule.maxConnections then
      { s with connections := s.connections ++ [{ target := SocketAddr.new ip s.rule.targetPort }] }
    else s

inductive Event where
  | accept
  /-- The target is resolved again, or cannot be. -/
  | resolve (target : Option IpAddress)
  | stop
  | task (number : Nat) (e : TaskStep)

def onTask (number : Nat) (e : TaskStep) (s : TcpListener) : TcpListener :=
  match s.connections[number]? with
  | none => s
  | some c =>
    { s with
      connections := s.connections.set number (c.step e).1
      counters := (c.step e).2 s.counters }

def step (s : TcpListener) : Event → TcpListener
  | .accept => if s.stopped then s else s.accept
  | .resolve target => if s.stopped then s else { s with target := target }
  | .stop => { s with stopped := true }
  | .task number e => s.onTask number e

/-- The listener when its task starts, with the totals of the runtime before. -/
def start (rule : Rule) (target : Option IpAddress) (upload download : UInt64) : TcpListener :=
  { rule := rule, target := target, counters := { upload := upload, download := download } }

end TcpListener

-- ---------------------------------------------------------------------------
-- One connection
-- ---------------------------------------------------------------------------

namespace TcpConnection

variable {c : TcpConnection} {e : TaskStep}

/-- The connection after a step of its task. -/
def next (c : TcpConnection) (e : TaskStep) : TcpConnection := (c.step e).1

def result? (c : TcpConnection) : Option (Except String Unit) :=
  match c.phase with
  | .returned result | .gone result => some result
  | _ => none

/-- What came on either side has been passed on: all of it unless something
failed, and then all of it one way and the beginning of it the other way. -/
structure Relayed (c : TcpConnection) : Prop where
  faithful : (c.upward.Whole ∧ c.downward.Faithful) ∨ (c.upward.Faithful ∧ c.downward.Whole)
  whole : (∀ e, c.result? ≠ some (.error e)) → c.upward.Whole ∧ c.downward.Whole
  ended : c.result? = some (.ok ()) → c.upward.closed = true ∧ c.downward.closed = true
  running : c.phase = .relaying → (c.upward.closed && c.downward.closed) = false
  waiting : c.phase = .spawned ∨ c.phase = .connecting → c.upward = {} ∧ c.downward = {}

structure Books (c c' : TcpConnection) (f : Counters → Counters) : Prop where
  active (n : Counters) : (f n).active + UInt64.ofNat c.isActive.toNat =
    n.active + UInt64.ofNat c'.isActive.toNat
  upload (n : Counters) : (f n).upload + UInt64.ofNat c.upward.counted =
    n.upload + UInt64.ofNat c'.upward.counted
  download (n : Counters) : (f n).download + UInt64.ofNat c.downward.counted =
    n.download + UInt64.ofNat c'.downward.counted
  permits : (!c'.isGone).toNat ≤ (!c.isGone).toNat

theorem books_id (c : TcpConnection) : Books c c id :=
  ⟨fun _ => rfl, fun _ => rfl, fun _ => rfl, Nat.le_refl _⟩

theorem loop_cases (c : TcpConnection) (count : Counters → Counters) :
    ((c.upward.closed && c.downward.closed) = false ∧ c.loop count = (c, count)) ∨
      (c.upward.closed && c.downward.closed) = true ∧
        c.loop count = ({ c with phase := .returned (.ok ()) },
          fun n => { count n with active := (count n).active - 1 }) := by
  unfold loop
  cases h : c.upward.closed && c.downward.closed with
  | true => exact .inr ⟨rfl, rfl⟩
  | false => exact .inl ⟨rfl, rfl⟩

variable {c' : TcpConnection} {f : Counters → Counters} {result : Except String Unit}

theorem Books.finish (h : Books c c' id) (hactive : c'.isActive = true) :
    Books c (c'.finish result).1 (c'.finish result).2 := by
  refine ⟨fun n => ?_, h.upload, h.download, ?_⟩
  · have hbefore := h.active n
    rw [hactive] at hbefore
    simp only [TcpConnection.finish, isActive, Bool.toNat_false, Bool.toNat_true, id_eq] at hbefore ⊢
    grind
  · refine Nat.le_trans ?_ h.permits
    cases hphase : c'.phase <;> simp_all [isActive, isGone, TcpConnection.finish]

theorem Books.loop (h : Books c c' f) (hphase : c'.phase = .relaying) :
    Books c (c'.loop f).1 (c'.loop f).2 := by
  rcases c'.loop_cases f with ⟨-, heq⟩ | ⟨-, heq⟩ <;> rw [heq]
  · exact h
  · refine ⟨fun n => ?_, h.upload, h.download, ?_⟩
    · have hbefore := h.active n
      simp only [isActive, hphase, Bool.toNat_false, Bool.toNat_true] at hbefore ⊢
      grind
    · have hpermits := h.permits
      simpa [isGone, hphase] using hpermits

theorem relayed_loop (hphase : c.phase = .relaying) (hup : c.upward.Whole)
    (hdown : c.downward.Whole) (f : Counters → Counters) : Relayed (c.loop f).1 := by
  rcases c.loop_cases f with ⟨hopen, heq⟩ | ⟨hclosed, heq⟩ <;> rw [heq]
  · exact ⟨.inl ⟨hup, hdown.faithful⟩, fun _ => ⟨hup, hdown⟩, by simp [result?, hphase],
      fun _ => hopen, by simp [hphase]⟩
  · exact ⟨.inl ⟨hup, hdown.faithful⟩, fun _ => ⟨hup, hdown⟩,
      fun _ => (Bool.and_eq_true _ _).mp hclosed, by simp, by simp⟩

theorem relayed_failed (h : (c.upward.Whole ∧ c.downward.Faithful) ∨
    (c.upward.Faithful ∧ c.downward.Whole)) (error : String) :
    Relayed (c.finish (.error error)).1 := by
  refine ⟨h, fun hnone => absurd rfl (hnone error), ?_, ?_, ?_⟩
  · exact nofun
  · exact nofun
  · rintro (h | h) <;> cases h

theorem Relayed.onClient (h : Relayed c) (hphase : c.phase = .relaying)
    (chunk : Chunk UInt8 String) :
    Relayed (c.onClient chunk).1 ∧ Books c (c.onClient chunk).1 (c.onClient chunk).2 := by
  obtain ⟨hup, hdown⟩ := h.whole (by simp [result?, hphase])
  have hcount := Pipe.counted_pass c.upward chunk
  unfold TcpConnection.onClient
  cases hpass : (c.upward.pass chunk).2 with
  | ok n =>
    rw [hpass] at hcount
    have hrelayed := relayed_loop (c := { c with upward := (c.upward.pass chunk).1 }) hphase
      (hup.pass hpass) hdown
    refine ⟨hrelayed _, Books.loop ?_ hphase⟩
    refine ⟨fun _ => rfl, fun k => ?_, fun _ => rfl, Nat.le_refl _⟩
    simp only [hcount, Except.toOption, Option.getD_some, UInt64.ofNat_add]
    grind
  | error e =>
    rw [hpass] at hcount
    have hfailed := relayed_failed (c := { c with upward := (c.upward.pass chunk).1 })
      (.inr ⟨hup.pass_faithful chunk, hdown⟩)
    refine ⟨hfailed e, Books.finish ?_ ?_⟩
    · refine ⟨fun _ => rfl, fun k => ?_, fun _ => rfl, Nat.le_refl _⟩
      simp only [hcount, Except.toOption, Option.getD_none, Nat.add_zero, id_eq]
    · simp [isActive, hphase]

theorem Relayed.onTarget (h : Relayed c) (hphase : c.phase = .relaying)
    (chunk : Chunk UInt8 String) :
    Relayed (c.onTarget chunk).1 ∧ Books c (c.onTarget chunk).1 (c.onTarget chunk).2 := by
  obtain ⟨hup, hdown⟩ := h.whole (by simp [result?, hphase])
  have hcount := Pipe.counted_pass c.downward chunk
  unfold TcpConnection.onTarget
  cases hpass : (c.downward.pass chunk).2 with
  | ok n =>
    rw [hpass] at hcount
    have hrelayed := relayed_loop (c := { c with downward := (c.downward.pass chunk).1 }) hphase
      hup (hdown.pass hpass)
    refine ⟨hrelayed _, Books.loop ?_ hphase⟩
    refine ⟨fun _ => rfl, fun _ => rfl, fun k => ?_, Nat.le_refl _⟩
    simp only [hcount, Except.toOption, Option.getD_some, UInt64.ofNat_add]
    grind
  | error e =>
    rw [hpass] at hcount
    have hfailed := relayed_failed (c := { c with downward := (c.downward.pass chunk).1 })
      (.inl ⟨hup, hdown.pass_faithful chunk⟩)
    refine ⟨hfailed e, Books.finish ?_ ?_⟩
    · refine ⟨fun _ => rfl, fun _ => rfl, fun k => ?_, Nat.le_refl _⟩
      simp only [hcount, Except.toOption, Option.getD_none, Nat.add_zero, id_eq]
    · simp [isActive, hphase]

theorem Relayed.step (h : Relayed c) (e : TaskStep) :
    Relayed (c.step e).1 ∧ Books c (c.step e).1 (c.step e).2 := by
  unfold TcpConnection.step
  split
  · rename_i hphase
    obtain ⟨hup, hdown⟩ := h.waiting (.inl hphase)
    refine ⟨⟨h.faithful, fun _ => h.whole (by simp [result?, hphase]), nofun, nofun,
      fun _ => ⟨hup, hdown⟩⟩, fun n => ?_, fun _ => rfl, fun _ => rfl, ?_⟩
    · simp [isActive, hphase]
    · simp [isGone, hphase]
  · rename_i hphase
    obtain ⟨hup, hdown⟩ := h.waiting (.inr hphase)
    refine ⟨⟨h.faithful, fun _ => h.whole (by simp [result?, hphase]), nofun, fun _ => ?_, ?_⟩,
      fun n => ?_, fun _ => rfl, fun _ => rfl, ?_⟩
    · simp [hup]
    · simp
    · simp [isActive, hphase]
    · simp [isGone, hphase]
  · rename_i hphase
    exact ⟨relayed_failed h.faithful _, (books_id c).finish (by simp [isActive, hphase])⟩
  · rename_i hphase
    exact h.onClient hphase _
  · rename_i hphase
    exact h.onTarget hphase _
  · rename_i hphase
    exact ⟨relayed_failed h.faithful _, (books_id c).finish (by simp [isActive, hphase])⟩
  · rename_i result hphase
    refine ⟨⟨h.faithful, fun hnone => h.whole ?_, fun hresult => h.ended ?_, nofun, by simp⟩,
      fun n => ?_, fun _ => rfl, fun _ => rfl, ?_⟩
    · simpa [result?, hphase] using hnone
    · simpa [result?, hphase] using hresult
    · simp [isActive, hphase]
    · simp [isGone]
  · exact ⟨h, books_id c⟩

theorem relayed_new (target : SocketAddr) : Relayed { target := target } :=
  ⟨.inl ⟨Pipe.whole_empty, Pipe.whole_empty.faithful⟩,
    fun _ => ⟨Pipe.whole_empty, Pipe.whole_empty⟩, nofun, nofun, fun _ => ⟨rfl, rfl⟩⟩

end TcpConnection

-- ---------------------------------------------------------------------------
-- All connections
-- ---------------------------------------------------------------------------

namespace TcpListener

variable {rule : Rule} {upload download : UInt64} {s : TcpListener} {number : Nat} {c : TcpConnection}

theorem sum_set {α : Type} (w : α → Nat) {l : List α} {n : Nat} {a b : α} (h : l[n]? = some a) :
    ((l.set n b).map w).sum + w a = (l.map w).sum + w b := by
  induction l generalizing n with
  | nil => simp at h
  | cons x l ih =>
    cases n with
    | zero =>
      have hx : x = a := by simpa using h
      subst hx
      simp only [List.set_cons_zero, List.map_cons, List.sum_cons]
      omega
    | succ n =>
      have hsum := ih (n := n) (by simpa using h)
      simp only [List.set_cons_succ, List.map_cons, List.sum_cons]
      omega

theorem countP_eq_sum {α : Type} (p : α → Bool) (l : List α) :
    l.countP p = (l.map fun a => (p a).toNat).sum := by
  induction l with
  | nil => rfl
  | cons x l ih =>
    rw [List.countP_cons, ih, List.map_cons, List.sum_cons, Nat.add_comm]
    cases p x <;> rfl

def Counts (w : TcpConnection → Nat) (base counter : UInt64) (connections : List TcpConnection) : Prop :=
  counter = base + UInt64.ofNat (connections.map w).sum

theorem Counts.set {w : TcpConnection → Nat} {base counter counter' : UInt64}
    {connections : List TcpConnection} {c' : TcpConnection} (h : Counts w base counter connections)
    (hget : connections[number]? = some c)
    (hbooks : counter' + UInt64.ofNat (w c) = counter + UInt64.ofNat (w c')) :
    Counts w base counter' (connections.set number c') := by
  have hsum := congrArg UInt64.ofNat (sum_set w (b := c') hget)
  simp only [Counts, UInt64.ofNat_add] at h hsum ⊢
  grind

theorem Counts.append {w : TcpConnection → Nat} {base counter : UInt64}
    {connections : List TcpConnection} (h : Counts w base counter connections) (hc : w c = 0) :
    Counts w base counter (connections ++ [c]) := by
  simpa [Counts, hc] using h

structure Invariant (rule : Rule) (upload download : UInt64) (s : TcpListener) : Prop where
  same : s.rule = rule
  limit : s.inUse ≤ rule.maxConnections
  active : Counts (fun c => c.isActive.toNat) 0 s.counters.active s.connections
  upload : Counts (fun c => c.upward.counted) upload s.counters.upload s.connections
  download : Counts (fun c => c.downward.counted) download s.counters.download s.connections
  relayed : ∀ c ∈ s.connections, c.Relayed

theorem invariant_start (rule : Rule) (target : Option IpAddress) (upload download : UInt64) :
    Invariant rule upload download (start rule target upload download) where
  same := rfl
  limit := Nat.zero_le _
  active := by simp [Counts, start]
  upload := by simp [Counts, start]
  download := by simp [Counts, start]
  relayed := by simp [start]

theorem Invariant.accept (h : Invariant rule upload download s) :
    Invariant rule upload download s.accept := by
  unfold TcpListener.accept
  split
  · exact h
  · split
    · rename_i ip _ hroom
      refine ⟨h.same, ?_, h.active.append rfl, h.upload.append rfl, h.download.append rfl, ?_⟩
      · rw [h.same] at hroom
        rw [inUse, List.countP_append]
        exact hroom
      · intro c hc
        rcases List.mem_append.mp hc with hc | hc
        · exact h.relayed c hc
        · rw [List.mem_singleton.mp hc]
          exact TcpConnection.relayed_new _
    · exact h

theorem Invariant.onTask (h : Invariant rule upload download s) (number : Nat) (e : TaskStep) :
    Invariant rule upload download (s.onTask number e) := by
  unfold TcpListener.onTask
  split
  · exact h
  · rename_i c hget
    obtain ⟨hrelayed, hbooks⟩ := (h.relayed c (List.mem_of_getElem? hget)).step e
    refine ⟨h.same, ?_, h.active.set hget (hbooks.active _), h.upload.set hget (hbooks.upload _),
      h.download.set hget (hbooks.download _), ?_⟩
    · have hsum := sum_set (fun c => (!c.isGone).toNat) (b := (c.step e).1) hget
      have hlimit := h.limit
      have hpermits := hbooks.permits
      rw [inUse, countP_eq_sum] at hlimit ⊢
      dsimp only at hsum ⊢
      omega
    · intro c' hc'
      rcases List.mem_or_eq_of_mem_set hc' with hc' | rfl
      · exact h.relayed c' hc'
      · exact hrelayed

theorem Invariant.step (h : Invariant rule upload download s) (e : Event) :
    Invariant rule upload download (s.step e) := by
  cases e with
  | accept =>
    rw [TcpListener.step]
    split
    · exact h
    · exact h.accept
  | resolve target =>
    rw [TcpListener.step]
    split
    · exact h
    · exact { h with }
  | stop => exact { h with }
  | task number e => exact h.onTask number e

/-- The connections are within the limit, the counters are right, and what came
in has been passed on. -/
structure Sound (rule : Rule) (upload download : UInt64) (s : TcpListener) : Prop where
  limit : s.inUse ≤ rule.maxConnections
  active : s.counters.active.toNat = s.connections.countP TcpConnection.isActive
  permits : s.counters.active.toNat ≤ s.inUse
  upload : s.counters.upload =
    upload + UInt64.ofNat (s.connections.map fun c => c.upward.counted).sum
  download : s.counters.download =
    download + UInt64.ofNat (s.connections.map fun c => c.downward.counted).sum
  relayed : ∀ c ∈ s.connections, c.Relayed

theorem Invariant.sound (h : Invariant rule upload download s) (hrule : rule.Typed) :
    Sound rule upload download s := by
  obtain ⟨-, -, -, hbound, -⟩ := hrule
  have hpermits : s.connections.countP TcpConnection.isActive ≤ s.inUse :=
    List.countP_mono_left fun c _ hactive => by
      unfold TcpConnection.isActive TcpConnection.isGone at *
      cases hphase : c.phase <;> simp_all
  have hactive : s.counters.active.toNat = s.connections.countP TcpConnection.isActive := by
    have hlimit := h.limit
    have hcounts := h.active
    rw [Counts, ← countP_eq_sum, UInt64.zero_add] at hcounts
    rw [hcounts, UInt64.toNat_ofNat_of_lt']
    exact Nat.lt_of_le_of_lt (Nat.le_trans hpermits hlimit) (Nat.lt_trans hbound (by decide))
  exact ⟨h.limit, hactive, hactive ▸ hpermits, h.upload, h.download, h.relayed⟩

-- ---------------------------------------------------------------------------
-- Each connection for itself
-- ---------------------------------------------------------------------------

/-- The steps of one task in a run. -/
def stepsOf (number : Nat) (events : List Event) : List TaskStep :=
  events.filterMap fun
    | .task n e => if n = number then some e else none
    | _ => none

theorem getElem?_step (h : s.connections[number]? = some c) (e : Event) :
    (s.step e).connections[number]? = some (run TcpConnection.next c (stepsOf number [e])) := by
  cases e with
  | accept =>
    have hlt : number < s.connections.length := (List.getElem?_eq_some_iff.mp h).1
    have hkept : s.accept.connections[number]? = some c := by
      unfold TcpListener.accept
      split
      · exact h
      · split
        · dsimp only
          rw [List.getElem?_append_left hlt, h]
        · exact h
    rw [TcpListener.step]
    split
    · exact h
    · exact hkept
  | resolve target =>
    rw [TcpListener.step]
    split <;> exact h
  | stop => exact h
  | task n e =>
    rw [TcpListener.step, onTask]
    by_cases hn : n = number
    · subst hn
      rw [h]
      dsimp only
      rw [List.getElem?_set_self (List.getElem?_eq_some_iff.mp h).1]
      simp [stepsOf, TcpConnection.next]
    · have hsteps : stepsOf number [Event.task n e] = [] := by simp [stepsOf, hn]
      rw [hsteps]
      split
      · exact h
      · dsimp only
        rw [List.getElem?_set_ne hn, h]
        rfl

theorem getElem?_run (h : s.connections[number]? = some c) (events : List Event) :
    (run step s events).connections[number]? =
      some (run TcpConnection.next c (stepsOf number events)) := by
  induction events generalizing s c with
  | nil => exact h
  | cons e events ih =>
    have hsteps : stepsOf number (e :: events) = stepsOf number [e] ++ stepsOf number events := by
      rw [stepsOf, stepsOf, stepsOf, ← List.filterMap_append]
      rfl
    rw [run_cons, ih (getElem?_step h e), hsteps, run_append]

/-- **A relay over TCP passes on what comes**, whatever the interleaving. -/
theorem connections_sound (rule : Rule) (hrule : rule.Typed) (target : Option IpAddress)
    (upload download : UInt64) (events : List Event) :
    Sound rule upload download (run step (start rule target upload download) events) ∧
      ∀ (later : List Event) (number : Nat) (c : TcpConnection),
        (run step (start rule target upload download) events).connections[number]? = some c →
        (run step (start rule target upload download) (events ++ later)).connections[number]? =
          some (run TcpConnection.next c (stepsOf number later)) := by
  refine ⟨Invariant.sound ?_ hrule, fun later number c hc => ?_⟩
  · exact run_invariant (invariant_start rule target upload download) fun _ e hs => hs.step e
  · rw [run_append]
    exact getElem?_run hc later

end TcpListener

section
open TcpListener

def soloRule : Rule := { webRule with id := "solo", maxConnections := 1 }

/-- A client asks and is answered, while a second one finds no permit; the
target ends first, and the client after it. -/
def oneVisit : List Event :=
  [.accept, .task 0 .start, .task 0 (.connect (.ok ())), .accept,
    .task 0 (.client { read := .ok [71, 69, 84] }), .task 0 (.target { read := .ok [79, 75] }),
    .task 0 (.target { read := .ok [] }), .task 0 (.client { read := .ok [] }), .task 0 .leave]

theorem sound_oneVisit :
    (run step (start soloRule (some (.v4 0xc0a80114)) 100 0) oneVisit).counters.upload = 103 ∧
      Sound soloRule 100 0 (run step (start soloRule (some (.v4 0xc0a80114)) 100 0) oneVisit) :=
  ⟨by decide +kernel, (connections_sound soloRule
    ⟨by decide, by decide, by simp [soloRule, webRule], by decide, by decide⟩ _ 100 0 oneVisit).1⟩

end

end LabProbe.Relay
