import LabProbe.Lib.Rows
import LabProbe.Lib.Run
import Mathlib.Data.List.Sort

/-!
# The control actor

Every call of the router goes through one worker and a bounded queue, by its
priority. `submit` announces a foreground call under the lock, puts an item
into the queue and waits for the worker; the worker takes the item that is
first, counts it under the lock and calls its callback. The steps of the
threads and of the worker interleave, and a wait can end at any time.

What a callback does is left out: it ends with a value or an error, and may
submit calls of its own, which run at once on the worker.
-/

namespace LabProbe.Router.Control

open Runs

def priorityCommand : Int := 10
def priorityTask : Int := 20
def priorityRead : Int := 30
def priorityBackground : Int := 50

/-- `maxsize`. -/
def queueSize : Nat := 96

structure RouterRpcError where
  message : String
  code : String
  status : Nat
  deriving DecidableEq, Repr

def backgroundDeferred : RouterRpcError := ⟨"后台同步已让位于用户操作", "BACKGROUND_DEFERRED", 503⟩
def controlQueueBusy : RouterRpcError := ⟨"路由控制队列繁忙，请稍后重试", "CONTROL_QUEUE_BUSY", 503⟩
def controlQueueTimeout : RouterRpcError := ⟨"路由控制任务等待超时", "CONTROL_QUEUE_TIMEOUT", 504⟩

/-- What a call of `submit` ends with: an error of the actor, or what its item holds. -/
inductive Outcome (ν ε : Type) where
  | refused (e : RouterRpcError)
  | raised (e : ε)
  | returned (v : Option ν)
  deriving DecidableEq

inductive Phase (ν ε : Type) where
  | announced
  | putting (sequence : Nat)
  /-- The queue was full for a second. -/
  | full
  | waiting
  | ended (outcome : Outcome ν ε)
  deriving DecidableEq

inductive Stage where
  | refused | announced | rejected | queued | taken | started
  deriving DecidableEq, Repr

/-- A call of `submit`, with the fields that its item shares with the worker,
and how often its callback was started. -/
structure Call (ν ε : Type) where
  priority : Int
  label : String
  phase : Phase ν ε := .announced
  done : Bool := false
  value : Option ν := none
  error : Option ε := none
  stage : Stage := .announced
  starts : Nat := 0
  deriving DecidableEq

structure ActorItem where
  priority : Int
  sequence : Nat
  number : Nat
  deriving DecidableEq, Repr

def ActorItem.le (a b : ActorItem) : Prop :=
  a.priority < b.priority ∨ a.priority = b.priority ∧ a.sequence ≤ b.sequence

instance : DecidableRel ActorItem.le := fun a b =>
  inferInstanceAs (Decidable (a.priority < b.priority ∨ a.priority = b.priority ∧ a.sequence ≤ b.sequence))

inductive WorkerPhase where
  | got | counted | running
  /-- The callback has ended, and the item holds its value or error. -/
  | leaving
  | cleared
  deriving DecidableEq, Repr

structure RouterControlActor (ν ε : Type) where
  calls : List (Call ν ε) := []
  queue : List ActorItem := []
  sequence : Nat := 0
  activePriority : Option Int := none
  foregroundPending : Int := 0
  worker : Option (ActorItem × WorkerPhase) := none
  deriving DecidableEq

variable {ν ε : Type}

def isForeground (priority : Int) : Bool := priority < priorityBackground

namespace Call

/-- What the thread finds in its item when it is done. -/
def outcome (c : Call ν ε) : Outcome ν ε :=
  match c.error with
  | some e => .raised e
  | none => .returned c.value

def hold (result : Except ε ν) (c : Call ν ε) : Call ν ε :=
  match result with
  | .ok v => { c with value := some v }
  | .error e => { c with error := some e }

/-- A foreground call that is announced and neither taken by the worker nor rejected. -/
def outstanding (c : Call ν ε) : Bool :=
  isForeground c.priority && (c.stage == .announced || c.stage == .queued)

def deferred (priority : Int) (label : String) : Call ν ε :=
  { priority, label, phase := .ended (.refused backgroundDeferred), stage := .refused }

def inner (priority : Int) (label : String) (result : Except ε ν) : Call ν ε :=
  { priority, label, stage := .started, starts := 1
    phase := .ended (match result with
      | .ok v => .returned (some v)
      | .error e => .raised e) }

end Call

namespace RouterControlActor

/-- One step of a thread or of the worker. -/
inductive Event (ν ε : Type) where
  /-- `submit` on a thread of its own, up to the end of its critical section. -/
  | submit (priority : Int) (label : String)
  /-- Its item is made. -/
  | make (number : Nat)
  | put (number : Nat)
  | putFull (number : Nat)
  | reject (number : Nat)
  | timeout (number : Nat)
  | wake (number : Nat)
  | get
  | count
  | call
  /-- `submit` on the worker, by the callback that runs. -/
  | inner (priority : Int) (label : String) (result : Except ε ν)
  | finish (result : Except ε ν)
  | clear
  | setDone

def Event.isSubmit : Event ν ε → Bool
  | .submit _ _ | .inner _ _ _ => true
  | _ => false

/-- Rewrite a call. -/
def change (number : Nat) (f : Call ν ε → Call ν ε) (s : RouterControlActor ν ε) :
    RouterControlActor ν ε :=
  { s with calls := s.calls.modify number f }

def onCall (number : Nat) (f : Call ν ε → RouterControlActor ν ε) (s : RouterControlActor ν ε) :
    RouterControlActor ν ε :=
  match s.calls[number]? with
  | some c => f c
  | none => s

/-- The count of the foreground, taken back for a call. -/
def lower (priority : Int) (pending : Int) : Int :=
  if isForeground priority then max 0 (pending - 1) else pending

def busy (s : RouterControlActor ν ε) : Bool :=
  s.activePriority.isSome || 0 < s.foregroundPending || !s.queue.isEmpty

def step (s : RouterControlActor ν ε) : Event ν ε → RouterControlActor ν ε
  | .submit priority label =>
    if !isForeground priority && s.busy then { s with calls := s.calls ++ [.deferred priority label] }
    else
      { s with
        calls := s.calls ++ [{ priority, label }]
        foregroundPending := s.foregroundPending + if isForeground priority then 1 else 0 }
  | .make n => s.onCall n fun c => match c.phase with
    | .announced =>
      { s.change n fun c => { c with phase := .putting s.sequence } with sequence := s.sequence + 1 }
    | _ => s
  | .put n => s.onCall n fun c => match c.phase with
    | .putting sequence =>
      if s.queue.length < queueSize then
        { s.change n fun c => { c with phase := .waiting, stage := .queued } with
          queue := s.queue.orderedInsert ActorItem.le ⟨c.priority, sequence, n⟩ }
      else s
    | _ => s
  | .putFull n => s.onCall n fun c => match c.phase with
    | .putting _ =>
      if s.queue.length < queueSize then s else s.change n fun c => { c with phase := .full }
    | _ => s
  | .reject n => s.onCall n fun c => match c.phase with
    | .full =>
      { s.change n fun c =>
          { c with phase := .ended (.refused controlQueueBusy), stage := .rejected } with
        foregroundPending := lower c.priority s.foregroundPending }
    | _ => s
  | .timeout n => s.onCall n fun c => match c.phase with
    | .waiting =>
      if c.done then s
      else s.change n fun c => { c with phase := .ended (.refused controlQueueTimeout) }
    | _ => s
  | .wake n => s.onCall n fun c => match c.phase with
    | .waiting => if c.done then s.change n fun c => { c with phase := .ended c.outcome } else s
    | _ => s
  | .get => match s.worker, s.queue with
    | none, item :: rest => { s with queue := rest, worker := some (item, .got) }
    | _, _ => s
  | .count => match s.worker with
    | some (item, .got) =>
      { s.change item.number fun c => { c with stage := .taken } with
        activePriority := some item.priority
        foregroundPending := lower item.priority s.foregroundPending
        worker := some (item, .counted) }
    | _ => s
  | .call => match s.worker with
    | some (item, .counted) =>
      { s.change item.number fun c => { c with stage := .started, starts := c.starts + 1 } with
        worker := some (item, .running) }
    | _ => s
  | .inner priority label result => match s.worker with
    | some (_, .running) => { s with calls := s.calls ++ [.inner priority label result] }
    | _ => s
  | .finish result => match s.worker with
    | some (item, .running) =>
      { s.change item.number (Call.hold result) with worker := some (item, .leaving) }
    | _ => s
  | .clear => match s.worker with
    | some (item, .leaving) =>
      { s with activePriority := none, worker := some (item, .cleared) }
    | _ => s
  | .setDone => match s.worker with
    | some (item, .cleared) =>
      { s.change item.number fun c => { c with done := true } with worker := none }
    | _ => s

/-- The actor when its worker starts. -/
def start : RouterControlActor ν ε := {}

end RouterControlActor

-- ---------------------------------------------------------------------------
-- Calls and their items
-- ---------------------------------------------------------------------------

def Phase.isBefore : Phase ν ε → Bool
  | .announced | .putting _ | .full => true
  | _ => false

/-- How far a call is whose thread has ended with an error of the actor. -/
def Stage.After (e : RouterRpcError) (stage : Stage) : Prop :=
  e = backgroundDeferred ∧ stage = .refused ∨ e = controlQueueBusy ∧ stage = .rejected ∨
    e = controlQueueTimeout ∧ (stage = .queued ∨ stage = .taken ∨ stage = .started)

def WorkerPhase.stage : WorkerPhase → Stage
  | .got => .queued
  | .counted => .taken
  | _ => .started

/-- What the fields of a call say together. -/
structure Call.Fits (c : Call ν ε) : Prop where
  before : c.phase.isBefore = true ↔ c.stage = .announced
  once : c.starts = if c.stage = .started then 1 else 0
  refused : ∀ e, c.phase = .ended (.refused e) → c.stage.After e
  waited : c.phase = .waiting → c.stage = .queued ∨ c.stage = .taken ∨ c.stage = .started
  finished : c.done = true → c.stage = .started

namespace RouterControlActor

variable {s s' : RouterControlActor ν ε} {n : Nat} {c : Call ν ε} {f : Call ν ε → Call ν ε}

def places (s : RouterControlActor ν ε) : List (ActorItem × Stage) :=
  s.queue.map (·, .queued) ++ s.worker.toList.map fun w => (w.1, WorkerPhase.stage w.2)

def placed (s : RouterControlActor ν ε) : List Nat := s.places.map fun p => p.1.number

structure Invariant (s : RouterControlActor ν ε) : Prop where
  fits : ∀ c ∈ s.calls, c.Fits
  counted : s.foregroundPending = s.calls.countP Call.outstanding
  distinct : s.placed.Nodup
  holds : ∀ p ∈ s.places, ∃ c, s.calls[p.1.number]? = some c ∧ c.stage = p.2 ∧
    c.priority = p.1.priority
  found : ∀ n c, s.calls[n]? = some c → c.stage = .queued ∨ c.stage = .taken → n ∈ s.placed

theorem invariant_start : Invariant (start : RouterControlActor ν ε) where
  fits := by simp [start]
  counted := rfl
  distinct := .nil
  holds := by simp [start, places]
  found := by simp [start]

theorem Invariant.rewrite (h : Invariant s) (hc : s.calls[n]? = some c) (hfits : (f c).Fits)
    (hpriority : (f c).priority = c.priority) (hcalls : s'.calls = s.calls.modify n f)
    (hcount : s'.foregroundPending + (if c.outstanding then 1 else 0) =
      s.foregroundPending + if (f c).outstanding then 1 else 0)
    (hdistinct : s'.placed.Nodup)
    (hplaces : ∀ p, p.1.number ≠ n → (p ∈ s'.places ↔ p ∈ s.places))
    (hitem : ∀ p ∈ s'.places, p.1.number = n → (f c).stage = p.2 ∧ c.priority = p.1.priority)
    (hfound : (f c).stage = .queued ∨ (f c).stage = .taken → n ∈ s'.placed) : Invariant s' where
  fits := by
    rw [hcalls]
    refine Rows.forall_modify h.fits fun a ha => ?_
    obtain rfl : a = c := Option.some.inj (ha.symm.trans hc)
    exact hfits
  counted := by
    have hmodify := Rows.countP_modify (p := Call.outstanding) (f := f) hc
    have hold := h.counted
    rw [hcalls]
    grind
  distinct := hdistinct
  holds := by
    intro p hp
    rw [hcalls, List.getElem?_modify]
    by_cases hn : p.1.number = n
    · obtain ⟨hstage, hprio⟩ := hitem p hp hn
      refine ⟨f c, ?_, hstage, hpriority.trans hprio⟩
      simp [hn, hc]
    · obtain ⟨d, hd, hrest⟩ := h.holds p ((hplaces p hn).mp hp)
      refine ⟨d, ?_, hrest⟩
      simp [Ne.symm hn, hd]
  found := by
    intro m d hd hstage
    rw [hcalls, List.getElem?_modify] at hd
    by_cases hm : n = m
    · subst hm
      rw [hc] at hd
      simp only [if_pos, Option.map_eq_map, Option.map_some, Option.some.injEq] at hd
      exact hfound (hd ▸ hstage)
    · simp only [if_neg hm, Option.map_eq_map, Option.map_id'] at hd
      obtain ⟨p, hp, rfl⟩ := List.mem_map.mp (h.found m d hd hstage)
      exact List.mem_map.mpr ⟨p, (hplaces p (Ne.symm hm)).mpr hp, rfl⟩

theorem Invariant.quiet (h : Invariant s) (hc : s.calls[n]? = some c) (hfits : (f c).Fits)
    (hpriority : (f c).priority = c.priority) (hstage : (f c).stage = c.stage)
    (hcalls : s'.calls = s.calls.modify n f) (hcount : s'.foregroundPending = s.foregroundPending)
    (hplaces : s'.places = s.places) : Invariant s' := by
  have hsame : (f c).outstanding = c.outstanding := by
    simp only [Call.outstanding, hpriority, hstage]
  have hplaced : s'.placed = s.placed := by rw [placed, hplaces, placed]
  refine h.rewrite hc hfits hpriority hcalls (by rw [hcount, hsame]) (hplaced ▸ h.distinct)
    (fun p _ => by rw [hplaces]) ?_ ?_
  · intro p hp hn
    rw [hplaces] at hp
    obtain ⟨d, hd, hstage', hprio⟩ := h.holds p hp
    obtain rfl : d = c := Option.some.inj ((hn ▸ hd).symm.trans hc)
    exact ⟨hstage.trans hstage', hprio⟩
  · intro hon
    rw [hstage] at hon
    rw [hplaced]
    exact h.found n c hc hon

theorem Invariant.add (h : Invariant s) (hfits : c.Fits)
    (hstage : c.stage ≠ .queued ∧ c.stage ≠ .taken) (hcalls : s'.calls = s.calls ++ [c])
    (hcount : s'.foregroundPending = s.foregroundPending + if c.outstanding then 1 else 0)
    (hplaces : s'.places = s.places) : Invariant s' where
  fits := by
    rw [hcalls]
    simpa [or_imp, forall_and] using ⟨h.fits, hfits⟩
  counted := by
    rw [hcalls, hcount, h.counted, List.countP_append, List.countP_singleton]
    split <;> simp
  distinct := by
    rw [placed, hplaces]
    exact h.distinct
  holds := by
    intro p hp
    obtain ⟨d, hd, hrest⟩ := h.holds p (hplaces ▸ hp)
    refine ⟨d, ?_, hrest⟩
    rw [hcalls, List.getElem?_append_left (List.getElem?_eq_some_iff.mp hd).1, hd]
  found := by
    intro m d hd hon
    rw [hcalls] at hd
    rw [placed, hplaces]
    rcases Nat.lt_or_ge m s.calls.length with hm | hm
    · rw [List.getElem?_append_left hm] at hd
      exact h.found m d hd hon
    · rw [List.getElem?_append_right hm] at hd
      obtain rfl := List.mem_singleton.mp (List.mem_of_getElem? hd)
      exact absurd hon (by simp [hstage])

-- ---------------------------------------------------------------------------
-- Every step keeps them
-- ---------------------------------------------------------------------------

theorem onCall_cases {P : RouterControlActor ν ε → Prop} {g : Call ν ε → RouterControlActor ν ε}
    (hcall : ∀ c, s.calls[n]? = some c → P (g c)) (hnone : P s) : P (s.onCall n g) := by
  unfold onCall
  split
  · rename_i c hc
    exact hcall c hc
  · exact hnone

theorem Invariant.fitsAt (h : Invariant s) (hc : s.calls[n]? = some c) : c.Fits :=
  h.fits c (List.mem_of_getElem? hc)

theorem Invariant.notPlaced (h : Invariant s) (hc : s.calls[n]? = some c)
    (hstage : c.stage = .announced) : n ∉ s.placed := by
  intro hn
  obtain ⟨p, hp, rfl⟩ := List.mem_map.mp hn
  obtain ⟨d, hd, hstage', -⟩ := h.holds p hp
  obtain rfl : d = c := Option.some.inj (hd.symm.trans hc)
  rw [hstage] at hstage'
  rcases List.mem_append.mp hp with hq | hw
  · obtain ⟨i, -, rfl⟩ := List.mem_map.mp hq
    cases hstage'
  · obtain ⟨⟨i, w⟩, -, rfl⟩ := List.mem_map.mp hw
    cases w <;> cases hstage'

theorem Invariant.lower (h : Invariant s) (hc : s.calls[n]? = some c)
    (hstage : c.stage = .announced ∨ c.stage = .queued) :
    lower c.priority s.foregroundPending + (if c.outstanding then 1 else 0) =
      s.foregroundPending := by
  have hout : c.outstanding = isForeground c.priority := by
    rcases hstage with hstage | hstage <;> simp [Call.outstanding, hstage]
  unfold RouterControlActor.lower
  rw [hout]
  split
  · rename_i hforeground
    have hpos : 0 < s.calls.countP Call.outstanding :=
      List.countP_pos_iff.mpr ⟨c, List.mem_of_getElem? hc, hout.trans hforeground⟩
    have hcounted := h.counted
    omega
  · omega

theorem Invariant.submit (h : Invariant s) (priority : Int) (label : String) :
    Invariant (s.step (.submit priority label)) := by
  simp only [step]
  split
  · refine h.add (c := .deferred priority label) ?_ (by simp [Call.deferred]) rfl ?_ rfl
    · exact ⟨by simp [Call.deferred, Phase.isBefore], rfl,
        fun e he => by cases he; exact .inl ⟨rfl, rfl⟩, nofun, nofun⟩
    · simp [Call.outstanding, Call.deferred]
  · refine h.add (c := { priority, label }) ⟨by simp [Phase.isBefore], rfl, nofun, nofun, nofun⟩
      ⟨nofun, nofun⟩ rfl ?_ rfl
    simp [Call.outstanding]

theorem Invariant.inner (h : Invariant s) (priority : Int) (label : String) (result : Except ε ν) :
    Invariant (s.step (.inner priority label result)) := by
  simp only [step]
  split
  · refine h.add (c := .inner priority label result) ?_ (by simp [Call.inner]) rfl ?_ rfl
    · refine ⟨by simp [Call.inner, Phase.isBefore], rfl, ?_, nofun, nofun⟩
      intro e he
      cases result <;> cases he
    · simp [Call.outstanding, Call.inner]
  · exact h

theorem Invariant.make (h : Invariant s) (n : Nat) : Invariant (s.step (.make n)) := by
  refine onCall_cases (fun c hc => ?_) h
  split
  · rename_i hphase
    have hfits := h.fitsAt hc
    have hstage : c.stage = .announced := hfits.before.mp (by rw [hphase]; rfl)
    refine h.quiet hc ?_ rfl rfl rfl rfl rfl
    exact ⟨by simp [Phase.isBefore, hstage], hfits.once, nofun, nofun, hfits.finished⟩
  · exact h

theorem Invariant.put (h : Invariant s) (n : Nat) : Invariant (s.step (.put n)) := by
  refine onCall_cases (fun c hc => ?_) h
  split
  · rename_i sequence hphase
    split
    · have hfits := h.fitsAt hc
      have hstage : c.stage = .announced := hfits.before.mp (by rw [hphase]; rfl)
      have hnew := h.notPlaced hc hstage
      generalize hs' : ({ s.change n _ with queue := _ } : RouterControlActor ν ε) = s'
      have hplaces : s'.places.Perm ((⟨c.priority, sequence, n⟩, .queued) :: s.places) := by
        rw [← hs']
        exact ((List.perm_orderedInsert _ _ _).map _).append_right _
      have hplaced : s'.placed.Perm (n :: s.placed) := hplaces.map _
      have hmem : ∀ p, p ∈ s'.places ↔ p = (⟨c.priority, sequence, n⟩, .queued) ∨ p ∈ s.places :=
        fun p => hplaces.mem_iff.trans List.mem_cons
      refine h.rewrite hc ?_ rfl (show s'.calls = _ by rw [← hs']; rfl) ?_ ?_ ?_ ?_ ?_
      · exact ⟨by simp [Phase.isBefore], by simp [hfits.once, hstage], nofun, fun _ => .inl rfl,
          fun hdone => absurd (hfits.finished hdone) (by simp [hstage])⟩
      · rw [← hs']
        simp [Call.outstanding, hstage, change]
      · exact hplaced.nodup_iff.mpr (List.nodup_cons.mpr ⟨hnew, h.distinct⟩)
      · intro p hp
        rw [hmem]
        exact or_iff_right fun heq => hp (by rw [heq])
      · intro p hp hn
        rcases (hmem p).mp hp with rfl | hold
        · exact ⟨rfl, rfl⟩
        · exact absurd (List.mem_map.mpr ⟨p, hold, hn⟩) hnew
      · exact fun _ => hplaced.mem_iff.mpr List.mem_cons_self
    · exact h
  · exact h

theorem Invariant.putFull (h : Invariant s) (n : Nat) : Invariant (s.step (.putFull n)) := by
  refine onCall_cases (fun c hc => ?_) h
  split
  · rename_i sequence hphase
    split
    · exact h
    · have hfits := h.fitsAt hc
      have hstage : c.stage = .announced := hfits.before.mp (by rw [hphase]; rfl)
      refine h.quiet hc ?_ rfl rfl rfl rfl rfl
      exact ⟨by simp [Phase.isBefore, hstage], hfits.once, nofun, nofun, hfits.finished⟩
  · exact h

theorem Invariant.reject (h : Invariant s) (n : Nat) : Invariant (s.step (.reject n)) := by
  refine onCall_cases (fun c hc => ?_) h
  split
  · rename_i hphase
    have hfits := h.fitsAt hc
    have hstage : c.stage = .announced := hfits.before.mp (by rw [hphase]; rfl)
    refine h.rewrite hc ?_ rfl rfl ?_ h.distinct (fun p _ => Iff.rfl) ?_ (by simp)
    · exact ⟨by simp [Phase.isBefore], by simp [hfits.once, hstage],
        fun e he => by cases he; exact .inr (.inl ⟨rfl, rfl⟩), nofun,
        fun hdone => absurd (hfits.finished hdone) (by simp [hstage])⟩
    · rw [h.lower hc (.inl hstage)]
      simp [Call.outstanding]
    · intro p hp hn
      exact absurd (List.mem_map.mpr ⟨p, hp, hn⟩) (h.notPlaced hc hstage)
  · exact h

theorem Invariant.timeout (h : Invariant s) (n : Nat) : Invariant (s.step (.timeout n)) := by
  refine onCall_cases (fun c hc => ?_) h
  split
  · rename_i hphase
    split
    · exact h
    · have hfits := h.fitsAt hc
      have hstage := hfits.waited hphase
      refine h.quiet hc ?_ rfl rfl rfl rfl rfl
      refine ⟨?_, hfits.once, ?_, nofun, hfits.finished⟩
      · rcases hstage with hstage | hstage | hstage <;> simp [Phase.isBefore, hstage]
      · intro e he
        cases he
        exact .inr (.inr ⟨rfl, hstage⟩)
  · exact h

theorem Invariant.wake (h : Invariant s) (n : Nat) : Invariant (s.step (.wake n)) := by
  refine onCall_cases (fun c hc => ?_) h
  split
  · rename_i hphase
    split
    · rename_i hdone
      have hfits := h.fitsAt hc
      have hstage := hfits.finished hdone
      refine h.quiet hc ?_ rfl rfl rfl rfl rfl
      refine ⟨by simp [Phase.isBefore, hstage], hfits.once, ?_, nofun, hfits.finished⟩
      intro e he
      unfold Call.outcome at he
      dsimp only at he
      split at he <;> cases he
    · exact h
  · exact h

theorem Invariant.get (h : Invariant s) : Invariant (s.step .get) := by
  simp only [step]
  split
  · rename_i item rest hworker hqueue
    have hplaces : ({ s with queue := rest, worker := some (item, .got) } :
        RouterControlActor ν ε).places.Perm s.places := by
      simp only [places, hworker, hqueue]
      simp [WorkerPhase.stage]
    exact {
      fits := h.fits
      counted := h.counted
      distinct := (hplaces.map _).nodup_iff.mpr h.distinct
      holds := fun p hp => h.holds p (hplaces.mem_iff.mp hp)
      found := fun m d hd hon => (hplaces.map _).mem_iff.mpr (h.found m d hd hon) }
  · exact h

section

variable {item : ActorItem} {at_ : WorkerPhase}

theorem Invariant.working (h : Invariant s) (hw : s.worker = some (item, at_)) :
    ∃ c, s.calls[item.number]? = some c ∧ c.stage = at_.stage ∧ c.priority = item.priority :=
  h.holds (item, at_.stage) (by simp [places, hw])

theorem Invariant.advance (h : Invariant s) (hw : s.worker = some (item, at_)) {p : WorkerPhase}
    (hw' : s'.worker = some (item, p)) (hqueue : s'.queue = s.queue)
    (hcalls : s'.calls = s.calls.modify item.number f)
    (hf : ∀ c, s.calls[item.number]? = some c → c.stage = at_.stage → c.priority = item.priority →
      (f c).Fits ∧ (f c).priority = c.priority ∧ (f c).stage = p.stage ∧
        s'.foregroundPending + (if c.outstanding then 1 else 0) =
          s.foregroundPending + if (f c).outstanding then 1 else 0) : Invariant s' := by
  obtain ⟨c, hc, hstage, hprio⟩ := h.working hw
  obtain ⟨hfits, hpriority, hnext, hcount⟩ := hf c hc hstage hprio
  have hplaced : s'.placed = s.placed := by simp [placed, places, hw, hw', hqueue]
  -- the item is the last one, and its number is not among the others
  have hothers : item.number ∉ s.queue.map ActorItem.number := by
    have hdistinct := h.distinct
    simp only [placed, places, hw, Option.toList_some, List.map_append, List.map_map,
      List.map_cons, List.map_nil] at hdistinct
    have hlast := (List.nodup_append.mp hdistinct).2.2
    exact fun hmem => hlast _ hmem _ List.mem_cons_self rfl
  have hmem : ∀ q, q ∈ s.places ↔ q ∈ s.queue.map (·, Stage.queued) ∨ q = (item, at_.stage) := by
    simp [places, hw]
  have hmem' : ∀ q, q ∈ s'.places ↔ q ∈ s.queue.map (·, Stage.queued) ∨ q = (item, p.stage) := by
    simp [places, hw', hqueue]
  refine h.rewrite hc hfits hpriority hcalls hcount (hplaced ▸ h.distinct) ?_ ?_ ?_
  · intro p hp
    rw [hmem, hmem', or_iff_left fun heq => hp (by rw [heq]), or_iff_left fun heq => hp (by rw [heq])]
  · intro p hp hn
    rcases (hmem' p).mp hp with hq | rfl
    · obtain ⟨i, hi, rfl⟩ := List.mem_map.mp hq
      exact absurd (List.mem_map.mpr ⟨i, hi, hn⟩) hothers
    · exact ⟨hnext, hprio⟩
  · intro
    rw [hplaced]
    exact List.mem_map.mpr ⟨(item, at_.stage), (hmem _).mpr (.inr rfl), rfl⟩

theorem Invariant.count (h : Invariant s) : Invariant (s.step .count) := by
  simp only [step]
  split
  · rename_i item hworker
    refine h.advance hworker (p := .counted) rfl rfl rfl fun c hc hstage hprio => ?_
    have hfits := h.fitsAt hc
    have hqueued : c.stage = .queued := hstage
    have hafter : c.phase.isBefore = false := by
      rw [Bool.eq_false_iff, ne_eq, hfits.before, hqueued]
      nofun
    refine ⟨⟨by simp [hafter], by simp [hfits.once, hqueued], ?_, fun _ => .inr (.inl rfl),
      fun hdone => absurd (hfits.finished hdone) (by simp [hqueued])⟩, rfl, rfl, ?_⟩
    · intro e he
      have hcase := hfits.refused e he
      simp only [Stage.After, hqueued, reduceCtorEq, and_false, false_or] at hcase
      exact .inr (.inr ⟨hcase.1, .inr (.inl rfl)⟩)
    · have hlower := h.lower hc (.inr hqueued)
      rw [hprio] at hlower
      simp only [hlower]
      simp [Call.outstanding]
  · exact h

theorem Invariant.call (h : Invariant s) : Invariant (s.step .call) := by
  simp only [step]
  split
  · rename_i item hworker
    refine h.advance hworker (p := .running) rfl rfl rfl fun c hc hstage hprio => ?_
    have hfits := h.fitsAt hc
    have htaken : c.stage = .taken := hstage
    have hafter : c.phase.isBefore = false := by
      rw [Bool.eq_false_iff, ne_eq, hfits.before, htaken]
      nofun
    refine ⟨⟨by simp [hafter], by simp [hfits.once, htaken], ?_, fun _ => .inr (.inr rfl),
      fun _ => rfl⟩, rfl, rfl, ?_⟩
    · intro e he
      have hcase := hfits.refused e he
      simp only [Stage.After, htaken, reduceCtorEq, and_false, false_or] at hcase
      exact .inr (.inr ⟨hcase.1, .inr (.inr rfl)⟩)
    · simp [Call.outstanding, htaken, change]
  · exact h

theorem hold_fits {result : Except ε ν} (h : c.Fits) : (c.hold result).Fits := by
  cases result <;> exact ⟨h.before, h.once, h.refused, h.waited, h.finished⟩

theorem Invariant.finish (h : Invariant s) (result : Except ε ν) :
    Invariant (s.step (.finish result)) := by
  simp only [step]
  split
  · rename_i item hworker
    refine h.advance hworker (p := .leaving) rfl rfl rfl fun c hc hstage hprio => ?_
    refine ⟨hold_fits (h.fitsAt hc), ?_, ?_, ?_⟩
    · cases result <;> rfl
    · cases result <;> exact hstage
    · cases result <;> rfl
  · exact h

theorem Invariant.clear (h : Invariant s) : Invariant (s.step .clear) := by
  simp only [step]
  split
  · rename_i item hworker
    exact ⟨h.fits, h.counted, by simpa [placed, places, hworker] using h.distinct,
      fun p hp => h.holds p (by simpa [places, hworker, WorkerPhase.stage] using hp),
      fun m d hd hon => by simpa [placed, places, hworker] using h.found m d hd hon⟩
  · exact h

theorem Invariant.setDone (h : Invariant s) : Invariant (s.step .setDone) := by
  simp only [step]
  split
  · rename_i item hworker
    obtain ⟨c, hc, hstage, hprio⟩ := h.working hworker
    have hfits := h.fitsAt hc
    have hstarted : c.stage = .started := hstage
    have hplaces : s.places = s.queue.map (·, Stage.queued) ++ [(item, .started)] := by
      simp [places, hworker, WorkerPhase.stage]
    generalize hs' : ({ s.change item.number _ with worker := _ } : RouterControlActor ν ε) = s'
    have hplaces' : s'.places = s.queue.map (·, Stage.queued) := by
      rw [← hs']
      simp [places, change]
    have hdistinct := h.distinct
    rw [placed, hplaces, List.map_append, List.nodup_append] at hdistinct
    refine h.rewrite hc (f := fun c => { c with done := true }) ?_ rfl (by rw [← hs']; rfl)
      (by rw [← hs']; rfl) (by rw [placed, hplaces']; exact hdistinct.1) ?_ ?_ (by simp [hstarted])
    · exact ⟨hfits.before, hfits.once, hfits.refused, hfits.waited, fun _ => hstarted⟩
    · intro p hp
      rw [hplaces, hplaces', List.mem_append, List.mem_singleton]
      exact (or_iff_left fun heq => hp (by rw [heq])).symm
    · intro p hp hn
      rw [hplaces'] at hp
      exact absurd hn (hdistinct.2.2 _ (List.mem_map_of_mem hp) _ List.mem_cons_self)
  · exact h

end

theorem Invariant.next (h : Invariant s) (e : Event ν ε) : Invariant (s.step e) := by
  cases e with
  | submit priority label => exact h.submit priority label
  | make n => exact h.make n
  | put n => exact h.put n
  | putFull n => exact h.putFull n
  | reject n => exact h.reject n
  | timeout n => exact h.timeout n
  | wake n => exact h.wake n
  | get => exact h.get
  | count => exact h.count
  | call => exact h.call
  | inner priority label result => exact h.inner priority label result
  | finish result => exact h.finish result
  | clear => exact h.clear
  | setDone => exact h.setDone

theorem Invariant.after (h : Invariant s) (es : List (Event ν ε)) : Invariant (run step s es) :=
  run_invariant h fun _ e h => h.next e

end RouterControlActor

end LabProbe.Router.Control
