import LabProbe.Lib.Latest
import LabProbe.Lib.Rows
import LabProbe.Lib.Run
import LabProbe.Router.Config
import LabProbe.Router.Tasks

/-!
# Configuration and task frames over the WebSocket

`HubRealtimeWebSocketService`, with the two services that publish through it:
`accept` of the configuration snapshots, and the task manager, which takes a
snapshot of the task when it publishes. Both change their state under a lock
and publish after it. A frame goes into the queue of every client that is
registered; a client first gets the snapshots, past its queue, and then what
the queue holds.

The client is any one of them, whose connection stays open. A publish is
under way until it has reached the client: it tries to put its frame, and
where the queue is full it drops the oldest frame and tries once more. Taking
a frame from the queue and sending it are one step. Frames of the router, the
devices and the agent take part in the queue only.
-/

namespace LabProbe.Realtime.WebSocket

open Py Py.Json Runs Router

inductive Topic where
  | config (resource : Resource)
  | task (kind : TaskKind)
  deriving DecidableEq

inductive Carried where
  | config (revision : Nat) (data : Json)
  | task (state : TaskState)
  deriving DecidableEq

inductive Frame (δ : Type) where
  | config (resource : Resource) (row : Row δ)
  | task (kind : TaskKind) (payload : Entries)
  | other
  deriving DecidableEq

inductive Publish (δ : Type) where
  | snapshot (kind : TaskKind)
  | put (frame : Frame δ)
  | drop (frame : Frame δ)
  | again (frame : Frame δ)
  deriving DecidableEq

/-- How far the client's thread is; `tasks` are the kinds whose snapshots it
has still to send. -/
inductive Stage where
  | offline | registered
  | tasks (left : List TaskKind)
  deriving DecidableEq

structure Sys (δ : Type) where
  config : ConfigSync δ
  tasks : TaskKind → Entries
  publishes : List (Publish δ) := []
  stage : Stage := .offline
  queue : List (Frame δ) := []
  received : List (Frame δ) := []

inductive Event where
  | accept (now : Nat) (resource : Resource) (data : Json) (source : Source)
  | update (now : Int) (kind : TaskKind) (changes : Entries)
  | log (now : Int) (kind : TaskKind) (line : String)
  | begin (now : Int) (kind : TaskKind) (taskId stageText : String)
  | other
  | advance (now : Int) (publish : Nat)
  | register
  | sendConfigs
  | sendTask (now : Int)
  | drain

variable {δ : Type}

def Frame.carried : Frame δ → Option (Topic × Carried)
  | .config resource row => some (.config resource, .config row.revision row.data)
  | .task kind payload => some (.task kind, .task (taskState payload))
  | .other => none

def carried (frames : List (Frame δ)) : List (Topic × Carried) := frames.filterMap Frame.carried

def lastOf (t : Topic) (frames : List (Frame δ)) : Option Carried := Latest.last t (carried frames)

-- ---------------------------------------------------------------------------
-- The system
-- ---------------------------------------------------------------------------

def clientQueueSize : Nat := 8

def Sys.publish (s : Sys δ) (p : Publish δ) : Sys δ := { s with publishes := s.publishes ++ [p] }

/-- A task changes, and the manager publishes it. -/
def Sys.change (s : Sys δ) (kind : TaskKind) (task : Entries) : Sys δ :=
  { s with tasks := Function.update s.tasks kind task }.publish (.snapshot kind)

/-- `frames`. -/
def configFrames (rows : List (Resource × Row δ)) : List (Frame δ) :=
  (rows.filter fun e => e.2.data != .null).map fun e => .config e.1 e.2

/-- The frame of a kind among the initial snapshots, if there is anything to tell. -/
def taskFrames (kind : TaskKind) (payload : Entries) : List (Frame δ) :=
  if !isIdle payload || (get payload "result").truthy || (get payload "log").truthy then
    [.task kind payload]
  else []

def Sys.advance (s : Sys δ) (now : Int) (i : Nat) : Publish δ → Sys δ
  | .snapshot kind =>
    { s with publishes := s.publishes.set i (.put (.task kind (snapshotTask now (s.tasks kind)))) }
  | .put frame =>
    if s.stage = .offline then { s with publishes := s.publishes.eraseIdx i }
    else if s.queue.length < clientQueueSize then
      { s with queue := s.queue ++ [frame], publishes := s.publishes.eraseIdx i }
    else { s with publishes := s.publishes.set i (.drop frame) }
  | .drop frame => { s with queue := s.queue.tail, publishes := s.publishes.set i (.again frame) }
  | .again frame =>
    if s.queue.length < clientQueueSize then
      { s with queue := s.queue ++ [frame], publishes := s.publishes.eraseIdx i }
    else { s with publishes := s.publishes.eraseIdx i }

section
variable [DecidableEq δ] (hash : Json → δ)

def Sys.step (s : Sys δ) : Event → Sys δ
  | .accept now resource data source =>
    let (config, frame) := s.config.accept hash now resource data source
    { s with config := config
             publishes := s.publishes ++ (frame.map fun row => .put (.config resource row)).toList }
  | .update now kind changes => s.change kind (updateTask now changes (s.tasks kind))
  | .log now kind line =>
    if strip line = "" then s else s.change kind (appendLog now (strip line) (s.tasks kind))
  | .begin now kind taskId stageText =>
    match beginTask now kind taskId stageText (s.tasks kind) with
    | some task => s.change kind task
    | none => s
  | .other => s.publish (.put .other)
  | .advance now i =>
    match s.publishes[i]? with
    | some p => s.advance now i p
    | none => s
  | .register => if s.stage = .offline then { s with stage := .registered } else s
  | .sendConfigs =>
    if s.stage = .registered then
      { s with stage := .tasks taskKinds, received := s.received ++ configFrames s.config.rows }
    else s
  | .sendTask now =>
    match s.stage with
    | .tasks (kind :: left) =>
      { s with stage := .tasks left
               received := s.received ++ taskFrames kind (snapshotTask now (s.tasks kind)) }
    | _ => s
  | .drain =>
    match s.stage, s.queue with
    | .tasks [], frame :: queue => { s with queue := queue, received := s.received ++ [frame] }
    | _, _ => s

end

/-- The Hub after a start, with the documents that were stored. -/
def start (revision : Nat) (rows : List (Resource × Row δ)) (stored : TaskKind → Entries) : Sys δ where
  config := .load revision (Dict.ofEntries rows)
  tasks kind := loadTask kind (stored kind)

/-- The client has the snapshots and no frame is on its way. -/
def Sys.Settled (s : Sys δ) : Prop := s.stage = .tasks [] ∧ s.publishes = [] ∧ s.queue = []

/-- The last frame of each resource carries what the Hub stores. A resource
without data is none of the snapshots, so the client may have no frame of it. -/
def Sys.ConfigsCurrent (s : Sys δ) : Prop :=
  ∀ resource row, Dict.get? s.config.rows resource = some row →
    lastOf (.config resource) s.received = some (.config row.revision row.data) ∨
      row.data = .null ∧ lastOf (.config resource) s.received = none

/-- The last frame of each kind that is not idle carries what the task does. -/
def Sys.TasksCurrent (s : Sys δ) : Prop :=
  ∀ kind, isIdle (s.tasks kind) = false →
    lastOf (.task kind) s.received = some (.task (taskState (s.tasks kind)))

-- ---------------------------------------------------------------------------
-- What is current
-- ---------------------------------------------------------------------------

/-- What the Hub has to say about a topic. -/
def Sys.current (s : Sys δ) : Topic → Option Carried
  | .config resource =>
    (Dict.get? s.config.rows resource).map fun row => .config row.revision row.data
  | .task kind => some (.task (taskState (s.tasks kind)))

def Publish.Fresh (current : Topic → Option Carried) (t : Topic) : Publish δ → Prop
  | .snapshot kind => t = .task kind
  | .put frame | .drop frame | .again frame =>
    frame.carried.any fun e => e.1 = t ∧ current t = some e.2

def Sys.Unread (s : Sys δ) (t : Topic) : Prop :=
  match s.stage, t with
  | .tasks _, .config _ => False
  | .tasks left, .task kind => kind ∈ left
  | _, _ => True

def Sys.Upcoming (s : Sys δ) (i : Nat) (t : Topic) : Prop :=
  ∃ p ∈ s.publishes.eraseIdx i, p.Fresh s.current t

/-- The frame is current, or what is current comes after it. -/
def Sys.UpToDate (s : Sys δ) (i : Nat) (frame : Frame δ) : Prop :=
  ∀ e ∈ frame.carried, s.current e.1 = some e.2 ∨ s.Upcoming i e.1

/-- A frame that is out of date is put only while a publish of what is
current is under way. A full queue drops only what a later frame, a publish
or the snapshot replaces, and no current frame is given up. -/
def Sys.KeepsFrame (s : Sys δ) (i : Nat) : Publish δ → Prop
  | .snapshot _ => True
  | .put frame => s.stage = .offline ∨ ¬s.queue.length < clientQueueSize ∨ s.UpToDate i frame
  | .drop _ => ∀ oldest ∈ s.queue.head?, ∀ e ∈ oldest.carried,
    s.Unread e.1 ∨ lastOf e.1 s.queue.tail ≠ none ∨ ∃ p ∈ s.publishes, p.Fresh s.current e.1
  | .again frame =>
    if s.queue.length < clientQueueSize then s.UpToDate i frame
    else ∀ e ∈ frame.carried, s.current e.1 = some e.2 → s.Upcoming i e.1

def Sys.KeepsCurrent (s : Sys δ) : Event → Prop
  | .advance _ i => ∀ p ∈ s.publishes[i]?, s.KeepsFrame i p
  | _ => True

instance (current : Topic → Option Carried) (t : Topic) (p : Publish δ) :
    Decidable (p.Fresh current t) := by
  unfold Publish.Fresh
  exact match p with
    | .snapshot _ | .put _ | .drop _ | .again _ => inferInstance

instance (s : Sys δ) (t : Topic) : Decidable (s.Unread t) := by
  unfold Sys.Unread
  exact match s.stage, t with
    | .tasks _, .config _ | .tasks _, .task _ | .offline, _ | .registered, _ => inferInstance

instance (s : Sys δ) (i : Nat) (t : Topic) : Decidable (s.Upcoming i t) := by
  unfold Sys.Upcoming
  infer_instance

instance (s : Sys δ) (i : Nat) (frame : Frame δ) : Decidable (s.UpToDate i frame) := by
  unfold Sys.UpToDate
  infer_instance

instance (s : Sys δ) (i : Nat) (p : Publish δ) : Decidable (s.KeepsFrame i p) := by
  unfold Sys.KeepsFrame
  exact match p with
    | .snapshot _ | .put _ | .drop _ | .again _ => inferInstance

instance (s : Sys δ) (e : Event) : Decidable (s.KeepsCurrent e) := by
  unfold Sys.KeepsCurrent
  exact match e with
    | .advance .. | .accept .. | .update .. | .log .. | .begin .. | .other | .register
    | .sendConfigs | .sendTask .. | .drain => inferInstance

-- ---------------------------------------------------------------------------
-- The last word on a topic
-- ---------------------------------------------------------------------------

variable {s s' : Sys δ} {t : Topic} {current current' : Topic → Option Carried}

@[simp] theorem lastOf_nil : lastOf t ([] : List (Frame δ)) = none := rfl

@[simp] theorem lastOf_append (l l' : List (Frame δ)) :
    lastOf t (l ++ l') = (lastOf t l').or (lastOf t l) := by
  simp [lastOf, carried, List.filterMap_append]

theorem lastOf_singleton (frame : Frame δ) :
    lastOf t [frame] = (frame.carried.filter fun e => e.1 = t).map Prod.snd := by
  cases h : frame.carried with
  | none => simp [lastOf, carried, h]
  | some e =>
    obtain ⟨t', c⟩ := e
    by_cases ht : t' = t <;> simp [lastOf, carried, h, ht]

theorem lastOf_other {frame : Frame δ} (h : ¬∃ c, frame.carried = some (t, c)) :
    lastOf t [frame] = none := by
  rw [lastOf_singleton, Option.map_eq_none_iff, Option.filter_eq_none_iff]
  rintro ⟨t', c⟩ hc ht
  obtain rfl : t' = t := of_decide_eq_true ht
  exact h ⟨c, hc⟩

theorem carried_configFrames (rows : List (Resource × Row δ)) :
    carried (configFrames rows) = (rows.filter fun e => e.2.data != .null).map
      fun e => (Topic.config e.1, Carried.config e.2.revision e.2.data) := by
  simp [carried, configFrames, List.filterMap_map, Function.comp_def, Frame.carried]

theorem lastOf_configFrames {rows : List (Resource × Row δ)} (h : (Dict.keys rows).Nodup)
    (resource : Resource) : lastOf (.config resource) (configFrames rows) =
      ((Dict.get? rows resource).filter fun row => row.data != .null).map
        fun row => .config row.revision row.data := by
  have hinj : Function.Injective Topic.config := fun a b hab => by cases hab; rfl
  have hkeys := (Dict.nodup_keys_filter (fun e => e.2.data != .null) h).map hinj
  have hmap := Dict.get?_map_keys hinj (fun row : Row δ => Carried.config row.revision row.data)
    (rows.filter fun e => e.2.data != .null) resource
  rw [lastOf, carried_configFrames, Latest.last_eq_get?]
  · rw [hmap, Dict.get?_filter _ h]
  · simpa [Dict.keys, Function.comp_def] using hkeys

theorem lastOf_configFrames_task (rows : List (Resource × Row δ)) (kind : TaskKind) :
    lastOf (.task kind) (configFrames rows) = none := by
  rw [lastOf, carried_configFrames]
  exact Latest.last_eq_none (by simp [Dict.keys])

theorem lastOf_taskFrames_of_ne {kind : TaskKind} (h : t ≠ .task kind) (payload : Entries) :
    lastOf t (taskFrames kind payload : List (Frame δ)) = none := by
  unfold taskFrames
  split
  · simp [lastOf_singleton, Frame.carried, Ne.symm h]
  · rfl

theorem lastOf_taskFrames (kind : TaskKind) (payload : Entries) : isIdle payload = true ∨
    lastOf (.task kind) (taskFrames kind payload : List (Frame δ)) =
      some (.task (taskState payload)) := by
  cases h : isIdle payload with
  | true => exact .inl rfl
  | false => simp [taskFrames, h, lastOf_singleton, Frame.carried]

-- ---------------------------------------------------------------------------
-- What the client shows
-- ---------------------------------------------------------------------------

/-- Nothing need be shown: a resource without data, or a task that is idle. -/
def Silent (shown : Option Carried) : Option Carried → Prop
  | none => True
  | some (.config _ data) => data = .null ∧ shown = none
  | some (.task state) => state.state = .str "idle"

def Sys.Fed (s : Sys δ) (t : Topic) : Prop :=
  (∃ p ∈ s.publishes, p.Fresh s.current t) ∨
  (s.Unread t ∧ (lastOf t s.queue = none ∨ lastOf t s.queue = s.current t)) ∨
  (¬s.Unread t ∧ (lastOf t (s.received ++ s.queue) = s.current t ∨
    Silent (lastOf t (s.received ++ s.queue)) (s.current t)))

def Publish.isFirst : Publish δ → Bool
  | .snapshot _ | .put _ => true
  | _ => false

structure Wired (s : Sys δ) : Prop where
  rows : (Dict.keys s.config.rows).Nodup
  left : ∀ left, s.stage = .tasks left → left.Nodup
  offline : s.stage = .offline → s.queue = []
  unread : ∀ t, s.Unread t → lastOf t s.received = none
  first : s.stage = .offline → ∀ p ∈ s.publishes, p.isFirst
  fed : ∀ t, s.Fed t

theorem wired_start (revision : Nat) (rows : List (Resource × Row δ))
    (stored : TaskKind → Entries) : Wired (start revision rows stored) where
  rows := Dict.nodup_keys_ofEntries rows
  left left h := by cases h
  offline _ := rfl
  unread t _ := rfl
  first _ p hp := by cases hp
  fed t := .inr (.inl ⟨trivial, .inl rfl⟩)

theorem fresh_congr (h : current t = current' t) (p : Publish δ) :
    p.Fresh current t ↔ p.Fresh current' t := by
  cases p with
  | snapshot kind => exact Iff.rfl
  | put frame | drop frame | again frame => simp only [Publish.Fresh, h]

theorem fresh_put {frame : Frame δ} :
    (Publish.put frame).Fresh current t ↔ ∃ c, frame.carried = some (t, c) ∧ current t = some c := by
  simp only [Publish.Fresh, Option.any_eq_true]
  constructor
  · rintro ⟨⟨t', c⟩, he, h⟩
    obtain ⟨rfl, hc⟩ := of_decide_eq_true h
    exact ⟨c, he, hc⟩
  · rintro ⟨c, he, hc⟩
    exact ⟨(t, c), he, decide_eq_true ⟨rfl, hc⟩⟩

theorem Sys.Fed.mono (h : s.Fed t) (hcurrent : s'.current t = s.current t)
    (hpublishes : ∀ p ∈ s.publishes, p.Fresh s.current t →
      ∃ p' ∈ s'.publishes, p'.Fresh s.current t)
    (hstage : s'.stage = s.stage) (hqueue : s'.queue = s.queue)
    (hreceived : s'.received = s.received) : s'.Fed t := by
  have hunread : s'.Unread t ↔ s.Unread t := by simp only [Sys.Unread, hstage]
  rcases h with ⟨p, hp, hf⟩ | h | h
  · obtain ⟨p', hp', hf'⟩ := hpublishes p hp hf
    exact .inl ⟨p', hp', (fresh_congr hcurrent p').mpr hf'⟩
  · exact .inr (.inl (by rwa [hunread, hqueue, hcurrent]))
  · exact .inr (.inr (by rwa [hunread, hqueue, hreceived, hcurrent]))

-- ---------------------------------------------------------------------------
-- What a step keeps
-- ---------------------------------------------------------------------------

theorem Wired.publish (h : Wired s) {config : ConfigSync δ} {tasks : TaskKind → Entries}
    {new : List (Publish δ)} (hrows : (Dict.keys config.rows).Nodup)
    (hfirst : ∀ p ∈ new, p.isFirst)
    (hfed : ∀ t, ({ s with config := config, tasks := tasks } : Sys δ).current t = s.current t ∨
      ∃ p ∈ new, p.Fresh ({ s with config := config, tasks := tasks } : Sys δ).current t) :
    Wired { s with config := config, tasks := tasks, publishes := s.publishes ++ new } where
  rows := hrows
  left := h.left
  offline := h.offline
  unread := h.unread
  first ho p hp := (List.mem_append.mp hp).elim (h.first ho p) (hfirst p)
  fed t := by
    rcases hfed t with hsame | ⟨p, hp, hf⟩
    · exact (h.fed t).mono hsame (fun p hp hf => ⟨p, List.mem_append_left _ hp, hf⟩) rfl rfl rfl
    · exact .inl ⟨p, List.mem_append_right _ hp, hf⟩

theorem Wired.change (h : Wired s) (kind : TaskKind) (task : Entries) :
    Wired (s.change kind task) := by
  refine h.publish h.rows (fun p hp => by simp [List.mem_singleton.mp hp, Publish.isFirst])
    fun t => ?_
  by_cases ht : t = .task kind
  · exact .inr ⟨_, List.mem_cons_self, ht⟩
  · left
    cases t with
    | config resource => rfl
    | task kind' =>
      have hne : kind' ≠ kind := fun hk => ht (congrArg _ hk)
      simp only [Sys.current, Function.update_of_ne hne]

theorem Wired.accept [DecidableEq δ] (hash : Json → δ) (h : Wired s) (now : Nat)
    (resource : Resource) (data : Json) (source : Source) :
    Wired (s.step hash (.accept now resource data source)) := by
  have hfirst : ∀ frame : Option (Row δ),
      ∀ p ∈ (frame.map fun row => Publish.put (.config resource row)).toList, p.isFirst := by
    intro frame p hp
    obtain ⟨row, -, rfl⟩ := Option.map_eq_some_iff.mp (Option.mem_toList.mp hp)
    rfl
  rcases accept_cases hash s.config now resource data source with ⟨hsame, -⟩ | ⟨row, -, -, heq⟩
  · simp only [Sys.step, hsame]
    exact h.publish h.rows (hfirst _) fun t => .inl rfl
  · simp only [Sys.step, heq]
    refine h.publish (Dict.nodup_keys_set _ _ h.rows) (hfirst _) fun t => ?_
    by_cases ht : t = .config resource
    · subst ht
      exact .inr ⟨_, List.mem_cons_self, fresh_put.mpr ⟨_, rfl, by simp [Sys.current]⟩⟩
    · left
      cases t with
      | config resource' =>
        have hne : resource ≠ resource' := fun hr => ht (congrArg _ hr.symm)
        simp only [Sys.current, Dict.get?_set, if_neg hne]
      | task kind => rfl

theorem Wired.snapshot (h : Wired s) (now : Int) {i : Nat} {kind : TaskKind}
    (hi : s.publishes[i]? = some (.snapshot kind)) : Wired (s.advance now i (.snapshot kind)) where
  rows := h.rows
  left := h.left
  offline := h.offline
  unread := h.unread
  first ho p hp := by
    rcases List.mem_or_eq_of_mem_set hp with hp | rfl
    · exact h.first ho p hp
    · rfl
  fed t := by
    refine (h.fed t).mono rfl (fun p hp hf => ?_) rfl rfl rfl
    rcases Rows.mem_set_or _ hi hp with rfl | hp
    · obtain rfl : t = .task kind := hf
      refine ⟨_, Rows.mem_set_self _ hi, fresh_put.mpr ⟨_, rfl, ?_⟩⟩
      rw [taskState_snapshot]
      rfl
    · exact ⟨p, hp, hf⟩

theorem Wired.forget (h : Wired s) (i : Nat) (hoffline : s.stage = .offline) :
    Wired { s with publishes := s.publishes.eraseIdx i } where
  rows := h.rows
  left := h.left
  offline := h.offline
  unread := h.unread
  first ho q hq := h.first ho q (List.mem_of_mem_eraseIdx hq)
  fed t := by
    have hunread : s.Unread t := by simp [Sys.Unread, hoffline]
    exact .inr (.inl ⟨hunread, .inl (by simp [h.offline hoffline])⟩)

theorem Wired.replace (h : Wired s) {i : Nat} {p p' : Publish δ} (hi : s.publishes[i]? = some p)
    (honline : s.stage ≠ .offline) (hfresh : ∀ t, p.Fresh s.current t → p'.Fresh s.current t) :
    Wired { s with publishes := s.publishes.set i p' } where
  rows := h.rows
  left := h.left
  offline := h.offline
  unread := h.unread
  first ho := absurd ho honline
  fed t := by
    refine (h.fed t).mono rfl (fun q hq hf => ?_) rfl rfl rfl
    rcases Rows.mem_set_or p' hi hq with rfl | hq
    · exact ⟨p', Rows.mem_set_self p' hi, hfresh t hf⟩
    · exact ⟨q, hq, hf⟩

/-- Without a publish whose frame is current, another brings what is current. -/
theorem Wired.remove (h : Wired s) {i : Nat} {p : Publish δ} (hi : s.publishes[i]? = some p)
    (hfresh : ∀ t, p.Fresh s.current t → s.Upcoming i t) :
    Wired { s with publishes := s.publishes.eraseIdx i } where
  rows := h.rows
  left := h.left
  offline := h.offline
  unread := h.unread
  first ho q hq := h.first ho q (List.mem_of_mem_eraseIdx hq)
  fed t := by
    refine (h.fed t).mono rfl (fun q hq hf => ?_) rfl rfl rfl
    rcases Rows.mem_eraseIdx_or hi hq with rfl | hq
    · exact hfresh t hf
    · exact ⟨q, hq, hf⟩

theorem Wired.enqueue (h : Wired s) {i : Nat} {p : Publish δ} {frame : Frame δ}
    (hi : s.publishes[i]? = some p) (honline : s.stage ≠ .offline)
    (hfresh : ∀ t, p.Fresh s.current t → ∃ c, frame.carried = some (t, c))
    (hcurrent : s.UpToDate i frame) :
    Wired { s with queue := s.queue ++ [frame], publishes := s.publishes.eraseIdx i } := by
  refine ⟨h.rows, h.left, fun ho => absurd ho honline, h.unread, fun ho => absurd ho honline,
    fun t => ?_⟩
  by_cases hmine : ∃ c, frame.carried = some (t, c)
  · obtain ⟨c, hc⟩ := hmine
    rcases hcurrent _ hc with hsame | hupcoming
    · have hlast : lastOf t [frame] = s.current t := by
        rw [hsame]
        simp [lastOf_singleton, hc]
      have hqueue : lastOf t (s.queue ++ [frame]) = s.current t := by
        rw [lastOf_append, hlast, hsame, Option.some_or]
      by_cases hunread : s.Unread t
      · exact .inr (.inl ⟨hunread, .inr hqueue⟩)
      · refine .inr (.inr ⟨hunread, .inl (?_ : _ = s.current t)⟩)
        rw [lastOf_append, hqueue, hsame, Option.some_or]
    · exact .inl hupcoming
  · have hqueue : lastOf t (s.queue ++ [frame]) = lastOf t s.queue := by
      rw [lastOf_append, lastOf_other hmine, Option.none_or]
    rcases h.fed t with ⟨q, hq, hf⟩ | ⟨hunread, hq⟩ | ⟨hunread, hq⟩
    · rcases Rows.mem_eraseIdx_or hi hq with rfl | hq
      · exact absurd (hfresh t hf) hmine
      · exact .inl ⟨q, hq, hf⟩
    · rw [← hqueue] at hq
      exact .inr (.inl ⟨hunread, hq⟩)
    · rw [lastOf_append, ← hqueue, ← lastOf_append] at hq
      exact .inr (.inr ⟨hunread, hq⟩)

theorem Wired.dropOldest (h : Wired s)
    (hk : ∀ oldest ∈ s.queue.head?, ∀ e ∈ oldest.carried, s.Unread e.1 ∨
      lastOf e.1 s.queue.tail ≠ none ∨ ∃ p ∈ s.publishes, p.Fresh s.current e.1) :
    Wired { s with queue := s.queue.tail } := by
  refine ⟨h.rows, h.left, fun ho => by simp [h.offline ho], h.unread, h.first, fun t => ?_⟩
  cases hqueue : s.queue with
  | nil =>
    have hsame : { s with queue := [] } = s := by rw [← hqueue]
    exact hsame ▸ h.fed t
  | cons oldest queue =>
    simp only [hqueue, List.head?_cons, List.tail_cons, Option.mem_some_iff, forall_eq'] at hk
    have hall : lastOf t s.queue = (lastOf t queue).or (lastOf t [oldest]) := by
      rw [hqueue, ← List.singleton_append, lastOf_append]
    rcases h.fed t with hp | ⟨hunread, hq⟩ | ⟨hunread, hq⟩
    · exact .inl hp
    · refine .inr (.inl ⟨hunread, ?_⟩)
      cases hlast : lastOf t queue with
      | none => exact .inl hlast
      | some c =>
        rw [hall, hlast, Option.some_or] at hq
        exact .inr (hlast.trans (hq.resolve_left (Option.some_ne_none c)))
    · rw [lastOf_append, hall] at hq
      suffices hor : (lastOf t queue).or (lastOf t [oldest]) = lastOf t queue ∨
          ∃ p ∈ s.publishes, p.Fresh s.current t by
        rcases hor with hor | hp
        · rw [hor, ← lastOf_append] at hq
          exact .inr (.inr ⟨hunread, hq⟩)
        · exact .inl hp
      by_cases hmine : ∃ c, oldest.carried = some (t, c)
      · obtain ⟨c, hc⟩ := hmine
        rcases hk _ hc with hu | hlater | hp
        · exact absurd hu hunread
        · obtain ⟨c', hc'⟩ := Option.ne_none_iff_exists'.mp hlater
          exact .inl (by rw [hc', Option.some_or])
        · exact .inr hp
      · exact .inl (by rw [lastOf_other hmine, Option.or_none])

theorem Wired.advance (h : Wired s) (now : Int) {i : Nat} {p : Publish δ}
    (hi : s.publishes[i]? = some p) (hk : s.KeepsFrame i p) : Wired (s.advance now i p) := by
  have honline : p.isFirst = false → s.stage ≠ .offline := fun hf ho => by
    simp [h.first ho p (List.mem_of_getElem? hi)] at hf
  cases p with
  | snapshot kind => exact h.snapshot now hi
  | put frame =>
    have hcarried : ∀ t, (Publish.put frame).Fresh s.current t → ∃ c, frame.carried = some (t, c) :=
      fun t hf => (fresh_put.mp hf).imp fun _ => And.left
    simp only [Sys.advance]
    split_ifs with hoffline hroom
    · exact h.forget i hoffline
    · exact h.enqueue hi hoffline hcarried ((hk.resolve_left hoffline).resolve_left (not_not.mpr hroom))
    · exact h.replace hi hoffline fun t hf => hf
  | drop frame => exact (h.dropOldest hk).replace hi (honline rfl) fun t hf => hf
  | again frame =>
    simp only [Sys.advance]
    simp only [Sys.KeepsFrame] at hk
    split_ifs at hk ⊢ with hroom
    · exact h.enqueue hi (honline rfl) (fun t hf => (fresh_put.mp hf).imp fun _ => And.left) hk
    · refine h.remove hi fun t hf => ?_
      obtain ⟨c, hc, hcurrent⟩ := fresh_put.mp hf
      exact hk _ hc hcurrent

theorem Wired.register (h : Wired s) (hstage : s.stage = .offline) :
    Wired { s with stage := .registered } := by
  have hunread : ∀ t, s.Unread t := fun t => by simp [Sys.Unread, hstage]
  refine ⟨h.rows, fun left hl => (by cases hl), fun ho => (by cases ho),
    fun t _ => h.unread t (hunread t), fun ho => (by cases ho), fun t => ?_⟩
  rcases h.fed t with hp | ⟨-, hq⟩ | ⟨hread, -⟩
  · exact .inl hp
  · exact .inr (.inl ⟨trivial, hq⟩)
  · exact absurd (hunread t) hread

theorem shows_read {received sent queue : List (Frame δ)} {c : Option Carried}
    (hnone : lastOf t received = none) (hq : lastOf t queue = none ∨ lastOf t queue = c)
    (hsent : lastOf t sent = c ∨ Silent (lastOf t sent) c) :
    lastOf t (received ++ sent ++ queue) = c ∨ Silent (lastOf t (received ++ sent ++ queue)) c := by
  have hall : lastOf t (received ++ sent ++ queue) = (lastOf t queue).or (lastOf t sent) := by
    rw [lastOf_append, lastOf_append, hnone, Option.or_none]
  cases hlast : lastOf t queue with
  | none => rwa [hall, hlast, Option.none_or]
  | some c' =>
    rw [hlast] at hq
    left
    rw [hall, hlast, Option.some_or]
    exact hq.resolve_left (Option.some_ne_none c')

/-- The client's thread sends snapshots: of the topics that are read by that,
they show what is current, and of the others they say nothing. -/
theorem Wired.send (h : Wired s) {stage : Stage} {sent : List (Frame δ)}
    (hleft : ∀ left, stage = .tasks left → left.Nodup) (honline : stage ≠ .offline)
    (hread : ∀ t, s.Unread t → ¬({ s with stage := stage } : Sys δ).Unread t →
      lastOf t sent = s.current t ∨ Silent (lastOf t sent) (s.current t))
    (hsilent : ∀ t, ({ s with stage := stage } : Sys δ).Unread t ∨ ¬s.Unread t →
      lastOf t sent = none)
    (hunread : ∀ t, ({ s with stage := stage } : Sys δ).Unread t → s.Unread t) :
    Wired { s with stage := stage, received := s.received ++ sent } := by
  refine ⟨h.rows, hleft, fun ho => absurd ho honline, fun t ht => ?_,
    fun ho => absurd ho honline, fun t => ?_⟩
  · rw [lastOf_append, hsilent t (.inl ht), h.unread t (hunread t ht), Option.none_or]
  · rcases h.fed t with hp | ⟨hu, hq⟩ | ⟨hu, hq⟩
    · exact .inl hp
    · by_cases hstill : ({ s with stage := stage } : Sys δ).Unread t
      · exact .inr (.inl ⟨hstill, hq⟩)
      · exact .inr (.inr ⟨hstill, shows_read (h.unread t hu) hq (hread t hu hstill)⟩)
    · refine .inr (.inr ⟨fun hstill => hu (hunread t hstill), ?_⟩)
      have hsame : lastOf t (s.received ++ sent ++ s.queue) = lastOf t (s.received ++ s.queue) := by
        simp [hsilent t (.inr hu)]
      rw [hsame]
      exact hq

theorem Wired.sendConfigs (h : Wired s) (hstage : s.stage = .registered) :
    Wired { s with stage := .tasks taskKinds
                   received := s.received ++ configFrames s.config.rows } := by
  have hunread : ∀ t, s.Unread t := fun t => by simp [Sys.Unread, hstage]
  refine h.send (fun left hl => ?_) (fun ho => by cases ho) (fun t _ hread => ?_) (fun t ht => ?_)
    fun t _ => hunread t
  · obtain rfl := Stage.tasks.inj hl
    decide
  · cases t with
    | config resource =>
      rw [lastOf_configFrames h.rows, Sys.current]
      cases Dict.get? s.config.rows resource with
      | none => exact .inl rfl
      | some row =>
        by_cases hdata : row.data = .null
        · exact .inr ⟨hdata, by simp [hdata]⟩
        · exact .inl (by simp [hdata])
    | task kind => exact absurd (mem_taskKinds kind) hread
  · cases t with
    | config resource => exact absurd (hunread _) (ht.resolve_left id)
    | task kind => exact lastOf_configFrames_task _ kind

theorem isIdle_iff (task : Entries) : isIdle task = true ↔ (taskState task).state = .str "idle" :=
  beq_iff_eq

theorem Wired.sendTask (h : Wired s) (now : Int) {kind : TaskKind} {left : List TaskKind}
    (hstage : s.stage = .tasks (kind :: left)) :
    Wired { s with stage := .tasks left
                   received := s.received ++ taskFrames kind (snapshotTask now (s.tasks kind)) } := by
  obtain ⟨hkind, hleft⟩ := List.nodup_cons.mp (h.left _ hstage)
  have hunread : ∀ kind', s.Unread (.task kind') ↔ kind' ∈ kind :: left := fun kind' => by
    simp [Sys.Unread, hstage]
  refine h.send (fun left' hl => ?_) (fun ho => by cases ho) (fun t ht hread => ?_) (fun t ht => ?_)
    fun t ht => ?_
  · obtain rfl := Stage.tasks.inj hl
    exact hleft
  · -- the topic whose snapshot is sent is the only one that is read by it
    obtain rfl : t = .task kind := by
      cases t with
      | config resource => simp [Sys.Unread, hstage] at ht
      | task kind' => exact congrArg _ ((List.mem_cons.mp ((hunread kind').mp ht)).resolve_right hread)
    rcases lastOf_taskFrames (δ := δ) kind (snapshotTask now (s.tasks kind)) with hidle | hlast
    · rw [isIdle_iff, taskState_snapshot] at hidle
      exact .inr hidle
    · rw [taskState_snapshot] at hlast
      exact .inl hlast
  · refine lastOf_taskFrames_of_ne ?_ _
    rintro rfl
    rcases ht with ht | ht
    · exact hkind ht
    · exact ht ((hunread kind).mpr List.mem_cons_self)
  · cases t with
    | config resource => exact absurd ht id
    | task kind' => exact (hunread kind').mpr (List.mem_cons_of_mem _ ht)

theorem Wired.drain (h : Wired s) {frame : Frame δ} {queue : List (Frame δ)}
    (hstage : s.stage = .tasks []) (hqueue : s.queue = frame :: queue) :
    Wired { s with queue := queue, received := s.received ++ [frame] } := by
  have hread : ∀ t, ¬s.Unread t := fun t => by cases t <;> simp [Sys.Unread, hstage]
  refine ⟨h.rows, h.left, fun ho => ?_, fun t ht => absurd ht (hread t), h.first, fun t => ?_⟩
  · rw [hstage] at ho
    cases ho
  · rcases h.fed t with hp | ⟨hu, -⟩ | ⟨hu, hq⟩
    · exact .inl hp
    · exact absurd hu (hread t)
    · rw [hqueue, List.append_cons] at hq
      exact .inr (.inr ⟨hu, hq⟩)

theorem Wired.shows (h : Wired s) (hs : s.Settled) (t : Topic) :
    lastOf t s.received = s.current t ∨ Silent (lastOf t s.received) (s.current t) := by
  obtain ⟨hstage, hpublishes, hqueue⟩ := hs
  rcases h.fed t with ⟨p, hp, -⟩ | ⟨hu, -⟩ | ⟨-, hq⟩
  · simp [hpublishes] at hp
  · cases t <;> simp [Sys.Unread, hstage] at hu
  · simpa only [hqueue, List.append_nil] using hq

section
variable [DecidableEq δ] (hash : Json → δ) {e : Event}

theorem Wired.step (h : Wired s) (hk : s.KeepsCurrent e) : Wired (s.step hash e) := by
  cases e with
  | accept now resource data source => exact h.accept hash now resource data source
  | update now kind changes => exact h.change kind _
  | log now kind line =>
    simp only [Sys.step]
    split
    · exact h
    · exact h.change kind _
  | begin now kind taskId stageText =>
    simp only [Sys.step]
    split
    · exact h.change kind _
    · exact h
  | other =>
    exact h.publish h.rows (fun p hp => by simp [List.mem_singleton.mp hp, Publish.isFirst])
      fun t => .inl rfl
  | advance now i =>
    simp only [Sys.step]
    split
    · rename_i p hi
      exact h.advance now hi (hk p hi)
    · exact h
  | register =>
    simp only [Sys.step]
    split
    · exact h.register ‹_›
    · exact h
  | sendConfigs =>
    simp only [Sys.step]
    split
    · exact h.sendConfigs ‹_›
    · exact h
  | sendTask now =>
    simp only [Sys.step]
    split
    · exact h.sendTask now ‹_›
    · exact h
  | drain =>
    simp only [Sys.step]
    split
    · exact h.drain ‹_› ‹_›
    · exact h

/-- In the runs where no frame meets a full queue, and one that is out of date
is put only while a publish of what is current is under way, a client that
has everything on its way to it shows what the Hub holds. -/
theorem deliveries_converge (revision : Nat) (rows : List (Resource × Row δ))
    (stored : TaskKind → Entries) (es : List Event)
    (hk : Along (Sys.step hash) Sys.KeepsCurrent (start revision rows stored) es)
    (hs : (run (Sys.step hash) (start revision rows stored) es).Settled) :
    (run (Sys.step hash) (start revision rows stored) es).ConfigsCurrent ∧
      (run (Sys.step hash) (start revision rows stored) es).TasksCurrent := by
  have hshows := (hk.invariant (wired_start revision rows stored) fun s e h he => h.step hash he).shows hs
  constructor
  · intro resource row hrow
    rcases hshows (.config resource) with hlast | hsilent
    · exact .inl (by rw [hlast, Sys.current, hrow]; rfl)
    · rw [Sys.current, hrow] at hsilent
      exact .inr hsilent
  · intro kind hidle
    rcases hshows (.task kind) with hlast | hsilent
    · exact hlast
    · exact absurd ((isIdle_iff _).mpr hsilent) (by simp [hidle])

end

def connected : List Event := [.register, .sendConfigs, .sendTask 0, .sendTask 0, .sendTask 0]

def upnp (enabled : Bool) : Json := .dict [("enable", .bool enabled)]

/-- The Hub has nothing stored. -/
def empty : Sys Json := start 0 [] fun _ => []

def natTask : List Event :=
  connected ++ [.accept 1 .upnp (upnp true) .sync, .begin 1 .nat "nat-1" "检测任务已排队",
    .advance 1 0, .advance 1 0, .advance 1 0, .drain, .drain]

theorem deliveries_converge_nat :
    (run (Sys.step id) empty natTask).ConfigsCurrent ∧
      (run (Sys.step id) empty natTask).TasksCurrent :=
  deliveries_converge id 0 [] (fun _ => []) natTask (by decide) ⟨rfl, rfl, rfl⟩

/-- Eight frames of the router push the frame of a setting out of the queue. -/
def overflow : List Event :=
  connected ++ [.accept 1 .upnp (upnp true) .sync, .advance 1 0] ++
    (List.replicate 8 [.other, .advance 1 0]).flatten ++ [.advance 1 0, .advance 1 0] ++
    List.replicate 8 .drain

/-- The frame of the older value of a setting is put after that of the newer one. -/
def overtaken : List Event :=
  connected ++ [.accept 1 .upnp (upnp true) .sync, .accept 2 .upnp (upnp false) .command,
    .advance 2 1, .advance 2 0, .drain, .drain]

theorem setting_missed :
    ((run (Sys.step id) empty overflow).Settled ∧
      ¬(run (Sys.step id) empty overflow).ConfigsCurrent) ∧
    (run (Sys.step id) empty overtaken).Settled ∧
      ¬(run (Sys.step id) empty overtaken).ConfigsCurrent := by
  refine ⟨⟨⟨rfl, rfl, rfl⟩, fun h => ?_⟩, ⟨rfl, rfl, rfl⟩, fun h => ?_⟩
  · exact absurd (h .upnp ⟨1, 1, 1, .sync, upnp true, upnp true⟩ (by decide)) (by decide)
  · exact absurd (h .upnp ⟨2, 2, 2, .command, upnp false, upnp false⟩ (by decide)) (by decide)

end LabProbe.Realtime.WebSocket
