import LabProbe.Hub.Values

/-!
# Long tasks of the router

`RouterTaskManager`: one task of each kind, a row that a request begins, and
the thread of the task updates and adds log lines to. Each change is followed
by a snapshot that is published. What the threads ask of the router is left
out: they may set any field at any time.
-/

namespace LabProbe.Router

open Py Py.Json Hub

inductive TaskKind where
  | nat | diagnostic | beta
  deriving DecidableEq, Repr

def taskKinds : List TaskKind := [.nat, .diagnostic, .beta]

theorem mem_taskKinds (kind : TaskKind) : kind ∈ taskKinds := by cases kind <;> decide

def TaskKind.name : TaskKind → String
  | .nat => "nat"
  | .diagnostic => "diagnostic"
  | .beta => "beta"

/-- `_task`. -/
def blankTask (kind : TaskKind) : Entries :=
  [("kind", .str kind.name), ("taskId", .str ""), ("state", .str "idle"), ("stage", .str "idle"),
    ("stageText", .str "尚未开始"), ("startedAt", .int 0), ("updatedAt", .int 0),
    ("lastRouterResponseAt", .int 0), ("elapsedSeconds", .int 0), ("message", .str ""),
    ("log", .list []), ("result", .dict [])]

def isIdle (task : Entries) : Bool := get task "state" == .str "idle"

def isActive (task : Entries) : Bool :=
  get task "state" == .str "queued" || get task "state" == .str "running"

/-- `TERMINAL`. -/
def isTerminal (task : Entries) : Bool :=
  ["succeeded", "failed", "timed_out", "cancelled"].any fun state => get task "state" == .str state

def loadTask (kind : TaskKind) (stored : Entries) : Entries :=
  let restored := Dict.update (blankTask kind) stored
  if !isTerminal restored && !isIdle restored then
    Dict.update restored
      [("state", .str "failed"), ("stage", .str "interrupted"),
        ("stageText", .str "Hub 重启，任务已中断"), ("message", .str "任务未完成，可重新开始")]
  else restored

def withElapsed (now : Int) (task : Entries) : Entries :=
  let started := intOf 0 (get task "startedAt")
  if 0 < started && !isIdle task then
    Dict.set task "elapsedSeconds" (.int (max 0 (now - started)))
  else task

def copyTask (timed task : Entries) : Entries :=
  Dict.set (Dict.set timed "log" (.list ((get task "log").list?.getD [])))
    "result" (.dict (asDict (get task "result")))

/-- `_snapshot_locked`. -/
def snapshotTask (now : Int) (task : Entries) : Entries := copyTask (withElapsed now task) task

def stampTask (now : Int) (task : Entries) : Entries := Dict.set task "updatedAt" (.int now)

/-- `_update`. -/
def updateTask (now : Int) (changes task : Entries) : Entries :=
  stampTask now (Dict.update task changes)

/-- `lines[-300:]`. -/
def lastLines (lines : List Json) : List Json := lines.drop (lines.length - 300)

def appendLog (now : Int) (line : String) (task : Entries) : Entries :=
  let lines := (get task "log").list?.getD []
  if lines.getLast? = some (.str line) then task
  else stampTask now (Dict.set task "log" (.list (lastLines (lines ++ [.str line]))))

def beginTask (now : Int) (kind : TaskKind) (taskId stageText : String) (task : Entries) :
    Option Entries :=
  if isActive task then none
  else some (Dict.update (blankTask kind)
    [("taskId", .str taskId), ("state", .str "queued"), ("stage", .str "queued"),
      ("stageText", .str stageText), ("startedAt", .int now), ("updatedAt", .int now)])

-- ---------------------------------------------------------------------------
-- What a task says
-- ---------------------------------------------------------------------------

structure TaskState where
  taskId : Json
  state : Json
  stage : Json
  result : Entries
  deriving DecidableEq

def taskState (task : Entries) : TaskState where
  taskId := get task "taskId"
  state := get task "state"
  stage := get task "stage"
  result := asDict (get task "result")

theorem get_withElapsed (now : Int) (task : Entries) {key : String} (h : key ≠ "elapsedSeconds") :
    get (withElapsed now task) key = get task key := by
  unfold withElapsed
  dsimp only
  split
  · rw [get_set, if_neg h.symm]
  · rfl

theorem get_copyTask (timed task : Entries) {key : String} (hlog : key ≠ "log")
    (hresult : key ≠ "result") : get (copyTask timed task) key = get timed key := by
  rw [copyTask, get_set, if_neg hresult.symm, get_set, if_neg hlog.symm]

theorem get_stampTask (now : Int) (task : Entries) {key : String} (h : key ≠ "updatedAt") :
    get (stampTask now task) key = get task key := by
  rw [stampTask, get_set, if_neg h.symm]

theorem taskState_snapshot (now : Int) (task : Entries) :
    taskState (snapshotTask now task) = taskState task := by
  have hkept : ∀ key : String, key ≠ "elapsedSeconds" → key ≠ "log" → key ≠ "result" →
      get (snapshotTask now task) key = get task key := by
    intro key helapsed hlog hresult
    rw [snapshotTask, get_copyTask _ _ hlog hresult, get_withElapsed now task helapsed]
  have hresult : get (snapshotTask now task) "result" = .dict (asDict (get task "result")) := by
    rw [snapshotTask, copyTask, get_set, if_pos rfl]
  rw [taskState, hresult, asDict_dict, hkept "taskId" (by decide) (by decide) (by decide),
    hkept "state" (by decide) (by decide) (by decide),
    hkept "stage" (by decide) (by decide) (by decide)]
  rfl

end LabProbe.Router
