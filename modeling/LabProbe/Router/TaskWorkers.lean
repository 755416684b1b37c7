import LabProbe.Router.Tasks
import LabProbe.Lib.Run

/-!
# The threads behind the tasks

`_run_nat`, `_run_diagnostic` and `_run_beta` with the timing layer over
`_update` and `_snapshot_locked`. A thread is where it stands in its function,
and each of its steps is one write under the lock, one request to the router or
one test. What the router answers, when a deadline passes and what the clock
reads, in seconds since the epoch, is given with the step.

The time before which a request, of a NAT test say, is refused is left out: a
task is begun with the normalised request. An id that `uuid4` has given before
is not given again.
-/

namespace LabProbe.Router.Threads

open Py Py.Json Hub Runs

abbrev Clock := { now : Int // 0 < now }

-- ---------------------------------------------------------------------------
-- The timing layer
-- ---------------------------------------------------------------------------

section
variable [Unicode]

/-- `str(task.get("state") or "idle")`. -/
def stateText (task : Entries) : String := ((get task "state").or (.str "idle")).toStr

omit [Unicode] in
def terminalTaskStates : List String := ["succeeded", "failed", "timed_out", "cancelled"]

def hasEnded (task : Entries) : Bool := terminalTaskStates.contains (stateText task)

omit [Unicode] in
def seconds (task : Entries) (key : String) : Int := intOf 0 (get task key)

omit [Unicode] in
/-- `first or second or now`. -/
def firstTime (first second now : Int) : Int :=
  if first ≠ 0 then first else if second ≠ 0 then second else now

def elapsed (now : Int) (task : Entries) : Entries :=
  let started := seconds task "startedAt"
  if 0 < started then
    if hasEnded task then
      let frozen := seconds task "elapsedSeconds"
      let ended := firstTime (seconds task "completedAt") (seconds task "updatedAt") now
      Dict.set task "elapsedSeconds" (.int (if frozen ≤ 0 then max 0 (ended - started) else frozen))
    else if stateText task ≠ "idle" then
      Dict.set task "elapsedSeconds" (.int (max 0 (now - started)))
    else task
  else task

/-- `snapshot_locked`. -/
def frozenSnapshot (now : Int) (task : Entries) : Entries :=
  copyTask (elapsed now task) task

omit [Unicode] in
def freeze (ended : Int) (task : Entries) : Entries :=
  let started := seconds task "startedAt"
  let task := Dict.set task "completedAt" (.int ended)
  if seconds task "elapsedSeconds" ≤ 0 ∧ 0 < started then
    Dict.set task "elapsedSeconds" (.int (max 0 (ended - started)))
  else task

/-- `update`. -/
def frozenUpdate (now : Int) (changes task : Entries) : Entries :=
  let current := Dict.update task changes
  stampTask now (if hasEnded current then
    freeze (firstTime (seconds current "completedAt") 0 now) current else current)

def freezeLoaded (now : Int) (task : Entries) : Entries :=
  if hasEnded task ∧ 0 < seconds task "startedAt" then
    freeze (firstTime (seconds task "completedAt") (seconds task "updatedAt") now) task
  else task

-- ---------------------------------------------------------------------------
-- What the router answers
-- ---------------------------------------------------------------------------

inductive Answer where
  | value (v : Json)
  | error (text : String)

def firstText (data : Entries) (keys : List String) : String :=
  (keys.findSome? fun key =>
    match get data key with
    | .null => none
    | value =>
      let text := strip value.toStr
      if text ≠ "" ∧ Unicode.lower text ∉ ["none", "null", "--"] then some text else none).getD ""

def mappingKeys : List String := ["mapping_behavior", "mappingBehavior", "mapping"]

def filteringKeys : List String := ["filtering_behavior", "filteringBehavior", "filtering"]

def setText (data : Entries) (key text : String) : Entries :=
  if text ≠ "" then Dict.set data key (.str text) else data

def normalizeNatPayload (parsed : Entries) : Entries :=
  let mapping := firstText parsed mappingKeys
  let filtering := firstText parsed filteringKeys
  let natType := firstText parsed ["nat_type", "natType", "classic_type", "classicType"]
  let result := setText parsed "mapping_behavior" mapping
  let result := setText result "filtering_behavior" filtering
  let result := setText result "nat_type" natType
  let result := setText result "external_address" (firstText parsed
    ["external_address", "externalAddress", "mapped_address", "mappedAddress"])
  let result := setText result "other_address" (firstText parsed ["other_address", "otherAddress"])
  let status := Unicode.lower (firstText result ["status"])
  if mapping ≠ "" ∧ filtering ≠ "" ∧
      status ∉ ["cancelled", "canceled", "failed", "error", "timeout"] then
    Dict.set result "status" (.str "completed")
  else if natType ≠ "" ∧
      status ∉ ["completed", "success", "failed", "error", "timeout", "cancelled", "canceled"] then
    Dict.set result "status" (.str "completed")
  else result

def natTerminal (data : Entries) : Bool :=
  let normalized := normalizeNatPayload data
  let status := Unicode.lower (strip ((get normalized "status").or (.str "")).toStr)
  ["completed", "success", "failed", "error", "timeout", "cancelled", "canceled"].contains status ||
    firstText normalized ["nat_type", "natType"] != "" ||
    (firstText normalized mappingKeys != "" && firstText normalized filteringKeys != "")

def natResult (requested latest : Entries) : Entries :=
  let normalized := normalizeNatPayload latest
  let mode := getD requested "mode" (.str "classic")
  let normalized := Dict.set normalized "requested_host" (getD requested "host" (.str ""))
  let normalized := Dict.set normalized "requested_port"
    (.int (intOf 0 ((get requested "port").or (.int 3478))))
  let normalized := Dict.set normalized "requested_interface" (getD requested "interface" (.str "wan"))
  let normalized := Dict.set normalized "requested_mode" mode
  if (Dict.get? normalized "mode").isSome then normalized else Dict.set normalized "mode" mode

omit [Unicode] in
def isLineBreak (c : Char) : Bool :=
  let n := c.toNat
  (10 ≤ n && n ≤ 13) || (28 ≤ n && n ≤ 30) || n == 0x85 || n == 0x2028 || n == 0x2029

omit [Unicode] in
/-- The lines of a text; the empty ones among them are not written. -/
def splitLines : List Char → List (List Char)
  | [] => [[]]
  | c :: cs =>
    if isLineBreak c then [] :: splitLines cs
    else match splitLines cs with
      | [] => [[c]]
      | line :: lines => (c :: line) :: lines

omit [Unicode] in
def logLines (normalized : Entries) : List String :=
  let raw := get normalized "log"
  if raw.truthy then (splitLines raw.toStr.toList).map String.ofList else []

def natStage (normalized : Entries) : String × String :=
  let mapping := strip ((get normalized "mapping_behavior").or (.str "")).toStr
  let filtering := strip ((get normalized "filtering_behavior").or (.str "")).toStr
  if mapping ≠ "" ∧ filtering = "" then ("mapping_done", "映射行为已返回，等待过滤行为")
  else if filtering ≠ "" then ("filtering_done", "过滤行为已返回，正在整理结果")
  else ("router_running", "路由器正在执行 NAT 检测")

omit [Unicode] in
/-- The digits of `str.isdigit` that are no decimal ones; `int` raises on them. -/
def isOtherDigit (c : Char) : Bool :=
  let n := c.toNat
  n == 0xb2 || n == 0xb3 || n == 0xb9 || (0x1369 ≤ n && n ≤ 0x1371) || n == 0x19da || n == 0x2070 ||
    (0x2074 ≤ n && n ≤ 0x2079) || (0x2080 ≤ n && n ≤ 0x2089) || (0x2460 ≤ n && n ≤ 0x2468) ||
    (0x2474 ≤ n && n ≤ 0x247c) || (0x2488 ≤ n && n ≤ 0x2490) || n == 0x24ea ||
    (0x24f5 ≤ n && n ≤ 0x24fd) || n == 0x24ff || (0x2776 ≤ n && n ≤ 0x277e) ||
    (0x2780 ≤ n && n ≤ 0x2788) || (0x278a ≤ n && n ≤ 0x2792) || (0x10a40 ≤ n && n ≤ 0x10a43) ||
    (0x10e60 ≤ n && n ≤ 0x10e68) || (0x11052 ≤ n && n ≤ 0x1105a) || (0x1f100 ≤ n && n ≤ 0x1f10a)

omit [Unicode] in
def percentOf (latest : Entries) : Option Nat :=
  let process := strip (((get latest "process").or (get latest "progress")).or (.str "0%")).toStr
  let digits := process.toList.filter fun c => (digit? c).isSome || isOtherDigit c
  if digits.isEmpty then some 0 else (parseInt (String.ofList digits)).map fun n => min 100 n.toNat

def translateBetaMessage (value : String) : String :=
  let text := strip value
  let lower := (Unicode.lower text).toList
  let has := fun words : List String => words.any fun word => contains word.toList lower
  if text = "" then "检测完成"
  else if has ["no new version", "latest version", "no update"] then "暂无可用的新版本"
  else if has ["new version", "update available"] then "发现可用的新版本"
  else if has ["timeout", "timed out"] then "版本检测超时"
  else if has ["failed", "error"] then "版本检测失败"
  else text

def betaResult (now : Int) (data : Json) : String × Entries :=
  let result := match data with
    | .dict d => d
    | data => [("raw", data)]
  let next := asDict (get result "new")
  let message := translateBetaMessage (((get next "msg").or (get result "msg")).or (.str "")).toStr
  let result := Dict.set result "new" (.dict (Dict.set next "msg" (.str message)))
  (message, Dict.set result "checkedAt" (.int now))

-- ---------------------------------------------------------------------------
-- The threads
-- ---------------------------------------------------------------------------

/-- A call of `_update` or `_append_log`, if the step makes one. -/
inductive Write where
  | none
  | update (changes : Entries)
  | log (line : String)

/-- What a step of a thread meets: the clock, what the router answers, whether
the deadline has passed, and whether the row is that of the thread's task. -/
structure Turn where
  now : Clock
  answer : Answer
  expired : Bool
  own : Bool

inductive NatPhase where
  | running | accepted | command
  | sent (latest : Json) | sentLog (latest : Json) | loop (latest : Json)
  | lines (latest : Json) (normalized : Entries) (pending : List String)
  | judge (latest : Json) (normalized : Entries)
  | poll (latest : Json) | deferred (latest : Json)
  | timedOut | lastLine
  | failed (message : String)
  | done

inductive DiagnosticPhase where
  | running | accepted | command | sent | sentLog | loop | poll
  | progress (latest : Entries) (percent : Nat)
  | succeeded (latest : Entries)
  | deferred | timedOut
  | failed (message : String)
  | done

inductive BetaPhase where
  | running | query
  | succeeded (message : String) (result : Entries)
  | timedOut
  | failed (message : String)
  | done

omit [Unicode] in
/-- The line that is written after a NAT test has timed out. -/
def lastLine (natMaxSeconds : Nat) : String :=
  "已等待 " ++ toString natMaxSeconds ++ " 秒，任务结束"

def runNat (natMaxSeconds : Nat) (requested : Entries) (t : Turn) : NatPhase → Write × NatPhase
  | .running => (.update [("state", .str "running"), ("stage", .str "command"),
      ("stageText", .str "正在向路由器发送检测指令"), ("request", .dict requested)], .accepted)
  | .accepted => (.log "Hub 已接受 NAT 检测任务", .command)
  | .command => (.none, match t.answer with
      | .value start => .sent start
      | .error text => .failed text)
  | .sent latest => (.update [("lastRouterResponseAt", .int t.now), ("stage", .str "router_running"),
      ("stageText", .str "路由器正在执行 NAT 检测")], .sentLog latest)
  | .sentLog latest => (.log "检测指令已发送到路由器", .loop latest)
  | .loop latest => (.none,
      if t.expired then .timedOut
      else if !t.own then .done
      else match latest with
        | .dict d =>
          let normalized := natResult requested d
          .lines latest normalized (logLines normalized)
        | _ => .poll latest)
  | .lines latest normalized (line :: pending) => (.log line, .lines latest normalized pending)
  | .lines latest normalized [] =>
    let (stage, stageText) := natStage normalized
    (.update [("stage", .str stage), ("stageText", .str stageText),
      ("lastRouterResponseAt", .int t.now), ("result", .dict normalized)], .judge latest normalized)
  | .judge latest normalized =>
    if natTerminal normalized then
      let status := Unicode.lower ((get normalized "status").or (.str "")).toStr
      let failed := ["failed", "error", "timeout", "cancelled", "canceled"].contains status
      let text := if failed then "检测失败" else "检测完成"
      (.update [("state", .str (if failed then "failed" else "succeeded")), ("stage", .str "finished"),
        ("stageText", .str text),
        ("message", .str ((get normalized "message").or (.str text)).toStr),
        ("result", .dict normalized)], .done)
    else (.none, .poll latest)
  | .poll latest => (.none, match t.answer with
      | .value latest => .loop latest
      | .error _ => .deferred latest)
  | .deferred latest => (.update [("stage", .str "router_running"),
      ("stageText", .str "路由器仍在检测，等待下一次状态响应")], .loop latest)
  | .timedOut => (.update [("state", .str "timed_out"), ("stage", .str "timeout"),
      ("stageText", .str "检测超时"), ("message", .str "路由器长时间未返回最终检测结果")], .lastLine)
  | .lastLine => (.log (lastLine natMaxSeconds), .done)
  | .failed message => (.update [("state", .str "failed"), ("stage", .str "failed"),
      ("stageText", .str "检测失败"),
      ("message", .str (if message = "" then "NAT 检测失败" else message))], .done)
  | .done => (.none, .done)

def runDiagnostic (t : Turn) : DiagnosticPhase → Write × DiagnosticPhase
  | .running => (.update [("state", .str "running"), ("stage", .str "command"),
      ("stageText", .str "正在向路由器发送自检指令")], .accepted)
  | .accepted => (.log "Hub 已接受网络自检任务", .command)
  | .command => (.none, match t.answer with
      | .value _ => .sent
      | .error text => .failed text)
  | .sent => (.update [("lastRouterResponseAt", .int t.now), ("stage", .str "router_running"),
      ("stageText", .str "路由器正在执行网络自检")], .sentLog)
  | .sentLog => (.log "自检指令已发送到路由器", .loop)
  | .loop => (.none, if t.expired then .timedOut else if !t.own then .done else .poll)
  | .poll => (.none, match t.answer with
      | .value latest =>
        match percentOf (asDict latest) with
        | some percent => .progress (asDict latest) percent
        | none => .deferred
      | .error _ => .deferred)
  | .progress latest percent =>
    (.update [("stage", .str (if percent < 100 then "router_running" else "finished")),
      ("stageText", .str (if percent < 100 then "网络自检进行中（" ++ toString percent ++ "%）"
        else "网络自检完成")),
      ("lastRouterResponseAt", .int t.now), ("result", .dict latest)],
      if 100 ≤ percent then .succeeded latest else .loop)
  | .succeeded latest => (.update [("state", .str "succeeded"), ("stage", .str "finished"),
      ("stageText", .str "网络自检完成"), ("message", .str "检测完成"), ("result", .dict latest)], .done)
  | .deferred => (.update [("stageText", .str "路由器仍在自检，等待下一次状态响应")], .loop)
  | .timedOut => (.update [("state", .str "timed_out"), ("stage", .str "timeout"),
      ("stageText", .str "网络自检超时"), ("message", .str "路由器长时间未返回完整自检结果")], .done)
  | .failed message => (.update [("state", .str "failed"), ("stage", .str "failed"),
      ("stageText", .str "网络自检失败"),
      ("message", .str (if message = "" then "网络自检失败" else message))], .done)
  | .done => (.none, .done)

def runBeta (t : Turn) : BetaPhase → Write × BetaPhase
  | .running => (.update [("state", .str "running"), ("stage", .str "router_query"),
      ("stageText", .str "正在向路由器查询 Beta 版本")], .query)
  | .query => (.none, match t.answer with
      | .value data =>
        let (message, result) := betaResult t.now data
        if t.expired then .timedOut else .succeeded message result
      | .error text => .failed (translateBetaMessage text))
  | .succeeded message result => (.update [("state", .str "succeeded"), ("stage", .str "finished"),
      ("stageText", .str "版本检测完成"), ("message", .str message),
      ("lastRouterResponseAt", .int t.now), ("result", .dict result)], .done)
  | .timedOut => (.update [("state", .str "timed_out"), ("stage", .str "timeout"),
      ("stageText", .str "版本检测超时"), ("message", .str "版本检测超时")], .done)
  | .failed message => (.update [("state", .str "failed"), ("stage", .str "failed"),
      ("stageText", .str "版本检测失败"), ("message", .str message)], .done)
  | .done => (.none, .done)

-- ---------------------------------------------------------------------------
-- The manager
-- ---------------------------------------------------------------------------

inductive Phase where
  | nat (requested : Entries) (phase : NatPhase)
  | diagnostic (phase : DiagnosticPhase)
  | beta (phase : BetaPhase)

def Phase.kind : Phase → TaskKind
  | .nat .. => .nat
  | .diagnostic _ => .diagnostic
  | .beta _ => .beta

structure Worker where
  taskId : String
  phase : Phase

def Worker.kind (w : Worker) : TaskKind := w.phase.kind

/-- The rows, the threads, the ids given so far and the snapshots taken so far,
each with its kind. -/
structure Manager where
  natMaxSeconds : Nat
  tasks : TaskKind → Entries
  workers : List Worker
  ids : List Json
  seen : List (TaskKind × Entries)

inductive Event where
  | start (phase : Phase) (taskId : String) (now : Clock)
  | work (n : Nat) (t : Turn)
  | snapshot (kind : TaskKind) (now : Clock)

def Phase.turn (natMaxSeconds : Nat) (t : Turn) : Phase → Write × Phase
  | .nat requested phase =>
    let (write, phase) := runNat natMaxSeconds requested t phase
    (write, .nat requested phase)
  | .diagnostic phase =>
    let (write, phase) := runDiagnostic t phase
    (write, .diagnostic phase)
  | .beta phase =>
    let (write, phase) := runBeta t phase
    (write, .beta phase)

def Write.apply (now : Int) (task : Entries) : Write → Entries
  | .none => task
  | .update changes => frozenUpdate now changes task
  | .log line => if strip line = "" then task else appendLog now (strip line) task

omit [Unicode] in
def Phase.queued : Phase → String × Phase
  | .nat requested _ => ("检测任务已排队", .nat requested .running)
  | .diagnostic _ => ("网络自检已排队", .diagnostic .running)
  | .beta _ => ("版本检测已排队", .beta .running)

namespace Manager

omit [Unicode] in
def setTask (s : Manager) (kind : TaskKind) (task : Entries) : Manager :=
  { s with tasks := fun k => if k = kind then task else s.tasks k }

/-- The manager with the tasks that were stored. -/
def restored (natMaxSeconds : Nat) (stored : TaskKind → Entries) (now : Clock) : Manager :=
  let tasks := fun kind => freezeLoaded now (loadTask kind (stored kind))
  { natMaxSeconds, tasks, workers := [], ids := taskKinds.map fun kind => get (tasks kind) "taskId",
    seen := [] }

def step (s : Manager) : Event → Manager
  | .start phase taskId now =>
    let (stageText, first) := phase.queued
    match beginTask now phase.kind taskId stageText (s.tasks phase.kind) with
    | none => s
    | some task =>
      if .str taskId ∈ s.ids then s
      else { s.setTask phase.kind task with
        workers := s.workers ++ [⟨taskId, first⟩], ids := s.ids ++ [.str taskId] }
  | .work n t =>
    match s.workers[n]? with
    | none => s
    | some w =>
      let task := s.tasks w.kind
      let t := { t with own := get task "taskId" == .str w.taskId }
      let (write, phase) := w.phase.turn s.natMaxSeconds t
      { s.setTask w.kind (write.apply t.now task) with
        workers := s.workers.set n { w with phase } }
  | .snapshot kind now =>
    { s with seen := s.seen ++ [(kind, frozenSnapshot now (s.tasks kind))] }

end Manager

end

end LabProbe.Router.Threads
