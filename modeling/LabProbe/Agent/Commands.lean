import LabProbe.Lib.Rows
import LabProbe.Lib.Run
import LabProbe.Hub.Values
import Mathlib.Data.List.DropRight

/-!
# Update commands of the agent

The commands document and its five writers: the requests for an update and
for a cleanup, the thread that reads the manifest for an update, and the
acknowledgements and reports of the agent. The requests run under the data
lock, one step each. The thread loads the rows in one step and writes them
back in another, and the manifest lock lets one thread at a time do so.

`intended` is the table as it would be if it kept every row and every writer
edited it in one step. The addresses of the repository and the times are left
out, and the router is the one a request is resolved to.
-/

namespace LabProbe.Agent

open Py Py.Json Hub Runs
open Rows (updateFirst)

inductive Action where
  | update | cleanup
  deriving DecidableEq, Repr

inductive CommandState where
  | preparing | pending | accepted | scheduled | completed | failed
  deriving DecidableEq, Repr

def CommandState.finished : CommandState → Bool
  | .completed | .failed => true
  | _ => false

structure Command where
  id : String
  router : String
  action : Action
  state : CommandState
  message : String
  targetVersion : String := ""
  result : Entries := []
  deriving DecidableEq

structure Change where
  state : CommandState
  message : String
  targetVersion : Option String := none
  result : Option Entries := none
  deriving DecidableEq

def Command.update (v : Change) (c : Command) : Command :=
  { c with state := v.state, message := v.message
           targetVersion := v.targetVersion.getD c.targetVersion
           result := v.result.getD c.result }

-- ---------------------------------------------------------------------------
-- The writers
-- ---------------------------------------------------------------------------

/-- `commands[-100:]`. -/
def lastHundred (commands : List Command) : List Command := commands.rtake 100

def updateRequest (id router : String) : Command :=
  { id := id, router := router, action := .update, state := .preparing
    message := "更新任务已创建，正在读取更新清单" }

def cleanupRequest (id router : String) : Command :=
  { id := id, router := router, action := .cleanup, state := .pending
    message := "等待路由器清理 Agent 备份和临时日志" }

def activeUpdate (router : String) (commands : List Command) : Option Command :=
  commands.reverse.find? fun c => c.router == router && c.action == .update && !c.state.finished

def updateRow (id : String) (v : Change) : List Command → List Command :=
  updateFirst (fun c => c.id == id) (Command.update v)

def updateCommand (id : String) (v : Change) (loaded : List Command) : Option (List Command) :=
  if loaded.any fun c => c.id == id then some (lastHundred (updateRow id v loaded)) else none

def unavailable (fault : String) : Change :=
  { state := .failed, message := "更新仓暂不可用：" ++ fault }

def ackStates : List (String × CommandState) :=
  [("accepted", .accepted), ("completed", .completed), ("failed", .failed)]

def numbersIn (number : Option Nat) : List Char → List Nat
  | [] => number.toList
  | c :: cs =>
    match digit? c with
    | some d => numbersIn (some (number.getD 0 * 10 + d)) cs
    | none => number.toList ++ numbersIn none cs

def versionParts (version : String) : List Nat :=
  match (numbersIn none version.toList).take 4 with
  | [] => [0]
  | parts => parts

def partsLe : List Nat → List Nat → Bool
  | [], _ => true
  | _ :: _, [] => false
  | a :: l, b :: l' => a < b || a == b && partsLe l l'

def reportVersion (router version : String) (c : Command) : Command :=
  if c.router = router ∧ c.action = .update ∧ c.state = .accepted ∧
      partsLe (versionParts c.targetVersion) (versionParts version) then
    c.update { state := .completed, message := "updated to " ++ version }
  else c

section
variable [Unicode]

/-- What the thread sets, of the manifest or the error that reading it ends in. -/
def manifestChange : Except String Entries → Change
  | .error fault => unavailable fault
  | .ok manifest =>
    let target := cleanSavedValue ((get manifest "versionName").or (get manifest "version"))
    if target = "" then unavailable "更新清单缺少版本号"
    else { state := .pending, targetVersion := some target
           message := "更新清单已就绪，等待路由器领取指令" }

/-- The id and the fields of an acknowledgement; `none` for an invalid state. -/
def readAck (payload : Entries) : Option (String × Change) :=
  let state := cleanSavedValue (get payload "state")
  (Dict.get? ackStates (if state = "" then "accepted" else state)).map fun state =>
    (cleanSavedValue (get payload "id"),
      { state := state, message := cleanSavedValue (get payload "message")
        result := (get payload "result").dict? })

/-- `clean(payload["version"]) or clean(old["version"]) or "unknown"`. -/
def reportedVersion (old : String) (version : Json) : String :=
  let cleaned := cleanSavedValue version
  let previous := cleanSavedValue (.str old)
  if cleaned ≠ "" then cleaned else if previous ≠ "" then previous else "unknown"

-- ---------------------------------------------------------------------------
-- The system
-- ---------------------------------------------------------------------------

/-- A thread that has read the manifest and loaded the rows. -/
structure Refresh where
  id : String
  loaded : List Command
  change : Change
  deriving DecidableEq

structure Store where
  commands : List Command := []
  /-- The commands whose threads wait for the manifest lock. -/
  waiting : List String := []
  refresh : Option Refresh := none
  /-- The version reported last, by router. -/
  versions : List (String × String) := []
  intended : List Command := []

inductive Event where
  | update (id router : String)
  | cleanup (id router : String)
  | load (id : String) (manifest : Except String Entries)
  | save
  | ack (payload : Entries)
  | report (router : String) (version : Json)

def Store.append (s : Store) (c : Command) : Store :=
  { s with commands := lastHundred (s.commands ++ [c]), intended := s.intended ++ [c] }

def Store.version (s : Store) (router : String) (version : Json) : String :=
  reportedVersion ((Dict.get? s.versions router).getD "") version

def Store.step (s : Store) : Event → Store
  | .update id router =>
    match activeUpdate router s.commands with
    | some _ => s
    | none => { s.append (updateRequest id router) with waiting := s.waiting ++ [id] }
  | .cleanup id router => s.append (cleanupRequest id router)
  | .load id manifest =>
    if s.refresh.isNone && s.waiting.contains id then
      { s with waiting := s.waiting.erase id
               refresh := some ⟨id, s.commands, manifestChange manifest⟩ }
    else s
  | .save =>
    match s.refresh with
    | none => s
    | some r =>
      { s with refresh := none
               commands := (updateCommand r.id r.change r.loaded).getD s.commands
               intended := updateRow r.id r.change s.intended }
  | .ack payload =>
    match readAck payload with
    | none => s
    | some (id, v) =>
      { s with commands := updateRow id v s.commands, intended := updateRow id v s.intended }
  | .report router version =>
    let v := s.version router version
    { s with versions := Dict.set s.versions router v
             commands := s.commands.map (reportVersion router v)
             intended := s.intended.map (reportVersion router v) }

/-- The table holds the last hundred commands with every change made to them. -/
def Store.NothingLost (s : Store) : Prop := s.commands = lastHundred s.intended

/-- The step leaves the state of every command that is finished. -/
def Store.FinishedStays (s : Store) (e : Event) : Prop :=
  ∀ c ∈ s.commands, c.state.finished → ∀ c' ∈ (s.step e).commands, c'.id = c.id →
    c'.state = c.state

/-- A new command has an id of its own, as `token_hex` gives it. -/
def Store.TakesNewId (s : Store) : Event → Prop
  | .update id _ | .cleanup id _ => ∀ c ∈ s.intended, c.id ≠ id
  | _ => True

/-- The change leaves the state of the command if that is finished. -/
def Store.Settles (s : Store) (id : String) (v : Change) : Prop :=
  ∀ c ∈ s.commands, c.id = id → c.state.finished → v.state = c.state

/-- A thread writes back the rows that the table still has, and neither it nor
an acknowledgement changes the state of a finished command. -/
def Store.KeepsCommands (s : Store) : Event → Prop
  | .save => ∀ r ∈ s.refresh, s.Settles r.id r.change ∧
      (r.loaded = s.commands ∨ ∀ c ∈ r.loaded ++ s.commands, c.id ≠ r.id)
  | .ack payload => ∀ a ∈ readAck payload, s.Settles a.1 a.2
  | _ => True

instance (s : Store) (e : Event) : Decidable (s.TakesNewId e) := by
  unfold Store.TakesNewId
  exact match e with
    | .update .. | .cleanup .. | .load .. | .save | .ack .. | .report .. => inferInstance

instance (s : Store) (id : String) (v : Change) : Decidable (s.Settles id v) := by
  unfold Store.Settles
  infer_instance

instance (s : Store) (e : Event) : Decidable (s.KeepsCommands e) := by
  unfold Store.KeepsCommands
  exact match e with
    | .update .. | .cleanup .. | .load .. | .save | .ack .. | .report .. => inferInstance

end

-- ---------------------------------------------------------------------------
-- What a step does
-- ---------------------------------------------------------------------------

variable {s : Store}

/-- The commands have ids of their own, and the table holds the last hundred
as they should be. -/
structure Kept (s : Store) : Prop where
  ids : (s.intended.map Command.id).Nodup
  kept : s.NothingLost

theorem kept_start : Kept {} := ⟨List.nodup_nil, rfl⟩

def edit (id : String) (v : Change) (c : Command) : Command := if c.id = id then c.update v else c

theorem updateRow_eq_map (id : String) (v : Change) {commands : List Command}
    (h : (commands.map Command.id).Nodup) : updateRow id v commands = commands.map (edit id v) :=
  Rows.updateFirst_eq_map h

theorem edit_id (id : String) (v : Change) (c : Command) : (edit id v c).id = c.id := by
  unfold edit
  split <;> rfl

structure Rewrites (s : Store) (g : Command → Command) : Prop where
  id : ∀ c, (g c).id = c.id
  finished : ∀ c ∈ s.commands, c.state.finished → (g c).state = c.state

theorem Rewrites.same (s : Store) : Rewrites s fun c => c := ⟨fun _ => rfl, fun _ _ _ => rfl⟩

theorem Rewrites.edit {id : String} {v : Change} (h : s.Settles id v) : Rewrites s (edit id v) where
  id := edit_id id v
  finished c hc hf := by
    unfold Agent.edit
    split
    · rename_i hid
      exact h c hc hid hf
    · rfl

theorem Rewrites.report (s : Store) (router version : String) :
    Rewrites s (reportVersion router version) where
  id c := by
    unfold reportVersion
    split <;> rfl
  finished c _ hf := by
    unfold reportVersion
    split
    · -- a report completes commands that are accepted
      rename_i h
      rw [h.2.2.1] at hf
      cases hf
    · rfl

theorem Kept.suffix (h : Kept s) : s.commands <:+ s.intended := by
  rw [h.kept]
  exact Rows.rtake_suffix 100 s.intended

theorem Kept.mem (h : Kept s) {c : Command} (hc : c ∈ s.commands) : c ∈ s.intended :=
  h.suffix.subset hc

theorem Kept.nodup (h : Kept s) : (s.commands.map Command.id).Nodup :=
  h.ids.sublist (h.suffix.sublist.map _)

theorem Kept.short (h : Kept s) : lastHundred s.commands = s.commands := by
  rw [h.kept]
  exact Rows.rtake_rtake le_rfl _

theorem Kept.writesBack (h : Kept s) {r : Refresh}
    (hr : r.loaded = s.commands ∨ ∀ c ∈ r.loaded ++ s.commands, c.id ≠ r.id) :
    (updateCommand r.id r.change r.loaded).getD s.commands = s.commands.map (edit r.id r.change) := by
  have hnone : (∀ c ∈ s.commands, c.id ≠ r.id) → s.commands.map (edit r.id r.change) = s.commands :=
    fun hc => (List.map_congr_left fun c hm => if_neg (hc c hm)).trans (List.map_id' _)
  unfold updateCommand
  rcases hr with hr | hr
  · rw [hr]
    split
    · rw [Option.getD_some, updateRow_eq_map _ _ h.nodup, lastHundred, Rows.rtake_map]
      exact congrArg _ h.short
    · rename_i hc
      exact (hnone fun c hm hid => hc (List.any_eq_true.mpr ⟨c, hm, beq_iff_eq.mpr hid⟩)).symm
  · obtain ⟨hloaded, hc⟩ := List.forall_mem_append.mp hr
    rw [if_neg, Option.getD_none, hnone hc]
    intro hany
    obtain ⟨c, hm, hid⟩ := List.any_eq_true.mp hany
    exact hloaded c hm (beq_iff_eq.mp hid)

section
variable [Unicode] {e : Event}

/-- A step adds a command with a new id, or rewrites the table and the
intended one in the same way. -/
theorem Kept.step_cases (h : Kept s) (hnew : s.TakesNewId e) (hk : s.KeepsCommands e) :
    (∃ c, (∀ d ∈ s.intended, d.id ≠ c.id) ∧ (s.step e).commands = lastHundred (s.commands ++ [c]) ∧
      (s.step e).intended = s.intended ++ [c]) ∨
    ∃ g, Rewrites s g ∧ (s.step e).commands = s.commands.map g ∧
      (s.step e).intended = s.intended.map g := by
  have hsame : ∀ s' : Store, s'.commands = s.commands → s'.intended = s.intended →
      ∃ g, Rewrites s g ∧ s'.commands = s.commands.map g ∧ s'.intended = s.intended.map g :=
    fun s' hc hi => ⟨_, .same s, by simpa using hc, by simpa using hi⟩
  cases e with
  | update id router =>
    simp only [Store.step]
    split
    · exact .inr (hsame s rfl rfl)
    · exact .inl ⟨updateRequest id router, hnew, rfl, rfl⟩
  | cleanup id router => exact .inl ⟨cleanupRequest id router, hnew, rfl, rfl⟩
  | load id manifest =>
    simp only [Store.step]
    split <;> exact .inr (hsame _ rfl rfl)
  | save =>
    simp only [Store.step]
    split
    · exact .inr (hsame s rfl rfl)
    · rename_i r hr
      obtain ⟨hsettles, hloaded⟩ := hk r hr
      exact .inr ⟨_, .edit hsettles, h.writesBack hloaded, updateRow_eq_map _ _ h.ids⟩
  | ack payload =>
    simp only [Store.step]
    split
    · exact .inr (hsame s rfl rfl)
    · rename_i id v ha
      exact .inr ⟨_, .edit (hk _ ha), updateRow_eq_map _ _ h.nodup, updateRow_eq_map _ _ h.ids⟩
  | report router version => exact .inr ⟨_, .report s _ _, rfl, rfl⟩

theorem Kept.step (h : Kept s) (hnew : s.TakesNewId e) (hk : s.KeepsCommands e) :
    Kept (s.step e) := by
  rcases h.step_cases hnew hk with ⟨c, hfresh, hc, hi⟩ | ⟨g, hg, hc, hi⟩
  · constructor
    · rw [hi]
      refine Rows.nodup_map_concat h.ids fun hmem => ?_
      obtain ⟨d, hd, hid⟩ := List.mem_map.mp hmem
      exact hfresh d hd hid
    · rw [Store.NothingLost, hc, hi, h.kept]
      exact Rows.rtake_rtake_concat _ _ _
  · constructor
    · rw [hi, List.map_map, show Command.id ∘ g = Command.id from funext hg.id]
      exact h.ids
    · rw [Store.NothingLost, hc, hi, h.kept]
      exact (Rows.rtake_map _ _ _).symm

theorem Kept.finishedStays (h : Kept s) (hnew : s.TakesNewId e) (hk : s.KeepsCommands e) :
    s.FinishedStays e := by
  intro c hc hf c' hc' hid
  have hmem := (h.step hnew hk).mem hc'
  rcases h.step_cases hnew hk with ⟨d, hfresh, -, hi⟩ | ⟨g, hg, -, hi⟩
  · rw [hi] at hmem
    rcases List.mem_append.mp hmem with hmem | hmem
    · rw [List.inj_on_of_nodup_map h.ids hmem (h.mem hc) hid]
    · obtain rfl := List.mem_singleton.mp hmem
      exact absurd hid.symm (hfresh c (h.mem hc))
  · rw [hi] at hmem
    obtain ⟨d, hd, rfl⟩ := List.mem_map.mp hmem
    obtain rfl := List.inj_on_of_nodup_map h.ids hd (h.mem hc) ((hg.id d).symm.trans hid)
    exact hg.finished d hc hf

/-- In the runs where every thread writes back the rows that the table still
has and no writer changes the state of a finished command, no command and no
change is lost and no finished command changes its state. -/
theorem commands_kept (es : List Event) (hnew : Along Store.step Store.TakesNewId {} es)
    (hk : Along Store.step Store.KeepsCommands {} es) :
    Along Store.step (fun s e => (s.step e).NothingLost ∧ s.FinishedStays e) {} es :=
  (along_and.mpr ⟨hnew, hk⟩).mono kept_start (fun _ _ h hk => h.step hk.1 hk.2)
    fun _ _ h hk => ⟨(h.step hk.1 hk.2).kept, h.finishedStays hk.1 hk.2⟩

end

section
local instance commandsUnicode : Unicode := .ascii

def manifest : Entries := [("versionName", .str "1.2.0")]

def ackOf (id state : String) : Event := .ack [("id", .str id), ("state", .str state)]

theorem commands_kept_update :
    Along Store.step (fun s e => (s.step e).NothingLost ∧ s.FinishedStays e) {}
      [.update "u1" "router", .load "u1" (.ok manifest), .save, .cleanup "c1" "router",
        ackOf "u1" "accepted", .report "router" (.str "1.2.0"), ackOf "c1" "completed"] :=
  commands_kept _ (by decide) (by decide)

/-- A cleanup queued between the reading and the writing of the thread is
lost, and a second acknowledgement opens a completed command again. -/
theorem refresh_loses_cleanup :
    (∃ es, Along Store.step Store.TakesNewId {} es ∧
      ¬Along Store.step (fun s e => (s.step e).NothingLost) {} es) ∧
    ∃ es, Along Store.step Store.TakesNewId {} es ∧
      ¬Along Store.step Store.FinishedStays {} es := by
  refine ⟨⟨[.update "u1" "router", .load "u1" (.ok manifest), .cleanup "c1" "router"] ++ [.save],
    by decide, fun h => ?_⟩,
    ⟨[.cleanup "c1" "router", ackOf "c1" "completed"] ++ [ackOf "c1" "accepted"],
    by decide, fun h => ?_⟩⟩
  · exact absurd h.last (by unfold Store.NothingLost; decide)
  · exact absurd h.last (by unfold Store.FinishedStays; decide)

end

end LabProbe.Agent
