import LabProbe.Router.TaskWorkers

/-!
# Tasks that keep to themselves

Until a thread has written the end of its task, the row of its kind is that of
its task, queued or running, so no other task can take it and there is no other
such thread of the kind. After the end only the NAT thread that has run out of
time writes again, one line: where it does not, every thread keeps to its own
row, and a task that has ended reads the same in every snapshot.
-/

namespace LabProbe.Router.Threads

open Py Py.Json Hub Runs

section
variable [Unicode] {now now' : Int} {task changes : Entries} {key : String} {s : Manager}
  {w w' : Worker} {n m : Nat} {t : Turn} {write : Write} {kind : TaskKind} {natMaxSeconds : Nat}

-- ---------------------------------------------------------------------------
-- Rows
-- ---------------------------------------------------------------------------

def timeKeys : List String := ["completedAt", "elapsedSeconds", "updatedAt"]

omit [Unicode] in
theorem get_freeze (h : key ∉ timeKeys) (ended : Int) (task : Entries) :
    get (freeze ended task) key = get task key := by
  simp only [timeKeys, List.mem_cons, List.not_mem_nil, or_false, not_or] at h
  simp only [freeze]
  split <;> simp [get_set, Ne.symm h.1, Ne.symm h.2.1]

theorem get_frozenUpdate (h : key ∉ timeKeys) (now : Int) (changes task : Entries) :
    get (frozenUpdate now changes task) key = get (Dict.update task changes) key := by
  have hupdated : key ≠ "updatedAt" := by
    rintro rfl
    simp [timeKeys] at h
  rw [frozenUpdate, get_stampTask _ _ hupdated]
  split
  · exact get_freeze h _ _
  · rfl

omit [Unicode] in
theorem get_update (task changes : Entries) (key : String) :
    get (Dict.update task changes) key =
      (Dict.get? changes.reverse key).getD (get task key) := by
  simp only [Json.get, Dict.get?_update]
  cases Dict.get? changes.reverse key <;> rfl

omit [Unicode] in
theorem get_appendLog (h : key ≠ "log") (h' : key ≠ "updatedAt") (now : Int) (line : String)
    (task : Entries) : get (appendLog now line task) key = get task key := by
  unfold appendLog
  dsimp only
  split
  · rfl
  · rw [get_stampTask _ _ h', get_set, if_neg h.symm]

theorem get_elapsed (h : key ≠ "elapsedSeconds") (now : Int) (task : Entries) :
    get (elapsed now task) key = get task key := by
  unfold elapsed
  dsimp only
  split
  · split
    · rw [get_set, if_neg h.symm]
    · split
      · rw [get_set, if_neg h.symm]
      · rfl
  · rfl

theorem get_frozenSnapshot (h : key ∉ ["elapsedSeconds", "log", "result"]) (now : Int)
    (task : Entries) : get (frozenSnapshot now task) key = get task key := by
  simp only [List.mem_cons, List.not_mem_nil, or_false, not_or] at h
  rw [frozenSnapshot, get_copyTask _ _ h.2.1 h.2.2, get_elapsed h.1]

theorem hasEnded_congr {task task' : Entries} (h : get task "state" = get task' "state") :
    hasEnded task = hasEnded task' := by
  rw [hasEnded, hasEnded, stateText, stateText, h]

omit [Unicode] in
theorem isActive_congr {task task' : Entries} (h : get task "state" = get task' "state") :
    isActive task = isActive task' := by
  rw [isActive, isActive, h]

theorem hasEnded_of_state {state : String} (hstate : state ∈ terminalTaskStates)
    (h : get task "state" = .str state) : hasEnded task = true := by
  simp only [terminalTaskStates, List.mem_cons, List.not_mem_nil, or_false] at hstate
  rcases hstate with rfl | rfl | rfl | rfl <;>
    simp [hasEnded, stateText, h, Json.or, truthy, toStr, terminalTaskStates]

theorem not_hasEnded_of_active (h : isActive task = true) : hasEnded task = false := by
  simp only [isActive, Bool.or_eq_true, beq_iff_eq] at h
  rcases h with h | h <;>
    simp [hasEnded, stateText, h, Json.or, truthy, toStr, terminalTaskStates]

structure Ended (task : Entries) : Prop where
  ended : hasEnded task = true
  timed : 0 < seconds task "startedAt" →
    seconds task "completedAt" ≠ 0 ∨ seconds task "updatedAt" ≠ 0

theorem Ended.snapshot_eq (h : Ended task) (now now' : Int) :
    frozenSnapshot now task = frozenSnapshot now' task := by
  have helapsed : elapsed now task = elapsed now' task := by
    unfold elapsed
    dsimp only
    split
    · rename_i hstarted
      have htime : firstTime (seconds task "completedAt") (seconds task "updatedAt") now =
          firstTime (seconds task "completedAt") (seconds task "updatedAt") now' := by
        rcases h.timed hstarted with htime | htime
        · simp [firstTime, htime]
        · simp [firstTime, htime]
      rw [htime]
      simp [h.ended]
    · rfl
  rw [frozenSnapshot, frozenSnapshot, helapsed]

theorem ended_frozenUpdate (hnow : 0 < now)
    (h : hasEnded (Dict.update task changes) = true) : Ended (frozenUpdate now changes task) where
  ended := by
    rw [hasEnded_congr (get_frozenUpdate (by simp [timeKeys]) now changes task)]
    exact h
  timed _ := .inr (by simp [seconds, frozenUpdate, stampTask, get_set, intOf, hnow.ne'])

theorem Ended.appendLog (h : Ended task) (hnow : 0 < now) (line : String) :
    Ended (appendLog now line task) where
  ended := by
    rw [hasEnded_congr (get_appendLog (by simp) (by simp) now line task)]
    exact h.ended
  timed := by
    unfold Router.appendLog
    dsimp only
    split
    · exact h.timed
    · exact fun _ => .inr (by simp [seconds, stampTask, get_set, intOf, hnow.ne'])

-- ---------------------------------------------------------------------------
-- Writes
-- ---------------------------------------------------------------------------

def Write.sets (write : Write) (key : String) : Option Json :=
  match write with
  | .update changes => Dict.get? changes.reverse key
  | _ => .none

theorem get_apply (h : key ∉ "log" :: timeKeys) (write : Write) (now : Int) (task : Entries) :
    get (write.apply now task) key = (write.sets key).getD (get task key) := by
  simp only [List.mem_cons, not_or] at h
  cases write with
  | none => rfl
  | update changes => simp only [Write.apply, Write.sets, get_frozenUpdate h.2, get_update]
  | log line =>
    have hupdated : key ≠ "updatedAt" := by
      rintro rfl
      simp [timeKeys] at h
    simp only [Write.apply, Write.sets, Option.getD_none]
    split
    · rfl
    · exact get_appendLog h.1 hupdated _ _ _

def NatPhase.underWay : NatPhase → Bool
  | .lastLine | .done => false
  | _ => true

def DiagnosticPhase.underWay : DiagnosticPhase → Bool
  | .done => false
  | _ => true

def BetaPhase.underWay : BetaPhase → Bool
  | .done => false
  | _ => true

def Phase.underWay : Phase → Bool
  | .nat _ phase => phase.underWay
  | .diagnostic phase => phase.underWay
  | .beta phase => phase.underWay

/-- What a thread under way writes: the task goes on, or it ends with the thread. -/
structure Write.Fits (write : Write) (underWay : Bool) : Prop where
  kept : write.sets "taskId" = .none
  going : underWay = true → write.sets "state" = .none ∨ write.sets "state" = some (.str "running")
  ending : underWay = false → ∃ state ∈ terminalTaskStates, write.sets "state" = some (.str state)

omit [Unicode] in
theorem Write.fits_none : Write.none.Fits true :=
  ⟨rfl, fun _ => .inl rfl, nofun⟩

omit [Unicode] in
theorem Write.fits_log (line : String) : (Write.log line).Fits true :=
  ⟨rfl, fun _ => .inl rfl, nofun⟩

theorem runNat_fits (requested : Entries) (hown : t.own = true) {phase : NatPhase}
    (h : phase.underWay = true) :
    (runNat natMaxSeconds requested t phase).1.Fits
      (runNat natMaxSeconds requested t phase).2.underWay := by
  cases phase with
  | accepted | sentLog => exact Write.fits_log _
  | command | poll =>
    simp only [runNat]
    split <;> exact Write.fits_none
  | loop latest =>
    simp only [runNat, hown]
    split
    · exact Write.fits_none
    · cases latest <;> exact Write.fits_none
  | lines latest normalized pending =>
    cases pending with
    | nil => constructor <;> simp [runNat, Write.sets, NatPhase.underWay, natStage, Dict.get?]
    | cons line pending => exact Write.fits_log _
  | judge latest normalized =>
    simp only [runNat]
    split
    · constructor
      · simp [Write.sets, Dict.get?]
      · nofun
      · intro _
        split <;> simp [Write.sets, Dict.get?, terminalTaskStates]
    · exact Write.fits_none
  | lastLine | done => nomatch h
  | _ => constructor <;> simp [runNat, Write.sets, NatPhase.underWay, Dict.get?, terminalTaskStates]

theorem runDiagnostic_fits (hown : t.own = true) {phase : DiagnosticPhase}
    (h : phase.underWay = true) :
    (runDiagnostic t phase).1.Fits (runDiagnostic t phase).2.underWay := by
  cases phase with
  | accepted | sentLog => exact Write.fits_log _
  | command =>
    simp only [runDiagnostic]
    split <;> exact Write.fits_none
  | loop =>
    simp only [runDiagnostic, hown]
    split <;> exact Write.fits_none
  | poll =>
    simp only [runDiagnostic]
    split
    · split <;> exact Write.fits_none
    · exact Write.fits_none
  | progress latest percent =>
    constructor
    · simp [runDiagnostic, Write.sets, Dict.get?]
    · simp [runDiagnostic, Write.sets, Dict.get?]
    · simp only [runDiagnostic]
      split <;> nofun
  | done => nomatch h
  | _ =>
    constructor <;>
      simp [runDiagnostic, Write.sets, DiagnosticPhase.underWay, Dict.get?, terminalTaskStates]

theorem runBeta_fits {phase : BetaPhase} (h : phase.underWay = true) :
    (runBeta t phase).1.Fits (runBeta t phase).2.underWay := by
  cases phase with
  | query =>
    simp only [runBeta]
    split
    · split <;> exact Write.fits_none
    · exact Write.fits_none
  | done => nomatch h
  | _ => constructor <;> simp [runBeta, Write.sets, BetaPhase.underWay, Dict.get?, terminalTaskStates]

namespace Phase

theorem turn_fits (hown : t.own = true) {phase : Phase} (h : phase.underWay = true) :
    (phase.turn natMaxSeconds t).1.Fits (phase.turn natMaxSeconds t).2.underWay := by
  cases phase with
  | nat requested phase => exact runNat_fits requested hown h
  | diagnostic phase => exact runDiagnostic_fits hown h
  | beta phase => exact runBeta_fits h

theorem turn_after (natMaxSeconds : Nat) (t : Turn) {phase : Phase} (h : phase.underWay = false) :
    ((phase.turn natMaxSeconds t).1 = .none ∨ (∃ requested, phase = .nat requested .lastLine) ∧
      (phase.turn natMaxSeconds t).1 = .log (lastLine natMaxSeconds)) ∧
        (phase.turn natMaxSeconds t).2.underWay = false := by
  cases phase with
  | nat requested phase =>
    cases phase with
    | lastLine => exact ⟨.inr ⟨⟨requested, rfl⟩, rfl⟩, rfl⟩
    | done => exact ⟨.inl rfl, rfl⟩
    | _ => nomatch h
  | diagnostic phase =>
    cases phase with
    | done => exact ⟨.inl rfl, rfl⟩
    | _ => nomatch h
  | beta phase =>
    cases phase with
    | done => exact ⟨.inl rfl, rfl⟩
    | _ => nomatch h

@[simp] theorem turn_kind (phase : Phase) : (phase.turn natMaxSeconds t).2.kind = phase.kind := by
  cases phase <;> rfl

omit [Unicode] in
@[simp] theorem queued_kind (phase : Phase) : phase.queued.2.kind = phase.kind := by
  cases phase <;> rfl

end Phase

structure Turned (w : Worker) (phase : Phase) (task task' : Entries) : Prop where
  taskId : get task' "taskId" = get task "taskId"
  going : phase.underWay = true → w.phase.underWay = true ∧ isActive task' = true
  ended : hasEnded task' = true → Ended task'
  after : w.phase.underWay = false → get task' "state" = get task "state"

theorem Write.Fits.turned {phase : Phase} (h : write.Fits phase.underWay) (hnow : 0 < now)
    (hunder : w.phase.underWay = true) (hactive : isActive task = true) :
    Turned w phase task (write.apply now task) := by
  have hstate : get (write.apply now task) "state" =
      (write.sets "state").getD (get task "state") :=
    get_apply (by simp [timeKeys]) write now task
  have hgoing : phase.underWay = true → isActive (write.apply now task) = true := by
    intro hphase
    rcases h.going hphase with hsets | hsets
    · rw [hsets, Option.getD_none] at hstate
      rw [isActive_congr hstate]
      exact hactive
    · simp [isActive, hstate, hsets]
  refine ⟨?_, fun hphase => ⟨hunder, hgoing hphase⟩, fun hended => ?_, by simp [hunder]⟩
  · rw [get_apply (by simp [timeKeys]), h.kept, Option.getD_none]
  · cases hphase : phase.underWay with
    | true =>
      rw [not_hasEnded_of_active (hgoing hphase)] at hended
      nomatch hended
    | false =>
      obtain ⟨state, hmem, hsets⟩ := h.ending hphase
      cases write with
      | none | log => nomatch hsets
      | update changes =>
        refine ended_frozenUpdate hnow (hasEnded_of_state hmem ?_)
        rw [get_update]
        exact congrArg (Option.getD · _) hsets

theorem turned (hnow : 0 < now) (natMaxSeconds : Nat) (t : Turn)
    (howns : w.phase.underWay = true → t.own = true ∧ isActive task = true)
    (hended : hasEnded task = true → Ended task) :
    Turned w (w.phase.turn natMaxSeconds t).2 task
      ((w.phase.turn natMaxSeconds t).1.apply now task) := by
  cases hunder : w.phase.underWay with
  | true =>
    obtain ⟨hown, hactive⟩ := howns hunder
    exact (Phase.turn_fits hown hunder).turned hnow hunder hactive
  | false =>
    obtain ⟨hwrite, hover⟩ := Phase.turn_after natMaxSeconds t hunder
    have hgoing : (w.phase.turn natMaxSeconds t).2.underWay = true →
        w.phase.underWay = true ∧
          isActive ((w.phase.turn natMaxSeconds t).1.apply now task) = true := by
      intro hphase
      rw [hover] at hphase
      nomatch hphase
    have hkept : ∀ key ∉ "log" :: timeKeys,
        get ((w.phase.turn natMaxSeconds t).1.apply now task) key = get task key := by
      intro key hkey
      rcases hwrite with hwrite | ⟨-, hwrite⟩ <;> rw [get_apply hkey, hwrite] <;> rfl
    refine ⟨hkept _ (by simp [timeKeys]), hgoing, fun hdone => ?_,
      fun _ => hkept _ (by simp [timeKeys])⟩
    rw [hasEnded_congr (hkept "state" (by simp [timeKeys]))] at hdone
    rcases hwrite with hwrite | ⟨-, hwrite⟩
    · rw [hwrite]
      exact hended hdone
    · rw [hwrite]
      simp only [Write.apply]
      split
      · exact hended hdone
      · exact (hended hdone).appendLog hnow _

-- ---------------------------------------------------------------------------
-- Threads under way
-- ---------------------------------------------------------------------------

namespace Manager

/-- Each thread under way has the row of its kind, which is queued or running,
and there is one such thread of a kind at most. -/
structure Single (s : Manager) : Prop where
  owns : ∀ (n : Nat) (w : Worker), s.workers[n]? = some w → w.phase.underWay = true →
    get (s.tasks w.kind) "taskId" = .str w.taskId ∧ isActive (s.tasks w.kind) = true
  single : ∀ (n m : Nat) (w w' : Worker), s.workers[n]? = some w → s.workers[m]? = some w' →
    w.kind = w'.kind → w.phase.underWay = true → w'.phase.underWay = true → n = m

structure Invariant (s : Manager) : Prop extends Single s where
  ended : ∀ kind, hasEnded (s.tasks kind) = true → Ended (s.tasks kind)
  known : ∀ kind, get (s.tasks kind) "taskId" ∈ s.ids

omit [Unicode] in
@[simp] theorem setTask_tasks (s : Manager) (kind : TaskKind) (task : Entries) (k : TaskKind) :
    (s.setTask kind task).tasks k = if k = kind then task else s.tasks k := rfl

def meets (s : Manager) (w : Worker) (t : Turn) : Turn :=
  { t with own := get (s.tasks w.kind) "taskId" == .str w.taskId }

/-- The write of a turn and where it leaves the thread. -/
def turn (s : Manager) (w : Worker) (t : Turn) : Write × Phase :=
  w.phase.turn s.natMaxSeconds (s.meets w t)

theorem step_work (h : s.workers[n]? = some w) (t : Turn) : s.step (.work n t) =
    { s.setTask w.kind ((s.turn w t).1.apply t.now (s.tasks w.kind)) with
      workers := s.workers.set n { w with phase := (s.turn w t).2 } } := by
  simp only [step, h]
  rfl

theorem Invariant.turned (h : Invariant s) (hw : s.workers[n]? = some w) (t : Turn) :
    Turned w (s.turn w t).2 (s.tasks w.kind) ((s.turn w t).1.apply t.now (s.tasks w.kind)) := by
  refine Threads.turned t.now.2 s.natMaxSeconds (s.meets w t) (fun hunder => ?_) (h.ended w.kind)
  obtain ⟨hid, hactive⟩ := h.owns n w hw hunder
  exact ⟨by simp [meets, hid], hactive⟩

omit [Unicode] in
theorem begin_task {taskId stageText : String} {task' : Entries}
    (h : beginTask now kind taskId stageText task = some task') :
    isActive task = false ∧ get task' "taskId" = .str taskId ∧ isActive task' = true := by
  unfold beginTask at h
  split at h
  · nomatch h
  · rename_i hactive
    obtain rfl := Option.some.inj h
    refine ⟨by simpa using hactive, ?_, ?_⟩ <;> simp [isActive, get_update, Dict.get?]

theorem Invariant.step_start (h : Invariant s) (phase : Phase) (taskId : String) (now : Clock) :
    Invariant (s.step (.start phase taskId now)) := by
  simp only [Manager.step]
  split
  · exact h
  rename_i task hbegin
  obtain ⟨hidle, hid, hactive⟩ := begin_task hbegin
  split
  · exact h
  have hcases : ∀ (n : Nat) (w : Worker),
      (s.workers ++ [⟨taskId, phase.queued.2⟩])[n]? = some w →
        s.workers[n]? = some w ∨ n = s.workers.length ∧ w = ⟨taskId, phase.queued.2⟩ := by
    intro n w hw
    rw [List.getElem?_append] at hw
    split at hw
    · exact .inl hw
    · obtain ⟨hn, rfl⟩ := List.getElem?_eq_some_iff.mp hw
      simp only [List.length_singleton] at hn
      exact .inr ⟨by omega, by simp⟩
  -- a thread under way of the kind would have the row that is not active
  have hother : ∀ (n : Nat) (w : Worker), s.workers[n]? = some w → w.phase.underWay = true →
      w.kind ≠ phase.kind := by
    intro n w hw hunder hkind
    have hrow := (h.owns n w hw hunder).2
    rw [hkind, hidle] at hrow
    nomatch hrow
  refine ⟨⟨?owns, ?single⟩, ?ended, ?known⟩
  case owns =>
    intro n w hw hunder
    rcases hcases n w hw with hw | ⟨-, rfl⟩
    · simp only [setTask_tasks, if_neg (hother n w hw hunder)]
      exact h.owns n w hw hunder
    · have hkind : (⟨taskId, phase.queued.2⟩ : Worker).kind = phase.kind := phase.queued_kind
      simp only [setTask_tasks, if_pos hkind]
      exact ⟨hid, hactive⟩
  case single =>
    intro n m w w' hw hw' hkind hunder hunder'
    rcases hcases n w hw with hw | ⟨hn, rfl⟩ <;> rcases hcases m w' hw' with hw' | ⟨hm, rfl⟩
    · exact h.single n m w w' hw hw' hkind hunder hunder'
    · exact absurd (hkind.trans phase.queued_kind) (hother n w hw hunder)
    · exact absurd (hkind.symm.trans phase.queued_kind) (hother m w' hw' hunder')
    · rw [hn, hm]
  case ended =>
    intro kind hended
    simp only [setTask_tasks] at hended ⊢
    split at hended
    · rw [not_hasEnded_of_active hactive] at hended
      nomatch hended
    · rename_i hkind
      rw [if_neg hkind]
      exact h.ended kind hended
  case known =>
    intro kind
    simp only [setTask_tasks]
    split
    · simp [hid]
    · exact List.mem_append_left _ (h.known kind)

theorem Invariant.step_work (h : Invariant s) (n : Nat) (t : Turn) :
    Invariant (s.step (.work n t)) := by
  cases hw : s.workers[n]? with
  | none =>
    simp only [Manager.step, hw]
    exact h
  | some w =>
    rw [Manager.step_work hw]
    have hturn := h.turned hw t
    have hkind : (s.turn w t).2.kind = w.kind := Phase.turn_kind _
    have hcases : ∀ (m : Nat) (v : Worker), (s.workers.set n ⟨w.taskId, (s.turn w t).2⟩)[m]? = some v →
        v.phase.underWay = true →
          ∃ u, s.workers[m]? = some u ∧ u.phase.underWay = true ∧ u.kind = v.kind ∧
            u.taskId = v.taskId ∧ (m = n → v.phase = (s.turn w t).2) := by
      intro m v hv hunder
      rw [List.getElem?_set] at hv
      split at hv
      · rename_i hm
        split at hv
        · obtain rfl := Option.some.inj hv
          exact ⟨w, hm ▸ hw, (hturn.going hunder).1, hkind.symm, rfl, fun _ => rfl⟩
        · nomatch hv
      · rename_i hm
        exact ⟨v, hv, hunder, rfl, rfl, fun hmn => absurd hmn.symm hm⟩
    refine ⟨⟨?owns, ?single⟩, ?ended, ?known⟩
    case owns =>
      intro m v hv hunder
      obtain ⟨u, hu, hunder', hkind', hid, hphase⟩ := hcases m v hv hunder
      have howns := h.owns m u hu hunder'
      rw [hkind', hid] at howns
      simp only [setTask_tasks]
      split
      · rename_i hsame
        rw [hsame] at howns
        refine ⟨hturn.taskId.trans howns.1, ?_⟩
        by_cases hm : m = n
        · exact (hturn.going (hphase hm ▸ hunder)).2
        · -- the thread that writes is not under way, for `v` is
          have hover : w.phase.underWay = false := by
            rw [Bool.eq_false_iff]
            exact fun hw' => hm (h.single m n u w hu hw (hkind'.trans hsame) hunder' hw')
          rw [isActive_congr (hturn.after hover)]
          exact howns.2
      · exact howns
    case single =>
      intro m m' v v' hv hv' hkind' hunder hunder'
      obtain ⟨u, hu, hu1, hu2, -⟩ := hcases m v hv hunder
      obtain ⟨u', hu', hu1', hu2', -⟩ := hcases m' v' hv' hunder'
      exact h.single m m' u u' hu hu' (by rw [hu2, hu2', hkind']) hu1 hu1'
    case ended =>
      intro kind hended
      simp only [setTask_tasks] at hended ⊢
      split at hended
      · rename_i hsame
        rw [if_pos hsame]
        exact hturn.ended hended
      · rename_i hsame
        rw [if_neg hsame]
        exact h.ended kind hended
    case known =>
      intro kind
      simp only [setTask_tasks]
      split
      · rw [hturn.taskId]
        exact h.known w.kind
      · exact h.known kind

theorem Invariant.step (h : Invariant s) (e : Event) : Invariant (s.step e) := by
  cases e with
  | start phase taskId now => exact h.step_start phase taskId now
  | work n t => exact h.step_work n t
  | snapshot kind now => exact ⟨⟨h.owns, h.single⟩, h.ended, h.known⟩

theorem ended_freezeLoaded (hnow : 0 < now) (h : hasEnded (freezeLoaded now task) = true) :
    Ended (freezeLoaded now task) := by
  refine ⟨h, fun hstarted => ?_⟩
  unfold freezeLoaded at h hstarted ⊢
  split
  · have hended : firstTime (seconds task "completedAt") (seconds task "updatedAt") now ≠ 0 := by
      simp only [firstTime]
      split
      · assumption
      · split
        · assumption
        · exact hnow.ne'
    refine .inl ?_
    simp only [freeze]
    split <;> simpa [seconds, get_set, intOf] using hended
  · rename_i hnot
    rw [if_neg hnot] at h hstarted
    exact absurd ⟨h, hstarted⟩ hnot

theorem invariant_restored (natMaxSeconds : Nat) (stored : TaskKind → Entries) (now : Clock) :
    Invariant (restored natMaxSeconds stored now) where
  owns _ _ := nofun
  single _ _ _ _ := nofun
  ended _ := ended_freezeLoaded now.2
  known kind := List.mem_map.mpr ⟨kind, mem_taskKinds kind, rfl⟩

-- ---------------------------------------------------------------------------
-- Tasks that keep to themselves
-- ---------------------------------------------------------------------------

/-- A thread changes the row of its task only, and that stays the row of its task. -/
def Isolated (s : Manager) (e : Event) : Prop :=
  match e with
  | .work n _ => ∀ w, s.workers[n]? = some w → ∀ kind, (s.step e).tasks kind ≠ s.tasks kind →
    kind = w.kind ∧ get (s.tasks kind) "taskId" = .str w.taskId ∧
      get ((s.step e).tasks kind) "taskId" = .str w.taskId
  | _ => True

/-- A task that has ended in a snapshot is the same in each later one. -/
def Frozen (s : Manager) : Prop :=
  s.seen.Pairwise fun a b => a.1 = b.1 → get a.2 "taskId" = get b.2 "taskId" →
    hasEnded a.2 = true → b.2 = a.2

/-- The NAT thread that has run out of time finds its last line in the log. -/
def NoLastLine (s : Manager) : Event → Prop
  | .work n _ => ∀ w requested, s.workers[n]? = some w → w.phase = .nat requested .lastLine →
    ((get (s.tasks .nat) "log").list?.getD []).getLast? =
      some (.str (strip (lastLine s.natMaxSeconds)))
  | _ => True

theorem Invariant.unchanged (hw : s.workers[n]? = some w) (t : Turn)
    (hline : NoLastLine s (.work n t)) (hunder : w.phase.underWay = false) :
    (s.turn w t).1.apply t.now (s.tasks w.kind) = s.tasks w.kind := by
  obtain ⟨hwrite | ⟨⟨requested, hphase⟩, hwrite⟩, -⟩ :=
    Phase.turn_after s.natMaxSeconds (s.meets w t) hunder
  · rw [turn, hwrite]
    rfl
  · have hkind : w.kind = .nat := congrArg Phase.kind hphase
    rw [turn, hwrite, hkind]
    simp only [Write.apply, appendLog]
    split
    · rfl
    · exact if_pos (hline w requested hw hphase)

theorem Invariant.isolated (h : Invariant s) (e : Event) (hline : NoLastLine s e) :
    Isolated s e := by
  cases e with
  | start | snapshot => exact trivial
  | work n t =>
    intro w hw kind hchanged
    rw [Manager.step_work hw] at hchanged ⊢
    simp only [setTask_tasks] at hchanged ⊢
    split at hchanged
    · rename_i hkind
      rw [if_pos hkind, hkind]
      cases hunder : w.phase.underWay with
      | true =>
        have hid := (h.owns n w hw hunder).1
        exact ⟨rfl, hid, (h.turned hw t).taskId.trans hid⟩
      | false =>
        rw [hkind] at hchanged
        exact absurd (Invariant.unchanged hw t hline hunder) hchanged
    · exact absurd rfl hchanged

/-- The snapshots taken so far, beside the rows. -/
structure Kept (s : Manager) : Prop where
  known : ∀ a ∈ s.seen, get a.2 "taskId" ∈ s.ids
  kept : ∀ a ∈ s.seen, hasEnded a.2 = true → get (s.tasks a.1) "taskId" = get a.2 "taskId" →
    hasEnded (s.tasks a.1) = true ∧ ∀ now, frozenSnapshot now (s.tasks a.1) = a.2
  frozen : Frozen s

theorem Kept.step_snapshot (h : Invariant s) (hk : Kept s) (kind : TaskKind) (now : Clock) :
    Kept (s.step (.snapshot kind now)) := by
  have hid : get (frozenSnapshot now (s.tasks kind)) "taskId" = get (s.tasks kind) "taskId" :=
    get_frozenSnapshot (by simp) now _
  have hstate : hasEnded (frozenSnapshot now (s.tasks kind)) = hasEnded (s.tasks kind) :=
    hasEnded_congr (get_frozenSnapshot (by simp) now _)
  simp only [Manager.step]
  refine ⟨?known, ?kept, ?frozen⟩
  case known =>
    simp only [List.forall_mem_append, List.forall_mem_singleton]
    exact ⟨hk.known, hid ▸ h.known kind⟩
  case kept =>
    simp only [List.forall_mem_append, List.forall_mem_singleton]
    refine ⟨hk.kept, fun hended _ => ?_⟩
    rw [hstate] at hended
    exact ⟨hended, fun now' => (h.ended kind hended).snapshot_eq now' now⟩
  case frozen =>
    refine List.pairwise_append.mpr ⟨hk.frozen, List.pairwise_singleton _ _, ?_⟩
    rintro a ha b hb hkind hsame hended
    obtain rfl := List.mem_singleton.mp hb
    obtain rfl : a.1 = kind := hkind
    exact (hk.kept a ha hended (hid.symm.trans hsame.symm)).2 now

theorem Kept.step_start (hk : Kept s) (phase : Phase) (taskId : String) (now : Clock) :
    Kept (s.step (.start phase taskId now)) := by
  simp only [Manager.step]
  split
  · exact hk
  rename_i task hbegin
  split
  · exact hk
  rename_i hfresh
  refine ⟨fun a ha => List.mem_append_left _ (hk.known a ha), fun a ha hended hsame => ?_, hk.frozen⟩
  simp only [setTask_tasks] at hsame ⊢
  split at hsame
  · -- no snapshot is of the new task
    rw [(begin_task hbegin).2.1] at hsame
    exact absurd (hsame ▸ hk.known a ha) hfresh
  · rename_i hkind
    rw [if_neg hkind]
    exact hk.kept a ha hended hsame

theorem Kept.step_work (h : Invariant s) (hk : Kept s) (n : Nat) (t : Turn)
    (hline : NoLastLine s (.work n t)) : Kept (s.step (.work n t)) := by
  cases hw : s.workers[n]? with
  | none =>
    simp only [Manager.step, hw]
    exact hk
  | some w =>
    rw [Manager.step_work hw]
    refine ⟨hk.known, fun a ha hended hsame => ?_, hk.frozen⟩
    simp only [setTask_tasks] at hsame ⊢
    split at hsame
    · rename_i hkind
      rw [if_pos hkind]
      cases hunder : w.phase.underWay with
      | true =>
        -- the task of a thread under way has not ended
        rw [(h.turned hw t).taskId, ← hkind] at hsame
        have hrow := (hk.kept a ha hended hsame).1
        rw [hkind, not_hasEnded_of_active (h.owns n w hw hunder).2] at hrow
        nomatch hrow
      | false =>
        rw [Invariant.unchanged hw t hline hunder, ← hkind] at hsame ⊢
        exact hk.kept a ha hended hsame
    · rename_i hkind
      rw [if_neg hkind]
      exact hk.kept a ha hended hsame

theorem Kept.step (h : Invariant s) (hk : Kept s) (e : Event) (hline : NoLastLine s e) :
    Kept (s.step e) := by
  cases e with
  | snapshot kind now => exact hk.step_snapshot h kind now
  | start phase taskId now => exact hk.step_start phase taskId now
  | work n t => exact hk.step_work h n t hline

theorem kept_restored (natMaxSeconds : Nat) (stored : TaskKind → Entries) (now : Clock) :
    Kept (restored natMaxSeconds stored now) :=
  ⟨nofun, nofun, List.Pairwise.nil⟩

/-- In every run there is one thread under way of a kind at most, and its row is
queued or running. -/
theorem single_run (natMaxSeconds : Nat) (stored : TaskKind → Entries) (now : Clock)
    (es : List Event) : Single (run step (restored natMaxSeconds stored now) es) :=
  (run_invariant (invariant_restored natMaxSeconds stored now) fun _ e h => h.step e).toSingle

/-- In a run in which no NAT thread that has run out of time adds its last line, a
thread changes its own task only, a kind has one thread under way at most, and a
task that has ended in a snapshot is the same in each later one. -/
theorem tasks_isolated (natMaxSeconds : Nat) (stored : TaskKind → Entries) (now : Clock)
    (es : List Event) (h : Along step NoLastLine (restored natMaxSeconds stored now) es) :
    Along step Isolated (restored natMaxSeconds stored now) es ∧
      Single (run step (restored natMaxSeconds stored now) es) ∧
        Frozen (run step (restored natMaxSeconds stored now) es) := by
  have hinit : Invariant (restored natMaxSeconds stored now) ∧
      Kept (restored natMaxSeconds stored now) :=
    ⟨invariant_restored natMaxSeconds stored now, kept_restored natMaxSeconds stored now⟩
  have hstep : ∀ s e, Invariant s ∧ Kept s → NoLastLine s e →
      Invariant (step s e) ∧ Kept (step s e) :=
    fun s e ⟨hs, hk⟩ hline => ⟨hs.step e, hk.step hs e hline⟩
  refine ⟨h.mono hinit hstep fun s e hs hline => hs.1.isolated e hline, ?_, ?_⟩
  · exact single_run natMaxSeconds stored now es
  · exact (h.invariant hinit hstep).2.frozen

end Manager

end

namespace Manager

attribute [local instance] Unicode.ascii

/-- Nothing was stored. -/
def fresh : Manager := restored 240 (fun _ => []) ⟨1, by decide⟩

/-- A turn of the first thread at second `n + 1`. -/
def turnAt (n : Nat) (v : Json) (expired : Bool) : Event :=
  .work 0 ⟨⟨n + 1, by omega⟩, .value v, expired, true⟩

theorem tasks_isolated_beta :
    let es := [.start (.beta .running) "beta-1" ⟨1, by decide⟩, turnAt 0 .null false,
      turnAt 1 (.dict [("msg", .str "no update")]) false, turnAt 1 .null false,
      .snapshot .beta ⟨3, by decide⟩]
    Along step NoLastLine fresh es ∧
      Along step Isolated fresh es ∧ Single (run step fresh es) ∧ Frozen (run step fresh es) := by
  intro es
  have h : Along step NoLastLine fresh es := by
    refine ⟨trivial, ?_, ?_, ?_, trivial, trivial⟩ <;>
    · intro w requested hw hphase
      cases hw
      nomatch hphase
  exact ⟨h, tasks_isolated 240 _ _ es h⟩

/-- A NAT test to which the router has not answered anything in its time. -/
def outOfTime : List Event :=
  .start (.nat [] .running) "nat-1" ⟨1, by decide⟩ ::
    (List.replicate 7 (turnAt 1 .null false) ++ List.replicate 2 (turnAt 249 .null true))

/-- The last line comes after the end: into a task that a snapshot has shown as
ended, and into the task that has taken the row meanwhile. -/
theorem last_line_after_end :
    (¬ Frozen (run step fresh (outOfTime ++
      [.snapshot .nat ⟨251, by decide⟩, turnAt 251 .null true, .snapshot .nat ⟨252, by decide⟩]))) ∧
    ¬ Along step Isolated fresh
      (outOfTime ++ [.start (.nat [] .running) "nat-2" ⟨251, by decide⟩] ++ [turnAt 251 .null true]) := by
  constructor
  · unfold Frozen
    decide +kernel
  · intro h
    have hthread : ((run step fresh
        (outOfTime ++ [.start (.nat [] .running) "nat-2" ⟨251, by decide⟩])).workers[0]?).map
          (·.taskId) = some "nat-1" := by
      decide +kernel
    obtain ⟨w, hw, hid⟩ := Option.map_eq_some_iff.mp hthread
    obtain ⟨-, hrow, -⟩ := h.last w hw .nat (by decide +kernel)
    rw [hid] at hrow
    exact absurd hrow (by decide +kernel)

end Manager

end LabProbe.Router.Threads
