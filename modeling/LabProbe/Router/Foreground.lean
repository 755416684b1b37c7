import LabProbe.Router.Control

/-!
# The foreground count of the control actor

The count is raised before an item is put and lowered by the worker or by the
thread that could not put it, each under the lock. It is the number of the
foreground calls between the two, so background work is let in once these have
come to an end, as they always can.
-/

namespace LabProbe.Router.Control

open Runs

namespace RouterControlActor

variable {ν ε : Type} {s s' : RouterControlActor ν ε} {n : Nat} {c : Call ν ε}
  {f : Call ν ε → Call ν ε}

-- ---------------------------------------------------------------------------
-- The stages of a call
-- ---------------------------------------------------------------------------

def Stage.Reaches (a b : Stage) : Prop :=
  a = b ∨ a = .announced ∧ b ≠ .refused ∨ a = .queued ∧ (b = .taken ∨ b = .started) ∨
    a = .taken ∧ b = .started

theorem Stage.Reaches.trans {a b c : Stage} (hab : Stage.Reaches a b) (hbc : Stage.Reaches b c) :
    Stage.Reaches a c := by
  unfold Stage.Reaches at *
  cases a <;> cases b <;> simp at hab <;> cases c <;> simp at hbc ⊢

/-- Every call is still there, and has gone on. -/
def Later (s s' : RouterControlActor ν ε) : Prop :=
  ∀ (n : Nat) (c : Call ν ε), s.calls[n]? = some c →
    ∃ c' : Call ν ε, s'.calls[n]? = some c' ∧ Stage.Reaches c.stage c'.stage

theorem later_self (h : s'.calls = s.calls) : Later s s' :=
  fun _ c hc => ⟨c, by rw [h, hc], .inl rfl⟩

theorem Later.trans {s'' : RouterControlActor ν ε} (h : Later s s') (h' : Later s' s'') :
    Later s s'' := by
  intro n c hc
  obtain ⟨c', hc', hreach⟩ := h n c hc
  obtain ⟨c'', hc'', hreach'⟩ := h' n c' hc'
  exact ⟨c'', hc'', hreach.trans hreach'⟩

theorem later_append {l : List (Call ν ε)} (h : s'.calls = s.calls ++ l) : Later s s' := by
  intro n c hc
  refine ⟨c, ?_, .inl rfl⟩
  rw [h, List.getElem?_append_left (List.getElem?_eq_some_iff.mp hc).1, hc]

theorem later_modify (hcalls : s'.calls = s.calls.modify n f)
    (hf : ∀ c, s.calls[n]? = some c → Stage.Reaches c.stage (f c).stage) : Later s s' := by
  intro m c hc
  rw [hcalls, List.getElem?_modify, hc]
  by_cases hm : n = m
  · subst hm
    exact ⟨f c, by simp, hf c hc⟩
  · exact ⟨c, by simp [hm], .inl rfl⟩

theorem Invariant.later_step (h : Invariant s) (e : Event ν ε) : Later s (s.step e) := by
  have hself : Later s s := later_self rfl
  cases e with
  | submit priority label =>
    simp only [step]
    split
    · exact later_append (l := [_]) rfl
    · exact later_append (l := [_]) rfl
  | make n =>
    refine onCall_cases (fun c hc => ?_) hself
    split
    · exact later_modify rfl fun _ _ => .inl rfl
    · exact hself
  | put n =>
    refine onCall_cases (fun c hc => ?_) hself
    split
    · rename_i sequence hphase
      split
      · refine later_modify rfl fun d hd => ?_
        obtain rfl : d = c := Option.some.inj (hd.symm.trans hc)
        exact .inr (.inl ⟨(h.fitsAt hc).before.mp (by rw [hphase]; rfl), by simp⟩)
      · exact hself
    · exact hself
  | putFull n =>
    refine onCall_cases (fun c hc => ?_) hself
    split
    · split
      · exact hself
      · exact later_modify rfl fun _ _ => .inl rfl
    · exact hself
  | reject n =>
    refine onCall_cases (fun c hc => ?_) hself
    split
    · rename_i hphase
      refine later_modify rfl fun d hd => ?_
      obtain rfl : d = c := Option.some.inj (hd.symm.trans hc)
      exact .inr (.inl ⟨(h.fitsAt hc).before.mp (by rw [hphase]; rfl), by simp⟩)
    · exact hself
  | timeout n =>
    refine onCall_cases (fun c hc => ?_) hself
    split
    · split
      · exact hself
      · exact later_modify rfl fun _ _ => .inl rfl
    · exact hself
  | wake n =>
    refine onCall_cases (fun c hc => ?_) hself
    split
    · split
      · exact later_modify rfl fun _ _ => .inl rfl
      · exact hself
    · exact hself
  | get =>
    simp only [step]
    split <;> exact later_self rfl
  | count =>
    simp only [step]
    split
    · rename_i item hworker
      refine later_modify rfl fun d hd => ?_
      obtain ⟨c, hc, hstage, -⟩ := h.working hworker
      obtain rfl : d = c := Option.some.inj (hd.symm.trans hc)
      exact .inr (.inr (.inl ⟨hstage, .inl rfl⟩))
    · exact hself
  | call =>
    simp only [step]
    split
    · rename_i item hworker
      refine later_modify rfl fun d hd => ?_
      obtain ⟨c, hc, hstage, -⟩ := h.working hworker
      obtain rfl : d = c := Option.some.inj (hd.symm.trans hc)
      exact .inr (.inr (.inr ⟨hstage, rfl⟩))
    · exact hself
  | inner priority label result =>
    simp only [step]
    split
    · exact later_append (l := [_]) rfl
    · exact hself
  | finish result =>
    simp only [step]
    split
    · refine later_modify rfl fun d _ => ?_
      cases result <;> exact .inl rfl
    · exact hself
  | clear =>
    simp only [step]
    split <;> exact later_self rfl
  | setDone =>
    simp only [step]
    split
    · exact later_modify rfl fun _ _ => .inl rfl
    · exact hself

theorem Invariant.later_run (h : Invariant s) (es : List (Event ν ε)) :
    Later s (run step s es) := by
  induction es generalizing s with
  | nil => exact later_self rfl
  | cons e es ih => exact (h.later_step e).trans (ih (h.next e))

-- ---------------------------------------------------------------------------
-- Coming to rest
-- ---------------------------------------------------------------------------

def Event.isWorkers : Event ν ε → Bool
  | .get | .count | .call | .finish _ | .clear | .setDone => true
  | _ => false

def unsent (s : RouterControlActor ν ε) : Nat := s.calls.countP fun c => c.stage == .announced

structure Resting (s : RouterControlActor ν ε) : Prop where
  worker : s.worker = none
  queue : s.queue = []

/-- The worker has counted its item and not yet cleared its priority. -/
def WorkerPhase.isActive : WorkerPhase → Bool
  | .counted | .running | .leaving => true
  | _ => false

def Active (s : RouterControlActor ν ε) : Prop :=
  s.activePriority.isSome = s.worker.any fun w => WorkerPhase.isActive w.2

theorem unsent_modify (hc : s.calls[n]? = some c) (hcalls : s'.calls = s.calls.modify n f)
    (hstage : c.stage ≠ .announced) (hstage' : (f c).stage ≠ .announced) : s'.unsent = s.unsent := by
  have hmodify := Rows.countP_modify (p := fun c : Call ν ε => c.stage == .announced) (f := f) hc
  simpa [unsent, hcalls, hstage, hstage'] using hmodify

theorem Invariant.unsent_workers (h : Invariant s) {e : Event ν ε} (he : e.isWorkers = true) :
    (s.step e).unsent = s.unsent := by
  cases e with
  | get =>
    simp only [step]
    split <;> rfl
  | clear =>
    simp only [step]
    split <;> rfl
  | count =>
    simp only [step]
    split
    · rename_i item hworker
      obtain ⟨c, hc, hstage, -⟩ := h.working hworker
      exact unsent_modify hc rfl (by simp [hstage, WorkerPhase.stage]) (by simp)
    · rfl
  | call =>
    simp only [step]
    split
    · rename_i item hworker
      obtain ⟨c, hc, hstage, -⟩ := h.working hworker
      exact unsent_modify hc rfl (by simp [hstage, WorkerPhase.stage]) (by simp)
    · rfl
  | finish result =>
    simp only [step]
    split
    · rename_i item hworker
      obtain ⟨c, hc, hstage, -⟩ := h.working hworker
      have hne : c.stage ≠ .announced := by simp [hstage, WorkerPhase.stage]
      exact unsent_modify hc rfl hne (by cases result <;> exact hne)
    · rfl
  | setDone =>
    simp only [step]
    split
    · rename_i item hworker
      obtain ⟨c, hc, hstage, -⟩ := h.working hworker
      have hne : c.stage ≠ .announced := by simp [hstage, WorkerPhase.stage]
      exact unsent_modify hc rfl hne hne
    · rfl
  | submit | make | put | putFull | reject | timeout | wake | inner => cases he

theorem Invariant.unsent_run (h : Invariant s) {es : List (Event ν ε)}
    (hes : ∀ e ∈ es, e.isWorkers = true) : (run step s es).unsent = s.unsent := by
  induction es generalizing s with
  | nil => rfl
  | cons e es ih =>
    obtain ⟨he, hes⟩ := List.forall_mem_cons.mp hes
    rw [run_cons, ih (h.next e) hes, h.unsent_workers he]

theorem Active.next (h : Active s) (e : Event ν ε) : Active (s.step e) := by
  cases e with
  | submit =>
    simp only [step]
    split <;> exact h
  | make | reject =>
    refine onCall_cases (fun c _ => ?_) h
    split <;> exact h
  | put | putFull | timeout | wake =>
    refine onCall_cases (fun c _ => ?_) h
    split
    · split <;> exact h
    · exact h
  | inner =>
    simp only [step]
    split <;> exact h
  | get | count | call | finish | clear | setDone =>
    simp only [step]
    split
    · simp_all [Active, WorkerPhase.isActive, change]
    · exact h

theorem active_run (es : List (Event ν ε)) : Active (run step start es) :=
  run_invariant (I := Active) rfl fun _ e h => h.next e

def remaining (result : Except ε ν) : WorkerPhase → List (Event ν ε)
  | .got => [.count, .call, .finish result, .clear, .setDone]
  | .counted => [.call, .finish result, .clear, .setDone]
  | .running => [.finish result, .clear, .setDone]
  | .leaving => [.clear, .setDone]
  | .cleared => [.setDone]

theorem run_remaining {item : ActorItem} {at_ : WorkerPhase} (hw : s.worker = some (item, at_))
    (result : Except ε ν) :
    (run step s (remaining result at_)).worker = none ∧
      (run step s (remaining result at_)).queue = s.queue := by
  cases at_ <;> simp [remaining, step, hw, change]

theorem exists_resting [Inhabited ν] (s : RouterControlActor ν ε) :
    ∃ es : List (Event ν ε), (∀ e ∈ es, e.isWorkers = true) ∧ Resting (run step s es) := by
  have hfinish : ∀ s : RouterControlActor ν ε, ∃ es : List (Event ν ε),
      (∀ e ∈ es, e.isWorkers = true) ∧ (run step s es).worker = none ∧
        (run step s es).queue = s.queue := by
    intro s
    cases hw : s.worker with
    | none => exact ⟨[], by simp, hw, rfl⟩
    | some w =>
      obtain ⟨item, at_⟩ := w
      refine ⟨remaining (.ok default) at_, ?_, run_remaining hw _⟩
      cases at_ <;> simp [remaining, Event.isWorkers]
  generalize hk : s.queue.length = k
  induction k generalizing s with
  | zero =>
    obtain ⟨es, hes, hworker, hqueue⟩ := hfinish s
    exact ⟨es, hes, hworker, hqueue.trans (List.eq_nil_of_length_eq_zero hk)⟩
  | succ k ih =>
    obtain ⟨es, hes, hworker, hqueue⟩ := hfinish s
    -- with its item done, the worker takes the first of the queue
    obtain ⟨item, rest, hitems⟩ := List.exists_cons_of_length_eq_add_one hk
    have hget : ((run step s es).step .get).queue = rest := by
      simp [step, hworker, hqueue, hitems]
    obtain ⟨fs, hfs, hrest⟩ := ih ((run step s es).step .get) (by
      rw [hget]
      simpa [hitems] using hk)
    refine ⟨es ++ .get :: fs, ?_, by simpa using hrest⟩
    simpa [or_imp, forall_and, Event.isWorkers] using ⟨hes, hfs⟩

theorem Resting.placed (hr : Resting s) : s.placed = [] := by
  simp [RouterControlActor.placed, places, hr.worker, hr.queue]

/-- At rest the only calls that have not come to an end are those that have
not been put. -/
theorem Invariant.resting_pending (h : Invariant s) (hr : Resting s) (hu : s.unsent = 0) :
    s.foregroundPending = 0 := by
  rw [h.counted, Int.natCast_eq_zero, List.countP_eq_zero]
  intro c hc hout
  obtain ⟨n, hn⟩ := List.mem_iff_getElem?.mp hc
  simp only [Call.outstanding, Bool.and_eq_true, Bool.or_eq_true, beq_iff_eq] at hout
  rcases hout.2 with hstage | hstage
  · exact absurd (beq_iff_eq.mpr hstage) (List.countP_eq_zero.mp hu c hc)
  · have hmem := h.found n c hn (.inl hstage)
    rw [hr.placed] at hmem
    cases hmem

/-- A call that has not been put can go on until its item is sent or it is rejected. -/
theorem Invariant.exists_sent (h : Invariant s) (hr : Resting s) {k : Nat} (hu : s.unsent = k + 1) :
    ∃ es : List (Event ν ε), (∀ e ∈ es, e.isSubmit = false) ∧ (run step s es).unsent = k := by
  obtain ⟨c, hc, hstage⟩ := List.countP_pos_iff.mp (hu ▸ Nat.succ_pos k : 0 < s.unsent)
  obtain ⟨n, hn⟩ := List.mem_iff_getElem?.mp hc
  have hbefore := (h.fitsAt hn).before.mpr (beq_iff_eq.mp hstage)
  have hsent : ∀ {f : Call ν ε → Call ν ε} {s' : RouterControlActor ν ε},
      s'.calls = s.calls.modify n f → (f c).stage ≠ .announced → s'.unsent = k := by
    intro f s' hcalls hne
    have hmodify := Rows.countP_modify (p := fun c : Call ν ε => c.stage == .announced) (f := f) hn
    have hcount : s.calls.countP (fun c => c.stage == .announced) = k + 1 := hu
    rw [← hcalls, hcount, if_pos hstage, if_neg (by simpa using hne)] at hmodify
    exact Nat.succ.inj hmodify
  cases hphase : c.phase with
  | announced =>
    refine ⟨[.make n, .put n], by simp [Event.isSubmit], ?_⟩
    refine hsent (f := fun c => { c with phase := .waiting, stage := .queued }) ?_ (by simp)
    simp [step, onCall, hn, hphase, change, hr.queue, queueSize, List.modify_modify_eq,
      Function.comp_def]
  | putting sequence =>
    refine ⟨[.put n], by simp [Event.isSubmit], ?_⟩
    refine hsent (f := fun c => { c with phase := .waiting, stage := .queued }) ?_ (by simp)
    simp [step, onCall, hn, hphase, change, hr.queue, queueSize]
  | full =>
    refine ⟨[.reject n], by simp [Event.isSubmit], ?_⟩
    refine hsent (f := fun c =>
      { c with phase := .ended (.refused controlQueueBusy), stage := .rejected }) ?_ (by simp)
    simp [step, onCall, hn, hphase, change]
  | waiting | ended => simp [hphase, Phase.isBefore] at hbefore

theorem exists_idle [Inhabited ν] (h : Invariant s) (ha : Active s) :
    ∃ es : List (Event ν ε), (∀ e ∈ es, e.isSubmit = false) ∧ (run step s es).busy = false := by
  generalize hk : s.unsent = k
  induction k generalizing s with
  | zero =>
    obtain ⟨es, hes, hr⟩ := exists_resting s
    have hafter := h.after es
    have hactive : Active (run step s es) := run_invariant ha fun _ e h => h.next e
    have hpending := hafter.resting_pending hr ((h.unsent_run hes).trans hk)
    refine ⟨es, fun e he => ?_, ?_⟩
    · have hw := hes e he
      cases e <;> first
        | rfl
        | cases hw
    · unfold Active at hactive
      rw [hr.worker, Option.any_none, Option.isSome_eq_false_iff] at hactive
      simp [busy, Option.isNone_iff_eq_none.mp hactive, hpending, hr.queue]
  | succ k ih =>
    obtain ⟨es, hes, hr⟩ := exists_resting s
    have hactive : Active (run step s es) := run_invariant ha fun _ e h => h.next e
    obtain ⟨fs, hfs, hu⟩ := (h.after es).exists_sent hr ((h.unsent_run hes).trans hk)
    obtain ⟨gs, hgs, hidle⟩ := ih ((h.after es).after fs)
      (run_invariant hactive fun _ e h => h.next e) hu
    refine ⟨es ++ (fs ++ gs), ?_, by simpa using hidle⟩
    have hes' : ∀ e ∈ es, e.isSubmit = false := fun e he => by
      have hw := hes e he
      cases e <;> first
        | rfl
        | cases hw
    simpa [or_imp, forall_and] using ⟨hes', hfs, hgs⟩

-- ---------------------------------------------------------------------------
-- Accounting
-- ---------------------------------------------------------------------------

def Lowers (s : RouterControlActor ν ε) : Event ν ε → Prop
  | .count => ∃ item, s.worker = some (item, .got) ∧ isForeground item.priority = true
  | .reject n => ∃ c, s.calls[n]? = some c ∧ c.phase = .full ∧ isForeground c.priority = true
  | _ => False

/-- Before the count is lowered it is positive. -/
def NoUnderflow (s : RouterControlActor ν ε) (e : Event ν ε) : Prop :=
  Lowers s e → 0 < s.foregroundPending

/-- What the count says, and that background work will be let in. -/
structure Accounted (s : RouterControlActor ν ε) : Prop where
  counted : s.foregroundPending = s.calls.countP Call.outstanding
  settled : (∀ c ∈ s.calls, c.outstanding = false) → s.foregroundPending = 0
  letIn : ∃ es : List (Event ν ε), (∀ e ∈ es, e.isSubmit = false) ∧
    ∀ priority label, ((run step s es).step (.submit priority label)).calls =
      (run step s es).calls ++ [({ priority, label } : Call ν ε)]

theorem Invariant.noUnderflow (h : Invariant s) (e : Event ν ε) : NoUnderflow s e := by
  intro hlowers
  have hpos : ∀ (n : Nat) (c : Call ν ε), s.calls[n]? = some c → c.outstanding = true →
      0 < s.foregroundPending := by
    intro n c hc hout
    rw [h.counted]
    exact Int.natCast_pos.mpr (List.countP_pos_iff.mpr ⟨c, List.mem_of_getElem? hc, hout⟩)
  cases e with
  | count =>
    obtain ⟨item, hworker, hforeground⟩ := hlowers
    obtain ⟨c, hc, hstage, hprio⟩ := h.working hworker
    exact hpos _ c hc (by simp [Call.outstanding, hstage, WorkerPhase.stage, hprio, hforeground])
  | reject n =>
    obtain ⟨c, hc, hphase, hforeground⟩ := hlowers
    have hstage : c.stage = .announced := (h.fitsAt hc).before.mp (by rw [hphase]; rfl)
    exact hpos n c hc (by simp [Call.outstanding, hstage, hforeground])
  | _ => exact hlowers.elim

/-- The count of the foreground is exact in every run. -/
theorem foreground_accounted [Inhabited ν] (es : List (Event ν ε)) :
    Accounted (run step start es) ∧ Along step NoUnderflow start es := by
  have h := invariant_start.after es
  refine ⟨⟨h.counted, fun hnone => ?_, ?_⟩, ?_⟩
  · rw [h.counted, Int.natCast_eq_zero, List.countP_eq_zero]
    exact fun c hc => by simp [hnone c hc]
  · obtain ⟨fs, hfs, hidle⟩ := exists_idle h (active_run es)
    refine ⟨fs, hfs, fun priority label => ?_⟩
    simp [step, hidle]
  · exact along_of_invariant invariant_start (fun _ e h => h.next e) fun _ e h => h.noUnderflow e

end RouterControlActor

end LabProbe.Router.Control
