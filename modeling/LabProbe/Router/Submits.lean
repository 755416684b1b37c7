import LabProbe.Router.Foreground

/-!
# Submits that fail

A call that is deferred or finds the queue full leaves nothing behind. One
whose wait has ended leaves its item in the queue, and the worker starts it
when it comes to it.
-/

namespace LabProbe.Router.Control

open Runs

namespace RouterControlActor

variable {ν ε : Type} {s s' : RouterControlActor ν ε} {n : Nat} {c : Call ν ε}
  {f : Call ν ε → Call ν ε}

-- ---------------------------------------------------------------------------
-- Failed submits
-- ---------------------------------------------------------------------------

def Call.Failed (c : Call ν ε) : Prop := ∃ e, c.phase = .ended (.refused e)

/-- A callback whose submit has failed before it was started is never started. -/
def Settled (s : RouterControlActor ν ε) : Prop :=
  ∀ (n : Nat) (c : Call ν ε), s.calls[n]? = some c → Call.Failed c → c.starts = 0 →
    ∀ (es : List (Event ν ε)) (c' : Call ν ε), (run step s es).calls[n]? = some c' → c'.starts = 0

/-- No wait ends before the worker has started the callback. -/
def InTime (s : RouterControlActor ν ε) : Event ν ε → Prop
  | .timeout n => ∀ c : Call ν ε, s.calls[n]? = some c → c.phase = .waiting → c.starts ≠ 0
  | _ => True

/-- Every call whose wait has ended without its result has been started. -/
def Started (s : RouterControlActor ν ε) : Prop :=
  ∀ c ∈ s.calls, c.phase = .ended (.refused controlQueueTimeout) → c.stage = .started

theorem Invariant.started_step (h : Invariant s) (ht : Started s) {e : Event ν ε} (he : InTime s e) :
    Started (s.step e) := by
  have hadd : ∀ c : Call ν ε, c.phase ≠ .ended (.refused controlQueueTimeout) →
      ∀ d ∈ s.calls ++ [c], d.phase = .ended (.refused controlQueueTimeout) → d.stage = .started := by
    intro c hc d hd hphase
    rcases List.mem_append.mp hd with hd | hd
    · exact ht d hd hphase
    · obtain rfl := List.mem_singleton.mp hd
      exact absurd hphase hc
  cases e with
  | submit priority label =>
    simp only [step]
    split
    · exact hadd _ (by simp [Call.deferred, backgroundDeferred, controlQueueTimeout])
    · exact hadd _ (by simp)
  | make n =>
    refine onCall_cases (fun c hc => ?_) ht
    split
    · exact Rows.forall_modify ht (by simp)
    · exact ht
  | put n =>
    refine onCall_cases (fun c hc => ?_) ht
    split
    · split
      · exact Rows.forall_modify ht (by simp)
      · exact ht
    · exact ht
  | putFull n =>
    refine onCall_cases (fun c hc => ?_) ht
    split
    · split
      · exact ht
      · exact Rows.forall_modify ht (by simp)
    · exact ht
  | reject n =>
    refine onCall_cases (fun c hc => ?_) ht
    split
    · refine Rows.forall_modify ht fun _ _ hphase => absurd hphase ?_
      simp [controlQueueBusy, controlQueueTimeout]
    · exact ht
  | timeout n =>
    refine onCall_cases (fun c hc => ?_) ht
    split
    · rename_i hphase
      split
      · exact ht
      · -- the wait ends late: the callback runs
        refine Rows.forall_modify ht fun d hd _ => ?_
        obtain rfl : d = c := Option.some.inj (hd.symm.trans hc)
        have honce := (h.fitsAt hc).once
        by_contra hne
        rw [if_neg hne] at honce
        exact he d hc hphase honce
    · exact ht
  | wake n =>
    refine onCall_cases (fun c hc => ?_) ht
    split
    · split
      · refine Rows.forall_modify ht fun d _ hphase => absurd hphase ?_
        unfold Call.outcome
        split <;> simp
      · exact ht
    · exact ht
  | get =>
    simp only [step]
    split <;> exact ht
  | clear =>
    simp only [step]
    split <;> exact ht
  | count =>
    simp only [step]
    split
    · rename_i item hworker
      refine Rows.forall_modify ht fun d hd hphase => ?_
      obtain ⟨c, hc, hstage, -⟩ := h.working hworker
      obtain rfl : d = c := Option.some.inj (hd.symm.trans hc)
      have hstarted := ht d (List.mem_of_getElem? hd) hphase
      rw [hstage] at hstarted
      cases hstarted
    · exact ht
  | call =>
    simp only [step]
    split
    · exact Rows.forall_modify ht fun _ _ _ => rfl
    · exact ht
  | inner priority label result =>
    simp only [step]
    split
    · exact hadd _ (by cases result <;> simp [Call.inner])
    · exact ht
  | finish result =>
    simp only [step]
    split
    · refine Rows.forall_modify ht fun d hd hphase => ?_
      have hkept := ht d (List.mem_of_getElem? hd)
      cases result <;> exact hkept hphase
    · exact ht
  | setDone =>
    simp only [step]
    split
    · exact Rows.forall_modify ht fun d hd hphase => ht d (List.mem_of_getElem? hd) hphase
    · exact ht

theorem Invariant.settled (h : Invariant s) (ht : Started s) : Settled s := by
  intro n c hc ⟨e, he⟩ hstarts es c' hc'
  have hfits := h.fitsAt hc
  have hnot : c.stage ≠ .started := by
    intro hstage
    have honce := hfits.once
    rw [if_pos hstage, hstarts] at honce
    cases honce
  have hfinal : c.stage = .refused ∨ c.stage = .rejected := by
    rcases hfits.refused e he with ⟨-, hstage⟩ | ⟨-, hstage⟩ | ⟨rfl, -⟩
    · exact .inl hstage
    · exact .inr hstage
    · exact absurd (ht c (List.mem_of_getElem? hc) he) hnot
  obtain ⟨d, hd, hreach⟩ := h.later_run es n c hc
  obtain rfl : d = c' := Option.some.inj (hd.symm.trans hc')
  have hsame : d.stage = c.stage := by
    unfold Stage.Reaches at hreach
    rcases hfinal with hstage | hstage <;> simp only [hstage] at hreach ⊢ <;>
      simpa [eq_comm] using hreach
  rw [((h.after es).fitsAt hd).once, if_neg (by rw [hsame]; exact hnot)]

theorem Invariant.exists_start [Inhabited ν] (h : Invariant s) (hc : s.calls[n]? = some c)
    (hstage : c.stage = .queued ∨ c.stage = .taken) :
    ∃ (es : List (Event ν ε)) (c' : Call ν ε), (run step s es).calls[n]? = some c' ∧ c'.starts ≠ 0 := by
  obtain ⟨es, -, hr⟩ := exists_resting s
  obtain ⟨c', hc', hreach⟩ := h.later_run es n c hc
  refine ⟨es, c', hc', ?_⟩
  -- at rest it is no longer on its way, so it has gone all the way
  have hgone : ¬ (c'.stage = .queued ∨ c'.stage = .taken) := by
    intro hon
    have hmem := (h.after es).found n c' hc' hon
    rw [hr.placed] at hmem
    cases hmem
  have hstarted : c'.stage = .started := by
    unfold Stage.Reaches at hreach
    rcases hstage with hstage | hstage <;> simp only [hstage] at hreach <;>
      cases hs : c'.stage <;> simp_all
  rw [((h.after es).fitsAt hc').once, if_pos hstarted]
  exact one_ne_zero

/-- A callback is started at most once; and one whose submit has failed before
is never started, in all that can follow, if and only if no wait ended before
the start. -/
theorem failed_submits_settle_iff [Inhabited ν] (es : List (Event ν ε)) :
    ((∀ c ∈ (run step start es).calls, c.starts ≤ 1) ∧
      ∀ es₁ es₂ : List (Event ν ε), es = es₁ ++ es₂ → Settled (run step start es₁)) ↔
    Along step InTime start es := by
  constructor
  · rintro ⟨-, hsettled⟩
    induction es using List.reverseRecOn with
    | nil => trivial
    | append_singleton es e ih =>
      rw [along_append]
      refine ⟨ih fun es₁ es₂ heq => hsettled es₁ (es₂ ++ [e]) (by rw [heq, List.append_assoc]),
        ?_, trivial⟩
      have h := invariant_start.after es
      cases e with
      | timeout n =>
        intro c hc hphase hstarts
        have hfits := h.fitsAt hc
        have hon : c.stage = .queued ∨ c.stage = .taken := by
          rcases hfits.waited hphase with hstage | hstage | hstage
          · exact .inl hstage
          · exact .inr hstage
          · have honce := hfits.once
            rw [if_pos hstage, hstarts] at honce
            cases honce
        have hnot : c.done = false := by
          by_contra hdone
          have hstage := hfits.finished (by simpa using hdone)
          rw [hstage] at hon
          simp at hon
        -- after the wait has ended the worker can come to the item
        have hc' : (run step start (es ++ [.timeout n])).calls[n]? =
            some { c with phase := .ended (.refused controlQueueTimeout) } := by
          simp [step, onCall, hc, hphase, hnot, change]
        have hstart := fun hon => (invariant_start.after (es ++ [.timeout n])).exists_start hc' hon
        obtain ⟨fs, d, hd, hne⟩ := hstart hon
        exact hne (hsettled _ [] (by simp) n _ hc' ⟨_, rfl⟩ hstarts fs d hd)
      | _ => trivial
  · intro halong
    have hboth : ∀ es' : List (Event ν ε), Along step InTime start es' →
        Invariant (run step start es') ∧ Started (run step start es') := fun es' halong' =>
      Along.invariant (I := fun s => Invariant s ∧ Started s) halong'
        ⟨invariant_start, by simp [Started, start]⟩
        fun s e h he => ⟨h.1.next e, h.1.started_step h.2 he⟩
    refine ⟨fun c hc => ?_, ?_⟩
    · rw [((hboth es halong).1.fits c hc).once]
      split <;> omega
    · rintro es₁ es₂ rfl
      obtain ⟨h, ht⟩ := hboth es₁ (along_append.mp halong).1
      exact h.settled ht

/-- A write that runs for long, and another one whose wait ends meanwhile. -/
def longWrite : List (Event Unit Unit) :=
  [.submit 10 "rpc:devConfig.set:wireless", .make 0, .put 0, .get, .count, .call,
   .submit 10 "rpc:devConfig.set:network6", .make 1, .put 1, .timeout 1]

/-- The App is told that the second write has failed, and then it is done. -/
theorem timed_out_write_starts : ¬ Settled (run step start longWrite) := by
  intro h
  have hidle := h 1 _ rfl ⟨_, rfl⟩ rfl [.finish (.ok ()), .clear, .setDone, .get, .count, .call] _ rfl
  cases hidle

end RouterControlActor

end LabProbe.Router.Control
