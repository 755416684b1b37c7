/-!
# Runs of a transition system

A system is a total step function from a state and an event to the next
state; an event that is not enabled leaves the state as it is. A run is a
list of events, so a statement about every list of events is a statement
about every interleaving.
-/

namespace Runs

variable {σ ε : Type} {step : σ → ε → σ} {s s' : σ} {e : ε} {es fs : List ε}

/-- The state after the events of a run, taken in order. -/
def run (step : σ → ε → σ) (s : σ) (es : List ε) : σ := es.foldl step s

@[simp] theorem run_nil : run step s [] = s := rfl

@[simp] theorem run_cons : run step s (e :: es) = run step (step s e) es := rfl

@[simp] theorem run_append : run step s (es ++ fs) = run step (run step s es) fs := by
  simp [run]

/-- `P` holds of every step of the run, read at the state before the step. -/
def Along (step : σ → ε → σ) (P : σ → ε → Prop) : σ → List ε → Prop
  | _, [] => True
  | s, e :: es => P s e ∧ Along step P (step s e) es

variable {I : σ → Prop} {P Q : σ → ε → Prop}

@[simp] theorem along_nil : Along step P s [] := trivial

@[simp] theorem along_cons : Along step P s (e :: es) ↔ P s e ∧ Along step P (step s e) es :=
  Iff.rfl

theorem along_append :
    Along step P s (es ++ fs) ↔ Along step P s es ∧ Along step P (run step s es) fs := by
  induction es generalizing s with
  | nil => simp
  | cons e es ih => simp [ih, and_assoc]

theorem along_and : Along step (fun s e => P s e ∧ Q s e) s es ↔
    Along step P s es ∧ Along step Q s es := by
  induction es generalizing s with
  | nil => simp
  | cons e es ih => simp only [along_cons, ih, and_assoc, and_left_comm]

theorem Along.last (h : Along step P s (es ++ [e])) : P (run step s es) e :=
  (along_append.mp h).2.1

theorem along_of_forall {N : ε → Prop} (hN : ∀ e ∈ es, N e) : Along step (fun _ e => N e) s es := by
  induction es generalizing s with
  | nil => exact trivial
  | cons e es ih =>
    obtain ⟨he, hes⟩ := List.forall_mem_cons.mp hN
    exact ⟨he, ih hes⟩

/-- What every step that meets `P` preserves holds after every run that meets `P`. -/
theorem Along.invariant (hP : Along step P s es) (hI : I s)
    (hstep : ∀ s e, I s → P s e → I (step s e)) : I (run step s es) := by
  induction es generalizing s with
  | nil => exact hI
  | cons e es ih => exact ih hP.2 (hstep s e hI hP.1)

/-- A condition on the steps, read with an invariant they keep, gives
another property of the steps. -/
theorem Along.mono (hP : Along step P s es) (hI : I s)
    (hstep : ∀ s e, I s → P s e → I (step s e)) (hQ : ∀ s e, I s → P s e → Q s e) :
    Along step Q s es := by
  induction es generalizing s with
  | nil => exact trivial
  | cons e es ih => exact ⟨hQ s e hI hP.1, ih hP.2 (hstep s e hI hP.1)⟩

/-- Two conditions that agree on the states of an invariant, which one of
them keeps, hold along the same runs of events of a kind. -/
theorem along_iff_of {N : ε → Prop} (hN : ∀ e ∈ es, N e) (hI : I s)
    (hstep : ∀ s e, N e → I s → Q s e → I (step s e))
    (h : ∀ s e, N e → I s → (P s e ↔ Q s e)) : Along step P s es ↔ Along step Q s es := by
  induction es generalizing s with
  | nil => exact Iff.rfl
  | cons e es ih =>
    obtain ⟨he, hes⟩ := List.forall_mem_cons.mp hN
    simp only [along_cons, h s e he hI]
    exact and_congr_right fun hQ => ih hes (hstep s e he hI hQ)

theorem along_iff (hI : I s) (hstep : ∀ s e, I s → Q s e → I (step s e))
    (h : ∀ s e, I s → (P s e ↔ Q s e)) : Along step P s es ↔ Along step Q s es :=
  @along_iff_of _ _ _ _ _ _ _ _ (fun _ => True) (fun _ _ => trivial) hI
    (fun s e _ => hstep s e) fun s e _ => h s e

/-- What every step of a kind of event preserves holds after every run of such events. -/
theorem run_invariant_of {N : ε → Prop} (hN : ∀ e ∈ es, N e) (hI : I s)
    (hstep : ∀ s e, N e → I s → I (step s e)) : I (run step s es) := by
  induction es generalizing s with
  | nil => exact hI
  | cons e es ih =>
    obtain ⟨he, hes⟩ := List.forall_mem_cons.mp hN
    exact ih hes (hstep s e he hI)

theorem run_invariant (hI : I s) (hstep : ∀ s e, I s → I (step s e)) : I (run step s es) := by
  induction es generalizing s with
  | nil => exact hI
  | cons e es ih => exact ih (hstep s e hI)

/-- A property that every invariant state gives its next step holds along every run. -/
theorem along_of_invariant (hI : I s) (hstep : ∀ s e, I s → I (step s e))
    (hP : ∀ s e, I s → P s e) : Along step P s es := by
  induction es generalizing s with
  | nil => exact trivial
  | cons e es ih => exact ⟨hP s e hI, ih (hstep s e hI)⟩

theorem run_monotone {r : σ → σ → Prop} (hrefl : ∀ s, r s s)
    (htrans : ∀ a b c, r a b → r b c → r a c) (hstep : ∀ s e, r s (step s e)) :
    r s (run step s es) := by
  induction es generalizing s with
  | nil => exact hrefl s
  | cons e es ih => exact htrans _ _ _ (hstep s e) ih

instance Along.decidable [h : ∀ s e, Decidable (P s e)] : (s : σ) → (es : List ε) →
    Decidable (Along step P s es)
  | _, [] => .isTrue trivial
  | s, e :: es =>
    @instDecidableAnd _ _ (h s e) (Along.decidable (step s e) es)

end Runs
