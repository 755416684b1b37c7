import Mathlib.Algebra.Order.Field.Rat
import Mathlib.Data.List.Forall2

/-!
# Checks that raise

A check that fails ends the computation with its message. What passed is
read off a success check by check.
-/

namespace Check

variable {ε α β : Type} {x : Except ε α} {f : α → Except ε β} {b : β}

/-- Raise the message unless the condition holds. -/
def require (condition : Bool) (message : ε) : Except ε Unit :=
  if condition then .ok () else .error message

theorem bind_eq_ok : (x >>= f) = .ok b ↔ ∃ a, x = .ok a ∧ f a = .ok b := by
  cases x with
  | error e => simp [bind, Except.bind]
  | ok a => simp [bind, Except.bind]

theorem bind_eq_error {e : ε} :
    (x >>= f) = .error e ↔ x = .error e ∨ ∃ a, x = .ok a ∧ f a = .error e := by
  cases x with
  | error e' => simp [bind, Except.bind]
  | ok a => simp [bind, Except.bind]

theorem require_eq_ok {condition : Bool} {message : ε} {u : Unit} :
    require condition message = .ok u ↔ condition = true := by
  unfold require
  split
  · rename_i h
    exact ⟨fun _ => h, fun _ => rfl⟩
  · rename_i h
    exact ⟨nofun, fun hc => absurd hc h⟩

theorem require_eq_error {condition : Bool} {message e : ε} :
    require condition message = .error e ↔ condition = false ∧ message = e := by
  unfold require
  cases condition <;> simp

theorem mapM_ok {g : α → Except ε β} {l : List α} {l' : List β} (h : l.mapM g = .ok l') :
    List.Forall₂ (fun a b => g a = .ok b) l l' := by
  induction l generalizing l' with
  | nil =>
    cases h
    exact .nil
  | cons a l ih =>
    rw [List.mapM_cons] at h
    obtain ⟨b, hb, h⟩ := bind_eq_ok.mp h
    obtain ⟨bs, hbs, h⟩ := bind_eq_ok.mp h
    cases h
    exact .cons hb (ih hbs)

theorem exists_of_mem_right {R : α → β → Prop} {l : List α} {l' : List β}
    (h : List.Forall₂ R l l') : ∀ b ∈ l', ∃ a ∈ l, R a b := by
  induction h with
  | nil => simp
  | cons hab _ ih =>
    rintro b (_ | ⟨_, hb⟩)
    · exact ⟨_, List.mem_cons_self, hab⟩
    · obtain ⟨a, ha, hrel⟩ := ih b hb
      exact ⟨a, List.mem_cons_of_mem _ ha, hrel⟩

-- ---------------------------------------------------------------------------
-- Checks that write
-- ---------------------------------------------------------------------------

variable {σ : Type}

/-- Go on from what a check found and left; where it failed, what it left stays. -/
def andThen (x : Except ε α × σ) (f : α → σ → Except ε β × σ) : Except ε β × σ :=
  match x with
  | (.ok a, s) => f a s
  | (.error e, s) => (.error e, s)

@[simp] theorem andThen_ok (a : α) (s : σ) (f : α → σ → Except ε β × σ) :
    andThen (.ok a, s) f = f a s := rfl

@[simp] theorem andThen_error (e : ε) (s : σ) (f : α → σ → Except ε β × σ) :
    andThen (.error e, s) f = (.error e, s) := rfl

theorem andThen_eq_ok {y : Except ε α × σ} {g : α → σ → Except ε β × σ} {s' : σ} :
    andThen y g = (.ok b, s') ↔ ∃ a s, y = (.ok a, s) ∧ g a s = (.ok b, s') := by
  obtain ⟨result, s⟩ := y
  cases result with
  | error e => simp
  | ok a =>
    refine ⟨fun h => ⟨a, s, rfl, h⟩, ?_⟩
    rintro ⟨_, _, heq, h⟩
    cases heq
    exact h

theorem isOk_ite_error {p : Prop} [Decidable p] {e : ε} {x : Except ε α} :
    (if p then .error e else x).isOk = true ↔ ¬p ∧ x.isOk = true := by
  by_cases hp : p
  · simp [hp, Except.isOk, Except.toBool]
  · simp [hp]

end Check
