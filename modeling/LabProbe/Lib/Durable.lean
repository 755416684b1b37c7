import LabProbe.Lib.Run

/-!
# What survives a crash

A store has its contents in memory and on disk. A command is carried out as a
whole or not at all, in memory and on disk alike, and a crash puts back what is
on disk. So a store always holds what some of the commands make of what it
began with, in their order: all those that were acknowledged, and of the
others those that took effect.
-/

namespace Durable

open Runs

variable {σ γ τ ε α : Type}

structure Store (σ : Type) where
  memory : σ
  disk : σ

def Store.crash (s : Store σ) : Store σ := ⟨s.disk, s.disk⟩

/-- What a command may do to a store. The disk may also be given what the
memory was before the command. -/
structure Does (apply : σ → γ → σ) (s s' : Store σ) (c : γ) (acknowledged : Bool) : Prop where
  memory : s'.memory = s.memory ∨ s'.memory = apply s.memory c
  disk : s'.disk = s.disk ∨ s'.disk = s.memory ∨ s'.disk = apply s.memory c
  done : acknowledged = true → s'.memory = apply s.memory c ∧ s'.disk = apply s.memory c

inductive Survive : List (γ × Bool) → List γ → Prop where
  | nil : Survive [] []
  | done {commands survivors} (c : γ) (acknowledged : Bool) (h : Survive commands survivors) :
    Survive (commands ++ [(c, acknowledged)]) (survivors ++ [c])
  | lost {commands survivors} (c : γ) (h : Survive commands survivors) :
    Survive (commands ++ [(c, false)]) survivors

/-- A state that commands which survive make of the first one. -/
def Outcome (apply : σ → γ → σ) (start : σ) (commands : List (γ × Bool)) (s : σ) : Prop :=
  ∃ survivors, Survive commands survivors ∧ s = survivors.foldl apply start

structure Store.Explained (apply : σ → γ → σ) (start : σ) (commands : List (γ × Bool))
    (s : Store σ) : Prop where
  memory : Outcome apply start commands s.memory
  disk : Outcome apply start commands s.disk

variable {apply : σ → γ → σ} {start u : σ} {commands : List (γ × Bool)} {s s' : Store σ} {c : γ}
  {acknowledged : Bool}

theorem Outcome.done (h : Outcome apply start commands u) (c : γ) (acknowledged : Bool) :
    Outcome apply start (commands ++ [(c, acknowledged)]) (apply u c) := by
  obtain ⟨survivors, hsurvive, rfl⟩ := h
  exact ⟨survivors ++ [c], hsurvive.done c acknowledged, by simp⟩

theorem Outcome.lost (h : Outcome apply start commands u) (c : γ) :
    Outcome apply start (commands ++ [(c, false)]) u := by
  obtain ⟨survivors, hsurvive, rfl⟩ := h
  exact ⟨survivors, hsurvive.lost c, rfl⟩

theorem explained_start (apply : σ → γ → σ) (start : σ) :
    Store.Explained apply start [] ⟨start, start⟩ :=
  ⟨⟨[], .nil, rfl⟩, ⟨[], .nil, rfl⟩⟩

theorem Store.Explained.crash (h : s.Explained apply start commands) :
    s.crash.Explained apply start commands :=
  ⟨h.disk, h.disk⟩

theorem Store.Explained.does (h : s.Explained apply start commands)
    (hdoes : Does apply s s' c acknowledged) :
    s'.Explained apply start (commands ++ [(c, acknowledged)]) := by
  cases acknowledged with
  | true =>
    obtain ⟨hmemory, hdisk⟩ := hdoes.done rfl
    exact ⟨hmemory ▸ h.memory.done c true, hdisk ▸ h.memory.done c true⟩
  | false =>
    refine ⟨?_, ?_⟩
    · rcases hdoes.memory with hkept | hdone
      · exact hkept ▸ h.memory.lost c
      · exact hdone ▸ h.memory.done c false
    · rcases hdoes.disk with hkept | hback | hdone
      · exact hkept ▸ h.disk.lost c
      · exact hback ▸ h.memory.lost c
      · exact hdone ▸ h.memory.done c false

-- ---------------------------------------------------------------------------
-- Runs
-- ---------------------------------------------------------------------------

/-- What is seen of a store between two states: a command and whether it was
acknowledged, a crash, or a crash in the middle of a command. -/
inductive Moves (apply : σ → γ → σ) (s : Store σ) : List (γ × Bool) → Store σ → Prop where
  | answered {s' : Store σ} {c : γ} {acknowledged : Bool} (h : Does apply s s' c acknowledged) :
    Moves apply s [(c, acknowledged)] s'
  | crashed : Moves apply s [] s.crash
  | cut {s' : Store σ} {c : γ} (h : Does apply s s' c false) : Moves apply s [(c, false)] s'.crash

theorem Store.Explained.moves {seen : List (γ × Bool)} (h : s.Explained apply start commands)
    (hmoves : Moves apply s seen s') : s'.Explained apply start (commands ++ seen) := by
  cases hmoves with
  | answered hdoes => exact h.does hdoes
  | crashed =>
    rw [List.append_nil]
    exact h.crash
  | cut hdoes => exact (h.does hdoes).crash

/-- What is seen of the steps of a run. -/
def record (step : τ → ε → τ) (seen : τ → ε → List α) : τ → List ε → List α
  | _, [] => []
  | t, e :: es => seen t e ++ record step seen (step t e) es

variable {step : τ → ε → τ} {seen : τ → ε → List (γ × Bool)} {store : τ → Store σ} {I : τ → Prop}
  {N : ε → Prop} {P : τ → ε → Prop} {t : τ} {es : List ε}

theorem Store.Explained.run (h : (store t).Explained apply start commands) (hI : I t)
    (hN : ∀ e ∈ es, N e) (hP : Along step P t es) (hstep : ∀ t e, I t → N e → I (step t e))
    (hmoves : ∀ t e, I t → N e → P t e → Moves apply (store t) (seen t e) (store (step t e))) :
    (store (Runs.run step t es)).Explained apply start (commands ++ record step seen t es) := by
  induction es generalizing t commands with
  | nil => simpa [record] using h
  | cons e es ih =>
    obtain ⟨hone, hrest⟩ := hP
    obtain ⟨he, hes⟩ := List.forall_mem_cons.mp hN
    have hnext := ih (h.moves (hmoves t e hI he hone)) (hstep t e hI he) hes hrest
    rwa [List.append_assoc] at hnext

end Durable
