import Mathlib.Algebra.Order.Field.Rat
import Mathlib.Data.List.Basic

/-!
# Numbered registers and their copies

A register holds a value under a number that each write raises by one. A
copy takes an update only in the state the update was made from, and takes
it again without harm. A copy that is level with its register, or one write
behind it, stays so through any updates issued, whatever their order and
repetition, and is level again once it has seen the last one.
-/

namespace Registers

variable {α : Type} [DecidableEq α]

structure Register (α : Type) where
  number : Nat
  value : α
  deriving DecidableEq

structure Update (α : Type) where
  expected : Nat
  value : α

def Update.result (u : Update α) : Register α := ⟨u.expected + 1, u.value⟩

/-- A copy takes an update it has taken, or one made from its number. -/
def Register.accept (r : Register α) (u : Update α) : Register α :=
  if r = u.result then r else if r.number = u.expected then u.result else r

def Register.acceptAll (r : Register α) (us : List (Update α)) : Register α :=
  us.foldl Register.accept r

variable {register copy : Register α} {u : Update α} {us : List (Update α)}

omit [DecidableEq α] in
/-- Updates issued for a register: those up to its number, the last with its
value. -/
def Issued (register : Register α) (u : Update α) : Prop :=
  u.expected + 1 ≤ register.number ∧ (u.expected + 1 = register.number → u.result = register)

def Behind (copy register : Register α) : Prop := copy.number + 1 = register.number

theorem accept_level (h : Issued register u) : register.accept u = register := by
  unfold Register.accept
  obtain ⟨hle, -⟩ := h
  split
  · rfl
  · rw [if_neg (by omega)]

theorem accept_behind (h : Issued register u) (hb : Behind copy register) :
    copy.accept u = if u.expected + 1 = register.number then register else copy := by
  obtain ⟨hle, hlast⟩ := h
  unfold Behind at hb
  have hresult : u.result.number = u.expected + 1 := rfl
  unfold Register.accept
  split
  · rename_i heq
    rw [if_neg]
    rw [heq] at hb
    omega
  · by_cases hnow : u.expected + 1 = register.number
    · rw [if_pos (by omega), if_pos hnow, hlast hnow]
    · rw [if_neg (by omega), if_neg hnow]

theorem acceptAll_level (h : ∀ u ∈ us, Issued register u) : register.acceptAll us = register := by
  induction us with
  | nil => rfl
  | cons u us ih =>
    obtain ⟨hu, hus⟩ := List.forall_mem_cons.mp h
    unfold Register.acceptAll at ih ⊢
    rw [List.foldl_cons, accept_level hu, ih hus]

theorem acceptAll_behind (h : ∀ u ∈ us, Issued register u) (hb : Behind copy register) :
    copy.acceptAll us = if ∃ u ∈ us, u.expected + 1 = register.number then register else copy := by
  induction us with
  | nil => simp [Register.acceptAll]
  | cons u us ih =>
    obtain ⟨hu, hus⟩ := List.forall_mem_cons.mp h
    have hlevel := acceptAll_level hus
    have hrest := ih hus
    unfold Register.acceptAll at hlevel hrest ⊢
    rw [List.foldl_cons, accept_behind hu hb]
    by_cases hlast : u.expected + 1 = register.number
    · rw [if_pos hlast, if_pos ⟨u, List.mem_cons_self, hlast⟩, hlevel]
    · rw [if_neg hlast, hrest]
      simp only [List.exists_mem_cons_iff, hlast, false_or]

theorem Issued.write {written : Register α} (h : Issued register u)
    (hw : written.number = register.number + 1) : Issued written u := by
  obtain ⟨hle, -⟩ := h
  exact ⟨by omega, fun heq => by omega⟩

end Registers
