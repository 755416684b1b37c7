import LabProbe.Lib.Dict
import Mathlib.Order.Lattice
import Mathlib.Order.BoundedOrder.Basic
import Mathlib.Order.Bounds.Defs
import Mathlib.Data.List.Perm.Basic

/-!
# Tables whose values only rise

Each assignment joins its value to the one that is there. What a key ends with
is the join of the values assigned to it, so the order of the assignments does
not matter.
-/

namespace Joins

variable {κ ρ : Type} [DecidableEq κ] [SemilatticeSup ρ] [OrderBot ρ]

def raise (d : List (κ × ρ)) (k : κ) (v : ρ) : List (κ × ρ) :=
  Dict.set d k ((Dict.get? d k).getD ⊥ ⊔ v)

def raiseAll (d : List (κ × ρ)) (l : List (κ × ρ)) : List (κ × ρ) :=
  l.foldl (fun d e => raise d e.1 e.2) d

def joined (k : κ) (value : Option ρ) (e : κ × ρ) : Option ρ :=
  if e.1 = k then some (value.getD ⊥ ⊔ e.2) else value

variable {d l l' : List (κ × ρ)} {k : κ} {v : ρ}

@[simp] theorem raiseAll_nil : raiseAll d [] = d := rfl

@[simp] theorem raiseAll_cons (e : κ × ρ) : raiseAll d (e :: l) = raiseAll (raise d e.1 e.2) l := rfl

@[simp] theorem raiseAll_append : raiseAll d (l ++ l') = raiseAll (raiseAll d l) l' := by
  simp [raiseAll]

theorem get?_raise (d : List (κ × ρ)) (e : κ × ρ) (k : κ) :
    Dict.get? (raise d e.1 e.2) k = joined k (Dict.get? d k) e := by
  simp only [raise, Dict.get?_set, joined]
  split
  · rename_i h
    rw [h]
  · rfl

theorem get?_raiseAll (d l : List (κ × ρ)) (k : κ) :
    Dict.get? (raiseAll d l) k = l.foldl (joined k) (Dict.get? d k) := by
  induction l generalizing d with
  | nil => rfl
  | cons e l ih => rw [raiseAll_cons, ih, get?_raise, List.foldl_cons]

instance (k : κ) : RightCommutative (joined (ρ := ρ) k) where
  right_comm value a b := by
    unfold joined
    split
    · split
      · simp [sup_assoc, sup_comm a.2 b.2]
      · rfl
    · rfl

theorem get?_raiseAll_perm (h : l.Perm l') (d : List (κ × ρ)) (k : κ) :
    Dict.get? (raiseAll d l) k = Dict.get? (raiseAll d l') k := by
  rw [get?_raiseAll, get?_raiseAll, h.foldl_eq]

theorem le_foldl_joined {value : Option ρ} (h : value = some v) :
    ∃ w, l.foldl (joined k) value = some w ∧ v ≤ w := by
  induction l generalizing value v with
  | nil => exact ⟨v, h, le_rfl⟩
  | cons e l ih =>
    rw [List.foldl_cons, joined, h]
    split
    · obtain ⟨w, hw, hle⟩ := ih rfl
      exact ⟨w, hw, le_sup_left.trans hle⟩
    · exact ih rfl

theorem mem_foldl_joined {value : Option ρ} (h : (k, v) ∈ l) :
    ∃ w, l.foldl (joined k) value = some w ∧ v ≤ w := by
  induction l generalizing value with
  | nil => cases h
  | cons e l ih =>
    rcases List.mem_cons.mp h with rfl | h
    · rw [List.foldl_cons, joined, if_pos rfl]
      obtain ⟨w, hw, hle⟩ := @le_foldl_joined κ ρ _ _ _ l k (value.getD ⊥ ⊔ v) _ rfl
      exact ⟨w, hw, le_sup_right.trans hle⟩
    · exact ih h

theorem foldl_joined_le {u : ρ} (h : ∀ v, (k, v) ∈ l → v ≤ u) {value : Option ρ}
    (hvalue : ∀ w ∈ value, w ≤ u) : ∀ w ∈ l.foldl (joined k) value, w ≤ u := by
  induction l generalizing value with
  | nil => exact hvalue
  | cons e l ih =>
    refine ih (fun v hv => h v (List.mem_cons_of_mem _ hv)) ?_
    unfold joined
    split
    · rename_i hk
      rintro w ⟨⟩
      refine sup_le ?_ (h e.2 (List.mem_cons.mpr (.inl (Prod.ext hk.symm rfl))))
      cases value with
      | none => exact bot_le
      | some v => exact hvalue v rfl
    · exact hvalue

theorem foldl_joined_eq_none {value : Option ρ} :
    l.foldl (joined k) value = none ↔ value = none ∧ k ∉ Dict.keys l := by
  induction l generalizing value with
  | nil => simp [Dict.keys]
  | cons e l ih =>
    rw [List.foldl_cons, ih, joined]
    simp only [Dict.keys, List.map_cons, List.mem_cons, not_or]
    split
    · rename_i hk
      simp [hk]
    · rename_i hk
      simp [Ne.symm hk]

theorem isLUB_raiseAll (l : List (κ × ρ)) (k : κ) {w : ρ}
    (h : Dict.get? (raiseAll [] l) k = some w) : IsLUB {v | (k, v) ∈ l} w := by
  rw [get?_raiseAll] at h
  constructor
  · rintro v hv
    obtain ⟨w', hw', hle⟩ := mem_foldl_joined hv
    rw [h] at hw'
    cases hw'
    exact hle
  · rintro u hu
    exact foldl_joined_le (fun v hv => hu hv) (by simp) w h

theorem get?_raiseAll_eq_none (l : List (κ × ρ)) (k : κ) :
    Dict.get? (raiseAll [] l) k = none ↔ k ∉ Dict.keys l := by
  rw [get?_raiseAll, foldl_joined_eq_none]
  simp

end Joins
