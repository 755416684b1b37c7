import LabProbe.Lib.Dict
import Mathlib.Logic.Function.Basic

/-!
# Keyed tables and the replay of change records

A table is a partial function from keys to values. A log of change records
sets or removes one key at a time. Tables are compared up to a transitive
relation on the values of each key, so that a record may be left out when
the value it would carry is related to the one already there.

`Patch` says when a list of records leads from one table to another.
Whatever agrees with the old table agrees with the new one after the
replay, and so does whatever agreed with the new one already.
-/

namespace Keyed

inductive Change (κ ν : Type) where
  | put (key : κ) (value : ν)
  | remove (key : κ)

variable {κ ν : Type}

def Change.key : Change κ ν → κ
  | .put key _ => key
  | .remove key => key

-- ---------------------------------------------------------------------------
-- Agreement up to a relation on the values
-- ---------------------------------------------------------------------------

section
variable {r : κ → ν → ν → Prop}

/-- The tables hold the same keys, and related values under each. -/
def Agree (r : κ → ν → ν → Prop) (table other : κ → Option ν) : Prop :=
  ∀ k, Option.Rel (r k) (table k) (other k)

theorem rel_trans (ht : ∀ k x y z, r k x y → r k y z → r k x z) {k : κ} {a b c : Option ν}
    (hab : Option.Rel (r k) a b) (hbc : Option.Rel (r k) b c) : Option.Rel (r k) a c := by
  cases hab with
  | none => exact hbc
  | some h => cases hbc with | some h' => exact .some (ht _ _ _ _ h h')

theorem Agree.trans (ht : ∀ k x y z, r k x y → r k y z → r k x z) {a b c : κ → Option ν}
    (hab : Agree r a b) (hbc : Agree r b c) : Agree r a c := fun k => rel_trans ht (hab k) (hbc k)

end

-- ---------------------------------------------------------------------------
-- Replay
-- ---------------------------------------------------------------------------

variable [DecidableEq κ]

def apply (table : κ → Option ν) : Change κ ν → κ → Option ν
  | .put key value => Function.update table key (some value)
  | .remove key => Function.update table key none

def replay (table : κ → Option ν) (changes : List (Change κ ν)) : κ → Option ν :=
  changes.foldl apply table

/-- What a change does to a key: nothing, or the value it leaves there. -/
def Change.effect : Change κ ν → κ → Option (Option ν)
  | .put key value, k => if k = key then some (some value) else none
  | .remove key, k => if k = key then some none else none

def lastAt : List (Change κ ν) → κ → Option (Option ν)
  | [], _ => none
  | c :: cs, k => (lastAt cs k).or (c.effect k)

@[simp] theorem replay_nil (table : κ → Option ν) : replay table [] = table := rfl

@[simp] theorem replay_cons (table : κ → Option ν) (c : Change κ ν) (cs : List (Change κ ν)) :
    replay table (c :: cs) = replay (apply table c) cs := rfl

@[simp] theorem replay_append (table : κ → Option ν) (cs ds : List (Change κ ν)) :
    replay table (cs ++ ds) = replay (replay table cs) ds := by
  simp [replay]

theorem apply_eq (table : κ → Option ν) (c : Change κ ν) (k : κ) :
    apply table c k = (c.effect k).getD (table k) := by
  cases c <;> simp only [apply, Change.effect, Function.update_apply] <;> split <;> rfl

theorem replay_eq (table : κ → Option ν) (cs : List (Change κ ν)) (k : κ) :
    replay table cs k = (lastAt cs k).getD (table k) := by
  induction cs generalizing table with
  | nil => rfl
  | cons c cs ih =>
    rw [replay_cons, ih, apply_eq, lastAt]
    cases lastAt cs k <;> simp

theorem lastAt_append (cs ds : List (Change κ ν)) (k : κ) :
    lastAt (cs ++ ds) k = (lastAt ds k).or (lastAt cs k) := by
  induction cs with
  | nil => simp [lastAt]
  | cons c cs ih => simp [lastAt, ih, Option.or_assoc]

theorem effect_eq_none {c : Change κ ν} (h : c.key ≠ k) : c.effect k = none := by
  cases c <;> simp_all [Change.key, Change.effect, eq_comm]

theorem lastAt_eq_none {cs : List (Change κ ν)} (h : ∀ c ∈ cs, c.key ≠ k) : lastAt cs k = none := by
  induction cs with
  | nil => rfl
  | cons c cs ih =>
    rw [lastAt, ih fun d hd => h d (List.mem_cons_of_mem _ hd), Option.none_or]
    exact effect_eq_none (h c List.mem_cons_self)

theorem lastAt_entries {ι α : Type} [DecidableEq ι] {d : List (ι × α)} (hd : (Dict.keys d).Nodup)
    {f : ι → α → Change κ ν} {g : ι → κ} (hg : g.Injective) (hf : ∀ i v, (f i v).key = g i) (i : ι) :
    lastAt (d.map fun e => f e.1 e.2) (g i) = (Dict.get? d i).bind fun v => (f i v).effect (g i) := by
  induction d with
  | nil => rfl
  | cons e d ih =>
    obtain ⟨he, hd⟩ := List.nodup_cons.mp hd
    rw [List.map_cons, lastAt, ih hd, Dict.get?]
    split
    · rename_i hi
      subst hi
      rw [Dict.get?_eq_none.mpr he, Option.bind_none, Option.none_or, Option.bind_some]
    · rename_i hi
      rw [effect_eq_none (hf e.1 e.2 ▸ hg.ne hi), Option.or_none]

-- ---------------------------------------------------------------------------
-- Patches
-- ---------------------------------------------------------------------------

variable {r : κ → ν → ν → Prop}

/-- Replaying `changes` over `old` gives a table that agrees with `new`. -/
def Patch (r : κ → ν → ν → Prop) (changes : List (Change κ ν)) (old new : κ → Option ν) : Prop :=
  ∀ k, Option.Rel (r k) ((lastAt changes k).getD (old k)) (new k)

theorem Patch.agree (ht : ∀ k x y z, r k x y → r k y z → r k x z) {cs : List (Change κ ν)}
    (hp : Patch r cs old new) (ha : Agree r table old) : Agree r (replay table cs) new := by
  intro k
  have hk := hp k
  rw [replay_eq]
  cases hl : lastAt cs k with
  | none => exact rel_trans ht (ha k) (by simpa [hl] using hk)
  | some o => simpa [hl] using hk

/-- Replaying the end of a patch over a table that agrees with the new one
already changes nothing that matters: the records of a transaction may be
seen twice. -/
theorem Patch.agree_suffix {cs ds : List (Change κ ν)} (hp : Patch r (cs ++ ds) old new)
    (ha : Agree r table new) : Agree r (replay table ds) new := by
  intro k
  have hk := hp k
  rw [replay_eq]
  cases hl : lastAt ds k with
  | none => exact ha k
  | some o => simpa [lastAt_append, hl] using hk

end Keyed
