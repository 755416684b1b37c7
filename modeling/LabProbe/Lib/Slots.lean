import Mathlib.Algebra.Order.Field.Rat
import Mathlib.Data.List.Nodup
import Mathlib.Data.List.Perm.Basic

/-!
# Rows with an identifier and a slot

Rows are looked up by their identifier and each of them takes one slot. A
check that compares a row only with those of other identifiers keeps the
slots apart, but it says nothing about the identifiers.
-/

namespace Slots

variable {α κ σ : Type} {id : α → κ} {slot : α → σ} {rows rows' : List α} {row old : α}

def find {ε : Type} (error : ε) (p : α → Bool) (rows : List α) : Except ε α :=
  match rows.find? p with
  | some row => .ok row
  | none => .error error

theorem find_ok {ε : Type} {error : ε} {p : α → Bool} (h : find error p rows = .ok row) :
    row ∈ rows ∧ p row = true := by
  unfold find at h
  split at h
  · rename_i hfind
    cases h
    exact ⟨List.mem_of_find?_eq_some hfind, List.find?_some hfind⟩
  · cases h

/-- The rows share neither the identifier nor the slot. -/
def Apart (id : α → κ) (slot : α → σ) (a b : α) : Prop := id a ≠ id b ∧ slot a ≠ slot b

theorem Apart.symm {a b : α} (h : Apart id slot a b) : Apart id slot b a := ⟨h.1.symm, h.2.symm⟩

instance [DecidableEq κ] [DecidableEq σ] (a b : α) : Decidable (Apart id slot a b) :=
  inferInstanceAs (Decidable (_ ∧ _))

def Distinct (id : α → κ) (slot : α → σ) (rows : List α) : Prop := rows.Pairwise (Apart id slot)

instance [DecidableEq κ] [DecidableEq σ] : Decidable (Distinct id slot rows) :=
  inferInstanceAs (Decidable (rows.Pairwise _))

def Free (id : α → κ) (slot : α → σ) (rows : List α) (row : α) : Prop :=
  ∀ other ∈ rows, id other ≠ id row → slot other ≠ slot row

theorem distinct_nil : Distinct id slot [] := .nil

theorem Distinct.sublist (h : Distinct id slot rows) (hs : rows'.Sublist rows) :
    Distinct id slot rows' := List.Pairwise.sublist hs h

theorem distinct_perm (h : rows.Perm rows') : Distinct id slot rows ↔ Distinct id slot rows' :=
  h.pairwise_iff Apart.symm

theorem Distinct.nodup_slots (h : Distinct id slot rows) : (rows.map slot).Nodup :=
  List.pairwise_map.mpr (h.imp And.right)

theorem Distinct.inj (h : Distinct id slot rows) {a b : α} (ha : a ∈ rows) (hb : b ∈ rows)
    (hid : id a = id b) : a = b := by
  have hids : (rows.map id).Nodup := List.pairwise_map.mpr (h.imp And.left)
  exact List.inj_on_of_nodup_map hids ha hb hid

theorem Distinct.inj_slot (h : Distinct id slot rows) {a b : α} (ha : a ∈ rows) (hb : b ∈ rows)
    (hslot : slot a = slot b) : a = b := List.inj_on_of_nodup_map h.nodup_slots ha hb hslot

/-- Where a list gains one row and its others stand for old ones, a property
of all rows is one of the new row. -/
theorem forall_gained_iff {P : α → Prop} (h : ∀ old ∈ rows, P old) (hrow : row ∈ rows')
    (hrest : ∀ r ∈ rows', r = row ∨ ∃ old ∈ rows, P old → P r) : (∀ r ∈ rows', P r) ↔ P row := by
  refine ⟨fun hall => hall row hrow, fun hP r hr => ?_⟩
  rcases hrest r hr with rfl | ⟨old, hold, hlike⟩
  · exact hP
  · exact hlike (h old hold)

-- ---------------------------------------------------------------------------
-- Adding a row
-- ---------------------------------------------------------------------------

theorem distinct_append_iff (h : Distinct id slot rows) :
    Distinct id slot (rows ++ [row]) ↔ ∀ other ∈ rows, Apart id slot other row := by
  simp only [Distinct, List.pairwise_append, List.pairwise_singleton, List.mem_singleton,
    forall_eq, true_and]
  exact ⟨And.right, fun ha => ⟨h, ha⟩⟩

/-- A row whose slot is free may be added where its identifier is fresh. -/
theorem distinct_append_free (h : Distinct id slot rows) (hf : Free id slot rows row) :
    Distinct id slot (rows ++ [row]) ↔ ∀ other ∈ rows, id other ≠ id row := by
  rw [distinct_append_iff h]
  exact forall₂_congr fun other ho => ⟨And.left, fun hne => ⟨hne, hf other ho hne⟩⟩

-- ---------------------------------------------------------------------------
-- Replacing a row
-- ---------------------------------------------------------------------------

def replace (p : α → Bool) (row : α) (rows : List α) : List α :=
  rows.map fun r => if p r then row else r

theorem mem_replace {p : α → Bool} (h : r ∈ replace p row rows) : r = row ∨ r ∈ rows := by
  obtain ⟨a, ha, rfl⟩ := List.mem_map.mp h
  split
  · exact .inl rfl
  · exact .inr ha

theorem map_replace {p : α → Bool} (h : ∀ r ∈ rows, p r = true → id row = id r) :
    (replace p row rows).map id = rows.map id := by
  rw [replace, List.map_map]
  refine List.map_congr_left fun r hr => ?_
  by_cases hp : p r = true <;> simp [hp, h r hr]

theorem filter_replace {p : α → Bool} (h : p row = true) (rows : List α) :
    (replace p row rows).filter (fun r => !p r) = rows.filter fun r => !p r := by
  induction rows with
  | nil => rfl
  | cons r rows ih =>
    rw [replace] at ih
    by_cases hp : p r = true <;> simp [replace, hp, h, ih]

/-- Replacing the row of an identifier keeps the rows apart exactly when
the new one is apart from the others. -/
theorem distinct_replace_iff (h : Distinct id slot rows) (hold : old ∈ rows) {p : α → Bool}
    (hp : ∀ r ∈ rows, p r = true ↔ id r = id old) :
    Distinct id slot (replace p row rows) ↔
      ∀ other ∈ rows, id other ≠ id old → Apart id slot other row := by
  obtain ⟨pre, post, rfl⟩ := List.append_of_mem hold
  have hperm : (pre ++ old :: post).Perm (old :: (pre ++ post)) := List.perm_middle
  obtain ⟨hapart, hrest⟩ := List.pairwise_cons.mp ((distinct_perm hperm).mp h)
  have hne : ∀ r ∈ pre ++ post, id r ≠ id old := fun r hr => (hapart r hr).1.symm
  -- only the row in the middle is selected
  have hself : ∀ l, (∀ r ∈ l, r ∈ pre ++ post) → replace p row l = l := by
    intro l hl
    refine (List.map_congr_left fun r hr => ?_).trans (List.map_id l)
    have hrm := hl r hr
    have hpr : ¬ p r := fun hpr =>
      hne r hrm ((hp r (hperm.mem_iff.mpr (List.mem_cons_of_mem _ hrm))).mp hpr)
    exact if_neg hpr
  have hsplit : replace p row (pre ++ old :: post) = pre ++ row :: post := by
    have hpold : p old := (hp old hold).mpr rfl
    have hpre := hself pre fun r hr => List.mem_append_left _ hr
    have hpost := hself post fun r hr => List.mem_append_right _ hr
    unfold replace at hpre hpost ⊢
    rw [List.map_append, List.map_cons, if_pos hpold, hpre, hpost]
  rw [hsplit, distinct_perm List.perm_middle, Distinct, List.pairwise_cons]
  constructor
  · rintro ⟨hrow, -⟩ other ho hother
    rcases List.mem_cons.mp (hperm.mem_iff.mp ho) with rfl | ho
    · exact absurd rfl hother
    · exact (hrow other ho).symm
  · intro hrow
    refine ⟨fun r hr => (hrow r ?_ (hne r hr)).symm, hrest⟩
    exact hperm.mem_iff.mpr (List.mem_cons_of_mem _ hr)

/-- A row whose slot is free may take the place of another under the same
or a fresh identifier. -/
theorem distinct_replace_free (h : Distinct id slot rows) (hold : old ∈ rows) {p : α → Bool}
    (hp : ∀ r ∈ rows, p r = true ↔ id r = id old) (hf : Free id slot rows row) :
    Distinct id slot (replace p row rows) ↔
      id row = id old ∨ ∀ other ∈ rows, id other ≠ id row := by
  rw [distinct_replace_iff h hold hp]
  constructor
  · intro ha
    by_cases hid : id row = id old
    · exact .inl hid
    · refine .inr fun other ho => ?_
      by_cases hother : id other = id old
      · exact hother ▸ Ne.symm hid
      · exact (ha other ho hother).1
  · rintro (hid | hfresh) other ho hother
    · have hne : id other ≠ id row := hid ▸ hother
      exact ⟨hne, hf other ho hne⟩
    · exact ⟨hfresh other ho, hf other ho (hfresh other ho)⟩

end Slots
